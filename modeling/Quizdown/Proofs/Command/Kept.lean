import Quizdown.Command.Convert
import Quizdown.Proofs.Command.Inputs
import Quizdown.Proofs.FileTree.Writing

/-!
No document is lost in a conversion where the quizzes go to places of their own: each to a place
that no other document's quiz goes to, and at which no document stands. Otherwise one is written over
the other, and nothing is said of it.
-/
set_option autoImplicit false

namespace Quizdown

namespace Command

open Workspace (SameDirectories Grows)

variable {settings : Settings} {directory : Option Text} {start w after : Workspace}
  {paths : Texts} {path : Text}

/-- Quizzes go to different places, and to none at which a document stands. Two paths of one file
are one document. -/
structure Apart (w : Workspace) (directory : Option Text) (paths : Texts) : Prop where
  outputs : ∀ a ∈ paths, ∀ b ∈ paths, ∀ p, w.locate (outputPath directory a) = .ok p →
    w.locate (outputPath directory b) = .ok p → w.locate a = w.locate b
  inputs : ∀ a ∈ paths, ∀ b ∈ paths, ∀ p, w.locate (outputPath directory a) = .ok p →
    w.locate b ≠ .ok p

def Delivered (settings : Settings) (directory : Option Text) (start now : Workspace)
    (path : Text) : Prop :=
  ∃ source xml p, start.read path = .ok source ∧ convertQuiz settings source = .ok xml ∧
    start.locate (outputPath directory path) = .ok p ∧
    Path.wantsDirectory (outputPath directory path) = false ∧
    now.tree.get? p = some (.file (some xml))

theorem readQuestions_eq_ok {questions : List Question}
    (h : readQuestions w settings path = .ok questions) :
    ∃ source, w.read path = .ok source ∧ parseQuiz settings source = .ok questions := by
  rw [readQuestions] at h
  split at h
  · cases h
  rename_i source hsource
  split at h
  · cases h
  rename_i parsed hparse
  obtain rfl := Except.ok.inj h
  exact ⟨source, hsource, hparse⟩

theorem convertDocument_cases (settings : Settings) (directory : Option Text) (w : Workspace)
    (path : Text) :
    (∃ e, convertDocument settings directory w path = (.error e, w)) ∨
      ∃ source xml after c, w.read path = .ok source ∧ convertQuiz settings source = .ok xml ∧
        w.write (outputPath directory path) xml = .ok after ∧
        convertDocument settings directory w path = (.ok c, after) := by
  rw [convertDocument]
  cases hquestions : readQuestions w settings path with
  | error e => exact .inl ⟨e, rfl⟩
  | ok questions =>
    obtain ⟨source, hsource, hparse⟩ := readQuestions_eq_ok hquestions
    have hxml : convertQuiz settings source = .ok (renderQuiz settings questions) := by
      rw [convertQuiz, hparse]
      rfl
    dsimp only
    cases hwrite : w.write (outputPath directory path) (renderQuiz settings questions) with
    | error e => exact .inl ⟨.files e, rfl⟩
    | ok after => exact .inr ⟨source, _, after, _, hsource, hxml, hwrite, rfl⟩

theorem Delivered.after_write {now : Workspace} {other source xml : Text} {p : Place}
    (h : Delivered settings directory start now other) (hapart : Apart start directory paths)
    (hother : other ∈ paths) (hpath : path ∈ paths) (hread : start.read path = .ok source)
    (hxml : convertQuiz settings source = .ok xml)
    (hp : start.locate (outputPath directory path) = .ok p) (hroot : p ≠ []) :
    Delivered settings directory start
      { now with tree := now.tree.put p (.file (some xml)) } other := by
  obtain ⟨source', xml', q, hread', hxml', hq, hwants, hstands⟩ := h
  refine ⟨source', xml', q, hread', hxml', hq, hwants, ?_⟩
  dsimp only
  rw [FileTree.get?_put _ hroot]
  split
  · -- only the same file, under another path, has its quiz here
    rename_i hqp
    subst hqp
    have hlocate := hapart.outputs path hpath other hother q hp hq
    obtain rfl := Workspace.read_unique hlocate hread hread'
    rw [Except.ok.inj (hxml.symm.trans hxml')]
  · exact hstands

theorem convertNext_eq {b : Batch} {result : Conversion}
    (h : convertDocument settings directory b.workspace path = (result, after)) :
    (b.convertNext settings directory path).workspace = after ∧
      (b.convertNext settings directory path).results = b.results ++ [(path, result)] := by
  rw [Batch.convertNext, h]
  exact ⟨rfl, rfl⟩

/-- What holds between two documents of a batch: the documents are as they were at the start, and
every quiz that was written stands in its place. -/
structure Kept (settings : Settings) (directory : Option Text) (start : Workspace) (paths : Texts)
    (b : Batch) : Prop where
  directories : SameDirectories start b.workspace
  sources : ∀ path ∈ paths, ∀ p, start.locate path = .ok p →
    b.workspace.tree.get? p = start.tree.get? p
  known : ∀ r ∈ b.results, r.1 ∈ paths
  delivered : ∀ path c, (path, .ok c) ∈ b.results →
    Delivered settings directory start b.workspace path

theorem kept_start : Kept settings directory start paths { workspace := start } where
  directories := .refl start
  sources _ _ _ _ := rfl
  known _ hr := nomatch hr
  delivered _ _ hr := nomatch hr

namespace Kept

variable {b : Batch}

theorem read_iff (h : Kept settings directory start paths b) (hpath : path ∈ paths)
    {source : Text} : b.workspace.read path = .ok source ↔ start.read path = .ok source := by
  rw [Workspace.read_eq_ok_iff, Workspace.read_eq_ok_iff]
  constructor
  · rintro ⟨p, hp, hsource, hwants⟩
    rw [h.directories.locate_iff] at hp
    exact ⟨p, hp, h.sources path hpath p hp ▸ hsource, hwants⟩
  · rintro ⟨p, hp, hsource, hwants⟩
    exact ⟨p, h.directories.locate_iff.mpr hp, (h.sources path hpath p hp).trans hsource, hwants⟩

theorem known_next (h : Kept settings directory start paths b) (hpath : path ∈ paths)
    {result : Conversion} : ∀ r ∈ b.results ++ [(path, result)], r.1 ∈ paths := by
  intro r hr
  rcases List.mem_append.mp hr with hr | hr
  · exact h.known r hr
  · exact List.mem_singleton.mp hr ▸ hpath

/-- Converting one more document keeps the others and their quizzes. -/
theorem convertNext (h : Kept settings directory start paths b)
    (hapart : Apart start directory paths) (hpath : path ∈ paths) :
    Kept settings directory start paths (b.convertNext settings directory path) := by
  rcases convertDocument_cases settings directory b.workspace path with
    ⟨e, hfails⟩ | ⟨source, xml, after, c, hread, hxml, hwrite, hconverts⟩
  · obtain ⟨hworkspace, hresults⟩ := convertNext_eq hfails
    refine ⟨hworkspace ▸ h.directories, hworkspace ▸ h.sources, hresults ▸ h.known_next hpath,
      fun other d hr => ?_⟩
    rw [hresults] at hr
    rw [hworkspace]
    rcases List.mem_append.mp hr with hr | hr
    · exact h.delivered other d hr
    · simp at hr
  · obtain ⟨hworkspace, hresults⟩ := convertNext_eq hconverts
    obtain ⟨p, hp, hwants, hfree, rfl⟩ := Workspace.write_eq_ok hwrite
    have hroot : p ≠ [] := FileTree.ne_root hfree
    rw [h.directories.locate_iff] at hp
    rw [h.read_iff hpath] at hread
    refine ⟨?_, fun other hother q hq => ?_, hresults ▸ h.known_next hpath, fun other d hr => ?_⟩
    · rw [hworkspace]
      exact h.directories.trans (Workspace.sameDirectories_of_write hfree)
    · have hne : q ≠ p := by
        rintro rfl
        exact hapart.inputs path hpath other hother q hp hq
      rw [hworkspace, FileTree.get?_put _ hroot, if_neg hne, h.sources other hother q hq]
    · rw [hresults] at hr
      rw [hworkspace]
      rcases List.mem_append.mp hr with hr | hr
      · exact (h.delivered other d hr).after_write hapart (h.known _ hr) hpath hread hxml hp hroot
      · obtain ⟨rfl, -⟩ := Prod.mk.inj (List.mem_singleton.mp hr)
        refine ⟨source, xml, p, hread, hxml, hp, hwants, ?_⟩
        rw [FileTree.get?_put _ hroot, if_pos rfl]

theorem foldl (h : Kept settings directory start paths b) (hapart : Apart start directory paths)
    {order : Texts} (horder : ∀ path ∈ order, path ∈ paths) :
    Kept settings directory start paths
      (order.foldl (Batch.convertNext settings directory) b) := by
  induction order generalizing b with
  | nil => exact h
  | cons path order ih =>
    obtain ⟨hpath, hmore⟩ := List.forall_mem_cons.mp horder
    exact ih (h.convertNext hapart hpath) hmore

end Kept

/-! What a run without an error tells. -/

theorem results_foldl (settings : Settings) (directory : Option Text) (order : Texts) (b : Batch) :
    (order.foldl (Batch.convertNext settings directory) b).results.map Prod.fst =
      b.results.map Prod.fst ++ order := by
  induction order generalizing b with
  | nil => simp
  | cons path order ih =>
    rw [List.foldl_cons, ih, (convertNext_eq (Prod.eta _).symm).2]
    simp

theorem mem_resultsFor {b : Batch} (hpath : path ∈ paths) (hknown : path ∈ b.results.map Prod.fst) :
    ∃ result, (path, result) ∈ b.results ∧ (path, result) ∈ b.resultsFor paths := by
  obtain ⟨r, hr, hsame⟩ := List.mem_map.mp hknown
  cases hfound : b.results.find? fun r => r.1 = path with
  | none => exact absurd hsame (by simpa using List.find?_eq_none.mp hfound r hr)
  | some found =>
    obtain ⟨other, result⟩ := found
    obtain rfl : other = path := by simpa using List.find?_some hfound
    exact ⟨result, List.mem_of_find?_eq_some hfound, List.mem_filterMap.mpr ⟨other, hpath, hfound⟩⟩

theorem exitCode_eq_zero_iff {o : Outcome} : o.exitCode = 0 ↔ o.error = none := by
  rw [Outcome.exitCode]
  cases o.error <;> simp

theorem incomplete?_eq_none_iff {inputs : Inputs} {failed : Nat} :
    incomplete? inputs failed = none ↔ failed = 0 ∧ inputs.unmatched = [] := by
  rw [incomplete?]
  cases inputs.unmatched <;> simp

/-- Without an error all is loaded and selected, and no document failed. -/
theorem convert_eq_zero {schedule : Texts → Texts} {patterns : Texts} {config : Option Text}
    {overrides : Config.Overrides}
    (h : (convert schedule w patterns config overrides directory).exitCode = 0) :
    ∃ loaded inputs prepared, Config.load w config overrides = .ok loaded ∧
      Inputs.select w patterns = .ok inputs ∧ prepare w directory = .ok prepared ∧
      let batch := Batch.convertAll loaded.settings directory prepared (schedule inputs.files)
      (∀ r ∈ batch.resultsFor inputs.files, isFailure r.2 = false) ∧
        (convert schedule w patterns config overrides directory).workspace = batch.workspace := by
  rw [exitCode_eq_zero_iff] at h
  rw [convert] at h ⊢
  cases hload : Config.load w config overrides with
  | error e =>
    rw [hload] at h
    cases h
  | ok loaded =>
    rw [hload] at h
    dsimp only at h ⊢
    cases hselect : Inputs.select w patterns with
    | error e =>
      rw [hselect] at h
      cases h
    | ok inputs =>
      rw [hselect] at h
      dsimp only at h ⊢
      cases hprepare : prepare w directory with
      | error e =>
        rw [hprepare] at h
        cases h
      | ok prepared =>
        rw [hprepare] at h
        refine ⟨loaded, inputs, prepared, rfl, rfl, rfl, ?_, rfl⟩
        have hfailed := (incomplete?_eq_none_iff.mp h).1
        rw [List.length_eq_zero_iff, List.filter_eq_nil_iff] at hfailed
        simpa using hfailed

theorem grows_prepare {prepared : Workspace} (h : prepare w directory = .ok prepared) :
    Grows w prepared := by
  cases directory with
  | none =>
    obtain rfl := Except.ok.inj h
    exact .refl w
  | some directory => exact Workspace.grows_ensureDirectoriesFrom h

theorem read_of_prepared {prepared : Workspace} {source : Text}
    (hprepared : Grows w prepared) (hfile : w.isFile path = true)
    (hread : prepared.read path = .ok source) : w.read path = .ok source := by
  obtain ⟨p, content, hp, hstands, hwants⟩ := Workspace.isFile_iff.mp hfile
  obtain ⟨q, hq, hsource, -⟩ := Workspace.read_eq_ok_iff.mp hread
  rw [hprepared.locate hp] at hq
  obtain rfl := Except.ok.inj hq
  rw [hprepared.keeps p _ hstands] at hsource
  exact Workspace.read_eq_ok_iff.mpr ⟨p, hp, hstands.trans hsource, hwants⟩

/-- If a conversion ends without an error, in whatever order the documents are converted, and the
places of their quizzes are apart, then every input is what it was before, and at its output path
stands the quiz converted from it. -/
theorem convert_keeps_documents {schedule : Texts → Texts} {w : Workspace} {patterns : Texts}
    {config : Option Text} {overrides : Config.Overrides} {directory : Option Text}
    (hschedule : ∀ files, (schedule files).Perm files)
    (hexit : (convert schedule w patterns config overrides directory).exitCode = 0) :
    ∃ loaded inputs prepared, Config.load w config overrides = .ok loaded ∧
      Inputs.select w patterns = .ok inputs ∧ prepare w directory = .ok prepared ∧
      (Apart prepared directory inputs.files →
        let after := (convert schedule w patterns config overrides directory).workspace
        ∀ path ∈ inputs.files, ∃ source xml, w.read path = .ok source ∧
          convertQuiz loaded.settings source = .ok xml ∧
          after.read (outputPath directory path) = .ok xml ∧ after.read path = .ok source) := by
  obtain ⟨loaded, inputs, prepared, hload, hselect, hprepare, hresults, hworkspace⟩ :=
    convert_eq_zero hexit
  refine ⟨loaded, inputs, prepared, hload, hselect, hprepare, ?_⟩
  intro hapart after path hpath
  have horder : ∀ other ∈ schedule inputs.files, other ∈ inputs.files :=
    fun other hother => (hschedule inputs.files).mem_iff.mp hother
  have hkept : Kept loaded.settings directory prepared inputs.files
      (Batch.convertAll loaded.settings directory prepared (schedule inputs.files)) :=
    kept_start.foldl hapart horder
  have hconverted : path ∈ (Batch.convertAll loaded.settings directory prepared
      (schedule inputs.files)).results.map Prod.fst := by
    rw [Batch.convertAll, results_foldl]
    exact (hschedule inputs.files).mem_iff.mpr hpath
  obtain ⟨result, hresult, hshown⟩ := mem_resultsFor hpath hconverted
  cases result with
  | error e => cases hresults _ hshown
  | ok c =>
    obtain ⟨source, xml, p, hread, hxml, hp, hwants, hstands⟩ := hkept.delivered path c hresult
    have hbefore := read_of_prepared (grows_prepare hprepare)
      (Inputs.isFile_of_mem_select hselect hpath) hread
    have hafter : after = (Batch.convertAll loaded.settings directory prepared
        (schedule inputs.files)).workspace := hworkspace
    rw [hafter]
    refine ⟨source, xml, hbefore, hxml, ?_, (hkept.read_iff hpath).mpr hread⟩
    exact Workspace.read_eq_ok_iff.mpr ⟨p, hkept.directories.locate_iff.mpr hp, hstands, hwants⟩

theorem convert_keeps_documents_namesakes :
    let w : Workspace := { tree := ⟨[
      (["a.md".toList], .file (some "2 + 2?\n\n- 4\n".toList)),
      (["b".toList], .directory),
      (["b".toList, "a.md".toList], .file (some "3 + 3?\n\n- 6\n".toList))]⟩ }
    let patterns := ["a.md".toList, "b/*.md".toList]
    let outcome := convert List.reverse w patterns none {} none
    ((∀ files : Texts, files.reverse.Perm files) ∧ outcome.exitCode = 0) ∧
      ∀ path ∈ ["a.md".toList, "b/a.md".toList], ∃ source xml, w.read path = .ok source ∧
        convertQuiz {} source = .ok xml ∧
        outcome.workspace.read (outputPath none path) = .ok xml ∧
        outcome.workspace.read path = .ok source := by
  intro w patterns outcome
  have hexit : outcome.exitCode = 0 := by decide +kernel
  have hschedule : ∀ files : Texts, files.reverse.Perm files := List.reverse_perm
  refine ⟨⟨hschedule, hexit⟩, ?_⟩
  obtain ⟨loaded, inputs, prepared, hload, hselect, hprepare, hkept⟩ :=
    convert_keeps_documents hschedule hexit
  have hsettings : loaded = {} := by
    have hdefault : Config.load w none {} = .ok {} := rfl
    rw [hdefault] at hload
    exact (Except.ok.inj hload).symm
  have hfiles : inputs.files = ["a.md".toList, "b/a.md".toList] := by
    have hselected : Inputs.select w patterns = .ok ⟨["a.md".toList, "b/a.md".toList], []⟩ := by
      decide +kernel
    rw [hselected] at hselect
    rw [← Except.ok.inj hselect]
  obtain rfl : w = prepared := Except.ok.inj hprepare
  have hapart : Apart w none ["a.md".toList, "b/a.md".toList] := by
    have houtputs : ∀ a ∈ ["a.md".toList, "b/a.md".toList], ∀ b ∈ ["a.md".toList, "b/a.md".toList],
        w.locate (outputPath none a) = w.locate (outputPath none b) →
          w.locate a = w.locate b := by
      decide +kernel
    have hinputs : ∀ a ∈ ["a.md".toList, "b/a.md".toList], ∀ b ∈ ["a.md".toList, "b/a.md".toList],
        w.locate (outputPath none a) ≠ w.locate b := by
      decide +kernel
    exact ⟨fun a ha b hb p hp hq => houtputs a ha b hb (hp.trans hq.symm),
      fun a ha b hb p hp hq => hinputs a ha b hb (hp.trans hq.symm)⟩
  rw [hsettings, hfiles] at hkept
  exact hkept hapart

/-- A document under the name of its own quiz is overwritten, and of two documents with one place
for their quizzes only one is kept. Neither is an error. -/
theorem convert_loses_documents :
    let first := "2 + 2?\n\n- 4\n".toList
    let second := "3 + 3?\n\n- 6\n".toList
    let single : Workspace := { tree := ⟨[(["q.xml".toList], .file (some first))]⟩ }
    let twins : Workspace := { tree := ⟨[(["a.md".toList], .file (some first)),
      (["a.txt".toList], .file (some second))]⟩ }
    let overwritten := convert id single ["q.xml".toList] none {} none
    let lost := convert id twins ["a.md".toList, "a.txt".toList] none {} none
    (overwritten.exitCode = 0 ∧ single.read "q.xml".toList = .ok first ∧
        overwritten.workspace.read "q.xml".toList ≠ .ok first) ∧
      lost.exitCode = 0 ∧ (convertQuiz {} first).isOk ∧
        (lost.workspace.read (outputPath none "a.md".toList)).toOption ≠
          (convertQuiz {} first).toOption := by
  decide +kernel

end Command
end Quizdown
