import Quizdown.Proofs.Command.Kept

/-! A document that fails is no matter to the others. In whatever order documents are converted, the
quizzes of those that parse are written, no other file changes, and what is told is in the order of
the inputs. -/
set_option autoImplicit false

namespace Quizdown

namespace Command

open Workspace (SameDirectories SameFiles)

variable {settings : Settings} {directory : Option Text} {start w : Workspace} {paths order : Texts}
  {path : Text}

def Parses (settings : Settings) (w : Workspace) (path : Text) : Prop :=
  ∃ questions, readQuestions w settings path = .ok questions

def report (settings : Settings) (directory : Option Text) (w : Workspace) (path : Text) :
    Conversion :=
  (readQuestions w settings path).map fun questions =>
    ⟨outputPath directory path, questions.length⟩

/-- Each document can be read, and if it parses, a file can be written at the place for its quiz. -/
structure Accessible (settings : Settings) (directory : Option Text) (w : Workspace)
    (paths : Texts) : Prop where
  readable : ∀ path ∈ paths, ∃ source, w.read path = .ok source
  writable : ∀ path ∈ paths, Parses settings w path →
    ∃ after, w.write (outputPath directory path) [] = .ok after

/-- After some documents of a batch: their results are told, and no file is changed but where the
quizzes go of those that parse. -/
structure Progress (settings : Settings) (directory : Option Text) (start : Workspace)
    (paths done : Texts) (b : Batch) : Prop where
  kept : Kept settings directory start paths b
  results : b.results = done.map fun path => (path, report settings directory start path)
  untouched : ∀ p, (∀ path ∈ done, Parses settings start path →
    start.locate (outputPath directory path) ≠ .ok p) →
      b.workspace.tree.get? p = start.tree.get? p

theorem Kept.convertDocument_cases {b : Batch} (h : Kept settings directory start paths b)
    (haccess : Accessible settings directory start paths) (hpath : path ∈ paths) :
    (∃ e, readQuestions start settings path = .error e ∧
      convertDocument settings directory b.workspace path =
        (report settings directory start path, b.workspace)) ∨
    ∃ questions p, readQuestions start settings path = .ok questions ∧
      start.locate (outputPath directory path) = .ok p ∧ p ≠ [] ∧
      convertDocument settings directory b.workspace path =
        (report settings directory start path,
          { b.workspace with
            tree := b.workspace.tree.put p (.file (some (renderQuiz settings questions))) }) := by
  obtain ⟨source, hsource⟩ := haccess.readable path hpath
  have hsame : readQuestions b.workspace settings path = readQuestions start settings path := by
    rw [readQuestions, readQuestions, (h.read_iff hpath).mpr hsource, hsource]
  rw [convertDocument, report, hsame]
  cases hquestions : readQuestions start settings path with
  | error e => exact .inl ⟨e, rfl, rfl⟩
  | ok questions =>
    obtain ⟨after, hafter⟩ := haccess.writable path hpath ⟨questions, hquestions⟩
    obtain ⟨p, hp, hwants, hfree, -⟩ := Workspace.write_eq_ok hafter
    have hwrite := Workspace.write_eq_of (h.directories.locate_iff.mpr hp) hwants
      ((h.directories.iff p).not.mpr hfree)
    refine .inr ⟨questions, p, rfl, hp, FileTree.ne_root hfree, ?_⟩
    simp only [hwrite]
    rfl

theorem progress_start : Progress settings directory start paths [] { workspace := start } where
  kept := kept_start
  results := rfl
  untouched _ _ := rfl

namespace Progress

variable {done : Texts} {b : Batch}

theorem convertNext (h : Progress settings directory start paths done b)
    (hapart : Apart start directory paths) (haccess : Accessible settings directory start paths)
    (hpath : path ∈ paths) :
    Progress settings directory start paths (done ++ [path])
      (b.convertNext settings directory path) := by
  have hkept := h.kept.convertNext hapart hpath
  rcases h.kept.convertDocument_cases haccess hpath with
    ⟨e, -, hfails⟩ | ⟨questions, p, hquestions, hp, hroot, hconverts⟩
  · obtain ⟨hworkspace, hresults⟩ := convertNext_eq hfails
    refine ⟨hkept, by rw [hresults, h.results, List.map_append]; rfl, fun q hq => ?_⟩
    rw [hworkspace]
    exact h.untouched q fun other hother => hq other (List.mem_append_left _ hother)
  · obtain ⟨hworkspace, hresults⟩ := convertNext_eq hconverts
    refine ⟨hkept, by rw [hresults, h.results, List.map_append]; rfl, fun q hq => ?_⟩
    rw [List.forall_mem_append, List.forall_mem_singleton] at hq
    have hne : q ≠ p := by
      rintro rfl
      exact hq.2 ⟨questions, hquestions⟩ hp
    rw [hworkspace, FileTree.get?_put _ hroot, if_neg hne]
    exact h.untouched q hq.1

theorem foldl (h : Progress settings directory start paths done b)
    (hapart : Apart start directory paths) (haccess : Accessible settings directory start paths)
    (horder : ∀ path ∈ order, path ∈ paths) :
    Progress settings directory start paths (done ++ order)
      (order.foldl (Batch.convertNext settings directory) b) := by
  induction order generalizing done b with
  | nil => simpa using h
  | cons path order ih =>
    obtain ⟨hpath, hmore⟩ := List.forall_mem_cons.mp horder
    simpa using ih (h.convertNext hapart haccess hpath) hmore

theorem written (h : Progress settings directory start paths done b) (hpath : path ∈ done)
    {questions : List Question} (hquestions : readQuestions start settings path = .ok questions) :
    b.workspace.read (outputPath directory path) = .ok (renderQuiz settings questions) := by
  have hresult : (path, report settings directory start path) ∈ b.results := by
    rw [h.results]
    exact List.mem_map_of_mem hpath
  rw [report, hquestions] at hresult
  obtain ⟨source, xml, p, hread, hxml, hp, hwants, hstands⟩ :=
    h.kept.delivered path _ hresult
  obtain ⟨source', hread', hparse⟩ := readQuestions_eq_ok hquestions
  obtain rfl := Except.ok.inj (hread.symm.trans hread')
  rw [convertQuiz, hparse] at hxml
  obtain rfl := Except.ok.inj hxml
  exact Workspace.read_eq_ok_iff.mpr
    ⟨p, h.kept.directories.locate_iff.mpr hp, hstands, hwants⟩

/-- No other quiz goes to the place for that of a document that fails. -/
theorem spared (h : Progress settings directory start paths done b)
    (hapart : Apart start directory paths) (haccess : Accessible settings directory start paths)
    (hdone : ∀ other ∈ done, other ∈ paths) (hpath : path ∈ paths)
    (hfails : ¬ Parses settings start path) {p : Place}
    (hp : start.locate (outputPath directory path) = .ok p) :
    b.workspace.tree.get? p = start.tree.get? p := by
  refine h.untouched p fun other hother ⟨questions, hquestions⟩ hq => hfails ⟨questions, ?_⟩
  obtain ⟨source, hread, hparse⟩ := readQuestions_eq_ok hquestions
  obtain ⟨source', hread'⟩ := haccess.readable path hpath
  have hlocate := hapart.outputs path hpath other (hdone other hother) p hp hq
  obtain rfl := Workspace.read_unique hlocate hread' hread
  simp only [readQuestions, hread', hparse]

end Progress

theorem resultsFor_eq {b : Batch} {result : Text → Conversion}
    (hresults : b.results = order.map fun path => (path, result path))
    (hpaths : ∀ path ∈ paths, path ∈ order) :
    b.resultsFor paths = paths.map fun path => (path, result path) := by
  induction paths with
  | nil => rfl
  | cons path paths ih =>
    obtain ⟨hpath, hmore⟩ := List.forall_mem_cons.mp hpaths
    have hfound : b.results.find? (fun r => r.1 = path) = some (path, result path) := by
      rw [hresults, List.find?_map]
      cases hfind : order.find? ((fun r => decide (r.1 = path)) ∘
          fun other => (other, result other)) with
      | none =>
        have hother := List.find?_eq_none.mp hfind path hpath
        simp at hother
      | some other =>
        obtain rfl : other = path := by simpa using List.find?_some hfind
        rfl
    have hrest := ih hmore
    rw [Batch.resultsFor] at hrest ⊢
    rw [List.filterMap_cons, hfound, hrest, List.map_cons]

theorem isFailure_report : isFailure (report settings directory w path) = false ↔
    Parses settings w path := by
  rw [report, Parses]
  cases readQuestions w settings path <;> simp [isFailure, Except.map]

/-- What is told of a document: its path with its error, or with the path of its quiz and the
number of its questions. -/
def told (settings : Settings) (directory : Option Text) (w : Workspace) (path : Text) : Text :=
  match readQuestions w settings path with
  | .error e => path ++ ": ".toList ++ e.message
  | .ok questions =>
    path ++ " -> ".toList ++ outputPath directory path ++ " (".toList ++
      Nat.toDigits 10 questions.length ++ " questions)".toList

theorem conversionLine_report :
    conversionLine path (report settings directory w path) = told settings directory w path := by
  rw [report, told]
  cases readQuestions w settings path <;> rfl

structure Isolated (settings : Settings) (directory : Option Text) (w prepared : Workspace)
    (patterns : Texts) (inputs : Inputs) (o : Outcome) : Prop where
  directories : SameDirectories prepared o.workspace
  written : ∀ path ∈ inputs.files, ∀ questions, readQuestions w settings path = .ok questions →
    o.workspace.read (outputPath directory path) = .ok (renderQuiz settings questions)
  others : ∀ p, (∀ path ∈ inputs.files, Parses settings w path →
    prepared.locate (outputPath directory path) ≠ .ok p) → ∀ content,
      o.workspace.tree.get? p = some (.file content) ↔ w.tree.get? p = some (.file content)
  spared : ∀ path ∈ inputs.files, ¬ Parses settings w path → ∀ p,
    prepared.locate (outputPath directory path) = .ok p → ∀ content,
      o.workspace.tree.get? p = some (.file content) ↔ w.tree.get? p = some (.file content)
  lines : o.lines =
    inputs.unmatched.map (fun pattern => "No files match ".toList ++ pattern) ++
    inputs.files.map (told settings directory w) ++
    if o.exitCode = 0 then
      ["Converted ".toList ++ Nat.toDigits 10 inputs.files.length ++ " documents".toList]
    else []
  exitCode : o.exitCode = 0 ↔ (∀ path ∈ inputs.files, Parses settings w path) ∧
    ∀ pattern ∈ patterns, Inputs.findsNothing (Glob.expand w) w.isFile pattern = false

theorem exitCode_eq_of_iff {o u : Outcome} (h : o.exitCode = 0 ↔ u.exitCode = 0) :
    o.exitCode = u.exitCode := by
  rw [exitCode_eq_zero_iff, exitCode_eq_zero_iff] at h
  rw [Outcome.exitCode, Outcome.exitCode]
  cases ho : o.error <;> cases hu : u.error <;> simp [ho, hu] at h ⊢

theorem Isolated.unique {prepared : Workspace} {patterns : Texts} {inputs : Inputs} {o u : Outcome}
    (ho : Isolated settings directory w prepared patterns inputs o)
    (hu : Isolated settings directory w prepared patterns inputs u) :
    o.lines = u.lines ∧ o.exitCode = u.exitCode ∧
      ∀ p, o.workspace.tree.get? p = u.workspace.tree.get? p := by
  have hexit := exitCode_eq_of_iff (ho.exitCode.trans hu.exitCode.symm)
  refine ⟨by rw [ho.lines, hu.lines, hexit], hexit, fun p => Option.ext fun e => ?_⟩
  cases e with
  | directory => exact (ho.directories.iff p).trans (hu.directories.iff p).symm
  | file content =>
    by_cases hp : ∃ path ∈ inputs.files, Parses settings w path ∧
        prepared.locate (outputPath directory path) = .ok p
    · obtain ⟨path, hpath, ⟨questions, hquestions⟩, hp⟩ := hp
      -- a place for a quiz holds that quiz after both
      have hplace {v : Outcome} (hv : Isolated settings directory w prepared patterns inputs v) :
          v.workspace.tree.get? p = some (.file (some (renderQuiz settings questions))) := by
        obtain ⟨q, hq, hstands, -⟩ :=
          Workspace.read_eq_ok_iff.mp (hv.written path hpath questions hquestions)
        rw [hv.directories.locate_iff, hp] at hq
        obtain rfl := Except.ok.inj hq
        exact hstands
      rw [hplace ho, hplace hu]
    · have hfree : ∀ path ∈ inputs.files, Parses settings w path →
          prepared.locate (outputPath directory path) ≠ .ok p :=
        fun path hpath hparses hlocate => hp ⟨path, hpath, hparses, hlocate⟩
      exact (ho.others p hfree content).trans (hu.others p hfree content).symm

theorem sameFiles_prepare {prepared : Workspace} (h : prepare w directory = .ok prepared) :
    SameFiles w prepared := by
  cases directory with
  | none =>
    obtain rfl := Except.ok.inj h
    exact .refl w
  | some directory => exact Workspace.sameFiles_ensureDirectoriesFrom h

theorem readQuestions_prepared {prepared : Workspace}
    (hprepare : prepare w directory = .ok prepared) (hfile : w.isFile path = true)
    (hread : ∃ source, prepared.read path = .ok source) :
    readQuestions prepared settings path = readQuestions w settings path := by
  obtain ⟨source, hsource⟩ := hread
  rw [readQuestions, readQuestions, hsource,
    read_of_prepared (grows_prepare hprepare) hfile hsource]

theorem progress_convertAll (hapart : Apart start directory paths)
    (haccess : Accessible settings directory start paths) (horder : order.Perm paths) :
    Progress settings directory start paths order
      (Batch.convertAll settings directory start order) :=
  progress_start.foldl hapart haccess fun _ hpath => horder.mem_iff.mp hpath

theorem resultsFor_convertAll (hapart : Apart start directory paths)
    (haccess : Accessible settings directory start paths) (horder : order.Perm paths) :
    (Batch.convertAll settings directory start order).resultsFor paths =
      paths.map fun path => (path, report settings directory start path) :=
  resultsFor_eq (progress_convertAll hapart haccess horder).results
    fun _ hpath => horder.mem_iff.mpr hpath

section Convert

variable {schedule : Texts → Texts} {patterns : Texts} {config : Option Text}
  {overrides : Config.Overrides} {loaded : Config.Loaded} {inputs : Inputs} {prepared : Workspace}

theorem convert_batch (schedule : Texts → Texts)
    (hload : Config.load w config overrides = .ok loaded)
    (hselect : Inputs.select w patterns = .ok inputs)
    (hprepare : prepare w directory = .ok prepared) :
    let o := convert schedule w patterns config overrides directory
    let batch := Batch.convertAll loaded.settings directory prepared (schedule inputs.files)
    let results := batch.resultsFor inputs.files
    o.workspace = batch.workspace ∧
      o.error = incomplete? inputs (results.filter fun r => isFailure r.2).length ∧
      o.lines = inputs.unmatched.map unmatchedLine ++
        (results.map fun r => conversionLine r.1 r.2) ++
          if o.error.isSome then [] else [successLine inputs] := by
  simp only [convert, hload, hselect, hprepare, and_self]

theorem convert_refused (h : (Config.load w config overrides).isOk = false ∨
    (Inputs.select w patterns).isOk = false) :
    let o := convert schedule w patterns config overrides directory
    o.workspace = w ∧ o.exitCode = 1 := by
  unfold convert
  cases hload : Config.load w config overrides with
  | error e => exact ⟨rfl, rfl⟩
  | ok loaded =>
    cases hselect : Inputs.select w patterns with
    | error e => exact ⟨rfl, rfl⟩
    | ok inputs => simp [hload, hselect, Except.isOk, Except.toBool] at h

theorem isolated_convert (hload : Config.load w config overrides = .ok loaded)
    (hselect : Inputs.select w patterns = .ok inputs)
    (hprepare : prepare w directory = .ok prepared)
    (hapart : Apart prepared directory inputs.files)
    (haccess : Accessible loaded.settings directory prepared inputs.files)
    (hschedule : (schedule inputs.files).Perm inputs.files) :
    Isolated loaded.settings directory w prepared patterns inputs
      (convert schedule w patterns config overrides directory) := by
  obtain ⟨hworkspace, herror, hlines⟩ := convert_batch schedule hload hselect hprepare
  have hprogress : Progress loaded.settings directory prepared inputs.files _ _ :=
    progress_convertAll hapart haccess hschedule
  rw [resultsFor_convertAll hapart haccess hschedule] at herror hlines
  -- making the directory for results changes no document
  have hsame : ∀ path ∈ inputs.files, readQuestions prepared loaded.settings path =
      readQuestions w loaded.settings path := fun path hpath =>
    readQuestions_prepared hprepare (Inputs.isFile_of_mem_select hselect hpath)
      (haccess.readable path hpath)
  have hparses : ∀ path ∈ inputs.files,
      (Parses loaded.settings prepared path ↔ Parses loaded.settings w path) := fun path hpath => by
    rw [Parses, Parses, hsame path hpath]
  have horder : ∀ path, path ∈ schedule inputs.files ↔ path ∈ inputs.files := fun path =>
    hschedule.mem_iff
  have hfiles := sameFiles_prepare hprepare
  constructor
  case directories =>
    rw [hworkspace]
    exact hprogress.kept.directories
  case written =>
    intro path hpath questions hquestions
    rw [hworkspace]
    exact hprogress.written ((horder path).mpr hpath) ((hsame path hpath).trans hquestions)
  case others =>
    intro p hp content
    rw [hworkspace, hprogress.untouched p fun path hpath hq =>
      hp path ((horder path).mp hpath) ((hparses path ((horder path).mp hpath)).mp hq)]
    exact hfiles p content
  case spared =>
    intro path hpath hfails p hp content
    rw [hworkspace, hprogress.spared hapart haccess (fun other => (horder other).mp) hpath
      ((hparses path hpath).not.mpr hfails) hp]
    exact hfiles p content
  case lines =>
    have htold : ∀ path ∈ inputs.files, conversionLine path (report loaded.settings directory
        prepared path) = told loaded.settings directory w path := fun path hpath => by
      rw [conversionLine_report, told, told, hsame path hpath]
    rw [hlines, List.map_map, ← List.map_congr_left htold]
    cases hend : (convert schedule w patterns config overrides directory).error <;>
      simp [Outcome.exitCode, hend] <;> rfl
  case exitCode =>
    rw [exitCode_eq_zero_iff, herror, incomplete?_eq_none_iff, Inputs.unmatched_eq_nil_iff hselect]
    refine and_congr_left fun _ => ?_
    rw [List.length_eq_zero_iff, List.filter_eq_nil_iff, List.forall_mem_map]
    simp only [Bool.not_eq_true, isFailure_report]
    exact forall₂_congr hparses

end Convert

/-- A fault of the configuration or of a pattern is told before any file is written. Otherwise the
quizzes of the documents that parse are written, and no other file changes, not even in the place
for the quiz of a document that fails. All is the same in every order of the documents. -/
theorem convert_isolates {schedule : Texts → Texts} {w : Workspace} {patterns : Texts}
    {config : Option Text} {overrides : Config.Overrides} {directory : Option Text}
    (hschedule : ∀ files, (schedule files).Perm files) :
    let o := convert schedule w patterns config overrides directory
    (((Config.load w config overrides).isOk = false ∨ (Inputs.select w patterns).isOk = false) →
      o.workspace = w ∧ o.exitCode = 1) ∧
    ∀ loaded inputs prepared, Config.load w config overrides = .ok loaded →
      Inputs.select w patterns = .ok inputs → prepare w directory = .ok prepared →
      Apart prepared directory inputs.files →
      Accessible loaded.settings directory prepared inputs.files →
      Isolated loaded.settings directory w prepared patterns inputs o ∧
        ∀ order : Texts → Texts, (order inputs.files).Perm inputs.files →
          let u := convert order w patterns config overrides directory
          o.lines = u.lines ∧ o.exitCode = u.exitCode ∧
            ∀ p, o.workspace.tree.get? p = u.workspace.tree.get? p := by
  intro o
  refine ⟨convert_refused, fun loaded inputs prepared hload hselect hprepare hapart haccess => ?_⟩
  have hisolated := isolated_convert hload hselect hprepare hapart haccess (hschedule inputs.files)
  exact ⟨hisolated, fun order horder => hisolated.unique
    (isolated_convert hload hselect hprepare hapart haccess horder)⟩

theorem convert_isolates_mixed :
    let w : Workspace := { tree := ⟨[
      (["a.md".toList], .file (some "2 + 2?\n\n- 4\n".toList)),
      (["b.md".toList], .file (some "No list.\n".toList)),
      (["b.xml".toList], .file (some "old".toList))]⟩ }
    let patterns := ["a.md".toList, "b.md".toList, "c.md".toList]
    let inputs : Inputs := ⟨["a.md".toList, "b.md".toList], ["c.md".toList]⟩
    let o := convert List.reverse w patterns none {} none
    let refused := convert List.reverse w ["***".toList] none {} none
    (Inputs.select w patterns = .ok inputs ∧ Apart w none inputs.files ∧
        Accessible {} none w inputs.files) ∧
      Isolated {} none w w patterns inputs o ∧ o.exitCode ≠ 0 ∧
        o.lines = (convert id w patterns none {} none).lines ∧
        "a.md -> a.xml (1 questions)".toList ∈ o.lines ∧
        o.workspace.tree.get? ["b.xml".toList] = some (.file (some "old".toList)) ∧
        refused.workspace = w := by
  intro w patterns inputs o refused
  have hschedule : ∀ files : Texts, files.reverse.Perm files := List.reverse_perm
  have hselect : Inputs.select w patterns = .ok inputs := by decide +kernel
  have hapart : Apart w none inputs.files := by
    have houtputs : ∀ a ∈ inputs.files, ∀ b ∈ inputs.files,
        w.locate (outputPath none a) = w.locate (outputPath none b) →
          w.locate a = w.locate b := by
      decide +kernel
    have hinputs : ∀ a ∈ inputs.files, ∀ b ∈ inputs.files,
        w.locate (outputPath none a) ≠ w.locate b := by
      decide +kernel
    exact ⟨fun a ha b hb p hp hq => houtputs a ha b hb (hp.trans hq.symm),
      fun a ha b hb p hp hq => hinputs a ha b hb (hp.trans hq.symm)⟩
  have haccess : Accessible {} none w inputs.files := by
    constructor <;> rw [List.forall_mem_cons, List.forall_mem_singleton]
    · exact ⟨⟨_, rfl⟩, ⟨_, rfl⟩⟩
    · exact ⟨fun _ => ⟨_, rfl⟩, fun _ => ⟨_, rfl⟩⟩
  obtain ⟨hisolated, horder⟩ :=
    (@convert_isolates List.reverse w patterns none {} none hschedule).2 {} inputs w rfl hselect
      rfl hapart haccess
  have hfails : ¬ Parses {} w "b.md".toList := by
    have hrefused : (readQuestions w {} "b.md".toList).isOk = false := by decide +kernel
    rintro ⟨questions, hquestions⟩
    rw [hquestions] at hrefused
    cases hrefused
  have hmem : "b.md".toList ∈ inputs.files := by decide
  have htold : told {} none w "a.md".toList = "a.md -> a.xml (1 questions)".toList := by
    decide +kernel
  have hline : told {} none w "a.md".toList ∈ o.lines := by
    rw [hisolated.lines]
    exact List.mem_append_left _ (List.mem_append_right _ (List.mem_map_of_mem (by decide)))
  refine ⟨⟨hselect, hapart, haccess⟩, hisolated, fun hexit => ?_, (horder id (.refl _)).1,
    htold ▸ hline, ?_, ?_⟩
  · exact hfails ((hisolated.exitCode.mp hexit).1 _ hmem)
  · exact (hisolated.spared _ hmem hfails ["b.xml".toList] rfl _).mpr rfl
  · exact ((convert_isolates hschedule).1 (.inr (by decide +kernel))).1

end Command
end Quizdown
