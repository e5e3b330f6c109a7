import Quizdown.Config.Load
import Quizdown.Proofs.Decimal.Value
import Quizdown.Proofs.Text.Blank

/-! Settings in layers: what the command line asks for, else what the configuration file gives, else
the default. The values of the file are checked before the command line is regarded, and it touches
none that are checked. -/
set_option autoImplicit false

namespace Quizdown
namespace Config

open Toml (Value Table)
open Binary64 (ofFloat)

structure WrittenQuiz where
  numbering : Option Numbering := none
  shuffleAnswers : Option Bool := none
  forceMulti : Option Bool := none
  matchingSeparator : Option Text := none
  defaultGrade : Option Float := none
  penalty : Option Float := none

structure WrittenTags where
  general : Option Texts := none
  multichoice : Option Texts := none
  matching : Option Texts := none
  shortanswer : Option Texts := none
  numerical : Option Texts := none

structure Written where
  quiz : WrittenQuiz := {}
  tags : WrittenTags := {}

def given? {α : Type} (read? : Value → Option α) : Option Value → Option (Option α)
  | none => some none
  | some v => (read? v).map some

def writtenQuiz? : Option Value → Option WrittenQuiz
  | none => some {}
  | some v => do
    match ← fields? quizKeys v with
    | [numbering, shuffle, force, separator, grade, penalty] =>
      some
        { numbering := ← given? numbering? numbering
          shuffleAnswers := ← given? boolean? shuffle
          forceMulti := ← given? boolean? force
          matchingSeparator := ← given? text? separator
          defaultGrade := ← given? number? grade
          penalty := ← given? number? penalty }
    | _ => none

def writtenTags? : Option Value → Option WrittenTags
  | none => some {}
  | some v => do
    match ← fields? tagKeys v with
    | [general, multichoice, matching, shortanswer, numerical] =>
      some
        { general := ← given? texts? general
          multichoice := ← given? texts? multichoice
          matching := ← given? texts? matching
          shortanswer := ← given? texts? shortanswer
          numerical := ← given? texts? numerical }
    | _ => none

def written? (document : Text) : Option Written := do
  let table ← Toml.read? document
  some
    { quiz := ← writtenQuiz? (Table.get? table "quiz".toList)
      tags := ← writtenTags? (Table.get? table "tags".toList) }

/-- The command line comes before the file, and the file before the defaults; the general tags of
the file and those of the command line are joined. -/
def layered (o : Overrides) (written : Written) : Settings :=
  let default : Settings := {}
  { numbering := (o.numbering.or written.quiz.numbering).getD default.numbering
    shuffleAnswers := (o.shuffleAnswers.or written.quiz.shuffleAnswers).getD default.shuffleAnswers
    forceMulti := written.quiz.forceMulti.getD default.forceMulti
    matchingSeparator := written.quiz.matchingSeparator.getD default.matchingSeparator
    defaultGrade := written.quiz.defaultGrade.getD default.defaultGrade
    penalty := written.quiz.penalty.getD default.penalty
    tags :=
      { general := written.tags.general.getD default.tags.general ++ o.tags
        multichoice := written.tags.multichoice.getD default.tags.multichoice
        matching := written.tags.matching.getD default.tags.matching
        shortanswer := written.tags.shortanswer.getD default.tags.shortanswer
        numerical := written.tags.numerical.getD default.tags.numerical } }

/-- The file that is named, or else the one that is found, and what it gives; without a file nothing
is given. -/
inductive Provides (w : Workspace) : Option Text → Option Text → Written → Prop
  | named {path document : Text} {written : Written} (hread : w.read path = .ok document)
      (hwritten : written? document = some written) : Provides w (some path) (some path) written
  | discovered {place : Place} {document : Text} {written : Written}
      (hplace : discover? w.tree w.here = some place) (hread : w.read place.text = .ok document)
      (hwritten : written? document = some written) : Provides w none (some place.text) written
  | absent (hplace : discover? w.tree w.here = none) : Provides w none none {}

def Meets (s : Settings) : SettingsFault → Prop
  | .blankSeparator => ∃ c ∈ s.matchingSeparator, Text.isBlank c = false
  | .badGrade => ∃ grade, (ofFloat s.defaultGrade).value? = some grade ∧ 0 ≤ grade
  | .badPenalty => ∃ penalty, (ofFloat s.penalty).value? = some penalty ∧ 0 ≤ penalty ∧ penalty ≤ 1

variable {w : Workspace} {s : Settings} {o : Overrides} {written : Written} {document path : Text}
  {named : Option Text} {l : Loaded} {f : SettingsFault}

/-! What is read from a document. -/

theorem field_eq {α : Type} (read? : Value → Option α) (default : α) (v : Option Value) :
    field read? default v = (given? read? v).map fun x => x.getD default := by
  cases v with
  | none => rfl
  | some v =>
    rw [field, given?, Option.map_map]
    exact Option.map_id'.symm

theorem fields?_quizKeys (v : Value) : fields? quizKeys v = none ∨
    ∃ numbering shuffle force separator grade penalty, fields? quizKeys v =
      some [numbering, shuffle, force, separator, grade, penalty] := by
  cases v with
  | table t => exact .inr ⟨_, _, _, _, _, _, rfl⟩
  | array items => exact .inr ⟨_, _, _, _, _, _, rfl⟩
  | _ => exact .inl rfl

theorem fields?_tagKeys (v : Value) : fields? tagKeys v = none ∨
    ∃ general multichoice matching shortanswer numerical, fields? tagKeys v =
      some [general, multichoice, matching, shortanswer, numerical] := by
  cases v with
  | table t => exact .inr ⟨_, _, _, _, _, rfl⟩
  | array items => exact .inr ⟨_, _, _, _, _, rfl⟩
  | _ => exact .inl rfl

theorem readQuiz_eq (v : Value) :
    readQuiz {} v = (writtenQuiz? (some v)).map fun quiz => layered {} { quiz := quiz } := by
  rw [readQuiz, writtenQuiz?]
  rcases fields?_quizKeys v with hnone | ⟨_, _, _, _, _, _, hsome⟩
  · rw [hnone]
    rfl
  · simp only [hsome, field_eq, Option.bind_eq_bind, Option.bind_some, Option.map_bind,
      Option.bind_map, Function.comp_def]
    rfl

theorem readTags_eq (v : Value) :
    readTags v = (writtenTags? (some v)).map fun tags => (layered {} { tags := tags }).tags := by
  rw [readTags, writtenTags?]
  rcases fields?_tagKeys v with hnone | ⟨_, _, _, _, _, hsome⟩
  · rw [hnone]
    rfl
  · simp only [hsome, field_eq, Option.bind_eq_bind, Option.bind_some, Option.map_bind,
      Option.bind_map, Function.comp_def]
    simp [layered]

theorem readSettings?_eq (document : Text) :
    readSettings? document = (written? document).map (layered {}) := by
  rw [readSettings?, written?]
  cases Toml.read? document with
  | none => rfl
  | some table =>
    simp only [Option.bind_eq_bind, Option.bind_some]
    generalize Table.get? table "quiz".toList = quiz
    generalize Table.get? table "tags".toList = tags
    cases quiz with
    | none =>
      cases tags with
      | none => rfl
      | some v =>
        simp only [readTags_eq]
        cases writtenTags? (some v) <;> rfl
    | some v =>
      simp only [readQuiz_eq]
      cases writtenQuiz? (some v) with
      | none => rfl
      | some quiz =>
        cases tags with
        | none => rfl
        | some v =>
          simp only [readTags_eq]
          cases writtenTags? (some v) <;> rfl

theorem apply_layered (o : Overrides) (written : Written) :
    o.apply (layered {} written) = layered o written := by
  obtain ⟨tags, shuffle, numbering⟩ := o
  cases shuffle <;> cases numbering <;> simp [Overrides.apply, layered]

/-- The command line touches no value that is checked. -/
theorem meets_layered : Meets (layered o written) f ↔ Meets (layered {} written) f := by
  cases f <;> exact Iff.rfl

/-! What is checked, in exact numbers. -/

theorem value?_zero : (ofFloat 0.0).value? = some 0 := by
  have hfields : ofFloat 0.0 = .finite false 0 (-1074) := by decide +kernel
  rw [hfields, Binary64.value?, Binary64.magnitude_zero]
  rfl

theorem value?_one : (ofFloat 1.0).value? = some 1 := by
  have hfields : ofFloat 1.0 = .finite false (2 ^ 52) (-52) := by decide +kernel
  rw [hfields, Binary64.value?, Binary64.magnitude]
  norm_num

theorem meets_blankSeparator_iff :
    Meets s .blankSeparator ↔ ¬Text.isAllBlank s.matchingSeparator = true := by
  rw [Text.isAllBlank_iff]
  simp [Meets]

theorem meets_badGrade_iff :
    Meets s .badGrade ↔ s.defaultGrade.isFinite = true ∧ ¬s.defaultGrade < 0.0 := by
  rw [Meets, Binary64.isFinite_iff]
  constructor
  · intro h
    obtain ⟨grade, hgrade, hle⟩ := h
    rw [Binary64.lt_iff hgrade value?_zero]
    exact ⟨⟨grade, hgrade⟩, not_lt.mpr hle⟩
  · intro h
    obtain ⟨⟨grade, hgrade⟩, hle⟩ := h
    rw [Binary64.lt_iff hgrade value?_zero] at hle
    exact ⟨grade, hgrade, not_lt.mp hle⟩

theorem meets_badPenalty_iff : Meets s .badPenalty ↔ 0.0 ≤ s.penalty ∧ s.penalty ≤ 1.0 := by
  constructor
  · intro h
    obtain ⟨penalty, hpenalty, hlow, hhigh⟩ := h
    rw [Binary64.le_iff value?_zero hpenalty, Binary64.le_iff hpenalty value?_one]
    exact ⟨hlow, hhigh⟩
  · intro h
    obtain ⟨hlow, hhigh⟩ := h
    -- no infinity and nothing that is no number stands between two numbers
    have hfinite := Binary64.isFinite_of_le (Binary64.isFinite_iff.mpr ⟨0, value?_zero⟩)
      (Binary64.isFinite_iff.mpr ⟨1, value?_one⟩) hlow hhigh
    obtain ⟨penalty, hpenalty⟩ := Binary64.isFinite_iff.mp hfinite
    rw [Binary64.le_iff value?_zero hpenalty] at hlow
    rw [Binary64.le_iff hpenalty value?_one] at hhigh
    exact ⟨penalty, hpenalty, hlow, hhigh⟩

/-- A fault is reported if and only if not all is as it should be, and then one that there is. -/
theorem fault?_cases (s : Settings) :
    (fault? s = none ∧ ∀ f, Meets s f) ∨ ∃ f, fault? s = some f ∧ ¬Meets s f := by
  have hgrade : (!s.defaultGrade.isFinite || decide (s.defaultGrade < 0.0)) = true ↔
      ¬Meets s .badGrade := by
    rw [meets_badGrade_iff]
    simp [imp_iff_not_or]
  have hpenalty : (!(decide (0.0 ≤ s.penalty) && decide (s.penalty ≤ 1.0))) = true ↔
      ¬Meets s .badPenalty := by
    rw [meets_badPenalty_iff]
    simp [imp_iff_not_or]
  unfold fault?
  split_ifs with hblank hbad hout
  · exact .inr ⟨_, rfl, fun hmeets => meets_blankSeparator_iff.mp hmeets hblank⟩
  · exact .inr ⟨_, rfl, hgrade.mp hbad⟩
  · exact .inr ⟨_, rfl, hpenalty.mp hout⟩
  · refine .inl ⟨rfl, fun f => ?_⟩
    cases f with
    | blankSeparator => exact meets_blankSeparator_iff.mpr hblank
    | badGrade => exact not_not.mp (mt hgrade.mpr hbad)
    | badPenalty => exact not_not.mp (mt hpenalty.mpr hout)

theorem fault?_eq_none_iff : fault? s = none ↔ ∀ f, Meets s f := by
  rcases fault?_cases s with ⟨hnone, hmeets⟩ | ⟨f, hsome, hfault⟩
  · exact ⟨fun _ => hmeets, fun _ => hnone⟩
  · rw [hsome]
    exact ⟨fun h => absurd h (by simp), fun h => absurd (h f) hfault⟩

/-! What is loaded. -/

def checked (s : Settings) (path : Option Text) : Except ConfigError Loaded :=
  match fault? s with
  | some f => .error (.invalid f)
  | none => .ok ⟨s, path⟩

theorem loadFile_eq (hread : w.read path = .ok document)
    (hwritten : written? document = some written) :
    loadFile w path = checked (layered {} written) (some path) := by
  simp only [loadFile, hread, settingsOf, readSettings?_eq, hwritten, Option.map_some, checked]
  cases fault? (layered {} written) <;> rfl

theorem exists_of_loadFile (h : loadFile w path = .ok l) : ∃ document written,
    w.read path = .ok document ∧ written? document = some written ∧ l.path = some path := by
  rw [loadFile] at h
  cases hread : w.read path with
  | error e =>
    rw [hread] at h
    cases h
  | ok document =>
    cases hwritten : written? document with
    | none =>
      simp [hread, settingsOf, readSettings?_eq, hwritten, Except.map] at h
    | some written =>
      rw [hread] at h
      cases hsettings : settingsOf document with
      | error e => simp [hsettings, Except.map] at h
      | ok s =>
        simp only [hsettings, Except.map, Except.ok.injEq] at h
        exact ⟨document, written, rfl, hwritten, by rw [← h]⟩

theorem pathExists_of_read (h : w.read path = .ok document) : w.pathExists path = true := by
  rw [Workspace.read] at h
  rw [Workspace.pathExists]
  cases hlook : w.look path with
  | error e =>
    rw [hlook] at h
    cases h
  | ok found => rfl

theorem Provides.loadFrom {found : Option Text} (h : Provides w named found written) :
    loadFrom w named = checked (layered {} written) found := by
  cases h with
  | named hread hwritten =>
    rw [Config.loadFrom, if_pos (pathExists_of_read hread), loadFile_eq hread hwritten]
  | discovered hplace hread hwritten =>
    rw [Config.loadFrom, hplace]
    exact loadFile_eq hread hwritten
  | absent hplace =>
    have hdefault : fault? (layered {} {}) = none := by decide +kernel
    rw [Config.loadFrom, hplace, checked, hdefault]
    rfl

theorem exists_provides (h : loadFrom w named = .ok l) :
    ∃ written, Provides w named l.path written := by
  cases named with
  | some path =>
    rw [loadFrom] at h
    split_ifs at h
    obtain ⟨document, written, hread, hwritten, hpath⟩ := exists_of_loadFile h
    rw [hpath]
    exact ⟨written, .named hread hwritten⟩
  | none =>
    rw [loadFrom] at h
    cases hplace : discover? w.tree w.here with
    | none =>
      rw [hplace] at h
      cases h
      exact ⟨{}, .absent hplace⟩
    | some place =>
      rw [hplace] at h
      obtain ⟨document, written, hread, hwritten, hpath⟩ := exists_of_loadFile h
      rw [hpath]
      exact ⟨written, .discovered hplace hread hwritten⟩

/-- The file decides whether settings are loaded, whatever the command line asks for. -/
theorem Provides.load {found : Option Text} (h : Provides w named found written) :
    ((∀ f, Meets (layered {} written) f) ∧
      ∀ o, load w named o = .ok ⟨layered o written, found⟩) ∨
    ∃ f, ¬Meets (layered {} written) f ∧ ∀ o, load w named o = .error (.invalid f) := by
  have hfrom := h.loadFrom
  rw [checked] at hfrom
  rcases fault?_cases (layered {} written) with ⟨hnone, hmeets⟩ | ⟨f, hsome, hfault⟩
  · rw [hnone] at hfrom
    refine .inl ⟨hmeets, fun o => ?_⟩
    rw [Config.load, hfrom, ← apply_layered o written]
    rfl
  · rw [hsome] at hfrom
    refine .inr ⟨f, hfault, fun o => ?_⟩
    rw [Config.load, hfrom]
    rfl

theorem load_eq_ok_iff : load w named o = .ok l ↔ ∃ written, Provides w named l.path written ∧
    (∀ f, Meets (layered {} written) f) ∧ l.settings = layered o written := by
  constructor
  · intro hload
    obtain ⟨base, hfrom, hpath⟩ : ∃ base, loadFrom w named = .ok base ∧ base.path = l.path := by
      rw [load] at hload
      cases hfrom : loadFrom w named with
      | error e => simp [hfrom, Except.map] at hload
      | ok base =>
        simp only [hfrom, Except.map, Except.ok.injEq] at hload
        exact ⟨base, rfl, by rw [← hload]⟩
    obtain ⟨written, hprovides⟩ := exists_provides hfrom
    rw [hpath] at hprovides
    rcases hprovides.load with ⟨hmeets, hok⟩ | ⟨f, -, herror⟩
    · rw [hok o, Except.ok.injEq] at hload
      exact ⟨written, hprovides, hmeets, by rw [← hload]⟩
    · rw [herror o] at hload
      cases hload
  · intro h
    obtain ⟨written, hprovides, hmeets, hsettings⟩ := h
    rcases hprovides.load with ⟨-, hok⟩ | ⟨f, hfault, -⟩
    · rw [hok o, ← hsettings]
    · exact absurd (hmeets f) hfault

/-- Settings that are loaded are those of the file that is named or found, with what the command
line asks for on top and the defaults below, and nothing is wrong with them. If something is wrong
with the values of the file, that is reported whatever the command line asks for. A file that is
named but does not exist is not made up for by another one or by the defaults. -/
theorem load_layers (w : Workspace) (named : Option Text) :
    (∀ o l, load w named o = .ok l ↔ ∃ written, Provides w named l.path written ∧
      (∀ f, Meets (layered {} written) f) ∧ l.settings = layered o written) ∧
    (∀ o l, load w named o = .ok l → fault? l.settings = none ∧ ∀ f, Meets l.settings f) ∧
    (∀ path written, Provides w named path written → (∃ f, ¬Meets (layered {} written) f) →
      ∃ f, ¬Meets (layered {} written) f ∧ ∀ o, load w named o = .error (.invalid f)) ∧
    ∀ path, named = some path → w.pathExists path = false →
      ∀ o, load w named o = .error (.notFound path) := by
  refine ⟨fun o l => load_eq_ok_iff, fun o l hload => ?_, fun path written hprovides hwrong => ?_,
    fun path hnamed hmissing o => ?_⟩
  · obtain ⟨written, -, hmeets, hsettings⟩ := load_eq_ok_iff.mp hload
    have hall : ∀ f, Meets l.settings f := fun f => by
      rw [hsettings]
      exact meets_layered.mpr (hmeets f)
    exact ⟨fault?_eq_none_iff.mpr hall, hall⟩
  · rcases hprovides.load with ⟨hmeets, -⟩ | hfault
    · obtain ⟨f, hf⟩ := hwrong
      exact absurd (hmeets f) hf
    · exact hfault
  · simp [load, loadFrom, hnamed, hmissing, Except.map]

theorem load_layers_week :
    let found := "[quiz]\nnumbering = \"123\"\nshuffle_answers = false\n" ++
      "[tags]\ngeneral = [\"course\"]\n"
    let w : Workspace := { tree := ⟨[(["mdquiz.toml".toList], .file (some found.toList)),
      (["a.toml".toList], .file (some "[quiz]\npenalty = -0.1\n".toList))]⟩ }
    let o : Overrides := { tags := ["week".toList], shuffleAnswers := some true }
    (∃ l, load w none o = .ok l ∧ l.settings.numbering = .decimal ∧
      l.settings.shuffleAnswers = true ∧
      l.settings.tags.general = ["course".toList, "week".toList] ∧ ∀ f, Meets l.settings f) ∧
    (∃ written, Provides w (some "a.toml".toList) (some "a.toml".toList) written ∧
      (∃ f, ¬Meets (layered {} written) f) ∧
      ∃ f, ∀ o, load w (some "a.toml".toList) o = .error (.invalid f)) ∧
    w.pathExists "b.toml".toList = false ∧
      load w (some "b.toml".toList) o = .error (.notFound "b.toml".toList) := by
  intro found w o
  have hmissing : w.pathExists "b.toml".toList = false := by decide +kernel
  have hshown : (load w none o).toOption.map (fun l => (l.settings.numbering,
      l.settings.shuffleAnswers, l.settings.tags.general)) =
        some (.decimal, true, ["course".toList, "week".toList]) := by decide +kernel
  have hread : w.read "a.toml".toList = .ok "[quiz]\npenalty = -0.1\n".toList := by decide +kernel
  have hbad : (written? "[quiz]\npenalty = -0.1\n".toList).map (fun written =>
      fault? (layered {} written)) = some (some .badPenalty) := by decide +kernel
  refine ⟨?_, ?_, hmissing, (load_layers w _).2.2.2 _ rfl hmissing o⟩
  · cases hload : load w none o with
    | error e => simp [hload, Except.toOption] at hshown
    | ok l =>
      rw [hload] at hshown
      obtain ⟨hnumbering, hshuffle, hgeneral⟩ : l.settings.numbering = .decimal ∧
          l.settings.shuffleAnswers = true ∧
          l.settings.tags.general = ["course".toList, "week".toList] := by
        simpa [Except.toOption] using hshown
      exact ⟨l, rfl, hnumbering, hshuffle, hgeneral, ((load_layers w none).2.1 o l hload).2⟩
  · obtain ⟨written, hwritten, hfault⟩ := Option.map_eq_some_iff.mp hbad
    have hprovides : Provides w (some "a.toml".toList) (some "a.toml".toList) written :=
      .named hread hwritten
    have hwrong : ∃ f, ¬Meets (layered {} written) f := by
      by_contra hall
      rw [fault?_eq_none_iff.mpr fun f => not_not.mp fun hf => hall ⟨f, hf⟩] at hfault
      cases hfault
    obtain ⟨f, -, herror⟩ := (load_layers w _).2.2.1 _ written hprovides hwrong
    exact ⟨written, hprovides, hwrong, f, herror⟩

end Config
end Quizdown
