import Quizdown.Proofs.Assembly.Refusal
import Mathlib.Data.List.Induction

/-!
What a list of directives does to settings that are kept in one place, and that the open question
always has the settings its directives lead to. A list takes effect as a whole: each key gets the
value of its last directive, or nothing changes and the first directive with a wrong value is told.
-/
set_option autoImplicit false

namespace Quizdown

namespace DirectiveKey

def SpelledAs (key : DirectiveKey) (name : Text) : Prop := Text.asciiLower name ∈ key.spellings

def truthSpellings : Bool → Texts
  | true => ["true".toList, "yes".toList, "1".toList]
  | false => ["false".toList, "no".toList, "0".toList]

def WrittenAs : DirectiveKey → Text → QuestionConfig → Prop
  | shuffle, value, config => Text.asciiLower value ∈ truthSpellings config.shuffle
  | numbering, value, config =>
    value = config.numbering.name ∨ value = config.numbering.moodleToken
  | forceMulti, value, config => Text.asciiLower value ∈ truthSpellings config.forceMulti

def Agrees : DirectiveKey → QuestionConfig → QuestionConfig → Prop
  | shuffle, c, d => c.shuffle = d.shuffle
  | numbering, c, d => c.numbering = d.numbering
  | forceMulti, c, d => c.forceMulti = d.forceMulti

theorem Agrees.trans {key : DirectiveKey} {c d e : QuestionConfig} (h : key.Agrees c d)
    (h' : key.Agrees d e) : key.Agrees c e := by
  cases key <;> exact Eq.trans h h'

theorem WrittenAs.congr {key : DirectiveKey} {value : Text} {c d : QuestionConfig}
    (h : key.WrittenAs value c) (hagrees : key.Agrees c d) : key.WrittenAs value d := by
  cases key <;> simp only [WrittenAs, Agrees] at h hagrees ⊢ <;> rwa [← hagrees]

/-- No spelling belongs to two keys. -/
theorem ofName?_eq_some_iff {name : Text} {key : DirectiveKey} :
    ofName? name = some key ↔ key.SpelledAs name := by
  constructor
  · intro h
    simpa [SpelledAs] using List.find?_some h
  · intro h
    have hall : ∀ k : DirectiveKey, ∀ s ∈ k.spellings,
        [shuffle, numbering, forceMulti].find? (fun l => l.spellings.contains s) = some k := by
      intro k
      cases k <;> decide
    exact hall key _ h

end DirectiveKey

namespace Directive

theorem known?_eq_some_iff {d : Directive} {key : DirectiveKey} :
    d.known? = some key ↔ key.SpelledAs d.key := DirectiveKey.ofName?_eq_some_iff

theorem boolean?_eq_some {value : Text} {b : Bool} (h : boolean? value = some b) :
    Text.asciiLower value ∈ DirectiveKey.truthSpellings b := by
  rw [boolean?] at h
  split at h
  · rename_i hyes
    cases h
    simpa [DirectiveKey.truthSpellings] using hyes
  · split at h
    · rename_i hno
      cases h
      simpa [DirectiveKey.truthSpellings] using hno
    · cases h

theorem numbering_eq_some {value : Text} {n : Numbering} (h : Numbering.ofName? value = some n) :
    value = n.name ∨ value = n.moodleToken := by
  simpa using List.find?_some h

/-- Settings that directives lead to: a key has the value of the last directive with the key, or its
old value if there is none. -/
def LeadsTo (ds : List Directive) (config result : QuestionConfig) : Prop :=
  ∀ key : DirectiveKey,
    (∃ before d after, ds = before ++ d :: after ∧ key.SpelledAs d.key ∧
        (∀ e ∈ after, ¬ key.SpelledAs e.key) ∧ key.WrittenAs d.value result) ∨
      (∀ d ∈ ds, ¬ key.SpelledAs d.key) ∧ key.Agrees config result

theorem resolved_singleton {d : Directive} (hd : d.accepted = true) (config : QuestionConfig)
    (key : DirectiveKey) :
    (key.SpelledAs d.key → key.WrittenAs d.value (resolved [d] config)) ∧
      (¬ key.SpelledAs d.key → key.Agrees config (resolved [d] config)) := by
  rw [← known?_eq_some_iff]
  rw [accepted] at hd
  cases hk : d.known? with
  | none =>
    refine ⟨fun h => (by cases h), fun _ => ?_⟩
    cases key <;> simp [DirectiveKey.Agrees, resolved, lastBoolean?, lastNumbering?, hk]
  | some own =>
    cases own with
    | numbering =>
      simp only [hk] at hd
      obtain ⟨n, hn⟩ := Option.isSome_iff_exists.mp hd
      have hwritten := numbering_eq_some hn
      cases key <;>
        simp [DirectiveKey.WrittenAs, DirectiveKey.Agrees, resolved, lastBoolean?, lastNumbering?,
          hk, hn, hwritten]
    | shuffle | forceMulti =>
      simp only [hk] at hd
      obtain ⟨b, hb⟩ := Option.isSome_iff_exists.mp hd
      have hwritten := boolean?_eq_some hb
      cases key <;>
        simp [DirectiveKey.WrittenAs, DirectiveKey.Agrees, resolved, lastBoolean?, lastNumbering?,
          hk, hb, hwritten]

theorem leadsTo_resolved {ds : List Directive} (hds : ∀ d ∈ ds, d.accepted = true)
    (config : QuestionConfig) : LeadsTo ds config (resolved ds config) := by
  induction ds using List.reverseRecOn with
  | nil =>
    intro key
    exact .inr ⟨by simp, by cases key <;> rfl⟩
  | append_singleton ds d ih =>
    intro key
    obtain ⟨hsets, hkeeps⟩ := resolved_singleton (hds d (by simp)) (resolved ds config) key
    rw [← resolved_append] at hsets hkeeps
    by_cases hkey : key.SpelledAs d.key
    · exact .inl ⟨ds, d, [], rfl, hkey, by simp, hsets hkey⟩
    · rcases ih (fun e he => hds e (by simp [he])) key with
        ⟨before, e, after, rfl, he, hafter, hwritten⟩ | ⟨hnone, hagrees⟩
      · refine .inl ⟨before, e, after ++ [d], by simp, he, ?_, hwritten.congr (hkeeps hkey)⟩
        exact List.forall_mem_append.mpr ⟨hafter, List.forall_mem_singleton.mpr hkey⟩
      · refine .inr ⟨?_, hagrees.trans (hkeeps hkey)⟩
        exact List.forall_mem_append.mpr ⟨hnone, List.forall_mem_singleton.mpr hkey⟩

def Wrong (d : Directive) : Prop :=
  ∃ key : DirectiveKey, key.SpelledAs d.key ∧ ¬ key.Accepts d.value

theorem not_accepted_iff_wrong {d : Directive} : d.accepted = false ↔ d.Wrong := by
  simp only [not_accepted_iff, known?_eq_some_iff, Wrong]

theorem update_eq_ok_iff {ds : List Directive} {config result : QuestionConfig} :
    (update ds).run.run config = (.ok (), result) ↔ applyAll ds config = .ok result := by
  rw [update_eq]
  cases applyAll ds config with
  | ok found =>
    constructor <;>
      · rintro ⟨⟩
        rfl
  | error e => exact ⟨nofun, nofun⟩

theorem update_cases (ds : List Directive) (config : QuestionConfig) :
    (∃ result, (update ds).run.run config = (.ok (), result) ∧ LeadsTo ds config result) ∨
      ∃ before d after fault, ds = before ++ d :: after ∧ (∀ b ∈ before, ¬ b.Wrong) ∧ d.Wrong ∧
        (update ds).run.run config = (.error ⟨d.token, fault⟩, config) := by
  rw [update_eq]
  cases h : applyAll ds config with
  | ok result =>
    obtain ⟨haccepted, rfl⟩ := applyAll_eq_ok_iff.mp h
    exact .inl ⟨_, rfl, leadsTo_resolved haccepted config⟩
  | error e =>
    obtain ⟨before, d, after, hds, hbefore, hd, rfl⟩ := applyAll_eq_error_iff.mp h
    refine .inr ⟨before, d, after, d.refusal.fault, hds, fun b hb hwrong => ?_,
      not_accepted_iff_wrong.mp hd, rfl⟩
    have haccepted := hbefore b hb
    rw [not_accepted_iff_wrong.mpr hwrong] at haccepted
    cases haccepted

theorem applyAll_append (ds es : List Directive) (config : QuestionConfig) :
    applyAll (ds ++ es) config = (applyAll ds config).bind (applyAll es) := by
  induction ds generalizing config with
  | nil => rfl
  | cons d ds ih =>
    rw [List.cons_append, applyAll, applyAll]
    cases applyOne config d with
    | ok next => exact ih next
    | error e => rfl

theorem update_append_eq_ok_iff {ds es : List Directive} {config result : QuestionConfig} :
    (update (ds ++ es)).run.run config = (.ok (), result) ↔
      ∃ between, (update ds).run.run config = (.ok (), between) ∧
        (update es).run.run between = (.ok (), result) := by
  simp only [update_eq_ok_iff, applyAll_append]
  cases applyAll ds config <;> simp [Except.bind]

/-- A directive with an unknown key may as well be left out. -/
theorem update_unknown {d : Directive} (hd : ∀ key : DirectiveKey, ¬ key.SpelledAs d.key)
    (before after : List Directive) (config : QuestionConfig) :
    (update (before ++ d :: after)).run.run config = (update (before ++ after)).run.run config := by
  have hnone : d.known? = none := by
    cases hk : d.known? with
    | none => rfl
    | some key => exact absurd (known?_eq_some_iff.mp hk) (hd key)
  have hskip (config : QuestionConfig) : applyAll (d :: after) config = applyAll after config := by
    simp [applyAll, applyOne, hnone]
  have hsame : applyAll (before ++ d :: after) config = applyAll (before ++ after) config := by
    rw [applyAll_append, applyAll_append]
    exact congrArg _ (funext hskip)
  rw [update_eq, update_eq, hsame]

end Directive

namespace Assembly

/-- The open question, if there is one, has the settings that its directives lead to. -/
def Configured (settings : Settings) (a : Assembly) : Prop :=
  ∀ d, a.draft = some d →
    Directive.applyAll d.directives settings.questionConfig = .ok d.config

variable {settings : Settings} {a next : Assembly} {b : Block}

theorem configured_openDraft (h : Configured settings a) (place : Location) :
    Directive.applyAll (a.openDraft settings place).directives settings.questionConfig =
      .ok (a.openDraft settings place).config := by
  rw [openDraft]
  cases hdraft : a.draft with
  | none => rfl
  | some d => exact h d hdraft

theorem configured_addParagraph {d result : Draft} {html text : Text}
    (h : Directive.applyAll d.directives settings.questionConfig = .ok d.config)
    (hadd : addParagraph d html text = .ok result) :
    Directive.applyAll result.directives settings.questionConfig = .ok result.config := by
  obtain ⟨haccepted, rfl⟩ := addParagraph_eq_ok_iff.mp hadd
  change Directive.applyAll (d.directives ++ _) _ = _
  rw [Directive.applyAll_append, h]
  exact Directive.applyAll_eq_ok_iff.mpr ⟨haccepted, rfl⟩

/-- Each block leaves the open question with the settings of its directives. -/
theorem Configured.step (h : Configured settings a) (hstep : a.step settings b = .ok next) :
    Configured settings next := by
  have hopen := configured_openDraft h (placeOf b)
  rw [Assembly.step] at hstep
  cases hk : b.kind with
  | heading level text =>
    simp only [hk] at hstep
    split at hstep
    · split at hstep
      · cases hstep
      · cases hstep
        exact h
    · split at hstep
      · cases hstep
      · cases hstep
        rintro d ⟨⟩
        rfl
  | paragraph html text =>
    simp only [hk] at hstep
    split at hstep
    · cases hstep
    · rename_i d hadd
      cases hstep
      rintro d ⟨⟩
      exact configured_addParagraph hopen hadd
  | code html text | rich html text =>
    simp only [hk] at hstep
    cases hstep
    rintro d ⟨⟩
    exact hopen
  | list list =>
    simp only [hk] at hstep
    split at hstep
    · cases hstep
    · split at hstep
      · cases hstep
      · cases hstep
        rintro d ⟨⟩
  | rule | comment =>
    simp only [hk] at hstep
    cases hstep
    exact h

theorem Configured.steps {blocks : List Block} (h : Configured settings a)
    (hsteps : a.steps settings blocks = .ok next) : Configured settings next := by
  induction blocks generalizing a with
  | nil =>
    cases hsteps
    exact h
  | cons b blocks ih =>
    rw [Assembly.steps] at hsteps
    split at hsteps
    · rename_i between hstep
      exact ih (h.step hstep) hsteps
    · cases hsteps

end Assembly

/-- Directives take effect as a whole or not at all. Each key gets the value of its last directive,
whatever its spelling; or the first directive with a wrong value is told and the settings stay.
Unknown keys do nothing, two lists one after the other are like one, and so the open question
always has the settings that its directives lead to, applied once to the defaults. -/
theorem update_outcome (ds : List Directive) (config : QuestionConfig) :
    ((∃ result, (Directive.update ds).run.run config = (.ok (), result) ∧
        Directive.LeadsTo ds config result) ∨
      ∃ before d after fault, ds = before ++ d :: after ∧ (∀ b ∈ before, ¬ b.Wrong) ∧ d.Wrong ∧
        (Directive.update ds).run.run config = (.error ⟨d.token, fault⟩, config)) ∧
    (∀ before d after, ds = before ++ d :: after → (∀ key : DirectiveKey, ¬ key.SpelledAs d.key) →
      (Directive.update ds).run.run config =
        (Directive.update (before ++ after)).run.run config) ∧
    (∀ es result, (Directive.update (ds ++ es)).run.run config = (.ok (), result) ↔
      ∃ between, (Directive.update ds).run.run config = (.ok (), between) ∧
        (Directive.update es).run.run between = (.ok (), result)) ∧
    ∀ settings blocks a d, ({} : Assembly).steps settings blocks = .ok a → a.draft = some d →
      (Directive.update d.directives).run.run settings.questionConfig = (.ok (), d.config) := by
  refine ⟨Directive.update_cases ds config, ?_, fun es result => Directive.update_append_eq_ok_iff,
    ?_⟩
  · rintro before d after rfl hunknown
    exact Directive.update_unknown hunknown before after config
  · intro settings blocks a d hsteps hdraft
    have hstart : Assembly.Configured settings {} := nofun
    exact Directive.update_eq_ok_iff.mpr (hstart.steps hsteps d hdraft)

theorem update_outcome_spellings :
    let ds : List Directive := [⟨"color".toList, "red".toList⟩, ⟨"SHUFFLE".toList, "no".toList⟩,
      ⟨"ShuffleAnswers".toList, "Yes".toList⟩]
    let blocks : List Block :=
      [⟨.paragraph "<p>Q @shuffle=no</p>".toList "Q @shuffle=no".toList, ⟨0, 13⟩, 1, 1⟩,
       ⟨.paragraph "<p>@Multi=1</p>".toList "@Multi=1".toList, ⟨15, 23⟩, 3, 2⟩]
    (∀ key : DirectiveKey, ¬ key.SpelledAs "color".toList) ∧
      (Directive.update ds).run.run {} = (Directive.update ds.tail).run.run {} ∧
      ∃ a d, ({} : Assembly).steps {} blocks = .ok a ∧ a.draft = some d ∧
        d.directives.length = 2 ∧ d.config = ⟨false, .lowerAlpha, true⟩ ∧
        (Directive.update d.directives).run.run (Settings.questionConfig {}) =
          (.ok (), d.config) := by
  intro ds blocks
  have hunknown : ∀ key : DirectiveKey, ¬ key.SpelledAs "color".toList := by
    intro key
    cases key <;> simp only [DirectiveKey.SpelledAs] <;> decide
  obtain ⟨-, hskip, -, hwalk⟩ := update_outcome ds {}
  obtain ⟨a, hsteps⟩ : ∃ a, ({} : Assembly).steps {} blocks = .ok a := ⟨_, rfl⟩
  obtain ⟨d, hdraft⟩ : ∃ d, a.draft = some d := by
    cases hsteps
    exact ⟨_, rfl⟩
  have hconfigured := hwalk {} blocks a d hsteps hdraft
  cases hsteps
  cases hdraft
  exact ⟨hunknown, hskip [] _ _ rfl hunknown, _, _, rfl, rfl, by decide +kernel,
    by decide +kernel, hconfigured⟩

-- the first directive would have taken effect alone
example :
    (Directive.update [⟨"shuffle".toList, "no".toList⟩, ⟨"numbering".toList, "xyz".toList⟩]).run.run
      {} = (.error ⟨"@numbering=xyz".toList, .unknownNumbering "xyz".toList⟩, {}) := rfl

end Quizdown
