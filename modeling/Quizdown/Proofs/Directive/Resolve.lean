import Quizdown.Directive.Apply

/-! The settings that a list of directives resolves to, said without going through the list: a key
has the value of its last directive. Applying the directives one by one gives the same settings,
exactly when every value lies in the domain of its key. -/
set_option autoImplicit false

namespace Quizdown

/-- The domain of a key: truth values in letters of either case, names and Moodle tokens of
numbering schemes exactly as they are. -/
def DirectiveKey.Accepts : DirectiveKey → Text → Prop
  | .shuffle, value | .forceMulti, value =>
    Text.asciiLower value ∈
      ["true".toList, "yes".toList, "1".toList, "false".toList, "no".toList, "0".toList]
  | .numbering, value => ∃ n : Numbering, value = n.name ∨ value = n.moodleToken

namespace Directive

theorem boolean?_isSome_iff {value : Text} :
    (boolean? value).isSome = true ↔
      Text.asciiLower value ∈
        ["true".toList, "yes".toList, "1".toList, "false".toList, "no".toList, "0".toList] := by
  simp only [boolean?, List.contains_iff_mem, List.mem_cons, List.not_mem_nil, or_false]
  split
  · rename_i h
    rcases h with h | h | h <;> simp [h]
  · rename_i h
    split
    · rename_i h'
      rcases h' with h' | h' | h' <;> simp [h']
    · rename_i h'
      simp_all

theorem numbering_isSome_iff {value : Text} :
    (Numbering.ofName? value).isSome = true ↔
      ∃ n : Numbering, value = n.name ∨ value = n.moodleToken := by
  have hall : ∀ n : Numbering, n ∈ Numbering.all := by intro n; cases n <;> decide
  simp only [Numbering.ofName?, List.find?_isSome, Bool.or_eq_true, decide_eq_true_eq]
  exact ⟨fun ⟨n, _, h⟩ => ⟨n, h⟩, fun ⟨n, h⟩ => ⟨n, hall n, h⟩⟩

theorem accepted_iff {d : Directive} :
    d.accepted = true ↔ ∀ key, d.known? = some key → key.Accepts d.value := by
  rw [accepted]
  cases hk : d.known? with
  | none => simp
  | some key =>
    cases key with
    | numbering => simp [DirectiveKey.Accepts, numbering_isSome_iff]
    | shuffle | forceMulti => simp [DirectiveKey.Accepts, boolean?_isSome_iff]

def lastBoolean? (key : DirectiveKey) (ds : List Directive) : Option Bool :=
  ds.reverse.findSome? fun d => if d.known? = some key then boolean? d.value else none

def lastNumbering? (ds : List Directive) : Option Numbering :=
  ds.reverse.findSome? fun d =>
    if d.known? = some .numbering then Numbering.ofName? d.value else none

/-- Settings with the last value that the directives have for each key. -/
def resolved (ds : List Directive) (config : QuestionConfig) : QuestionConfig where
  shuffle := (lastBoolean? .shuffle ds).getD config.shuffle
  numbering := (lastNumbering? ds).getD config.numbering
  forceMulti := (lastBoolean? .forceMulti ds).getD config.forceMulti

@[simp] theorem resolved_nil (config : QuestionConfig) : resolved [] config = config := rfl

theorem lastBoolean?_append (key : DirectiveKey) (ds es : List Directive) :
    lastBoolean? key (ds ++ es) = (lastBoolean? key es).or (lastBoolean? key ds) := by
  simp [lastBoolean?]

theorem lastNumbering?_append (ds es : List Directive) :
    lastNumbering? (ds ++ es) = (lastNumbering? es).or (lastNumbering? ds) := by
  simp [lastNumbering?]

theorem resolved_append (ds es : List Directive) (config : QuestionConfig) :
    resolved (ds ++ es) config = resolved es (resolved ds config) := by
  simp only [resolved, lastBoolean?_append, lastNumbering?_append, Option.getD_or]

theorem applyOne_eq_ok_iff {d : Directive} {config result : QuestionConfig} :
    applyOne config d = .ok result ↔ d.accepted = true ∧ resolved [d] config = result := by
  cases hk : d.known? with
  | none => simp [applyOne, accepted, resolved, lastBoolean?, lastNumbering?, hk]
  | some key =>
    cases key with
    | numbering =>
      cases hv : Numbering.ofName? d.value <;>
        simp [applyOne, accepted, resolved, lastBoolean?, lastNumbering?, hk, hv]
    | shuffle | forceMulti =>
      cases hv : boolean? d.value <;>
        simp [applyOne, accepted, resolved, lastBoolean?, lastNumbering?, hk, hv]

/-- Directives apply exactly if all are accepted, and then the last value of each key counts. -/
theorem applyAll_eq_ok_iff {ds : List Directive} {config result : QuestionConfig} :
    applyAll ds config = .ok result ↔
      (∀ d ∈ ds, d.accepted = true) ∧ resolved ds config = result := by
  induction ds generalizing config with
  | nil => simp [applyAll]
  | cons d ds ih =>
    have hcons : resolved (d :: ds) config = resolved ds (resolved [d] config) :=
      resolved_append [d] ds config
    rw [applyAll, hcons]
    by_cases hd : d.accepted = true
    · have h : applyOne config d = .ok (resolved [d] config) :=
        applyOne_eq_ok_iff.mpr ⟨hd, rfl⟩
      simp [h, ih, hd]
    · cases h : applyOne config d with
      | ok next => exact absurd (applyOne_eq_ok_iff.mp h).1 hd
      | error e => simp [hd]

end Directive
end Quizdown
