import Quizdown.Directive.Extract
import Quizdown.Proofs.Text.Search
import Mathlib.Data.List.TakeWhile

/-! How a fragment falls into parts: characters, `code` elements and tokens. -/
set_option autoImplicit false

namespace Quizdown
namespace Directive

theorem codeEnd_eq : codeEnd = ['<', '/', 'c', 'o', 'd', 'e', '>'] := rfl

theorem commentEnd_eq : commentEnd = ['-', '-', '>'] := rfl

def Assigns (s : Text) : Prop := '=' ∈ s.takeWhile isValueChar

instance (s : Text) : Decidable (Assigns s) := inferInstanceAs (Decidable ('=' ∈ _))

theorem assigns_cons {c : Char} {s : Text} :
    Assigns (c :: s) ↔ isValueChar c = true ∧ (c = '=' ∨ Assigns s) := by
  rw [Assigns, Assigns, List.takeWhile_cons]
  cases isValueChar c <;> simp [eq_comm]

theorem assigns_append {w s : Text} (h : ∀ c ∈ w, isValueChar c = true) :
    Assigns (w ++ s) ↔ '=' ∈ w ∨ Assigns s := by
  rw [Assigns, List.takeWhile_append_of_pos h, List.mem_append, Assigns]

theorem assigns_key {key after : Text} (hkey : ∀ c ∈ key, isValueChar c = true) :
    Assigns (key ++ '=' :: after) := by
  rw [assigns_append hkey, assigns_cons]
  exact .inr ⟨by decide, .inl rfl⟩

theorem not_assigns_of_head {s : Text} (h : s.head?.any isValueChar = false) : ¬ Assigns s := by
  cases s with
  | nil => simp [Assigns]
  | cons c s =>
    have hc : isValueChar c = false := by simpa using h
    simp [assigns_cons, hc]

theorem isBlank_of_isValueChar {c : Char} (h : isValueChar c = true) : Text.isBlank c = false := by
  simp only [isValueChar, Bool.and_eq_true, Bool.not_eq_true'] at h
  exact h.1

theorem isKeyChar_of_isKeyStart {c : Char} (h : isKeyStart c = true) : isKeyChar c = true := by
  change (c.isAlpha || c == '_') = true at h
  change ((c.isAlpha || c.isDigit) || c == '_') = true
  simp only [Bool.or_eq_true] at h ⊢
  tauto

theorem isValueChar_of_isKeyChar {c : Char} (h : isKeyChar c = true) :
    isValueChar c = true ∧ c ≠ '-' ∧ c ≠ '>' := by
  have hrange : (48 ≤ c.toNat ∧ c.toNat ≤ 57) ∨ (65 ≤ c.toNat ∧ c.toNat ≤ 90) ∨ c.toNat = 95 ∨
      (97 ≤ c.toNat ∧ c.toNat ≤ 122) := by
    change (((decide (c.val ≥ 65 ∧ c.val ≤ 90) ||
      (decide (c.val ≥ 97) && decide (c.val ≤ 122))) ||
      (decide (c.val ≥ 48) && decide (c.val ≤ 57))) || c == '_') = true at h
    simp only [Bool.or_eq_true, Bool.and_eq_true, decide_eq_true_eq, beq_iff_eq, ge_iff_le,
      UInt32.le_iff_toNat_le] at h
    rcases h with ((h | h) | h) | rfl
    · exact .inr (.inl h)
    · exact .inr (.inr (.inr h))
    · exact .inl h
    · exact .inr (.inr (.inl rfl))
  have hlt : c ≠ '<' := by
    rintro rfl
    exact absurd hrange (by decide)
  have hblank : Text.isBlank c = false := by
    simp [Text.isBlank]
    omega
  refine ⟨by simp [isValueChar, hblank, hlt], ?_, ?_⟩
  · rintro rfl
    exact absurd hrange (by decide)
  · rintro rfl
    exact absurd hrange (by decide)

/-! A token at the start of a text. -/

def IsKey : Text → Prop
  | [] => False
  | c :: s => isKeyStart c = true ∧ ∀ d ∈ s, isKeyChar d = true

theorem IsKey.isKeyChar {key : Text} (h : IsKey key) : ∀ c ∈ key, isKeyChar c = true := by
  cases key with
  | nil => exact absurd h id
  | cons c s => simpa using ⟨isKeyChar_of_isKeyStart h.1, h.2⟩

theorem cutValue_append (value : Text) : (cutValue value).1 ++ (cutValue value).2 = value := by
  rw [cutValue]
  split
  · rename_i before after h
    simpa using (Text.splitFirst?_eq_some h).symm
  · simp

theorem cutValue_tail (value : Text) :
    (cutValue value).2 = [] ∨ ∃ w, (cutValue value).2 = commentEnd ++ w := by
  rw [cutValue]
  split
  · exact .inr ⟨_, rfl⟩
  · exact .inl rfl

/-- What is read as a token with the cut end of its value, and what follows. -/
structure Token (s : Text) (d : Directive) (tail rest : Text) : Prop where
  text : s = d.token ++ tail ++ rest
  key : IsKey d.key
  value : ∀ c ∈ d.value ++ tail, isValueChar c = true
  tail : tail = [] ∨ ∃ w, tail = commentEnd ++ w
  rest : rest.head?.any isValueChar = false

theorem Token.solidChars {s s' : Text} {d : Directive} {tail : Text} (h : Token s d tail s') :
    ∀ c ∈ d.token ++ tail, isValueChar c = true := by
  intro c hc
  simp only [token, List.cons_append, List.append_assoc, List.mem_cons, List.mem_append] at hc
  rcases hc with rfl | hc | rfl | hc
  · decide
  · exact (isValueChar_of_isKeyChar (h.key.isKeyChar c hc)).1
  · decide
  · exact h.value c (List.mem_append.mpr hc)

theorem Token.not_lt {s s' : Text} {d : Directive} {tail : Text} (h : Token s d tail s') :
    '<' ∉ d.token ++ tail :=
  fun hmem => absurd (h.solidChars '<' hmem) (by decide)

theorem read?_eq_some {s : Text} {d : Directive} {tail rest : Text}
    (h : read? s = some (d, tail, rest)) : Token s d tail rest := by
  unfold read? at h
  split at h
  · rename_i c s
    split at h
    · rename_i hc
      split at h
      · rename_i after hafter
        obtain ⟨rfl, rfl, rfl⟩ := by simpa using h
        have hkey := List.takeWhile_append_dropWhile (p := isKeyChar) (l := s)
        have hvalue := cutValue_append (after.takeWhile isValueChar)
        rw [hafter] at hkey
        refine ⟨?_, ⟨hc, fun _ hd => List.mem_takeWhile_imp hd⟩, fun d hd => ?_, cutValue_tail _,
          ?_⟩
        · have hafter' := List.takeWhile_append_dropWhile (p := isValueChar) (l := after)
          rw [← hvalue] at hafter'
          simp only [token, List.cons_append, List.append_assoc] at hafter' ⊢
          rw [hafter', hkey]
        · rw [hvalue] at hd
          exact List.mem_takeWhile_imp hd
        · have hhead := List.head?_dropWhile_not isValueChar after
          cases hd : (after.dropWhile isValueChar).head? with
          | none => rfl
          | some d => simpa [hd] using hhead
      · cases h
    · cases h
  · cases h

theorem read?_of_token {s : Text} {d : Directive} {tail rest : Text} (h : Token s d tail rest)
    (hwhole : ¬ commentEnd <:+: d.value) : read? s = some (d, tail, rest) := by
  obtain ⟨key, value⟩ := d
  obtain ⟨rfl, hkey, hvalue, htail, hrest⟩ := h
  cases key with
  | nil => exact absurd hkey id
  | cons c key =>
    have hstop : rest.takeWhile isValueChar = [] ∧ rest.dropWhile isValueChar = rest := by
      cases rest with
      | nil => exact ⟨rfl, rfl⟩
      | cons x rest =>
        have hx : isValueChar x = false := by simpa using hrest
        simp [hx]
    have htaken : (value ++ (tail ++ rest)).takeWhile isValueChar = value ++ tail := by
      rw [← List.append_assoc, List.takeWhile_append_of_pos hvalue, hstop.1, List.append_nil]
    have hdropped : (value ++ (tail ++ rest)).dropWhile isValueChar = rest := by
      rw [← List.append_assoc, List.dropWhile_append_of_pos hvalue, hstop.2]
    have hcut : cutValue (value ++ tail) = (value, tail) := by
      rcases htail with rfl | ⟨w, rfl⟩
      · rw [cutValue, List.append_nil, Text.splitFirst?_eq_none_iff.mpr hwhole]
      · have hfirst := Text.splitFirst?_of_unbordered (by decide) hwhole w
        rw [cutValue, ← List.append_assoc, hfirst]
    have hkeyDropped : (key ++ '=' :: (value ++ (tail ++ rest))).dropWhile isKeyChar =
        '=' :: (value ++ (tail ++ rest)) := by
      rw [List.dropWhile_append_of_pos hkey.2]
      rfl
    have hkeyTaken : (key ++ '=' :: (value ++ (tail ++ rest))).takeWhile isKeyChar = key := by
      rw [List.takeWhile_append_of_pos hkey.2]
      exact List.append_nil key
    simp only [token, List.cons_append, List.append_assoc, read?, hkey.1, if_true, hkeyDropped,
      hkeyTaken, htaken, hdropped, hcut]

theorem read?_of_free {free : Bool} {s : Text} {found : Directive × Text × Text}
    (h : (if free then read? s else none) = some found) : read? s = some found := by
  cases free with
  | false => cases h
  | true => exact h

theorem read?_isSome_iff {s : Text} :
    (read? s).isSome ↔ ∃ key after, s = '@' :: key ++ '=' :: after ∧ IsKey key := by
  constructor
  · intro h
    obtain ⟨⟨d, tail, rest⟩, hread⟩ := Option.isSome_iff_exists.mp h
    have htoken := read?_eq_some hread
    exact ⟨d.key, d.value ++ tail ++ rest, by simp [htoken.text, token], htoken.key⟩
  · rintro ⟨key, after, rfl, hkey⟩
    cases key with
    | nil => exact absurd hkey id
    | cons c key =>
      have hdrop : (key ++ '=' :: after).dropWhile isKeyChar = '=' :: after := by
        rw [List.dropWhile_append_of_pos hkey.2]
        rfl
      simp [read?, hkey.1, hdrop]

theorem assigns_of_isSome_read? {s : Text} (h : (read? s).isSome) : Assigns s := by
  obtain ⟨key, after, rfl, hkey⟩ := read?_isSome_iff.mp h
  have hvalue : ∀ c ∈ '@' :: key, isValueChar c = true := by
    intro c hc
    rcases List.mem_cons.mp hc with rfl | hc
    · decide
    · exact (isValueChar_of_isKeyChar (hkey.isKeyChar c hc)).1
  exact assigns_key hvalue

theorem isSome_read?_of_key {c : Char} {s t : Text}
    (hkey : c = '@' → ∀ key after, t = key ++ '=' :: after → (∀ d ∈ key, isKeyChar d = true) →
      ∃ after', s = key ++ '=' :: after')
    (hread : (read? (c :: t)).isSome) : (read? (c :: s)).isSome := by
  obtain ⟨key, after, htext, hiskey⟩ := read?_isSome_iff.mp hread
  obtain ⟨rfl, rfl⟩ := List.cons.inj htext
  obtain ⟨after', rfl⟩ := hkey rfl key after rfl hiskey.isKeyChar
  exact read?_isSome_iff.mpr ⟨key, after', rfl, hiskey⟩

/-! A `code` element at the start of a text. -/

def IsElement (raw : Text) : Prop := ∀ t, codeElement? (raw ++ t) = some (raw, t)

theorem codeElement?_eq_some {s raw rest : Text} (h : codeElement? s = some (raw, rest)) :
    s = raw ++ rest ∧ (∃ y, raw = "<code".toList ++ y ++ codeEnd) ∧ IsElement raw := by
  unfold codeElement? at h
  split at h
  · cases h
  · rename_i after hstart
    split at h
    · cases h
    · rename_i hhead
      split at h
      · cases h
      · rename_i attributes content hopen
        obtain ⟨⟨inside, rest'⟩, hclose, heq⟩ := Option.map_eq_some_iff.mp h
        obtain ⟨rfl, rfl⟩ := Prod.mk.inj heq
        have hs := Text.stripPrefix?_eq_some_iff.mp hstart
        have hafter := Text.splitFirst?_eq_some hopen
        have hcontent := Text.splitFirst?_eq_some hclose
        refine ⟨by simp [hs, hafter, hcontent], ⟨attributes ++ '>' :: inside, by simp⟩, fun t => ?_⟩
        have hstart' := Text.stripPrefix?_append "<code".toList
          (attributes ++ ['>'] ++ (inside ++ codeEnd ++ t))
        have hopen' := Text.splitFirst?_replace hopen (inside ++ codeEnd ++ t)
        have hclose' := Text.splitFirst?_replace hclose t
        have hhead' : (attributes ++ ['>'] ++ (inside ++ codeEnd ++ t)).head? = after.head? := by
          rw [hafter]
          cases attributes <;> rfl
        have htext : "<code".toList ++ attributes ++ '>' :: inside ++ codeEnd ++ t =
            "<code".toList ++ (attributes ++ ['>'] ++ (inside ++ codeEnd ++ t)) := by simp
        rw [htext, codeElement?, hstart']
        simp only [hhead', hhead, hopen', hclose']
        simp

/-- The parts make up the text in order, and no token starts where a character is taken alone. The
flag says whether a token may stand at the start. -/
inductive Covers : Bool → Text → List Part → Prop
  | nil {free : Bool} : Covers free [] []
  | char {free : Bool} {c : Char} {s : Text} {ps : List Part}
      (unread : free = true → read? (c :: s) = none) (rest : Covers (isLead c) s ps) :
      Covers free (c :: s) (.char c :: ps)
  | code {free : Bool} {raw s : Text} {ps : List Part} (element : IsElement raw)
      (ends : ∃ y, raw = "<code".toList ++ y ++ codeEnd) (rest : Covers true s ps) :
      Covers free (raw ++ s) (.code raw :: ps)
  | token {free : Bool} {s s' : Text} {d : Directive} {tail : Text} {ps : List Part}
      (found : Token s d tail s') (rest : Covers false s' ps) :
      Covers free s (.token d tail :: ps)

theorem covers_partsFrom {free : Bool} {fuel : Nat} {s : Text} (h : s.length ≤ fuel) :
    Covers free s (partsFrom free fuel s) := by
  induction fuel generalizing free s with
  | zero =>
    obtain rfl : s = [] := by simpa using h
    exact .nil
  | succ fuel ih =>
    cases s with
    | nil => exact .nil
    | cons c s =>
      rw [partsFrom]
      split
      · rename_i raw rest hcode
        obtain ⟨htext, ends, helement⟩ := codeElement?_eq_some hcode
        have hpos : 0 < raw.length := by
          obtain ⟨y, rfl⟩ := ends
          exact List.length_pos_iff.mpr (by simp)
        have hlength := congrArg List.length htext
        rw [htext]
        refine .code helement ends (ih ?_)
        simp only [List.length_append, List.length_cons] at hlength h
        omega
      · split
        · rename_i d tail rest hread
          have htoken := read?_eq_some (read?_of_free hread)
          refine .token htoken (ih ?_)
          have hlength := congrArg List.length htoken.text
          simp only [token, List.length_append, List.length_cons] at hlength h
          omega
        · rename_i hread
          refine .char (fun hfree => ?_) (ih (by simpa using h))
          rw [if_pos hfree] at hread
          exact hread

theorem covers_parts (f : Text) : Covers true f (parts f) := covers_partsFrom le_rfl

end Directive
end Quizdown
