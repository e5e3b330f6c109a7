import Quizdown.Proofs.Decimal.Numeral
import Quizdown.Proofs.Text.Trim

/-! How numeric answers are spelled: a decimal with an optional sign, and maybe a plus-minus sign
with a decimal behind it, with blanks around each part. A text is read as a numeric answer exactly
if it spells that answer. -/
set_option autoImplicit false

namespace Quizdown
namespace Text

theorem isDecimalDigit_point : isDecimalDigit '.' = false := by decide +kernel

theorem isDecimalDigit_plus : isDecimalDigit '+' = false := by decide +kernel

theorem isDecimalDigit_minus : isDecimalDigit '-' = false := by decide +kernel

theorem isDecimalDigit_of_isBlank {c : Char} (h : isBlank c = true) :
    isDecimalDigit c = false := by
  have hall : ∀ n ∈ [9, 10, 11, 12, 13, 0x20, 0x85, 0xA0, 0x1680, 0x2000, 0x2001, 0x2002, 0x2003,
      0x2004, 0x2005, 0x2006, 0x2007, 0x2008, 0x2009, 0x200A, 0x2028, 0x2029, 0x202F, 0x205F,
      0x3000], inRanges digitRanges n = false := by decide +kernel
  refine hall c.toNat ?_
  simp only [isBlank, Bool.or_eq_true, Bool.and_eq_true, decide_eq_true_eq, beq_iff_eq] at h
  simp only [List.mem_cons, List.not_mem_nil, or_false]
  omega

end Text

namespace NumericAnswer

open Text

inductive IsSigned (digit : Char → Bool) : Text → Prop
  | bare {s : Text} (decimal : IsDecimal digit s) : IsSigned digit s
  | plus {s : Text} (decimal : IsDecimal digit s) : IsSigned digit ('+' :: s)
  | minus {s : Text} (decimal : IsDecimal digit s) : IsSigned digit ('-' :: s)

inductive IsPlusMinus : Text → Prop
  | sign : IsPlusMinus ['±']
  | pair : IsPlusMinus ['+', '-']
  | slashed : IsPlusMinus ['+', '/', '-']

/-- The text spells the numeric answer, with blanks around each part and digits of any script. -/
inductive Spells : Text → NumericAnswer → Prop
  | alone {before value after : Text} (signed : IsSigned isDecimalDigit value)
      (hbefore : ∀ c ∈ before, isBlank c = true) (hafter : ∀ c ∈ after, isBlank c = true) :
      Spells (before ++ value ++ after) ⟨value, none⟩
  | within {before value left sign right tolerance after : Text}
      (signed : IsSigned isDecimalDigit value) (plusMinus : IsPlusMinus sign)
      (decimal : IsDecimal isDecimalDigit tolerance)
      (hbefore : ∀ c ∈ before, isBlank c = true) (hleft : ∀ c ∈ left, isBlank c = true)
      (hright : ∀ c ∈ right, isBlank c = true) (hafter : ∀ c ∈ after, isBlank c = true) :
      Spells (before ++ value ++ left ++ sign ++ right ++ tolerance ++ after)
        ⟨value, some tolerance⟩

def Ends (s : Text) : Prop := ∀ c ∈ s.head?, isDecimalDigit c = false ∧ c ≠ '.'

variable {s rest w : Text}

theorem ends_blank {blanks : Text} (hblanks : ∀ c ∈ blanks, isBlank c = true) (hrest : Ends rest) :
    Ends (blanks ++ rest) := by
  cases blanks with
  | nil => exact hrest
  | cons b blanks =>
    have hb : isBlank b = true := hblanks b (by simp)
    rintro c hc
    obtain rfl : b = c := by simpa using hc
    refine ⟨isDecimalDigit_of_isBlank hb, ?_⟩
    rintro rfl
    exact absurd hb (by decide)

theorem ends_nil : Ends [] := by simp [Ends]

theorem IsPlusMinus.ends {sign : Text} (h : IsPlusMinus sign) (s : Text) : Ends (sign ++ s) := by
  cases h <;> simp [Ends] <;> decide +kernel

/-! The parts are read one after the other. -/

theorem takeWhile_append_of_ends {digits : Text} (hdigits : ∀ c ∈ digits, isDecimalDigit c = true)
    (hrest : Ends rest) : (digits ++ rest).takeWhile isDecimalDigit = digits ∧
      (digits ++ rest).dropWhile isDecimalDigit = rest := by
  rw [List.takeWhile_append_of_pos hdigits, List.dropWhile_append_of_pos hdigits]
  cases rest with
  | nil => simp
  | cons c rest => simp [(hrest c rfl).1]

theorem readUnsigned?_append (h : IsDecimal isDecimalDigit w) (hrest : Ends rest) :
    readUnsigned? (w ++ rest) = some (w, rest) := by
  obtain ⟨whole, places, hspelled, hdigits, hsome⟩ := h
  rw [List.forall_mem_append] at hdigits
  rcases hspelled with rfl | ⟨rfl, rfl⟩
  · obtain ⟨htake, hdrop⟩ := takeWhile_append_of_ends hdigits.2 hrest
    have hempty : (whole.isEmpty && places.isEmpty) = false := by
      rw [Bool.eq_false_iff]
      simpa using hsome
    rw [readUnsigned?, List.append_assoc, List.cons_append,
      List.takeWhile_append_of_pos hdigits.1, List.dropWhile_append_of_pos hdigits.1]
    simp [isDecimalDigit_point, htake, hdrop, hempty]
  · obtain ⟨htake, hdrop⟩ := takeWhile_append_of_ends hdigits.1 hrest
    rw [List.append_nil] at hsome
    rw [readUnsigned?, htake, hdrop]
    cases rest with
    | nil => simp [hsome]
    | cons c rest =>
      have hc : c ≠ '.' := (hrest c rfl).2
      simp [hc, hsome]

theorem readUnsigned?_sound (h : readUnsigned? s = some (w, rest)) :
    IsDecimal isDecimalDigit w ∧ s = w ++ rest := by
  have htake (t : Text) : ∀ c ∈ t.takeWhile isDecimalDigit, isDecimalDigit c = true :=
    fun c hc => List.mem_takeWhile_imp hc
  have hsplit (t : Text) : t.takeWhile isDecimalDigit ++ t.dropWhile isDecimalDigit = t :=
    List.takeWhile_append_dropWhile
  have hs := hsplit s
  rw [readUnsigned?] at h
  generalize s.dropWhile isDecimalDigit = behind at *
  split at h
  · rename_i after
    dsimp only at h
    split_ifs at h with hempty
    cases h
    refine ⟨⟨_, _, .inl rfl, ?_, ?_⟩, ?_⟩
    · rw [List.forall_mem_append]
      exact ⟨htake s, htake after⟩
    · simpa using hempty
    · rw [List.append_assoc, List.cons_append, hsplit, hs]
  · split_ifs at h with hempty
    cases h
    refine ⟨⟨_, [], .inr ⟨rfl, rfl⟩, ?_, ?_⟩, hs.symm⟩
    · rw [List.append_nil]
      exact htake s
    · simpa using hempty

theorem ne_sign_of_mem (h : IsDecimal isDecimalDigit w) {c : Char} (hc : c ∈ w) :
    c ≠ '+' ∧ c ≠ '-' := by
  rcases h.mem c hc with hdigit | rfl
  · constructor
    · rintro rfl
      exact absurd (isDecimalDigit_plus.symm.trans hdigit) Bool.false_ne_true
    · rintro rfl
      exact absurd (isDecimalDigit_minus.symm.trans hdigit) Bool.false_ne_true
  · decide

theorem readSigned?_append (h : IsSigned isDecimalDigit w) (hrest : Ends rest) :
    readSigned? (w ++ rest) = some (w, rest) := by
  cases h with
  | bare decimal =>
    have hread := readUnsigned?_append decimal hrest
    obtain ⟨c, t, rfl⟩ := List.exists_cons_of_ne_nil decimal.ne_nil
    obtain ⟨hplus, hminus⟩ := ne_sign_of_mem decimal List.mem_cons_self
    rw [List.cons_append] at *
    rw [readSigned?, hread]
    · simp [hplus]
    · simp [hminus]
  | plus decimal => simp [readSigned?, readUnsigned?_append decimal hrest]
  | minus decimal => simp [readSigned?, readUnsigned?_append decimal hrest]

theorem readSigned?_sound (h : readSigned? s = some (w, rest)) :
    IsSigned isDecimalDigit w ∧ s = w ++ rest := by
  rw [readSigned?.eq_def] at h
  split at h
  · obtain ⟨⟨v, after⟩, hread, heq⟩ := Option.map_eq_some_iff.mp h
    cases heq
    obtain ⟨decimal, rfl⟩ := readUnsigned?_sound hread
    exact ⟨.plus decimal, rfl⟩
  · obtain ⟨⟨v, after⟩, hread, heq⟩ := Option.map_eq_some_iff.mp h
    cases heq
    obtain ⟨decimal, rfl⟩ := readUnsigned?_sound hread
    exact ⟨.minus decimal, rfl⟩
  · obtain ⟨decimal, rfl⟩ := readUnsigned?_sound h
    exact ⟨.bare decimal, rfl⟩

theorem plusMinus?_append {sign : Text} (h : IsPlusMinus sign) (s : Text) :
    plusMinus? (sign ++ s) = some s := by
  cases h <;> rfl

theorem plusMinus?_sound (h : plusMinus? s = some rest) :
    ∃ sign, IsPlusMinus sign ∧ s = sign ++ rest := by
  rw [plusMinus?.eq_def] at h
  split at h
  · cases h
    exact ⟨_, .sign, rfl⟩
  · cases h
    exact ⟨_, .pair, rfl⟩
  · cases h
    exact ⟨_, .slashed, rfl⟩
  · cases h

theorem IsPlusMinus.not_isBlank {sign : Text} (h : IsPlusMinus sign) (s : Text) :
    ∀ c ∈ (sign ++ s).head?, isBlank c = false := by
  cases h <;> simp <;> decide

theorem not_isBlank_of_isDecimal (h : IsDecimal isDecimalDigit w) (s : Text) :
    ∀ c ∈ (w ++ s).head?, isBlank c = false := by
  obtain ⟨d, t, rfl⟩ := List.exists_cons_of_ne_nil h.ne_nil
  intro c hc
  obtain rfl : d = c := by simpa using hc
  rw [← Bool.not_eq_true]
  intro hblank
  rcases h.mem d List.mem_cons_self with hd | rfl
  · rw [isDecimalDigit_of_isBlank hblank] at hd
    cases hd
  · exact absurd hblank (by decide)

theorem IsSigned.not_isBlank (h : IsSigned isDecimalDigit w) (s : Text) :
    ∀ c ∈ (w ++ s).head?, isBlank c = false := by
  cases h with
  | bare decimal => exact not_isBlank_of_isDecimal decimal s
  | plus decimal => simp; decide
  | minus decimal => simp; decide

theorem ofText?_of_spells {n : NumericAnswer} (h : Spells s n) : ofText? s = some n := by
  cases h with
  | @alone before value after signed hbefore hafter =>
    have hends : Ends after := by
      simpa using ends_blank hafter ends_nil
    rw [List.append_assoc, ofText?, trimStart_append hbefore (signed.not_isBlank after),
      readSigned?_append signed hends]
    simp only [trimStart_eq_nil_iff.mpr hafter]
  | @within before value left sign right tolerance after signed plusMinus decimal hbefore hleft
      hright hafter =>
    have hends : Ends after := by
      simpa using ends_blank hafter ends_nil
    have hsign := trimStart_append hleft (plusMinus.not_isBlank (right ++ (tolerance ++ after)))
    have htolerance := trimStart_append hright (not_isBlank_of_isDecimal decimal after)
    have hrest := plusMinus?_append plusMinus (right ++ (tolerance ++ after))
    simp only [List.append_assoc]
    rw [ofText?, trimStart_append hbefore (signed.not_isBlank _),
      readSigned?_append signed (ends_blank hleft (plusMinus.ends _))]
    generalize sign ++ (right ++ (tolerance ++ after)) = behind at hsign hrest
    cases behind with
    | nil => cases hrest
    | cons c behind =>
      simp only [hsign, hrest, htolerance, readUnsigned?_append decimal hends,
        trimStart_eq_nil_iff.mpr hafter, List.isEmpty_nil, if_true]

theorem spells_of_ofText? {n : NumericAnswer} (h : ofText? s = some n) : Spells s n := by
  obtain ⟨before, hs, hbefore⟩ := exists_trimStart s
  rw [ofText?] at h
  cases hvalue : readSigned? (trimStart s) with
  | none => simp [hvalue] at h
  | some parts =>
    obtain ⟨value, rest⟩ := parts
    obtain ⟨signed, hvalue'⟩ := readSigned?_sound hvalue
    obtain ⟨left, hrest, hleft⟩ := exists_trimStart rest
    simp only [hvalue] at h
    cases hbehind : trimStart rest with
    | nil =>
      rw [hbehind, List.append_nil] at hrest
      simp only [hbehind, Option.some.injEq] at h
      rw [hs, hvalue', ← h, hrest, ← List.append_assoc]
      exact .alone signed hbefore hleft
    | cons c behind =>
      simp only [hbehind] at h
      cases hsign : plusMinus? (c :: behind) with
      | none => simp [hsign] at h
      | some after =>
        obtain ⟨sign, plusMinus, hsign'⟩ := plusMinus?_sound hsign
        obtain ⟨right, hafter, hright⟩ := exists_trimStart after
        simp only [hsign] at h
        cases htolerance : readUnsigned? (trimStart after) with
        | none => simp [htolerance] at h
        | some parts =>
          obtain ⟨tolerance, last⟩ := parts
          obtain ⟨decimal, htolerance'⟩ := readUnsigned?_sound htolerance
          simp only [htolerance] at h
          split_ifs at h with hlast
          cases h
          rw [hs, hvalue', hrest, hbehind, hsign', hafter, htolerance']
          simp only [← List.append_assoc]
          exact .within signed plusMinus decimal hbefore hleft hright
            (trimStart_eq_nil_iff.mp (List.isEmpty_iff.mp hlast))

/-- A text is read as a numeric answer exactly if it spells that answer. -/
theorem ofText?_eq_some_iff {n : NumericAnswer} : ofText? s = some n ↔ Spells s n :=
  ⟨spells_of_ofText?, ofText?_of_spells⟩

end NumericAnswer
end Quizdown
