import Quizdown.Proofs.Directive.Gaps

/-! Where the tokens of a fragment stand: one behind the other, spelled as a directive is, and none
inside a `code` element. -/
set_option autoImplicit false

namespace Quizdown
namespace Directive

/-- The directives among the parts, each with the position of its token; the first argument is the
position of the first part. -/
def tokenPlaces : Nat → List Part → List (Nat × Directive)
  | _, [] => []
  | i, .token d tail :: ps => (i, d) :: tokenPlaces (i + (d.token ++ tail).length) ps
  | i, p :: ps => tokenPlaces (i + p.text.length) ps

def places (f : Text) : List (Nat × Directive) := tokenPlaces 0 (parts f)

/-- The `code` elements of a text as pairs of positions, each up to its first end tag. The first
number bounds the steps, the second is the position of the text. -/
def codeSpansFrom : Nat → Nat → Text → List (Nat × Nat)
  | 0, _, _ => []
  | _, _, [] => []
  | fuel + 1, i, c :: s =>
    match codeElement? (c :: s) with
    | some (raw, rest) => (i, i + raw.length) :: codeSpansFrom fuel (i + raw.length) rest
    | none => codeSpansFrom fuel (i + 1) s

def codeSpans (f : Text) : List (Nat × Nat) := codeSpansFrom f.length 0 f

def tokenText (t : Directive × Text) : Text := t.1.token ++ t.2

def placesFrom : Nat → List (Directive × Text) → List (Nat × Directive)
  | _, [] => []
  | i, (d, after) :: rest => (i, d) :: placesFrom (i + d.token.length + after.length) rest

theorem tokenPlaces_eq (i : Nat) (ps : List Part) :
    tokenPlaces i ps = placesFrom (i + (gaps ps).1.length) (gaps ps).2 := by
  induction ps generalizing i with
  | nil => rfl
  | cons p ps ih =>
    cases p with
    | token d tail => simp [tokenPlaces, gaps, placesFrom, ih, Nat.add_assoc]
    | char c => simp [tokenPlaces, gaps, ih, Part.text, Nat.add_assoc, Nat.add_comm]
    | code raw => simp [tokenPlaces, gaps, ih, Part.text, Nat.add_assoc]

theorem places_eq (f : Text) :
    places f = placesFrom (gaps (parts f)).1.length (gaps (parts f)).2 := by
  rw [places, tokenPlaces_eq, Nat.zero_add]

theorem map_snd_placesFrom (i : Nat) (toks : List (Directive × Text)) :
    (placesFrom i toks).map Prod.snd = toks.map Prod.fst := by
  induction toks generalizing i with
  | nil => rfl
  | cons t toks ih => simp [placesFrom, ih]

theorem directives_extract (f : Text) : (extract f).directives = (places f).map Prod.snd := by
  rw [places_eq, map_snd_placesFrom, extract]
  split
  · rename_i before hgaps
    rw [hgaps]
    rfl
  · rename_i before tokens hne hgaps
    rw [hgaps]

theorem gaps_text (ps : List Part) :
    (gaps ps).1 ++ (gaps ps).2.flatMap tokenText = ps.flatMap Part.text := by
  induction ps with
  | nil => rfl
  | cons p ps ih =>
    cases p <;> simp [gaps, Part.text, tokenText, ← ih]

theorem Covers.text {free : Bool} {s : Text} {ps : List Part} (h : Covers free s ps) :
    ps.flatMap Part.text = s := by
  induction h with
  | nil => rfl
  | char unread rest ih => simp [Part.text, ih]
  | code element ends rest ih => simp [Part.text, ih]
  | token found rest ih => rw [found.text, List.flatMap_cons, Part.text, ih]

/-- The fragment is the text in front of its first token, and each token with what follows it. -/
theorem gaps_parts (f : Text) :
    (gaps (parts f)).1 ++ (gaps (parts f)).2.flatMap tokenText = f := by
  rw [gaps_text, (covers_parts f).text]

theorem tokensGone_of_gaps {f : Text} (h : (gaps (parts f)).2 = []) : tokensGone f = f := by
  have htext := gaps_parts f
  rw [h, List.flatMap_nil, List.append_nil] at htext
  rw [tokensGone, h, withoutTokens, htext]

theorem cut_of_gaps {f : Text} (h : (gaps (parts f)).2 = []) : cut (parts f) = f := by
  have hkept : ∀ ps : List Part, (gaps ps).2 = [] → cut ps = ps.flatMap Part.text := by
    intro ps hps
    induction ps with
    | nil => rfl
    | cons p ps ih =>
      cases p with
      | token d tail => cases hps
      | char c | code raw =>
        have hrest := ih hps
        rw [cut] at hrest
        rw [cut, List.flatMap_cons, List.flatMap_cons, hrest]
        rfl
  rw [hkept _ h, (covers_parts f).text]

theorem le_of_mem_placesFrom {i : Nat} {toks : List (Directive × Text)} {p : Nat × Directive}
    (h : p ∈ placesFrom i toks) : i ≤ p.1 := by
  induction toks generalizing i with
  | nil => cases h
  | cons t toks ih =>
    rcases List.mem_cons.mp h with rfl | h
    · exact le_rfl
    · have hle := ih h
      omega

theorem pairwise_placesFrom (i : Nat) (toks : List (Directive × Text)) :
    (placesFrom i toks).Pairwise fun p q => p.1 + p.2.token.length ≤ q.1 := by
  induction toks generalizing i with
  | nil => exact .nil
  | cons t toks ih =>
    refine .cons (fun q hq => ?_) (ih _)
    have hle := le_of_mem_placesFrom hq
    dsimp only
    omega

theorem prefix_of_mem_placesFrom {src : Text} {toks : List (Directive × Text)}
    {p : Nat × Directive} (h : p ∈ placesFrom src.length toks) :
    p.2.token <+: (src ++ toks.flatMap tokenText).drop p.1 := by
  induction toks generalizing src with
  | nil => cases h
  | cons t toks ih =>
    rcases List.mem_cons.mp h with rfl | h
    · rw [List.drop_left, List.flatMap_cons, tokenText, List.append_assoc]
      exact List.prefix_append _ _
    · have hlength : src.length + t.1.token.length + t.2.length =
          (src ++ tokenText t).length := by
        simp [tokenText, Nat.add_assoc]
      rw [hlength] at h
      simpa using ih h

/-! Tokens stand outside `code` elements. -/

theorem le_of_mem_codeSpansFrom {fuel i : Nat} {s : Text} {span : Nat × Nat}
    (h : span ∈ codeSpansFrom fuel i s) : i ≤ span.1 := by
  induction fuel generalizing i s with
  | zero => cases h
  | succ fuel ih =>
    cases s with
    | nil => cases h
    | cons c s =>
      rw [codeSpansFrom] at h
      split at h
      · rcases List.mem_cons.mp h with rfl | h
        · exact le_rfl
        · have hle := ih h
          omega
      · have hle := ih h
        omega

theorem codeElement?_of_ne {c : Char} {s : Text} (h : c ≠ '<') : codeElement? (c :: s) = none := by
  cases hcode : codeElement? (c :: s) with
  | none => rfl
  | some found =>
    obtain ⟨raw, rest⟩ := found
    obtain ⟨htext, ⟨y, rfl⟩, -⟩ := codeElement?_eq_some hcode
    exact absurd (List.cons.inj htext).1 h

theorem codeSpansFrom_append {w : Text} (hw : '<' ∉ w) (fuel i : Nat) (s : Text) :
    codeSpansFrom (w.length + fuel) i (w ++ s) = codeSpansFrom fuel (i + w.length) s := by
  induction w generalizing i with
  | nil => simp
  | cons c w ih =>
    simp only [List.mem_cons, not_or] at hw
    rw [List.length_cons, Nat.add_right_comm, List.cons_append, codeSpansFrom,
      codeElement?_of_ne (Ne.symm hw.1)]
    dsimp only
    rw [ih hw.2, Nat.add_assoc, Nat.add_comm 1]

/-- No `code` element reaches into a token, or begins inside one. -/
theorem outside_codeSpansFrom {free : Bool} {fuel steps i : Nat} {s : Text}
    (hfuel : s.length ≤ fuel) (hsteps : s.length ≤ steps) {p : Nat × Directive}
    (hp : p ∈ tokenPlaces i (partsFrom free fuel s)) :
    ∀ span ∈ codeSpansFrom steps i s, p.1 + p.2.token.length ≤ span.1 ∨ span.2 ≤ p.1 := by
  induction fuel generalizing free steps i s with
  | zero => cases hp
  | succ fuel ih =>
    cases s with
    | nil => cases hp
    | cons c s =>
      obtain ⟨steps, rfl⟩ : ∃ n, steps = n + 1 :=
        Nat.exists_eq_succ_of_ne_zero (by simp at hsteps; omega)
      rw [partsFrom] at hp
      cases hcode : codeElement? (c :: s) with
      | some found =>
        obtain ⟨raw, rest⟩ := found
        obtain ⟨htext, ⟨y, hraw⟩, -⟩ := codeElement?_eq_some hcode
        have hpos : 0 < raw.length := List.length_pos_iff.mpr (by simp [hraw])
        have hlength := congrArg List.length htext
        simp only [List.length_append, List.length_cons] at hlength hfuel hsteps
        simp only [hcode, tokenPlaces, Part.text] at hp
        rw [codeSpansFrom, hcode]
        intro span hspan
        rcases List.mem_cons.mp hspan with rfl | hspan
        · refine .inr ?_
          rw [tokenPlaces_eq] at hp
          have hle := le_of_mem_placesFrom hp
          dsimp only
          omega
        · exact ih (by omega) (by omega) hp span hspan
      | none =>
        simp only [hcode] at hp
        split at hp
        · rename_i d tail rest hread
          have htoken := read?_eq_some (read?_of_free hread)
          have hlength := congrArg List.length htoken.text
          have hpos : 0 < (d.token ++ tail).length := by simp [token]
          simp only [List.length_append, List.length_cons] at hlength hfuel hsteps hpos
          -- no `<` stands in a token, so that no element begins in front of its end
          obtain ⟨more, hmore⟩ : ∃ n, steps + 1 = (d.token ++ tail).length + n :=
            Nat.exists_eq_add_of_le (by rw [List.length_append]; omega)
          rw [htoken.text, hmore, codeSpansFrom_append htoken.not_lt]
          intro span hspan
          rcases List.mem_cons.mp hp with rfl | hp
          · have hle := le_of_mem_codeSpansFrom hspan
            rw [List.length_append] at hle
            exact .inl (by dsimp only; omega)
          · rw [List.length_append] at hmore
            exact ih (by omega) (by omega) hp span hspan
        · rw [codeSpansFrom, hcode]
          exact ih (by simpa using hfuel) (by simpa using hsteps) hp

/-! Tokens are spelled as directives. -/

theorem not_infix_cutValue (value : Text) : ¬ commentEnd <:+: (cutValue value).1 := by
  rw [cutValue]
  split
  · rename_i before after h
    exact Text.not_infix_of_splitFirst? (by decide) h
  · rename_i h
    exact Text.splitFirst?_eq_none_iff.mp h

theorem value_of_read? {s tail rest : Text} {d : Directive} (h : read? s = some (d, tail, rest)) :
    ¬ commentEnd <:+: d.value := by
  unfold read? at h
  split at h
  · split at h
    · split at h
      · rename_i after hafter
        obtain ⟨rfl, -, -⟩ := by simpa using h
        exact not_infix_cutValue _
      · cases h
    · cases h
  · cases h

/-- The spelling of a directive: a key of letters, digits and underscores that begins with no digit,
and a value without blanks, `<` and the end of a comment. -/
structure Spelled (d : Directive) : Prop where
  key : IsKey d.key
  value : ∀ c ∈ d.value, Text.isBlank c = false ∧ c ≠ '<'
  uncut : ¬ commentEnd <:+: d.value

theorem spelled_of_mem_partsFrom {free : Bool} {fuel : Nat} {s tail : Text} {d : Directive}
    (h : .token d tail ∈ partsFrom free fuel s) : Spelled d := by
  induction fuel generalizing free s with
  | zero => cases h
  | succ fuel ih =>
    cases s with
    | nil => cases h
    | cons c s =>
      rw [partsFrom] at h
      split at h
      · exact ih (by simpa using h)
      · split at h
        · rename_i d' tail' rest hread
          rcases List.mem_cons.mp h with heq | h
          · obtain ⟨rfl, rfl⟩ := Part.token.inj heq
            have hread' := read?_of_free hread
            have htoken := read?_eq_some hread'
            refine ⟨htoken.key, fun e he => ?_, value_of_read? hread'⟩
            have hvalue := htoken.value e (List.mem_append_left _ he)
            refine ⟨isBlank_of_isValueChar hvalue, ?_⟩
            rintro rfl
            exact absurd hvalue (by decide)
          · exact ih h
        · exact ih (by simpa using h)

theorem mem_of_mem_gaps {ps : List Part} {t : Directive × Text} (h : t ∈ (gaps ps).2) :
    ∃ tail, .token t.1 tail ∈ ps := by
  induction ps with
  | nil => cases h
  | cons p ps ih =>
    cases p with
    | token d tail =>
      rcases List.mem_cons.mp h with rfl | h
      · exact ⟨tail, by simp⟩
      · obtain ⟨tail', hmem⟩ := ih h
        exact ⟨tail', by simp [hmem]⟩
    | char c | code raw =>
      obtain ⟨tail, hmem⟩ := ih h
      exact ⟨tail, by simp [hmem]⟩

theorem spelled_of_mem_gaps {f : Text} {t : Directive × Text} (h : t ∈ (gaps (parts f)).2) :
    Spelled t.1 := by
  obtain ⟨tail, hmem⟩ := mem_of_mem_gaps h
  exact spelled_of_mem_partsFrom hmem

end Directive
end Quizdown
