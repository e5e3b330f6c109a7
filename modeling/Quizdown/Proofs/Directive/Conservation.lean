import Quizdown.Proofs.Directive.Comments
import Quizdown.Proofs.Directive.Places

/-!
Extraction keeps everything but the tokens, the blanks that touch them, and the comments that hold
only blanks once the tokens are gone. This holds where no comment ends with another opening and
blanks: a comment is taken for empty from its last opening on.
-/
set_option autoImplicit false

namespace Quizdown

def Text.slice? (s : Text) (start stop : Nat) : Option Text :=
  if start ≤ stop ∧ stop ≤ s.length then some ((s.take stop).drop start) else none

namespace Directive

/-- The second text is what is kept of the first one, which is at this position, when the tokens at
their places leave. Blanks leave only at a token; the flag says that one stands right in front. -/
inductive Cuts : Bool → Nat → Text → List (Nat × Directive) → Text → Prop
  | last {touched : Bool} {i : Nat} {lead kept : Text} (blank : ∀ c ∈ lead, Text.isBlank c = true)
      (touches : touched = false → lead = []) : Cuts touched i (lead ++ kept) [] kept
  | token {touched : Bool} {i : Nat} {lead kept trail s g : Text} {d : Directive}
      {more : List (Nat × Directive)} (blank : ∀ c ∈ lead ++ trail, Text.isBlank c = true)
      (touches : touched = false → lead = [])
      (rest : Cuts true (i + (lead ++ kept ++ trail ++ d.token).length) s more g) :
      Cuts touched i (lead ++ kept ++ trail ++ d.token ++ s)
        ((i + (lead ++ kept ++ trail).length, d) :: more) (kept ++ g)

/-- The text of a fragment without the tokens at these places, put together by a cursor: what lies
between the cursor and a token is copied, then the cursor moves behind the token and the blanks that
leave with it. Nothing comes of it if the cursor passes the next token. -/
def copyAround (f : Text) : Nat → Text → List (Nat × Directive) → Option Text
  | cursor, out, [] => (Text.slice? f cursor f.length).map (out ++ ·)
  | cursor, out, (i, d) :: more =>
    match Text.slice? f cursor i, Text.slice? f (i + d.token.length) f.length with
    | some copied, some behind =>
      let out := out ++ copied
      let behind := if swallowsBlanks out then Text.trimStart behind else behind
      let out := if behind.isEmpty || behind.head? == some '<' then Text.trimEnd out else out
      copyAround f (f.length - behind.length) out more
    | _, _ => none

/-! What closing the gaps takes away. -/

def behindGap (before after : Text) : Text :=
  if swallowsBlanks before then Text.trimStart after else after

theorem exists_behindGap (before after : Text) :
    ∃ lead, after = lead ++ behindGap before after ∧ ∀ c ∈ lead, Text.isBlank c = true := by
  rw [behindGap]
  split
  · exact Text.exists_trimStart after
  · exact ⟨[], rfl, by simp⟩

theorem closeGap_split (before after : Text) (last : Bool) :
    ∃ kept trail, before = kept ++ trail ∧ (∀ c ∈ trail, Text.isBlank c = true) ∧
      closeGap before after last = kept ++ behindGap before after := by
  rw [closeGap, ← behindGap]
  split
  · obtain ⟨trail, hbefore, htrail⟩ := Text.exists_trimEnd before
    exact ⟨_, trail, hbefore, htrail, rfl⟩
  · exact ⟨before, [], by simp, by simp, rfl⟩

def KeepsBehind (toks : List (Directive × Text)) (g : Text) : Prop :=
  ∀ (touched : Bool) (i : Nat) (lead kept trail : Text), (∀ c ∈ lead, Text.isBlank c = true) →
    (∀ c ∈ trail, Text.isBlank c = true) → (touched = false → lead = []) →
    (toks = [] → trail = []) →
    Cuts touched i (lead ++ kept ++ trail ++ toks.flatMap tokenText)
      (placesFrom (i + (lead ++ kept ++ trail).length) toks) (kept ++ g)

theorem KeepsBehind.nil : KeepsBehind [] [] := by
  intro touched i lead kept trail hlead _ htouches htrail
  have hcuts : Cuts touched i (lead ++ kept) [] kept := .last hlead htouches
  simpa [htrail rfl, placesFrom] using hcuts

theorem KeepsBehind.cons {d : Directive} {after lead kept trail g : Text}
    {rest : List (Directive × Text)} (h : KeepsBehind rest g) (hafter : after = lead ++ kept ++ trail)
    (hlead : ∀ c ∈ lead, Text.isBlank c = true) (htrail : ∀ c ∈ trail, Text.isBlank c = true)
    (hlast : rest = [] → trail = []) : KeepsBehind ((d, after) :: rest) (kept ++ g) := by
  intro touched i front stays back hfront hback htouches _
  have hrest := h true (i + (front ++ stays ++ back ++ d.token).length) lead kept trail hlead htrail
    (by simp) hlast
  rw [← hafter] at hrest
  have hblank : ∀ c ∈ front ++ back, Text.isBlank c = true :=
    List.forall_mem_append.mpr ⟨hfront, hback⟩
  simpa [placesFrom, tokenText, Nat.add_assoc] using Cuts.token hblank htouches hrest

/-- The text in front of the first token is kept up to the blanks at its end. -/
theorem withoutTokens_split (before : Text) (toks : List (Directive × Text)) :
    ∃ kept trail g, before = kept ++ trail ∧ (∀ c ∈ trail, Text.isBlank c = true) ∧
      (toks = [] → trail = []) ∧ withoutTokens before toks = kept ++ g ∧ KeepsBehind toks g := by
  induction toks generalizing before with
  | nil => exact ⟨before, [], [], by simp, by simp, by simp, by simp [withoutTokens], .nil⟩
  | cons t rest ih =>
    obtain ⟨d, after⟩ := t
    obtain ⟨lead, hafter, hlead⟩ := exists_behindGap before after
    obtain ⟨front, back, hbefore, hback, hclose⟩ := closeGap_split before after rest.isEmpty
    obtain ⟨kept, trail, g, hsplit, htrail, hlast, hwithout, hkeeps⟩ :=
      ih (closeGap before after rest.isEmpty)
    rw [withoutTokens, hwithout]
    rw [hclose] at hsplit
    -- the blanks that leave before the next token lie behind this one, or reach in front of it
    rcases List.append_eq_append_iff.mp hsplit with ⟨stays, rfl, hbehind⟩ | ⟨gone, rfl, rfl⟩
    · refine ⟨front, back, stays ++ g, hbefore, hback, by simp, by simp, ?_⟩
      exact hkeeps.cons (by rw [hafter, hbehind, List.append_assoc]) hlead htrail hlast
    · rw [List.forall_mem_append] at htrail
      refine ⟨kept, gone ++ back, g, by rw [hbefore, List.append_assoc],
        List.forall_mem_append.mpr ⟨htrail.1, hback⟩, by simp, rfl, ?_⟩
      have hcons : KeepsBehind ((d, after) :: rest) ([] ++ g) :=
        hkeeps.cons (by simpa using hafter) hlead htrail.2 fun hnil =>
          (List.append_eq_nil_iff.mp (hlast hnil)).2
      exact hcons

theorem cuts_tokensGone (f : Text) : Cuts false 0 f (places f) (tokensGone f) := by
  obtain ⟨kept, trail, g, hbefore, htrail, hlast, hwithout, hkeeps⟩ :=
    withoutTokens_split (gaps (parts f)).1 (gaps (parts f)).2
  have hcuts := hkeeps false 0 [] kept trail (by simp) htrail (fun _ => rfl) hlast
  rw [List.nil_append, ← hbefore, gaps_parts, Nat.zero_add, ← places_eq, ← hwithout] at hcuts
  exact hcuts

/-! The cursor. -/

theorem slice?_append (a b c : Text) :
    Text.slice? (a ++ b ++ c) a.length (a ++ b).length = some b := by
  have hinside : a.length ≤ (a ++ b).length ∧ (a ++ b).length ≤ (a ++ b ++ c).length := by simp
  rw [Text.slice?, if_pos hinside, List.take_left, List.drop_left]

theorem head?_tokens (toks : List (Directive × Text)) :
    toks = [] ∧ toks.flatMap tokenText = [] ∨
      toks ≠ [] ∧ (toks.flatMap tokenText).head? = some '@' := by
  cases toks with
  | nil => exact .inl ⟨rfl, rfl⟩
  | cons t toks => exact .inr ⟨List.cons_ne_nil _ _, rfl⟩

theorem trimStart_tokens (after : Text) (toks : List (Directive × Text)) :
    Text.trimStart (after ++ toks.flatMap tokenText) =
      Text.trimStart after ++ toks.flatMap tokenText := by
  obtain ⟨blanks, hafter, hblanks⟩ := Text.exists_trimStart after
  have hstart : ∀ c ∈ (Text.trimStart after ++ toks.flatMap tokenText).head?,
      Text.isBlank c = false := by
    intro c hc
    cases htrim : Text.trimStart after with
    | nil =>
      rw [htrim, List.nil_append] at hc
      rcases head?_tokens toks with ⟨-, hnil⟩ | ⟨-, hat⟩
      · rw [hnil] at hc
        cases hc
      · rw [hat] at hc
        obtain rfl := Option.some.inj hc
        decide
    | cons d s =>
      rw [htrim] at hc
      exact @Text.isBlank_head_trimStart after c (by simpa [htrim] using hc)
  conv_lhs => rw [hafter, List.append_assoc]
  exact Text.trimStart_append hblanks hstart

theorem behindGap_tokens (before after : Text) (toks : List (Directive × Text)) :
    behindGap before (after ++ toks.flatMap tokenText) =
      behindGap before after ++ toks.flatMap tokenText := by
  rw [behindGap, behindGap, trimStart_tokens]
  split <;> rfl

theorem closes_iff (after : Text) (toks : List (Directive × Text)) :
    ((after ++ toks.flatMap tokenText).isEmpty ||
      (after ++ toks.flatMap tokenText).head? == some '<') =
      ((after.isEmpty && toks.isEmpty) || after.head? == some '<') := by
  rcases head?_tokens toks with ⟨rfl, -⟩ | ⟨hne, hat⟩
  · simp
  · cases after with
    | nil =>
      have hempty : (toks.flatMap tokenText).isEmpty = false := by
        cases h : toks.flatMap tokenText with
        | nil => simp [h] at hat
        | cons c s => rfl
      simp [hat, hempty, hne]
    | cons c after => simp

/-- The cursor stands behind what was copied or left out, and the text from there on begins with
what is copied next. -/
theorem copyAround_eq {f src pending : Text} {toks : List (Directive × Text)} (out : Text)
    (hf : f = src ++ pending ++ toks.flatMap tokenText) :
    copyAround f src.length out (placesFrom (src ++ pending).length toks) =
      some (withoutTokens (out ++ pending) toks) := by
  induction toks generalizing src pending out with
  | nil =>
    have hcopied := slice?_append src pending []
    rw [placesFrom, copyAround, withoutTokens, hf, List.flatMap_nil]
    rw [List.append_nil] at hcopied ⊢
    rw [hcopied, Option.map_some]
  | cons t rest ih =>
    obtain ⟨d, after⟩ := t
    obtain ⟨lead, hafter, -⟩ := exists_behindGap (out ++ pending) after
    have hcopied : Text.slice? f src.length (src ++ pending).length = some pending := by
      rw [hf]
      exact slice?_append src pending _
    have hbehind : Text.slice? f ((src ++ pending).length + d.token.length) f.length =
        some (after ++ rest.flatMap tokenText) := by
      have hslice := slice?_append (src ++ pending ++ d.token) (after ++ rest.flatMap tokenText) []
      rw [hf, ← List.length_append]
      simpa [tokenText] using hslice
    have hsplit : f = src ++ pending ++ d.token ++ lead ++ behindGap (out ++ pending) after ++
        rest.flatMap tokenText := by
      conv_lhs => rw [hf, List.flatMap_cons, tokenText, hafter]
      simp
    -- the cursor goes behind `lead`, the blanks that leave with the token
    have hcursor : f.length -
        (behindGap (out ++ pending) after ++ rest.flatMap tokenText).length =
          (src ++ pending ++ d.token ++ lead).length := by
      rw [hsplit]
      simp only [List.length_append]
      omega
    have hplace : (src ++ pending).length + d.token.length + after.length =
        (src ++ pending ++ d.token ++ lead ++ behindGap (out ++ pending) after).length := by
      conv_lhs => rw [hafter]
      simp only [List.length_append]
      omega
    rw [placesFrom, copyAround, hcopied, hbehind]
    dsimp only
    rw [← behindGap, behindGap_tokens, closes_iff, hcursor, hplace, ih _ hsplit]
    rfl

theorem copyAround_places (f : Text) : copyAround f 0 [] (places f) = some (tokensGone f) := by
  have hcopy := @copyAround_eq f [] (gaps (parts f)).1 (gaps (parts f)).2 [] (gaps_parts f).symm
  rw [places_eq]
  exact hcopy

/-! The whole of it. -/

/-- Extraction takes from a fragment its tokens, which stand one behind the other outside `code`
elements, the blanks that touch them, and the comments that are blank once they are gone. -/
structure Conserves (f : Text) : Prop where
  found : (extract f).directives = (places f).map Prod.snd
  spelled : ∀ p ∈ places f, p.2.token <+: f.drop p.1 ∧ Spelled p.2
  ordered : (places f).Pairwise fun p q => p.1 + p.2.token.length ≤ q.1
  outside : ∀ p ∈ places f, ∀ span ∈ codeSpans f, p.1 + p.2.token.length ≤ span.1 ∨ span.2 ≤ p.1
  copied : copyAround f 0 [] (places f) = some (tokensGone f)
  cuts : Cuts false 0 f (places f) (tokensGone f)
  kept : strip f = if places f = [] then f else withoutBlankComments (chunks (tokensGone f))

theorem places_eq_nil_iff {f : Text} : places f = [] ↔ (gaps (parts f)).2 = [] := by
  rw [places_eq]
  cases (gaps (parts f)).2 <;> simp [placesFrom]

theorem spelled_of_mem_places {f : Text} {p : Nat × Directive} (h : p ∈ places f) :
    p.2.token <+: f.drop p.1 ∧ Spelled p.2 := by
  rw [places_eq] at h
  have hmem : p.2 ∈ (gaps (parts f)).2.map Prod.fst := by
    rw [← map_snd_placesFrom]
    exact List.mem_map_of_mem h
  obtain ⟨t, ht, heq⟩ := List.mem_map.mp hmem
  refine ⟨?_, heq ▸ spelled_of_mem_gaps ht⟩
  have hprefix := prefix_of_mem_placesFrom h
  rwa [gaps_parts] at hprefix

/-- Extraction conserves everything but the tokens where no comment that is left ends like a blank
one. -/
theorem extract_conserves {f : Text}
    (h : places f ≠ [] → ∀ p ∈ chunks (tokensGone f), p.isPlain = true) : Conserves f where
  found := directives_extract f
  spelled _ := spelled_of_mem_places
  ordered := by
    rw [places_eq]
    exact pairwise_placesFrom _ _
  outside _ hp := outside_codeSpansFrom le_rfl le_rfl hp
  copied := copyAround_places f
  cuts := cuts_tokensGone f
  kept := by
    split
    · rename_i hnone
      rw [strip, extract_of_gaps (places_eq_nil_iff.mp hnone)]
    · rename_i hsome
      rw [strip_of_gaps fun hnil => hsome (places_eq_nil_iff.mpr hnil)]
      exact dropEmptyComments_eq (h hsome)

theorem extract_conserves_comment :
    let f := "<p>Pick <!-- @shuffle=no --> one, <code>@a=b</code> @tag=x too. @multi=yes</p>".toList
    (places f ≠ [] → ∀ p ∈ chunks (tokensGone f), p.isPlain = true) ∧
      strip f = "<p>Pick one, <code>@a=b</code> too.</p>".toList ∧ Conserves f := by
  intro f
  have hplain : places f ≠ [] → ∀ p ∈ chunks (tokensGone f), p.isPlain = true := by
    decide +kernel
  exact ⟨hplain, by decide +kernel, extract_conserves hplain⟩

/-- A comment that ends with the opening of another one loses its end, as this is taken for an empty
comment. -/
theorem extract_takes_end_of_comment :
    let f := "<p>Which <!-- <!-- --> one? @shuffle=no</p>".toList
    strip f = "<p>Which <!-- one?</p>".toList ∧
      withoutBlankComments (chunks (tokensGone f)) = "<p>Which <!-- <!-- --> one?</p>".toList ∧
      ¬ Conserves f := by
  intro f
  exact ⟨by decide +kernel, by decide +kernel, fun h => absurd h.kept (by decide +kernel)⟩

end Directive
end Quizdown
