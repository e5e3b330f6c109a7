import Quizdown.Proofs.Directive.Atoms
import Quizdown.Proofs.Html.Hidden

/-!
Directives that stand between atoms that show nothing: blanks, breaks, tags of emphasis, the starts
and ends of comments. All of them are found in the HTML, those in comments too, but for one that
follows a comment end behind which the value of another one was cut.
-/
set_option autoImplicit false

namespace Quizdown

open Directive (commentStart commentEnd codeElement? isLead)

namespace Atom

def isBlank : Atom → Bool
  | char c | comment [c] => Text.isBlank c
  | softBreak => true
  | _ => false

def runningTags : Texts :=
  (["p", "em", "strong", "s", "sup", "sub"].flatMap fun name =>
    ["<" ++ name ++ ">", "</" ++ name ++ ">"]).map String.toList

def isMark : Atom → Bool
  | hardBreak => true
  | tag raw => runningTags.contains raw
  | _ => false

def isBracket (g : Atom) : Bool := g = comment commentStart || g = comment commentEnd

def isGap (g : Atom) : Bool := g.isBlank || g.isMark || g.isBracket

inductive Gap : Atom → Prop
  | blank {g : Atom} {c : Char} (isBlank : g.isBlank = true) (html : g.html = [c])
      (char : Text.isBlank c = true) : Gap g
  | mark {g : Atom} {w : Text} (isMark : g.isMark = true) (html : g.html = '<' :: w ++ ['>'])
      (inside : ∀ c ∈ w, c ≠ '<' ∧ c ≠ '>' ∧ c ≠ '!')
      (plain : Html.elementName w ∈ Html.plainElements) : Gap g
  | opening : Gap (comment commentStart)
  | closing : Gap (comment commentEnd)

variable {g : Atom}

theorem html_blank (h : g.isBlank = true) : ∃ c, g.html = [c] ∧ Text.isBlank c = true := by
  cases g with
  | char c => exact ⟨c, escapeText_char (isMarkup_of_isBlank h), h⟩
  | softBreak => exact ⟨'\n', rfl, rfl⟩
  | comment raw =>
    match raw, h with
    | [c], h => exact ⟨c, rfl, h⟩
  | _ => cases h

theorem html_mark (h : g.isMark = true) : ∃ w, g.html = '<' :: w ++ ['>'] ∧
    (∀ c ∈ w, c ≠ '<' ∧ c ≠ '>' ∧ c ≠ '!') ∧ Html.elementName w ∈ Html.plainElements := by
  have hplain : ∀ w : Text, w.all (['<', '>', '!'].contains · = false) →
      ∀ c ∈ w, c ≠ '<' ∧ c ≠ '>' ∧ c ≠ '!' := fun w hw c hc => by
    simpa [not_or] using List.all_eq_true.mp hw c hc
  cases g with
  | hardBreak => exact ⟨"br /".toList, rfl, hplain _ (by decide), by decide⟩
  | tag raw =>
    have hall : ∀ raw ∈ runningTags, raw = '<' :: raw.tail.dropLast ++ ['>'] ∧
        raw.tail.dropLast.all (['<', '>', '!'].contains · = false) ∧
        Html.elementName raw.tail.dropLast ∈ Html.plainElements := by decide +kernel
    obtain ⟨heq, hw, hname⟩ := hall raw (List.contains_iff_mem.mp h)
    exact ⟨_, heq, hplain _ hw, hname⟩
  | _ => cases h

theorem gap (h : g.isGap = true) : Gap g := by
  simp only [isGap, isBracket, Bool.or_eq_true, decide_eq_true_eq] at h
  rcases h with (h | h) | rfl | rfl
  · obtain ⟨c, hhtml, hc⟩ := html_blank h
    exact .blank h hhtml hc
  · obtain ⟨w, hhtml, hinside, hplain⟩ := html_mark h
    exact .mark h hhtml hinside hplain
  · exact .opening
  · exact .closing

theorem isBracket_of_isBlank (h : g.isBlank = true) : g.isBracket = false := by
  simp only [isBracket, Bool.or_eq_false_iff, decide_eq_false_iff_not]
  constructor <;> rintro rfl <;> cases h

theorem isBlank_of_isMark (h : g.isMark = true) : g.isBlank = false := by
  cases g with
  | hardBreak | tag => rfl
  | _ => cases h

theorem isBracket_of_isMark (h : g.isMark = true) : g.isBracket = false := by
  cases g with
  | hardBreak | tag => rfl
  | _ => cases h

theorem fits_mark (h : g.isMark = true) : g.fits = true := by
  cases g with
  | tag raw =>
    have hall : ∀ raw ∈ runningTags, (Atom.tag raw).fits = true := by decide +kernel
    exact hall raw (List.contains_iff_mem.mp h)
  | hardBreak => rfl
  | _ => cases h

theorem Gap.html_cons (h : Gap g) : ∃ c w, g.html = c :: w ∧ '@' ∉ c :: w ∧ '<' ∉ w ∧
    (∀ t, codeElement? (c :: (w ++ t)) = none) ∧
      (w.getLast?.map isLead).getD (isLead c) = true := by
  cases h with
  | @blank _ c _ hhtml hc =>
    have hne : c ≠ '@' ∧ c ≠ '<' := by
      constructor <;> rintro rfl <;> cases hc
    exact ⟨c, [], hhtml, by simpa using Ne.symm hne.1, by simp,
      fun t => Directive.codeElement?_of_ne hne.2, by simp [isLead, hc]⟩
  | @mark _ w hm hhtml hinside _ =>
    rcases Directive.Atom.html_cases (fits_mark hm) with ⟨x, rfl⟩ | ⟨c, v, hcons, hat, hlt, hcode⟩
    · cases hm
    · rw [hhtml] at hcons
      obtain ⟨rfl, rfl⟩ := List.cons.inj hcons
      refine ⟨'<', w ++ ['>'], hhtml, by simpa using hat, hlt, hcode, ?_⟩
      rw [List.getLast?_concat]
      rfl
  | opening =>
    exact ⟨'<', "!--".toList, rfl, by decide, by decide,
      fun t => Directive.codeElement?_second (by decide) _, by decide⟩
  | closing =>
    exact ⟨'-', "->".toList, rfl, by decide, by decide,
      fun t => Directive.codeElement?_of_ne (by decide), by decide⟩

end Atom

theorem htmlOf_cons (g : Atom) (gs : List Atom) : htmlOf (g :: gs) = g.html ++ htmlOf gs := rfl

theorem htmlOf_concat (gs : List Atom) (g : Atom) : htmlOf (gs ++ [g]) = htmlOf gs ++ g.html := by
  simp [htmlOf]

namespace Directive

variable {s : Text} {d : Directive} {free : Bool} {fuel : Nat}

def escaped (d : Directive) : Directive := ⟨d.key, escapeText d.value⟩

instance : (key : Text) → Decidable (IsKey key)
  | [] => inferInstanceAs (Decidable False)
  | c :: s => decidable_of_iff (isKeyStart c = true ∧ s.all isKeyChar = true) <|
    and_congr_right' List.all_eq_true

theorem not_isMarkup_of_isKeyChar {c : Char} (h : isKeyChar c = true) : isMarkup c = false := by
  cases hc : isMarkup c with
  | false => rfl
  | true =>
    have hcases : c = '<' ∨ c = '>' ∨ c = '&' := by simpa [isMarkup, or_assoc] using hc
    rcases hcases with rfl | rfl | rfl <;> cases h

theorem token_escaped (hkey : IsKey d.key) : escapeText d.token = d.escaped.token := by
  have hsame : escapeText d.key = d.key :=
    escapeText_eq_self fun c hc => not_isMarkup_of_isKeyChar (hkey.isKeyChar c hc)
  have htext : d.token = ['@'] ++ d.key ++ ['='] ++ d.value := by simp [token]
  rw [htext, escapeText_append, escapeText_append, escapeText_append, hsame]
  simp [token, escaped, escapeText_char (c := '@') rfl, escapeText_char (c := '=') rfl]

theorem spelled_escaped (hkey : IsKey d.key) (hvalue : ∀ c ∈ d.value, Text.isBlank c = false) :
    d.escaped.Spelled := by
  have hchars : ∀ c ∈ escapeText d.value, Text.isBlank c = false ∧ c ≠ '<' ∧ c ≠ '>' := by
    intro c hc
    obtain ⟨b, hb, hmem⟩ : ∃ b ∈ d.value, c ∈ (Atom.char b).html := by
      obtain ⟨b, hb, hmem⟩ := List.mem_flatMap.mp hc
      exact ⟨b, hb, List.mem_flatMap.mpr ⟨b, List.mem_singleton_self b, hmem⟩⟩
    have hhead : (Atom.char b).html.head? ≠ some '<' := fun hhead =>
      Xml.ne_of_mem_escapeText (List.mem_of_mem_head? hhead) rfl
    refine ⟨not_isBlank_of_mem_escapeText (hvalue b hb) c hmem, Xml.ne_of_mem_escapeText hc, ?_⟩
    rintro rfl
    exact Atom.gt_not_mem rfl hhead hmem
  refine ⟨hkey, fun c hc => ⟨(hchars c hc).1, (hchars c hc).2.1⟩, fun hwithin => ?_⟩
  exact (hchars '>' (hwithin.subset (by simp [commentEnd_eq]))).2.2 rfl

theorem partsFrom_run {w : Text} (hat : '@' ∉ w) (hlt : '<' ∉ w) (hfuel : w.length ≤ fuel) :
    partsFrom free fuel (w ++ s) =
      w.map .char ++ partsFrom ((w.getLast?.map isLead).getD free) (fuel - w.length) s := by
  induction w generalizing free fuel with
  | nil => rfl
  | cons c w ih =>
    simp only [List.mem_cons, not_or] at hat hlt
    obtain ⟨fuel, rfl⟩ := Nat.exists_eq_add_of_le' (Nat.le_trans (Nat.le_add_left 1 _) hfuel)
    have hcode := codeElement?_of_ne (Ne.symm hlt.1) (s := w ++ s)
    have hread : (if free then read? (c :: (w ++ s)) else none) = none := by
      rw [read?_of_ne (Ne.symm hat.1), ite_self]
    rw [List.cons_append, partsFrom_char hcode hread, ih hat.2 hlt.2 (by simpa using hfuel)]
    cases w <;> simp [List.getLast?_cons]

theorem gaps_gap {g : Atom} (h : g.isGap = true) (hfuel : g.html.length ≤ fuel) :
    gaps (partsFrom free fuel (g.html ++ s)) =
      (g.html ++ (gaps (partsFrom true (fuel - g.html.length) s)).1,
        (gaps (partsFrom true (fuel - g.html.length) s)).2) := by
  obtain ⟨c, w, hhtml, hat, hlt, hcode, hlead⟩ := (Atom.gap h).html_cons
  rw [hhtml] at hfuel ⊢
  simp only [List.mem_cons, not_or] at hat
  obtain ⟨fuel, rfl⟩ := Nat.exists_eq_add_of_le' (Nat.le_trans (Nat.le_add_left 1 _) hfuel)
  have hread : (if free then read? (c :: (w ++ s)) else none) = none := by
    rw [read?_of_ne (Ne.symm hat.1), ite_self]
  rw [List.cons_append, partsFrom_char (hcode s) hread,
    partsFrom_run hat.2 hlt (by simpa using hfuel), hlead, gaps, gaps_chars]
  simp

theorem gaps_gaps {gs : List Atom} (h : ∀ g ∈ gs, g.isGap = true)
    (hfuel : (htmlOf gs).length ≤ fuel) :
    gaps (partsFrom free fuel (htmlOf gs ++ s)) =
      (htmlOf gs ++
          (gaps (partsFrom (free || !gs.isEmpty) (fuel - (htmlOf gs).length) s)).1,
        (gaps (partsFrom (free || !gs.isEmpty) (fuel - (htmlOf gs).length) s)).2) := by
  induction gs generalizing free fuel with
  | nil => simp [htmlOf]
  | cons g gs ih =>
    rw [List.forall_mem_cons] at h
    rw [htmlOf_cons, List.length_append] at hfuel
    rw [htmlOf_cons, List.append_assoc, gaps_gap h.1 (by omega), ih h.2 (by omega)]
    simp [Nat.sub_sub]

theorem gaps_token {tail rest : Text} (h : read? (d.token ++ (tail ++ rest)) = some (d, tail, rest)) :
    gaps (partsFrom true (fuel + 1) (d.token ++ (tail ++ rest))) =
      ([], (d, tail ++ (gaps (partsFrom false fuel rest)).1) ::
        (gaps (partsFrom false fuel rest)).2) := by
  obtain ⟨x, hx⟩ : ∃ x, d.token ++ (tail ++ rest) = '@' :: x := ⟨_, rfl⟩
  have hcode : codeElement? ('@' :: x) = none := codeElement?_of_ne (by decide)
  rw [hx] at h ⊢
  rw [partsFrom, hcode]
  dsimp only
  rw [if_pos rfl, h, gaps]

end Directive

/-- A directive in running text or, hidden, in a comment, with the atoms up to the next one. -/
structure Mention where
  directive : Directive
  hidden : Bool
  gap : List Atom
deriving DecidableEq

namespace Mention

open Directive (gaps partsFrom read? read?_of_token isValueChar)

variable {m : Mention} {rest : Text} {free : Bool} {fuel : Nat}

/-- The directive as it is found: in a comment nothing is escaped. -/
def found (m : Mention) : Directive := if m.hidden then m.directive else m.directive.escaped

def spelled (m : Mention) : List Atom :=
  m.directive.token.map fun c => if m.hidden then .comment [c] else .char c

def atoms (m : Mention) : List Atom := m.spelled ++ m.gap

structure Written (m : Mention) : Prop where
  key : Directive.IsKey m.directive.key
  value : ∀ c ∈ m.directive.value, Text.isBlank c = false
  inside : m.hidden = true → '<' ∉ m.directive.value ∧ ¬ commentEnd <:+: m.directive.value

instance (m : Mention) : Decidable m.Written :=
  decidable_of_iff (Directive.IsKey m.directive.key ∧
      m.directive.value.any Text.isBlank = false ∧
      (m.hidden = true → '<' ∉ m.directive.value ∧ ¬ commentEnd <:+: m.directive.value))
    ⟨fun h => ⟨h.1, by simpa using h.2.1, h.2.2⟩,
      fun h => ⟨h.key, by simpa using h.value, h.inside⟩⟩

theorem Written.spelled (h : m.Written) : m.found.Spelled := by
  obtain ⟨d, hidden, gap⟩ := m
  cases hidden with
  | false => exact Directive.spelled_escaped h.key h.value
  | true =>
    obtain ⟨hlt, huncut⟩ := h.inside rfl
    exact ⟨h.key, fun c hc => ⟨h.value c hc, fun heq => hlt (heq ▸ hc)⟩, huncut⟩

theorem htmlOf_atoms (h : m.Written) : htmlOf m.atoms = m.found.token ++ htmlOf m.gap := by
  obtain ⟨d, hidden, gap⟩ := m
  rw [atoms, htmlOf_append]
  cases hidden with
  | false => exact congrArg (· ++ htmlOf gap) ((htmlOf_chars _).trans (Directive.token_escaped h.key))
  | true => exact congrArg (· ++ htmlOf gap) (htmlOf_inside _)

theorem htmlOf_closings {closings : List Atom} (h : ∀ g ∈ closings, g = .comment commentEnd) :
    (htmlOf closings = [] ∨ ∃ w, htmlOf closings = commentEnd ++ w) ∧
      ∀ c ∈ htmlOf closings, isValueChar c = true := by
  constructor
  · cases closings with
    | nil => exact .inl rfl
    | cons g closings =>
      rw [h g List.mem_cons_self]
      exact .inr ⟨htmlOf closings, rfl⟩
  · intro c hc
    obtain ⟨g, hg, hmem⟩ := List.mem_flatMap.mp hc
    rw [h g hg] at hmem
    exact List.all_eq_true.mp (by decide : commentEnd.all isValueChar = true) c hmem

theorem not_isValueChar_gap {g : Atom} (h : g.isGap = true) (hne : g ≠ .comment commentEnd)
    (s : Text) : (g.html ++ s).head?.any isValueChar = false := by
  cases Atom.gap h with
  | blank _ hhtml hc => simp [hhtml, isValueChar, hc]
  | mark _ hhtml => simp [hhtml, isValueChar]
  | opening => rfl
  | closing => exact absurd rfl hne

/-- A mention is read with the comment ends behind it, up to a blank or `<`. -/
theorem read?_mention (hm : m.Written) {closings : List Atom} {g : Atom}
    (hclosings : ∀ g ∈ closings, g = .comment commentEnd) (hg : g.isGap = true)
    (hne : g ≠ .comment commentEnd) (s : Text) :
    read? (m.found.token ++ (htmlOf closings ++ (g.html ++ s))) =
      some (m.found, htmlOf closings, g.html ++ s) := by
  obtain ⟨htail, hvalue⟩ := htmlOf_closings hclosings
  have hspelled := hm.spelled
  refine read?_of_token ⟨by rw [List.append_assoc], hspelled.key, ?_, htail,
    not_isValueChar_gap hg hne s⟩ hspelled.uncut
  refine List.forall_mem_append.mpr ⟨fun c hc => ?_, hvalue⟩
  simp [isValueChar, hspelled.value c hc]

/-- All tokens are found where each stands behind a gap, and not right behind comment ends that the
value of the one before it runs over. -/
theorem gaps_mentions {front : List Atom} {ms : List Mention}
    (hfront : ∀ g ∈ front, g.isGap = true) (hfree : free = true ∨ front ≠ [])
    (hms : ∀ m ∈ ms, m.Written ∧ (∀ g ∈ m.gap, g.isGap = true) ∧
      ∃ g ∈ m.gap, g ≠ .comment commentEnd)
    (hfuel : (htmlOf (front ++ ms.flatMap atoms)).length ≤ fuel) :
    gaps (partsFrom free fuel (htmlOf (front ++ ms.flatMap atoms))) =
      (htmlOf front, ms.map fun m => (m.found, htmlOf m.gap)) := by
  induction ms generalizing front free fuel with
  | nil =>
    have hnil (free : Bool) (fuel : Nat) : partsFrom free fuel [] = [] := by
      cases fuel <;> rfl
    have hgaps := @Directive.gaps_gaps [] free fuel front hfront (by simpa using hfuel)
    rw [hnil] at hgaps
    simpa [gaps] using hgaps
  | cons m ms ih =>
    rw [List.forall_mem_cons] at hms
    obtain ⟨⟨hwritten, hgap, hends⟩, hmore⟩ := hms
    have hopen : (free || !front.isEmpty) = true := by
      rcases hfree with rfl | hfree
      · rfl
      · cases front with
        | nil => exact absurd rfl hfree
        | cons g front => simp
    -- the value runs over the comment ends at the start of the gap
    obtain ⟨closings, g, more, hsplit, hclosings, hne⟩ : ∃ closings g more,
        m.gap = closings ++ g :: more ∧ (∀ g ∈ closings, g = .comment commentEnd) ∧
          g ≠ .comment commentEnd := by
      obtain ⟨x, hx, hxne⟩ := hends
      obtain ⟨g, hfind⟩ := Option.isSome_iff_exists.mp
        (List.find?_isSome (p := fun g => g ≠ .comment commentEnd).mpr ⟨x, hx, by simpa using hxne⟩)
      obtain ⟨hne, closings, more, hsplit, hclosings⟩ := List.find?_eq_some_iff_append.mp hfind
      exact ⟨closings, g, more, hsplit, by simpa using hclosings, by simpa using hne⟩
    rw [hsplit, List.forall_mem_append] at hgap
    have hhtml : htmlOf (front ++ (m :: ms).flatMap atoms) = htmlOf front ++
        (m.found.token ++ (htmlOf closings ++ htmlOf (g :: more ++ ms.flatMap atoms))) := by
      rw [List.flatMap_cons, htmlOf_append, htmlOf_append, htmlOf_atoms hwritten, hsplit]
      simp only [htmlOf_append, List.append_assoc]
    have hread := read?_mention hwritten hclosings (hgap.2 g List.mem_cons_self) hne
      (htmlOf (more ++ ms.flatMap atoms))
    have hpos : 1 ≤ m.found.token.length := by simp [Directive.token]
    rw [hhtml, List.length_append, List.length_append, List.length_append] at hfuel
    rw [hhtml, Directive.gaps_gaps hfront (by omega), hopen]
    obtain ⟨less, hless⟩ : ∃ less, fuel - (htmlOf front).length = less + 1 :=
      Nat.exists_eq_add_of_le' (by omega)
    have hrest := @ih false less (g :: more) hgap.2 (.inr (List.cons_ne_nil g more)) hmore (by omega)
    rw [hless, List.cons_append, htmlOf_cons, Directive.gaps_token hread, ← htmlOf_cons,
      ← List.cons_append, hrest, List.append_nil, List.map_cons, hsplit, htmlOf_append]

end Mention
end Quizdown
