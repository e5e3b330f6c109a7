import Quizdown.Proofs.Directive.Parts
import Quizdown.Proofs.Text.Trim

/-! What stays of a fragment when its tokens leave and the gaps behind them are closed. -/
set_option autoImplicit false

namespace Quizdown
namespace Directive

def tokensGone (f : Text) : Text := withoutTokens (gaps (parts f)).1 (gaps (parts f)).2

def Part.kept : Part → Text
  | char c => [c]
  | code raw => raw
  | token _ tail => tail

def cut (ps : List Part) : Text := ps.flatMap Part.kept

def Part.isGap : Part → Bool
  | char c => Text.isBlank c
  | code _ => false
  | token _ tail => tail.isEmpty

def Part.isToken : Part → Bool
  | token _ _ => true
  | _ => false

def Part.startsTag : Part → Bool
  | char c => c == '<'
  | code _ => true
  | token _ _ => false

/-- A run of blanks and tokens shrinks to these blanks. It may vanish in front of a tag and at the
end, and where it starts with a token right behind a text that swallows blanks. Without a blank it
vanishes, without a token it stays as it is, and all blanks stay if its tokens come first, behind a
text that swallows none. -/
structure Closes (swallows : Bool) (run : List Part) (blanks : Text) (next : Option Part) :
    Prop where
  gaps : ∀ p ∈ run, p.isGap = true
  blank : ∀ c ∈ blanks, Text.isBlank c = true
  empty : (∀ p ∈ run, p.isToken = true) → blanks = []
  closed : blanks = [] → run = [] ∨ next.all Part.startsTag = true ∨
    (swallows = true ∧ run.head?.any Part.isToken = true)
  untouched : run.any Part.isToken = false → run = blanks.map .char
  stays : swallows = false → (run.dropWhile Part.isToken).any Part.isToken = false →
    blanks = cut run

/-- The text stays of the parts. The flag says whether the text in front swallows blanks. -/
inductive Remains : Bool → List Part → Text → Prop
  | done {swallows : Bool} {run : List Part} {blanks : Text}
      (closes : Closes swallows run blanks none) : Remains swallows run blanks
  | next {swallows : Bool} {run ps : List Part} {blanks t : Text} {p : Part}
      (closes : Closes swallows run blanks (some p)) (solid : p.isGap = false)
      (rest : Remains (swallowsBlanks p.kept) ps t) :
      Remains swallows (run ++ p :: ps) (blanks ++ p.kept ++ t)

theorem cut_append (ps qs : List Part) : cut (ps ++ qs) = cut ps ++ cut qs := List.flatMap_append

theorem cut_chars (w : Text) : cut (w.map .char) = w := by
  induction w with
  | nil => rfl
  | cons c w ih => exact congrArg (c :: ·) ih

theorem cut_gaps {run : List Part} (h : ∀ p ∈ run, p.isGap = true) :
    ∀ c ∈ cut run, Text.isBlank c = true := by
  intro c hc
  obtain ⟨p, hp, hmem⟩ := List.mem_flatMap.mp hc
  have hgap := h p hp
  cases p with
  | char d =>
    obtain rfl := List.mem_singleton.mp hmem
    exact hgap
  | code raw => cases hgap
  | token d tail =>
    obtain rfl := List.isEmpty_iff.mp hgap
    cases hmem

theorem cut_eq_nil_iff {run : List Part} (h : ∀ p ∈ run, p.isGap = true) :
    cut run = [] ↔ ∀ p ∈ run, p.isToken = true := by
  rw [cut, List.flatMap_eq_nil_iff]
  refine forall₂_congr fun p hp => ?_
  have hgap := h p hp
  cases p with
  | char c => simp [Part.kept, Part.isToken]
  | code raw => cases hgap
  | token d tail => simpa [Part.kept, Part.isToken, Part.isGap] using hgap

def EndsSolid (s : Text) : Prop := ∀ c ∈ s.getLast?, Text.isBlank c = false

theorem EndsSolid.append {s t : Text} (ht : EndsSolid t) (hne : t ≠ []) : EndsSolid (s ++ t) := by
  intro c hc
  rw [List.getLast?_append_of_ne_nil _ hne] at hc
  exact ht c hc

theorem swallowsBlanks_append {s t : Text} (hne : t ≠ []) :
    swallowsBlanks (s ++ t) = swallowsBlanks t := by
  obtain ⟨c, t, rfl⟩ := List.exists_cons_of_ne_nil hne
  have hempty : (s ++ c :: t).isEmpty = false := by simp
  rw [swallowsBlanks, swallowsBlanks, List.getLast?_append_of_ne_nil _ hne, hempty]
  rfl

theorem swallowsBlanks_of_blank {s : Text} (h : ∀ c ∈ s, Text.isBlank c = true) (hne : s ≠ []) :
    swallowsBlanks s = true := by
  have hlast := h _ (List.getLast_mem hne)
  simp [swallowsBlanks, List.getLast?_eq_getLast_of_ne_nil hne, hlast]

theorem closeGap_solid {before s : Text} {c : Char} {last : Bool} (hblank : Text.isBlank c = false)
    (hne : c ≠ '<') : closeGap before (c :: s) last = before ++ c :: s := by
  have htrim : Text.trimStart (c :: s) = c :: s := by simp [Text.trimStart, hblank]
  simp [closeGap, htrim, hne]

/-- Blanks on both sides of a token: those that stay, and where none do. -/
theorem closeGap_eq {x blanks bs t : Text} (last : Bool) (hx : EndsSolid x)
    (hblanks : ∀ c ∈ blanks, Text.isBlank c = true) (hbs : ∀ c ∈ bs, Text.isBlank c = true)
    (ht : ∀ c ∈ t.head?, Text.isBlank c = false) :
    ∃ kept, closeGap (x ++ blanks) (bs ++ t) last = x ++ kept ++ t ∧
      (∀ c ∈ kept, Text.isBlank c = true) ∧ (blanks = [] → bs = [] → kept = []) ∧
      (blanks = [] → swallowsBlanks x = false → kept = bs) ∧
      (kept = [] → (t = [] ∧ last = true) ∨ t.head? = some '<' ∨ bs = [] ∨
        (blanks = [] ∧ swallowsBlanks x = true)) := by
  have htrim : Text.trimStart (bs ++ t) = t := Text.trimStart_append hbs ht
  -- blanks behind the token go if blanks stand in front of it, so at most one of the two stays
  cases hswallows : swallowsBlanks (x ++ blanks) with
  | true =>
    have hnone : ∀ s : Text, blanks = [] → swallowsBlanks x = false → s = bs := by
      rintro s rfl hx
      rw [List.append_nil, hx] at hswallows
      cases hswallows
    by_cases hclose : ((t.isEmpty && last) || t.head? == some '<') = true
    · refine ⟨[], ?_, by simp, fun _ _ => rfl, hnone [], fun _ => ?_⟩
      · simp only [closeGap, hswallows, htrim, hclose, Text.trimEnd_append hx hblanks, if_true,
          List.append_nil]
      · simp only [Bool.or_eq_true, Bool.and_eq_true, List.isEmpty_iff, beq_iff_eq] at hclose
        tauto
    · refine ⟨blanks, ?_, hblanks, fun hnil _ => hnil, hnone blanks, fun hnil => ?_⟩
      · simp only [closeGap, hswallows, htrim, hclose, if_true, Bool.false_eq_true, if_false]
      · subst hnil
        rw [List.append_nil] at hswallows
        exact .inr (.inr (.inr ⟨rfl, hswallows⟩))
  | false =>
    obtain rfl : blanks = [] := by
      by_contra hne
      rw [swallowsBlanks_append hne, swallowsBlanks_of_blank hblanks hne] at hswallows
      cases hswallows
    rw [List.append_nil] at hswallows
    by_cases hclose : (((bs ++ t).isEmpty && last) || (bs ++ t).head? == some '<') = true
    · have hnil : bs = [] := by
        by_contra hne
        obtain ⟨b, bs, rfl⟩ := List.exists_cons_of_ne_nil hne
        have hb := hbs b (by simp)
        have hlt : b = '<' := by simpa using hclose
        subst hlt
        exact absurd hb (by decide)
      subst hnil
      refine ⟨[], ?_, by simp, fun _ _ => rfl, fun _ _ => rfl, fun _ => .inr (.inr (.inl rfl))⟩
      have hself := Text.trimEnd_append hx hblanks
      rw [List.append_nil] at hself
      simp only [closeGap, List.append_nil, List.nil_append, hswallows, Bool.false_eq_true,
        if_false] at hclose ⊢
      simp only [hclose, if_true, hself]
    · refine ⟨bs, ?_, hbs, fun _ hnil => hnil, fun _ _ => rfl, fun hnil => .inr (.inr (.inl hnil))⟩
      simp only [closeGap, List.append_nil, hswallows, hclose, Bool.false_eq_true, if_false,
        List.append_assoc]

theorem Closes.start {swallows : Bool} {next : Option Part} : Closes swallows [] [] next where
  gaps := by simp
  blank := by simp
  empty _ := rfl
  closed _ := .inl rfl
  untouched _ := rfl
  stays _ _ := rfl

theorem Closes.blank_after {swallows : Bool} {run : List Part} {blanks : Text}
    {next next' : Option Part} {c : Char} (h : Closes swallows run blanks next)
    (hc : Text.isBlank c = true) :
    Closes swallows (run ++ [.char c]) (blanks ++ [c]) next' where
  gaps p hp := by
    rcases List.mem_append.mp hp with hp | hp
    · exact h.gaps p hp
    · obtain rfl := List.mem_singleton.mp hp
      exact hc
  blank d hd := by
    rcases List.mem_append.mp hd with hd | hd
    · exact h.blank d hd
    · exact List.mem_singleton.mp hd ▸ hc
  empty hrun := by cases hrun (.char c) (by simp)
  closed hblanks := by simp at hblanks
  untouched hnone := by
    rw [List.any_append, Bool.or_eq_false_iff] at hnone
    rw [h.untouched hnone.1, List.map_append, List.map_singleton]
  stays hswallows hnone := by
    have hrun : (run.dropWhile Part.isToken).any Part.isToken = false := by
      rw [List.dropWhile_append] at hnone
      split at hnone
      · rename_i hempty
        rw [List.isEmpty_iff.mp hempty]
        rfl
      · rw [List.any_append, Bool.or_eq_false_iff] at hnone
        exact hnone.1
    rw [h.stays hswallows hrun, cut_append]
    rfl

theorem Closes.token_after {swallows : Bool} {run : List Part} {blanks bs kept : Text}
    {next : Option Part} {d : Directive} (h : Closes swallows run blanks (some (.token d [])))
    (hbs : ∀ c ∈ bs, Text.isBlank c = true) (hkept : ∀ c ∈ kept, Text.isBlank c = true)
    (hnone : blanks = [] → bs = [] → kept = []) (hall : blanks = [] → swallows = false → kept = bs)
    (hnil : kept = [] → next.all Part.startsTag = true ∨ (blanks = [] ∧ swallows = true)) :
    Closes swallows (run ++ .token d [] :: bs.map .char) kept next where
  gaps p hp := by
    simp only [List.mem_append, List.mem_cons, List.mem_map] at hp
    rcases hp with hp | rfl | ⟨c, hc, rfl⟩
    · exact h.gaps p hp
    · rfl
    · exact hbs c hc
  blank := hkept
  empty htokens := by
    rw [List.forall_mem_append, List.forall_mem_cons] at htokens
    refine hnone (h.empty htokens.1) ?_
    cases bs with
    | nil => rfl
    | cons c bs => simp [Part.isToken] at htokens
  closed hempty := by
    right
    rcases hnil hempty with htag | ⟨hblanks, hswallows⟩
    · exact .inl htag
    · refine .inr ⟨hswallows, ?_⟩
      rcases h.closed hblanks with rfl | htag | ⟨-, htoken⟩
      · rfl
      · cases htag
      · cases run with
        | nil => rfl
        | cons q run => exact htoken
  untouched hnone := by simp [Part.isToken] at hnone
  stays hswallows hlast := by
    -- the last token comes first only if the run is made of tokens up to it
    have htokens : run.dropWhile Part.isToken = [] := by
      by_contra hne
      rw [List.dropWhile_append, if_neg (by simpa using hne)] at hlast
      simp [Part.isToken] at hlast
    have hrun : ∀ p ∈ run, p.isToken = true := List.dropWhile_eq_nil_iff.mp htokens
    have hcut : cut (run ++ .token d [] :: bs.map .char) = cut run ++ cut (bs.map .char) := by
      rw [cut_append]
      rfl
    rw [hcut, (cut_eq_nil_iff h.gaps).mpr hrun, cut_chars]
    exact hall (h.empty hrun) hswallows

theorem gaps_chars (bs : Text) (ps : List Part) :
    gaps (bs.map .char ++ ps) = (bs ++ (gaps ps).1, (gaps ps).2) := by
  induction bs with
  | nil => rfl
  | cons c bs ih =>
    rw [List.map_cons, List.cons_append, gaps, ih]
    rfl

theorem Covers.chars {free : Bool} {s w : Text} {ps : List Part}
    (h : Covers free s (w.map .char ++ ps)) : ∃ free' s', s = w ++ s' ∧ Covers free' s' ps := by
  induction w generalizing free s with
  | nil => exact ⟨free, s, rfl, h⟩
  | cons c w ih =>
    cases h with
    | char _ rest =>
      obtain ⟨free', s', rfl, h'⟩ := ih rest
      exact ⟨free', s', rfl, h'⟩

theorem exists_blanks (ps : List Part) : ∃ (bs : Text) (qs : List Part),
    ps = bs.map .char ++ qs ∧ (∀ c ∈ bs, Text.isBlank c = true) ∧
      ∀ c, qs.head? = some (.char c) → Text.isBlank c = false := by
  induction ps with
  | nil => exact ⟨[], [], rfl, by simp, by simp⟩
  | cons p ps ih =>
    by_cases hp : ∃ c, p = .char c ∧ Text.isBlank c = true
    · obtain ⟨c, rfl, hc⟩ := hp
      obtain ⟨bs, qs, rfl, hbs, hqs⟩ := ih
      exact ⟨c :: bs, qs, rfl, by simpa [hc] using hbs, hqs⟩
    · refine ⟨[], p :: ps, rfl, by simp, fun c hc => ?_⟩
      obtain rfl : p = .char c := by simpa using hc
      simpa using hp

theorem head_gaps {free : Bool} {s : Text} {ps : List Part} (h : Covers free s ps)
    (hchar : ∀ c, ps.head? = some (.char c) → Text.isBlank c = false) :
    (∀ c ∈ (gaps ps).1.head?, Text.isBlank c = false) ∧
      ((gaps ps).1.head? = some '<' → ps.head?.all Part.startsTag = true) ∧
      ((gaps ps).1 = [] → (gaps ps).2.isEmpty = true → ps = []) := by
  cases h with
  | nil => simp [gaps]
  | @char _ c s ps unread rest =>
    have hc := hchar c rfl
    refine ⟨?_, ?_, ?_⟩ <;> simp [gaps, Part.startsTag, hc]
  | @code _ raw s ps element ends rest =>
    obtain ⟨y, rfl⟩ := ends
    refine ⟨?_, ?_, ?_⟩ <;> simp [gaps, Part.startsTag]
    decide
  | token found rest => simp [gaps]

theorem Token.startsTag {free : Bool} {s s' : Text} {d : Directive} {tail : Text} {ps : List Part}
    (h : Token s d tail s') (hcovers : Covers free s' ps)
    (hchar : ∀ c, ps.head? = some (.char c) → Text.isBlank c = false) :
    ps.head?.all Part.startsTag = true := by
  have hrest := h.rest
  cases hcovers with
  | nil => rfl
  | @char _ c s ps unread rest =>
    have hc := hchar c rfl
    simpa [isValueChar, hc, Part.startsTag] using hrest
  | code element ends rest => rfl
  | token found rest =>
    rw [found.text, token] at hrest
    simp at hrest
    exact absurd hrest (by decide)

theorem withoutTokens_solid {free : Bool} {s before : Text} {p : Part} {ps : List Part}
    (h : Covers free s (p :: ps)) (hp : p.isGap = false) :
    withoutTokens (before ++ (gaps (p :: ps)).1) (gaps (p :: ps)).2 =
      withoutTokens (before ++ p.kept ++ (gaps ps).1) (gaps ps).2 := by
  cases h with
  | char unread rest => simp [gaps, Part.kept]
  | code element ends rest => simp [gaps, Part.kept]
  | token found rest =>
    rcases found.tail with rfl | ⟨w, rfl⟩
    · cases hp
    · have hclose : ∀ t last, closeGap before ('-' :: ('-' :: '>' :: w ++ t)) last =
          before ++ '-' :: ('-' :: '>' :: w ++ t) :=
        fun t last => closeGap_solid (by decide) (by decide)
      simp only [gaps, Part.kept, withoutTokens, List.append_nil]
      have htext : ∀ t, commentEnd ++ w ++ t = '-' :: ('-' :: '>' :: w ++ t) := fun t => rfl
      rw [htext, hclose, ← htext]
      simp only [List.append_assoc]

theorem endsSolid_kept {free : Bool} {s : Text} {p : Part} {ps : List Part}
    (h : Covers free s (p :: ps)) (hp : p.isGap = false) : p.kept ≠ [] ∧ EndsSolid p.kept := by
  cases h with
  | @char _ c _ _ unread rest =>
    refine ⟨by simp [Part.kept], ?_⟩
    intro d hd
    obtain rfl : c = d := by simpa [Part.kept] using hd
    exact hp
  | code element ends rest =>
    obtain ⟨y, rfl⟩ := ends
    have hend : EndsSolid codeEnd := by
      intro d hd
      obtain rfl : '>' = d := by simpa [codeEnd_eq] using hd
      decide
    exact ⟨by simp [Part.kept], hend.append (by decide)⟩
  | @token _ _ _ d tail _ found rest =>
    have hne : tail ≠ [] := by simpa [Part.isGap] using hp
    refine ⟨hne, fun c hc => ?_⟩
    exact isBlank_of_isValueChar (found.value c (List.mem_append_right _ (List.mem_of_getLast? hc)))

theorem withoutTokens_token {free : Bool} {s x blanks : Text} {run ps : List Part} {d : Directive}
    (h : Covers free s (.token d [] :: ps)) (hx : EndsSolid x)
    (hrun : Closes (swallowsBlanks x) run blanks (some (.token d []))) :
    ∃ (free' : Bool) (s' bs kept : Text) (qs : List Part), ps = bs.map .char ++ qs ∧
      Covers free' s' qs ∧
      Closes (swallowsBlanks x) (run ++ .token d [] :: bs.map .char) kept qs.head? ∧
      withoutTokens (x ++ blanks ++ (gaps (.token d [] :: ps)).1) (gaps (.token d [] :: ps)).2 =
        withoutTokens (x ++ kept ++ (gaps qs).1) (gaps qs).2 := by
  cases h with
  | token found rest =>
    obtain ⟨bs, qs, rfl, hbs, hqs⟩ := exists_blanks ps
    obtain ⟨free', s', -, hcovers⟩ := rest.chars
    obtain ⟨hhead, htag, hend⟩ := head_gaps hcovers hqs
    obtain ⟨kept, hgap, hkept, hnone, hall, hnil⟩ :=
      closeGap_eq (gaps qs).2.isEmpty hx hrun.blank hbs hhead
    refine ⟨free', s', bs, kept, qs, rfl, hcovers, hrun.token_after hbs hkept hnone hall fun h => ?_,
      ?_⟩
    · rcases hnil h with ⟨ht, hlast⟩ | hlt | rfl | hclosed
      · exact .inl (by simp [hend ht hlast])
      · exact .inl (htag hlt)
      · exact .inl (found.startsTag rest hqs)
      · exact .inr hclosed
    · simp only [gaps, gaps_chars, withoutTokens, List.append_nil, List.nil_append, hgap]

/-- The fragment without its tokens remains of its parts: `run` stands for the gaps between the last
part that was kept, with which `x` ends, and the parts still to come. -/
theorem remains_of_covers {ps run : List Part} {free : Bool} {s x blanks : Text}
    (h : Covers free s ps) (hx : EndsSolid x)
    (hrun : Closes (swallowsBlanks x) run blanks ps.head?) :
    ∃ t, withoutTokens (x ++ blanks ++ (gaps ps).1) (gaps ps).2 = x ++ t ∧
      Remains (swallowsBlanks x) (run ++ ps) t := by
  induction hn : ps.length using Nat.strong_induction_on generalizing ps run free s x blanks with
  | _ n ih =>
    cases ps with
    | nil => exact ⟨blanks, by simp [gaps, withoutTokens], by simpa using Remains.done hrun⟩
    | cons p ps =>
      have hlt : ps.length < n := by
        rw [List.length_cons] at hn
        omega
      cases hp : p.isGap with
      | false =>
        -- the part stays, and nothing later reaches back over it
        obtain ⟨hne, hsolid⟩ := endsSolid_kept h hp
        obtain ⟨free', s', hrest⟩ : ∃ free' s', Covers free' s' ps := by
          cases h <;> exact ⟨_, _, ‹_›⟩
        obtain ⟨t, ht, hremains⟩ := ih _ hlt hrest (hsolid.append (s := x ++ blanks) hne) .start rfl
        rw [swallowsBlanks_append hne] at hremains
        refine ⟨blanks ++ p.kept ++ t, ?_, .next hrun hp hremains⟩
        rw [withoutTokens_solid h hp]
        simpa using ht
      | true =>
        -- the run goes on
        cases p with
        | code raw => cases hp
        | char c =>
          cases h with
          | char unread rest =>
            obtain ⟨t, ht, hremains⟩ := ih _ hlt rest hx (hrun.blank_after hp) rfl
            exact ⟨t, by simpa [gaps] using ht, by simpa using hremains⟩
        | token d tail =>
          obtain rfl : tail = [] := by simpa [Part.isGap] using hp
          obtain ⟨free', s', bs, kept, qs, rfl, hcovers, hrun', heq⟩ :=
            withoutTokens_token h hx hrun
          rw [List.length_append] at hlt
          obtain ⟨t, ht, hremains⟩ := ih _ (by omega) hcovers hx hrun' rfl
          exact ⟨t, heq.trans ht, by simpa using hremains⟩

theorem remains_parts (f : Text) : Remains true (parts f) (tokensGone f) := by
  obtain ⟨t, ht, hremains⟩ := remains_of_covers (x := []) (covers_parts f)
    (by simp [EndsSolid]) .start
  rw [List.nil_append, List.nil_append, List.nil_append] at ht
  rw [tokensGone, ht]
  exact hremains

end Directive
end Quizdown
