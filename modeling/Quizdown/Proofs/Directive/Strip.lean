import Quizdown.Proofs.Directive.Tokenless

/-!
Stripping leaves no token where comments stand apart from the text behind them: where no `=` follows
a comment end before the next blank or `<`. A value takes the text behind a comment along before it
is cut at the comment end, and a token in that text is passed over.
-/
set_option autoImplicit false

namespace Quizdown
namespace Directive

theorem emptyComment?_eq_some {s rest : Text} (h : emptyComment? s = some rest) :
    ∃ before inside, s = before ++ ("<!--".toList ++ (inside ++ (commentEnd ++ rest))) ∧
      (∀ c ∈ before, Text.isBlank c = true) ∧ ∀ c ∈ inside, Text.isBlank c = true := by
  obtain ⟨after, hopen, hclose⟩ := Option.bind_eq_some_iff.mp h
  obtain ⟨before, hs, hbefore⟩ := Text.exists_trimStart s
  obtain ⟨inside, hafter, hinside⟩ := Text.exists_trimStart after
  rw [Text.stripPrefix?_eq_some_iff] at hopen hclose
  rw [hclose] at hafter
  rw [hopen, hafter] at hs
  exact ⟨before, inside, hs, hbefore, hinside⟩

theorem emptyComment?_lt {w s : Text} {c : Char} (hw : '<' ∉ w) (hc : c ≠ '!') :
    emptyComment? (w ++ '<' :: c :: s) = none := by
  cases h : emptyComment? (w ++ '<' :: c :: s) with
  | none => rfl
  | some rest =>
    obtain ⟨before, inside, htext, hbefore, -⟩ := emptyComment?_eq_some h
    have hlt : '<' ∉ before := fun hmem => absurd (hbefore '<' hmem) (by decide)
    obtain ⟨z, rfl, hz⟩ := Text.split_behind hw htext
    cases z with
    | nil => exact absurd (List.cons.inj (List.cons.inj hz).2).1 hc
    | cons d z =>
      obtain rfl := (List.cons.inj hz).1
      simp at hlt

theorem emptyComment?_solid {c : Char} {s : Text} (hc : isValueChar c = true) :
    emptyComment? (c :: s) = none := by
  cases h : emptyComment? (c :: s) with
  | none => rfl
  | some rest =>
    obtain ⟨before, inside, htext, hbefore, -⟩ := emptyComment?_eq_some h
    cases before with
    | nil =>
      obtain rfl := (List.cons.inj htext).1
      exact absurd hc (by decide)
    | cons d before =>
      obtain rfl := (List.cons.inj htext).1
      have hblank := hbefore c (by simp)
      rw [isBlank_of_isValueChar hc] at hblank
      cases hblank

-- by `delta`: the equation Lean would derive evaluates `emptyComment?` on the way
theorem dropEmptyCommentsFrom_cons (fuel : Nat) (c : Char) (s : Text) :
    dropEmptyCommentsFrom (fuel + 1) (c :: s) =
      match emptyComment? (c :: s) with
      | some rest => dropEmptyCommentsFrom fuel rest
      | none => c :: dropEmptyCommentsFrom fuel s := by
  delta dropEmptyCommentsFrom
  rfl

inductive Drops : Text → Text → Prop
  | stop (s : Text) : Drops s s
  | comment {s rest t : Text} (found : emptyComment? s = some rest) (drops : Drops rest t) :
      Drops s t
  | keep {c : Char} {s t : Text} (kept : emptyComment? (c :: s) = none) (drops : Drops s t) :
      Drops (c :: s) (c :: t)

theorem drops_dropEmptyCommentsFrom (fuel : Nat) (s : Text) :
    Drops s (dropEmptyCommentsFrom fuel s) := by
  induction fuel generalizing s with
  | zero => exact .stop s
  | succ fuel ih =>
    cases s with
    | nil => exact .stop []
    | cons c s =>
      rw [dropEmptyCommentsFrom_cons]
      split
      · rename_i rest hfound
        exact .comment hfound (ih rest)
      · rename_i hkept
        exact .keep hkept (ih s)

theorem apart_of_emptyComment {s rest : Text} (hs : commentsApart s = true)
    (h : emptyComment? s = some rest) : commentsApart rest = true ∧ ¬ Assigns rest := by
  obtain ⟨before, inside, rfl, -, -⟩ := emptyComment?_eq_some h
  have hend := commentsApart_of_append (commentsApart_of_append (commentsApart_of_append hs))
  exact ⟨commentsApart_of_append hend, not_assigns_of_commentEnd hend⟩

namespace Drops

theorem tail {c : Char} {s t : Text} (h : Drops (c :: s) t)
    (hnone : emptyComment? (c :: s) = none) : ∃ t', t = c :: t' ∧ Drops s t' := by
  generalize htext : c :: s = u at h
  cases h with
  | stop => exact ⟨s, htext.symm, .stop s⟩
  | comment found drops =>
    rw [← htext, hnone] at found
    cases found
  | keep kept drops =>
    obtain ⟨rfl, rfl⟩ := List.cons.inj htext
    exact ⟨_, rfl, drops⟩

theorem append {w s t : Text} (h : Drops (w ++ s) t)
    (hw : ∀ v z, w = v ++ z → z ≠ [] → emptyComment? (z ++ s) = none) :
    ∃ t', t = w ++ t' ∧ Drops s t' := by
  induction w generalizing t with
  | nil => exact ⟨t, rfl, h⟩
  | cons c w ih =>
    obtain ⟨t₁, rfl, h₁⟩ := h.tail (hw [] (c :: w) rfl (by simp))
    obtain ⟨t', rfl, h'⟩ := ih h₁ fun v z hvz hz => hw (c :: v) z (by simp [hvz]) hz
    exact ⟨t', rfl, h'⟩

theorem code {w s t : Text} (hw : '<' ∉ w) (h : Drops ('<' :: 'c' :: w ++ codeEnd ++ s) t) :
    ∃ t', t = '<' :: 'c' :: w ++ codeEnd ++ t' ∧ Drops s t' := by
  have htext : ∀ u, '<' :: 'c' :: w ++ codeEnd ++ u =
      '<' :: (('c' :: w) ++ '<' :: ("/code>".toList ++ u)) := by simp [codeEnd_eq]
  have hnone : ∀ (c : Char) (u : Text), c ≠ '!' → emptyComment? ('<' :: c :: u) = none :=
    fun c u hc => emptyComment?_lt (w := []) (by simp) hc
  rw [htext] at h
  obtain ⟨t₁, rfl, h₁⟩ := h.tail (hnone 'c' _ (by decide))
  obtain ⟨t₂, rfl, h₂⟩ := h₁.append fun v z hvz hz => by
    have hz' : '<' ∉ z := fun hmem => by
      have hmem' : '<' ∈ 'c' :: w := by
        rw [hvz]
        exact List.mem_append_right v hmem
      simp [hw] at hmem'
    exact emptyComment?_lt hz' (by decide)
  obtain ⟨t₃, rfl, h₃⟩ := h₂.tail (hnone '/' _ (by decide))
  obtain ⟨t₄, rfl, h₄⟩ := h₃.append fun v z hvz hz => by
    obtain ⟨c, z, rfl⟩ := List.exists_cons_of_ne_nil hz
    have hmem : c ∈ "/code>".toList := by
      rw [hvz]
      simp
    have hvalue : ∀ d ∈ "/code>".toList, isValueChar d = true := List.all_eq_true.mp rfl
    exact emptyComment?_solid (hvalue c hmem)
  exact ⟨t₄, (htext t₄).symm, h₄⟩

theorem not_assigns {s t : Text} (h : Drops s t) (hs : commentsApart s = true)
    (hnot : ¬ Assigns s) : ¬ Assigns t := by
  induction h with
  | stop s => exact hnot
  | comment found drops ih =>
    obtain ⟨hrest, hnot'⟩ := apart_of_emptyComment hs found
    exact ih hrest hnot'
  | @keep c s t kept drops ih =>
    rw [assigns_cons] at hnot ⊢
    have hrest := ih (commentsApart_cons.mp hs).2
    tauto

theorem key {s key after : Text} (h : Drops s (key ++ '=' :: after)) (hs : commentsApart s = true)
    (hkey : ∀ c ∈ key, isValueChar c = true) : ∃ after', s = key ++ '=' :: after' := by
  generalize htext : key ++ '=' :: after = t at h
  induction h generalizing key with
  | stop s => exact ⟨after, htext.symm⟩
  | comment found drops ih =>
    -- no `=` follows a comment, so the key cannot start behind one
    obtain ⟨hrest, hnot⟩ := apart_of_emptyComment hs found
    exact absurd (htext ▸ assigns_key hkey) (drops.not_assigns hrest hnot)
  | @keep c s t kept drops ih =>
    cases key with
    | nil => exact ⟨s, by rw [(List.cons.inj htext).1]; rfl⟩
    | cons d key =>
      obtain ⟨rfl, rfl⟩ := List.cons.inj htext
      obtain ⟨after', rfl⟩ := ih (commentsApart_cons.mp hs).2 (fun e he => hkey e (by simp [he])) rfl
      exact ⟨after', rfl⟩

end Drops

theorem Tokenless.after_comment {free : Bool} {s rest : Text} (h : Tokenless free s)
    (hfound : emptyComment? s = some rest) : Tokenless true rest := by
  obtain ⟨before, inside, rfl, hbefore, hinside⟩ := emptyComment?_eq_some hfound
  have hblank : ∀ w : Text, (∀ c ∈ w, Text.isBlank c = true) → '<' ∉ w :=
    fun w hall hmem => absurd (hall '<' hmem) (by decide)
  obtain ⟨free₁, h₁⟩ := h.skip (hblank before hbefore)
  have h₂ : Tokenless false ("!--".toList ++ (inside ++ (commentEnd ++ rest))) :=
    h₁.tail fun _ hc => absurd (Option.some.inj hc) (by decide)
  obtain ⟨free₃, h₃⟩ := h₂.skip (by decide)
  obtain ⟨free₄, h₄⟩ := h₃.skip (hblank inside hinside)
  have h₅ : Tokenless free₄ ("--".toList ++ ('>' :: rest)) := h₄
  obtain ⟨free₆, h₆⟩ := h₅.skip (by decide)
  exact h₆.tail fun hc => absurd hc (by decide)

theorem Drops.eq_nil {t : Text} (h : Drops [] t) : t = [] := by
  generalize hnil : ([] : Text) = s at h
  cases h with
  | stop => rfl
  | comment found drops =>
    obtain ⟨before, inside, rfl, -, -⟩ := emptyComment?_eq_some found
    simp at hnil
  | keep kept drops => cases hnil

theorem length_emptyComment? {s rest : Text} (h : emptyComment? s = some rest) :
    rest.length < s.length := by
  obtain ⟨before, inside, rfl, -, -⟩ := emptyComment?_eq_some h
  simp [commentEnd_eq]
  omega

theorem Tokenless.drops {free : Bool} {s t : Text} (h : Tokenless free s)
    (hs : commentsApart s = true) (hdrops : Drops s t) : Tokenless free t := by
  -- on the length: a `code` element and a comment are passed in one step
  induction hn : s.length using Nat.strong_induction_on generalizing free s t with
  | _ n ih =>
    cases h with
    | nil => exact hdrops.eq_nil ▸ .nil
    | @code _ w s element plain rest =>
      obtain ⟨t, rfl, hdrops'⟩ := hdrops.code plain
      have hlt : s.length < n := by
        rw [← hn]
        simp
        omega
      exact .code element plain (ih _ hlt rest (commentsApart_of_append hs) hdrops' rfl)
    | @char _ c s unread rest =>
      generalize htext : c :: s = u at hdrops
      cases hdrops with
      | stop => exact htext ▸ .char unread rest
      | comment found drops =>
        subst htext
        have hrest := Tokenless.after_comment (.char unread rest) found
        have hlt := hn ▸ length_emptyComment? found
        exact (ih _ hlt hrest (apart_of_emptyComment hs found).1 drops rfl).weaken
      | @keep _ _ t kept drops =>
        obtain ⟨rfl, rfl⟩ := List.cons.inj htext
        have hs' := (commentsApart_cons.mp hs).2
        have hlt : s.length < n := by
          rw [← hn, List.length_cons]
          omega
        refine .char (fun hfree => ?_) (ih _ hlt rest hs' drops rfl)
        by_contra hread
        have hbefore : (read? (c :: s)).isSome := by
          refine isSome_read?_of_key (fun _ key after htext hkey => ?_)
            (Option.isSome_iff_ne_none.mpr hread)
          subst htext
          exact drops.key hs' fun d hd => (isValueChar_of_isKeyChar (hkey d hd)).1
        rw [unread hfree] at hbefore
        cases hbefore

/-- What holds of a fragment in which stripping finds every token: comments stand apart from
assignments behind them, and `code` elements hold only text. -/
structure Tidy (f : Text) : Prop where
  comments : commentsApart f = true
  code : ∀ p ∈ parts f, p.isPlain = true

theorem tokenless_strip {f : Text} (h : Tidy f) (hfound : (gaps (parts f)).2 ≠ []) :
    Tokenless true (strip f) := by
  have hremains := remains_parts f
  have htokenless : Tokenless true (tokensGone f) :=
    hremains.tokenless (covers_parts f) h.comments h.code fun _ => .inl rfl
  have hapart := hremains.apart (covers_parts f) h.comments
  rw [strip_of_gaps hfound]
  exact htokenless.drops hapart (drops_dropEmptyCommentsFrom _ _)

/-- No directive survives stripping a tidy fragment: nothing is found in what is left, and stripping
it again changes nothing. -/
theorem strip_leaves_none {f : Text} (h : Tidy f) :
    (extract (strip f)).directives = [] ∧ strip (strip f) = strip f := by
  have hextract : extract (strip f) = ⟨[], strip f⟩ := by
    by_cases hfound : (gaps (parts f)).2 = []
    · have hself := extract_of_gaps hfound
      have hstrip : strip f = f := by rw [strip, hself]
      rw [hstrip, hself]
    · exact extract_of_gaps (tokenless_strip h hfound).gaps_partsFrom
  refine ⟨by rw [hextract], ?_⟩
  rw [strip, hextract]

theorem strip_leaves_none_comment :
    let f := "<p>Pick<!-- @shuffle=no --> one, <code>@a=b</code> too. @multi=yes</p>".toList
    (extract f).directives = [⟨"shuffle".toList, "no".toList⟩, ⟨"multi".toList, "yes".toList⟩] ∧
      Tidy f ∧ (extract (strip f)).directives = [] ∧ strip (strip f) = strip f := by
  intro f
  have htidy : Tidy f := ⟨by decide +kernel, by decide +kernel⟩
  exact ⟨by decide +kernel, htidy, strip_leaves_none htidy⟩

/-- A directive right behind a comment survives: the value in the comment takes it along. -/
theorem strip_leaves_token_behind_comment :
    let f := "<p><!--@shuffle=no-->@multi=yes Pick one.</p>".toList
    (extract f).directives = [⟨"shuffle".toList, "no".toList⟩] ∧
      (extract (strip f)).directives = [⟨"multi".toList, "yes".toList⟩] ∧
      strip f = "<p>@multi=yes Pick one.</p>".toList ∧
      strip (strip f) = "<p>Pick one.</p>".toList := by
  decide +kernel

-- an end tag inside a start tag: dropping the comment makes an element that ends there
example : (extract (strip "<co<!-- -->de> <code </code> @a=1 </code> @b=2".toList)).directives =
    [⟨"a".toList, "1".toList⟩] := by
  decide +kernel

end Directive
end Quizdown
