import Quizdown.Proofs.Directive.Rows

/-!
What stays of the gaps between tokens when the tokens leave: the marks, some blanks, and comments
that nothing but blanks stand in. Then these comments leave, with the blanks in front of them.
-/
set_option autoImplicit false

namespace Quizdown

open Directive (commentStart commentEnd)

namespace Directive

variable {gs front : List Atom} {s w : Text}

/-! What stays of the gaps when the tokens between them leave. -/

/-- The gap behind a token that leaves: its first blanks stay only where a comment starts in front of
the token. -/
def behind (before after : List Atom) : List Atom :=
  if before.getLast? = some (.comment commentStart) then after else after.dropWhile Atom.isBlank

def joined (before after : List Atom) (last : Bool) : List Atom :=
  let after := behind before after
  if (after.isEmpty && last) || after.head?.any (fun g => g.isMark || g = .comment commentStart) then
    before.rdropWhile Atom.isBlank ++ after
  else before ++ after

def left (before : List Atom) : List (List Atom) → List Atom
  | [] => before
  | after :: rest => left (joined before after rest.isEmpty) rest

theorem thinned_behind (before after : List Atom) : Thinned after (behind before after) := by
  unfold behind
  split
  · exact .refl after
  · exact .dropWhile after

theorem thinned_joined (before after : List Atom) (last : Bool) :
    Thinned (before ++ after) (joined before after last) := by
  have hbehind := thinned_behind before after
  unfold joined
  dsimp only
  split
  · exact (Thinned.rdropWhile before).append hbehind
  · exact (Thinned.refl before).append hbehind

theorem trimStart_htmlOf (h : ∀ g ∈ gs, g.isGap = true) :
    Text.trimStart (htmlOf gs) = htmlOf (gs.dropWhile Atom.isBlank) := by
  induction gs with
  | nil => rfl
  | cons g gs ih =>
    rw [List.forall_mem_cons] at h
    cases Atom.gap h.1 with
    | blank hb hhtml hc =>
      rw [List.dropWhile_cons_of_pos hb, ← ih h.2, htmlOf_cons, hhtml]
      simp [Text.trimStart, hc]
    | mark hm hhtml =>
      have hlt : Text.isBlank '<' = false := rfl
      rw [List.dropWhile_cons_of_neg (by simp [Atom.isBlank_of_isMark hm]), htmlOf_cons, hhtml]
      simp [Text.trimStart, hlt]
    | opening | closing => rfl

theorem trimEnd_htmlOf (h : ∀ g ∈ gs, g.isGap = true) :
    Text.trimEnd (htmlOf gs) = htmlOf (gs.rdropWhile Atom.isBlank) := by
  induction gs using List.reverseRecOn with
  | nil => rfl
  | append_singleton gs g ih =>
    rw [List.forall_mem_append, List.forall_mem_singleton] at h
    have hsolid (w : Text) {c : Char} (hc : Text.isBlank c = false) (hhtml : g.html = w ++ [c])
        (hb : g.isBlank = false) :
        Text.trimEnd (htmlOf (gs ++ [g])) = htmlOf ((gs ++ [g]).rdropWhile Atom.isBlank) := by
      rw [List.rdropWhile_concat_neg _ _ _ (by simp [hb]), htmlOf_concat, hhtml]
      simp [Text.trimEnd, hc]
    cases Atom.gap h.2 with
    | blank hb hhtml hc =>
      rw [List.rdropWhile_concat_pos _ _ _ hb, ← ih h.1, htmlOf_concat, hhtml]
      simp [Text.trimEnd, hc]
    | mark hm hhtml => exact hsolid _ rfl hhtml (Atom.isBlank_of_isMark hm)
    | opening => exact hsolid "<!-".toList (c := '-') rfl rfl rfl
    | closing => exact hsolid "--".toList (c := '>') rfl rfl rfl

theorem swallowsBlanks_htmlOf (h : ∀ g ∈ gs, g.isGap = true) :
    swallowsBlanks (htmlOf gs) = true ↔ gs.getLast? ≠ some (.comment commentStart) := by
  rcases List.eq_nil_or_concat gs with rfl | ⟨gs, g, rfl⟩
  · exact iff_of_true rfl (by simp)
  · rw [List.concat_eq_append] at h ⊢
    have hswallows : swallowsBlanks (htmlOf (gs ++ [g])) = swallowsBlanks g.html := by
      obtain ⟨c, w, hhtml, -⟩ := (Atom.gap (h g (by simp))).html_cons
      rw [htmlOf_concat, swallowsBlanks_append (by simp [hhtml])]
    rw [hswallows, List.getLast?_concat]
    cases Atom.gap (h g (by simp)) with
    | blank hb hhtml hc =>
      refine iff_of_true (by simp [swallowsBlanks, hhtml, hc]) fun heq => ?_
      rw [Option.some.inj heq] at hb
      cases hb
    | mark hm hhtml =>
      refine iff_of_true ?_ fun heq => ?_
      · rw [hhtml, swallowsBlanks_append (List.cons_ne_nil '>' [])]
        rfl
      · rw [Option.some.inj heq] at hm
        cases hm
    | opening => decide
    | closing => decide

theorem head?_htmlOf (h : ∀ g ∈ gs, g.isGap = true) : ((htmlOf gs).head? == some '<') =
    gs.head?.any (fun g => g.isMark || g = .comment commentStart) := by
  cases gs with
  | nil => rfl
  | cons g gs =>
    rw [htmlOf_cons]
    cases Atom.gap (h g List.mem_cons_self) with
    | @blank _ c hb hhtml hc =>
      have hne : c ≠ '<' := by
        rintro rfl
        cases hc
      have hmark : g.isMark = false := by
        cases hm : g.isMark with
        | false => rfl
        | true => rw [Atom.isBlank_of_isMark hm] at hb; cases hb
      have hopening : g ≠ .comment commentStart := by
        rintro rfl
        cases hb
      simp [hhtml, hne, hmark, hopening]
    | mark hm hhtml => simp [hhtml, hm]
    | opening => rfl
    | closing => rfl

theorem isEmpty_htmlOf (h : ∀ g ∈ gs, g.isGap = true) : (htmlOf gs).isEmpty = gs.isEmpty := by
  cases gs with
  | nil => rfl
  | cons g gs =>
    obtain ⟨c, w, hhtml, -⟩ := (Atom.gap (h g List.mem_cons_self)).html_cons
    simp [htmlOf_cons, hhtml]

theorem closeGap_htmlOf {before after : List Atom} {last : Bool}
    (hbefore : ∀ g ∈ before, g.isGap = true) (hafter : ∀ g ∈ after, g.isGap = true) :
    closeGap (htmlOf before) (htmlOf after) last = htmlOf (joined before after last) := by
  have hkept : (if swallowsBlanks (htmlOf before) = true then Text.trimStart (htmlOf after)
      else htmlOf after) = htmlOf (behind before after) := by
    rw [behind, trimStart_htmlOf hafter]
    simp only [swallowsBlanks_htmlOf hbefore, ite_not]
    split <;> rfl
  have hrest : ∀ g ∈ behind before after, g.isGap = true := fun g hg =>
    hafter g ((thinned_behind before after).subset hg)
  rw [closeGap, hkept, isEmpty_htmlOf hrest, head?_htmlOf hrest, trimEnd_htmlOf hbefore, joined]
  split <;> rw [htmlOf_append]

theorem thinned_left (before : List Atom) (gaps : List (List Atom)) :
    Thinned (before ++ gaps.flatten) (left before gaps) := by
  induction gaps generalizing before with
  | nil =>
    rw [List.flatten_nil, List.append_nil]
    exact .refl before
  | cons after rest ih =>
    have hjoined := (thinned_joined before after rest.isEmpty).append (.refl rest.flatten)
    rw [List.flatten_cons, ← List.append_assoc]
    exact hjoined.trans (ih _)

theorem withoutTokens_htmlOf {ms : List Mention} (hfront : ∀ g ∈ front, g.isGap = true)
    (hms : ∀ m ∈ ms, ∀ g ∈ m.gap, g.isGap = true) :
    withoutTokens (htmlOf front) (ms.map fun m => (m.found, htmlOf m.gap)) =
      htmlOf (left front (ms.map Mention.gap)) := by
  induction ms generalizing front with
  | nil => rfl
  | cons m ms ih =>
    rw [List.forall_mem_cons] at hms
    have hjoined : ∀ g ∈ joined front m.gap ms.isEmpty, g.isGap = true := fun g hg =>
      List.forall_mem_append.mpr ⟨hfront, hms.1⟩ g ((thinned_joined _ _ _).subset hg)
    rw [List.map_cons, withoutTokens, List.isEmpty_map, closeGap_htmlOf hfront hms.1,
      ih hjoined hms.2, List.map_cons, left, List.isEmpty_map]

/-! Comments of blanks leave with the blanks in front of them. -/

def bracketNext : List Atom → Bool
  | [] => false
  | g :: gs => g.isBracket || (g.isBlank && bracketNext gs)

/-- The row without its comments of blanks and without the blanks in front of them. -/
def bare : List Atom → List Atom
  | [] => []
  | g :: gs => if bracketNext (g :: gs) then bare gs else g :: bare gs

theorem bracketNext_blank {b : Atom} (hb : b.isBlank = true) (gs : List Atom) :
    bracketNext (b :: gs) = bracketNext gs := by
  rw [bracketNext, Atom.isBracket_of_isBlank hb, hb, Bool.false_or, Bool.true_and]

theorem bracketNext_mark {m : Atom} (hm : m.isMark = true) (gs : List Atom) :
    bracketNext (m :: gs) = false := by
  rw [bracketNext, Atom.isBracket_of_isMark hm, Atom.isBlank_of_isMark hm]
  rfl

theorem bare_mark {m : Atom} (hm : m.isMark = true) (gs : List Atom) :
    bare (m :: gs) = m :: bare gs := by
  rw [bare, bracketNext_mark hm]
  rfl

theorem emptyComment?_gt (hw : '<' ∉ w) : emptyComment? (w ++ '>' :: s) = none := by
  cases h : emptyComment? (w ++ '>' :: s) with
  | none => rfl
  | some rest =>
    obtain ⟨before, inside, htext, hbefore, -⟩ := emptyComment?_eq_some h
    have hlt : '<' ∉ w ++ ['>'] := by simpa using hw
    have htext' : w ++ ['>'] ++ s = before ++ '<' :: ("!--".toList ++ (inside ++ (commentEnd ++ rest))) := by
      rw [List.append_assoc]
      exact htext
    obtain ⟨z, rfl, -⟩ := Text.split_behind hlt htext'
    exact absurd (hbefore '>' (by simp)) (by decide)

theorem dropEmptyComments_mark {g : Atom} (hg : g.isMark = true) (s : Text) :
    emptyComment? (g.html ++ s) = none ∧
      dropEmptyComments (g.html ++ s) = g.html ++ dropEmptyComments s := by
  obtain ⟨w, hhtml, hinside, -⟩ := Atom.html_mark hg
  have hnone : ∀ z, z <:+ g.html → z ≠ [] → emptyComment? (z ++ s) = none := by
    intro z hz hne
    rw [hhtml, List.cons_append] at hz
    rcases List.suffix_cons_iff.mp hz with rfl | hz
    · cases w with
      | nil => exact emptyComment?_lt (w := []) (by simp) (by decide)
      | cons c w => exact emptyComment?_lt (w := []) (by simp) (hinside c List.mem_cons_self).2.2
    · obtain rfl | ⟨v, rfl, hv⟩ := List.suffix_concat_iff.mp hz
      · exact absurd rfl hne
      · rw [List.append_assoc]
        exact emptyComment?_gt fun hlt => (hinside '<' (hv.subset hlt)).1 rfl
  exact ⟨hnone _ List.suffix_rfl (by simp [hhtml]), dropEmptyComments_append hnone⟩

theorem bracketNext_append {x y : List Atom} {b : Atom} (hb : b.isBracket = true)
    (hx : ∀ g ∈ x, g.isBracket = true ∨ g.isBlank = true) :
    bracketNext (x ++ b :: y) = true ∧ bare (x ++ b :: y) = bare y := by
  induction x with
  | nil =>
    have hnext : bracketNext (b :: y) = true := by rw [bracketNext, hb, Bool.true_or]
    exact ⟨hnext, if_pos hnext⟩
  | cons g x ih =>
    rw [List.forall_mem_cons] at hx
    obtain ⟨hnext, hbare⟩ := ih hx.2
    have hhere : bracketNext (g :: (x ++ b :: y)) = true := by
      rw [bracketNext, hnext, Bool.and_true, Bool.or_eq_true]
      exact hx.1
    rw [List.cons_append]
    exact ⟨hhere, (if_pos hhere).trans hbare⟩

theorem htmlOf_blanks {blanks : List Atom} (h : ∀ g ∈ blanks, g.isBlank = true) :
    ∀ c ∈ htmlOf blanks, Text.isBlank c = true := by
  intro c hc
  obtain ⟨g, hg, hmem⟩ := List.mem_flatMap.mp hc
  obtain ⟨d, hhtml, hd⟩ := Atom.html_blank (h g hg)
  rw [hhtml, List.mem_singleton] at hmem
  exact hmem ▸ hd

theorem comment?_blanks {blanks : List Atom} (h : ∀ g ∈ blanks, g.isBlank = true)
    (rest : List Atom) :
    comment? (htmlOf (.comment commentStart :: (blanks ++ .comment commentEnd :: rest))) =
      some (htmlOf blanks, htmlOf rest) := by
  have hend := @splitFirst?_commentEnd (htmlOf rest) _ (htmlOf_blanks h)
  rw [← List.append_assoc] at hend
  refine comment?_eq_some_iff.mpr ⟨?_, hend⟩
  rw [htmlOf_cons, htmlOf_append, htmlOf_cons, List.append_assoc]
  rfl

theorem dropEmptyComments_htmlOf (hgaps : ∀ g ∈ gs, g.isGap = true)
    (hcloses : closes false gs = true) : dropEmptyComments (htmlOf gs) = htmlOf (bare gs) ∧
      (emptyComment? (htmlOf gs)).isSome = bracketNext gs := by
  -- on the length: a comment is passed in one step
  induction hn : gs.length using Nat.strong_induction_on generalizing gs with
  | _ n ih =>
    cases gs with
    | nil => exact ⟨rfl, rfl⟩
    | cons g gs =>
      rw [List.forall_mem_cons] at hgaps
      rw [List.length_cons] at hn
      cases Atom.gap hgaps.1 with
      | @blank _ c hb hhtml hc =>
        have hne : g ≠ .comment commentStart := by
          rintro rfl
          cases hb
        obtain ⟨hdrop, hnext⟩ := ih gs.length (by omega) hgaps.2 (closes_tail hne hcloses) rfl
        rw [htmlOf_cons, hhtml, List.singleton_append, emptyComment?_blank hc, bracketNext_blank hb]
        refine ⟨?_, hnext⟩
        rw [bare, bracketNext_blank hb, ← hnext]
        cases hempty : emptyComment? (htmlOf gs) with
        | none =>
          rw [dropEmptyComments_cons ((emptyComment?_blank hc).trans hempty), hdrop]
          exact (congrArg (· ++ htmlOf (bare gs)) hhtml).symm
        | some rest =>
          -- the comment is met again behind the blank
          rw [dropEmptyComments_of_empty ((emptyComment?_blank hc).trans hempty),
            ← dropEmptyComments_of_empty hempty, hdrop]
          rfl
      | mark hm _ =>
        have hne : g ≠ .comment commentStart := by
          rintro rfl
          cases hm
        obtain ⟨hdrop, -⟩ := ih gs.length (by omega) hgaps.2 (closes_tail hne hcloses) rfl
        obtain ⟨hnone, hkept⟩ := dropEmptyComments_mark hm (htmlOf gs)
        rw [htmlOf_cons, hnone, hkept, hdrop, bare_mark hm, bracketNext_mark hm]
        exact ⟨rfl, rfl⟩
      | opening =>
        rw [closes, if_pos rfl] at hcloses
        obtain ⟨blanks, rest, rfl, hblanks, hrest⟩ := exists_commentEnd hcloses hgaps.2
        have hbehind := (List.forall_mem_cons.mp (List.forall_mem_append.mp hgaps.2).2).2
        obtain ⟨hdrop, -⟩ := ih rest.length (by simp at hn; omega) hbehind hrest rfl
        have hempty := emptyComment?_of_comment (comment?_blanks hblanks rest)
          (Text.isAllBlank_iff.mpr (htmlOf_blanks hblanks))
        have hinside : ∀ g ∈ .comment commentStart :: blanks,
            g.isBracket = true ∨ g.isBlank = true :=
          List.forall_mem_cons.mpr ⟨.inl rfl, fun g hg => .inr (hblanks g hg)⟩
        obtain ⟨hnext, hbare⟩ := bracketNext_append (y := rest) (b := .comment commentEnd) rfl hinside
        rw [List.cons_append] at hnext hbare
        rw [dropEmptyComments_of_empty hempty, hempty, hdrop, hnext, hbare]
        exact ⟨rfl, rfl⟩
      | closing => cases hcloses

theorem mem_bare {g : Atom} (h : g ∈ bare gs) : g ∈ gs ∧ g.isBracket = false := by
  induction gs with
  | nil => cases h
  | cons f gs ih =>
    rw [bare] at h
    split at h
    · exact (ih h).imp_left (List.mem_cons_of_mem f)
    · rename_i hnext
      rcases List.mem_cons.mp h with rfl | h
      · rw [bracketNext, Bool.or_eq_true, not_or, Bool.not_eq_true] at hnext
        exact ⟨List.mem_cons_self, hnext.1⟩
      · exact (ih h).imp_left (List.mem_cons_of_mem f)

theorem filter_bare (gs : List Atom) : (bare gs).filter Atom.isMark = gs.filter Atom.isMark := by
  induction gs with
  | nil => rfl
  | cons g gs ih =>
    cases hm : g.isMark with
    | true => rw [bare_mark hm, List.filter_cons_of_pos hm, List.filter_cons_of_pos hm, ih]
    | false =>
      rw [bare, List.filter_cons_of_neg (by simp [hm])]
      split
      · exact ih
      · rw [List.filter_cons_of_neg (by simp [hm]), ih]

theorem bracketNext_blanks {blanks : List Atom} {m : Atom} (hm : m.isMark = true)
    (hblanks : ∀ g ∈ blanks, g.isBlank = true) : bracketNext (blanks ++ [m]) = false := by
  induction blanks with
  | nil => exact bracketNext_mark hm []
  | cons g blanks ih =>
    rw [List.forall_mem_cons] at hblanks
    rw [List.cons_append, bracketNext_blank hblanks.1, ih hblanks.2]

theorem bare_blanks {blanks : List Atom} {m : Atom} (hm : m.isMark = true)
    (hblanks : ∀ g ∈ blanks, g.isBlank = true) : bare (blanks ++ [m]) = blanks ++ [m] := by
  induction blanks with
  | nil => exact bare_mark hm []
  | cons g blanks ih =>
    have hnext := bracketNext_blanks hm hblanks
    rw [List.cons_append] at hnext ⊢
    rw [bare, hnext, ih (List.forall_mem_cons.mp hblanks).2]
    rfl

/-! A row is blank, or it ends with an atom that is not and blanks behind it. -/

theorem blank_or_solid (gs : List Atom) : (∀ g ∈ gs, g.isBlank = true) ∨
    ∃ x b blanks, gs = x ++ b :: blanks ∧ b.isBlank = false ∧ ∀ g ∈ blanks, g.isBlank = true := by
  induction gs with
  | nil => exact .inl nofun
  | cons g gs ih =>
    rcases ih with hblank | ⟨x, b, blanks, rfl, hb, hblanks⟩
    · cases hg : g.isBlank with
      | true => exact .inl (List.forall_mem_cons.mpr ⟨hg, hblank⟩)
      | false => exact .inr ⟨[], g, gs, rfl, hg, hblank⟩
    · exact .inr ⟨g :: x, b, blanks, rfl, hb, hblanks⟩

theorem rdropWhile_solid {x blanks : List Atom} {b : Atom} (hb : b.isBlank = false)
    (hblanks : ∀ g ∈ blanks, g.isBlank = true) :
    (x ++ b :: blanks).rdropWhile Atom.isBlank = x ++ [b] := by
  rw [List.rdropWhile, List.reverse_append, List.reverse_cons, List.append_assoc,
    List.dropWhile_append_of_pos (by simpa using hblanks)]
  simp [hb]

theorem getLast?_solid {x blanks : List Atom} {b : Atom} (hb : b.isBlank = false)
    (hblanks : ∀ g ∈ blanks, g.isBlank = true) :
    (x ++ b :: blanks).getLast?.any Atom.isBlank = !blanks.isEmpty := by
  rcases List.eq_nil_or_concat' blanks with rfl | ⟨blanks, c, rfl⟩
  · simp [hb]
  · rw [← List.cons_append, ← List.append_assoc, List.getLast?_concat, Option.any_some,
      hblanks c (by simp)]
    simp

/-- The row ends with blanks that stand behind a comment. -/
def endsLoose (gs : List Atom) : Bool :=
  gs.getLast?.any Atom.isBlank &&
    (gs.rdropWhile Atom.isBlank).getLast? = some (.comment commentEnd)

theorem endsLoose_solid {x blanks : List Atom} {b : Atom} (hb : b.isBlank = false)
    (hblanks : ∀ g ∈ blanks, g.isBlank = true) :
    endsLoose (x ++ b :: blanks) = (!blanks.isEmpty && b = .comment commentEnd) := by
  rw [endsLoose, getLast?_solid hb hblanks, rdropWhile_solid hb hblanks, List.getLast?_concat]
  simp

/-! The last token. -/

theorem left_concat (before : List Atom) (gaps : List (List Atom)) (after : List Atom) :
    ∃ before', Thinned (before ++ gaps.flatten) before' ∧
      left before (gaps ++ [after]) = joined before' after true := by
  induction gaps generalizing before with
  | nil =>
    rw [List.flatten_nil, List.append_nil]
    exact ⟨before, .refl before, rfl⟩
  | cons gap gaps ih =>
    have hsome : (gaps ++ [after]).isEmpty = false := by simp
    obtain ⟨before', hthin, hleft⟩ := ih (joined before gap false)
    refine ⟨before', ?_, by rw [List.cons_append, left, hsome, hleft]⟩
    rw [List.flatten_cons, ← List.append_assoc]
    exact ((thinned_joined before gap false).append (.refl gaps.flatten)).trans hthin

theorem joined_solid (before x y : List Atom) {b : Atom} (hb : b.isBlank = false) (last : Bool) :
    ∃ u, joined before (x ++ b :: y) last = u ++ b :: y ∧ Thinned (before ++ x) u := by
  obtain ⟨v, hv, hthin⟩ : ∃ v, behind before (x ++ b :: y) = v ++ b :: y ∧ Thinned x v := by
    unfold behind
    split
    · exact ⟨x, rfl, .refl x⟩
    · refine ⟨x.dropWhile Atom.isBlank, ?_, .dropWhile x⟩
      induction x with
      | nil => simp [hb]
      | cons g x ih =>
        cases hg : g.isBlank with
        | true => simpa [hg] using ih
        | false => simp [hg]
  rw [joined, hv]
  split
  · exact ⟨_, (List.append_assoc ..).symm, (Thinned.rdropWhile before).append hthin⟩
  · exact ⟨_, (List.append_assoc ..).symm, (Thinned.refl before).append hthin⟩

theorem joined_blanks {before blanks : List Atom} {m : Atom} (hm : m.isMark = true)
    (hbefore : before.getLast? ≠ some (.comment commentStart))
    (hblanks : ∀ g ∈ blanks, g.isBlank = true) :
    joined before (blanks ++ [m]) true = before.rdropWhile Atom.isBlank ++ [m] := by
  have hbehind : behind before (blanks ++ [m]) = [m] := by
    rw [behind, if_neg hbefore, List.dropWhile_append_of_pos hblanks]
    simp [Atom.isBlank_of_isMark hm]
  simp [joined, hbehind, hm]

theorem bare_rdropWhile {m m' : Atom} (hm : m.isMark = true) (hm' : m'.isMark = true)
    {y : List Atom} (hy : ∀ g ∈ y, g.isBracket = true ∨ g.isBlank = true) :
    bare ((m :: y).rdropWhile Atom.isBlank ++ [m']) = [m, m'] := by
  rcases blank_or_solid y with hblank | ⟨x, b, blanks, rfl, hb, hblanks⟩
  · have hdrop := rdropWhile_solid (x := []) (Atom.isBlank_of_isMark hm) hblank
    rw [List.nil_append] at hdrop
    rw [hdrop, List.nil_append, List.singleton_append, bare_mark hm, bare_mark hm']
    rfl
  · have hbracket : b.isBracket = true := by simpa [hb] using hy b (by simp)
    have hbefore : ∀ g ∈ x, g.isBracket = true ∨ g.isBlank = true := fun g hg =>
      hy g (List.mem_append_left _ hg)
    rw [← List.cons_append, rdropWhile_solid hb hblanks, List.cons_append, List.cons_append,
      List.append_assoc, bare_mark hm, List.singleton_append,
      (bracketNext_append hbracket hbefore).2, bare_mark hm']
    rfl

/-- Behind the last comment the blanks around the last token leave. -/
theorem bare_joined_blanks {m m' : Atom} (hm : m.isMark = true) (hm' : m'.isMark = true)
    {y blanks : List Atom} (hblanks : ∀ g ∈ blanks, g.isBlank = true)
    (hy : ∀ g ∈ y, g.isBracket = true ∨ g.isBlank = true)
    (hcloses : closes false (m :: y ++ (blanks ++ [m'])) = true) :
    bare (joined (m :: y) (blanks ++ [m']) true) = [m, m'] := by
  have hbefore : (m :: y).getLast? ≠ some (.comment commentStart) := by
    intro hlast
    obtain ⟨u, hu⟩ := List.getLast?_eq_some_iff.mp hlast
    rw [hu, List.append_assoc, List.singleton_append, not_closes_opening hm' hblanks] at hcloses
    cases hcloses
  rw [joined_blanks hm' hbefore hblanks]
  exact bare_rdropWhile hm hm' hy

theorem bare_joined_solid {m m' b : Atom} (hm : m.isMark = true) (hm' : m'.isMark = true)
    (hb : b.isBracket = true) {x y blanks : List Atom} (hblanks : ∀ g ∈ blanks, g.isBlank = true)
    (hyx : ∀ g ∈ y ++ x, g.isBracket = true ∨ g.isBlank = true) :
    bare (joined (m :: y) (x ++ b :: (blanks ++ [m'])) true) = m :: (blanks ++ [m']) := by
  have hsolid : b.isBlank = false := by
    cases hblank : b.isBlank with
    | false => rfl
    | true => rw [Atom.isBracket_of_isBlank hblank] at hb; cases hb
  obtain ⟨u, hu, hthin⟩ := joined_solid (m :: y) x (blanks ++ [m']) hsolid true
  obtain ⟨z, rfl, hz⟩ := hthin.cons (Atom.isLoose_of_isMark hm)
  rw [hu, List.cons_append, bare_mark hm,
    (bracketNext_append hb fun g hg => hyx g (hz.subset hg)).2, bare_blanks hm' hblanks]

end Directive

end Quizdown
