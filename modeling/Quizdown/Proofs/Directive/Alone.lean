import Quizdown.Proofs.Assembly.Group
import Quizdown.Proofs.Directive.Leftover

/-!
A paragraph that shows nothing but directives. All of them are found. What stays is a row of the
same tags and hard breaks with blanks between them, and comments that held nothing but directives
leave too. So nothing stays exactly if there were no such tags and breaks, and no blanks at the end
behind a comment.
-/
set_option autoImplicit false

namespace Quizdown

open Directive (commentStart commentEnd)

theorem Mention.thinned_atoms (m : Mention) : Thinned m.atoms m.gap := by
  have hspelled : ∀ g ∈ m.spelled, g.isLoose = true := by
    intro g hg
    obtain ⟨c, -, rfl⟩ := List.mem_map.mp hg
    cases m.hidden with
    | false => rfl
    | true => simp [Atom.isLoose, Atom.isMark, Atom.isBracket, commentStart, Directive.commentEnd_eq]
  exact (Thinned.of_loose hspelled).append (.refl m.gap)

theorem Mention.thinned_flatMap (ms : List Mention) :
    Thinned (ms.flatMap Mention.atoms) (ms.map Mention.gap).flatten := by
  induction ms with
  | nil => exact .nil
  | cons m ms ih => exact m.thinned_atoms.append ih

theorem Mention.exists_last (m : Mention) (h : m.Written) :
    ∃ init t, m.spelled = init ++ [t] ∧ t.isBlank = false ∧ t ≠ .comment commentEnd := by
  let f : Char → Atom := fun c => if m.hidden then .comment [c] else .char c
  obtain ⟨init, c, htoken⟩ : ∃ init c, m.directive.token = init ++ [c] :=
    (List.eq_nil_or_concat' m.directive.token).resolve_left (List.cons_ne_nil _ _)
  have hc : Text.isBlank c = false := by
    have hmem : c ∈ m.directive.token := htoken ▸ by simp
    simp only [Directive.token, List.cons_append, List.mem_cons, List.mem_append] at hmem
    rcases hmem with rfl | hkey | rfl | hvalue
    · rfl
    · exact Directive.isBlank_of_isValueChar
        (Directive.isValueChar_of_isKeyChar (h.key.isKeyChar c hkey)).1
    · rfl
    · exact h.value c hvalue
  refine ⟨init.map f, f c, by rw [spelled, htoken, List.map_append]; rfl, ?_⟩
  obtain hf | hf : f c = .comment [c] ∨ f c = .char c := ite_eq_or_eq ..
  · exact ⟨hf ▸ hc, by simp [hf, Directive.commentEnd_eq]⟩
  · exact ⟨hf ▸ hc, by simp [hf]⟩

/-- Only directives are seen of a paragraph with these events. Its atoms are shown apart, `front` up
to the first token and then each token with what stands behind it; between the tokens there are
blanks, breaks, the tags of emphasis, and the starts and ends of comments. A token does not follow
the end of a comment to which the token in front of it reaches. -/
structure DirectivesOnly (es : List Event) (front : List Atom) (tokens : List Mention) : Prop where
  inline : ∀ e ∈ es, e.isInline = true
  atoms : es.flatMap Event.atoms = front ++ tokens.flatMap Mention.atoms
  nonempty : tokens ≠ []
  front_gap : ∀ g ∈ front, g.isGap = true
  gap : ∀ t ∈ tokens, ∀ g ∈ t.gap, g.isGap = true
  written : ∀ t ∈ tokens, t.Written
  apart : ∀ t ∈ tokens.dropLast, ∃ g ∈ t.gap, g ≠ .comment commentEnd

instance (es : List Event) (front : List Atom) (tokens : List Mention) :
    Decidable (DirectivesOnly es front tokens) :=
  decidable_of_iff ((∀ e ∈ es, e.isInline = true) ∧
      es.flatMap Event.atoms = front ++ tokens.flatMap Mention.atoms ∧ tokens ≠ [] ∧
      (∀ g ∈ front, g.isGap = true) ∧ (∀ t ∈ tokens, ∀ g ∈ t.gap, g.isGap = true) ∧
      (∀ t ∈ tokens, t.Written) ∧
      ∀ t ∈ tokens.dropLast, ∃ g ∈ t.gap, g ≠ .comment commentEnd)
    ⟨fun ⟨inline, atoms, nonempty, front_gap, gap, written, apart⟩ =>
      ⟨inline, atoms, nonempty, front_gap, gap, written, apart⟩,
      fun h => ⟨h.inline, h.atoms, h.nonempty, h.front_gap, h.gap, h.written, h.apart⟩⟩

def Event.isMark : Event → Bool
  | .start _ | .stop _ | .hardBreak => true
  | _ => false

theorem hollow_htmlOf {gs : List Atom} (h : ∀ g ∈ gs, g.isGap = true ∧ g.isBracket = false) :
    Html.Hollow (htmlOf gs) := by
  induction gs with
  | nil => exact .nil
  | cons g gs ih =>
    rw [List.forall_mem_cons] at h
    refine Html.Hollow.append ?_ (ih h.2)
    cases Atom.gap h.1.1 with
    | blank _ hhtml hc => exact hhtml ▸ .blank hc
    | mark _ hhtml hinside hplain =>
      exact hhtml ▸ .tag (fun hgt => (hinside '>' hgt).2.1 rfl) hplain
    | opening | closing => cases h.1.2

theorem solid_htmlOf {gs : List Atom} (h : ∀ g ∈ gs, g.isGap = true ∧ g.isBracket = false) :
    Text.solid (htmlOf gs) = Text.solid (htmlOf (gs.filter Atom.isMark)) := by
  induction gs with
  | nil => rfl
  | cons g gs ih =>
    rw [List.forall_mem_cons] at h
    rw [htmlOf_cons, Text.solid_append, ih h.2]
    cases hm : g.isMark with
    | true => rw [List.filter_cons_of_pos hm, htmlOf_cons, Text.solid_append]
    | false =>
      have hb : g.isBlank = true := by simpa [Atom.isGap, hm, h.1.2] using h.1.1
      obtain ⟨c, hhtml, hc⟩ := Atom.html_blank hb
      rw [List.filter_cons_of_neg (by simp [hm]), hhtml]
      simp [Text.solid, hc]

theorem filter_atoms_eq_nil_iff {es : List Event} (hinline : ∀ e ∈ es, e.isInline = true) :
    (es.flatMap Event.atoms).filter Atom.isMark = [] ↔ ∀ e ∈ es, e.isMark = false := by
  have hone (e : Event) (he : e.isInline = true) :
      (∀ g ∈ e.atoms, ¬ g.isMark = true) ↔ e.isMark = false := by
    cases e with
    | text s => simp [Event.atoms, Event.isMark, Atom.isMark]
    | start tag => cases tag <;> first | decide +kernel | cases he
    | stop tag => cases tag <;> first | decide +kernel | cases he
    | code s => simp [Event.atoms, Event.isMark, Atom.isMark]
    | softBreak | hardBreak => decide +kernel
    | inlineHtml s =>
      obtain ⟨inside, hinside⟩ := Option.isSome_iff_exists.mp he
      refine iff_of_true (fun g hg => ?_) rfl
      simp only [Event.atoms, hinside, commentAtoms, Option.map_some, Option.getD_some,
        List.cons_append, List.mem_cons, List.mem_append, List.mem_map, List.not_mem_nil,
        or_false] at hg
      rcases hg with rfl | ⟨c, -, rfl⟩ | rfl <;> exact Bool.false_ne_true
    | _ => cases he
  rw [List.filter_eq_nil_iff]
  constructor
  · exact fun hall e he => (hone e (hinline e he)).mp fun g hg =>
      hall g (List.mem_flatMap.mpr ⟨e, he, hg⟩)
  · intro hall g hg
    obtain ⟨e, he, hmem⟩ := List.mem_flatMap.mp hg
    exact (hone e (hinline e he)).mpr (hall e he) g hmem

namespace DirectivesOnly

variable {es : List Event} {front : List Atom} {first : List Mention} {m : Mention}

/-- What stays of the paragraph before comments are looked at. -/
def remains (front : List Atom) (gaps : List (List Atom)) (gap : List Atom) : List Atom :=
  Directive.left (.tag "<p>".toList :: front) (gaps ++ [gap ++ [.tag "</p>".toList]])

theorem isMark_tag_p :
    (Atom.tag "<p>".toList).isMark = true ∧ (Atom.tag "</p>".toList).isMark = true := by
  decide +kernel

theorem paragraphAtoms_eq (es : List Event) : paragraphAtoms es =
    .tag "<p>".toList :: (es.flatMap Event.atoms ++ [.tag "</p>".toList]) := by
  rw [paragraphAtoms, List.flatMap_append]
  rfl

theorem thinned_gaps (h : DirectivesOnly es front (first ++ [m])) : Thinned (paragraphAtoms es)
    (.tag "<p>".toList :: (front ++ (first.map Mention.gap).flatten ++
      (m.gap ++ [.tag "</p>".toList]))) := by
  have htokens := (Thinned.refl front).append (Mention.thinned_flatMap (first ++ [m]))
  rw [paragraphAtoms_eq, h.atoms]
  refine .keep _ ?_
  simpa using htokens.append (.refl [.tag "</p>".toList])

theorem thinned_remains (h : DirectivesOnly es front (first ++ [m])) :
    Thinned (paragraphAtoms es) (remains front (first.map Mention.gap) m.gap) := by
  have hleft := Directive.thinned_left (.tag "<p>".toList :: front)
    (first.map Mention.gap ++ [m.gap ++ [.tag "</p>".toList]])
  refine h.thinned_gaps.trans ?_
  simpa [remains] using hleft

theorem isGap_remains (h : DirectivesOnly es front (first ++ [m])) :
    ∀ g ∈ remains front (first.map Mention.gap) m.gap, g.isGap = true := by
  have hmark {g : Atom} (hm : g.isMark = true) : g.isGap = true := by simp [Atom.isGap, hm]
  have hleft := Directive.thinned_left (.tag "<p>".toList :: front)
    (first.map Mention.gap ++ [m.gap ++ [.tag "</p>".toList]])
  intro g hg
  have hmem := hleft.subset hg
  simp only [List.flatten_append, List.flatten_singleton, List.cons_append, List.mem_cons,
    List.mem_append, List.mem_flatten, List.mem_map, List.not_mem_nil, or_false] at hmem
  rcases hmem with rfl | hmem | ⟨_, ⟨t, ht, rfl⟩, hmem⟩ | hmem | rfl
  · exact hmark isMark_tag_p.1
  · exact h.front_gap g hmem
  · exact h.gap t (by simp [ht]) g hmem
  · exact h.gap m (by simp) g hmem
  · exact hmark isMark_tag_p.2

theorem closes_paragraph (h : DirectivesOnly es front (first ++ [m])) :
    closes false (paragraphAtoms es) = true := by
  have hp (raw : Text) (hs : List Atom) :
      closes false (.tag raw :: hs) = closes false hs :=
    @closes_running [.tag raw] (by simp [Atom.isComment]) hs
  rw [paragraphAtoms_eq, hp, closes_atoms h.inline, hp]
  rfl

theorem extract_eq (h : DirectivesOnly es front (first ++ [m])) :
    Directive.extract (BlockKind.wrap .paragraph es) =
      ⟨(first ++ [m]).map Mention.found,
        htmlOf (Directive.bare (remains front (first.map Mention.gap) m.gap))⟩ := by
  -- the end tag of the paragraph belongs to the gap behind the last token
  let tokens := first ++ [{ m with gap := m.gap ++ [.tag "</p>".toList] }]
  have hatoms : paragraphAtoms es = (.tag "<p>".toList :: front) ++
      tokens.flatMap Mention.atoms := by
    rw [paragraphAtoms_eq, h.atoms]
    simp [tokens, Mention.atoms, Mention.spelled]
  have hp : ∀ raw ∈ ["<p>".toList, "</p>".toList], (Atom.tag raw).isGap = true := by decide +kernel
  have hfront : ∀ g ∈ .tag "<p>".toList :: front, g.isGap = true :=
    List.forall_mem_cons.mpr ⟨hp _ (by simp), h.front_gap⟩
  have htokens : ∀ t ∈ tokens, t.Written ∧ (∀ g ∈ t.gap, g.isGap = true) ∧
      ∃ g ∈ t.gap, g ≠ .comment commentEnd := by
    have hwritten := List.forall_mem_append.mp h.written
    have hgap := List.forall_mem_append.mp h.gap
    have hapart := h.apart
    rw [List.dropLast_concat] at hapart
    refine List.forall_mem_append.mpr ⟨fun t ht => ⟨hwritten.1 t ht, hgap.1 t ht, hapart t ht⟩, ?_⟩
    have hlast := hwritten.2 m (by simp)
    refine List.forall_mem_singleton.mpr ⟨⟨hlast.key, hlast.value, hlast.inside⟩,
      List.forall_mem_append.mpr ⟨hgap.2 m (by simp), ?_⟩, .tag "</p>".toList, by simp, by simp⟩
    exact List.forall_mem_singleton.mpr (hp _ (by simp))
  have hfound : Directive.gaps (Directive.parts (BlockKind.wrap .paragraph es)) =
      (htmlOf (.tag "<p>".toList :: front), tokens.map fun t => (t.found, htmlOf t.gap)) := by
    rw [← htmlOf_paragraph h.inline, hatoms]
    exact Mention.gaps_mentions hfront (.inl rfl) htokens le_rfl
  have hleft := Directive.withoutTokens_htmlOf hfront fun t ht => (htokens t ht).2.1
  have hremains : Directive.left (.tag "<p>".toList :: front) (tokens.map Mention.gap) =
      remains front (first.map Mention.gap) m.gap := by
    simp [tokens, remains]
  have hcomments := (Directive.dropEmptyComments_htmlOf h.isGap_remains
    (h.thinned_remains.closes h.closes_paragraph)).1
  have hdirectives : tokens.map Mention.found = (first ++ [m]).map Mention.found := by
    simp [tokens, Mention.found]
  rw [hremains] at hleft
  rw [Directive.extract, hfound]
  cases hsome : tokens.map fun t => (t.found, htmlOf t.gap) with
  | nil => simp [tokens] at hsome
  | cons t rest =>
    dsimp only
    rw [← hsome, hleft, hcomments, List.map_map, ← hdirectives]
    rfl

/-- The marks of the paragraph stay. -/
theorem filter_bare_remains (h : DirectivesOnly es front (first ++ [m])) :
    (Directive.bare (remains front (first.map Mention.gap) m.gap)).filter Atom.isMark =
      .tag "<p>".toList :: (es.flatMap Event.atoms).filter Atom.isMark ++ [.tag "</p>".toList] := by
  rw [Directive.filter_bare, h.thinned_remains.filter_isMark, paragraphAtoms_eq,
    List.filter_cons_of_pos isMark_tag_p.1, List.filter_append,
    List.filter_cons_of_pos isMark_tag_p.2, List.filter_nil]
  rfl

theorem gap_bare (h : DirectivesOnly es front (first ++ [m])) :
    ∀ g ∈ Directive.bare (remains front (first.map Mention.gap) m.gap),
      g.isGap = true ∧ g.isBracket = false := by
  intro g hg
  obtain ⟨hmem, hbracket⟩ := Directive.mem_bare hg
  exact ⟨h.isGap_remains g hmem, hbracket⟩

theorem bracket_or_blank (h : DirectivesOnly es front (first ++ [m]))
    (hnone : (es.flatMap Event.atoms).filter Atom.isMark = []) :
    ∀ g ∈ front ++ (first.map Mention.gap).flatten ++ m.gap,
      g.isBracket = true ∨ g.isBlank = true := by
  have hthin := (Thinned.refl front).append (Mention.thinned_flatMap (first ++ [m]))
  rw [← h.atoms] at hthin
  intro g hg
  have hgap : g.isGap = true := by
    simp only [List.mem_append, List.mem_flatten, List.mem_map] at hg
    rcases hg with (hg | ⟨_, ⟨t, ht, rfl⟩, hg⟩) | hg
    · exact h.front_gap g hg
    · exact h.gap t (by simp [ht]) g hg
    · exact h.gap m (by simp) g hg
  have hunmarked := List.filter_eq_nil_iff.mp hnone g (hthin.subset (by simpa using hg))
  simpa [Atom.isGap, hunmarked, or_comm] using hgap

/-- Without marks, blanks stay if they stand at the end behind a comment, and no others. -/
theorem bare_remains_of_unmarked (h : DirectivesOnly es front (first ++ [m]))
    (hnone : (es.flatMap Event.atoms).filter Atom.isMark = []) :
    ∃ blanks, (∀ g ∈ blanks, g.isBlank = true) ∧
      (blanks = [] ↔ Directive.endsLoose (es.flatMap Event.atoms) = false) ∧
      Directive.bare (remains front (first.map Mention.gap) m.gap) =
        .tag "<p>".toList :: (blanks ++ [.tag "</p>".toList]) := by
  obtain ⟨hopen, hclose⟩ := isMark_tag_p
  obtain ⟨before, hthin, hleft⟩ := Directive.left_concat (.tag "<p>".toList :: front)
    (first.map Mention.gap) (m.gap ++ [.tag "</p>".toList])
  have hcloses : closes false (before ++ (m.gap ++ [.tag "</p>".toList])) = true :=
    (h.thinned_gaps.trans (hthin.append (.refl _))).closes h.closes_paragraph
  obtain ⟨y, rfl, hy⟩ := hthin.cons (Atom.isLoose_of_isMark hopen)
  have hgap : ∀ g ∈ y ++ m.gap, g.isBracket = true ∨ g.isBlank = true := fun g hg =>
    h.bracket_or_blank hnone g ((hy.append (.refl m.gap)).subset hg)
  have hatoms := h.atoms
  rw [List.flatMap_append, List.flatMap_singleton, ← List.append_assoc] at hatoms
  rw [remains, hleft]
  rcases Directive.blank_or_solid m.gap with hblank | ⟨x, b, blanks, hsplit, hb, hblanks⟩
  · -- no comment ends behind the last token
    obtain ⟨init, t, hspelled, ht, hne⟩ := m.exists_last (h.written m (by simp))
    have hlast : es.flatMap Event.atoms =
        front ++ first.flatMap Mention.atoms ++ init ++ t :: m.gap := by
      rw [hatoms, Mention.atoms, hspelled]
      simp
    refine ⟨[], List.forall_mem_nil _, iff_of_true rfl ?_, ?_⟩
    · rw [hlast, Directive.endsLoose_solid ht hblank, decide_eq_false hne, Bool.and_false]
    · exact Directive.bare_joined_blanks hopen hclose hblank
        (fun g hg => hgap g (List.mem_append_left _ hg)) hcloses
  · have hbracket : b.isBracket = true := by
      simpa [hb] using hgap b (List.mem_append_right _ (hsplit ▸ by simp))
    have hlast : es.flatMap Event.atoms =
        front ++ first.flatMap Mention.atoms ++ m.spelled ++ x ++ b :: blanks := by
      rw [hatoms, Mention.atoms, hsplit]
      simp
    have hend : b = .comment commentEnd := by
      simp only [Atom.isBracket, Bool.or_eq_true, decide_eq_true_eq] at hbracket
      refine hbracket.resolve_left ?_
      rintro rfl
      rw [hsplit, List.append_assoc x, ← List.append_assoc _ x, @List.cons_append _ _ blanks,
        not_closes_opening hclose hblanks] at hcloses
      cases hcloses
    refine ⟨blanks, hblanks, ?_, ?_⟩
    · rw [hlast, Directive.endsLoose_solid hb hblanks, decide_eq_true hend, Bool.and_true]
      simp
    · rw [hsplit, List.append_assoc, List.cons_append]
      refine Directive.bare_joined_solid hopen hclose hbracket hblanks fun g hg => hgap g ?_
      rw [hsplit]
      simp only [List.mem_append] at hg ⊢
      tauto

theorem isEmptyParagraph_wrapped (s : Text) :
    Assembly.isEmptyParagraph ("<p>".toList ++ s ++ "</p>".toList) = true ↔ s = [] := by
  have htrim : Text.Trimmed ("<p>".toList ++ s ++ "</p>".toList) := by
    refine ⟨fun c hc => ?_, fun c hc => ?_⟩
    · obtain rfl : '<' = c := Option.some.inj hc
      rfl
    · rw [List.getLast?_append_of_ne_nil _ (by decide)] at hc
      obtain rfl : '>' = c := Option.some.inj hc
      rfl
  have hparagraph : "<p></p>".toList = "<p>".toList ++ [] ++ "</p>".toList := by decide
  rw [Assembly.isEmptyParagraph, Text.trim_eq_self htrim, decide_eq_true_eq, hparagraph,
    List.append_left_inj, List.append_right_inj]

theorem not_isEmptyParagraph_of_marked (h : DirectivesOnly es front (first ++ [m]))
    (hmarked : (es.flatMap Event.atoms).filter Atom.isMark ≠ []) :
    ¬ Assembly.isEmptyParagraph
      (htmlOf (Directive.bare (remains front (first.map Mention.gap) m.gap))) = true := by
  intro hempty
  have htrim : Text.trim
      (htmlOf (Directive.bare (remains front (first.map Mention.gap) m.gap))) =
        "<p></p>".toList :=
    of_decide_eq_true hempty
  have hsolid := congrArg Text.solid htrim
  have hparagraph : Text.solid "<p></p>".toList = "<p>".toList ++ "</p>".toList := by
    decide +kernel
  have hopen : Text.solid (Atom.tag "<p>".toList).html = "<p>".toList := by decide +kernel
  have hclose : Text.solid (htmlOf [.tag "</p>".toList]) = "</p>".toList := by decide +kernel
  rw [Text.solid_trim, solid_htmlOf h.gap_bare, h.filter_bare_remains, htmlOf_append, htmlOf_cons,
    Text.solid_append, Text.solid_append, hopen, hclose, hparagraph, List.append_assoc] at hsolid
  have hmarks := List.append_left_eq_self.mp (List.append_cancel_left hsolid)
  -- the first mark is left, and it begins with a character that is not blank
  obtain ⟨g, gs, hcons⟩ := List.exists_cons_of_ne_nil hmarked
  have hmark : g.isMark = true := List.of_mem_filter (hcons ▸ List.mem_cons_self)
  obtain ⟨w, hhtml, -⟩ := Atom.html_mark hmark
  have hlt : Text.isBlank '<' = false := rfl
  rw [hcons, htmlOf_cons, hhtml] at hmarks
  simp [Text.solid, hlt] at hmarks

theorem isEmptyParagraph_iff (h : DirectivesOnly es front (first ++ [m])) :
    Assembly.isEmptyParagraph
        (htmlOf (Directive.bare (remains front (first.map Mention.gap) m.gap))) = true ↔
      (∀ e ∈ es, e.isMark = false) ∧ Directive.endsLoose (es.flatMap Event.atoms) = false := by
  rw [← filter_atoms_eq_nil_iff h.inline]
  by_cases hnone : (es.flatMap Event.atoms).filter Atom.isMark = []
  · obtain ⟨blanks, hblanks, hloose, hbare⟩ := h.bare_remains_of_unmarked hnone
    have hhtml : htmlOf (Directive.bare (remains front (first.map Mention.gap) m.gap)) =
        "<p>".toList ++ htmlOf blanks ++ "</p>".toList := by
      rw [hbare, htmlOf_cons, htmlOf_append, List.append_assoc]
      rfl
    have hgaps : ∀ g ∈ blanks, g.isGap = true := fun g hg => by simp [Atom.isGap, hblanks g hg]
    rw [hhtml, isEmptyParagraph_wrapped, and_iff_right hnone, ← hloose, ← List.isEmpty_iff,
      Directive.isEmpty_htmlOf hgaps, List.isEmpty_iff]
  · exact iff_of_false (h.not_isEmptyParagraph_of_marked hnone) fun hboth => hnone hboth.1

end DirectivesOnly

/-- All directives of such a paragraph are found. What it adds to a description shows nothing, and
it adds nothing exactly if there are no tags of emphasis and no hard breaks in it, and no blanks at
its end behind a comment. -/
theorem DirectivesOnly.descriptionHtml {es : List Event} {front : List Atom}
    {tokens : List Mention} (h : DirectivesOnly es front tokens) :
    (BlockKind.ofEvents .paragraph es).directives = tokens.map Mention.found ∧
      Html.ShowsNothing (BlockKind.ofEvents .paragraph es).descriptionHtml ∧
      ((BlockKind.ofEvents .paragraph es).descriptionHtml = [] ↔
        (∀ e ∈ es, e.isMark = false) ∧
          Directive.endsLoose (es.flatMap Event.atoms) = false) := by
  obtain ⟨first, m, rfl⟩ := (List.eq_nil_or_concat' tokens).resolve_left h.nonempty
  have hempty := h.isEmptyParagraph_iff
  have hstrip : Directive.strip (BlockKind.wrap .paragraph es) =
      htmlOf (Directive.bare (remains front (first.map Mention.gap) m.gap)) := by
    rw [Directive.strip, h.extract_eq]
  constructor
  · rw [BlockKind.ofEvents, BlockKind.directives, h.extract_eq]
  rw [BlockKind.ofEvents, BlockKind.descriptionHtml, hstrip, ← hempty]
  cases hparagraph : Assembly.isEmptyParagraph
      (htmlOf (Directive.bare (remains front (first.map Mention.gap) m.gap))) with
  | true => exact ⟨Html.Hollow.nil.nothing, by simp⟩
  | false =>
    refine ⟨(hollow_htmlOf h.gap_bare).nothing, iff_of_false (fun hnil => ?_) Bool.false_ne_true⟩
    have hbare := Directive.isEmpty_htmlOf fun g hg => (h.gap_bare g hg).1
    rw [if_neg Bool.false_ne_true] at hnil
    rw [hnil, eq_comm, List.isEmpty_nil, List.isEmpty_iff] at hbare
    have hmarks := h.filter_bare_remains
    rw [hbare] at hmarks
    cases hmarks

end Quizdown
