import Quizdown.Proofs.Directive.Mentions
import Mathlib.Data.List.DropRight

/-!
Rows of atoms in which every comment ends, and what loose atoms leave of a row when they go: blanks
and the characters of tokens are loose, marks and the starts and ends of comments are not.
-/
set_option autoImplicit false

namespace Quizdown

open Directive (commentStart commentEnd)

namespace Atom

def isComment : Atom → Bool
  | comment _ => true
  | _ => false

theorem isComment_of_isMark {g : Atom} (h : g.isMark = true) : g.isComment = false := by
  cases g with
  | comment => cases h
  | _ => rfl

def isLoose (g : Atom) : Bool := !g.isMark && !g.isBracket

theorem isLoose_of_isBlank {g : Atom} (h : g.isBlank = true) : g.isLoose = true := by
  have hmark : g.isMark = false := by
    cases hm : g.isMark with
    | false => rfl
    | true => rw [isBlank_of_isMark hm] at h; cases h
  simp [isLoose, hmark, isBracket_of_isBlank h]

theorem isLoose_of_isMark {g : Atom} (h : g.isMark = true) : g.isLoose = false := by
  simp [isLoose, h]

end Atom

/-- Comments end before another one starts, and parts of a comment stand only in one. The flag says
that the row begins inside a comment. -/
def closes : Bool → List Atom → Bool
  | inside, [] => !inside
  | false, g :: gs =>
    if g = .comment commentStart then closes true gs else !g.isComment && closes false gs
  | true, g :: gs =>
    if g = .comment commentEnd then closes false gs
    else g.isComment && g ≠ .comment commentStart && closes true gs

section
variable {gs hs : List Atom} {inside : Bool}

theorem closes_running (h : ∀ g ∈ gs, g.isComment = false) (hs : List Atom) :
    closes false (gs ++ hs) = closes false hs := by
  induction gs with
  | nil => rfl
  | cons g gs ih =>
    rw [List.forall_mem_cons] at h
    have hne : g ≠ .comment commentStart := by
      rintro rfl
      cases h.1
    rw [List.cons_append, closes, if_neg hne, h.1, ih h.2]
    rfl

theorem closes_comment (inside : Text) (hs : List Atom) :
    closes false (commentAtoms inside ++ hs) = closes false hs := by
  have hinside : closes true (inside.map (fun c => .comment [c]) ++ .comment commentEnd :: hs) =
      closes false hs := by
    induction inside with
    | nil => simp [closes]
    | cons c inside ih => simpa [closes, Atom.isComment, commentStart, Directive.commentEnd_eq] using ih
  rw [commentAtoms, List.cons_append, List.cons_append, closes, if_pos rfl, List.append_assoc]
  exact hinside

/-- The rows of events: a comment is one event. -/
theorem closes_atoms {es : List Event} (h : ∀ e ∈ es, e.isInline = true) (hs : List Atom) :
    closes false (es.flatMap Event.atoms ++ hs) = closes false hs := by
  induction es with
  | nil => rfl
  | cons e es ih =>
    rw [List.forall_mem_cons] at h
    rw [List.flatMap_cons, List.append_assoc]
    cases e with
    | inlineHtml s =>
      obtain ⟨inside, hinside⟩ := Option.isSome_iff_exists.mp h.1
      rw [Event.atoms, hinside, Option.map_some, Option.getD_some, closes_comment, ih h.2]
    | text s =>
      rw [closes_running, ih h.2]
      simp [Event.atoms, Atom.isComment]
    | _ =>
      rw [closes_running, ih h.2]
      simp [Event.atoms, Atom.isComment]

theorem closes_tail {g : Atom} (hne : g ≠ .comment commentStart)
    (h : closes false (g :: gs) = true) : closes false gs = true := by
  rw [closes, if_neg hne, Bool.and_eq_true] at h
  exact h.2

theorem closes_behind_opening {x y : List Atom}
    (h : closes inside (x ++ .comment commentStart :: y) = true) : closes true y = true := by
  induction x generalizing inside with
  | nil =>
    cases inside with
    | false => simpa [closes] using h
    | true => simp [closes, commentStart, Directive.commentEnd_eq] at h
  | cons g x ih =>
    cases inside with
    | false =>
      rw [List.cons_append, closes] at h
      split at h
      · exact ih h
      · exact ih (Bool.and_eq_true_iff.mp h).2
    | true =>
      rw [List.cons_append, closes] at h
      split at h
      · exact ih h
      · exact ih (Bool.and_eq_true_iff.mp h).2

theorem commentEnd_mem_of_closes (h : closes true gs = true) : .comment commentEnd ∈ gs := by
  induction gs with
  | nil => cases h
  | cons g gs ih =>
    rw [closes] at h
    split at h
    · rename_i heq
      exact heq ▸ List.mem_cons_self
    · exact List.mem_cons_of_mem g (ih (Bool.and_eq_true_iff.mp h).2)

theorem not_closes_opening {x blanks : List Atom} {m : Atom} (hm : m.isMark = true)
    (hblanks : ∀ g ∈ blanks, g.isBlank = true) :
    closes inside (x ++ .comment commentStart :: (blanks ++ [m])) = false := by
  cases hcloses : closes inside (x ++ .comment commentStart :: (blanks ++ [m])) with
  | false => rfl
  | true =>
    rcases List.mem_append.mp (commentEnd_mem_of_closes (closes_behind_opening hcloses)) with
      hmem | hmem
    · cases hblanks _ hmem
    · rw [← List.mem_singleton.mp hmem] at hm
      cases hm

theorem exists_commentEnd (h : closes true gs = true) (hgaps : ∀ g ∈ gs, g.isGap = true) :
    ∃ blanks rest, gs = blanks ++ .comment commentEnd :: rest ∧
      (∀ g ∈ blanks, g.isBlank = true) ∧ closes false rest = true := by
  induction gs with
  | nil => cases h
  | cons g gs ih =>
    rw [List.forall_mem_cons] at hgaps
    rw [closes] at h
    split at h
    · rename_i heq
      exact ⟨[], gs, by rw [heq]; rfl, nofun, h⟩
    · rename_i hne
      simp only [Bool.and_eq_true, decide_eq_true_eq] at h
      obtain ⟨⟨hcomment, hopen⟩, hrest⟩ := h
      obtain ⟨blanks, rest, rfl, hblanks, hrest⟩ := ih hrest hgaps.2
      refine ⟨g :: blanks, rest, rfl, List.forall_mem_cons.mpr ⟨?_, hblanks⟩, hrest⟩
      cases Atom.gap hgaps.1 with
      | blank hb => exact hb
      | mark hm =>
        rw [Atom.isComment_of_isMark hm] at hcomment
        cases hcomment
      | opening => exact absurd rfl hopen
      | closing => exact absurd rfl hne

end

/-- Loose atoms have left a row, and no others. -/
inductive Thinned : List Atom → List Atom → Prop
  | nil : Thinned [] []
  | keep {gs hs : List Atom} (g : Atom) (rest : Thinned gs hs) : Thinned (g :: gs) (g :: hs)
  | drop {gs hs : List Atom} {g : Atom} (loose : g.isLoose = true) (rest : Thinned gs hs) :
      Thinned (g :: gs) hs

namespace Thinned

variable {gs hs ks gs' hs' : List Atom} {g : Atom}

theorem refl (gs : List Atom) : Thinned gs gs := by
  induction gs with
  | nil => exact .nil
  | cons g gs ih => exact .keep g ih

theorem append (h : Thinned gs hs) (h' : Thinned gs' hs') : Thinned (gs ++ gs') (hs ++ hs') := by
  induction h with
  | nil => exact h'
  | keep g _ ih => exact .keep g ih
  | drop loose _ ih => exact .drop loose ih

theorem trans (h : Thinned gs hs) (h' : Thinned hs ks) : Thinned gs ks := by
  induction h generalizing ks with
  | nil => exact h'
  | drop loose _ ih => exact .drop loose (ih h')
  | keep g _ ih =>
    cases h' with
    | keep _ rest => exact .keep g (ih rest)
    | drop loose rest => exact .drop loose (ih rest)

theorem of_loose (h : ∀ g ∈ gs, g.isLoose = true) : Thinned gs [] := by
  induction gs with
  | nil => exact .nil
  | cons g gs ih =>
    rw [List.forall_mem_cons] at h
    exact .drop h.1 (ih h.2)

theorem subset (h : Thinned gs hs) : hs ⊆ gs := by
  induction h with
  | nil => exact List.Subset.refl []
  | keep g _ ih => exact List.cons_subset_cons g ih
  | drop _ _ ih => exact List.subset_cons_of_subset _ ih

theorem cons (h : Thinned (g :: gs) hs) (hg : g.isLoose = false) :
    ∃ hs', hs = g :: hs' ∧ Thinned gs hs' := by
  cases h with
  | keep _ rest => exact ⟨_, rfl, rest⟩
  | drop loose _ => rw [hg] at loose; cases loose

theorem filter_isMark (h : Thinned gs hs) : hs.filter Atom.isMark = gs.filter Atom.isMark := by
  induction h with
  | nil => rfl
  | keep g _ ih => rw [List.filter_cons, List.filter_cons, ih]
  | drop loose _ ih =>
    simp only [Atom.isLoose, Bool.and_eq_true, Bool.not_eq_true'] at loose
    rw [List.filter_cons_of_neg (by simp [loose.1]), ih]

theorem closes {inside : Bool} (h : Thinned gs hs) (hc : closes inside gs = true) :
    closes inside hs = true := by
  induction h generalizing inside with
  | nil => exact hc
  | keep g _ ih =>
    cases inside with
    | false =>
      rw [Quizdown.closes] at hc ⊢
      split
      · rename_i heq
        rw [if_pos heq] at hc
        exact ih hc
      · rename_i hne
        rw [if_neg hne, Bool.and_eq_true] at hc
        exact Bool.and_eq_true_iff.mpr ⟨hc.1, ih hc.2⟩
    | true =>
      rw [Quizdown.closes] at hc ⊢
      split
      · rename_i heq
        rw [if_pos heq] at hc
        exact ih hc
      · rename_i hne
        rw [if_neg hne, Bool.and_eq_true] at hc
        exact Bool.and_eq_true_iff.mpr ⟨hc.1, ih hc.2⟩
  | @drop gs hs g loose _ ih =>
    -- what leaves is neither the start nor the end of a comment, so the flag stays
    have hne : g ≠ .comment commentStart ∧ g ≠ .comment commentEnd := by
      constructor <;> rintro rfl <;> cases loose
    cases inside with
    | false =>
      rw [Quizdown.closes, if_neg hne.1, Bool.and_eq_true] at hc
      exact ih hc.2
    | true =>
      rw [Quizdown.closes, if_neg hne.2, Bool.and_eq_true] at hc
      exact ih hc.2

theorem dropWhile (gs : List Atom) : Thinned gs (gs.dropWhile Atom.isBlank) := by
  have hblanks : Thinned (gs.takeWhile Atom.isBlank) [] :=
    of_loose fun g hg => Atom.isLoose_of_isBlank (List.mem_takeWhile_imp hg)
  have h := hblanks.append (refl (gs.dropWhile Atom.isBlank))
  rwa [List.takeWhile_append_dropWhile] at h

theorem rdropWhile (gs : List Atom) : Thinned gs (gs.rdropWhile Atom.isBlank) := by
  have hblanks : Thinned (gs.rtakeWhile Atom.isBlank) [] :=
    of_loose fun g hg => Atom.isLoose_of_isBlank (List.mem_rtakeWhile_imp hg)
  have h := (refl (gs.rdropWhile Atom.isBlank)).append hblanks
  rwa [List.rdropWhile_append_rtakeWhile, List.append_nil] at h

end Thinned

end Quizdown
