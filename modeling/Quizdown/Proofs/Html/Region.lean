import Quizdown.Text.Basic
import Mathlib.Data.List.Basic

/-!
What is shown of a text when its tags and comments are left out. Blanks change where the reader is
only behind the first characters of a comment's opening or end, and no longer when a `<` follows.
-/
set_option autoImplicit false

namespace Quizdown
namespace Html

/-- Where the reader of a text is who looks for tags and comments only. A comment opens as a tag
does, and it ends behind two dashes. -/
inductive Region
  | text
  | tag
  | angle
  | bang
  | dash
  | comment
  | oneDash
  | twoDashes
deriving DecidableEq, Repr

namespace Region

def step : Region → Char → Region
  | text, c => if c = '<' then angle else text
  | tag, c => if c = '>' then text else tag
  | angle, c => if c = '>' then text else if c = '!' then bang else tag
  | bang, c => if c = '>' then text else if c = '-' then dash else tag
  | dash, c => if c = '>' then text else if c = '-' then comment else tag
  | comment, c => if c = '-' then oneDash else comment
  | oneDash, c => if c = '-' then twoDashes else comment
  | twoDashes, c => if c = '>' then text else if c = '-' then twoDashes else comment

def run (r : Region) (s : Text) : Region := s.foldl step r

def shown : Region → Text → Text
  | _, [] => []
  | r, c :: s => if r = text ∧ c ≠ '<' then c :: shown (r.step c) s else shown (r.step c) s

def settled (r : Region) : Region := r.step ' '

variable {r : Region} {c : Char} {s t blanks : Text}

theorem run_append (r : Region) (s t : Text) : r.run (s ++ t) = (r.run s).run t :=
  List.foldl_append

theorem shown_append (r : Region) (s t : Text) :
    r.shown (s ++ t) = r.shown s ++ (r.run s).shown t := by
  induction s generalizing r with
  | nil => rfl
  | cons c s ih =>
    have hrest := ih (r.step c)
    rw [List.cons_append, shown, shown, hrest]
    split <;> rfl

theorem step_blank (r : Region) (h : Text.isBlank c = true) : r.step c = r.settled := by
  have hne (d : Char) (hd : Text.isBlank d = false) : c ≠ d := by
    rintro rfl
    rw [h] at hd
    cases hd
  cases r <;> simp [settled, step, hne '<' rfl, hne '>' rfl, hne '!' rfl, hne '-' rfl]

theorem settled_settled (r : Region) : r.settled.settled = r.settled := by
  cases r <;> rfl

theorem settled_step_lt (r : Region) : r.settled.step '<' = r.step '<' := by
  cases r <;> rfl

theorem step_gt_settled (r : Region) : (r.step '>').settled = r.step '>' := by
  cases r <;> rfl

theorem settled_eq_text_iff : r.settled = text ↔ r = text := by
  cases r <;> decide

theorem run_settled (h : ∀ c ∈ blanks, Text.isBlank c = true) :
    r.settled.run blanks = r.settled := by
  induction blanks with
  | nil => rfl
  | cons c blanks ih =>
    rw [List.forall_mem_cons] at h
    rw [run, List.foldl_cons, step_blank _ h.1, settled_settled]
    exact ih h.2

theorem run_blanks (h : ∀ c ∈ blanks, Text.isBlank c = true) (hne : blanks ≠ []) :
    r.run blanks = r.settled := by
  obtain ⟨c, blanks, rfl⟩ := List.exists_cons_of_ne_nil hne
  rw [List.forall_mem_cons] at h
  rw [run, List.foldl_cons, step_blank _ h.1]
  exact run_settled h.2

theorem shown_of_ne (h : r ≠ text) (hs : ∀ c ∈ s, Text.isBlank c = true) : r.shown s = [] := by
  induction s generalizing r with
  | nil => rfl
  | cons c s ih =>
    rw [List.forall_mem_cons] at hs
    rw [shown, if_neg fun hand => h hand.1, step_blank _ hs.1]
    exact ih (fun hsettled => h (settled_eq_text_iff.mp hsettled)) hs.2

theorem shown_text (h : '<' ∉ s) : text.shown s = s := by
  induction s with
  | nil => rfl
  | cons c s ih =>
    simp only [List.mem_cons, not_or] at h
    have hstep : text.step c = text := if_neg (Ne.symm h.1)
    rw [shown, if_pos ⟨rfl, Ne.symm h.1⟩, hstep, ih h.2]

theorem mem_of_mem_shown (h : c ∈ r.shown s) : c ∈ s := by
  induction s generalizing r with
  | nil => exact h
  | cons d s ih =>
    rw [shown] at h
    split at h
    · rcases List.mem_cons.mp h with rfl | h
      · exact List.mem_cons_self
      · exact List.mem_cons_of_mem _ (ih h)
    · exact List.mem_cons_of_mem _ (ih h)

end Region

end Html
end Quizdown
