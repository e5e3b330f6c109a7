import Quizdown.Proofs.Html.Reading
import Quizdown.Proofs.Text.Trim

/-! Where a reader is: inside a tag exactly behind a `<` with no `>` after it. Outside tags a text
without `<` is read as characters. Blanks at the ends of a fragment are running text, so trimming
takes characters from it and nothing else. -/
set_option autoImplicit false

namespace Quizdown
namespace Html

def Position.isTag : Position → Bool
  | tag _ => true
  | _ => false

/-- The place behind the text is inside a tag. The flag says so of the place in front of it. -/
def endsInTag : Bool → Text → Bool
  | inside, [] => inside
  | inside, c :: s => endsInTag (c == '<' || (inside && c != '>')) s

variable {p q : Position} {s t : Text} {pieces : List Piece} {c : Char}

/-- One character leads from one position to another, with these pieces. -/
inductive Takes : Position → Char → Position → List Piece → Prop
  | open_tag : Takes .text '<' (.tag []) []
  | open_reference : Takes .text '&' (.reference []) []
  | char {c : Char} (plain : c ≠ '<' ∧ c ≠ '>') : Takes .text c .text [.char c]
  | refer {name : Text} {d : Char} : Takes (.reference name) ';' .text [.char d]
  | name {name : Text} {c : Char} (named : c.isAlphanum = true ∨ c = '#') :
      Takes (.reference name) c (.reference (c :: name)) []
  | close {content : Text} {t : Tag} (whole : Tag.ofText? content.reverse = some t) :
      Takes (.tag content) '>' .text [.tag t]
  | inside {content : Text} {c : Char} (plain : c ≠ '<' ∧ c ≠ '>') :
      Takes (.tag content) c (.tag (c :: content)) []

theorem takes_of_step (h : p.step c = some (q, pieces)) : Takes p c q pieces := by
  cases p with
  | text =>
    rw [Position.step] at h
    split_ifs at h with hlt hamp hgt <;> obtain ⟨rfl, rfl⟩ := Prod.mk.inj (Option.some.inj h)
    · exact hlt ▸ .open_tag
    · exact hamp ▸ .open_reference
    · exact .char ⟨hlt, hgt⟩
  | reference name =>
    rw [Position.step] at h
    split_ifs at h with hend hname
    · obtain ⟨d, -, heq⟩ := Option.map_eq_some_iff.mp h
      obtain ⟨rfl, rfl⟩ := Prod.mk.inj heq
      exact hend ▸ .refer
    · obtain ⟨rfl, rfl⟩ := Prod.mk.inj (Option.some.inj h)
      exact .name (by simpa using hname)
  | tag content =>
    rw [Position.step] at h
    split_ifs at h with hgt hlt
    · obtain ⟨t, ht, heq⟩ := Option.map_eq_some_iff.mp h
      obtain ⟨rfl, rfl⟩ := Prod.mk.inj heq
      exact hgt ▸ .close ht
    · obtain ⟨rfl, rfl⟩ := Prod.mk.inj (Option.some.inj h)
      exact .inside ⟨hlt, hgt⟩

namespace Takes

theorem isTag (h : Takes p c q pieces) : q.isTag = (c == '<' || (p.isTag && c != '>')) := by
  cases h with
  | char plain => simp [Position.isTag, plain.1]
  | name named =>
    have hne : c ≠ '<' := by
      rintro rfl
      exact absurd named (by decide)
    simp [Position.isTag, hne]
  | inside plain => simp [Position.isTag, plain.2]
  | _ => rfl

theorem outside (h : Takes p c q pieces) (hp : p.isTag = false) (hc : c ≠ '<') :
    q.isTag = false ∧ tags pieces = [] ∧ c ≠ '>' := by
  cases h with
  | open_tag => exact absurd rfl hc
  | open_reference => exact ⟨rfl, rfl, by decide⟩
  | char plain => exact ⟨rfl, rfl, plain.2⟩
  | refer => exact ⟨rfl, rfl, by decide⟩
  | name named =>
    refine ⟨rfl, rfl, ?_⟩
    rintro rfl
    exact absurd named (by decide)
  | close whole => cases hp
  | inside plain => cases hp

end Takes

theorem read_append_eq_some (h : read p (s ++ t) = some (q, pieces)) :
    ∃ between first more, read p s = some (between, first) ∧ read between t = some (q, more) ∧
      pieces = first ++ more := by
  rw [read_append] at h
  obtain ⟨⟨between, first⟩, hs, h⟩ := Option.bind_eq_some_iff.mp h
  obtain ⟨⟨last, more⟩, ht, heq⟩ := Option.map_eq_some_iff.mp h
  obtain ⟨rfl, rfl⟩ := Prod.mk.inj heq
  exact ⟨between, first, more, hs, ht, rfl⟩

theorem read_cons_eq_some (h : read p (c :: s) = some (q, pieces)) : ∃ next first more,
    Takes p c next first ∧ read next s = some (q, more) ∧ pieces = first ++ more := by
  rw [read] at h
  split at h
  · cases h
  · rename_i next first hstep
    obtain ⟨⟨last, more⟩, hread, heq⟩ := Option.map_eq_some_iff.mp h
    obtain ⟨rfl, rfl⟩ := Prod.mk.inj heq
    exact ⟨next, first, more, takes_of_step hstep, hread, rfl⟩

theorem read_nil_eq_some (h : read p [] = some (q, pieces)) : q = p ∧ pieces = [] := by
  obtain ⟨rfl, rfl⟩ := Prod.mk.inj (Option.some.inj h)
  exact ⟨rfl, rfl⟩

theorem isTag_of_read (h : read p s = some (q, pieces)) : q.isTag = endsInTag p.isTag s := by
  induction s generalizing p pieces with
  | nil =>
    obtain ⟨rfl, -⟩ := read_nil_eq_some h
    rfl
  | cons c s ih =>
    obtain ⟨next, first, more, htakes, hread, -⟩ := read_cons_eq_some h
    rw [ih hread, htakes.isTag, endsInTag]

theorem endsInTag_outside (hs : '<' ∉ s) : endsInTag false s = false := by
  induction s with
  | nil => rfl
  | cons c s ih =>
    simp only [List.mem_cons, not_or] at hs
    have hlt : (c == '<') = false := beq_false_of_ne (Ne.symm hs.1)
    rw [endsInTag, hlt, Bool.false_and, Bool.or_false, ih hs.2]

theorem read_outside (hp : p.isTag = false) (hs : '<' ∉ s) (h : read p s = some (q, pieces)) :
    q.isTag = false ∧ tags pieces = [] ∧ '>' ∉ s := by
  induction s generalizing p pieces with
  | nil =>
    obtain ⟨rfl, rfl⟩ := read_nil_eq_some h
    exact ⟨hp, rfl, by simp⟩
  | cons c s ih =>
    simp only [List.mem_cons, not_or] at hs ⊢
    obtain ⟨next, first, more, htakes, hread, rfl⟩ := read_cons_eq_some h
    obtain ⟨hnext, hfirst, hc⟩ := htakes.outside hp (Ne.symm hs.1)
    obtain ⟨hq, hmore, hgt⟩ := ih hnext hs.2 hread
    exact ⟨hq, by rw [tags_append, hfirst, hmore, List.append_nil], Ne.symm hc, hgt⟩

theorem closes_tag {content : Text} (h : read (.tag content) s = some (.text, pieces)) :
    ∃ inside, (Tag.ofText? (content.reverse ++ inside)).isSome := by
  induction s generalizing content pieces with
  | nil => cases h
  | cons c s ih =>
    obtain ⟨next, first, more, htakes, hread, -⟩ := read_cons_eq_some h
    cases htakes with
    | close whole => exact ⟨[], by rw [List.append_nil, whole]; rfl⟩
    | inside plain =>
      obtain ⟨inside, hinside⟩ := ih hread
      exact ⟨c :: inside, by simpa using hinside⟩

theorem not_reads_declaration : read p (s ++ '<' :: '!' :: t) ≠ some (.text, pieces) := by
  intro h
  obtain ⟨_, _, _, -, hopen, -⟩ := read_append_eq_some h
  obtain ⟨_, _, _, htakes, hmark, -⟩ := read_cons_eq_some hopen
  cases htakes with
  | char plain => exact absurd rfl plain.1
  | name named => exact absurd named (by decide)
  | inside plain => exact absurd rfl plain.1
  | open_tag =>
    obtain ⟨_, _, _, htakes, hread, -⟩ := read_cons_eq_some hmark
    cases htakes with
    | inside plain =>
      obtain ⟨inside, hinside⟩ := closes_tag hread
      have hnone : Tag.ofText? ('!' :: inside) = none := rfl
      rw [List.reverse_singleton, List.singleton_append, hnone] at hinside
      cases hinside

/-! Blanks. -/

theorem ne_of_isBlank {d : Char} (hc : Text.isBlank c = true) (hd : Text.isBlank d = false) :
    c ≠ d := by
  rintro rfl
  rw [hc] at hd
  cases hd

theorem not_isBlank_of_isAlphanum (h : c.isAlphanum = true) : Text.isBlank c = false := by
  have hrange : (65 ≤ c.toNat ∧ c.toNat ≤ 90 ∨ 97 ≤ c.toNat ∧ c.toNat ≤ 122) ∨
      48 ≤ c.toNat ∧ c.toNat ≤ 57 := by
    change ((decide (c.val ≥ 65 ∧ c.val ≤ 90) || (decide (c.val ≥ 97) && decide (c.val ≤ 122))) ||
      (decide (c.val ≥ 48) && decide (c.val ≤ 57))) = true at h
    simp only [Bool.or_eq_true, Bool.and_eq_true, decide_eq_true_eq, ge_iff_le,
      UInt32.le_iff_toNat_le] at h
    exact h
  simp only [Text.isBlank, Bool.or_eq_false_iff, Bool.and_eq_false_iff, decide_eq_false_iff_not,
    beq_eq_false_iff_ne]
  omega

theorem Takes.blank (h : Takes p c q pieces) (hc : Text.isBlank c = true) :
    q.isTag = p.isTag ∧ ∀ name, p ≠ .reference name := by
  refine ⟨?_, ?_⟩
  · have hlt : (c == '<') = false := beq_false_of_ne (ne_of_isBlank hc (by decide))
    have hgt : (c != '>') = true := bne_iff_ne.mpr (ne_of_isBlank hc (by decide))
    rw [h.isTag, hlt, hgt, Bool.false_or, Bool.and_true]
  · rintro name rfl
    cases h with
    | refer => cases hc
    | name named =>
      rcases named with halphanum | rfl
      · rw [not_isBlank_of_isAlphanum halphanum] at hc
        cases hc
      · cases hc

theorem reads_blanks {blanks : Text} (h : ∀ c ∈ blanks, Text.isBlank c = true) :
    Reads blanks (blanks.map .char) := by
  induction blanks with
  | nil => exact reads_nil
  | cons c blanks ih =>
    obtain ⟨hc, hblanks⟩ := List.forall_mem_cons.mp h
    have hchar := reads_char (ne_of_isBlank hc (by decide)) (ne_of_isBlank hc (by decide))
      (ne_of_isBlank hc (by decide))
    exact hchar.append (ih hblanks)

theorem position_of_blanks {blanks : Text} (h : ∀ c ∈ blanks, Text.isBlank c = true)
    (hread : read p blanks = some (.text, pieces)) : p = .text := by
  cases blanks with
  | nil => exact (read_nil_eq_some hread).1.symm
  | cons c blanks =>
    have hlt : '<' ∉ c :: blanks := fun hmem => absurd (h _ hmem) (by decide)
    have hgt : '>' ∉ c :: blanks := fun hmem => absurd (h _ hmem) (by decide)
    obtain ⟨next, first, more, htakes, -, -⟩ := read_cons_eq_some hread
    obtain ⟨-, hreference⟩ := htakes.blank (List.forall_mem_cons.mp h).1
    cases p with
    | text => rfl
    | reference name => exact absurd rfl (hreference name)
    | tag content =>
      rw [read_tag fun d hd => ⟨fun heq => hlt (heq ▸ hd), fun heq => hgt (heq ▸ hd)⟩] at hread
      cases hread

/-- What is trimmed from a fragment is running text. -/
theorem reads_trim (h : Reads s pieces) :
    ∃ (before : Text) (inside : List Piece) (behind : Text), Reads (Text.trim s) inside ∧
    pieces = before.map .char ++ inside ++ behind.map .char ∧
    (∀ c ∈ before, Text.isBlank c = true) ∧ ∀ c ∈ behind, Text.isBlank c = true := by
  obtain ⟨before, hs, hbefore⟩ := Text.exists_trimStart s
  obtain ⟨behind, hmore, hbehind⟩ := Text.exists_trimEnd (Text.trimStart s)
  unfold Reads at h
  rw [hs] at h
  obtain ⟨p, first, rest, hfirst, hrest, rfl⟩ := read_append_eq_some h
  rw [reads_blanks hbefore] at hfirst
  obtain ⟨rfl, rfl⟩ := Prod.mk.inj (Option.some.inj hfirst)
  rw [hmore] at hrest
  obtain ⟨q, inside, last, hinside, hlast, rfl⟩ := read_append_eq_some hrest
  obtain rfl := position_of_blanks hbehind hlast
  rw [reads_blanks hbehind] at hlast
  obtain ⟨-, rfl⟩ := Prod.mk.inj (Option.some.inj hlast)
  exact ⟨before, inside, behind, hinside, (List.append_assoc ..).symm, hbefore, hbehind⟩

end Html
end Quizdown
