import Quizdown.Proofs.Assembly.State
import Quizdown.Proofs.Document.Nesting
import Quizdown.Proofs.Text.Search
import Quizdown.Proofs.Text.Trim
import Mathlib.Data.List.Pairwise

/-! What is commented out has no effect, and nothing else is hidden: blocks of raw HTML that consist
of comments, and blocks inside a comment in running text. -/
set_option autoImplicit false

namespace Quizdown

/-- The text without its comments. A comment begins at the first `<!--`; it ends at the first `-->`
behind that, or with the text. -/
inductive Uncommented : Text → Text → Prop
  | none {s : Text} (h : ¬ "<!--".toList <:+: s) : Uncommented s s
  | closed {before inside rest out : Text} (hbefore : ¬ "<!--".toList <:+: before)
      (hinside : ¬ "-->".toList <:+: inside) (hrest : Uncommented rest out) :
      Uncommented (before ++ "<!--".toList ++ (inside ++ "-->".toList ++ rest)) (before ++ out)
  | unclosed {before inside : Text} (hbefore : ¬ "<!--".toList <:+: before)
      (hinside : ¬ "-->".toList <:+: inside) :
      Uncommented (before ++ "<!--".toList ++ inside) before

section Scan

variable {s out before inside rest : Text} {fuel : Nat}

theorem Uncommented.subset (h : Uncommented s out) : ∀ c ∈ out, c ∈ s := by
  induction h with
  | none => exact fun c hc => hc
  | closed _ _ _ ih =>
    intro c hc
    rcases List.mem_append.mp hc with hc | hc
    · simp [hc]
    · simp [ih c hc]
  | unclosed => exact fun c hc => by simp [hc]

theorem exists_uncommented (s : Text) : ∃ out, Uncommented s out := by
  induction hlength : s.length using Nat.strongRecOn generalizing s with
  | ind n ih =>
    cases hopen : Text.splitFirst? "<!--".toList s with
    | none => exact ⟨s, .none (Text.splitFirst?_eq_none_iff.mp hopen)⟩
    | some found =>
      obtain ⟨before, inside⟩ := found
      have hs := Text.splitFirst?_eq_some hopen
      have hbefore := Text.not_infix_of_splitFirst? (by decide) hopen
      cases hclose : Text.splitFirst? "-->".toList inside with
      | none =>
        rw [hs]
        exact ⟨before, .unclosed hbefore (Text.splitFirst?_eq_none_iff.mp hclose)⟩
      | some found =>
        obtain ⟨comment, rest⟩ := found
        have hinside := Text.splitFirst?_eq_some hclose
        have hshorter : rest.length < n := by
          rw [← hlength, hs, hinside]
          simp
          omega
        obtain ⟨out, hout⟩ := ih rest.length hshorter rest rfl
        rw [hs, hinside]
        exact ⟨before ++ out,
          .closed hbefore (Text.not_infix_of_splitFirst? (by decide) hclose) hout⟩

theorem outsideCommentsFrom_before
    (h : ∀ y, y <:+ before → y ≠ [] → ¬ "<!--".toList <+: y ++ s) (fuel : Nat) :
    outsideCommentsFrom (before.length + fuel) (before ++ s) =
      before ++ outsideCommentsFrom fuel s := by
  induction before with
  | nil => rw [List.length_nil, Nat.zero_add, List.nil_append, List.nil_append]
  | cons c before ih =>
    have hnone : Text.stripPrefix? "<!--".toList (c :: (before ++ s)) = none :=
      Text.stripPrefix?_eq_none_iff.mpr (h _ List.suffix_rfl (List.cons_ne_nil c before))
    have hlength : (c :: before).length + fuel = before.length + fuel + 1 := by
      rw [List.length_cons]
      omega
    rw [hlength, List.cons_append, outsideCommentsFrom, hnone]
    exact congrArg (c :: ·) (ih fun y hy => h y (hy.trans (List.suffix_cons c before)))

theorem outsideCommentsFrom_nil (fuel : Nat) : outsideCommentsFrom fuel [] = [] := by
  cases fuel <;> rfl

theorem outsideCommentsFrom_opening (h : ¬ "<!--".toList <:+: before) (fuel : Nat) (t : Text) :
    outsideCommentsFrom (before.length + (fuel + 1)) (before ++ "<!--".toList ++ t) =
      before ++ match Text.splitFirst? "-->".toList t with
        | some (_, rest) => outsideCommentsFrom fuel rest
        | none => [] := by
  have hfirst := (Text.splitFirst?_eq_some_iff.mp
    (Text.splitFirst?_of_unbordered (by decide) h t)).2
  have hstrip : Text.stripPrefix? "<!--".toList ('<' :: ("!--".toList ++ t)) = some t :=
    Text.stripPrefix?_append "<!--".toList t
  rw [List.append_assoc, outsideCommentsFrom_before fun y hy hne hprefix =>
    hfirst y hy hne (Text.prefix_append_iff.mp (List.append_assoc .. ▸ hprefix))]
  change before ++ outsideCommentsFrom (fuel + 1) ('<' :: ("!--".toList ++ t)) = _
  cases hend : Text.splitFirst? "-->".toList t <;> simp only [outsideCommentsFrom, hstrip, hend]

theorem outsideCommentsFrom_eq (h : Uncommented s out) (hfuel : s.length ≤ fuel) :
    outsideCommentsFrom fuel s = out := by
  induction h generalizing fuel with
  | @none s hs =>
    obtain ⟨more, rfl⟩ := Nat.exists_eq_add_of_le hfuel
    have hwhole := @outsideCommentsFrom_before [] s
      (fun y hy _ hprefix => hs ((List.append_nil y ▸ hprefix).isInfix.trans hy.isInfix)) more
    rwa [List.append_nil, outsideCommentsFrom_nil, List.append_nil] at hwhole
  | @closed before inside rest out hbefore hinside _ ih =>
    simp only [List.length_append] at hfuel
    obtain ⟨more, rfl⟩ : ∃ more, fuel = before.length + (more + 1) :=
      ⟨fuel - before.length - 1, by simp at hfuel; omega⟩
    rw [outsideCommentsFrom_opening hbefore,
      Text.splitFirst?_of_unbordered (by decide) hinside rest]
    exact congrArg (before ++ ·) (ih (by simp at hfuel; omega))
  | @unclosed before inside hbefore hinside =>
    simp only [List.length_append] at hfuel
    obtain ⟨more, rfl⟩ : ∃ more, fuel = before.length + (more + 1) :=
      ⟨fuel - before.length - 1, by simp at hfuel; omega⟩
    rw [outsideCommentsFrom_opening hbefore, Text.splitFirst?_eq_none_iff.mpr hinside,
      List.append_nil]

/-- The scan finds what is outside the comments, and there is one way only to scan a text. -/
theorem uncommented_iff : Uncommented s out ↔ outsideComments s = out := by
  constructor
  · intro h
    exact outsideCommentsFrom_eq h (Nat.le_refl _)
  · rintro rfl
    obtain ⟨out, hout⟩ := exists_uncommented s
    have heq : outsideComments s = out := outsideCommentsFrom_eq hout (Nat.le_refl _)
    exact heq ▸ hout

end Scan

namespace BlockKind

variable {inner : List Event} {out : Text}

theorem ofEvents_htmlBlock_eq_comment_iff (h : Uncommented (rawHtml inner) out) :
    ofEvents .htmlBlock inner = .comment ↔ ∀ c ∈ out, Text.isBlank c = true := by
  rw [← Text.isAllBlank_iff, ← uncommented_iff.mp h, ofEvents]
  split_ifs with hblank
  · simp [hblank]
  · simp [hblank]

theorem ofEvents_htmlBlock_of_ne_comment (h : ofEvents .htmlBlock inner ≠ .comment) :
    Text.trim (rawHtml inner) ≠ [] ∧
      ofEvents .htmlBlock inner = .rich (Text.trim (rawHtml inner)) [] := by
  obtain ⟨out, hout⟩ := exists_uncommented (rawHtml inner)
  constructor
  · intro hnil
    have hblank := Text.isAllBlank_iff.mp (Text.trim_eq_nil_iff.mp hnil)
    exact h ((ofEvents_htmlBlock_eq_comment_iff hout).mpr fun c hc => hblank c (hout.subset c hc))
  · rw [ofEvents] at h ⊢
    split_ifs at h ⊢ with hblank
    · exact absurd rfl h
    · rfl

end BlockKind

/-! The places of comments. -/

namespace BlockReader

variable {r : BlockReader} {events : List PlacedEvent} {span : Span}

theorem comments_push (r : BlockReader) (e : PlacedEvent) :
    (r.push e).1.comments = e.comment?.toList ++ r.comments := by
  obtain ⟨event, span⟩ := e
  cases event with
  | start tag =>
    simp only [push]
    split_ifs <;> rfl
  | stop tag =>
    simp only [push]
    split_ifs
    · rfl
    · cases r.opened <;> rfl
  | rule =>
    simp only [push]
    split_ifs <;> rfl
  | inlineHtml s =>
    simp only [push, PlacedEvent.comment?]
    split_ifs <;> rfl
  | _ => rfl

theorem mem_comments_run : span ∈ (r.run events).2 ↔
    span ∈ r.comments ∨ span ∈ events.filterMap PlacedEvent.comment? ∨
      (.comment, span) ∈ (r.run events).1 := by
  induction events generalizing r with
  | nil => simp [run]
  | cons e events ih =>
    have hpush := r.comments_push e
    have hhere : span ∈ (e :: events).filterMap PlacedEvent.comment? ↔
        span ∈ e.comment?.toList ∨ span ∈ events.filterMap PlacedEvent.comment? := by
      rw [List.filterMap_cons]
      cases e.comment? <;> simp
    rw [run, hhere]
    generalize r.push e = pushed at hpush ⊢
    obtain ⟨next, found⟩ := pushed
    dsimp only at hpush
    cases found with
    | none =>
      dsimp only
      rw [ih, hpush, List.mem_append]
      tauto
    | some found =>
      obtain ⟨kind, place⟩ := found
      dsimp only
      split_ifs with hkind
      · rw [ih]
        simp only [hkind, hpush, List.mem_cons, List.mem_append, Prod.mk.injEq, true_and]
        tauto
      · rw [ih]
        simp only [Ne.symm hkind, hpush, List.mem_cons, List.mem_append, Prod.mk.injEq, false_and,
          false_or]
        tauto

end BlockReader

def Span.Disjoint (a b : Span) : Prop := a.stop ≤ b.start ∨ b.stop ≤ a.start

instance (a b : Span) : Decidable (a.Disjoint b) :=
  inferInstanceAs (Decidable (a.stop ≤ b.start ∨ b.stop ≤ a.start))

theorem Span.not_within_of_disjoint {a b : Span} (h : a.Disjoint b) (ha : a.start < a.stop) :
    a.within b = false := by
  rw [within, Bool.and_eq_false_iff, decide_eq_false_iff_not, decide_eq_false_iff_not]
  unfold Disjoint at h
  omega

namespace Document

variable {source : Text} {events : List PlacedEvent}

theorem mem_blocks_of_mem_run {kind : BlockKind} {span : Span}
    (h : (kind, span) ∈ (BlockReader.run {} events).1) :
    ∃ b ∈ (ofEvents source events).blocks, b.kind = kind ∧ b.span = span.trim source := by
  obtain ⟨i, hi⟩ := List.mem_iff_getElem?.mp h
  refine ⟨⟨kind, span.trim source, lineOf source span.start, 0 + i + 1⟩, ?_, rfl, rfl⟩
  simp only [ofEvents, number_eq_mapIdx, List.mem_iff_getElem?]
  exact ⟨i, by rw [List.getElem?_mapIdx, hi]; rfl⟩

theorem isCommentedOut_iff {b : Block} : (ofEvents source events).isCommentedOut b = true ↔
    ∃ span ∈ (BlockReader.run {} events).2, b.span.within (span.trim source) = true := by
  rw [isCommentedOut, List.any_eq_true]
  simp only [ofEvents, List.mem_map, (List.mergeSort_perm _ _).mem_iff]
  constructor
  · rintro ⟨_, ⟨span, hspan, rfl⟩, hwithin⟩
    exact ⟨span, hspan, hwithin⟩
  · rintro ⟨span, hspan, hwithin⟩
    exact ⟨_, ⟨span, hspan, rfl⟩, hwithin⟩

def inComment (source : Text) (events : List PlacedEvent) (b : Block) : Bool :=
  (events.filterMap PlacedEvent.comment?).any fun span => b.span.within (span.trim source)

/-- Only comments in running text hide blocks that are none themselves. -/
theorem isVisible_eq {b : Block} (hb : b ∈ (ofEvents source events).blocks)
    (hne : b.span.start < b.span.stop)
    (hdisjoint : (ofEvents source events).blocks.Pairwise fun a b => a.span.Disjoint b.span) :
    (ofEvents source events).isVisible b =
      (b.kind != .comment && !inComment source events b) := by
  rw [isVisible]
  by_cases hkind : b.kind = .comment
  · simp [hkind]
  · congr 2
    rw [Bool.eq_iff_iff, isCommentedOut_iff, inComment, List.any_eq_true]
    constructor
    · rintro ⟨span, hspan, hwithin⟩
      rcases BlockReader.mem_comments_run.mp hspan with hspan | hspan | hspan
      · cases hspan
      · exact ⟨span, hspan, hwithin⟩
      · -- a block of comments is another block, which has no byte in common with this one
        obtain ⟨c, hc, hckind, hcspan⟩ := @mem_blocks_of_mem_run source _ _ _ hspan
        have hother : b ≠ c := fun heq => hkind (heq ▸ hckind)
        have hsymm : Std.Symm fun a b : Block => a.span.Disjoint b.span := ⟨fun a b h => h.symm⟩
        have happart := hdisjoint.forall hb hc hother
        rw [← hcspan, Span.not_within_of_disjoint happart hne] at hwithin
        cases hwithin
    · rintro ⟨span, hspan, hwithin⟩
      exact ⟨span, BlockReader.mem_comments_run.mpr (.inr (.inl hspan)), hwithin⟩

theorem visibleBlocks_content {d : Document} {spans : List Span}
    (h : ∀ s ∈ spans, s ∈ d.commentSpans) : visibleBlocks ⟨d.content, spans⟩ = d.content := by
  refine List.filter_eq_self.mpr fun b hb => ?_
  obtain ⟨hkind, hout⟩ := Bool.and_eq_true_iff.mp (List.mem_filter.mp (List.mem_filter.mp hb).1).2
  rw [isVisible, Bool.and_eq_true]
  refine ⟨hkind, ?_⟩
  rw [Bool.not_eq_true', isCommentedOut, List.any_eq_false] at hout ⊢
  exact fun s hs => hout s (h s hs)

theorem assemble_content (settings : Settings) {d : Document} {spans : List Span}
    (h : ∀ s ∈ spans, s ∈ d.commentSpans) :
    assemble settings ⟨d.content, spans⟩ = assemble settings d := by
  have hsteps : ({} : Assembly).steps settings d.content =
      ({} : Assembly).steps settings d.visibleBlocks := Assembly.steps_filter_rule _ _ _
  rw [assemble, visibleBlocks_content h, hsteps, assemble]

end Document
end Quizdown
