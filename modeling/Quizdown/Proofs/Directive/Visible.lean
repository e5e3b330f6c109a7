import Quizdown.Proofs.Directive.Words
import Quizdown.Proofs.Html.Hidden

/-!
Stripping hides nothing. What is shown outside tokens stays but for blanks, and so do the tags. So
what is left of a paragraph shows nothing exactly if nothing but tokens is seen of it.
-/
set_option autoImplicit false

namespace Quizdown
namespace Directive

open Html (Region)

/-- There is nothing to be seen of the fragment but tokens: what it shows outside them is blank, and
its tags are those of plain elements. -/
structure ShowsTokensOnly (f : Text) : Prop where
  text : ∀ c ∈ Region.text.shown (cut (parts f)), Text.isBlank c = true
  tags : ∀ tag ∈ Html.tagTexts none f, Html.elementName tag ∈ Html.plainElements

variable {r : Region} {s t : Text} {ps : List Part} {swallows free : Bool}

theorem solid_shown_blanks (h : ∀ c ∈ s, Text.isBlank c = true) : Text.solid (r.shown s) = [] :=
  Text.solid_eq_nil_iff.mpr (shown_blanks h)

/-- Only blanks leave with the tokens. -/
theorem Remains.solid_shown (h : Remains swallows ps t) (hcovers : Covers free s ps)
    (hr : swallows = true → r.settled = r) :
    Text.solid (r.shown t) = Text.solid (r.shown (cut ps)) := by
  induction h generalizing free s r with
  | done closes => rw [solid_shown_blanks closes.blank, solid_shown_blanks (cut_gaps closes.gaps)]
  | @next swallows run ps blanks t p closes solid rest ih =>
    obtain ⟨_, _, hcovers'⟩ := hcovers.behind
    obtain ⟨_, _, hcovers''⟩ := @Covers.behind _ [p] ps _ hcovers'
    obtain ⟨hne, hsolid⟩ := endsSolid_kept hcovers' solid
    obtain ⟨hregion, hshown⟩ := closes.region hr hcovers'.startsTag
    have hrest := ih hcovers'' (r := (r.run (cut run)).run p.kept) fun hend =>
      settled_of_endsTag ((swallowsBlanks_solid hne hsolid).symm.trans hend)
    have hcut : cut (run ++ p :: ps) = cut run ++ p.kept ++ cut ps := by
      rw [cut_append, List.append_assoc]
      rfl
    rw [hcut]
    simp only [Region.shown_append, Region.run_append, Text.solid_append, hregion, hshown, hrest,
      solid_shown_blanks closes.blank, solid_shown_blanks (cut_gaps closes.gaps)]

/-- What is left of a paragraph in which no directive stands inside a tag shows nothing exactly if
nothing but tokens is seen of the paragraph. -/
theorem showsNothing_strip_iff {n : Nesting} (hn : n.fits .flow = true)
    (houtside : tokensOutside false (parts (BlockKind.wrap .paragraph n.events)) = true) :
    Html.ShowsNothing (strip (BlockKind.wrap .paragraph n.events)) ↔
      ShowsTokensOnly (BlockKind.wrap .paragraph n.events) := by
  obtain ⟨before, hread, -⟩ := reads_paragraph hn
  generalize BlockKind.wrap .paragraph n.events = f at hread houtside ⊢
  obtain ⟨after, hafter, htags⟩ := strip_keeps_tags_of_reads hread houtside
  have htext : (∀ c ∈ Region.text.shown (strip f), Text.isBlank c = true) ↔
      ∀ c ∈ Region.text.shown (cut (parts f)), Text.isBlank c = true := by
    have hsolid := (remains_parts f).solid_shown (covers_parts f) (r := .text) fun _ => rfl
    rw [strip_of_reads hread houtside, ← Text.solid_eq_nil_iff, hsolid, Text.solid_eq_nil_iff]
  have hplain : (∀ tag ∈ Html.tagTexts none (strip f),
        Html.elementName tag ∈ Html.plainElements) ↔
      ∀ tag ∈ Html.tagTexts none f, Html.elementName tag ∈ Html.plainElements := by
    rw [Html.forall_elementName_iff hafter (P := (· ∈ Html.plainElements)), htags,
      Html.forall_elementName_iff hread (P := (· ∈ Html.plainElements))]
  exact ⟨fun h => ⟨htext.mp h.text, hplain.mp h.tags⟩,
    fun h => ⟨htext.mpr h.text, hplain.mpr h.tags⟩⟩

end Directive
end Quizdown
