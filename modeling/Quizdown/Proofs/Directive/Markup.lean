import Quizdown.Document.Build
import Quizdown.Proofs.Directive.Places
import Quizdown.Proofs.Directive.Strip
import Quizdown.Proofs.Html.Place
import Quizdown.Proofs.Html.WellFormed

/-!
Stripping keeps every tag with its attributes where tokens stand in running text. A token is
characters there, and a gap is closed by blanks. Inside a tag a token may take the end of a value
along, quotation mark and all.
-/
set_option autoImplicit false

namespace Quizdown
namespace Directive

open Html (Position Takes tags read endsInTag reads_blanks)

/-- No token stands inside a tag. The flag says that the first part does. -/
def tokensOutside : Bool → List Part → Bool
  | _, [] => true
  | inside, p :: ps => !(inside && p.isToken) && tokensOutside (endsInTag inside p.text) ps

variable {p q : Position} {free swallows : Bool} {s s' t : Text} {run ps : List Part}
  {before pieces : List Html.Piece} {c : Char}

/-- A reference has no blank and no markup in it. -/
theorem not_takes_of_reference {name : Text} (hc : isValueChar c = false) :
    ¬ Takes (.reference name) c q pieces := by
  intro h
  have hvalue : isValueChar c = true := by
    cases h with
    | refer => decide
    | name named =>
      rcases named with hname | rfl
      · exact (isValueChar_of_isKeyChar (by simp [isKeyChar, hname])).1
      · decide
  rw [hc] at hvalue
  cases hvalue

/-! One token. -/

theorem Token.reads {d : Directive} {tail : Text} (h : Token s d tail s')
    (hread : read .text s = some (.text, before)) :
    tail = [] ∧ ∃ more, read .text s' = some (.text, more) ∧ tags more = tags before := by
  rw [h.text] at hread
  obtain ⟨mid, first, more, hfirst, hmore, rfl⟩ := Html.read_append_eq_some hread
  obtain ⟨hmid, hnone, hgt⟩ := Html.read_outside rfl h.not_lt hfirst
  refine ⟨?_, more, ?_, by rw [Html.tags_append, hnone, List.nil_append]⟩
  · rcases h.tail with rfl | ⟨w, rfl⟩
    · rfl
    · simp [commentEnd_eq] at hgt
  · cases mid with
    | text => exact hmore
    | tag content => cases hmid
    | reference name =>
      have hrest := h.rest
      cases s' with
      | nil => cases (Html.read_nil_eq_some hmore).1
      | cons c s' =>
        obtain ⟨_, _, _, htakes, -, -⟩ := Html.read_cons_eq_some hmore
        exact absurd htakes (not_takes_of_reference (by simpa using hrest))

/-- A token that stands outside tags does not stand in a reference either. -/
theorem Token.position {d : Directive} {tail : Text} (h : Token s d tail s')
    (hp : p.isTag = false) (hread : read p s = some (q, pieces)) : p = .text := by
  cases p with
  | text => rfl
  | tag content => cases hp
  | reference name =>
    rw [h.text, token] at hread
    obtain ⟨_, _, _, htakes, -, -⟩ := Html.read_cons_eq_some hread
    cases htakes with
    | name named => exact absurd named (by decide)

/-! A run of blanks and tokens. -/

theorem tokensOutside_cons {inside : Bool} {r : Part}
    (h : tokensOutside inside (r :: ps) = true) :
    (r.isToken = true → inside = false) ∧ tokensOutside (endsInTag inside r.text) ps = true := by
  rw [tokensOutside, Bool.and_eq_true] at h
  refine ⟨fun htoken => ?_, h.2⟩
  simpa [htoken] using h.1

theorem Covers.position (hcovers : Covers free s (run ++ ps)) (hrun : ∀ r ∈ run, r.isGap = true)
    (htoken : run.any Part.isToken = true) (hread : read p s = some (q, pieces))
    (houtside : tokensOutside p.isTag (run ++ ps) = true) : p = .text := by
  induction run generalizing free s p pieces with
  | nil => cases htoken
  | cons r run ih =>
    obtain ⟨hr, hmore⟩ := List.forall_mem_cons.mp hrun
    obtain ⟨hin, hafter⟩ := tokensOutside_cons houtside
    cases hcovers with
    | code element ends rest => cases hr
    | token found rest => exact found.position (hin rfl) hread
    | @char _ c s _ unread rest =>
      obtain ⟨next, _, _, htakes, hnext, -⟩ := Html.read_cons_eq_some hread
      obtain ⟨hsame, hreference⟩ := htakes.blank hr
      have hinside : endsInTag p.isTag (Part.char c).text = next.isTag := htakes.isTag.symm
      rw [hinside] at hafter
      obtain rfl : next = .text := ih rest hmore htoken hnext hafter
      cases p with
      | text => rfl
      | reference name => exact absurd rfl (hreference name)
      | tag content => cases hsame

theorem Covers.reads_gaps (hcovers : Covers free s (run ++ ps))
    (hrun : ∀ r ∈ run, r.isGap = true) (hread : read .text s = some (.text, before))
    (houtside : tokensOutside false (run ++ ps) = true) :
    ∃ free' s' more, Covers free' s' ps ∧ read .text s' = some (.text, more) ∧
      tags more = tags before ∧ tokensOutside false ps = true := by
  induction run generalizing free s before with
  | nil => exact ⟨free, s, before, hcovers, hread, rfl, houtside⟩
  | cons r run ih =>
    obtain ⟨hr, hmore⟩ := List.forall_mem_cons.mp hrun
    have hafter := (tokensOutside_cons houtside).2
    cases hcovers with
    | code element ends rest => cases hr
    | @char _ c s _ unread rest =>
      have hblank : Html.Reads [c] [.char c] := reads_blanks (List.forall_mem_singleton.mpr hr)
      obtain ⟨mid, first, more, hfirst, hnext, rfl⟩ := Html.read_append_eq_some (s := [c]) hread
      obtain ⟨rfl, rfl⟩ := Prod.mk.inj (Option.some.inj (hblank.symm.trans hfirst))
      have hinside : endsInTag false (Part.char c).text = false := (Html.isTag_of_read hfirst).symm
      have hsame : tags ([.char c] ++ more) = tags more := rfl
      rw [hinside] at hafter
      rw [hsame]
      exact ih rest hmore hnext hafter
    | @token _ _ s d tail _ found rest =>
      obtain ⟨rfl, more, hnext, htags⟩ := found.reads hread
      have hinside : endsInTag false (Part.token d []).text = false :=
        Html.endsInTag_outside found.not_lt
      rw [hinside] at hafter
      rw [← htags]
      exact ih rest hmore hnext hafter

theorem tokensOutside_chars {inside : Bool} {w : Text}
    (h : tokensOutside inside (w.map .char ++ ps) = true) :
    tokensOutside (endsInTag inside w) ps = true := by
  induction w generalizing inside with
  | nil => exact h
  | cons c w ih => exact ih (tokensOutside_cons h).2

theorem Closes.reads {blanks : Text} {next : Option Part} (closes : Closes swallows run blanks next)
    (hcovers : Covers free s (run ++ ps)) (hread : read p s = some (.text, before))
    (houtside : tokensOutside p.isTag (run ++ ps) = true) :
    ∃ free' s' mid first more, Covers free' s' ps ∧ read p blanks = some (mid, first) ∧
      read mid s' = some (.text, more) ∧ tags first ++ tags more = tags before ∧
      tokensOutside mid.isTag ps = true := by
  cases htoken : run.any Part.isToken with
  | false =>
    obtain rfl := closes.untouched htoken
    obtain ⟨free', s', rfl, hcovers'⟩ := hcovers.chars
    obtain ⟨mid, first, more, hfirst, hmore, rfl⟩ := Html.read_append_eq_some hread
    refine ⟨free', s', mid, first, more, hcovers', hfirst, hmore, (Html.tags_append ..).symm, ?_⟩
    rw [Html.isTag_of_read hfirst]
    exact tokensOutside_chars houtside
  | true =>
    obtain rfl := hcovers.position closes.gaps htoken hread houtside
    obtain ⟨free', s', more, hcovers', hmore, htags, hafter⟩ :=
      hcovers.reads_gaps closes.gaps hread houtside
    refine ⟨free', s', .text, _, more, hcovers', reads_blanks closes.blank, hmore, ?_, hafter⟩
    rw [Html.tags_chars, htags, List.nil_append]

/-- Where no token stands inside a tag, the tags remain when the tokens are gone. -/
theorem Remains.keeps_tags (h : Remains swallows ps t) (hcovers : Covers free s ps)
    (hread : read p s = some (.text, before)) (houtside : tokensOutside p.isTag ps = true) :
    ∃ after, read p t = some (.text, after) ∧ tags after = tags before := by
  induction h generalizing p free s before with
  | @done swallows run blanks closes =>
    have hcovers' : Covers free s (run ++ []) := by simpa using hcovers
    obtain ⟨_, s', mid, first, more, hnil, hfirst, hmore, htags, -⟩ :=
      closes.reads hcovers' hread (by simpa using houtside)
    cases hnil
    obtain ⟨rfl, rfl⟩ := Html.read_nil_eq_some hmore
    exact ⟨first, hfirst, by simpa [tags] using htags⟩
  | @next swallows run ps blanks t r closes solid rest ih =>
    obtain ⟨_, s', mid, first, more, hpart, hfirst, hmore, htags, hafter⟩ :=
      closes.reads hcovers hread houtside
    obtain ⟨hin, hbehind⟩ := tokensOutside_cons hafter
    -- a part that is no token stays, and the rest is read from where it ends
    have hkept : ∀ w s'' free'', r.kept = w → r.text = w → s' = w ++ s'' → Covers free'' s'' ps →
        ∃ after, read p (blanks ++ r.kept ++ t) = some (.text, after) ∧
          tags after = tags before := by
      rintro w s'' free'' hkept htext rfl hcovers''
      obtain ⟨last, second, third, hsecond, hthird, rfl⟩ := Html.read_append_eq_some hmore
      rw [htext, ← Html.isTag_of_read hsecond] at hbehind
      obtain ⟨after, hrest, hsame⟩ := ih hcovers'' hthird hbehind
      refine ⟨first ++ second ++ after, ?_, ?_⟩
      · rw [hkept, List.append_assoc, Html.read_append, hfirst, Option.bind_some, Html.read_append,
          hsecond, Option.bind_some, hrest]
        simp
      · rw [← htags, Html.tags_append, Html.tags_append, Html.tags_append, hsame, List.append_assoc]
    cases hpart with
    | @char _ c s'' _ unread hrest => exact hkept [c] s'' _ rfl rfl rfl hrest
    | @code _ raw s'' _ element ends hrest => exact hkept raw s'' _ rfl rfl rfl hrest
    | token found hrest =>
      obtain rfl := found.position (hin rfl) hmore
      obtain ⟨rfl, -⟩ := found.reads hmore
      cases solid

/-! Comments. -/

theorem dropEmptyCommentsFrom_eq_self {fuel : Nat} (h : ∀ x y, s ≠ x ++ '<' :: '!' :: y) :
    dropEmptyCommentsFrom fuel s = s := by
  induction fuel generalizing s with
  | zero => cases s <;> rfl
  | succ fuel ih =>
    cases s with
    | nil => rfl
    | cons c s =>
      have hnone : emptyComment? (c :: s) = none := by
        cases hfound : emptyComment? (c :: s) with
        | none => rfl
        | some rest =>
          obtain ⟨blanks, inside, htext, -, -⟩ := emptyComment?_eq_some hfound
          exact absurd htext (h blanks _)
      rw [dropEmptyCommentsFrom_cons, hnone]
      dsimp only
      rw [ih fun x y hs => h (c :: x) y (by rw [hs, List.cons_append])]

theorem strip_of_reads {f : Text} (hread : Html.Reads f before)
    (houtside : tokensOutside false (parts f) = true) : strip f = tokensGone f := by
  by_cases hfound : (gaps (parts f)).2 = []
  · rw [strip, extract_of_gaps hfound, tokensGone_of_gaps hfound]
  · obtain ⟨after, hafter, -⟩ := (remains_parts f).keeps_tags (covers_parts f) hread houtside
    rw [strip_of_gaps hfound, dropEmptyComments,
      dropEmptyCommentsFrom_eq_self fun x y hs => Html.not_reads_declaration (hs ▸ hafter)]

theorem strip_keeps_tags_of_reads {f : Text} (hread : Html.Reads f before)
    (houtside : tokensOutside false (parts f) = true) :
    ∃ after, Html.Reads (strip f) after ∧ tags after = tags before := by
  rw [strip_of_reads hread houtside]
  exact (remains_parts f).keeps_tags (covers_parts f) hread houtside

theorem reads_paragraph {n : Nesting} (hn : n.fits .flow = true) :
    ∃ before, Html.Reads (BlockKind.wrap .paragraph n.events) before ∧
      Html.nest [] (tags before) = some [] := by
  have hmeets : Surroundings.flow.Meets (HtmlWriter.block.afterStart .paragraph) := .inr (.inr rfl)
  have hinside (opened : Texts) := HtmlWriter.fragment_nesting n hn rfl hmeets opened
  have himage : ∀ url title, Tag.paragraph ≠ .image url title := by simp
  obtain ⟨before, hread, hnest, -⟩ := HtmlWriter.fragment_element himage n rfl
    (fun opened => (hinside opened).1) (hinside []).2 []
  exact ⟨before, hread, hnest⟩

/-- Stripping a paragraph in which no directive stands inside a tag leaves well-formed HTML with the
same tags, their attributes and values included, in the same order. -/
theorem strip_keeps_tags {n : Nesting} (hn : n.fits .flow = true)
    (houtside : tokensOutside false (parts (BlockKind.wrap .paragraph n.events)) = true) :
    ∃ before after, Html.pieces? (BlockKind.wrap .paragraph n.events) = some before ∧
      Html.pieces? (strip (BlockKind.wrap .paragraph n.events)) = some after ∧
      tags after = tags before ∧ Html.nest [] (tags after) = some [] := by
  obtain ⟨before, hread, hnest⟩ := reads_paragraph hn
  obtain ⟨after, hafter, htags⟩ := strip_keeps_tags_of_reads hread houtside
  exact ⟨before, after, Html.pieces?_eq_some_iff.mpr hread, Html.pieces?_eq_some_iff.mpr hafter,
    htags, htags ▸ hnest⟩

theorem strip_keeps_tags_link :
    let at0 : Span := ⟨0, 0⟩
    let text (s : String) (rest : Nesting) : Nesting := .leaf ⟨.text s.toList, at0⟩ rfl rest
    let n := text "@tag=a & " (.element (.link "u".toList "foo=1".toList) at0 (text "x" .done) at0
      (text " what? " (.leaf ⟨.code "@a=b".toList, at0⟩ rfl (text " @shuffle=no" .done))))
    let html := BlockKind.wrap .paragraph n.events
    (n.fits .flow = true ∧ tokensOutside false (parts html) = true) ∧
      strip html =
        "<p>&amp; <a href=\"u\" title=\"foo=1\">x</a> what? <code>@a=b</code></p>".toList ∧
      ∃ before after, Html.pieces? html = some before ∧ Html.pieces? (strip html) = some after ∧
        tags after = tags before ∧ Html.nest [] (tags after) = some [] := by
  intro at0 text n html
  have hfits : n.fits .flow = true := by decide
  have houtside : tokensOutside false (parts html) = true := by decide +kernel
  exact ⟨⟨hfits, houtside⟩, by decide +kernel, strip_keeps_tags hfits houtside⟩

/-- A token in the title of a link takes the end of the tag along: what is left is not read as HTML
any more. -/
theorem strip_breaks_title :
    let at0 : Span := ⟨0, 0⟩
    let text (s : String) (rest : Nesting) : Nesting := .leaf ⟨.text s.toList, at0⟩ rfl rest
    let n : Nesting := .element (.link "u".toList "t @foo=bar".toList) at0 (text "x" .done) at0
      (text " what?" .done)
    let html := BlockKind.wrap .paragraph n.events
    n.fits .flow = true ∧
      html = "<p><a href=\"u\" title=\"t @foo=bar\">x</a> what?</p>".toList ∧
      strip html = "<p><a href=\"u\" title=\"t</a> what?</p>".toList ∧
      (Html.pieces? html).isSome ∧ Html.pieces? (strip html) = none := by
  decide +kernel

end Directive
end Quizdown
