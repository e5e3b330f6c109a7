import Quizdown.Proofs.Directive.Comments
import Quizdown.Proofs.Directive.Markup
import Quizdown.Proofs.Html.Region

/-!
Stripping keeps the words that are shown where, of the blanks that divide two of them, some stay. In
front of a tag all blanks leave with a token, and so do those in front of a comment that is blank
once its tokens are gone.
-/
set_option autoImplicit false

namespace Quizdown
namespace Directive

open Html (Region)

def visibleWords (s : Text) : Texts := Text.words (Region.text.shown s)

def opensApart (s : Text) : Bool := s.head?.all Text.isBlank

def endsApart (s : Text) : Bool := s.getLast?.all Text.isBlank

def Part.endsTag (p : Part) : Bool := p.kept.getLast? == some '>'

/-- The blanks of a run leave: in front of a tag, where a token stands behind one of them, and right
behind a tag, where the run begins with a token. -/
def takesBlanks (behindTag : Bool) (run : List Part) (next : Part) : Bool :=
  (next.startsTag && (run.dropWhile Part.isToken).any Part.isToken) ||
    (behindTag && run.head?.any Part.isToken)

/-- Where a token takes blanks along that are shown, no word stands right in front of them, or none
right behind. In front of the run stands what is shown of the text that stays. -/
def dividedAtTokens (r : Region) (front : Text) (behindTag : Bool) (run : List Part) :
    List Part → Bool
  | [] => true
  | p :: ps =>
    if p.isGap then dividedAtTokens r front behindTag (run ++ [p]) ps
    else
      let gap := r.shown (cut run)
      let next := r.run (cut run)
      let takes := takesBlanks behindTag run p
      (!takes || gap.isEmpty || endsApart front || opensApart (next.shown (cut (p :: ps)))) &&
        dividedAtTokens (next.run p.kept) (front ++ (if takes then [] else gap) ++ next.shown p.kept)
          p.endsTag [] ps

/-- Blank comments stand outside tags and other comments, and where they take blanks along, no word
stands right in front of these, or none right behind the comment. -/
def dividedAtComments (r : Region) (front : Text) : List Chunk → Bool
  | [] => true
  | p :: rest =>
    if blankCommentNext (p :: rest) then
      r == .text && ((r.shown p.text).isEmpty || endsApart front ||
        opensApart (r.shown (rest.flatMap Chunk.text))) && dividedAtComments r front rest
    else dividedAtComments (r.run p.text) (front ++ r.shown p.text) rest

/-- Where a directive is taken out of the fragment, some blanks stay of those that divide words; and
no comment that stays ends like a blank one. -/
def staysDivided (f : Text) : Bool :=
  (places f).isEmpty || (dividedAtTokens .text [] true [] (parts f) &&
    (chunks (tokensGone f)).all Chunk.isPlain &&
      dividedAtComments .text [] (chunks (tokensGone f)))

variable {r : Region} {s t : Text} {run ps : List Part}

theorem endsApart_blanks (h : ∀ c ∈ s, Text.isBlank c = true) : endsApart s = true := by
  rw [endsApart, Option.all_eq_true]
  exact fun c hc => h c (List.mem_of_getLast? hc)

theorem endsApart_append (hne : t ≠ []) : endsApart (s ++ t) = endsApart t := by
  rw [endsApart, List.getLast?_append_of_ne_nil _ hne, endsApart]

theorem endsApart_mono {a front : Text} (h : endsApart front = true → endsApart a = true) (s : Text) :
    endsApart (front ++ s) = true → endsApart (a ++ s) = true := by
  by_cases hnone : s = []
  · rw [hnone, List.append_nil, List.append_nil]
    exact h
  · rw [endsApart_append hnone, endsApart_append hnone]
    exact id

theorem shown_blanks (h : ∀ c ∈ s, Text.isBlank c = true) :
    ∀ c ∈ r.shown s, Text.isBlank c = true :=
  fun c hc => h c (Region.mem_of_mem_shown hc)

theorem words_without {a gap v : Text} (hgap : ∀ c ∈ gap, Text.isBlank c = true)
    (h : endsApart a = true ∨ opensApart v = true) :
    Text.words (a ++ v) = Text.words (a ++ (gap ++ v)) := by
  rcases h with ha | hv
  · rcases List.eq_nil_or_concat' a with rfl | ⟨a, c, rfl⟩
    · exact (Text.words_blank_append hgap v).symm
    · have hc : ∀ d ∈ [c], Text.isBlank d = true := by simpa [endsApart] using ha
      rw [List.append_assoc, List.append_assoc,
        Text.words_append_append hc (by simp), Text.words_append_append hc (by simp),
        Text.words_blank_append hgap]
  · cases v with
    | nil => rw [List.append_nil, List.append_nil, Text.words_append_blank hgap]
    | cons c v =>
      have hc : Text.isBlank c = true := by simpa [opensApart] using hv
      rw [← List.append_assoc, Text.words_append hc, Text.words_append hc,
        Text.words_append_blank hgap]

theorem words_gap {a blanks gap v : Text} (hblanks : ∀ c ∈ blanks, Text.isBlank c = true)
    (hgap : ∀ c ∈ gap, Text.isBlank c = true) (hempty : gap = [] → blanks = [])
    (hlost : blanks = [] → gap ≠ [] → endsApart a = true ∨ opensApart v = true) :
    Text.words (a ++ (blanks ++ v)) = Text.words (a ++ (gap ++ v)) := by
  by_cases hg : gap = []
  · rw [hg, hempty hg]
  by_cases hb : blanks = []
  · rw [hb, List.nil_append, words_without hgap (hlost hb hg)]
  · rw [Text.words_append_append hblanks hb, Text.words_append_append hgap hg]

/-! Runs of blanks and tokens. -/

theorem Covers.behind {free : Bool} (h : Covers free s (run ++ ps)) :
    ∃ free' s', Covers free' s' ps := by
  induction run generalizing free s with
  | nil => exact ⟨free, s, h⟩
  | cons p run ih =>
    cases h with
    | char unread rest => exact ih rest
    | code element ends rest => exact ih rest
    | token found rest => exact ih rest

theorem dividedAtTokens_run {front : Text} {behindTag : Bool} (h : ∀ p ∈ run, p.isGap = true)
    (before ps : List Part) : dividedAtTokens r front behindTag before (run ++ ps) =
      dividedAtTokens r front behindTag (before ++ run) ps := by
  induction run generalizing before with
  | nil => simp
  | cons p run ih =>
    rw [List.forall_mem_cons] at h
    rw [List.cons_append, dividedAtTokens, if_pos h.1, ih h.2, List.append_assoc]
    rfl

section
variable {swallows : Bool} {blanks : Text} {p : Part}

theorem Closes.takes (h : Closes swallows run [] (some p)) (hcut : cut run ≠ []) :
    takesBlanks swallows run p = true := by
  have hrun : run ≠ [] := fun hnil => hcut (by rw [hnil]; rfl)
  rw [takesBlanks, Bool.or_eq_true, Bool.and_eq_true, Bool.and_eq_true]
  rcases h.closed rfl with hnil | htag | hboth
  · exact absurd hnil hrun
  · cases hlast : (run.dropWhile Part.isToken).any Part.isToken with
    | true => exact .inl ⟨htag, rfl⟩
    | false =>
      right
      constructor
      · by_contra hswallows
        exact hcut (h.stays (Bool.eq_false_iff.mpr hswallows) hlast).symm
      · cases run with
        | nil => exact absurd rfl hrun
        | cons q run =>
          by_contra hfirst
          have hq : q.isToken = false := by simpa using hfirst
          rw [List.dropWhile_cons_of_neg (by simp [hq])] at hlast
          exact hrun (h.untouched hlast)
  · exact .inr hboth

/-- What follows a run is read alike, whether all its blanks stay or not. -/
theorem Closes.region (h : Closes swallows run blanks (some p)) (hr : swallows = true → r.settled = r)
    (hp : p.startsTag = true → ∃ w, p.kept = '<' :: w) :
    (r.run blanks).run p.kept = (r.run (cut run)).run p.kept ∧
      (r.run blanks).shown p.kept = (r.run (cut run)).shown p.kept := by
  by_cases hcut : cut run = []
  · rw [hcut, h.empty ((cut_eq_nil_iff h.gaps).mp hcut)]
    exact ⟨rfl, rfl⟩
  rw [Region.run_blanks (cut_gaps h.gaps) hcut]
  by_cases hblanks : blanks = []
  · subst hblanks
    change r.run p.kept = _ ∧ r.shown p.kept = _
    rcases Bool.or_eq_true_iff.mp (h.takes hcut) with htag | hswallows
    · obtain ⟨w, hw⟩ := hp (Bool.and_eq_true_iff.mp htag).1
      rw [hw, Region.run, Region.run, List.foldl_cons, List.foldl_cons, Region.shown, Region.shown,
        if_neg (by simp), if_neg (by simp), Region.settled_step_lt]
      exact ⟨rfl, rfl⟩
    · rw [hr (Bool.and_eq_true_iff.mp hswallows).1]
      exact ⟨rfl, rfl⟩
  · rw [Region.run_blanks h.blank hblanks]
    exact ⟨rfl, rfl⟩

theorem Closes.shown_empty (h : Closes swallows run blanks (some p))
    (hgap : r.shown (cut run) = []) : r.shown blanks = [] := by
  by_cases hr : r = .text
  · subst hr
    have hlt : '<' ∉ cut run := fun hmem => absurd (cut_gaps h.gaps '<' hmem) (by decide)
    rw [Region.shown_text hlt] at hgap
    rw [h.empty ((cut_eq_nil_iff h.gaps).mp hgap)]
    rfl
  · exact Region.shown_of_ne hr h.blank

theorem Closes.eq_nil (h : Closes swallows run blanks (some p)) (hblanks : r.shown blanks = [])
    (hgap : r.shown (cut run) ≠ []) : blanks = [] := by
  obtain rfl : r = .text := by
    by_contra hr
    exact hgap (Region.shown_of_ne hr (cut_gaps h.gaps))
  have hlt : '<' ∉ blanks := fun hmem => absurd (h.blank '<' hmem) (by decide)
  rwa [Region.shown_text hlt] at hblanks

end

theorem swallowsBlanks_solid (hne : s ≠ []) (hsolid : EndsSolid s) :
    swallowsBlanks s = (s.getLast? == some '>') := by
  have hlast := List.getLast?_eq_getLast_of_ne_nil hne
  have hblank := hsolid _ hlast
  simp [swallowsBlanks, hlast, hblank, hne]

theorem settled_of_endsTag {p : Part} (h : p.endsTag = true) :
    (r.run p.kept).settled = r.run p.kept := by
  obtain ⟨w, hw⟩ := List.getLast?_eq_some_iff.mp (beq_iff_eq.mp h)
  rw [hw, Region.run_append]
  exact Region.step_gt_settled _

/-- Where no token takes all blanks along between two words, the words stay the same when the tokens
are gone. In front of the parts `front` is shown, and `a` ends with no word if it does not. -/
theorem Remains.words {swallows free : Bool} {a front : Text} (h : Remains swallows ps t)
    (hcovers : Covers free s ps) (hr : swallows = true → r.settled = r)
    (hdivided : dividedAtTokens r front swallows [] ps = true)
    (ha : endsApart front = true → endsApart a = true) :
    Text.words (a ++ r.shown t) = Text.words (a ++ r.shown (cut ps)) := by
  induction h generalizing free s r a front with
  | done closes =>
    rw [Text.words_append_blank (shown_blanks closes.blank),
      Text.words_append_blank (shown_blanks (cut_gaps closes.gaps))]
  | @next swallows run ps blanks t p closes solid rest ih =>
    obtain ⟨_, _, hcovers'⟩ := hcovers.behind
    obtain ⟨_, _, hcovers''⟩ := @Covers.behind _ [p] ps _ hcovers'
    obtain ⟨hne, hsolid⟩ := endsSolid_kept hcovers' solid
    obtain ⟨hregion, hshown⟩ := closes.region hr hcovers'.startsTag
    have hswallows : swallowsBlanks p.kept = p.endsTag := swallowsBlanks_solid hne hsolid
    rw [dividedAtTokens_run closes.gaps, dividedAtTokens, if_neg (by simp [solid]),
      Bool.and_eq_true, List.nil_append] at hdivided
    obtain ⟨hhere, hbehind⟩ := hdivided
    have hback : cut (p :: ps) = p.kept ++ cut ps := rfl
    rw [hback, Region.shown_append] at hhere
    have hlost : r.shown blanks = [] → r.shown (cut run) ≠ [] →
        takesBlanks swallows run p = true := by
      intro hnil hgap
      obtain rfl := closes.eq_nil hnil hgap
      exact closes.takes fun hcut => hgap (by rw [hcut]; rfl)
    -- the blanks that are counted in `front` are in `a` too
    have hends : endsApart (front ++ if takesBlanks swallows run p then [] else r.shown (cut run)) =
        true → endsApart (a ++ r.shown blanks) = true := by
      intro hfront
      by_cases hb : r.shown blanks = []
      · rw [hb, List.append_nil]
        refine ha ?_
        by_cases hg : r.shown (cut run) = []
        · simpa [hg] using hfront
        · simpa [hlost hb hg] using hfront
      · rw [endsApart_append hb]
        exact endsApart_blanks (shown_blanks closes.blank)
    have hrest := ih hcovers'' (fun hend => settled_of_endsTag (hswallows ▸ hend))
      (hswallows ▸ hbehind) (endsApart_mono hends _)
    have hleft : a ++ r.shown (blanks ++ p.kept ++ t) = a ++ r.shown blanks ++
        (r.run (cut run)).shown p.kept ++ ((r.run (cut run)).run p.kept).shown t := by
      simp only [Region.shown_append, hregion, hshown, List.append_assoc]
    have hright : a ++ r.shown (cut (run ++ p :: ps)) = a ++ (r.shown (cut run) ++
        ((r.run (cut run)).shown p.kept ++ ((r.run (cut run)).run p.kept).shown (cut ps))) := by
      simp only [cut_append, hback, Region.shown_append]
    rw [hleft, hrest, hright, List.append_assoc, List.append_assoc]
    refine words_gap (shown_blanks closes.blank) (shown_blanks (cut_gaps closes.gaps))
      closes.shown_empty fun hnil hgap => ?_
    simp only [hlost hnil hgap, Bool.not_true, Bool.false_or, Bool.or_eq_true,
      List.isEmpty_iff, hgap, false_or] at hhere
    exact hhere.imp_left ha

/-! Comments. -/

theorem text_of_blankCommentNext {p : Chunk} {rest : List Chunk}
    (h : blankCommentNext (p :: rest) = true) :
    Region.text.run p.text = .text ∧ ∀ c ∈ Region.text.shown p.text, Text.isBlank c = true := by
  cases p with
  | char c =>
    have hc : ∀ d ∈ [c], Text.isBlank d = true := by
      simpa using (Bool.and_eq_true_iff.mp h).1
    exact ⟨Region.run_settled (r := .text) hc, shown_blanks hc⟩
  | comment inside =>
    have hinside : ∀ c ∈ inside, Text.isBlank c = true := Text.isAllBlank_iff.mp h
    have hrun : Region.comment.run inside = .comment :=
      Region.run_settled (r := .comment) hinside
    have hnone : Region.comment.shown inside = [] := Region.shown_of_ne (by decide) hinside
    have hstart : Region.text.run commentStart = .comment := by decide
    have hopening : Region.text.shown commentStart = [] := by decide
    have hend : Region.comment.shown commentEnd = [] := by decide
    rw [Chunk.text, Region.run_append, Region.run_append, hstart, hrun, Region.shown_append,
      Region.shown_append, Region.run_append, hstart, hrun, hopening, hnone, hend]
    exact ⟨by decide, by simp⟩

theorem words_withoutBlankComments {a front : Text} {cs : List Chunk}
    (h : dividedAtComments r front cs = true) (ha : endsApart front = true → endsApart a = true) :
    Text.words (a ++ r.shown (withoutBlankComments cs)) =
      Text.words (a ++ r.shown (cs.flatMap Chunk.text)) := by
  induction cs generalizing r a front with
  | nil => rfl
  | cons p cs ih =>
    rw [dividedAtComments] at h
    rw [withoutBlankComments, List.flatMap_cons, Region.shown_append]
    by_cases hnext : blankCommentNext (p :: cs) = true
    · rw [if_pos hnext] at h ⊢
      simp only [Bool.and_eq_true, Bool.or_eq_true, beq_iff_eq, List.isEmpty_iff] at h
      obtain ⟨⟨rfl, hhere⟩, hbehind⟩ := h
      obtain ⟨hrun, hblank⟩ := text_of_blankCommentNext hnext
      rw [ih hbehind ha, hrun]
      rcases hhere with (hnone | hfront) | hopens
      · rw [hnone, List.nil_append]
      · exact words_without hblank (.inl (ha hfront))
      · exact words_without hblank (.inr hopens)
    · rw [if_neg hnext] at h ⊢
      rw [Region.shown_append, ← List.append_assoc, ← List.append_assoc]
      exact ih h (endsApart_mono ha _)

/-- Stripping glues no words together where some blanks stay of those that divide words, at the
tokens and at the comments that are left blank. -/
theorem strip_keeps_words {f : Text} (h : staysDivided f = true) :
    visibleWords (strip f) = visibleWords (cut (parts f)) := by
  by_cases hfound : (gaps (parts f)).2 = []
  · rw [strip, extract_of_gaps hfound, cut_of_gaps hfound]
  · have hsome : (places f).isEmpty = false := by
      rw [places_eq]
      cases htoks : (gaps (parts f)).2 with
      | nil => exact absurd htoks hfound
      | cons t toks => rfl
    simp only [staysDivided, hsome, Bool.false_or, Bool.and_eq_true, List.all_eq_true] at h
    obtain ⟨⟨htokens, hplain⟩, hcomments⟩ := h
    have hcut := (remains_parts f).words (a := []) (covers_parts f) (fun _ => rfl) htokens id
    have hgone := words_withoutBlankComments (a := []) hcomments id
    rw [chunks_text] at hgone
    rw [strip_of_gaps hfound, dropEmptyComments_eq hplain, visibleWords, visibleWords]
    exact hgone.trans hcut

theorem strip_keeps_words_between :
    let f := BlockKind.wrap .paragraph [.text "@tag=a ".toList, .start .emphasis,
      .text "Which".toList, .stop .emphasis, .text " @shuffle=no one, ".toList,
      .code "@a=b".toList, .text " or ".toList, .inlineHtml "<!-- @c=d -->".toList,
      .text " other? @multi=yes".toList]
    staysDivided f = true ∧
      strip f = "<p><em>Which</em> one, <code>@a=b</code> or other?</p>".toList ∧
      visibleWords (strip f) = visibleWords (cut (parts f)) := by
  intro f
  have hdivided : staysDivided f = true := by decide +kernel
  exact ⟨hdivided, by decide +kernel, strip_keeps_words hdivided⟩

/-- In front of an element a directive takes the blanks along that divide two words. -/
theorem strip_glues_words :
    let f := BlockKind.wrap .paragraph [.text "Which @shuffle=no ".toList, .start .emphasis,
      .text "one".toList, .stop .emphasis, .text "?".toList]
    tokensOutside false (parts f) = true ∧
      strip f = "<p>Which<em>one</em>?</p>".toList ∧
      visibleWords (strip f) = ["Whichone?".toList] ∧
      visibleWords (cut (parts f)) = ["Which".toList, "one?".toList] := by
  decide +kernel

end Directive
end Quizdown
