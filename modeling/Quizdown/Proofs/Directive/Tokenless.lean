import Quizdown.Proofs.Directive.Gaps

/-! A text in which no token is read, and that closing the gaps behind tokens leaves such a text. -/
set_option autoImplicit false

namespace Quizdown
namespace Directive

/-- No `=` stands between the end of a comment and the next blank or `<`. -/
def commentsApart : Text → Bool
  | [] => true
  | c :: s =>
    (Text.stripPrefix? commentEnd (c :: s)).all (fun after => !decide (Assigns after)) &&
      commentsApart s

theorem commentsApart_cons {c : Char} {s : Text} : commentsApart (c :: s) = true ↔
    (∀ after, c :: s = commentEnd ++ after → ¬ Assigns after) ∧ commentsApart s = true := by
  simp [commentsApart, Option.all_eq_true, Text.stripPrefix?_eq_some_iff]

def Part.isPlain : Part → Bool
  | code raw => raw.count '<' == 2
  | _ => true

/-- Nothing in the fragment is read as a token. -/
inductive Tokenless : Bool → Text → Prop
  | nil {free : Bool} : Tokenless free []
  | char {free : Bool} {c : Char} {s : Text} (unread : free = true → read? (c :: s) = none)
      (rest : Tokenless (isLead c) s) : Tokenless free (c :: s)
  | code {free : Bool} {w s : Text} (element : IsElement ('<' :: 'c' :: w ++ codeEnd))
      (plain : '<' ∉ w) (rest : Tokenless true s) : Tokenless free ('<' :: 'c' :: w ++ codeEnd ++ s)

namespace Tokenless

theorem weaken {free : Bool} {s : Text} (h : Tokenless true s) : Tokenless free s := by
  cases h with
  | nil => exact .nil
  | char unread rest => exact .char (fun _ => unread rfl) rest
  | code element plain rest => exact .code element plain rest

theorem tail {free : Bool} {c : Char} {s : Text} (h : Tokenless free (c :: s))
    (hc : c = '<' → s.head? ≠ some 'c') : Tokenless (isLead c) s := by
  cases h with
  | char unread rest => exact rest
  | code element plain rest => simp at hc

theorem cons {free : Bool} {c : Char} {s : Text} (hc : ¬ Assigns (c :: s))
    (h : Tokenless (isLead c) s) : Tokenless free (c :: s) := by
  refine .char (fun _ => ?_) h
  by_contra hread
  exact hc (assigns_of_isSome_read? (Option.isSome_iff_ne_none.mpr hread))

theorem append_blank {free : Bool} {w s : Text} (hw : ∀ c ∈ w, Text.isBlank c = true)
    (h : Tokenless true s) : Tokenless free (w ++ s) := by
  induction w generalizing free with
  | nil => exact h.weaken
  | cons c w ih =>
    have hnot : ¬ Assigns (c :: (w ++ s)) :=
      not_assigns_of_head (by simp [isValueChar, hw c (by simp)])
    exact cons hnot (ih fun d hd => hw d (by simp [hd]))

theorem skip {free : Bool} {w s : Text} (h : Tokenless free (w ++ s)) (hw : '<' ∉ w) :
    ∃ free', Tokenless free' s := by
  induction w generalizing free with
  | nil => exact ⟨free, h⟩
  | cons c w ih =>
    simp only [List.mem_cons, not_or] at hw
    exact ih (h.tail fun hc => absurd hc.symm hw.1) hw.2

end Tokenless

theorem codeEnd_behind {w s x t : Text} (plain : '<' ∉ w)
    (h : '<' :: 'c' :: w ++ codeEnd ++ s = x ++ codeEnd ++ t) :
    s = t ∨ ∃ z, s = z ++ codeEnd ++ t := by
  have htext : ∀ u, codeEnd ++ u = '<' :: ("/code>".toList ++ u) := fun _ => rfl
  rw [List.append_assoc, List.append_assoc, htext, htext] at h
  cases x with
  | nil =>
    have hsecond := (List.cons.inj (List.cons.inj h).2).1
    exact absurd hsecond (by decide)
  | cons d x =>
    obtain ⟨z, -, hz⟩ := Text.split_behind (c := '<') (w := 'c' :: w) (by simpa using plain)
      (List.cons.inj h).2
    cases z with
    | nil => exact .inl (List.append_cancel_left (List.cons.inj hz).2)
    | cons d z =>
      obtain ⟨z', -, hz'⟩ := Text.split_behind (c := '<') (by decide) (List.cons.inj hz).2
      exact .inr ⟨z', by rw [hz', List.append_assoc, htext]⟩

namespace Tokenless

theorem after_codeEnd {free : Bool} {s x t : Text} (h : Tokenless free s)
    (hs : s = x ++ codeEnd ++ t) : Tokenless true t := by
  induction h generalizing x with
  | nil => simp [codeEnd_eq] at hs
  | @char free c s unread rest ih =>
    cases x with
    | cons d x => exact ih (List.cons.inj hs).2
    | nil =>
      obtain rfl : s = "/code".toList ++ ('>' :: t) := (List.cons.inj hs).2
      obtain ⟨free', h'⟩ := rest.skip (by decide)
      exact h'.tail fun hc => absurd hc (by decide)
  | @code free w s element plain rest ih =>
    rcases codeEnd_behind plain hs with rfl | ⟨z, rfl⟩
    · exact rest
    · exact ih rfl

theorem gaps_partsFrom {fuel : Nat} {free : Bool} {s : Text} (h : Tokenless free s) :
    (gaps (partsFrom free fuel s)).2 = [] := by
  induction fuel generalizing free s with
  | zero => rfl
  | succ fuel ih =>
    cases s with
    | nil => rfl
    | cons c s =>
      rw [partsFrom]
      cases hcode : codeElement? (c :: s) with
      | some found =>
        obtain ⟨raw, rest⟩ := found
        -- an element may have come together here; what matters is where it ends
        obtain ⟨htext, ⟨y, rfl⟩, -⟩ := codeElement?_eq_some hcode
        simpa [gaps] using ih (h.after_codeEnd htext)
      | none =>
        cases h with
        | code element plain rest =>
          cases hcode.symm.trans (element _)
        | char unread rest =>
          have hread : (if free then read? (c :: s) else none) = none := by
            cases free with
            | false => rfl
            | true => exact unread rfl
          simpa [hread, gaps] using ih rest

end Tokenless

theorem extract_of_gaps {f : Text} (h : (gaps (parts f)).2 = []) : extract f = ⟨[], f⟩ := by
  rw [extract]
  split
  · rfl
  · rename_i before tokens hsome hgaps
    rw [hgaps] at h
    exact absurd h hsome

theorem strip_of_gaps {f : Text} (h : (gaps (parts f)).2 ≠ []) :
    strip f = dropEmptyComments (tokensGone f) := by
  rw [strip, extract, tokensGone]
  split
  · rename_i before hgaps
    exact absurd (by rw [hgaps]) h
  · rename_i before tokens hne hgaps
    rw [hgaps]

/-! Assignments and comment ends in what remains. -/

theorem commentsApart_of_append {w s : Text} (h : commentsApart (w ++ s) = true) :
    commentsApart s = true := by
  induction w with
  | nil => exact h
  | cons c w ih => exact ih (commentsApart_cons.mp h).2

theorem not_assigns_of_commentEnd {s : Text} (h : commentsApart (commentEnd ++ s) = true) :
    ¬ Assigns s := (commentsApart_cons.mp h).1 s rfl

theorem commentsApart_append {w s : Text} (hw : '-' ∉ w) (h : commentsApart s = true) :
    commentsApart (w ++ s) = true := by
  induction w with
  | nil => exact h
  | cons c w ih =>
    simp only [List.mem_cons, not_or] at hw
    refine commentsApart_cons.mpr ⟨fun after htext => ?_, ih hw.2⟩
    exact absurd (List.cons.inj htext).1.symm hw.1

theorem not_assigns_of_eq {s after : Text} (hs : ¬ Assigns s) (htext : s = commentEnd ++ after) :
    ¬ Assigns after := by
  intro h
  rw [htext, assigns_append (List.all_eq_true.mp rfl)] at hs
  exact hs (.inr h)

theorem commentsApart_tail {w s : Text} (hw : ∀ c ∈ w, isValueChar c = true) (heq : '=' ∉ w)
    (hs : ¬ Assigns s) (h : commentsApart s = true) : commentsApart (w ++ s) = true := by
  induction w with
  | nil => exact h
  | cons c w ih =>
    have hnot : ¬ Assigns (c :: w ++ s) := by
      rw [assigns_append hw]
      tauto
    refine commentsApart_cons.mpr ⟨fun after htext => not_assigns_of_eq hnot htext, ih ?_ ?_⟩
    · exact fun d hd => hw d (by simp [hd])
    · exact fun hmem => heq (by simp [hmem])

theorem assigns_lt {z s t : Text} : Assigns (z ++ '<' :: s) ↔ Assigns (z ++ '<' :: t) := by
  induction z with
  | nil => simp [assigns_cons, isValueChar]
  | cons c z ih => simp only [List.cons_append, assigns_cons, ih]

theorem commentsApart_lt {x s t : Text} (h : commentsApart (x ++ '<' :: s) = true)
    (ht : commentsApart t = true) : commentsApart (x ++ '<' :: t) = true := by
  induction x with
  | nil =>
    refine commentsApart_cons.mpr ⟨fun after htext => ?_, ht⟩
    exact absurd (List.cons.inj htext).1 (by decide)
  | cons c x ih =>
    obtain ⟨hapart, hrest⟩ := commentsApart_cons.mp h
    refine commentsApart_cons.mpr ⟨fun after htext => ?_, ih hrest⟩
    obtain ⟨z, hz, rfl⟩ := Text.split_behind (c := '<') (x := c :: x) (by decide) htext.symm
    have hbefore : c :: (x ++ '<' :: s) = commentEnd ++ (z ++ '<' :: s) := by
      rw [← List.cons_append, hz, List.append_assoc]
    exact fun hassigns => hapart _ hbefore (assigns_lt.mp hassigns)

theorem Token.assigns {s s' : Text} {d : Directive} {tail : Text} (h : Token s d tail s') :
    Assigns s := by
  refine assigns_of_isSome_read? (read?_isSome_iff.mpr ⟨d.key, d.value ++ tail ++ s', ?_, h.key⟩)
  simp [h.text, token]

/-- The cut end of a value holds no assignment if comments stand apart. -/
theorem Token.eq_not_mem_tail {s s' : Text} {d : Directive} {tail : Text} (h : Token s d tail s')
    (hs : commentsApart s = true) : '=' ∉ tail := by
  rcases h.tail with rfl | ⟨w, rfl⟩
  · simp
  · have htext := h.text
    rw [List.append_assoc, List.append_assoc] at htext
    rw [htext] at hs
    have hnot := not_assigns_of_commentEnd (commentsApart_of_append hs)
    have hw : ∀ c ∈ w, isValueChar c = true := fun c hc => h.value c (by simp [hc])
    rw [assigns_append hw, not_or] at hnot
    rw [List.mem_append, not_or]
    exact ⟨by decide, hnot.1⟩

def Readable (free : Bool) (s : Text) : Prop := free = true ∨ s.head?.any isValueChar = false

theorem Covers.run {free : Bool} {s : Text} {run ps : List Part} (h : Covers free s (run ++ ps))
    (hrun : ∀ p ∈ run, p.isGap = true) : ∃ free' w s', s = w ++ s' ∧ Covers free' s' ps ∧
      (run = [] → free' = free ∧ w = []) ∧ (run ≠ [] → Readable free' s') := by
  induction run generalizing free s with
  | nil => exact ⟨free, [], s, rfl, h, fun _ => ⟨rfl, rfl⟩, fun hne => absurd rfl hne⟩
  | cons p run ih =>
    have hp : p.isGap = true := hrun p (by simp)
    obtain ⟨free₁, w₁, s₁, rfl, h₁, hreadable⟩ : ∃ free₁ w₁ s₁, s = w₁ ++ s₁ ∧
        Covers free₁ s₁ (run ++ ps) ∧ Readable free₁ s₁ := by
      cases h with
      | @char _ c s _ unread rest =>
        have hlead : isLead c = true := by
          simp only [isLead, show Text.isBlank c = true from hp, Bool.true_or]
        exact ⟨isLead c, [c], s, rfl, rest, .inl hlead⟩
      | code element ends rest => cases hp
      | token found rest => exact ⟨false, _, _, found.text, rest, .inr found.rest⟩
    obtain ⟨free', w, s', rfl, h', hempty, hsome⟩ := ih h₁ fun q hq => hrun q (by simp [hq])
    refine ⟨free', w₁ ++ w, s', by simp, h', by simp, fun _ => ?_⟩
    cases run with
    | nil =>
      obtain ⟨rfl, rfl⟩ := hempty rfl
      exact hreadable
    | cons q run => exact hsome (by simp)

theorem takeWhile_blank {blanks t : Text} (h : ∀ c ∈ blanks, Text.isBlank c = true)
    (hne : blanks ≠ []) : (blanks ++ t).takeWhile isValueChar = [] := by
  obtain ⟨c, blanks, rfl⟩ := List.exists_cons_of_ne_nil hne
  have hc : isValueChar c = false := by simp [isValueChar, h c (by simp)]
  simp [hc]

theorem Covers.startsTag {free : Bool} {s : Text} {p : Part} {ps : List Part}
    (h : Covers free s (p :: ps)) (hp : p.startsTag = true) : ∃ w, p.kept = '<' :: w := by
  cases h with
  | @char _ c _ _ unread rest =>
    obtain rfl : c = '<' := by simpa [Part.startsTag] using hp
    exact ⟨[], rfl⟩
  | code element ends rest =>
    obtain ⟨y, rfl⟩ := ends
    exact ⟨_, rfl⟩
  | token found rest => cases hp

theorem Closes.front {swallows free : Bool} {run ps : List Part} {blanks s : Text}
    {next : Option Part} (h : Closes swallows run blanks next) (hcovers : Covers free s (run ++ ps))
    (hs : ¬ Assigns s) : (run = [] ∧ blanks = []) ∨
      (s.takeWhile isValueChar = [] ∧ (blanks = [] → next.all Part.startsTag = true)) := by
  cases run with
  | nil => exact .inl ⟨rfl, h.empty (by simp)⟩
  | cons q run =>
    have hq : q.isGap = true := h.gaps q (by simp)
    cases hcovers with
    | @char _ c s _ unread rest =>
      refine .inr ⟨by simp [isValueChar, show Text.isBlank c = true from hq], fun hnil => ?_⟩
      rcases h.closed hnil with hrun | htag | ⟨-, htoken⟩
      · cases hrun
      · exact htag
      · cases htoken
    | code element ends rest => cases hq
    | token found rest => exact absurd found.assigns hs

namespace Remains

theorem takeWhile_eq {swallows free : Bool} {ps : List Part} {s t : Text}
    (h : Remains swallows ps t) (hcovers : Covers free s ps) (hs : ¬ Assigns s) :
    t.takeWhile isValueChar = s.takeWhile isValueChar := by
  induction h generalizing free s with
  | @done swallows run blanks closes =>
    have hcovers' : Covers free s (run ++ []) := by simpa using hcovers
    rcases closes.front hcovers' hs with ⟨rfl, rfl⟩ | ⟨hrun, -⟩
    · cases hcovers
      rfl
    · rw [hrun]
      cases blanks with
      | nil => rfl
      | cons c blanks => simpa using takeWhile_blank (t := []) closes.blank (by simp)
  | @next swallows run ps blanks t p closes solid rest ih =>
    rcases closes.front hcovers hs with ⟨rfl, rfl⟩ | ⟨hrun, htag⟩
    · cases hcovers with
      | @char _ c s _ unread hrest =>
        rw [assigns_cons] at hs
        simp only [Part.kept, List.nil_append, List.singleton_append, List.takeWhile_cons]
        split
        · rw [ih hrest (by tauto)]
        · rfl
      | code element ends hrest =>
        obtain ⟨y, rfl⟩ := ends
        rfl
      | token found hrest => exact absurd found.assigns hs
    · rw [hrun, List.append_assoc]
      by_cases hnil : blanks = []
      · obtain ⟨_, _, _, -, hp, -, -⟩ := hcovers.run closes.gaps
        obtain ⟨w, hw⟩ := hp.startsTag (by simpa using htag hnil)
        rw [hnil, hw]
        rfl
      · exact takeWhile_blank closes.blank hnil

theorem not_assigns {swallows free : Bool} {ps : List Part} {s t : Text}
    (h : Remains swallows ps t) (hcovers : Covers free s ps) (hs : ¬ Assigns s) : ¬ Assigns t := by
  rw [Assigns, h.takeWhile_eq hcovers hs]
  exact hs

theorem head {free : Bool} {ps : List Part} {s t : Text} {c : Char} (h : Remains false ps (c :: t))
    (hcovers : Covers free s ps) (hc : isValueChar c = true)
    (hdash : c = '-' → t.head? ≠ some '-') : ∃ free' s' ps', s = c :: s' ∧ Covers free' s' ps' ∧
      Remains (swallowsBlanks [c]) ps' t := by
  have hblank := isBlank_of_isValueChar hc
  generalize htext : c :: t = u at h
  cases h with
  | done closes =>
    have hall := closes.blank c (by simp [← htext])
    simp [hblank] at hall
  | @next _ run ps blanks t' p closes solid rest =>
    obtain rfl : blanks = [] := by
      cases blanks with
      | nil => rfl
      | cons d blanks =>
        have hall := closes.blank d (by simp)
        rw [← (List.cons.inj htext).1, hblank] at hall
        cases hall
    rw [List.nil_append] at htext
    obtain ⟨free', w, s', rfl, hp, hempty, -⟩ := hcovers.run closes.gaps
    -- neither a blank nor a tag stands here, so no gap was closed in front
    have htag : p.startsTag = false := by
      by_contra hp'
      obtain ⟨w, hw⟩ := hp.startsTag (by simpa using hp')
      rw [hw] at htext
      rw [(List.cons.inj htext).1] at hc
      exact absurd hc (by decide)
    obtain rfl : run = [] := by
      rcases closes.closed rfl with hrun | hp' | ⟨hfalse, -⟩
      · exact hrun
      · simp [htag] at hp'
      · cases hfalse
    obtain ⟨rfl, rfl⟩ := hempty rfl
    cases hp with
    | @char _ d s _ unread hrest =>
      obtain ⟨rfl, rfl⟩ := List.cons.inj htext
      exact ⟨_, s, ps, rfl, hrest, rest⟩
    | code element ends hrest => cases htag
    | token found hrest =>
      rcases found.tail with rfl | ⟨w, rfl⟩
      · cases solid
      · obtain ⟨rfl, rfl⟩ := List.cons.inj htext
        exact absurd rfl (hdash rfl)

theorem key {free : Bool} {ps : List Part} {s key after : Text}
    (h : Remains false ps (key ++ '=' :: after)) (hcovers : Covers free s ps)
    (hkey : ∀ c ∈ key, isKeyChar c = true) : ∃ after', s = key ++ '=' :: after' := by
  induction key generalizing free ps s with
  | nil =>
    obtain ⟨_, s', _, rfl, -, -⟩ := h.head hcovers (by decide) fun h => absurd h (by decide)
    exact ⟨s', rfl⟩
  | cons c key ih =>
    obtain ⟨hc, hdash, hgt⟩ := isValueChar_of_isKeyChar (hkey c (by simp))
    obtain ⟨free', s', ps', rfl, hcovers', h'⟩ := h.head hcovers hc fun h => absurd h hdash
    have hswallows : swallowsBlanks [c] = false := by
      simp [swallowsBlanks, isBlank_of_isValueChar hc, hgt]
    rw [hswallows] at h'
    obtain ⟨after', rfl⟩ := ih h' hcovers' fun d hd => hkey d (by simp [hd])
    exact ⟨after', rfl⟩

theorem apart {swallows free : Bool} {ps : List Part} {s t : Text}
    (h : Remains swallows ps t) (hcovers : Covers free s ps) (hs : commentsApart s = true) :
    commentsApart t = true := by
  have hdash : ∀ blanks : Text, (∀ c ∈ blanks, Text.isBlank c = true) → '-' ∉ blanks :=
    fun blanks hall hmem => absurd (hall '-' hmem) (by decide)
  induction h generalizing free s with
  | @done swallows run blanks closes =>
    simpa using commentsApart_append (s := []) (hdash blanks closes.blank) rfl
  | @next swallows run ps blanks t p closes solid rest ih =>
    obtain ⟨free', w, s', rfl, hp, -, -⟩ := hcovers.run closes.gaps
    have hs' := commentsApart_of_append hs
    rw [List.append_assoc]
    refine commentsApart_append (hdash blanks closes.blank) ?_
    cases hp with
    | @char _ c s _ unread hrest =>
      refine commentsApart_cons.mpr ⟨fun after htext => ?_, ih hrest (commentsApart_cons.mp hs').2⟩
      obtain ⟨rfl, rfl⟩ : c = '-' ∧ t = '-' :: '>' :: after := by simpa [commentEnd_eq] using htext
      -- the whole comment end was there before
      obtain ⟨_, s₁, ps₁, rfl, hcovers₁, h₁⟩ := rest.head hrest (by decide) (by simp)
      obtain ⟨_, s₂, ps₂, rfl, hcovers₂, h₂⟩ := h₁.head hcovers₁ (by decide) (by simp)
      exact h₂.not_assigns hcovers₂ (not_assigns_of_commentEnd hs')
    | @code _ raw s _ element ends hrest =>
      have ht := ih hrest (commentsApart_of_append hs')
      obtain ⟨y, rfl⟩ := ends
      have htext : ∀ u, "<code".toList ++ y ++ codeEnd ++ u =
          ("<code".toList ++ y) ++ '<' :: ("/code>".toList ++ u) := by simp [codeEnd_eq]
      rw [htext] at hs'
      rw [Part.kept, htext]
      exact commentsApart_lt hs' (commentsApart_append (by decide) ht)
    | @token _ _ s d tail _ found hrest =>
      have heq := found.eq_not_mem_tail hs'
      rw [found.text] at hs'
      refine commentsApart_tail (fun c hc => found.value c (by simp [show c ∈ tail from hc])) heq ?_
        (ih hrest (commentsApart_of_append hs'))
      exact rest.not_assigns hrest (not_assigns_of_head found.rest)

end Remains

theorem exists_plain {raw y : Text} (ends : raw = "<code".toList ++ y ++ codeEnd)
    (plain : (Part.code raw).isPlain = true) :
    ∃ w, raw = '<' :: 'c' :: w ++ codeEnd ∧ '<' ∉ w := by
  refine ⟨"ode".toList ++ y, by simp [ends], ?_⟩
  have hcount : raw.count '<' = 2 := by simpa [Part.isPlain] using plain
  simpa [ends, codeEnd_eq, List.count_eq_zero] using hcount

namespace Tokenless

theorem append_tail {free : Bool} {w s : Text} (hw : ∀ c ∈ w, isValueChar c = true) (heq : '=' ∉ w)
    (hs : ¬ Assigns s) (h : Tokenless true s) : Tokenless free (w ++ s) := by
  induction w generalizing free with
  | nil => exact h.weaken
  | cons c w ih =>
    have hnot : ¬ Assigns (c :: w ++ s) := by
      rw [assigns_append hw]
      tauto
    refine cons hnot (ih ?_ ?_)
    · exact fun d hd => hw d (by simp [hd])
    · exact fun hmem => heq (by simp [hmem])

end Tokenless

/-- Where no token was read, none is read when the tokens around are gone. -/
theorem Remains.tokenless {swallows free free' : Bool} {ps : List Part} {s t : Text}
    (h : Remains swallows ps t) (hcovers : Covers free s ps) (hs : commentsApart s = true)
    (hplain : ∀ p ∈ ps, p.isPlain = true) (hfree : free' = true → Readable free s) :
    Tokenless free' t := by
  induction h generalizing free free' s with
  | @done swallows run blanks closes =>
    have hblanks : Tokenless free' (blanks ++ []) := .append_blank closes.blank .nil
    simpa using hblanks
  | @next swallows run ps blanks t p closes solid rest ih =>
    obtain ⟨free₁, w, s₁, rfl, hp, hempty, hsome⟩ := hcovers.run closes.gaps
    have hs₁ := commentsApart_of_append hs
    have hplain' : ∀ q ∈ ps, q.isPlain = true := fun q hq => hplain q (by simp [hq])
    -- the kept part, whatever the flag: only at its first character may a gap have been closed
    have hkept : ∀ free₂, (free₂ = true → Readable free₁ s₁) → Tokenless free₂ (p.kept ++ t) := by
      intro free₂ hfree₂
      cases hp with
      | @char _ c s _ unread hrest =>
        refine .char (fun hfree' => ?_)
          (ih hrest (commentsApart_cons.mp hs₁).2 hplain' fun hlead => .inl hlead)
        by_contra hread
        have hbefore : (read? (c :: s)).isSome := by
          refine isSome_read?_of_key (fun hc key after htext hkey => ?_)
            (Option.isSome_iff_ne_none.mpr hread)
          subst hc htext
          exact rest.key hrest hkey
        rcases hfree₂ hfree' with htrue | hhead
        · rw [unread htrue] at hbefore
          cases hbefore
        · exact not_assigns_of_head hhead (assigns_of_isSome_read? hbefore)
      | @code _ raw s _ element ends hrest =>
        obtain ⟨y, hy⟩ := ends
        obtain ⟨w, rfl, hw⟩ := exists_plain hy (hplain (.code raw) (by simp))
        exact .code element hw
          (ih hrest (commentsApart_of_append hs₁) hplain' fun _ => .inl rfl)
      | @token _ _ s d tail _ found hrest =>
        have heq := found.eq_not_mem_tail hs₁
        rw [found.text] at hs₁
        refine .append_tail (fun c hc => found.value c (by simp [show c ∈ tail from hc])) heq ?_ ?_
        · exact rest.not_assigns hrest (not_assigns_of_head found.rest)
        · exact ih hrest (commentsApart_of_append hs₁) hplain' fun _ => .inr found.rest
    rw [List.append_assoc]
    by_cases hnil : blanks = []
    · subst hnil
      refine hkept free' fun hfree' => ?_
      by_cases hrun : run = []
      · obtain ⟨rfl, rfl⟩ := hempty hrun
        exact hfree hfree'
      · exact hsome hrun
    · have hrun : run ≠ [] := fun hrun => hnil (closes.empty (by simp [hrun]))
      exact .append_blank closes.blank (hkept true fun _ => hsome hrun)

end Directive
end Quizdown
