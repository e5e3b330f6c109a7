import Quizdown.Proofs.Directive.Strip

/-!
The comments of a text, each from its opening to the first end behind it. Where none ends like a
blank comment, with another opening and blanks, exactly the blank ones are dropped, with the blanks
in front of them.
-/
set_option autoImplicit false

namespace Quizdown
namespace Directive

def commentStart : Text := "<!--".toList

def comment? (s : Text) : Option (Text × Text) :=
  (Text.stripPrefix? commentStart s).bind (Text.splitFirst? commentEnd)

inductive Chunk
  | char (c : Char)
  | comment (inside : Text)
deriving DecidableEq, Repr

def Chunk.text : Chunk → Text
  | char c => [c]
  | comment inside => commentStart ++ inside ++ commentEnd

/-- A comment does not end with a second opening and blanks, where an empty one would be read. -/
def Chunk.isPlain : Chunk → Bool
  | char _ => true
  | comment inside => !commentStart.isSuffixOf (Text.trimEnd inside)

def chunksFrom : Nat → Text → List Chunk
  | 0, _ => []
  | _, [] => []
  | fuel + 1, c :: s =>
    match comment? (c :: s) with
    | some (inside, rest) => .comment inside :: chunksFrom fuel rest
    | none => .char c :: chunksFrom fuel s

def chunks (s : Text) : List Chunk := chunksFrom s.length s

def blankCommentNext : List Chunk → Bool
  | [] => false
  | .char c :: rest => Text.isBlank c && blankCommentNext rest
  | .comment inside :: _ => Text.isAllBlank inside

/-- The text without the comments that hold only blanks, and without the blanks in front of them. -/
def withoutBlankComments : List Chunk → Text
  | [] => []
  | p :: rest =>
    if blankCommentNext (p :: rest) then withoutBlankComments rest
    else p.text ++ withoutBlankComments rest

variable {s rest inside : Text}

theorem comment?_eq_some_iff : comment? s = some (inside, rest) ↔
    s = commentStart ++ (inside ++ commentEnd ++ rest) ∧
      Text.splitFirst? commentEnd (inside ++ commentEnd ++ rest) = some (inside, rest) := by
  rw [comment?, Option.bind_eq_some_iff]
  constructor
  · rintro ⟨after, hstart, hend⟩
    have hafter := Text.splitFirst?_eq_some hend
    exact ⟨by rw [Text.stripPrefix?_eq_some_iff.mp hstart, ← hafter], hafter ▸ hend⟩
  · rintro ⟨rfl, hend⟩
    exact ⟨_, Text.stripPrefix?_append _ _, hend⟩

theorem length_comment? (h : comment? s = some (inside, rest)) : rest.length < s.length := by
  rw [(comment?_eq_some_iff.mp h).1]
  simp [commentStart, commentEnd_eq]
  omega

theorem splitFirst?_commentEnd (h : ∀ c ∈ inside, Text.isBlank c = true) :
    Text.splitFirst? commentEnd (inside ++ (commentEnd ++ rest)) = some (inside, rest) := by
  have hdash : '-' ∉ inside := fun hmem => absurd (h '-' hmem) (by decide)
  rw [commentEnd_eq, Text.splitFirst?_append_left hdash, Text.splitFirst?_append]
  simp

theorem not_suffix_of_isPlain {blanks : Text} (h : (Chunk.comment inside).isPlain = true)
    (hblanks : ∀ c ∈ blanks, Text.isBlank c = true) : ¬ commentStart ++ blanks <:+ inside := by
  rintro ⟨x, rfl⟩
  have hlast : ∀ c ∈ (x ++ commentStart).getLast?, Text.isBlank c = false := by
    intro c hc
    obtain rfl : '-' = c := by simpa [commentStart] using hc
    decide
  have hsuffix : commentStart.isSuffixOf (x ++ commentStart) = true :=
    List.isSuffixOf_iff_suffix.mpr (List.suffix_append x commentStart)
  rw [Chunk.isPlain, ← List.append_assoc, Text.trimEnd_append hlast hblanks, hsuffix] at h
  cases h

/-! The number of steps does not matter if it suffices. -/

theorem chunksFrom_congr {m n : Nat} (hm : s.length ≤ m) (hn : s.length ≤ n) :
    chunksFrom m s = chunksFrom n s := by
  induction m generalizing n s with
  | zero =>
    obtain rfl : s = [] := by simpa using hm
    cases n <;> rfl
  | succ m ih =>
    cases s with
    | nil => cases n <;> rfl
    | cons c s =>
      obtain ⟨n, rfl⟩ : ∃ k, n = k + 1 := Nat.exists_eq_succ_of_ne_zero (by simp at hn; omega)
      rw [chunksFrom, chunksFrom]
      cases hcomment : comment? (c :: s) with
      | none => exact congrArg _ (ih (by simpa using hm) (by simpa using hn))
      | some found =>
        have hlt := length_comment? hcomment
        exact congrArg _ (ih (by omega) (by omega))

theorem chunks_comment (h : comment? s = some (inside, rest)) :
    chunks s = .comment inside :: chunks rest := by
  have hlt := length_comment? h
  cases s with
  | nil => cases h
  | cons c s =>
    rw [chunks, List.length_cons, chunksFrom, h]
    exact congrArg _ (chunksFrom_congr (by simpa using Nat.lt_succ_iff.mp hlt) le_rfl)

theorem chunks_char {c : Char} (h : comment? (c :: s) = none) :
    chunks (c :: s) = .char c :: chunks s := by
  rw [chunks, List.length_cons, chunksFrom, h, chunks]

theorem chunks_text (s : Text) : (chunks s).flatMap Chunk.text = s := by
  induction hn : s.length using Nat.strong_induction_on generalizing s with
  | _ n ih =>
    cases s with
    | nil => rfl
    | cons c s =>
      cases hcomment : comment? (c :: s) with
      | some found =>
        obtain ⟨inside, rest⟩ := found
        have hlt := length_comment? hcomment
        rw [chunks_comment hcomment, List.flatMap_cons, ih rest.length (by omega) rest rfl,
          (comment?_eq_some_iff.mp hcomment).1, Chunk.text]
        simp
      | none =>
        rw [chunks_char hcomment, List.flatMap_cons, ih s.length (by simp [← hn]) s rfl]
        rfl

theorem dropEmptyCommentsFrom_congr {m n : Nat} (hm : s.length ≤ m) (hn : s.length ≤ n) :
    dropEmptyCommentsFrom m s = dropEmptyCommentsFrom n s := by
  induction m generalizing n s with
  | zero =>
    obtain rfl : s = [] := by simpa using hm
    cases n <;> rfl
  | succ m ih =>
    cases s with
    | nil => cases n <;> rfl
    | cons c s =>
      obtain ⟨n, rfl⟩ : ∃ k, n = k + 1 := Nat.exists_eq_succ_of_ne_zero (by simp at hn; omega)
      rw [dropEmptyCommentsFrom_cons, dropEmptyCommentsFrom_cons]
      cases hempty : emptyComment? (c :: s) with
      | none => exact congrArg _ (ih (by simpa using hm) (by simpa using hn))
      | some rest =>
        have hlt := length_emptyComment? hempty
        exact ih (by omega) (by omega)

theorem dropEmptyComments_of_empty (h : emptyComment? s = some rest) :
    dropEmptyComments s = dropEmptyComments rest := by
  have hlt := length_emptyComment? h
  cases s with
  | nil => cases hlt
  | cons c s =>
    rw [dropEmptyComments, List.length_cons, dropEmptyCommentsFrom_cons, h]
    exact dropEmptyCommentsFrom_congr (by simpa using Nat.lt_succ_iff.mp hlt) le_rfl

theorem dropEmptyComments_cons {c : Char} (h : emptyComment? (c :: s) = none) :
    dropEmptyComments (c :: s) = c :: dropEmptyComments s := by
  rw [dropEmptyComments, List.length_cons, dropEmptyCommentsFrom_cons, h, dropEmptyComments]

theorem dropEmptyComments_append {w : Text}
    (h : ∀ z, z <:+ w → z ≠ [] → emptyComment? (z ++ s) = none) :
    dropEmptyComments (w ++ s) = w ++ dropEmptyComments s := by
  induction w with
  | nil => rfl
  | cons c w ih =>
    have hrest := ih fun z hz hne => h z (hz.trans (List.suffix_cons c w)) hne
    have hhere : emptyComment? (c :: (w ++ s)) = none :=
      h (c :: w) (List.suffix_refl _) (List.cons_ne_nil c w)
    rw [List.cons_append, dropEmptyComments_cons hhere, hrest, List.cons_append]

/-! Empty comments are the blank ones. -/

theorem emptyComment?_blank {c : Char} (h : Text.isBlank c = true) :
    emptyComment? (c :: s) = emptyComment? s := by
  rw [emptyComment?, emptyComment?, Text.trimStart, Text.trimStart, List.dropWhile_cons_of_pos h]

theorem emptyComment?_of_comment (h : comment? s = some (inside, rest))
    (hblank : Text.isAllBlank inside = true) : emptyComment? s = some rest := by
  have hskip : Text.trimStart (inside ++ (commentEnd ++ rest)) = commentEnd ++ rest :=
    Text.trimStart_append (Text.isAllBlank_iff.mp hblank) (by simp [commentEnd_eq]; decide)
  rw [(comment?_eq_some_iff.mp h).1, List.append_assoc]
  change (Text.stripPrefix? commentStart (commentStart ++ _)).bind _ = _
  rw [Text.stripPrefix?_append, Option.bind_some, hskip, Text.stripPrefix?_append]

theorem comment?_of_emptyComment {c : Char} (h : emptyComment? (c :: s) = some rest)
    (hc : Text.isBlank c = false) :
    ∃ inside, comment? (c :: s) = some (inside, rest) ∧ Text.isAllBlank inside = true := by
  obtain ⟨before, inside, htext, hbefore, hinside⟩ := emptyComment?_eq_some h
  cases before with
  | cons d before =>
    obtain rfl := (List.cons.inj htext).1
    simp [hc] at hbefore
  | nil =>
    refine ⟨inside, comment?_eq_some_iff.mpr ⟨by rw [List.append_assoc]; exact htext, ?_⟩,
      Text.isAllBlank_iff.mpr hinside⟩
    rw [List.append_assoc, splitFirst?_commentEnd hinside]

theorem emptyComment?_eq {c : Char} (hc : Text.isBlank c = false) :
    emptyComment? (c :: s) = (comment? (c :: s)).bind fun found =>
      if Text.isAllBlank found.1 then some found.2 else none := by
  cases hempty : emptyComment? (c :: s) with
  | some rest =>
    obtain ⟨inside, hcomment, hblank⟩ := comment?_of_emptyComment hempty hc
    simp [hcomment, hblank]
  | none =>
    cases hcomment : comment? (c :: s) with
    | none => rfl
    | some found =>
      obtain ⟨inside, rest⟩ := found
      cases hblank : Text.isAllBlank inside with
      | false => simp [hblank]
      | true =>
        rw [emptyComment?_of_comment hcomment hblank] at hempty
        cases hempty

theorem head_of_comment {c : Char} (h : comment? (c :: s) = some (inside, rest)) :
    Text.isBlank c = false := by
  obtain rfl : c = '<' := (List.cons.inj (comment?_eq_some_iff.mp h).1).1
  decide

theorem isSome_emptyComment? (s : Text) :
    (emptyComment? s).isSome = blankCommentNext (chunks s) := by
  induction s with
  | nil => rfl
  | cons c s ih =>
    cases hcomment : comment? (c :: s) with
    | some found =>
      obtain ⟨inside, rest⟩ := found
      rw [chunks_comment hcomment, blankCommentNext, emptyComment?_eq (head_of_comment hcomment),
        hcomment, Option.bind_some]
      cases Text.isAllBlank inside <;> simp
    | none =>
      rw [chunks_char hcomment, blankCommentNext, ← ih]
      cases hc : Text.isBlank c with
      | true => rw [emptyComment?_blank hc, Bool.true_and]
      | false => rw [emptyComment?_eq hc, hcomment, Bool.false_and]; rfl

/-- No empty comment begins in front of a comment end, the first one there is, if no opening and
blanks stand right in front of it. -/
theorem emptyComment?_before_end {w : Text}
    (hfirst : ∀ y, y <:+ w → y ≠ [] → ¬ commentEnd <+: y ++ commentEnd)
    (hplain : ∀ blanks, (∀ c ∈ blanks, Text.isBlank c = true) → ¬ commentStart ++ blanks <:+ w) :
    emptyComment? (w ++ (commentEnd ++ rest)) = none := by
  cases hempty : emptyComment? (w ++ (commentEnd ++ rest)) with
  | none => rfl
  | some r =>
    exfalso
    obtain ⟨before, inside, htext, hbefore, hinside⟩ := emptyComment?_eq_some hempty
    have hblanks : ∀ c u, Text.isBlank c = false → inside ++ (commentEnd ++ r) = c :: u →
        commentEnd ++ r = c :: u := by
      intro c u hc hu
      cases inside with
      | nil => exact hu
      | cons d inside =>
        obtain rfl := (List.cons.inj hu).1
        simp [hc] at hinside
    rcases List.append_eq_append_iff.mp htext with ⟨v, rfl, hv⟩ | ⟨v, rfl, hv⟩
    · rw [commentEnd_eq] at hv
      cases v with
      | nil => simp at hv
      | cons d v =>
        obtain rfl : '-' = d := (List.cons.inj hv).1
        exact absurd (hbefore '-' (by simp)) (by decide)
    · change '<' :: '!' :: '-' :: '-' :: (inside ++ (commentEnd ++ r)) =
        v ++ '-' :: '-' :: '>' :: rest at hv
      -- how much of the opening stands in front of the end
      rcases v with _ | ⟨a, _ | ⟨b, _ | ⟨c, _ | ⟨d, v⟩⟩⟩⟩
      · simp at hv
      · simp at hv
      · obtain ⟨-, -, hbehind⟩ := by simpa using hv
        have hend := hblanks '>' rest (by decide) hbehind
        simp [commentEnd_eq] at hend
      · obtain ⟨-, -, -, hbehind⟩ := by simpa using hv
        have hend := hblanks '-' ('>' :: rest) (by decide) hbehind
        simp [commentEnd_eq] at hend
      · obtain ⟨rfl, rfl, rfl, rfl, hbehind⟩ := by simpa using hv
        have hsuffix : v <:+ before ++ '<' :: '!' :: '-' :: '-' :: v :=
          ⟨before ++ commentStart, by simp [commentStart]⟩
        have hend : Text.splitFirst? commentEnd (v ++ (commentEnd ++ rest)) = some (v, rest) :=
          Text.splitFirst?_eq_some_iff.mpr
            ⟨by simp, fun y hy => hfirst y (hy.trans hsuffix)⟩
        have hsame := @splitFirst?_commentEnd r inside hinside
        rw [hbehind] at hsame
        obtain ⟨rfl, -⟩ := Prod.mk.inj (Option.some.inj (hend.symm.trans hsame))
        exact hplain v hinside ⟨before, by simp [commentStart]⟩

/-- No empty comment starts within a comment that holds more than blanks and does not end like one. -/
theorem emptyComment?_inside {z : Text} (h : comment? s = some (inside, rest))
    (hblank : Text.isAllBlank inside = false) (hplain : (Chunk.comment inside).isPlain = true)
    (hz : z <:+ commentStart ++ (inside ++ commentEnd)) (hne : z ≠ []) :
    emptyComment? (z ++ rest) = none := by
  have hsolid : ∀ c ∈ '!' :: commentEnd, isValueChar c = true := List.all_eq_true.mp (by decide)
  change z <:+ '<' :: '!' :: '-' :: '-' :: (inside ++ commentEnd) at hz
  simp only [List.suffix_cons_iff] at hz
  rcases hz with rfl | rfl | rfl | rfl | ⟨x, hx⟩
  · have hs : '<' :: '!' :: '-' :: '-' :: (inside ++ commentEnd) ++ rest = s :=
      (comment?_eq_some_iff.mp h).1.symm
    rw [hs]
    cases s with
    | nil => cases h
    | cons c s =>
      rw [emptyComment?_eq (head_of_comment h), h, Option.bind_some]
      simp [hblank]
  · exact emptyComment?_solid (hsolid '!' (by decide))
  · exact emptyComment?_solid (hsolid '-' (by decide))
  · exact emptyComment?_solid (hsolid '-' (by decide))
  rcases List.append_eq_append_iff.mp hx with ⟨w, rfl, rfl⟩ | ⟨w, -, hend⟩
  · rw [List.append_assoc]
    have hfirst := (Text.splitFirst?_eq_some_iff.mp (comment?_eq_some_iff.mp h).2).2
    exact emptyComment?_before_end (fun y hy => hfirst y (hy.trans (List.suffix_append x w)))
      fun blanks hblanks hw =>
        not_suffix_of_isPlain hplain hblanks (hw.trans (List.suffix_append x w))
  · obtain ⟨c, z, rfl⟩ := List.exists_cons_of_ne_nil hne
    have hmem : c ∈ commentEnd := by
      rw [hend]
      simp
    exact emptyComment?_solid (hsolid c (List.mem_cons_of_mem _ hmem))

/-- Where no comment ends like a blank one, the blank comments are dropped and no others. -/
theorem dropEmptyComments_eq (h : ∀ p ∈ chunks s, p.isPlain = true) :
    dropEmptyComments s = withoutBlankComments (chunks s) := by
  -- on the length: a comment is passed in one step
  induction hn : s.length using Nat.strong_induction_on generalizing s with
  | _ n ih =>
    cases s with
    | nil => rfl
    | cons c s =>
      have hsome := isSome_emptyComment? (c :: s)
      cases hcomment : comment? (c :: s) with
      | some found =>
        obtain ⟨inside, rest⟩ := found
        have hlt := length_comment? hcomment
        rw [chunks_comment hcomment] at h hsome ⊢
        rw [List.forall_mem_cons] at h
        have hrest := ih rest.length (by omega) h.2 rfl
        rw [withoutBlankComments]
        cases hblank : Text.isAllBlank inside with
        | true =>
          have hempty := emptyComment?_of_comment hcomment hblank
          rw [dropEmptyComments_of_empty hempty, hrest, if_pos (by rwa [blankCommentNext])]
        | false =>
          have hkept := @dropEmptyComments_append rest _ fun z =>
            emptyComment?_inside hcomment hblank h.1
          rw [if_neg (by rw [blankCommentNext, hblank]; decide), Chunk.text, ← hrest,
            (comment?_eq_some_iff.mp hcomment).1]
          simpa using hkept
      | none =>
        rw [chunks_char hcomment] at h hsome ⊢
        rw [List.forall_mem_cons] at h
        have hrest := ih s.length (by simp [← hn]) h.2 rfl
        rw [withoutBlankComments, ← hsome, ← hrest]
        cases hempty : emptyComment? (c :: s) with
        | none =>
          rw [dropEmptyComments_cons hempty]
          rfl
        | some rest =>
          -- the blank in front of an empty comment leaves, and the comment is met again behind it
          cases hc : Text.isBlank c with
          | true =>
            rw [dropEmptyComments_of_empty hempty, Option.isSome_some, if_pos rfl]
            rw [emptyComment?_blank hc] at hempty
            rw [dropEmptyComments_of_empty hempty]
          | false =>
            rw [emptyComment?_eq hc, hcomment] at hempty
            cases hempty

end Directive
end Quizdown
