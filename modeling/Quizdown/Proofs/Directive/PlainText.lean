import Quizdown.Proofs.Directive.Atoms

/-!
Tokens are found by their place in the HTML of a paragraph and removed from its plain text by their
spelling. Both leave the same text where no token has a character that is escaped, and where none is
found at another spelling in front of it.
-/
set_option autoImplicit false

namespace Quizdown
namespace Directive

/-- The plain text of a row of atoms, the first of which is at this position of the HTML, without
the tokens at the places: the text in front of the first token, then each directive with the text up
to the next one. -/
def plainGaps (found : List (Nat × Directive)) : Nat → List Atom → Text × List (Directive × Text)
  | _, [] => ([], [])
  | i, g :: gs =>
    let (before, tokens) := plainGaps found (i + g.html.length) gs
    match found.find? fun p => p.1 ≤ i && i < p.1 + p.2.token.length with
    | none => (g.plain ++ before, tokens)
    | some (start, d) => if start = i then ([], (d, before) :: tokens) else (before, tokens)

def deleted (x : Text × List (Directive × Text)) : Text := x.1 ++ x.2.flatMap Prod.snd

/-- Where a token is spelled between the one before it and itself, it would be found there first:
this leaves the same text as its own place. -/
def foundFirst : Text → List (Directive × Text) → Bool
  | _, [] => true
  | before, (d, after) :: rest =>
    match Text.splitFirst? d.token (before ++ d.token) with
    | some (front, back) => front ++ back == before && foundFirst (back ++ after) rest
    | none => false

variable {gs : List Atom} {w : Text} {d : Directive}

/-! The search in the plain text. -/

theorem removeFrom_gaps {before : Text} {tokens : List (Directive × Text)}
    (h : foundFirst before tokens = true) :
    removeFrom (tokens.map Prod.fst) (before ++ tokens.flatMap tokenText) =
      deleted (before, tokens) := by
  induction tokens generalizing before with
  | nil => simp [removeFrom, deleted]
  | cons t tokens ih =>
    obtain ⟨d, after⟩ := t
    rw [foundFirst] at h
    split at h
    · rename_i front back hfirst
      rw [Bool.and_eq_true, beq_iff_eq] at h
      obtain ⟨rfl, hrest⟩ := h
      have htoken := Text.splitFirst?_eq_some hfirst
      have hfound := Text.splitFirst?_replace hfirst
        (back ++ after ++ tokens.flatMap tokenText)
      have htext : front ++ back ++ ((d, after) :: tokens).flatMap tokenText =
          front ++ d.token ++ (back ++ after ++ tokens.flatMap tokenText) := by
        rw [List.flatMap_cons, tokenText, ← List.append_assoc, ← List.append_assoc, htoken]
        simp
      rw [htext, List.map_cons, removeFrom, hfound]
      dsimp only
      rw [ih hrest]
      simp [deleted]
    · cases h

theorem removeFrom_blank_append {blanks : Text} (hblanks : ∀ c ∈ blanks, Text.isBlank c = true)
    (ds : List Directive) (s : Text) : removeFrom ds (blanks ++ s) = blanks ++ removeFrom ds s := by
  induction ds generalizing s with
  | nil => rfl
  | cons d ds ih =>
    have hsplit : Text.splitFirst? d.token (blanks ++ s) =
        (Text.splitFirst? d.token s).map fun found => (blanks ++ found.1, found.2) :=
      Text.splitFirst?_append_left (fun hat => absurd (hblanks '@' hat) (by decide)) s
    rw [removeFrom, removeFrom, hsplit]
    cases Text.splitFirst? d.token s with
    | none => exact ih s
    | some found => exact List.append_assoc ..

theorem removeFrom_append_blank {blanks : Text} (hblanks : ∀ c ∈ blanks, Text.isBlank c = true)
    {ds : List Directive} (hds : ∀ d ∈ ds, ∀ c ∈ d.token, Text.isBlank c = false) (s : Text) :
    removeFrom ds (s ++ blanks) = removeFrom ds s ++ blanks := by
  induction ds generalizing s with
  | nil => rfl
  | cons d ds ih =>
    rw [List.forall_mem_cons] at hds
    have hsplit : Text.splitFirst? d.token (s ++ blanks) =
        (Text.splitFirst? d.token s).map fun found => (found.1, found.2 ++ blanks) :=
      Text.splitFirst?_append_right (List.cons_ne_nil _ _)
        (fun c hc hmem => by simpa [hblanks c hc] using hds.1 c hmem) s
    rw [removeFrom, removeFrom, hsplit]
    cases Text.splitFirst? d.token s with
    | none => exact ih hds.2 s
    | some found =>
      change found.1 ++ removeFrom ds (found.2 ++ blanks) = _
      rw [ih hds.2, List.append_assoc]

/-! Places of tokens among atoms. -/

theorem Atom.html_pos {g : Atom} (h : g.fits = true) : 0 < g.html.length := by
  rcases Atom.html_cases h with ⟨s, rfl⟩ | ⟨c, w, hhtml, -⟩
  · exact Nat.succ_pos _
  · rw [hhtml]
    exact Nat.succ_pos _

theorem plainGaps_append {found : List (Nat × Directive)} {i : Nat} {front : List Atom}
    (hfits : ∀ g ∈ front, g.fits = true)
    (h : ∀ p ∈ found, i + (htmlOf front).length ≤ p.1 ∨ p.1 + p.2.token.length ≤ i) :
    plainGaps found i (front ++ gs) =
      (plainOf front ++ (plainGaps found (i + (htmlOf front).length) gs).1,
        (plainGaps found (i + (htmlOf front).length) gs).2) := by
  induction front generalizing i with
  | nil => rfl
  | cons g front ih =>
    rw [List.forall_mem_cons] at hfits
    have hpos := Atom.html_pos hfits.1
    have hlength : i + (htmlOf (g :: front)).length =
        i + g.html.length + (htmlOf front).length := by
      rw [htmlOf, List.flatMap_cons, List.length_append, ← htmlOf, Nat.add_assoc]
    rw [hlength] at h ⊢
    have hnone : (found.find? fun p => p.1 ≤ i && i < p.1 + p.2.token.length) = none := by
      rw [List.find?_eq_none]
      intro p hp
      have hor := h p hp
      simp only [Bool.and_eq_true, decide_eq_true_eq, not_and]
      omega
    have hrest := ih hfits.2 fun p hp => (h p hp).imp_right fun hle => by omega
    rw [List.cons_append, plainGaps, hnone]
    dsimp only
    rw [hrest]
    simp [plainOf]

section
variable {found earlier more : List (Nat × Directive)} {start i : Nat}

theorem find?_place (hfound : found = earlier ++ (start, d) :: more)
    (hearlier : ∀ p ∈ earlier, p.1 + p.2.token.length ≤ start) (hstart : start ≤ i)
    (hend : i < start + d.token.length) :
    (found.find? fun p => p.1 ≤ i && i < p.1 + p.2.token.length) = some (start, d) := by
  have hnone : (earlier.find? fun p => p.1 ≤ i && i < p.1 + p.2.token.length) = none := by
    rw [List.find?_eq_none]
    intro p hp
    have hle := hearlier p hp
    simp only [Bool.and_eq_true, decide_eq_true_eq, not_and]
    omega
  rw [hfound, List.find?_append, hnone, Option.none_or, List.find?_cons_of_pos]
  simp [hstart, hend]

theorem plainGaps_inside (hfound : found = earlier ++ (start, d) :: more)
    (hearlier : ∀ p ∈ earlier, p.1 + p.2.token.length ≤ start) (hstart : start < i)
    (hend : i + w.length ≤ start + d.token.length) (hw : ∀ c ∈ w, isMarkup c = false) :
    plainGaps found i (w.map .char ++ gs) = plainGaps found (i + w.length) gs := by
  induction w generalizing i with
  | nil => rfl
  | cons c w ih =>
    rw [List.forall_mem_cons] at hw
    rw [List.length_cons] at hend
    have hfirst := find?_place hfound hearlier hstart.le (by omega)
    have hrest := ih (i := i + 1) (by omega) (by omega) hw.2
    have hhtml : (Atom.char c).html = [c] := escapeText_char hw.1
    have hlength : i + (c :: w).length = i + 1 + w.length := by
      rw [List.length_cons]
      omega
    rw [List.map_cons, List.cons_append, plainGaps, hfirst, hhtml, hlength]
    dsimp only
    rw [if_neg hstart.ne, List.length_singleton, hrest]

theorem plainGaps_token (hfound : found = earlier ++ (start, d) :: more)
    (hearlier : ∀ p ∈ earlier, p.1 + p.2.token.length ≤ start)
    (hmarkup : ∀ c ∈ d.token, isMarkup c = false) :
    plainGaps found start (d.token.map .char ++ gs) =
      ([], (d, (plainGaps found (start + d.token.length) gs).1) ::
        (plainGaps found (start + d.token.length) gs).2) := by
  obtain ⟨w, hw⟩ : ∃ w, d.token = '@' :: w := ⟨_, rfl⟩
  have hlength : d.token.length = w.length + 1 := by rw [hw, List.length_cons]
  have hfirst := find?_place hfound hearlier le_rfl (by omega)
  rw [hw, List.forall_mem_cons] at hmarkup
  have hinside : plainGaps found (start + 1) (w.map .char ++ gs) =
      plainGaps found (start + 1 + w.length) gs :=
    plainGaps_inside hfound hearlier (by omega) (by omega) hmarkup.2
  have hend : start + d.token.length = start + 1 + w.length := by omega
  rw [hend, ← hinside, hw, List.map_cons, List.cons_append, plainGaps, hfirst]
  dsimp only
  rw [if_pos rfl]
  rfl

end

/-- The places of tokens divide the plain text as they divide the atoms. -/
theorem plainGaps_eq {found earlier : List (Nat × Directive)} {i : Nat} {front : List Atom}
    {tokens : List (Directive × List Atom)}
    (hfound : found = earlier ++ placesFrom (i + (htmlOf front).length)
      (tokens.map fun t => (t.1, htmlOf t.2)))
    (hearlier : ∀ p ∈ earlier, p.1 + p.2.token.length ≤ i)
    (hfits : ∀ g ∈ front ++ tokens.flatMap tokenAtoms, g.fits = true)
    (hmarkup : ∀ t ∈ tokens, ∀ c ∈ t.1.token, isMarkup c = false) :
    plainGaps found i (front ++ tokens.flatMap tokenAtoms) =
      (plainOf front, tokens.map fun t => (t.1, plainOf t.2)) := by
  induction tokens generalizing earlier i front with
  | nil =>
    rw [plainGaps_append (fun g hg => hfits g (List.mem_append_left _ hg))]
    · simp [plainGaps]
    · intro p hp
      rw [hfound, List.map_nil, placesFrom, List.append_nil] at hp
      exact .inr (hearlier p hp)
  | cons t tokens ih =>
    obtain ⟨d, after⟩ := t
    rw [List.forall_mem_cons] at hmarkup
    rw [List.map_cons, placesFrom] at hfound
    have hfront : ∀ p ∈ found, i + (htmlOf front).length ≤ p.1 ∨ p.1 + p.2.token.length ≤ i := by
      intro p hp
      rw [hfound] at hp
      rcases List.mem_append.mp hp with hp | hp
      · exact .inr (hearlier p hp)
      rcases List.mem_cons.mp hp with rfl | hp
      · exact .inl le_rfl
      · have hle := le_of_mem_placesFrom hp
        exact .inl (by omega)
    have hends : ∀ p ∈ earlier, p.1 + p.2.token.length ≤ i + (htmlOf front).length :=
      fun p hp => (hearlier p hp).trans (Nat.le_add_right _ _)
    -- behind the token its place is one of the earlier ones
    have hrest := @ih (earlier ++ [(i + (htmlOf front).length, d)])
      (i + (htmlOf front).length + d.token.length) after (by simpa using hfound) ?_ ?_ hmarkup.2
    · have htoken := @plainGaps_token (after ++ tokens.flatMap tokenAtoms) d found earlier _ _ hfound
        hends hmarkup.1
      rw [hrest] at htoken
      have hatoms : ((d, after) :: tokens).flatMap tokenAtoms =
          d.token.map .char ++ (after ++ tokens.flatMap tokenAtoms) := by
        simp [tokenAtoms]
      rw [hatoms, plainGaps_append (fun g hg => hfits g (List.mem_append_left _ hg)) hfront, htoken]
      simp
    · intro p hp
      rcases List.mem_append.mp hp with hp | hp
      · exact (hends p hp).trans (Nat.le_add_right _ _)
      · rw [List.mem_singleton.mp hp]
    · intro g hg
      refine hfits g (List.mem_append_right _ ?_)
      rw [List.flatMap_cons, tokenAtoms, List.append_assoc]
      exact List.mem_append_right _ hg

theorem plainOf_tokens (tokens : List (Directive × List Atom)) :
    plainOf (tokens.flatMap tokenAtoms) =
      (tokens.map fun t => (t.1, plainOf t.2)).flatMap tokenText := by
  induction tokens with
  | nil => rfl
  | cons t tokens ih =>
    rw [List.flatMap_cons, plainOf_append, ih, tokenAtoms, plainOf_append, plainOf_chars]
    rfl

/-! Paragraphs. -/

def paragraphGaps (es : List Event) : Text × List (Directive × Text) :=
  plainGaps (places (BlockKind.wrap .paragraph es)) 0 (paragraphAtoms es)

theorem paragraphGaps_text {es : List Event} (hes : ∀ e ∈ es, e.isRunning = true)
    (hplain : ∀ d ∈ (extract (BlockKind.wrap .paragraph es)).directives, '&' ∉ d.value) :
    (paragraphGaps es).2.map Prod.fst = (extract (BlockKind.wrap .paragraph es)).directives ∧
      rawPlainText es = (paragraphGaps es).1 ++ (paragraphGaps es).2.flatMap tokenText ∧
      ∀ t ∈ (paragraphGaps es).2, ∀ c ∈ t.1.token, Text.isBlank c = false := by
  have hhtml := htmlOf_paragraph fun e he => Event.isInline_of_isRunning (hes e he)
  have hfits := fits_paragraph hes
  rw [← plainOf_paragraph hes, paragraphGaps]
  rw [directives_extract, places_eq, map_snd_placesFrom] at hplain ⊢
  have hdivided : DividedAs [] (paragraphAtoms es) (gaps (parts (BlockKind.wrap .paragraph es))) := by
    rw [← hhtml] at hplain ⊢
    exact dividedAs_gaps (r := []) le_rfl (by simp) hfits fun t ht =>
      hplain t.1 (List.mem_map_of_mem ht)
  obtain ⟨front, tokens, hatoms, hgaps, hchars⟩ := hdivided
  have hfound : placesFrom (gaps (parts (BlockKind.wrap .paragraph es))).1.length
      (gaps (parts (BlockKind.wrap .paragraph es))).2 =
        [] ++ placesFrom (0 + (htmlOf front).length) (tokens.map fun t => (t.1, htmlOf t.2)) := by
    rw [hgaps]
    simp
  have heq := plainGaps_eq hfound (by simp) (hatoms ▸ hfits) fun t ht c hc => (hchars t ht c hc).1
  rw [hatoms, heq, hgaps]
  refine ⟨by simp, ?_, ?_⟩
  · rw [plainOf_append, plainOf_tokens]
  · intro t ht
    obtain ⟨u, hu, rfl⟩ := List.mem_map.mp ht
    exact fun c hc => (hchars u hu c hc).2

/-- The plain text of a paragraph, which has no blanks at its ends, loses the tokens of the HTML at
their places and nothing else: where no token has a character that is escaped, and none is found at
another spelling whose deletion leaves a different text. -/
theorem removeFrom_plainText {es : List Event} (hes : ∀ e ∈ es, e.isRunning = true)
    (hplain : ∀ d ∈ (extract (BlockKind.wrap .paragraph es)).directives, '&' ∉ d.value)
    (hfirst : foundFirst (paragraphGaps es).1 (paragraphGaps es).2 = true) :
    (paragraphGaps es).2.map Prod.fst = (extract (BlockKind.wrap .paragraph es)).directives ∧
      ∃ before after, (∀ c ∈ before ++ after, Text.isBlank c = true) ∧
        rawPlainText es = before ++ plainText es ++ after ∧
        deleted (paragraphGaps es) = before ++
          removeFrom (extract (BlockKind.wrap .paragraph es)).directives (plainText es) ++ after := by
  obtain ⟨hdirectives, hraw, hsolid⟩ := paragraphGaps_text hes hplain
  obtain ⟨before, hbefore, hbeforeblank⟩ := Text.exists_trimStart (rawPlainText es)
  obtain ⟨after, hafter, hafterblank⟩ := Text.exists_trimEnd (Text.trimStart (rawPlainText es))
  have htext : rawPlainText es = before ++ (plainText es ++ after) := by
    rw [plainText, Text.trim, ← hafter, ← hbefore]
  have hds : ∀ d ∈ (paragraphGaps es).2.map Prod.fst, ∀ c ∈ d.token, Text.isBlank c = false := by
    intro d hd
    obtain ⟨t, ht, rfl⟩ := List.mem_map.mp hd
    exact hsolid t ht
  have hremoved := removeFrom_gaps hfirst
  rw [← hraw, htext, removeFrom_blank_append hbeforeblank,
    removeFrom_append_blank hafterblank hds, ← List.append_assoc, hdirectives] at hremoved
  exact ⟨hdirectives, before, after, List.forall_mem_append.mpr ⟨hbeforeblank, hafterblank⟩,
    by rw [List.append_assoc]; exact htext, hremoved.symm⟩

theorem removeFrom_plainText_code :
    let es : List Event := [.text "Pick @multi=yes or ".toList, .start .strong,
      .code "@multi=yes".toList, .stop .strong, .softBreak, .text "a & b @a=".toList,
      .text "b".toList]
    ((∀ e ∈ es, e.isRunning = true) ∧
      (∀ d ∈ (extract (BlockKind.wrap .paragraph es)).directives, '&' ∉ d.value) ∧
      foundFirst (paragraphGaps es).1 (paragraphGaps es).2 = true) ∧
    removeFrom (extract (BlockKind.wrap .paragraph es)).directives (plainText es) =
      "Pick  or @multi=yes a & b ".toList ∧
    ((paragraphGaps es).2.map Prod.fst = (extract (BlockKind.wrap .paragraph es)).directives ∧
      ∃ before after, (∀ c ∈ before ++ after, Text.isBlank c = true) ∧
        rawPlainText es = before ++ plainText es ++ after ∧
        deleted (paragraphGaps es) = before ++
          removeFrom (extract (BlockKind.wrap .paragraph es)).directives (plainText es) ++ after) := by
  intro es
  have hes : ∀ e ∈ es, e.isRunning = true := by decide
  have hplain : ∀ d ∈ (extract (BlockKind.wrap .paragraph es)).directives, '&' ∉ d.value := by
    decide +kernel
  have hfirst : foundFirst (paragraphGaps es).1 (paragraphGaps es).2 = true := by decide +kernel
  exact ⟨⟨hes, hplain, hfirst⟩, by decide +kernel, removeFrom_plainText hes hplain hfirst⟩

/-- In front of the directive, the same spelling in a code is taken for it: the code leaves the
plain text, and the directive stays. -/
theorem removeFrom_takes_code :
    let es : List Event := [.text "Pick ".toList, .code "@multi=yes".toList,
      .text " or what? @multi=yes".toList]
    let html := BlockKind.wrap .paragraph es
    (∀ e ∈ es, e.isRunning = true) ∧
      strip html = "<p>Pick <code>@multi=yes</code> or what?</p>".toList ∧
      removeFrom (extract html).directives (plainText es) = "Pick  or what? @multi=yes".toList ∧
      deleted (paragraphGaps es) = "Pick @multi=yes or what? ".toList := by
  decide +kernel

end Directive
end Quizdown
