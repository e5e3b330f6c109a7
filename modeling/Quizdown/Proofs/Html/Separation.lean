import Quizdown.Html.PlainText
import Quizdown.Proofs.Html.WellFormed
import Quizdown.Proofs.Text.Trim
import Mathlib.Data.List.Chain

/-! Which element each character of a plain text comes from. Breaks, and the ends of paragraphs,
items and code blocks, divide the text; nothing else does. So a word may run from one element into
another: exactly where no divider stands between their texts. -/
set_option autoImplicit false

namespace Quizdown

open Text (isBlank)

def Event.added : Event → Text
  | .text s | .code s => s
  | .softBreak | .hardBreak | .stop .paragraph | .stop .item | .stop .codeBlock => [' ']
  | _ => []

abbrev Owned := Event × Nat

/-- The events with the innermost block around each, by the place of its start. The events begin at
the place `i` in the element `owner`; what stands within a line makes no element of its own. -/
def Nesting.owned (owner i : Nat) : Nesting → List Owned
  | done => []
  | leaf e _ rest => (e.event, owner) :: rest.owned owner (i + 1)
  | element tag _ inner _ rest =>
    let own := if tag.isInline then owner else i
    (.start tag, own) :: (inner.owned own (i + 1) ++
      (.stop tag.closing, own) :: rest.owned owner (i + inner.events.length + 2))

def marked (es : List Owned) : List (Char × Nat) :=
  es.foldl (fun soFar e => soFar ++ (e.1.plain (soFar.map Prod.fst)).map (·, e.2)) []

/-- No word mixes characters of two elements. -/
def KeepsApart (s : List (Char × Nat)) : Prop :=
  ∀ word, word <:+: s → (∀ c ∈ word, isBlank c.1 = false) → ∀ a ∈ word, ∀ b ∈ word, a.2 = b.2

def spoken (es : List Owned) : List Owned := es.filter fun e => !e.1.added.isEmpty

/-- Between what the events add there is a blank, or they belong to one element. -/
def Meets (a b : Owned) : Prop :=
  ∀ c ∈ a.1.added.getLast?, ∀ d ∈ b.1.added.head?, isBlank c = true ∨ isBlank d = true ∨ a.2 = b.2

variable {es : List Owned} {a b : Owned}

theorem Nesting.map_fst_owned (n : Nesting) (owner i : Nat) :
    (n.owned owner i).map Prod.fst = n.events := by
  induction n generalizing owner i with
  | done => rfl
  | leaf e alone rest ih => rw [owned, List.map_cons, ih, events_leaf]
  | element tag span inner stop rest ihInner ihRest =>
    simp only [owned, List.map_cons, List.map_append, ihInner, ihRest, events_element]

theorem map_fst_marked (es : List Owned) :
    (marked es).map Prod.fst = rawPlainText (es.map Prod.fst) := by
  have hfold (soFar : List (Char × Nat)) :
      (es.foldl (fun soFar e => soFar ++ (e.1.plain (soFar.map Prod.fst)).map (·, e.2))
        soFar).map Prod.fst =
      (es.map Prod.fst).foldl (fun soFar e => soFar ++ e.plain soFar) (soFar.map Prod.fst) := by
    induction es generalizing soFar with
    | nil => rfl
    | cons e es ih =>
      rw [List.foldl_cons, ih, List.map_cons, List.foldl_cons, List.map_append, List.map_map]
      simp [Function.comp_def]
  exact hfold []

/-! Neighbouring characters decide. -/

def Joined (x y : Char × Nat) : Prop := isBlank x.1 = true ∨ isBlank y.1 = true ∨ x.2 = y.2

theorem keepsApart_iff {s : List (Char × Nat)} : KeepsApart s ↔ s.IsChain Joined := by
  rw [List.isChain_iff_forall_rel_of_append_cons_cons]
  constructor
  · rintro h x y before after rfl
    rw [Joined]
    cases hx : isBlank x.1 with
    | true => exact .inl rfl
    | false =>
      cases hy : isBlank y.1 with
      | true => exact .inr (.inl rfl)
      | false =>
        have hinfix : [x, y] <:+: before ++ x :: y :: after := ⟨before, after, by simp⟩
        exact .inr (.inr (h [x, y] hinfix (by simp [hx, hy]) x (by simp) y (by simp)))
  · intro h word hword hsolid
    have hchain : (word.map Prod.snd).IsChain Eq := by
      rw [List.isChain_map, List.isChain_iff_forall_rel_of_append_cons_cons]
      rintro x y front back rfl
      obtain ⟨before, after, rfl⟩ := hword
      have hjoined := @h x y (before ++ front) (back ++ after) (by simp)
      have hx := hsolid x (by simp)
      have hy := hsolid y (by simp)
      simpa [Joined, hx, hy] using hjoined
    intro a ha b hb
    exact (List.isChain_iff_pairwise.mp hchain).forall_of_forall (fun _ _ => rfl)
      (List.mem_map_of_mem ha) (List.mem_map_of_mem hb)

theorem isChain_blank {s t : List (Char × Nat)} (o : Nat)
    (hs : ∀ x ∈ s.getLast?, isBlank x.1 = true) :
    (s ++ (' ', o) :: t).IsChain Joined ↔ (s ++ t).IsChain Joined := by
  have hblank (x : Char × Nat) : Joined (' ', o) x ∧ Joined x (' ', o) :=
    ⟨.inl rfl, .inr (.inl rfl)⟩
  rw [List.isChain_append, List.isChain_append, List.isChain_cons]
  constructor
  · rintro ⟨hs', ⟨-, ht⟩, -⟩
    exact ⟨hs', ht, fun x hx y hy => .inl (hs x hx)⟩
  · rintro ⟨hs', ht, -⟩
    exact ⟨hs', ⟨fun y _ => (hblank y).1, ht⟩, fun x hx y hy => .inl (hs x hx)⟩

def Owned.chars (e : Owned) : List (Char × Nat) := e.1.added.map (·, e.2)

theorem plain_eq (soFar : Text) (e : Event) : e.plain soFar = e.added ∨
    e.plain soFar = [] ∧ e.added = [' '] ∧ ∀ c ∈ soFar.getLast?, isBlank c = true := by
  have hstop : (if soFar.isEmpty || Text.endsBlank soFar then [] else [' ']) = [' '] ∨
      (if soFar.isEmpty || Text.endsBlank soFar then [] else [' ']) = [] ∧ ([' '] : Text) = [' '] ∧
        ∀ c ∈ soFar.getLast?, isBlank c = true := by
    split_ifs with h
    · refine .inr ⟨rfl, rfl, fun c hc => ?_⟩
      rcases Bool.or_eq_true_iff.mp h with hempty | hends
      · rw [List.isEmpty_iff] at hempty
        simp [hempty] at hc
      · rw [Text.endsBlank, Option.mem_def.mp hc] at hends
        exact hends
    · exact .inl rfl
  cases e with
  | stop tag => cases tag <;> first | exact hstop | exact .inl rfl
  | _ => exact .inl rfl

theorem isChain_marked : (marked es).IsChain Joined ↔ (es.flatMap Owned.chars).IsChain Joined := by
  have hfold (soFar : List (Char × Nat)) :
      (es.foldl (fun soFar e => soFar ++ (e.1.plain (soFar.map Prod.fst)).map (·, e.2))
        soFar).IsChain Joined ↔ (soFar ++ es.flatMap Owned.chars).IsChain Joined := by
    induction es generalizing soFar with
    | nil => simp
    | cons e es ih =>
      rw [List.foldl_cons, ih, List.flatMap_cons, List.append_assoc]
      -- a blank that is left out stands behind a blank, where it decides nothing
      rcases plain_eq (soFar.map Prod.fst) e.1 with hplain | ⟨hplain, hadded, hlast⟩
      · rw [hplain]
        rfl
      · have hchars : Owned.chars e = [(' ', e.2)] := by rw [Owned.chars, hadded]; rfl
        rw [hplain, hchars]
        refine (isChain_blank e.2 fun x hx => hlast x.1 ?_).symm
        simp [Option.mem_def.mp hx]
  exact hfold []

theorem flatMap_spoken (es : List Owned) : (spoken es).flatMap Owned.chars = es.flatMap Owned.chars := by
  induction es with
  | nil => rfl
  | cons e es ih =>
    rw [spoken, List.filter_cons, List.flatMap_cons]
    split_ifs with h
    · rw [List.flatMap_cons, ← ih, spoken]
    · have hnil : e.1.added = [] := by simpa using h
      rw [← ih, Owned.chars, hnil]
      rfl

theorem isChain_spoken : (marked es).IsChain Joined ↔ (spoken es).IsChain Meets := by
  have hnil : [] ∉ (spoken es).map Owned.chars := by
    intro h
    obtain ⟨e, he, hchars⟩ := List.mem_map.mp h
    have hsome := (List.mem_filter.mp he).2
    have hnone : e.1.added = [] := List.map_eq_nil_iff.mp hchars
    rw [hnone] at hsome
    cases hsome
  have hone : ∀ l ∈ (spoken es).map Owned.chars, l.IsChain Joined := by
    intro l hl
    obtain ⟨e, -, rfl⟩ := List.mem_map.mp hl
    rw [Owned.chars, List.isChain_map]
    exact (List.pairwise_of_forall fun c d => .inr (.inr rfl)).isChain
  rw [isChain_marked, ← flatMap_spoken, List.flatMap_def, List.isChain_flatten hnil,
    and_iff_right hone, List.isChain_map]
  have hmeets (a b : Owned) : (∀ x ∈ (Owned.chars a).getLast?, ∀ y ∈ (Owned.chars b).head?, Joined x y) ↔
      Meets a b := by
    simp [Owned.chars, Joined, Meets]
  simp only [hmeets]

theorem keepsApart_marked_iff : KeepsApart (marked es) ↔ (spoken es).IsChain Meets :=
  keepsApart_iff.trans isChain_spoken

/-! Content in which every text has a divider behind it. -/

/-- Whether text of the element itself stands at the end, with no blank behind it, if `before` says
so of what stands in front. -/
def Nesting.trails (before : Bool) : Nesting → Bool
  | done => before
  | leaf e _ rest =>
    rest.trails (if e.event.added.isEmpty then before else !Text.endsBlank e.event.added)
  | element tag _ inner _ rest => rest.trails (if tag.isInline then inner.trails before else false)

def Tag.divides : Tag → Bool
  | paragraph | item | codeBlock _ => true
  | _ => false

/-- Text stands in elements only whose ends divide it, and no block directly behind text of the
element around it. The first flag says that text may stand here, the second that some stands in
front. -/
def Nesting.divided (here before : Bool) : Nesting → Bool
  | done => true
  | leaf e _ rest => (here || Text.isAllBlank e.event.added) &&
      rest.divided here (if e.event.added.isEmpty then before else !Text.endsBlank e.event.added)
  | element tag _ inner _ rest =>
    if tag.isInline then inner.divided here before && rest.divided here (inner.trails before)
    else !before && inner.divided tag.divides false && rest.divided here false

def Ready (owner : Nat) (before : Bool) (es : List Owned) : Prop :=
  ∀ e ∈ es.getLast?, Text.endsBlank e.1.added = true ∨ before = true ∧ e.2 = owner

variable {n : Nesting} {here before : Bool} {o i : Nat}

theorem Ready.mono (h : Ready o false es) : Ready i before es :=
  fun e he => (h e he).imp_right fun hfalse => nomatch hfalse.1

theorem Ready.concat {e : Event} (hes : es.IsChain Meets) (h : Ready o before es) :
    (es ++ [(e, o)]).IsChain Meets ∧
      Ready o (!Text.endsBlank e.added) (es ++ [(e, o)]) := by
  constructor
  · rw [List.isChain_append]
    refine ⟨hes, List.isChain_singleton _, ?_⟩
    intro last hlast first hfirst c hc d hd
    obtain rfl : (e, o) = first := by simpa using hfirst
    rcases h last hlast with hblank | ⟨-, howner⟩
    · rw [Text.endsBlank, Option.mem_def.mp hc] at hblank
      exact .inl hblank
    · exact .inr (.inr howner)
  · intro last hlast
    obtain rfl : (e, o) = last := by simpa using hlast
    cases Text.endsBlank e.added <;> simp

theorem spoken_cons (e : Owned) (es : List Owned) :
    spoken (e :: es) = if e.1.added = [] then spoken es else e :: spoken es := by
  rw [spoken, spoken, List.filter_cons]
  cases h : e.1.added <;> simp

theorem spoken_append (es fs : List Owned) : spoken (es ++ fs) = spoken es ++ spoken fs :=
  List.filter_append ..

theorem added_start (tag : Tag) : (Event.start tag).added = [] := rfl

theorem added_stop (tag : Tag) :
    (Event.stop tag.closing).added = if tag.divides then [' '] else [] := by
  cases tag <;> rfl

theorem Tag.not_divides_of_isInline {tag : Tag} (h : tag.isInline = true) : tag.divides = false := by
  cases tag <;> first | rfl | cases h

theorem Nesting.trails_eq_false (h : n.divided false false = true) : n.trails false = false := by
  induction n with
  | done => rfl
  | leaf e alone rest ih =>
    rw [divided, Bool.and_eq_true, Bool.false_or] at h
    have hblank : (if e.event.added.isEmpty then false else !Text.endsBlank e.event.added) =
        false := by
      split_ifs with hempty
      · rfl
      · have hne : e.event.added ≠ [] := by simpa using hempty
        have hlast := Text.isAllBlank_iff.mp h.1 _ (List.getLast_mem hne)
        simp [Text.endsBlank, List.getLast?_eq_some_getLast hne, hlast]
    rw [hblank] at h
    rw [trails, hblank]
    exact ih h.2
  | element tag span inner stop rest ihInner ihRest =>
    rw [divided] at h
    rw [trails]
    split_ifs at h ⊢ with hinline
    · rw [Bool.and_eq_true] at h
      have hinner := ihInner h.1
      rw [hinner] at h ⊢
      exact ihRest h.2
    · rw [Bool.and_eq_true] at h
      exact ihRest h.2

theorem Ready.owned (hn : n.divided here before = true) (hes : es.IsChain Meets)
    (h : Ready o before es) :
    (es ++ spoken (n.owned o i)).IsChain Meets ∧
      Ready o (n.trails before) (es ++ spoken (n.owned o i)) := by
  -- the events in front vary: behind an element they end with the element
  induction n generalizing here before o i es with
  | done =>
    rw [Nesting.owned, spoken, List.filter_nil, List.append_nil]
    exact ⟨hes, h⟩
  | leaf e alone rest ih =>
    rw [Nesting.divided, Bool.and_eq_true] at hn
    rw [Nesting.owned, spoken_cons, Nesting.trails]
    by_cases hempty : e.event.added = []
    · rw [if_pos (List.isEmpty_iff.mpr hempty)] at hn ⊢
      rw [if_pos hempty]
      exact ih hn.2 hes h
    · have hsome : ¬ e.event.added.isEmpty = true := by simpa using hempty
      rw [if_neg hsome] at hn
      rw [if_neg hempty, if_neg hsome, List.append_cons]
      obtain ⟨hchain, hready⟩ := h.concat (e := e.event) hes
      exact ih hn.2 hchain hready
  | element tag span inner stop rest ihInner ihRest =>
    rw [Nesting.divided] at hn
    rw [Nesting.owned, spoken_cons, if_pos (added_start tag), spoken_append, spoken_cons, added_stop,
      Nesting.trails, ← List.append_assoc]
    cases hinline : tag.isInline with
    | true =>
      rw [if_pos hinline, Bool.and_eq_true] at hn
      rw [Tag.not_divides_of_isInline hinline]
      obtain ⟨hchain, hready⟩ := ihInner (o := o) (i := i + 1) hn.1 hes h
      exact ihRest hn.2 hchain hready
    | false =>
      rw [hinline, if_neg Bool.false_ne_true, Bool.and_eq_true, Bool.and_eq_true,
        Bool.not_eq_true'] at hn
      obtain ⟨⟨rfl, hinner⟩, hrest⟩ := hn
      obtain ⟨hchain, hready⟩ := ihInner (o := i) (i := i + 1) hinner hes h.mono
      simp only [Bool.false_eq_true, if_false]
      cases hdivides : tag.divides with
      | true =>
        obtain ⟨hchain', hready'⟩ := hready.concat (e := .stop tag.closing) hchain
        have hadded : (Event.stop tag.closing).added = [' '] := by rw [added_stop, if_pos hdivides]
        rw [hadded] at hready'
        simp only [if_true, reduceCtorEq, if_false]
        rw [List.append_cons]
        exact ihRest hrest hchain' hready'.mono
      | false =>
        -- without a divider at its end the element has no text of its own
        rw [hdivides] at hinner
        rw [Nesting.trails_eq_false hinner] at hready
        exact ihRest hrest hchain hready.mono

/-- The marks of a plain text say which element each character comes from. No word mixes characters
of two elements exactly if neighbours among the events that add something belong to one element or
have a blank between them; the ends of paragraphs, items and code blocks add one. So it is if text
stands only in these and directly among the events, and no block follows directly behind text of the
item around it. -/
theorem plainText_keepsApart (n : Nesting) :
    Text.trim ((marked (n.owned 0 1)).map Prod.fst) = plainText n.events ∧
      (KeepsApart (marked (n.owned 0 1)) ↔ (spoken (n.owned 0 1)).IsChain Meets) ∧
      (n.divided true false = true → KeepsApart (marked (n.owned 0 1))) := by
  refine ⟨?_, keepsApart_marked_iff, fun hn => keepsApart_marked_iff.mpr ?_⟩
  · rw [map_fst_marked, n.map_fst_owned, plainText]
  · have hnone : Ready 0 false [] := by simp [Ready]
    exact (hnone.owned hn .nil).1

theorem plainText_keepsApart_loose :
    let text (s : String) : Nesting := .leaf ⟨.text s.toList, ⟨0, 0⟩⟩ rfl .done
    let around (tag : Tag) (inner rest : Nesting) : Nesting :=
      .element tag ⟨0, 0⟩ inner ⟨0, 0⟩ rest
    let n := around .paragraph (text "a") (around (.list none) (around .item (text "b") .done) .done)
    n.divided true false = true ∧ plainText n.events = "a b".toList ∧
      KeepsApart (marked (n.owned 0 1)) := by
  intro text around n
  have hdivided : n.divided true false = true := by decide
  exact ⟨hdivided, by decide, (plainText_keepsApart n).2.2 hdivided⟩

/-- Words run from the text of a tight item into the list nested in it, from a heading into the
paragraph behind it, and from one cell of a table into the next. -/
theorem plainText_joins_elements :
    let text (s : String) (rest : Nesting) : Nesting := .leaf ⟨.text s.toList, ⟨0, 0⟩⟩ rfl rest
    let around (tag : Tag) (inner rest : Nesting) : Nesting :=
      .element tag ⟨0, 0⟩ inner ⟨0, 0⟩ rest
    let item := text "a" (around (.list none) (around .item (text "b" .done) .done) .done)
    let quote := around .blockQuote (around (.heading 1) (text "a" .done)
      (around .paragraph (text "b" .done) .done)) .done
    let row := around (.table []) (around .tableHead (around .tableCell (text "a" .done)
      (around .tableCell (text "b" .done) .done)) .done) .done
    ∀ n ∈ [item, quote, row], plainText n.events = "ab".toList ∧
      ¬ KeepsApart (marked (n.owned 0 1)) := by
  intro text around item quote row
  have hmixed {s : List (Char × Nat)} {i j : Nat} (hij : i ≠ j)
      (hword : [('a', i), ('b', j)] <:+: s) : ¬ KeepsApart s := by
    intro h
    have hsolid : ∀ c ∈ [('a', i), ('b', j)], isBlank c.1 = false := by
      simp only [List.forall_mem_cons]
      exact ⟨rfl, rfl, by simp⟩
    exact hij (h _ hword hsolid ('a', i) (by simp) ('b', j) (by simp))
  simp only [List.forall_mem_cons, List.not_mem_nil, false_implies, implies_true, and_true]
  exact ⟨⟨by decide, hmixed (i := 0) (j := 3) (by decide) (by decide)⟩,
    ⟨by decide, hmixed (i := 2) (j := 5) (by decide) (by decide)⟩,
    by decide, hmixed (i := 3) (j := 6) (by decide) (by decide)⟩

end Quizdown
