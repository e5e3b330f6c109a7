import Quizdown.Document.Reader

/-! Counting starts and ends recovers the nesting of the events. A document whose events are those
of a row of top-level elements has one block for each of them, and a list has one item for each item
element directly inside it. -/
set_option autoImplicit false

namespace Quizdown

def Event.standsAlone : Event → Bool
  | .start _ | .stop _ => false
  | _ => true

/-- A well-nested sequence of events, as its first event or element and what follows. -/
inductive Nesting
  | done
  | leaf (e : PlacedEvent) (alone : e.event.standsAlone = true) (rest : Nesting)
  | element (tag : Tag) (span : Span) (inner : Nesting) (stop : Span) (rest : Nesting)

def PlacedEvent.comment? (e : PlacedEvent) : Option Span :=
  match e.event with
  | .inlineHtml s => if Text.startsWith s "<!--".toList then some e.span else none
  | _ => none

namespace Nesting

def placed : Nesting → List PlacedEvent
  | done => []
  | leaf e _ rest => e :: rest.placed
  | element tag span inner stop rest =>
    ⟨.start tag, span⟩ :: (inner.placed ++ ⟨.stop tag.closing, stop⟩ :: rest.placed)

def events (n : Nesting) : List Event := n.placed.map PlacedEvent.event

/-- What the items hold that stand here and not deeper inside. -/
def items : Nesting → List Nesting
  | done => []
  | leaf _ _ rest => rest.items
  | element tag _ inner _ rest => if tag = .item then inner :: rest.items else rest.items

def comments (n : Nesting) : List Span := n.placed.filterMap PlacedEvent.comment?

@[simp] theorem events_leaf (e : PlacedEvent) (alone : e.event.standsAlone = true)
    (rest : Nesting) : (leaf e alone rest).events = e.event :: rest.events := rfl

@[simp] theorem events_element (tag : Tag) (span stop : Span) (inner rest : Nesting) :
    (element tag span inner stop rest).events =
      .start tag :: (inner.events ++ .stop tag.closing :: rest.events) := by
  simp [events, placed]

@[simp] theorem comments_leaf (e : PlacedEvent) (alone : e.event.standsAlone = true)
    (rest : Nesting) : (leaf e alone rest).comments = e.comment?.toList ++ rest.comments := by
  cases h : e.comment? <;> simp [comments, placed, h]

@[simp] theorem comments_element (tag : Tag) (span stop : Span) (inner rest : Nesting) :
    (element tag span inner stop rest).comments = inner.comments ++ rest.comments := by
  have hstart : PlacedEvent.comment? ⟨.start tag, span⟩ = none := rfl
  have hstop : PlacedEvent.comment? ⟨.stop tag.closing, stop⟩ = none := rfl
  simp [comments, placed, hstart, hstop]

end Nesting

theorem Tag.closing_eq_item_iff {tag : Tag} : tag.closing = .item ↔ tag = .item := by
  cases tag <;> simp [closing]

namespace Item

variable {soFar rest : List Event} {e : Event} {tag : Tag}

theorem contents_leaf (h : e.standsAlone = true) (depth : Nat) :
    contents depth soFar (e :: rest) = contents depth (e :: soFar) rest := by
  cases e with
  | start tag => cases h
  | stop tag => cases h
  | _ => rcases depth with _ | _ | depth <;> simp [contents]

theorem contents_start {depth : Nat} (h : tag = .item → depth ≠ 0) :
    contents depth soFar (.start tag :: rest) =
      contents (depth + 1) (.start tag :: soFar) rest := by
  rcases depth with _ | _ | depth
  · cases tag <;> simp_all [contents]
  all_goals simp [contents]

theorem contents_stop {depth : Nat} {tag : TagEnd} (h : tag = .item → depth ≠ 0) :
    contents (depth + 1) soFar (.stop tag :: rest) =
      contents depth (.stop tag :: soFar) rest := by
  rcases depth with _ | depth
  · cases tag <;> simp_all [contents]
  · simp [contents]

theorem contents_append (n : Nesting) (depth : Nat) :
    contents (depth + 1) soFar (n.events ++ rest) =
      contents (depth + 1) (n.events.reverse ++ soFar) rest := by
  induction n generalizing depth soFar rest with
  | done => rfl
  | leaf e alone more ih => simp [contents_leaf alone, ih]
  | element tag span inner stop more ihInner ihMore =>
    rw [Nesting.events_element, List.cons_append, contents_start (by simp), List.append_assoc,
      ihInner, List.cons_append, contents_stop (by simp), ihMore]
    simp

/-- A list has one item for each item element directly inside it, with what that element holds. -/
theorem contents_events (n : Nesting) (soFar : List Event) :
    contents 0 soFar n.events = n.items.map Nesting.events := by
  induction n generalizing soFar with
  | done => rfl
  | leaf e alone more ih => rw [Nesting.events_leaf, contents_leaf alone, ih, Nesting.items]
  | element tag span inner stop more _ ihMore =>
    rw [Nesting.events_element, Nesting.items]
    by_cases ht : tag = .item
    · subst ht
      have hinner := @contents_append [] (.stop .item :: more.events) inner 0
      simp [contents, Tag.closing, hinner, ihMore]
    · have hstop : tag.closing ≠ .item := fun h => ht (Tag.closing_eq_item_iff.mp h)
      rw [contents_start (fun h => absurd h ht), contents_append,
        contents_stop (fun h => absurd h hstop), ihMore, if_neg ht]

/-- The check box of an item is the first one with no list in front of it. -/
theorem checkedOf_eq_some_iff {events : List Event} {checked : Bool} :
    checkedOf events = some checked ↔
      ∃ before after, events = before ++ .taskMarker checked :: after ∧
        ∀ e ∈ before, (∀ b, e ≠ .taskMarker b) ∧ ∀ start, e ≠ .start (.list start) := by
  induction events with
  | nil => simp [checkedOf]
  | cons e events ih =>
    by_cases hlist : ∃ start, e = .start (.list start)
    · obtain ⟨start, rfl⟩ := hlist
      -- no check box counts behind the start of a list
      simp only [checkedOf, List.takeWhile_cons, Bool.false_eq_true, if_false, List.findSome?_nil,
        reduceCtorEq, false_iff]
      rintro ⟨_ | ⟨f, before⟩, after, hevents, hbefore⟩
      · cases hevents
      · obtain ⟨rfl, -⟩ := List.cons.inj hevents
        exact (hbefore _ (by simp)).2 start rfl
    by_cases hmarker : ∃ b, e = .taskMarker b
    · obtain ⟨b, rfl⟩ := hmarker
      have hfirst : checkedOf (.taskMarker b :: events) = some b := rfl
      rw [hfirst]
      constructor
      · rintro ⟨rfl⟩
        exact ⟨[], events, rfl, by simp⟩
      · rintro ⟨_ | ⟨f, before⟩, after, hevents, hbefore⟩
        · cases hevents
          rfl
        · obtain ⟨rfl, -⟩ := List.cons.inj hevents
          exact absurd rfl ((hbefore _ (by simp)).1 b)
    · have hskip : checkedOf (e :: events) = checkedOf events := by
        cases e with
        | taskMarker b => exact absurd ⟨b, rfl⟩ hmarker
        | start tag =>
          cases tag with
          | list start => exact absurd ⟨start, rfl⟩ hlist
          | _ => rfl
        | _ => rfl
      have hplain : (∀ b, e ≠ .taskMarker b) ∧ ∀ start, e ≠ .start (.list start) :=
        ⟨fun b h => hmarker ⟨b, h⟩, fun start h => hlist ⟨start, h⟩⟩
      rw [hskip, ih]
      constructor
      · rintro ⟨before, after, rfl, hbefore⟩
        exact ⟨e :: before, after, rfl, List.forall_mem_cons.mpr ⟨hplain, hbefore⟩⟩
      · rintro ⟨_ | ⟨f, before⟩, after, hevents, hbefore⟩
        · exact absurd (List.cons.inj hevents).1 (hplain.1 checked)
        · obtain ⟨rfl, htail⟩ := List.cons.inj hevents
          exact ⟨before, after, htail, (List.forall_mem_cons.mp hbefore).2⟩

end Item

namespace BlockReader

variable {r : BlockReader} {e : PlacedEvent} {rest : List PlacedEvent}

theorem push_leaf (h : e.event.standsAlone = true) (hr : 0 < r.depth) :
    r.push e =
      ({ r with inner := e.event :: r.inner, comments := e.comment?.toList ++ r.comments },
        none) := by
  obtain ⟨event, span⟩ := e
  cases event with
  | start tag => cases h
  | stop tag => cases h
  | rule => simp [push, PlacedEvent.comment?, Nat.ne_of_gt hr]
  | inlineHtml s =>
    simp only [push, PlacedEvent.comment?]
    split <;> rfl
  | _ => simp [push, PlacedEvent.comment?]

theorem run_of_push_none {next : BlockReader} (h : r.push e = (next, none)) :
    r.run (e :: rest) = next.run rest := by
  rw [run, h]

theorem run_append (n : Nesting) (hr : 0 < r.depth) :
    r.run (n.placed ++ rest) =
      run { r with inner := n.events.reverse ++ r.inner
                   comments := n.comments.reverse ++ r.comments } rest := by
  induction n generalizing r rest with
  | done => rfl
  | leaf e alone more ih =>
    have hone : e.comment?.toList.reverse = e.comment?.toList := by cases e.comment? <;> rfl
    rw [Nesting.placed, List.cons_append, run_of_push_none (push_leaf alone hr), ih (by exact hr)]
    simp [hone]
  | element tag span inner stop more ihInner ihMore =>
    have hstart : r.push ⟨.start tag, span⟩ =
        ({ r with depth := r.depth + 1, inner := .start tag :: r.inner }, none) := by
      simp [push, Nat.ne_of_gt hr]
    rw [Nesting.placed, List.cons_append, run_of_push_none hstart, List.append_assoc,
      ihInner (by simp), List.cons_append]
    have hstop (k : BlockReader) (hk : 1 < k.depth) : k.push ⟨.stop tag.closing, stop⟩ =
        ({ k with depth := k.depth - 1, inner := .stop tag.closing :: k.inner }, none) := by
      simp [push, hk]
    rw [run_of_push_none (hstop _ (by simpa using hr)), ihMore (by simpa using hr)]
    simp

end BlockReader

inductive TopLevel
  | rule (span : Span)
  | element (tag : Tag) (span : Span) (inner : Nesting) (stop : Span)

namespace TopLevel

def placed : TopLevel → List PlacedEvent
  | rule span => [⟨.rule, span⟩]
  | element tag span inner stop =>
    ⟨.start tag, span⟩ :: (inner.placed ++ [⟨.stop tag.closing, stop⟩])

def kind : TopLevel → BlockKind
  | rule _ => .rule
  | element tag _ inner _ => .ofEvents tag inner.events

def span : TopLevel → Span
  | rule span => span
  | element _ span _ _ => span

def comments : TopLevel → List Span
  | rule _ => []
  | element tag span inner _ =>
    inner.comments ++ if BlockKind.ofEvents tag inner.events = .comment then [span] else []

end TopLevel

namespace BlockReader

theorem run_topLevel (t : TopLevel) (comments : List Span) (rest : List PlacedEvent) :
    run { comments := comments } (t.placed ++ rest) =
      ((t.kind, t.span) :: (run { comments := t.comments.reverse ++ comments } rest).1,
        (run { comments := t.comments.reverse ++ comments } rest).2) := by
  cases t with
  | rule span => simp [TopLevel.placed, run, push, TopLevel.kind, TopLevel.span, TopLevel.comments]
  | element tag span inner stop =>
    have hstart : push { comments := comments } ⟨.start tag, span⟩ =
        ({ depth := 1, opened := some (tag, span), comments := comments }, none) := rfl
    rw [TopLevel.placed, List.cons_append, run_of_push_none hstart, List.append_assoc,
      run_append inner (by simp)]
    by_cases hcomment : BlockKind.ofEvents tag inner.events = .comment <;>
      simp [run, push, TopLevel.kind, TopLevel.span, TopLevel.comments, hcomment]

theorem run_topLevels (ts : List TopLevel) (comments : List Span) :
    run { comments := comments } (ts.flatMap TopLevel.placed) =
      (ts.map fun t => (t.kind, t.span), comments.reverse ++ ts.flatMap TopLevel.comments) := by
  induction ts generalizing comments with
  | nil => simp [run]
  | cons t ts ih => simp [run_topLevel, ih]

end BlockReader

theorem Document.number_eq_mapIdx (source : Text) (i : Nat) (blocks : List (BlockKind × Span)) :
    number source i blocks =
      blocks.mapIdx fun k b =>
        ⟨b.1, b.2.trim source, lineOf source b.2.start, i + k + 1⟩ := by
  induction blocks generalizing i with
  | nil => rfl
  | cons b blocks ih =>
    have hshift (k : Nat) : i + 1 + k + 1 = i + (k + 1) + 1 := by omega
    simp [number, ih, hshift]

/-- The blocks of a document are its top-level elements, one by one and in order. Each is made of
the events inside its own element, and has the place of its own start. A list has the items
directly inside it, each made of the events inside that item, with the first check box that stands
before any list in it. -/
theorem Document.ofEvents_topLevels (source : Text) (ts : List TopLevel) :
    BlockReader.run {} (ts.flatMap TopLevel.placed) =
        (ts.map fun t => (t.kind, t.span), ts.flatMap TopLevel.comments) ∧
      (Document.ofEvents source (ts.flatMap TopLevel.placed)).blocks =
        ts.mapIdx (fun i t =>
          ⟨t.kind, t.span.trim source, lineOf source t.span.start, i + 1⟩) ∧
      (∀ (start : Option Nat) (span stop : Span) (inner : Nesting),
        (TopLevel.element (.list start) span inner stop).kind =
          .list ⟨start.isSome, inner.items.map fun item => Item.ofEvents item.events⟩) ∧
      ∀ (item : Nesting) (checked : Bool),
        (Item.ofEvents item.events).checked = some checked ↔
          ∃ before after, item.events = before ++ .taskMarker checked :: after ∧
            ∀ e ∈ before, (∀ b, e ≠ .taskMarker b) ∧ ∀ start, e ≠ .start (.list start) := by
  have hrun := BlockReader.run_topLevels ts []
  refine ⟨hrun, ?_, ?_, fun item checked => Item.checkedOf_eq_some_iff⟩
  · simp only [ofEvents, hrun, number_eq_mapIdx, Nat.zero_add]
    exact List.ext_getElem? fun i => by simp [Function.comp_def]
  · intro start span stop inner
    simp [TopLevel.kind, BlockKind.ofEvents, AnswerList.ofEvents, Item.contents_events]

end Quizdown
