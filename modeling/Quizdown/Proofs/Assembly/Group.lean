import Quizdown.Assembly
import Quizdown.Proofs.Directive.Resolve
import Quizdown.Proofs.Text.Blank

/-! What a question is made of, said about the blocks alone. The blocks in front of an answer list,
back to the list or tag heading before, are its lead: every part of the question is a function of
the lead, of the list, and of the tag heading above. -/
set_option autoImplicit false

namespace Quizdown

namespace BlockKind

def tagText? : BlockKind → Option Text
  | heading level text => if level = 1 then some text else none
  | _ => none

def isTagHeading (k : BlockKind) : Bool := k.tagText?.isSome

def isNameHeading : BlockKind → Bool
  | heading level _ => level ≠ 1
  | _ => false

def isDescription : BlockKind → Bool
  | paragraph _ _ | code _ _ | rich _ _ => true
  | _ => false

def isList : BlockKind → Bool
  | list _ => true
  | _ => false

/-- Belongs to the question whose list is still to come. -/
def opens (k : BlockKind) : Bool := k.isNameHeading || k.isDescription

def closes (k : BlockKind) : Bool := k.isTagHeading || k.isList

def counts (k : BlockKind) : Bool := k.opens || k.closes

theorem isDescription_opens {k : BlockKind} (h : k.isDescription = true) : k.opens = true := by
  simp [opens, h]

theorem isNameHeading_opens {k : BlockKind} (h : k.isNameHeading = true) : k.opens = true := by
  simp [opens, h]

theorem isTagHeading_closes {k : BlockKind} (h : k.isTagHeading = true) : k.closes = true := by
  simp [closes, h]

theorem isList_closes {k : BlockKind} (h : k.isList = true) : k.closes = true := by
  simp [closes, h]

theorem isList_iff {k : BlockKind} : k.isList = true ↔ ∃ l, k = .list l := by
  cases k <;> simp [isList]

theorem opens_not_closes {k : BlockKind} (h : k.opens = true) : k.closes = false := by
  cases k <;>
    simp_all [opens, closes, isNameHeading, isDescription, isTagHeading, tagText?, isList]

theorem counts_iff {k : BlockKind} : k.counts = true ↔ k ≠ .rule ∧ k ≠ .comment := by
  cases k <;> simp [counts, opens, closes, isNameHeading, isDescription, isTagHeading, tagText?,
    isList, Decidable.or_iff_not_imp_left]

def directives : BlockKind → List Directive
  | paragraph html _ => (Directive.extract html).directives
  | _ => []

/-- What a block adds to a description. A paragraph that held nothing but directives adds
nothing. -/
def descriptionHtml : BlockKind → Text
  | paragraph html _ =>
    let rest := Directive.strip html
    if Assembly.isEmptyParagraph rest then [] else rest
  | code html _ | rich html _ => html
  | _ => []

def plainText : BlockKind → Text
  | paragraph html text =>
    let found := Directive.extract html
    if Assembly.isEmptyParagraph found.text then []
    else Text.trim (Directive.removeFrom found.directives text)
  | code _ text | rich _ text => Text.trim text
  | _ => []

end BlockKind

def Document.content (d : Document) : List Block := d.visibleBlocks.filter fun b => b.kind != .rule

namespace Lead

def title : List Block → Text
  | ⟨.heading _ text, _, _, _⟩ :: _ => Text.trim text
  | _ => []

def description (lead : List Block) : Text := lead.flatMap fun b => b.kind.descriptionHtml

def plain (lead : List Block) : Text :=
  Text.join [' '] ((lead.map fun b => b.kind.plainText).filter fun t => !t.isEmpty)

def directives (lead : List Block) : List Directive := lead.flatMap fun b => b.kind.directives

def config (settings : Settings) (lead : List Block) : QuestionConfig :=
  Directive.resolved (directives lead) settings.questionConfig

def name? (lead : List Block) : Option Text :=
  if (title lead).isEmpty then deriveName? (plain lead) else some (title lead)

def place : List Block → Location
  | b :: _ => Assembly.placeOf b
  | [] => ⟨0, 0⟩

/-- The question that a lead and an answer list make below a tag heading. -/
def question? (settings : Settings) (tags : Texts) (lead : List Block) (list : AnswerList) :
    Option Question :=
  match list.classify (config settings lead).forceMulti settings.matchingSeparator, name? lead with
  | .ok c, some name =>
    some
      { name := name
        tags := tags
        description := description lead
        kind := c.kind
        answers := c.answers
        config := config settings lead
        line := (place lead).line }
  | _, _ => none

end Lead

def openLead (before : List Block) : List Block :=
  (before.reverse.takeWhile fun b => !b.kind.closes).reverse

/-- The tags of the last level-1 heading; none if there is no such heading. -/
def tagsAt (before : List Block) : Texts :=
  ((before.reverse.findSome? fun b => b.kind.tagText?).map splitTags).getD []

theorem deriveName?_eq_none_iff {s : Text} : deriveName? s = none ↔ Text.isAllBlank s = true := by
  have hw : Text.join [' '] (Text.words s) = [] ↔ Text.isAllBlank s = true := by
    rw [Text.join_eq_nil_iff fun w => Text.ne_nil_of_mem_words, Text.words_eq_nil_iff]
  rw [← hw, deriveName?]
  by_cases h : Text.join [' '] (Text.words s) = []
  · simp [h]
  · simp only [List.isEmpty_iff, h, if_false, iff_false]
    split <;> simp

namespace Lead

theorem name?_isSome_iff {lead : List Block} :
    (name? lead).isSome = true ↔ title lead ≠ [] ∨ Text.isAllBlank (plain lead) = false := by
  rw [name?]
  by_cases h : title lead = []
  · rw [Option.isSome_iff_ne_none]
    simp [h, deriveName?_eq_none_iff]
  · simp [h]

@[simp] theorem directives_append (lead more : List Block) :
    directives (lead ++ more) = directives lead ++ directives more := by
  simp [directives]

theorem config_append (settings : Settings) (lead more : List Block) :
    config settings (lead ++ more) =
      Directive.resolved (directives more) (config settings lead) := by
  simp [config, Directive.resolved_append]

theorem title_append {lead more : List Block} (h : lead ≠ []) :
    title (lead ++ more) = title lead := by
  cases lead with
  | nil => exact absurd rfl h
  | cons b lead =>
    obtain ⟨kind, span, line, index⟩ := b
    cases kind <;> rfl

/-- One more block adds its plain text after a single blank, unless one of the two is empty. -/
theorem plain_concat (lead : List Block) (b : Block) :
    plain (lead ++ [b]) =
      if b.kind.plainText.isEmpty then plain lead
      else if (plain lead).isEmpty then b.kind.plainText
      else plain lead ++ ' ' :: b.kind.plainText := by
  by_cases hb : b.kind.plainText = []
  · simp [plain, hb]
  · have hts : plain lead = [] ↔
        (lead.map fun b => b.kind.plainText).filter (fun t => !t.isEmpty) = [] :=
      Text.join_eq_nil_iff fun t ht => by simpa using (List.mem_filter.mp ht).2
    by_cases hl : plain lead = []
    · have hnil := hts.mp hl
      simp only [plain, List.map_append, List.filter_append, hnil]
      simp [hb]
    · have hne := fun h => hl (hts.mpr h)
      have hj := @Text.join_concat [' '] b.kind.plainText _ hne
      simp only [List.isEmpty_iff, hb, hl, if_false]
      simpa [plain, hb] using hj

end Lead

theorem openLead_concat (before : List Block) (b : Block) :
    openLead (before ++ [b]) = if b.kind.closes then [] else openLead before ++ [b] := by
  by_cases h : b.kind.closes = true <;> simp [openLead, h]

theorem tagsAt_concat (before : List Block) (b : Block) :
    tagsAt (before ++ [b]) = (b.kind.tagText?.map splitTags).getD (tagsAt before) := by
  cases h : b.kind.tagText? <;> simp [tagsAt, h]

end Quizdown
