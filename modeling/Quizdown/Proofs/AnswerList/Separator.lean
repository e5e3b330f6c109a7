import Quizdown.Config.Load
import Quizdown.Document.Build
import Quizdown.Proofs.AnswerList.Shape
import Quizdown.Proofs.Text.Escape

/-! Which separators work. Pairs are told from the HTML of their items, in which `<`, `>` and `&`
are written as references, while the separator is compared as it is configured. So a list of texts
with a separator in each is read as pairs, each as it was written, exactly if the separator has none
of these characters and begins within no reference in a key. -/
set_option autoImplicit false

namespace Quizdown

structure Pairing where
  key : Text
  value : Text
deriving DecidableEq, Repr

namespace Pairing

def text (separator : Text) (p : Pairing) : Text := p.key ++ separator ++ p.value

def item (separator : Text) (p : Pairing) : Item := .ofEvents [.text (p.text separator)]

def answer (p : Pairing) : Answer where
  text := escapeText (Text.trim p.value)
  matchKey := some (escapeText (Text.trim p.key))
  matchValue := some (escapeText (Text.trim p.value))

/-- Neither side is blank, and the first separator in the text is the one between them. -/
structure Clear (separator : Text) (p : Pairing) : Prop where
  key : Text.isAllBlank p.key = false
  value : Text.isAllBlank p.value = false
  first : Text.splitFirst? separator (p.text separator) = some (p.key, p.value)

/-- In the HTML of the item a separator begins within the reference for a character of the key. -/
def MeetsReference (separator : Text) (p : Pairing) : Prop :=
  ∃ before c after part, p.key = before ++ c :: after ∧ isMarkup c = true ∧
    part <:+ (escapeText [c]).tail ∧ part ≠ [] ∧
      separator <+: part ++ escapeText after ++ separator

end Pairing

namespace Text

variable {separator s t : Text}

theorem splitOutsideTags_eq (hseparator : separator ≠ []) (hs : '<' ∉ s) :
    splitOutsideTags separator s = splitFirst? separator s := by
  have hfrom : splitOutsideTagsFrom separator false s = splitFirst? separator s := by
    induction s with
    | nil => simp [splitOutsideTagsFrom, splitFirst?, hseparator]
    | cons c s ih =>
      obtain ⟨hc, hs⟩ : '<' ≠ c ∧ '<' ∉ s := by simpa using hs
      rw [splitOutsideTagsFrom, splitFirst?, if_neg (Ne.symm hc), ih hs]
      rfl
  rw [splitOutsideTags, hfrom, if_neg (by simpa using hseparator)]

theorem prefix_of_splitFirst? {needle before rest x y : Text}
    (h : splitFirst? needle s = some (before, rest)) (hs : s = x ++ needle ++ y) :
    before <+: x := by
  obtain ⟨hsplit, hfirst⟩ := splitFirst?_eq_some_iff.mp h
  have hbefore : before <+: s := ⟨needle ++ rest, by rw [hsplit, List.append_assoc]⟩
  have hx : x <+: s := ⟨needle ++ y, by rw [hs, List.append_assoc]⟩
  rcases List.prefix_or_prefix_of_prefix hbefore hx with hle | ⟨z, rfl⟩
  · exact hle
  · by_cases hz : z = []
    · simp [hz]
    · refine absurd ?_ (hfirst z (List.suffix_append x z) hz)
      have hsame : x ++ (z ++ needle ++ rest) = x ++ (needle ++ y) := by
        simpa using hsplit.symm.trans hs
      exact prefix_append_iff.mp ⟨y, (List.append_cancel_left hsame).symm⟩

end Text

namespace Pairing

variable {separator : Text} {p : Pairing}

theorem html_item (separator : Text) (p : Pairing) :
    (p.item separator).html = Text.trim (escapeText (p.text separator)) := by
  simp [item, Item.ofEvents, HtmlWriter.render, HtmlWriter.emit, HtmlWriter.item]

theorem text_item (separator : Text) (p : Pairing) :
    (p.item separator).text = Text.trim (p.text separator) := by
  simp [item, Item.ofEvents, plainText, rawPlainText, Event.plain]

theorem checked_item (separator : Text) (p : Pairing) : (p.item separator).checked = none := rfl

theorem html_item_eq (h : p.Clear separator) : (p.item separator).html =
    Text.trimStart (escapeText p.key) ++ escapeText separator ++
      Text.trimEnd (escapeText p.value) := by
  have hkey : Text.isAllBlank (escapeText p.key) = false := by
    rw [Text.isAllBlank_escapeText, h.key]
  have hvalue : Text.isAllBlank (escapeText p.value) = false := by
    rw [Text.isAllBlank_escapeText, h.value]
  rw [html_item, text, escapeText_append, escapeText_append, Text.trim, List.append_assoc,
    Text.trimStart_append_of_not_blank hkey, ← List.append_assoc,
    Text.trimEnd_append_of_not_blank hvalue]

theorem lt_not_mem_html (separator : Text) (p : Pairing) : '<' ∉ (p.item separator).html := by
  rw [html_item]
  exact fun h => Xml.ne_of_mem_escapeText (Text.mem_of_mem_trim h) rfl

/-- A separator that is written as it is occurs in the escaped text where it occurs in the text, and
perhaps within references. -/
theorem not_prefix_of_clear (h : p.Clear separator) (hplain : ∀ c ∈ separator, isMarkup c = false)
    (hmeets : ¬ p.MeetsReference separator) {y : Text} (hy : y <:+ escapeText p.key)
    (hne : y ≠ []) : ¬ separator <+: y ++ separator := by
  intro hbegins
  rcases suffix_escapeText hy with ⟨u, hu, rfl⟩ |
    ⟨before, c, after, part, hkey, hc, hpart, hpartne, rfl⟩
  · rw [← escapeText_eq_self hplain, ← escapeText_append, escapeText_eq_self hplain] at hbegins
    have hfirst := (Text.splitFirst?_eq_some_iff.mp h.first).2
    exact hfirst u hu (fun hnil => hne (by rw [hnil]; rfl))
      (prefix_of_prefix_escapeText hplain hbegins)
  · exact hmeets ⟨before, c, after, part, hkey, hc, hpart, hpartne, hbegins⟩

theorem Clear.text_item (h : p.Clear separator) :
    Text.isAllBlank (p.item separator).text = false := by
  have hkey := h.key
  rw [Bool.eq_false_iff, Ne, Text.isAllBlank_iff] at hkey ⊢
  rw [Pairing.text_item, ← Text.solid_eq_nil_iff, Text.solid_trim, Text.solid_eq_nil_iff]
  exact fun hall => hkey fun c hc => hall c (by simp [text, hc])

theorem answer_eq (p : Pairing) : p.answer =
    { text := Text.trim (escapeText p.value), matchKey := some (Text.trim (escapeText p.key)),
      matchValue := some (Text.trim (escapeText p.value)) } := by
  rw [answer, Text.trim_escapeText, Text.trim_escapeText]

theorem trim_escapeText_ne_nil {s : Text} (h : Text.isAllBlank s = false) :
    Text.trim (escapeText s) ≠ [] := fun hnil => by
  rw [Text.trim_eq_nil_iff, Text.isAllBlank_escapeText, h] at hnil
  cases hnil

theorem pair?_eq_answer (h : p.Clear separator) (hseparator : separator ≠ [])
    (hplain : ∀ c ∈ separator, isMarkup c = false) (hmeets : ¬ p.MeetsReference separator) :
    (p.item separator).pair? separator = some p.answer := by
  have hsplit : Text.splitOutsideTags separator (p.item separator).html =
      some (Text.trimStart (escapeText p.key), Text.trimEnd (escapeText p.value)) := by
    rw [Text.splitOutsideTags_eq hseparator (lt_not_mem_html separator p),
      Text.splitFirst?_eq_some_iff, html_item_eq h, escapeText_eq_self hplain]
    exact ⟨rfl, fun y hy hne =>
      not_prefix_of_clear h hplain hmeets (hy.trans (Text.trimStart_suffix _)) hne⟩
  rw [Item.pair?, hsplit, answer_eq]
  simp [Text.trim_trimStart, Text.trim_trimEnd, trim_escapeText_ne_nil h.key,
    trim_escapeText_ne_nil h.value]

theorem splitFirst?_of_pair? (hseparator : separator ≠ [])
    (h : (p.item separator).pair? separator = some p.answer) : ∃ key value,
      Text.splitFirst? separator (p.item separator).html = some (key, value) ∧
        Text.solid key = Text.solid (escapeText p.key) ∧
        Text.solid value = Text.solid (escapeText p.value) := by
  rw [Item.pair?, Text.splitOutsideTags_eq hseparator (lt_not_mem_html separator p)] at h
  split at h
  · cases h
  rename_i key value hfound
  dsimp only at h
  split at h
  · cases h
  rw [answer_eq] at h
  obtain ⟨hvalue, hkey, -⟩ : Text.trim value = Text.trim (escapeText p.value) ∧
      Text.trim key = Text.trim (escapeText p.key) ∧
      Text.trim value = Text.trim (escapeText p.value) := by simpa using h
  refine ⟨key, value, hfound, ?_, ?_⟩
  · rw [← Text.solid_trim key, hkey, Text.solid_trim]
  · rw [← Text.solid_trim value, hvalue, Text.solid_trim]

theorem plain_of_pair? (h : p.Clear separator) (hseparator : separator ≠ [])
    (hpair : (p.item separator).pair? separator = some p.answer) :
    ∀ c ∈ separator, isMarkup c = false := by
  obtain ⟨key, value, hfound, hkey, hvalue⟩ := splitFirst?_of_pair? hseparator hpair
  have hsame := congrArg Text.solid (Text.splitFirst?_eq_some hfound)
  rw [html_item_eq h] at hsame
  simp only [Text.solid_append, Text.solid_trimStart, Text.solid_trimEnd, hkey, hvalue] at hsame
  have hsolid := List.append_cancel_left (List.append_cancel_right hsame)
  exact Text.isMarkup_of_solid_escapeText hsolid

theorem MeetsReference.cut (h : p.MeetsReference separator) : ∃ x y, escapeText p.key = x ++ y ∧
    Text.isAllBlank x = false ∧ ¬ (∀ d ∈ y, Text.isBlank d = true) ∧
      separator <+: y ++ separator := by
  obtain ⟨before, c, after, part, hkey, hc, ⟨front, hpart⟩, hne, hbegins⟩ := h
  have hblank := not_isBlank_of_mem_escapeText (isBlank_of_isMarkup hc)
  obtain ⟨name, hname, -⟩ := reference_cases hc
  rw [hname, List.tail_cons] at hpart
  rw [hname] at hblank
  refine ⟨escapeText before ++ '&' :: front, part ++ escapeText after, ?_, ?_, ?_, hbegins⟩
  · rw [hkey, escapeText_append, escapeText_cons, hname, ← hpart]
    simp
  · rw [Bool.eq_false_iff, Ne, Text.isAllBlank_iff]
    intro hall
    cases hall '&' (by simp)
  · obtain ⟨d, part, rfl⟩ := List.exists_cons_of_ne_nil hne
    intro hall
    have hd : Text.isBlank d = false := hblank d (by simp [← hpart])
    rw [hall d (by simp)] at hd
    cases hd

theorem not_meetsReference_of_pair? (h : p.Clear separator) (hseparator : separator ≠ [])
    (hpair : (p.item separator).pair? separator = some p.answer) :
    ¬ p.MeetsReference separator := by
  intro hmeets
  have hplain := plain_of_pair? h hseparator hpair
  obtain ⟨key, value, hfound, hkey, -⟩ := splitFirst?_of_pair? hseparator hpair
  obtain ⟨x, y, hcut, hx, hy, z, hz⟩ := hmeets.cut
  have hhtml : (p.item separator).html = Text.trimStart x ++ separator ++
      (z ++ Text.trimEnd (escapeText p.value)) := by
    rw [html_item_eq h, hcut, Text.trimStart_append_of_not_blank hx, escapeText_eq_self hplain,
      List.append_assoc (Text.trimStart x), ← hz]
    simp only [List.append_assoc]
  have hbefore : Text.solid key <+: Text.solid (Text.trimStart x) :=
    (Text.prefix_of_splitFirst? hfound hhtml).filter _
  rw [hkey, hcut, Text.solid_append, Text.solid_trimStart] at hbefore
  have hlength := hbefore.length_le
  rw [List.length_append] at hlength
  exact hy (Text.solid_eq_nil_iff.mp (List.length_eq_zero_iff.mp (by omega)))

theorem pair?_eq_answer_iff (h : p.Clear separator) (hseparator : separator ≠ []) :
    (p.item separator).pair? separator = some p.answer ↔
      (∀ c ∈ separator, isMarkup c = false) ∧ ¬ p.MeetsReference separator :=
  ⟨fun hpair => ⟨plain_of_pair? h hseparator hpair, not_meetsReference_of_pair? h hseparator hpair⟩,
    fun ⟨hplain, hmeets⟩ => pair?_eq_answer h hseparator hplain hmeets⟩

/-- No reference goes on with the first character of the separator. -/
theorem not_meetsReference_of_head (hseparator : separator ≠ [])
    (hhead : ∀ d ∈ separator.head?, d ∉ "ltgamp;".toList) : ¬ p.MeetsReference separator := by
  rintro ⟨before, c, after, part, -, hc, hpart, hne, hbegins⟩
  obtain ⟨d, separator, rfl⟩ := List.exists_cons_of_ne_nil hseparator
  obtain ⟨e, part, rfl⟩ := List.exists_cons_of_ne_nil hne
  rw [List.cons_append, List.cons_append, List.cons_prefix_cons] at hbegins
  obtain ⟨name, hname, -, hletters⟩ := reference_cases hc
  rw [hname, List.tail_cons] at hpart
  refine hhead d rfl ?_
  rw [hbegins.1]
  exact hletters (hpart.mem (List.mem_cons_self ..))

end Pairing

theorem Config.fault?_blankSeparator_iff {settings : Settings} :
    fault? settings = some .blankSeparator ↔ Text.isAllBlank settings.matchingSeparator = true := by
  unfold fault?
  split_ifs with hblank hgrade hpenalty <;> simp [hblank]

namespace AnswerList

variable {separator : Text} {items : List Item} {ordered forceMulti : Bool}

theorem pairs?_map_eq_some_iff {α : Type} {item : α → Item} {answer : α → Answer} {ps : List α} :
    pairs? separator (ps.map item) = some (ps.map answer) ↔
      ∀ p ∈ ps, (item p).pair? separator = some (answer p) := by
  induction ps with
  | nil => simp [pairs?]
  | cons p ps ih =>
    rw [List.forall_mem_cons, ← ih, List.map_cons, List.map_cons, pairs?]
    cases (item p).pair? separator <;> cases pairs? separator (ps.map item) <;> simp

theorem classify_eq_associative_iff {answers : List Answer} (htwo : 2 ≤ items.length)
    (htext : ∀ i ∈ items, Text.isAllBlank i.text = false) (hplain : ∀ i ∈ items, i.checked = none) :
    (mk ordered items).classify forceMulti separator = .ok ⟨.associativeMatching, answers⟩ ↔
      pairs? separator items = some answers := by
  have hboxes : (items.filter fun i => i.checked.isSome) = [] := by
    simpa [List.filter_eq_nil_iff] using hplain
  obtain ⟨first, second, rest, rfl⟩ : ∃ first second rest, items = first :: second :: rest := by
    match items, htwo with
    | first :: second :: rest, _ => exact ⟨first, second, rest, rfl⟩
  unfold classify
  simp only [hboxes, firstBlank?_eq_none_iff.mpr htext, htwo]
  cases hpairs : pairs? separator (first :: second :: rest) with
  | some found => simp
  | none => cases ordered <;> simp

/-- Which separators work: those that are not escaped themselves, on keys in whose references they
do not begin. -/
theorem classify_pairings_iff {settings : Settings}
    (hsettings : Config.fault? settings ≠ some .blankSeparator) {pairings : List Pairing}
    (htwo : 2 ≤ pairings.length) (hclear : ∀ p ∈ pairings, p.Clear settings.matchingSeparator)
    (ordered forceMulti : Bool) :
    (mk ordered (pairings.map (Pairing.item settings.matchingSeparator))).classify forceMulti
        settings.matchingSeparator = .ok ⟨.associativeMatching, pairings.map Pairing.answer⟩ ↔
      (∀ c ∈ settings.matchingSeparator, isMarkup c = false) ∧
        ∀ p ∈ pairings, ¬ p.MeetsReference settings.matchingSeparator := by
  rw [Ne, Config.fault?_blankSeparator_iff, Bool.not_eq_true] at hsettings
  have hseparator : settings.matchingSeparator ≠ [] := fun hnil => by
    rw [hnil] at hsettings
    cases hsettings
  have hpair : ∀ p ∈ pairings, _ := fun p hp => Pairing.pair?_eq_answer_iff (hclear p hp) hseparator
  rw [classify_eq_associative_iff (by simpa using htwo), pairs?_map_eq_some_iff]
  · constructor
    · intro hall
      refine ⟨?_, fun p hp => ((hpair p hp).mp (hall p hp)).2⟩
      obtain ⟨p, hp⟩ := List.exists_mem_of_length_pos (Nat.lt_of_lt_of_le Nat.two_pos htwo)
      exact ((hpair p hp).mp (hall p hp)).1
    · exact fun ⟨hplain, hmeets⟩ p hp => (hpair p hp).mpr ⟨hplain, hmeets p hp⟩
  · rw [List.forall_mem_map]
    exact fun p hp => (hclear p hp).text_item
  · rw [List.forall_mem_map]
    exact fun p _ => Pairing.checked_item settings.matchingSeparator p

theorem classify_pairings_doubleColon :
    Config.fault? { matchingSeparator := "::".toList } ≠ some .blankSeparator ∧
      (∀ p ∈ [⟨"a < b ".toList, " less".toList⟩, ⟨"R & D".toList, "lab".toList⟩],
        Pairing.Clear "::".toList p) ∧
      (mk false [Pairing.item "::".toList ⟨"a < b ".toList, " less".toList⟩,
        Pairing.item "::".toList ⟨"R & D".toList, "lab".toList⟩]).classify false "::".toList =
          .ok ⟨.associativeMatching,
            [Pairing.answer ⟨"a < b ".toList, " less".toList⟩,
              Pairing.answer ⟨"R & D".toList, "lab".toList⟩]⟩ := by
  have hsettings : Config.fault? { matchingSeparator := "::".toList } ≠ some .blankSeparator := by
    rw [Ne, Config.fault?_blankSeparator_iff]
    decide
  have hclear : ∀ p ∈ [⟨"a < b ".toList, " less".toList⟩, ⟨"R & D".toList, "lab".toList⟩],
      Pairing.Clear "::".toList p := by
    rw [List.forall_mem_cons, List.forall_mem_singleton]
    exact ⟨⟨by decide, by decide, by decide⟩, ⟨by decide, by decide, by decide⟩⟩
  refine ⟨hsettings, hclear,
    (classify_pairings_iff hsettings (by decide) hclear false false).mpr ?_⟩
  exact ⟨by simp [isMarkup], fun p _ => Pairing.not_meetsReference_of_head (by decide) (by simp)⟩

/-- An arrow is accepted in the settings, and no pair is found around it: its `>` is a reference in
the HTML that is searched. -/
theorem classify_arrow_ambiguous :
    Config.fault? { matchingSeparator := "->".toList } ≠ some .blankSeparator ∧
      (∀ p ∈ [⟨"a ".toList, " b".toList⟩, ⟨"c ".toList, " d".toList⟩],
        Pairing.Clear "->".toList p) ∧
      (mk false [Pairing.item "->".toList ⟨"a ".toList, " b".toList⟩,
        Pairing.item "->".toList ⟨"c ".toList, " d".toList⟩]).classify false "->".toList =
          .error (.ambiguous 2) := by
  refine ⟨?_, ?_, rfl⟩
  · rw [Ne, Config.fault?_blankSeparator_iff]
    decide
  · rw [List.forall_mem_cons, List.forall_mem_singleton]
    exact ⟨⟨by decide, by decide, by decide⟩, ⟨by decide, by decide, by decide⟩⟩

-- A semicolon is found within the reference for the `&` of a key.
example : (Pairing.item ";".toList ⟨"R & D".toList, "lab".toList⟩).pair? ";".toList =
    some { text := "D;lab".toList, matchKey := some "R &amp".toList,
           matchValue := some "D;lab".toList } := rfl

end AnswerList
end Quizdown
