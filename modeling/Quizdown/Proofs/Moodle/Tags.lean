import Quizdown.Proofs.Assembly.Questions
import Quizdown.Proofs.Moodle.Lossless
import Mathlib.Data.List.Sort

/-! The tags of a rendered question. Those of the heading come first and as they are, since they
are clean already; then the configured ones, where they have not occurred before. -/
set_option autoImplicit false

namespace Quizdown

/-- The texts of `all`, each once, in the order in which they occur first. -/
structure FirstOccurrences (all firsts : Texts) : Prop where
  mem : ∀ t, t ∈ firsts ↔ t ∈ all
  order : firsts.Pairwise fun s t => all.idxOf s < all.idxOf t

/-- The pieces of a text between its commas. -/
structure CommaParts (s : Text) (parts : Texts) : Prop where
  some : parts ≠ []
  whole : Text.join [','] parts = s
  apart : ∀ part ∈ parts, ',' ∉ part

def cleaned (ts : Texts) : Texts := (ts.filter fun t => !Text.isAllBlank t).map Text.trim

variable {ts us firsts : Texts} {s t : Text}

theorem FirstOccurrences.nodup (h : FirstOccurrences ts firsts) : firsts.Nodup :=
  h.order.imp fun hlt heq => absurd (congrArg ts.idxOf heq) (Nat.ne_of_lt hlt)

namespace Text

theorem firstOccurrences_distinct (ts : Texts) : FirstOccurrences ts (distinct ts) where
  mem _ := mem_distinct
  order := by
    induction ts with
    | nil => exact .nil
    | cons s ts ih =>
      have hbehind {t : Text} (ht : t ∈ (distinct ts).filter (· ≠ s)) :
          (s :: ts).idxOf t = ts.idxOf t + 1 :=
        List.idxOf_cons_ne ts (Ne.symm (by simpa using (List.mem_filter.mp ht).2))
      rw [distinct, List.pairwise_cons]
      refine ⟨fun t ht => ?_, (ih.filter _).imp_of_mem fun ht hu hlt => ?_⟩
      · rw [List.idxOf_cons_self, hbehind ht]
        exact Nat.succ_pos _
      · rw [hbehind ht, hbehind hu]
        exact Nat.succ_lt_succ hlt

theorem firstOccurrences_iff : FirstOccurrences ts firsts ↔ firsts = distinct ts := by
  refine ⟨fun h => ?_, fun h => h ▸ firstOccurrences_distinct ts⟩
  have hdistinct := firstOccurrences_distinct ts
  have hperm : firsts.Perm (distinct ts) :=
    (List.perm_ext_iff_of_nodup h.nodup hdistinct.nodup).mpr fun t =>
      (h.mem t).trans (hdistinct.mem t).symm
  exact hperm.eq_of_pairwise (fun a b _ _ hab hba => absurd hab (Nat.lt_asymm hba)) h.order
    hdistinct.order

theorem distinct_append (ts us : Texts) :
    distinct (ts ++ us) = distinct ts ++ (distinct us).filter (· ∉ ts) := by
  induction ts with
  | nil => simp [distinct]
  | cons t ts ih =>
    simp only [List.cons_append, distinct, ih, List.filter_append, List.filter_filter,
      List.mem_cons, not_or, Bool.decide_and]

theorem distinct_eq_self (h : ts.Nodup) : distinct ts = ts := by
  induction ts with
  | nil => rfl
  | cons t ts ih =>
    obtain ⟨ht, hts⟩ := List.nodup_cons.mp h
    rw [distinct, ih hts, List.filter_eq_self.mpr fun u hu => ?_]
    have hne : u ≠ t := fun heq => ht (heq ▸ hu)
    simpa using hne

theorem commaParts_splitBy (s : Text) : CommaParts s (splitBy (· == ',') s) where
  some := splitBy_ne_nil _ s
  whole := by
    induction s with
    | nil => rfl
    | cons c s ih =>
      rw [splitBy]
      obtain ⟨piece, pieces, hpieces⟩ := List.exists_cons_of_ne_nil (splitBy_ne_nil (· == ',') s)
      rw [hpieces] at ih ⊢
      split
      · rename_i hc
        rw [join_cons (List.cons_ne_nil _ _), ih, eq_of_beq hc]
        rfl
      · cases pieces <;> simp_all [join]
  apart part hpart hcomma := by
    have hno := not_of_mem_splitBy hpart ',' hcomma
    cases hno

end Text

theorem cleaned_append (ts us : Texts) : cleaned (ts ++ us) = cleaned ts ++ cleaned us := by
  simp [cleaned]

theorem cleaned_eq (ts : Texts) :
    (ts.map Text.trim).filter (fun t => !t.isEmpty) = cleaned ts := by
  have hempty (t : Text) : (Text.trim t).isEmpty = Text.isAllBlank t := by
    rw [Bool.eq_iff_iff, List.isEmpty_iff, Text.trim_eq_nil_iff]
  simp [cleaned, List.filter_map, Function.comp_def, hempty]

theorem cleaned_clean : ∀ t ∈ cleaned ts, t ≠ [] ∧ Text.Trimmed t := by
  intro t ht
  obtain ⟨u, hu, rfl⟩ := List.mem_map.mp ht
  have hblank : Text.isAllBlank u = false := by simpa using (List.mem_filter.mp hu).2
  refine ⟨fun hnil => ?_, Text.trimmed_trim u⟩
  rw [Text.trim_eq_nil_iff, hblank] at hnil
  cases hnil

theorem cleaned_eq_self (h : ∀ t ∈ ts, t ≠ [] ∧ Text.Trimmed t) : cleaned ts = ts := by
  have htrim : ts.map Text.trim = ts :=
    List.map_congr_left (fun t ht => Text.trim_eq_self (h t ht).2) |>.trans (List.map_id ts)
  rw [← cleaned_eq, htrim, List.filter_eq_self]
  exact fun t ht => by simpa using (h t ht).1

theorem splitTags_eq (heading : Text) :
    splitTags heading = Text.distinct (cleaned (Text.splitBy (· == ',') heading)) := by
  rw [splitTags, cleaned_eq]

/-! Tags of a heading. -/

/-- The text of the last level-1 heading among the blocks. -/
def LastTagHeading (before : List Block) (heading : Text) : Prop :=
  ∃ front b back, before = front ++ b :: back ∧ b.kind = .heading 1 heading ∧
    ∀ c ∈ back, ∀ text, c.kind ≠ .heading 1 text

theorem BlockKind.tagText?_eq_some_iff {k : BlockKind} {text : Text} :
    k.tagText? = some text ↔ k = .heading 1 text := by
  cases k <;> simp [tagText?]

theorem tagsAt_of_lastTagHeading {before : List Block} {heading : Text}
    (h : LastTagHeading before heading) : tagsAt before = splitTags heading := by
  obtain ⟨front, b, back, rfl, hb, hback⟩ := h
  have hnone : (back.reverse.findSome? fun c => c.kind.tagText?) = none := by
    rw [List.findSome?_eq_none_iff]
    intro c hc
    rw [Option.eq_none_iff_forall_ne_some]
    exact fun text htext =>
      hback c (List.mem_reverse.mp hc) text (BlockKind.tagText?_eq_some_iff.mp htext)
  have hsome : b.kind.tagText? = some heading := BlockKind.tagText?_eq_some_iff.mpr hb
  simp [tagsAt, List.findSome?_append, hnone, hsome]

theorem tagsAt_of_none {before : List Block}
    (h : ∀ b ∈ before, ∀ text, b.kind ≠ .heading 1 text) : tagsAt before = [] := by
  have hnone : (before.reverse.findSome? fun b => b.kind.tagText?) = none := by
    rw [List.findSome?_eq_none_iff]
    intro b hb
    rw [Option.eq_none_iff_forall_ne_some]
    exact fun text htext =>
      h b (List.mem_reverse.mp hb) text (BlockKind.tagText?_eq_some_iff.mp htext)
  rw [tagsAt, hnone]
  rfl

theorem exists_split_of_lt_countP {α : Type} {p : α → Bool} {l : List α} {i : Nat}
    (h : i < l.countP p) : ∃ before a after, l = before ++ a :: after ∧ p a = true ∧
      before.countP p = i := by
  induction l generalizing i with
  | nil => cases h
  | cons a l ih =>
    rw [List.countP_cons] at h
    by_cases ha : p a = true ∧ i = 0
    · exact ⟨[], a, l, rfl, ha.1, by simp [ha.2]⟩
    · have hrest : i - (if p a = true then 1 else 0) < l.countP p := by
        split_ifs at h ⊢ with hpa
        · have hi : i ≠ 0 := fun hi => ha ⟨hpa, hi⟩
          omega
        · omega
      obtain ⟨before, b, after, rfl, hb, hi⟩ := ih hrest
      refine ⟨a :: before, b, after, rfl, hb, ?_⟩
      rw [List.countP_cons, hi]
      split_ifs with hpa
      · have hi0 : i ≠ 0 := fun h0 => ha ⟨hpa, h0⟩
        omega
      · omega

theorem exists_list_of_getElem? {settings : Settings} {d : Document} {qs : List Question}
    (h : assemble settings d = .ok qs) {i : Nat} {q : Question} (hq : qs[i]? = some q) :
    ∃ before b after, d.content = before ++ b :: after ∧ b.kind.isList = true ∧
      before.countP (fun c => c.kind.isList) = i ∧ q.tags = tagsAt before := by
  obtain ⟨hall, -, rfl⟩ := assemble_eq_ok_iff.mp h
  obtain ⟨hi, -⟩ := List.getElem?_eq_some_iff.mp hq
  rw [Assembly.length_questionsFrom hall] at hi
  obtain ⟨before, b, after, hcontent, hb, hcount⟩ := exists_split_of_lt_countP hi
  refine ⟨before, b, after, hcontent, hb, hcount, ?_⟩
  rw [hcontent, Assembly.continuesAll_append] at hall
  obtain ⟨hbefore, hcontinues, -⟩ := hall
  obtain ⟨list, hlist⟩ := BlockKind.isList_iff.mp hb
  simp only [List.nil_append, Assembly.Continues, hlist] at hcontinues
  obtain ⟨p, hp⟩ := hcontinues.question?_isSome (tagsAt before)
  rw [hcontent, ← hcount, Assembly.getElem?_questionsFrom hbefore] at hq
  have hat : Assembly.questionAt settings before b = some p := by
    rw [Assembly.questionAt, hlist]
    exact hp
  rw [hat] at hq
  obtain rfl : p = q := Option.some.inj hq
  unfold Lead.question? at hp
  split at hp
  · cases hp
    rfl
  · cases hp

namespace Moodle

def tagTexts (e : Element) : List (Text × Option Text) :=
  (e.childrenTagged "tags".toList).flatMap fun tags =>
    tags.children.map fun tag => (tag.tag, tag.textAt? "text".toList)

/-- Settings come first, and then subquestions if the question is a matching one, or answers. -/
theorem tag_of_mem_kindElements {q : Question} {e : Element} (h : e ∈ kindElements q) :
    e.tag ∈ ["shuffleanswers", "single", "answernumbering", "usecase"].map String.toList ∨
      e.tag = (if q.kind.isMatching then "subquestion" else "answer").toList := by
  have hleaf (tag : String) {text : Text}
      (htag : tag ∈ ["shuffleanswers", "single", "answernumbering", "usecase"]) :
      (Element.leaf tag.toList text).tag ∈
        ["shuffleanswers", "single", "answernumbering", "usecase"].map String.toList :=
    List.mem_map_of_mem htag
  unfold kindElements at h
  cases hkind : q.kind with
  | singleChoice | multipleChoice =>
    simp only [hkind, List.mem_append, List.mem_cons, List.not_mem_nil, or_false] at h
    rcases h with (rfl | rfl | rfl) | h
    · exact .inl (hleaf _ (by decide))
    · exact .inl (hleaf _ (by decide))
    · exact .inl (hleaf _ (by decide))
    · exact .inr (tag_of_mem_map (f := choiceAnswer) (fun _ => rfl) e h)
  | enumeratedMatching =>
    simp only [hkind, List.mem_cons] at h
    rcases h with rfl | h
    · exact .inl (hleaf _ (by decide))
    · exact .inr (tag_of_mem_enumeratedPairs h)
  | associativeMatching =>
    simp only [hkind, List.mem_cons] at h
    rcases h with rfl | h
    · exact .inl (hleaf _ (by decide))
    · exact .inr (tag_of_mem_map (f := associativePair) (fun _ => rfl) e h)
  | shortAnswer =>
    simp only [hkind, List.mem_cons] at h
    rcases h with rfl | h
    · exact .inl (hleaf _ (by decide))
    · exact .inr (tag_of_mem_map (f := shortAnswer) (fun _ => rfl) e h)
  | numerical =>
    simp only [hkind] at h
    exact .inr (tag_of_mem_map (f := numericalAnswer) (fun _ => rfl) e h)

theorem tagTexts_question (settings : Settings) (q : Question) :
    tagTexts (question settings q) =
      (tagsOf settings q).map fun t => ("tag".toList, some t) := by
  have hkind : (kindElements q).filter (fun c => c.tag = "tags".toList) = [] :=
    List.filter_eq_nil_iff.mpr fun e he htag => by
      have hmem := tag_of_mem_kindElements he
      rw [of_decide_eq_true htag] at hmem
      rcases hmem with hmem | hmem
      · exact absurd hmem (by decide)
      · split at hmem <;> exact absurd hmem (by decide)
  have htags : (question settings q).childrenTagged "tags".toList =
      .node "tags".toList ((tagsOf settings q).map (Element.wrapped "tag".toList)) ::
        (kindElements q).filter fun c => c.tag = "tags".toList := rfl
  rw [tagTexts, htags, hkind, List.flatMap_singleton, Element.node, Element.children, List.map_map]
  rfl

theorem tagsOf_eq (settings : Settings) (q : Question) : tagsOf settings q = Text.distinct
    (cleaned (q.tags ++ settings.tags.general ++ settings.tags.forKind q.kind)) := by
  rw [tagsOf, cleaned_eq]

/-- Clean tags without repetitions are not touched by what is added to them. -/
theorem tags_prefix_tagsOf {q : Question} (hnodup : q.tags.Nodup)
    (hclean : ∀ t ∈ q.tags, t ≠ [] ∧ Text.Trimmed t) (settings : Settings) :
    q.tags <+: tagsOf settings q := by
  rw [tagsOf_eq, List.append_assoc, cleaned_append, cleaned_eq_self hclean, Text.distinct_append,
    Text.distinct_eq_self hnodup]
  exact List.prefix_append _ _

end Moodle
end Quizdown
