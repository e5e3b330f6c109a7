import Quizdown.Proofs.Xml.Token

/-! What is written is read back: the document of an element is read as that element. A reader in
any state takes an element as one child more, whatever its depth and whatever follows it; from
this everything about whole documents follows. -/
set_option autoImplicit false

namespace Quizdown

/-- An element that can be told from its document: the names are names, and what stands in front
of children is not white space alone, which would look like indentation. -/
inductive Element.Readable : Element → Prop
  | mk {tag : Text} {attributes : List (Text × Text)} {text : Text} {children : List Element}
      (named : Xml.isName tag = true)
      (attributesNamed : ∀ a ∈ attributes, Xml.isName a.1 = true)
      (visible : children ≠ [] → text ≠ [] → text.all Xml.isSpace = false)
      (childrenReadable : ∀ c ∈ children, c.Readable) :
      Readable (.mk tag attributes text children)

theorem Element.readable_leaf {tag : Text} (htag : Xml.isName tag = true) (text : Text) :
    (Element.leaf tag text).Readable :=
  .mk htag (by simp) (by simp) (by simp)

theorem Element.readable_node {tag : Text} {attributes : List (Text × Text)}
    {children : List Element} (htag : Xml.isName tag = true)
    (hattributes : (attributes.all fun a => Xml.isName a.1) = true)
    (hchildren : ∀ c ∈ children, c.Readable) : (Element.mk tag attributes [] children).Readable :=
  .mk htag (List.all_eq_true.mp hattributes) (fun _ h => absurd rfl h) hchildren

namespace Xml

theorem all_isSpace_newLine (depth : Nat) : (Element.newLine depth).all isSpace = true := by
  rw [List.all_eq_true]
  intro c hc
  rcases List.mem_cons.mp hc with rfl | hc
  · rfl
  · rw [(List.mem_replicate.mp hc).2]
    rfl

theorem newLine_plain {depth : Nat} {c : Char} (h : c ∈ Element.newLine depth) :
    c ≠ '&' ∧ c ≠ '<' := by
  have hspace := List.all_eq_true.mp (all_isSpace_newLine depth) c h
  rcases isSpace_iff.mp hspace with rfl | rfl | rfl | rfl <;> decide

namespace Stack

variable {k : Stack} {s rest : Text}

theorem run_of_readToken? {t : Token} (h : readToken? s = some (t, rest)) :
    k.run s = (k.step t).bind fun next => next.run rest := by
  have hne : s.isEmpty = false := by
    cases s with
    | nil => cases h
    | cons c s => rfl
  rw [run, hne, if_neg (by decide)]
  split
  · rename_i hnone
    rw [h] at hnone
    cases hnone
  · rename_i u rest' hsome
    rw [h] at hsome
    cases hsome
    cases k.step t <;> rfl

theorem run_text (k : Stack) (text : Text) (hchildren : k.current.children = [])
    (hrest : text ≠ [] → rest.head? = some '<') :
    k.run (escapeText text ++ rest) =
      run { k with current := { k.current with text := k.current.text ++ text } } rest := by
  by_cases hne : text = []
  · subst hne
    simp [escapeText]
  · rw [run_of_readToken? (readToken?_text (escapeText_ne_nil hne)
      (fun c hc => ne_of_mem_escapeText hc) (decode?_escapeText text) (by simp [hrest hne]))]
    simp [step, hchildren]

theorem run_newLine (k : Stack) (depth : Nat) (hrest : ∀ c ∈ rest.head?, c = '<') :
    k.run (Element.newLine depth ++ rest) =
      (k.step (.text (Element.newLine depth))).bind fun next => next.run rest :=
  run_of_readToken? (readToken?_text (by simp [Element.newLine])
    (fun c hc => (newLine_plain hc).2) (decode?_of_forall fun c hc => newLine_plain hc) hrest)

theorem step_newLine (hchildren : k.current.children ≠ []) (depth : Nat) :
    k.step (.text (Element.newLine depth)) = some k := by
  simp [step, hchildren, all_isSpace_newLine]

theorem step_newLine_add (hk : k.current.children ≠ [] ∨ k.current.text = []) (depth : Nat)
    (e : Element) :
    ∃ next, k.step (.text (Element.newLine depth)) = some next ∧ next.add e = k.add e := by
  by_cases hchildren : k.current.children = []
  · have htext : k.current.text = [] := hk.resolve_left (not_not_intro hchildren)
    refine ⟨_, by simp only [step, hchildren]; rfl, ?_⟩
    simp [add, Frame.add, htext, hchildren, all_isSpace_newLine]
  · exact ⟨k, step_newLine hchildren depth, rfl⟩

/-- Children gather behind a text that is more than layout. -/
theorem foldl_add {es : List Element} {f : Frame} (outer : List Frame)
    (hf : es ≠ [] → f.text ≠ [] → f.text.all isSpace = false) :
    es.foldl add ⟨f, outer⟩ = ⟨{ f with children := es.reverse ++ f.children }, outer⟩ := by
  induction es generalizing f with
  | nil => rfl
  | cons e es ih =>
    have hadd : add ⟨f, outer⟩ e = ⟨{ f with children := e :: f.children }, outer⟩ := by
      by_cases htext : f.text = []
      · simp [add, Frame.add, htext]
      · simp [add, Frame.add, hf (by simp) htext]
    have hrest := @ih { f with children := e :: f.children } fun _ => hf (by simp)
    simpa [hadd] using hrest

end Stack
end Xml

namespace Element

def closing (depth : Nat) (tag : Text) (children : List Element) : Text :=
  (if children.isEmpty then [] else newLine depth) ++ '<' :: '/' :: (tag ++ ['>'])

theorem body_of_content {tag : Text} {attributes : List (Text × Text)} {text : Text}
    {children : List Element} (h : ¬ (text = [] ∧ children = [])) (depth : Nat) :
    (mk tag attributes text children).body depth =
      '<' :: (tag ++ (attributes.flatMap attributeText ++ '>' :: (escapeText text ++
        (bodies (depth + 1) (!text.isEmpty) children ++ closing depth tag children)))) := by
  simp [body, closing, h]

theorem head?_body (e : Element) (depth : Nat) : (e.body depth).head? = some '<' := by
  obtain ⟨tag, attributes, text, children⟩ := e
  rw [body]
  split <;> rfl

theorem head?_content {text : Text} (h : text ≠ []) (depth : Nat) (tag : Text)
    (children : List Element) :
    (bodies (depth + 1) (!text.isEmpty) children ++ closing depth tag children).head? =
      some '<' := by
  cases children with
  | nil => rfl
  | cons c children => simp [bodies, h, head?_body]

end Element

namespace Xml
namespace Stack

theorem run_bodies {es : List Element} (depth : Nat) (rest : Text)
    (hes : ∀ e ∈ es, ∀ (k : Stack) (s : Text), k.run (e.body depth ++ s) = (k.add e).run s)
    (afterText : Bool) (k : Stack)
    (hk : afterText = true ∨ k.current.children ≠ [] ∨ k.current.text = []) :
    k.run (Element.bodies depth afterText es ++ rest) = (es.foldl add k).run rest := by
  induction es generalizing k afterText with
  | nil => rfl
  | cons e es ih =>
    have he := hes e (by simp)
    have hes' : ∀ f ∈ es, ∀ (k : Stack) (s : Text),
        k.run (f.body depth ++ s) = (k.add f).run s := fun f hf => hes f (by simp [hf])
    have hrest := ih hes' false (k.add e) (.inr (.inl (by simp [add, Frame.add])))
    rw [List.foldl_cons, ← hrest, Element.bodies]
    cases afterText with
    | true => simp [he]
    | false =>
      obtain ⟨next, hstep, hnext⟩ := step_newLine_add (hk.resolve_left (by decide)) depth e
      have hline : k.run (Element.newLine depth ++
          (e.body depth ++ (Element.bodies depth false es ++ rest))) = _ :=
        run_newLine k depth (by simp [Element.head?_body])
      rw [hstep, Option.bind_some, he, hnext] at hline
      simpa using hline

theorem run_closing {tag : Text} (htag : isName tag = true) (attributes : List (Text × Text))
    (text : Text) (children : List Element) (f : Frame) (outer : List Frame) (depth : Nat)
    (s : Text) :
    run ⟨⟨tag, attributes, text, children.reverse⟩, f :: outer⟩
        (Element.closing depth tag children ++ s) =
      run ⟨f.add (.mk tag attributes text children), outer⟩ s := by
  have hstop : run ⟨⟨tag, attributes, text, children.reverse⟩, f :: outer⟩
      ('<' :: '/' :: (tag ++ '>' :: s)) =
        run ⟨f.add (.mk tag attributes text children), outer⟩ s := by
    rw [run_of_readToken? (readToken?_stop htag s)]
    simp [step, Frame.element]
  by_cases hnone : children = []
  · subst hnone
    simpa [Element.closing] using hstop
  · have hline : Element.closing depth tag children ++ s =
        Element.newLine depth ++ '<' :: '/' :: (tag ++ '>' :: s) := by
      simp [Element.closing, hnone]
    rw [hline, run_newLine _ depth (by simp), step_newLine (by simpa using hnone)]
    exact hstop

/-- Whatever is open, an element is read as one more child, and nothing behind it is touched. -/
theorem run_body {e : Element} (h : e.Readable) (depth : Nat) (k : Stack) (s : Text) :
    k.run (e.body depth ++ s) = (k.add e).run s := by
  induction h generalizing depth k s with
  | @mk tag attributes text children named attributesNamed visible childrenReadable ih =>
    by_cases hempty : text = [] ∧ children = []
    · obtain ⟨rfl, rfl⟩ := hempty
      have htoken := run_of_readToken? (k := k) (readToken?_empty named attributesNamed s)
      simpa [Element.body, step] using htoken
    · have hrest : text ≠ [] → (Element.bodies (depth + 1) (!text.isEmpty) children ++
          (Element.closing depth tag children ++ s)).head? = some '<' := fun htext => by
        rw [← List.append_assoc, List.head?_append, Element.head?_content htext]
        rfl
      have hopen : (!text.isEmpty) = true ∨ ([] : List Element) ≠ [] ∨ text = [] := by
        by_cases htext : text = [] <;> simp [htext]
      have hchildren : children.foldl add ⟨⟨tag, attributes, text, []⟩, k.current :: k.outer⟩ =
          ⟨⟨tag, attributes, text, children.reverse⟩, k.current :: k.outer⟩ := by
        simpa using foldl_add (f := ⟨tag, attributes, text, []⟩) (k.current :: k.outer) visible
      have hstart : (Element.mk tag attributes text children).body depth ++ s =
          '<' :: (tag ++ (attributes.flatMap Element.attributeText ++ '>' :: (escapeText text ++
            (Element.bodies (depth + 1) (!text.isEmpty) children ++
              (Element.closing depth tag children ++ s))))) := by
        simp [Element.body_of_content hempty]
      rw [hstart, run_of_readToken? (readToken?_start named attributesNamed _), step,
        Option.bind_some, run_text _ text rfl hrest]
      simp only [List.nil_append]
      rw [run_bodies (depth + 1) _ (fun c hc k s => ih c hc (depth + 1) k s) (!text.isEmpty) _
        hopen, hchildren, run_closing named]
      rfl

end Stack

theorem read?_document {e : Element} (h : e.Readable) : read? e.document = some e := by
  have hdrop : dropDeclaration e.document = Element.newLine 0 ++ (e.body 0 ++ ['\n']) := by
    simp [Element.document]
    rfl
  have hend : (Stack.bottom.add e).run ['\n'] = some (Stack.bottom.add e) := by
    have hline : (Stack.bottom.add e).run (Element.newLine 0 ++ []) = _ :=
      Stack.run_newLine _ 0 (by simp)
    rw [Stack.step_newLine (List.cons_ne_nil _ _), Option.bind_some] at hline
    exact hline.trans (by rw [Stack.run]; rfl)
  obtain ⟨next, hstep, hnext⟩ := @Stack.step_newLine_add Stack.bottom (.inr rfl) 0 e
  rw [read?, hdrop, Stack.run_newLine _ 0 (by simp [Element.head?_body]), hstep,
    Option.bind_some, Stack.run_body h, hnext, hend]
  rfl

end Xml

/-- Nothing is lost in writing an element, and no two elements are written alike. -/
theorem Element.document_faithful :
    (∀ e : Element, e.Readable → Xml.read? e.document = some e) ∧
      ∀ e₁ e₂ : Element, e₁.Readable → e₂.Readable → e₁.document = e₂.document → e₁ = e₂ := by
  refine ⟨fun e h => Xml.read?_document h, fun e₁ e₂ h₁ h₂ heq => ?_⟩
  have hread := Xml.read?_document h₁
  rw [heq, Xml.read?_document h₂] at hread
  exact (Option.some.inj hread).symm

def markedUp (inner : Text) : Element :=
  .mk "p".toList [("title".toList, "\"a\" & 'b'".toList)] "1 < 2 &amp; ".toList
    [.leaf "i".toList inner, .mk "br".toList [] [] []]

theorem Element.document_faithful_markedUp :
    (markedUp [' ']).Readable ∧ (markedUp [' ', ' ']).Readable ∧
      Xml.read? (markedUp [' ']).document = some (markedUp [' ']) ∧
      (markedUp [' ']).document ≠ (markedUp [' ', ' ']).document := by
  have hreadable : ∀ inner, (markedUp inner).Readable := fun inner => by
    refine .mk (by decide) (by decide) (fun _ _ => by decide) fun c hc => ?_
    have hcases : c = .leaf "i".toList inner ∨ c = .mk "br".toList [] [] [] := by simpa using hc
    rcases hcases with rfl | rfl
    · exact readable_leaf rfl inner
    · exact readable_node rfl rfl (by simp)
  obtain ⟨hread, hinj⟩ := Element.document_faithful
  refine ⟨hreadable _, hreadable _, hread _ (hreadable _), fun heq => ?_⟩
  have hsame := hinj _ _ (hreadable _) (hreadable _) heq
  simp [markedUp, leaf] at hsame

end Quizdown
