import Quizdown.Document.Build
import Quizdown.Proofs.Directive.Comments
import Quizdown.Proofs.Directive.Places
import Quizdown.Proofs.Html.WellFormed
import Quizdown.Proofs.Text.Escape

/-!
A paragraph of text, inline code, breaks, emphasis and comments as a row of atoms, of which both its
HTML and its plain text are made. A token found in the HTML is a row of characters in both if no
reference is in it.
-/
set_option autoImplicit false

namespace Quizdown

/-- A smallest piece of a paragraph, of which both the HTML and the plain text are made. -/
inductive Atom
  | char (c : Char)
  | code (s : Text)
  | softBreak
  | hardBreak
  | tag (raw : Text)
  | comment (raw : Text)
deriving DecidableEq, Repr

namespace Atom

def html : Atom → Text
  | char c => escapeText [c]
  | code s => "<code>".toList ++ escapeText s ++ "</code>".toList
  | softBreak => ['\n']
  | hardBreak => "<br />".toList
  | tag raw | comment raw => raw

def plain : Atom → Text
  | char c => [c]
  | code s => s
  | softBreak | hardBreak => [' ']
  | tag _ | comment _ => []

/-- Stands in running text; a tag is no start of a `code` element and holds no token. -/
def fits : Atom → Bool
  | tag raw => raw.head? == some '<' && raw.tail.head?.any (· != 'c') &&
    !raw.tail.contains '@' && !raw.tail.contains '<'
  | comment _ => false
  | _ => true

end Atom

def Tag.isEmphasis : Tag → Bool
  | .emphasis | .strong | .strikethrough | .superscript | .subscript => true
  | _ => false

def wholeComment? (s : Text) : Option Text :=
  match Directive.comment? s with
  | some (inside, []) => some inside
  | _ => none

/-- A comment as its start, the characters in it, and its end. -/
def commentAtoms (inside : Text) : List Atom :=
  .comment Directive.commentStart :: inside.map (fun c => .comment [c]) ++
    [.comment Directive.commentEnd]

def TagEnd.isEmphasis : TagEnd → Bool
  | .emphasis | .strong | .strikethrough | .superscript | .subscript => true
  | _ => false

namespace Event

def isRunning : Event → Bool
  | .text _ | .code _ | .softBreak | .hardBreak => true
  | .start tag => tag.isEmphasis
  | .stop tag => tag.isEmphasis
  | _ => false

def isInline : Event → Bool
  | .inlineHtml s => (wholeComment? s).isSome
  | e => e.isRunning

def atoms : Event → List Atom
  | .text s => s.map .char
  | .code s => [.code s]
  | .softBreak => [.softBreak]
  | .hardBreak => [.hardBreak]
  | .start tag => [.tag (HtmlWriter.block.opening tag)]
  | .stop tag => [.tag (HtmlWriter.block.closing tag)]
  | .inlineHtml s => ((wholeComment? s).map commentAtoms).getD []
  | _ => []

end Event

def htmlOf (gs : List Atom) : Text := gs.flatMap Atom.html

def plainOf (gs : List Atom) : Text := gs.flatMap Atom.plain

def paragraphAtoms (es : List Event) : List Atom :=
  (Event.start .paragraph :: es ++ [Event.stop .paragraph]).flatMap Event.atoms

theorem htmlOf_append (gs hs : List Atom) : htmlOf (gs ++ hs) = htmlOf gs ++ htmlOf hs :=
  List.flatMap_append

theorem plainOf_append (gs hs : List Atom) : plainOf (gs ++ hs) = plainOf gs ++ plainOf hs :=
  List.flatMap_append

theorem htmlOf_chars (s : Text) : htmlOf (s.map .char) = escapeText s := by
  induction s with
  | nil => rfl
  | cons c s ih =>
    rw [escapeText_cons, ← ih]
    rfl

theorem plainOf_chars (s : Text) : plainOf (s.map .char) = s := by
  induction s with
  | nil => rfl
  | cons c s ih => exact congrArg (c :: ·) ih

theorem htmlOf_inside (inside : Text) :
    htmlOf (inside.map fun c => .comment [c]) = inside := by
  induction inside with
  | nil => rfl
  | cons c inside ih => exact congrArg (c :: ·) ih

theorem htmlOf_comment {s inside : Text} (h : wholeComment? s = some inside) :
    htmlOf (commentAtoms inside) = s := by
  have hcomment : Directive.comment? s = some (inside, []) := by
    unfold wholeComment? at h
    split at h
    · rename_i found heq
      obtain rfl := Option.some.inj h
      exact heq
    · cases h
  have hend : htmlOf [.comment Directive.commentEnd] = Directive.commentEnd := rfl
  rw [(Directive.comment?_eq_some_iff.mp hcomment).1, commentAtoms, htmlOf_append, hend,
    List.append_nil, ← List.append_assoc]
  exact congrArg (Directive.commentStart ++ · ++ Directive.commentEnd) (htmlOf_inside inside)

theorem Event.isInline_of_isRunning {e : Event} (h : e.isRunning = true) : e.isInline = true := by
  cases e with
  | inlineHtml s => cases h
  | _ => exact h

theorem emit_inline {e : Event} (h : e.isInline = true) :
    HtmlWriter.block.emit e = htmlOf e.atoms ∧ HtmlWriter.block.next e = .block := by
  cases e with
  | text s => exact ⟨(htmlOf_chars s).symm, rfl⟩
  | start tag => cases tag <;> first | exact ⟨rfl, rfl⟩ | cases h
  | stop tag => cases tag <;> first | exact ⟨rfl, rfl⟩ | cases h
  | code s => exact ⟨(List.append_nil _).symm, rfl⟩
  | softBreak | hardBreak => exact ⟨rfl, rfl⟩
  | inlineHtml s =>
    obtain ⟨inside, hinside⟩ := Option.isSome_iff_exists.mp h
    rw [Event.atoms, hinside]
    exact ⟨(htmlOf_comment hinside).symm, rfl⟩
  | _ => cases h

theorem render_inline {es : List Event} (h : ∀ e ∈ es, e.isInline = true) :
    HtmlWriter.block.render es = htmlOf (es.flatMap Event.atoms) ∧
      HtmlWriter.block.run es = .block := by
  induction es with
  | nil => exact ⟨rfl, rfl⟩
  | cons e es ih =>
    rw [List.forall_mem_cons] at h
    obtain ⟨hemit, hnext⟩ := emit_inline h.1
    obtain ⟨hrender, hrun⟩ := ih h.2
    constructor
    · rw [HtmlWriter.render, hemit, hnext, hrender, List.flatMap_cons, htmlOf_append]
    · rw [HtmlWriter.run, List.foldl_cons, hnext]
      exact hrun

theorem htmlOf_paragraph {es : List Event} (h : ∀ e ∈ es, e.isInline = true) :
    htmlOf (paragraphAtoms es) = BlockKind.wrap .paragraph es := by
  obtain ⟨hrender, hrun⟩ := render_inline h
  have hstart : HtmlWriter.block.next (.start .paragraph) = .block := rfl
  rw [paragraphAtoms, List.flatMap_append, List.flatMap_cons, htmlOf_append, htmlOf_append,
    ← hrender, BlockKind.wrap, List.cons_append, HtmlWriter.render, hstart,
    HtmlWriter.render_append, hrun]
  rfl

theorem plain_running {e : Event} (h : e.isRunning = true) (soFar : Text) :
    e.plain soFar = plainOf e.atoms := by
  cases e with
  | text s => exact (plainOf_chars s).symm
  | start tag => rfl
  | stop tag => cases tag <;> first | rfl | cases h
  | code s => exact (List.append_nil s).symm
  | softBreak | hardBreak => rfl
  | _ => cases h

theorem plainOf_paragraph {es : List Event} (h : ∀ e ∈ es, e.isRunning = true) :
    plainOf (paragraphAtoms es) = rawPlainText es := by
  have hfold : ∀ soFar : Text, es.foldl (fun soFar e => soFar ++ e.plain soFar) soFar =
      soFar ++ plainOf (es.flatMap Event.atoms) := by
    induction es with
    | nil => exact fun soFar => (List.append_nil soFar).symm
    | cons e es ih =>
      rw [List.forall_mem_cons] at h
      intro soFar
      rw [List.foldl_cons, ih h.2, plain_running h.1, List.flatMap_cons, plainOf_append,
        List.append_assoc]
  rw [rawPlainText, hfold, paragraphAtoms, List.flatMap_append, List.flatMap_cons, plainOf_append,
    plainOf_append]
  exact List.append_nil _

theorem fits_atoms {e : Event} (h : e.isRunning = true ∨ e = .start .paragraph ∨
    e = .stop .paragraph) : ∀ g ∈ e.atoms, g.fits = true := by
  rcases h with h | rfl | rfl
  · cases e with
    | text s =>
      intro g hg
      obtain ⟨c, -, rfl⟩ := List.mem_map.mp hg
      rfl
    | start tag => cases tag <;> first | decide | cases h
    | stop tag => cases tag <;> first | decide | cases h
    | code s => exact List.forall_mem_singleton.mpr rfl
    | softBreak | hardBreak => decide
    | _ => cases h
  · decide
  · decide

theorem fits_paragraph {es : List Event} (h : ∀ e ∈ es, e.isRunning = true) :
    ∀ g ∈ paragraphAtoms es, g.fits = true := by
  intro g hg
  obtain ⟨e, he, hmem⟩ := List.mem_flatMap.mp hg
  refine fits_atoms ?_ g hmem
  rcases List.mem_append.mp he with he | he
  · exact (List.mem_cons.mp he).elim (fun heq => .inr (.inl heq)) fun he => .inl (h e he)
  · exact .inr (.inr (List.mem_singleton.mp he))

namespace Directive

variable {gs : List Atom} {s w rest : Text} {d : Directive}

theorem isElement_code (s : Text) : IsElement (Atom.code s).html := by
  intro t
  have hhtml : (Atom.code s).html = "<code".toList ++ [] ++ '>' :: escapeText s ++ codeEnd := rfl
  have htext : (Atom.code s).html ++ t =
      "<code".toList ++ (['>'] ++ (escapeText s ++ (codeEnd ++ t))) := by
    rw [hhtml]
    simp only [List.append_assoc, List.append_nil, List.cons_append, List.nil_append]
  have hword : Text.isWordChar '>' = false := by decide +kernel
  have hopen := Text.splitFirst?_append ['>'] (escapeText s ++ (codeEnd ++ t))
  have hclose : Text.splitFirst? codeEnd (escapeText s ++ (codeEnd ++ t)) =
      (Text.splitFirst? codeEnd (codeEnd ++ t)).map fun found =>
        (escapeText s ++ found.1, found.2) :=
    Text.splitFirst?_append_left (fun hmem => Xml.ne_of_mem_escapeText hmem rfl) _
  rw [Text.splitFirst?_append, Option.map_some] at hclose
  dsimp only at hclose
  rw [List.append_nil] at hclose
  have hhead : (['>'] ++ (escapeText s ++ (codeEnd ++ t))).head?.any Text.isWordChar = false := by
    rw [List.singleton_append, List.head?_cons, Option.any_some, hword]
  rw [htext]
  unfold codeElement?
  rw [Text.stripPrefix?_append]
  dsimp only
  rw [hhead, if_neg Bool.false_ne_true, hopen]
  dsimp only
  rw [hclose, Option.map_some, hhtml]

theorem codeElement?_second {c : Char} (hc : c ≠ 'c') (s : Text) :
    codeElement? ('<' :: c :: s) = none := by
  cases hcode : codeElement? ('<' :: c :: s) with
  | none => rfl
  | some found =>
    obtain ⟨htext, ⟨y, hraw⟩, -⟩ := codeElement?_eq_some hcode
    rw [hraw] at htext
    exact absurd (List.cons.inj (List.cons.inj htext).2).1 hc

/-- Behind the first character of an atom no token and no `code` element starts, and at the first
character only an inline code is one. -/
theorem Atom.html_cases {g : Atom} (h : g.fits = true) : (∃ s, g = .code s) ∨
    ∃ c w, g.html = c :: w ∧ '@' ∉ w ∧ '<' ∉ w ∧ ∀ t, codeElement? (c :: (w ++ t)) = none := by
  cases g with
  | code s => exact .inl ⟨s, rfl⟩
  | softBreak =>
    exact .inr ⟨'\n', [], rfl, by simp, by simp, fun t => codeElement?_of_ne (by decide)⟩
  | hardBreak =>
    exact .inr ⟨'<', "br />".toList, rfl, by decide, by decide,
      fun t => codeElement?_second (by decide) _⟩
  | char c =>
    cases hc : isMarkup c with
    | true =>
      obtain ⟨name, hname, -, hletters⟩ := reference_cases hc
      exact .inr ⟨'&', name, hname, fun hmem => absurd (hletters hmem) (by decide),
        fun hmem => absurd (hletters hmem) (by decide), fun t => codeElement?_of_ne (by decide)⟩
    | false =>
      have hlt : c ≠ '<' := by
        rintro rfl
        cases hc
      exact .inr ⟨c, [], escapeText_char hc, by simp, by simp, fun t => codeElement?_of_ne hlt⟩
  | comment raw => cases h
  | tag raw =>
    simp only [Atom.fits, Bool.and_eq_true, beq_iff_eq, Bool.not_eq_true', List.contains_eq_mem,
      decide_eq_false_iff_not, Option.any_eq_true, bne_iff_ne] at h
    obtain ⟨⟨⟨hhead, c, hsecond, hc⟩, hat⟩, hlt⟩ := h
    obtain ⟨raw, rfl⟩ : ∃ w, raw = '<' :: w := by
      cases raw <;> simp_all
    obtain ⟨w, rfl⟩ : ∃ w, raw = c :: w := by
      cases raw <;> simp_all
    exact .inr ⟨'<', c :: w, rfl, hat, hlt, fun t => codeElement?_second hc _⟩

theorem partsFrom_code {free : Bool} {fuel : Nat} {raw : Text}
    (h : codeElement? s = some (raw, rest)) :
    partsFrom free (fuel + 1) s = .code raw :: partsFrom true fuel rest := by
  cases s with
  | nil => cases h
  | cons c s => rw [partsFrom, h]

theorem partsFrom_char {free : Bool} {fuel : Nat} {c : Char} (hcode : codeElement? (c :: s) = none)
    (hread : (if free then read? (c :: s) else none) = none) :
    partsFrom free (fuel + 1) (c :: s) = .char c :: partsFrom (isLead c) fuel s := by
  rw [partsFrom, hcode]
  dsimp only
  rw [hread]

theorem read?_of_ne {c : Char} (h : c ≠ '@') (s : Text) : read? (c :: s) = none := by
  cases hread : read? (c :: s) with
  | none => rfl
  | some found =>
    obtain ⟨d, tail, rest⟩ := found
    exact absurd (List.cons.inj (read?_eq_some hread).text).1 h

-- by `rfl`: the equations Lean would derive for `Atom.html` compare whole tags
theorem Atom.html_char (c : Char) : (Atom.char c).html = escapeText [c] := rfl

theorem Atom.html_tag (raw : Text) : (Atom.tag raw).html = raw := rfl

theorem Atom.eq_char {g : Atom} {c : Char} (h : g.fits = true) (hhead : g.html.head? = some c)
    (hmarkup : isMarkup c = false) (hblank : Text.isBlank c = false) :
    g = .char c ∧ g.html = [c] := by
  cases g with
  | char d =>
    cases hd : isMarkup d with
    | false =>
      have hhtml : (Atom.char d).html = [d] := escapeText_char hd
      rw [hhtml] at hhead ⊢
      obtain rfl := Option.some.inj hhead
      exact ⟨rfl, rfl⟩
    | true =>
      obtain ⟨name, hname, -, -⟩ := reference_cases hd
      rw [Atom.html_char, hname] at hhead
      obtain rfl := Option.some.inj hhead
      cases hmarkup
  | softBreak =>
    obtain rfl := Option.some.inj hhead
    cases hblank
  | code s | hardBreak =>
    obtain rfl := Option.some.inj hhead
    cases hmarkup
  | comment raw => cases h
  | tag raw =>
    simp only [Atom.fits, Bool.and_eq_true, beq_iff_eq] at h
    rw [Atom.html_tag, h.1.1.1] at hhead
    obtain rfl := Option.some.inj hhead
    cases hmarkup

theorem Atom.gt_not_mem {g : Atom} (h : g.fits = true) (hhead : g.html.head? ≠ some '<') :
    '>' ∉ g.html := by
  cases g with
  | char c =>
    cases hc : isMarkup c with
    | false =>
      rw [Atom.html_char, escapeText_char hc, List.mem_singleton]
      rintro rfl
      cases hc
    | true =>
      obtain ⟨name, hname, -, hletters⟩ := reference_cases hc
      rw [Atom.html_char, hname, List.mem_cons, not_or]
      exact ⟨by decide, fun hmem => absurd (hletters hmem) (by decide)⟩
  | softBreak => decide
  | code s | hardBreak => exact absurd rfl hhead
  | comment raw => cases h
  | tag raw =>
    simp only [Atom.fits, Bool.and_eq_true, beq_iff_eq] at h
    exact absurd h.1.1.1 hhead

theorem chars_of_prefix (hfits : ∀ g ∈ gs, g.fits = true) (h : htmlOf gs = w ++ rest)
    (hw : ∀ c ∈ w, isMarkup c = false ∧ Text.isBlank c = false) :
    ∃ hs, gs = w.map .char ++ hs ∧ rest = htmlOf hs := by
  induction w generalizing gs with
  | nil => exact ⟨gs, rfl, h.symm⟩
  | cons c w ih =>
    rw [List.forall_mem_cons] at hw
    cases gs with
    | nil => cases h
    | cons g gs =>
      rw [List.forall_mem_cons] at hfits
      have hhead : g.html.head? = some c := by
        obtain ⟨d, v, hd⟩ : ∃ d v, g.html = d :: v := by
          rcases Atom.html_cases hfits.1 with ⟨s, rfl⟩ | ⟨d, v, hhtml, -⟩
          · exact ⟨_, _, rfl⟩
          · exact ⟨d, v, hhtml⟩
        rw [htmlOf, List.flatMap_cons, hd] at h
        rw [hd, (List.cons.inj h).1]
        rfl
      obtain ⟨rfl, hhtml⟩ := Atom.eq_char hfits.1 hhead hw.1.1 hw.1.2
      rw [htmlOf, List.flatMap_cons, hhtml] at h
      obtain ⟨hs, rfl, hrest⟩ := ih hfits.2 (List.cons.inj h).2 hw.2
      exact ⟨hs, rfl, hrest⟩

theorem gt_of_prefix (hfits : ∀ g ∈ gs, g.fits = true) (h : htmlOf gs = w ++ rest) (hw : '<' ∉ w) :
    '>' ∉ w := by
  induction gs generalizing w with
  | nil =>
    have hnil : w = [] := (List.append_eq_nil_iff.mp h.symm).1
    simp [hnil]
  | cons g gs ih =>
    rw [List.forall_mem_cons] at hfits
    rw [htmlOf, List.flatMap_cons] at h
    rcases List.append_eq_append_iff.mp h with ⟨z, rfl, hz⟩ | ⟨z, hz, -⟩
    · rw [List.mem_append, not_or] at hw ⊢
      refine ⟨Atom.gt_not_mem hfits.1 fun hhead => hw.1 (List.mem_of_mem_head? hhead),
        ih hfits.2 hz hw.2⟩
    · intro hgt
      have hhead : g.html.head? ≠ some '<' := fun hhead => by
        rw [hz, List.head?_append_of_ne_nil _ (List.ne_nil_of_mem hgt)] at hhead
        exact hw (List.mem_of_mem_head? hhead)
      exact Atom.gt_not_mem hfits.1 hhead (hz ▸ List.mem_append_left z hgt)

def tokenAtoms (t : Directive × List Atom) : List Atom := t.1.token.map .char ++ t.2

/-- The tokens that divide a row of atoms divide its HTML in this way, and none of their characters
is escaped. In front of the HTML stands the rest of an atom that has begun. -/
def DividedAs (r : Text) (gs : List Atom) (x : Text × List (Directive × Text)) : Prop :=
  ∃ (front : List Atom) (tokens : List (Directive × List Atom)),
    gs = front ++ tokens.flatMap tokenAtoms ∧
      x = (r ++ htmlOf front, tokens.map fun t => (t.1, htmlOf t.2)) ∧
      ∀ t ∈ tokens, ∀ c ∈ t.1.token, isMarkup c = false ∧ Text.isBlank c = false

namespace DividedAs

variable {r : Text} {x : Text × List (Directive × Text)} {g : Atom}

theorem char (h : DividedAs r gs x) (c : Char) : DividedAs (c :: r) gs (c :: x.1, x.2) := by
  obtain ⟨front, tokens, hgs, rfl, hplain⟩ := h
  exact ⟨front, tokens, hgs, rfl, hplain⟩

theorem atom (h : DividedAs g.html gs x) : DividedAs [] (g :: gs) x := by
  obtain ⟨front, tokens, rfl, rfl, hplain⟩ := h
  exact ⟨g :: front, tokens, rfl, rfl, hplain⟩

theorem code (h : DividedAs [] gs x) (g : Atom) : DividedAs [] (g :: gs) (g.html ++ x.1, x.2) := by
  obtain ⟨front, tokens, rfl, rfl, hplain⟩ := h
  exact ⟨g :: front, tokens, rfl, rfl, hplain⟩

theorem token (h : DividedAs [] gs x)
    (hd : ∀ c ∈ d.token, isMarkup c = false ∧ Text.isBlank c = false) :
    DividedAs [] (d.token.map .char ++ gs) ([], (d, x.1) :: x.2) := by
  obtain ⟨front, tokens, rfl, rfl, hplain⟩ := h
  exact ⟨[], (d, front) :: tokens, by simp [tokenAtoms], rfl,
    List.forall_mem_cons.mpr ⟨hd, hplain⟩⟩

end DividedAs

theorem Token.atoms {tail : Text} (h : Token (htmlOf gs) d tail rest)
    (hfits : ∀ g ∈ gs, g.fits = true) (hplain : '&' ∉ d.value) :
    (∀ c ∈ d.token, isMarkup c = false ∧ Text.isBlank c = false) ∧ tail = [] ∧
      ∃ hs, gs = d.token.map .char ++ hs ∧ rest = htmlOf hs := by
  have hgt := gt_of_prefix hfits h.text h.not_lt
  have htail : tail = [] := by
    rcases h.tail with htail | ⟨w, rfl⟩
    · exact htail
    · simp [commentEnd_eq] at hgt
  have hamp : '&' ∉ d.token := by
    rw [Directive.token, List.cons_append, List.mem_cons, List.mem_append, List.mem_cons]
    rintro (hc | hc | hc | hc)
    · cases hc
    · exact absurd (h.key.isKeyChar '&' hc) (by decide)
    · cases hc
    · exact hplain hc
  have htext := h.text
  have hlt := h.not_lt
  have hvalue := h.solidChars
  rw [htail, List.append_nil] at htext hlt hgt hvalue
  have hchars : ∀ c ∈ d.token, isMarkup c = false ∧ Text.isBlank c = false := by
    intro c hc
    have hne : c ≠ '<' ∧ c ≠ '>' ∧ c ≠ '&' :=
      ⟨fun heq => hlt (heq ▸ hc), fun heq => hgt (heq ▸ hc), fun heq => hamp (heq ▸ hc)⟩
    exact ⟨by simp [isMarkup, hne], isBlank_of_isValueChar (hvalue c hc)⟩
  exact ⟨hchars, htail, chars_of_prefix hfits htext hchars⟩

/-- The tokens in the HTML of atoms are rows of atoms. -/
theorem dividedAs_gaps {free : Bool} {fuel : Nat} {r : Text}
    (hfuel : (r ++ htmlOf gs).length ≤ fuel) (hr : '@' ∉ r ∧ '<' ∉ r)
    (hfits : ∀ g ∈ gs, g.fits = true)
    (hplain : ∀ t ∈ (gaps (partsFrom free fuel (r ++ htmlOf gs))).2, '&' ∉ t.1.value) :
    DividedAs r gs (gaps (partsFrom free fuel (r ++ htmlOf gs))) := by
  -- induction on the characters: `r` is read one by one, and behind it an atom begins
  induction fuel generalizing free r gs with
  | zero =>
    obtain ⟨rfl, hnil⟩ := List.append_eq_nil_iff.mp (List.eq_nil_of_length_eq_zero
      (Nat.le_zero.mp hfuel))
    cases gs with
    | nil => exact ⟨[], [], rfl, rfl, by simp⟩
    | cons g gs =>
      have hempty : g.html = [] := (List.append_eq_nil_iff.mp hnil).1
      rcases Atom.html_cases (hfits g (by simp)) with ⟨s, rfl⟩ | ⟨c, w, hhtml, -⟩
      · cases hempty
      · rw [hempty] at hhtml
        cases hhtml
  | succ fuel ih =>
    cases r with
    | cons c r =>
      simp only [List.mem_cons, not_or] at hr
      have hcode := codeElement?_of_ne (Ne.symm hr.2.1) (s := r ++ htmlOf gs)
      have hread : (if free then read? (c :: (r ++ htmlOf gs)) else none) = none := by
        rw [read?_of_ne (Ne.symm hr.1.1), ite_self]
      rw [List.cons_append, partsFrom_char hcode hread] at hplain ⊢
      exact (ih (by simpa using hfuel) ⟨hr.1.2, hr.2.2⟩ hfits hplain).char c
    | nil =>
      cases gs with
      | nil => exact ⟨[], [], rfl, rfl, by simp⟩
      | cons g gs =>
        have hcons := List.forall_mem_cons.mp hfits
        have hsplit : htmlOf (g :: gs) = g.html ++ htmlOf gs := rfl
        rw [List.nil_append] at hfuel hplain ⊢
        rcases Atom.html_cases hcons.1 with ⟨s, rfl⟩ | ⟨c, w, hhtml, hat, hlt, hcode⟩
        · have hlength : (htmlOf gs).length ≤ fuel := by
            rw [hsplit, List.length_append] at hfuel
            have hpos : 0 < (Atom.code s).html.length := Nat.succ_pos _
            omega
          rw [hsplit, partsFrom_code (isElement_code s _)] at hplain ⊢
          exact (ih (r := []) hlength (by simp) hcons.2 hplain).code _
        · rw [hsplit, hhtml, List.cons_append] at hfuel hplain ⊢
          cases hread : if free then read? (c :: (w ++ htmlOf gs)) else none with
          | none =>
            rw [partsFrom_char (hcode _) hread] at hplain ⊢
            have hrest := ih (by simpa using hfuel) ⟨hat, hlt⟩ hcons.2 hplain
            have hatom := hrest.char c
            rw [← hhtml] at hatom
            exact hatom.atom
          | some found =>
            obtain ⟨d, tail, rest⟩ := found
            have htoken : Token (htmlOf (g :: gs)) d tail rest := by
              rw [hsplit, hhtml]
              exact read?_eq_some (read?_of_free hread)
            have hparts : partsFrom free (fuel + 1) (c :: (w ++ htmlOf gs)) =
                .token d tail :: partsFrom false fuel rest := by
              rw [partsFrom, hcode]
              dsimp only
              rw [hread]
            rw [hparts] at hplain ⊢
            rw [gaps, List.forall_mem_cons] at hplain
            obtain ⟨hchars, rfl, hs, hatoms, rfl⟩ := htoken.atoms hfits hplain.1
            rw [hatoms] at hfits ⊢
            have hlength : (htmlOf hs).length ≤ fuel := by
              have htext := congrArg List.length htoken.text
              rw [hsplit, hhtml] at htext
              simp only [List.length_append, List.length_cons, Directive.token] at htext hfuel
              omega
            have hrest := ih (r := []) hlength (by simp) (List.forall_mem_append.mp hfits).2 hplain.2
            exact hrest.token hchars

end Directive
end Quizdown
