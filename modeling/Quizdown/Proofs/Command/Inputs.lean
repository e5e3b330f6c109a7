import Quizdown.Command.Inputs
import Mathlib.Data.List.Induction
import Mathlib.Data.List.Nodup

/-! The files that patterns select, whatever way patterns are expanded to paths. Each file has the
first place at which it is found: first by the pattern, then by the path among those of the pattern.
The files are in the order of these places, and after every pattern they are those found so far. -/
set_option autoImplicit false

namespace Quizdown
namespace Inputs

/-- A way to find a path: the number of the pattern, and that of the path among all that the
pattern leads to. -/
abbrev Finds := Nat → Nat → Text → Prop

def foundBy (expand : Text → Except Glob.PatternError (List Glob.Found)) (isFile : Text → Bool)
    (patterns : Texts) : Finds := fun i j path =>
  ∃ pattern found, patterns[i]? = some pattern ∧ expand pattern = .ok found ∧
    found[j]? = some (.path path) ∧ isFile path = true

def findsNothing (expand : Text → Except Glob.PatternError (List Glob.Found))
    (isFile : Text → Bool) (pattern : Text) : Bool :=
  match expand pattern with
  | .ok found => found.all fun
    | .path path => !isFile path
    | .unreadable _ _ => true
  | .error _ => false

structure First (F : Finds) (i j : Nat) (path : Text) : Prop where
  found : F i j path
  least : ∀ i' j' path', F i' j' path' → Path.spelling path' = Path.spelling path →
    i < i' ∨ i = i' ∧ j ≤ j'

/-- Of all paths that are found, those found first, in the order of their places. -/
structure Keeps (F : Finds) (files : Texts) : Prop where
  distinct : (files.map Path.spelling).Nodup
  sound : ∀ path ∈ files, ∃ i j, First F i j path
  complete : ∀ i j path, F i j path → ∃ kept ∈ files, Path.spelling kept = Path.spelling path
  ordered : files.Pairwise fun a b =>
    ∃ i j i' j', First F i j a ∧ First F i' j' b ∧ (i < i' ∨ i = i' ∧ j < j')

/-- What is selected: the files that are found, and the patterns by which none is, in their order
and as often as they stand there. -/
structure Selected (expand : Text → Except Glob.PatternError (List Glob.Found))
    (isFile : Text → Bool) (patterns : Texts) (inputs : Inputs) : Prop extends
    Keeps (foundBy expand isFile patterns) inputs.files where
  unmatched : inputs.unmatched = patterns.filter (findsNothing expand isFile)

variable {expand : Text → Except Glob.PatternError (List Glob.Found)} {isFile : Text → Bool}
  {F G : Finds} {found : List Glob.Found} {files patterns : Texts} {path pattern : Text} {inputs selected : Inputs} {w : Workspace}

theorem same_iff (a b : Text) : Path.same a b = true ↔ Path.spelling a = Path.spelling b := by
  simp [Path.same]

theorem getElem?_concat {α : Type} (front : List α) (x y : α) (j : Nat) :
    (front ++ [x])[j]? = some y ↔ front[j]? = some y ∨ j = front.length ∧ y = x := by
  rcases Nat.lt_trichotomy j front.length with hlt | heq | hgt
  · have hne : j ≠ front.length := by omega
    rw [List.getElem?_append_left hlt]
    simp [hne]
  · simp [heq, eq_comm]
  · have hnone : (front ++ [x])[j]? = none := List.getElem?_eq_none (by simp; omega)
    have hfront : front[j]? = none := List.getElem?_eq_none (by omega)
    have hne : j ≠ front.length := by omega
    simp [hnone, hfront, hne]

theorem Keeps.congr (h : Keeps F files) (hG : ∀ i j path, F i j path ↔ G i j path) :
    Keeps G files := by
  obtain rfl : F = G := by
    funext i j path
    exact propext (hG i j path)
  exact h

/-! One more path is found, behind all the others. -/

theorem First.insert {a b i j : Nat} {x : Text} (h : First F i j path)
    (hG : ∀ i j path, G i j path ↔ F i j path ∨ i = a ∧ j = b ∧ path = x)
    (hlater : ∀ i j path, F i j path → i < a ∨ i = a ∧ j < b) : First G i j path := by
  refine ⟨(hG ..).mpr (.inl h.found), fun i' j' path' hfound hsame => ?_⟩
  rcases (hG ..).mp hfound with hold | ⟨hi, hj, -⟩
  · exact h.least _ _ _ hold hsame
  · have hplace := hlater _ _ _ h.found
    omega

theorem Keeps.insert {a b : Nat} {x : Text} (h : Keeps F files)
    (hG : ∀ i j path, G i j path ↔ F i j path ∨ i = a ∧ j = b ∧ path = x)
    (hlater : ∀ i j path, F i j path → i < a ∨ i = a ∧ j < b) :
    Keeps G (if files.any (Path.same x) then files else files ++ [x]) := by
  have hsound : ∀ path ∈ files, ∃ i j, First G i j path := by
    intro path hpath
    obtain ⟨i, j, hfirst⟩ := h.sound path hpath
    exact ⟨i, j, hfirst.insert hG hlater⟩
  have hordered : files.Pairwise fun a b =>
      ∃ i j i' j', First G i j a ∧ First G i' j' b ∧ (i < i' ∨ i = i' ∧ j < j') := by
    refine h.ordered.imp fun {a b} hab => ?_
    obtain ⟨i, j, i', j', ha, hb, hlt⟩ := hab
    exact ⟨i, j, i', j', ha.insert hG hlater, hb.insert hG hlater, hlt⟩
  split_ifs with hany
  · -- a path that is spelled alike is kept already
    refine ⟨h.distinct, hsound, fun i j path hfound => ?_, hordered⟩
    rcases (hG ..).mp hfound with hold | ⟨-, -, rfl⟩
    · exact h.complete i j path hold
    · obtain ⟨kept, hkept, hsame⟩ := List.any_eq_true.mp hany
      exact ⟨kept, hkept, ((same_iff ..).mp hsame).symm⟩
  · -- the path is new, and all others are found in front of it
    have hnew : ∀ kept ∈ files, Path.spelling kept ≠ Path.spelling x := by
      intro kept hkept hsame
      exact hany (List.any_eq_true.mpr ⟨kept, hkept, (same_iff ..).mpr hsame.symm⟩)
    have hfirst : First G a b x := by
      refine ⟨(hG ..).mpr (.inr ⟨rfl, rfl, rfl⟩), fun i j path hfound hsame => ?_⟩
      rcases (hG ..).mp hfound with hold | ⟨hi, hj, -⟩
      · obtain ⟨kept, hkept, hspelled⟩ := h.complete i j path hold
        exact absurd (hspelled.trans hsame) (hnew kept hkept)
      · omega
    refine ⟨?_, fun path hpath => ?_, fun i j path hfound => ?_, ?_⟩
    · rw [List.map_append, List.nodup_append]
      refine ⟨h.distinct, List.nodup_singleton _, fun s hs t ht => ?_⟩
      obtain ⟨kept, hkept, rfl⟩ := List.mem_map.mp hs
      rw [List.map_singleton, List.mem_singleton] at ht
      exact ht ▸ hnew kept hkept
    · rcases List.mem_append.mp hpath with hold | hx
      · exact hsound path hold
      · exact ⟨a, b, List.mem_singleton.mp hx ▸ hfirst⟩
    · rcases (hG ..).mp hfound with hold | ⟨-, -, rfl⟩
      · obtain ⟨kept, hkept, hspelled⟩ := h.complete i j path hold
        exact ⟨kept, List.mem_append_left _ hkept, hspelled⟩
      · exact ⟨path, by simp, rfl⟩
    · rw [List.pairwise_append]
      refine ⟨hordered, List.pairwise_singleton .., fun path hpath y hy => ?_⟩
      obtain rfl := List.mem_singleton.mp hy
      obtain ⟨i, j, hold⟩ := h.sound path hpath
      exact ⟨i, j, a, b, hold.insert hG hlater, hfirst, hlater _ _ _ hold.found⟩

/-! What a pattern leads to, one after another. -/

theorem file?_eq_some_iff {x : Glob.Found} :
    file? isFile x = some path ↔ x = .path path ∧ isFile path = true := by
  cases x with
  | path other =>
    rw [file?]
    split_ifs with hother
    · rw [Option.some_inj, Glob.Found.path.injEq]
      exact ⟨fun h => ⟨h, h ▸ hother⟩, And.left⟩
    · simp only [false_iff, Glob.Found.path.injEq]
      rintro ⟨rfl, hfile⟩
      exact hother hfile
  | unreadable => simp [file?]

theorem addNew_append (kept front back : Texts) :
    addNew kept (front ++ back) = addNew (addNew kept front) back := by
  induction front generalizing kept with
  | nil => rfl
  | cons path front ih => exact ih _

theorem Keeps.addNew {n : Nat} (h : Keeps F files) (hF : ∀ i j path, F i j path → i < n) :
    Keeps (fun i j path => F i j path ∨ i = n ∧ found[j]? = some (.path path) ∧ isFile path = true)
      (addNew files (found.filterMap (file? isFile))) := by
  induction found using List.reverseRecOn with
  | nil => simpa [Inputs.addNew] using h
  | append_singleton front x ih =>
    rw [List.filterMap_append, addNew_append]
    cases hx : file? isFile x with
    | some new =>
      obtain ⟨rfl, hfile⟩ := file?_eq_some_iff.mp hx
      have hadd (kept : Texts) : Inputs.addNew kept ([.path new].filterMap (file? isFile)) =
          if kept.any (Path.same new) then kept else kept ++ [new] := by
        simp [hx, Inputs.addNew]
      rw [hadd]
      refine ih.insert (a := n) (b := front.length) (fun i j path => ?_) fun i j path hfound => ?_
      · rw [getElem?_concat, or_and_right, and_or_left, ← or_assoc]
        refine or_congr_right ⟨fun ⟨hi, ⟨hj, hpath⟩, _⟩ => ⟨hi, hj, Glob.Found.path.inj hpath⟩, ?_⟩
        intro h
        obtain ⟨hi, hj, rfl⟩ := h
        exact ⟨hi, ⟨hj, rfl⟩, hfile⟩
      · rcases hfound with hold | ⟨hi, hj, -⟩
        · exact .inl (hF _ _ _ hold)
        · exact .inr ⟨hi, (List.getElem?_eq_some_iff.mp hj).1⟩
    | none =>
      have hnone : [x].filterMap (file? isFile) = [] := by simp [hx]
      rw [hnone, Inputs.addNew]
      refine ih.congr fun i j path => ?_
      rw [getElem?_concat, or_and_right, and_or_left, ← or_assoc]
      refine ⟨.inl, fun h => h.resolve_right fun ⟨_, ⟨_, hpath⟩, hfile⟩ => ?_⟩
      rw [file?_eq_some_iff.mpr ⟨hpath.symm, hfile⟩] at hx
      cases hx

/-! The patterns, one after another. -/

theorem lt_of_foundBy {i j : Nat} (h : foundBy expand isFile patterns i j path) :
    i < patterns.length := by
  obtain ⟨pattern, found, hi, -⟩ := h
  exact (List.getElem?_eq_some_iff.mp hi).1

theorem foundBy_concat (hfound : expand pattern = .ok found) (i j : Nat) (path : Text) :
    foundBy expand isFile (patterns ++ [pattern]) i j path ↔
      foundBy expand isFile patterns i j path ∨
        i = patterns.length ∧ found[j]? = some (.path path) ∧ isFile path = true := by
  simp only [foundBy, getElem?_concat, or_and_right, exists_or]
  refine or_congr_right ⟨fun h => ?_, fun ⟨hi, hj, hfile⟩ => ?_⟩
  · obtain ⟨_, others, ⟨hi, rfl⟩, hothers, hj, hfile⟩ := h
    rw [hfound] at hothers
    cases hothers
    exact ⟨hi, hj, hfile⟩
  · exact ⟨pattern, found, ⟨hi, rfl⟩, hfound, hj, hfile⟩

theorem selected_nil : Selected expand isFile [] {} where
  distinct := List.nodup_nil
  sound := by simp
  complete := by simp [foundBy]
  ordered := List.Pairwise.nil
  unmatched := rfl

theorem findsNothing_eq (hfound : expand pattern = .ok found) :
    findsNothing expand isFile pattern = (found.filterMap (file? isFile)).isEmpty := by
  rw [findsNothing, hfound, Bool.eq_iff_iff, List.isEmpty_iff, List.filterMap_eq_nil_iff,
    List.all_eq_true]
  refine forall₂_congr fun x _ => ?_
  cases x <;> simp [file?]

theorem Selected.add (h : Selected expand isFile patterns inputs)
    (hfound : expand pattern = .ok found) :
    Selected expand isFile (patterns ++ [pattern])
      (inputs.add pattern (found.filterMap (file? isFile))) where
  toKeeps := (h.toKeeps.addNew fun _ _ _ => lt_of_foundBy).congr fun i j path =>
    (foundBy_concat hfound i j path).symm
  unmatched := by
    rw [List.filter_append, ← h.unmatched, Inputs.add]
    cases hempty : (found.filterMap (file? isFile)).isEmpty <;>
      simp [findsNothing_eq hfound, hempty]

theorem selected_addAll {before : Texts} (h : Selected expand isFile before inputs)
    (hselect : addAll (fun pattern => (expand pattern).map (List.filterMap (file? isFile))) inputs
      patterns = .ok selected) :
    Selected expand isFile (before ++ patterns) selected := by
  induction patterns generalizing before inputs with
  | nil =>
    obtain rfl := Except.ok.inj hselect
    rwa [List.append_nil]
  | cons pattern patterns ih =>
    rw [addAll] at hselect
    cases hfound : expand pattern with
    | error e =>
      rw [hfound] at hselect
      cases hselect
    | ok found =>
      rw [hfound] at hselect
      rw [List.append_cons]
      exact ih (h.add hfound) hselect

theorem exists_first_cons {P Q : Text → Prop} {first : Text} {rest : Texts} :
    (∃ before x after, first :: rest = before ++ x :: after ∧ (∀ y ∈ before, P y) ∧ Q x) ↔
      Q first ∨ P first ∧ ∃ before x after, rest = before ++ x :: after ∧
        (∀ y ∈ before, P y) ∧ Q x := by
  constructor
  · intro h
    obtain ⟨before, x, after, hsplit, hbefore, hx⟩ := h
    cases before with
    | nil =>
      cases hsplit
      exact .inl hx
    | cons other before =>
      cases hsplit
      rw [List.forall_mem_cons] at hbefore
      exact .inr ⟨hbefore.1, before, x, after, rfl, hbefore.2, hx⟩
  · intro h
    rcases h with hfirst | ⟨hfirst, before, x, after, rfl, hbefore, hx⟩
    · exact ⟨[], first, rest, rfl, by simp, hfirst⟩
    · refine ⟨first :: before, x, after, rfl, ?_, hx⟩
      rw [List.forall_mem_cons]
      exact ⟨hfirst, hbefore⟩

theorem addAll_eq_error_iff {e : Glob.PatternError} :
    addAll (fun pattern => (expand pattern).map (List.filterMap (file? isFile))) inputs patterns =
        .error e ↔
      ∃ before pattern after, patterns = before ++ pattern :: after ∧
        (∀ other ∈ before, ∃ found, expand other = .ok found) ∧ expand pattern = .error e := by
  induction patterns generalizing inputs with
  | nil => simp [addAll]
  | cons first patterns ih =>
    rw [addAll, exists_first_cons]
    cases expand first with
    | error fault => simp [Except.map]
    | ok found =>
      rw [Except.map]
      dsimp only
      rw [ih]
      simp

theorem selected_select (h : select w patterns = .ok selected) :
    Selected (Glob.expand w) w.isFile patterns selected :=
  selected_addAll selected_nil h

theorem isFile_of_mem_select (h : select w patterns = .ok selected)
    (hpath : path ∈ selected.files) : w.isFile path = true := by
  obtain ⟨i, j, hfirst⟩ := (selected_select h).sound path hpath
  obtain ⟨pattern, found, -, -, -, hfile⟩ := hfirst.found
  exact hfile

theorem unmatched_eq_nil_iff (h : select w patterns = .ok selected) :
    selected.unmatched = [] ↔
      ∀ pattern ∈ patterns, findsNothing (Glob.expand w) w.isFile pattern = false := by
  simp [(selected_select h).unmatched]

end Inputs
end Quizdown
