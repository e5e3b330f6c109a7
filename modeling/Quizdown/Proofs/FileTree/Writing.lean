import Quizdown.FileTree
import Mathlib.Data.List.Basic

/-! Writing a file changes one place, and making directories changes only places where nothing
stood. Where a path leads depends on the directories alone. -/
set_option autoImplicit false

namespace Quizdown

namespace FileTree

variable {t u : FileTree} {p q : Place} {e : Entry}

theorem get?_root (t : FileTree) : t.get? [] = some .directory := rfl

theorem ne_root (h : t.get? p ≠ some .directory) : p ≠ [] := by
  rintro rfl
  exact h t.get?_root

theorem get?_put (t : FileTree) (hp : p ≠ []) (q : Place) :
    (t.put p e).get? q = if q = p then some e else t.get? q := by
  by_cases hq : q = []
  · subst hq
    rw [if_neg (Ne.symm hp), get?_root, get?_root]
  -- the entry at `p` is changed where it stands, or it comes last
  rw [put]
  split
  · rename_i hsome
    have hplace : (fun old : Place × Entry => decide (old.1 = q)) ∘
        (fun old => if old.1 = p then (p, e) else old) = fun old => decide (old.1 = q) := by
      funext old
      by_cases hold : old.1 = p <;> simp [hold]
    rw [get?, get?, if_neg hq, if_neg hq, List.find?_map, hplace, Option.map_map]
    cases hfound : t.entries.find? fun old => decide (old.1 = q) with
    | none =>
      rw [if_neg]
      · rfl
      · rintro rfl
        simp [get?, hq, hfound] at hsome
    | some old =>
      obtain rfl : old.1 = q := by simpa using List.find?_some hfound
      by_cases hold : old.1 = p <;> simp [hold]
  · rename_i hnone
    rw [get?, get?, if_neg hq, if_neg hq, List.find?_append]
    by_cases hqp : q = p
    · subst hqp
      cases hfound : t.entries.find? fun old => decide (old.1 = q) with
      | none => simp
      | some old => simp [get?, hq, hfound] at hnone
    · simp [hqp, Ne.symm hqp]

theorem walk_of_directories (h : ∀ p, t.get? p = some .directory → u.get? p = some .directory)
    {names : Texts} (hwalk : t.walk p names = .ok q) : u.walk p names = .ok q := by
  induction names generalizing p with
  | nil => exact hwalk
  | cons name names ih =>
    rw [walk] at hwalk ⊢
    cases hp : t.get? p with
    | none =>
      rw [hp] at hwalk
      cases hwalk
    | some entry =>
      rw [hp] at hwalk
      cases entry with
      | file content => cases hwalk
      | directory =>
        rw [h p hp]
        dsimp only at hwalk ⊢
        split_ifs at hwalk ⊢ <;> exact ih hwalk

end FileTree

namespace Workspace

variable {w v : Workspace} {path s : Text} {p : Place}

theorem read_eq_ok_iff : w.read path = .ok s ↔
    ∃ p, w.locate path = .ok p ∧ w.tree.get? p = some (.file (some s)) ∧
      Path.wantsDirectory path = false := by
  rw [read, look]
  cases w.locate path with
  | error e => simp
  | ok p =>
    cases hp : w.tree.get? p with
    | none => simp [hp]
    | some entry =>
      rcases entry with _ | _ | content
      · simp [hp]
      · cases hwants : Path.wantsDirectory path <;> simp [hp]
      · cases hwants : Path.wantsDirectory path <;> simp [hp]

theorem read_unique {other t : Text} (h : w.locate path = w.locate other)
    (hpath : w.read path = .ok s) (hother : w.read other = .ok t) : s = t := by
  obtain ⟨p, hp, hs, -⟩ := read_eq_ok_iff.mp hpath
  obtain ⟨q, hq, ht, -⟩ := read_eq_ok_iff.mp hother
  rw [h, hq] at hp
  obtain rfl := Except.ok.inj hp
  rw [hs] at ht
  simpa using ht

theorem isFile_iff : w.isFile path = true ↔
    ∃ p content, w.locate path = .ok p ∧ w.tree.get? p = some (.file content) ∧
      Path.wantsDirectory path = false := by
  rw [isFile, look]
  cases w.locate path with
  | error e => simp
  | ok p =>
    cases hp : w.tree.get? p with
    | none => simp [hp]
    | some entry =>
      cases entry with
      | directory => simp [hp]
      | file content => cases hwants : Path.wantsDirectory path <;> simp [hp]

theorem write_eq_ok (h : w.write path s = .ok v) : ∃ p, w.locate path = .ok p ∧
    Path.wantsDirectory path = false ∧ w.tree.get? p ≠ some .directory ∧
      v = { w with tree := w.tree.put p (.file (some s)) } := by
  rw [write] at h
  split at h
  · cases h
  rename_i p hp
  split at h
  · cases h
  rename_i hdirectory
  rw [Bool.or_eq_true, not_or, Bool.not_eq_true, FileTree.isDirectory, beq_iff_eq] at hdirectory
  exact ⟨p, hp, hdirectory.1, hdirectory.2, (Except.ok.inj h).symm⟩

theorem write_eq_of (hp : w.locate path = .ok p) (hwants : Path.wantsDirectory path = false)
    (hfree : w.tree.get? p ≠ some .directory) (s : Text) :
    w.write path s = .ok { w with tree := w.tree.put p (.file (some s)) } := by
  rw [write, hp]
  simp [hwants, FileTree.isDirectory, hfree]

/-! Directories that stay where they are. -/

structure SameDirectories (w v : Workspace) : Prop where
  here : v.here = w.here
  iff : ∀ p, v.tree.get? p = some .directory ↔ w.tree.get? p = some .directory

theorem SameDirectories.refl (w : Workspace) : SameDirectories w w := ⟨rfl, fun _ => Iff.rfl⟩

theorem SameDirectories.trans {u : Workspace} (h : SameDirectories w v)
    (h' : SameDirectories v u) : SameDirectories w u :=
  ⟨h'.here.trans h.here, fun p => (h'.iff p).trans (h.iff p)⟩

theorem locate_of_directories (hhere : v.here = w.here)
    (h : ∀ p, w.tree.get? p = some .directory → v.tree.get? p = some .directory)
    (hp : w.locate path = .ok p) : v.locate path = .ok p := by
  rw [locate] at hp ⊢
  split_ifs at hp ⊢
  · exact FileTree.walk_of_directories h hp
  · rw [hhere]
    exact FileTree.walk_of_directories h hp

theorem SameDirectories.locate_iff (h : SameDirectories w v) :
    v.locate path = .ok p ↔ w.locate path = .ok p :=
  ⟨locate_of_directories h.here.symm fun p => (h.iff p).mp,
    locate_of_directories h.here fun p => (h.iff p).mpr⟩

/-- A written file is no directory, and none stood in its place. -/
theorem sameDirectories_of_write (hp : w.tree.get? p ≠ some .directory) :
    SameDirectories w { w with tree := w.tree.put p (.file (some s)) } := by
  refine ⟨rfl, fun q => ?_⟩
  rw [FileTree.get?_put _ (FileTree.ne_root hp)]
  split
  · rename_i hq
    simp [hq, hp]
  · rfl

/-! Directories that are added. -/

structure Grows (w v : Workspace) : Prop where
  here : v.here = w.here
  keeps : ∀ p e, w.tree.get? p = some e → v.tree.get? p = some e

theorem Grows.refl (w : Workspace) : Grows w w := ⟨rfl, fun _ _ h => h⟩

theorem Grows.trans {u : Workspace} (h : Grows w v) (h' : Grows v u) : Grows w u :=
  ⟨h'.here.trans h.here, fun p e he => h'.keeps p e (h.keeps p e he)⟩

theorem Grows.locate (h : Grows w v) (hp : w.locate path = .ok p) : v.locate path = .ok p :=
  locate_of_directories h.here (fun q => h.keeps q _) hp

theorem makeDirectory_eq_ok (h : w.makeDirectory path = .ok v) : ∃ p, w.tree.get? p = none ∧
    v.here = w.here ∧ ∀ q, v.tree.get? q = if q = p then some .directory else w.tree.get? q := by
  rw [makeDirectory] at h
  split at h
  · cases h
  rename_i p hp
  split at h
  · cases h
  rename_i hnone
  obtain rfl := Except.ok.inj h
  have hvacant : w.tree.get? p = none := by simpa using hnone
  have hdirectory : w.tree.get? p ≠ some .directory := by simp [hvacant]
  exact ⟨p, hvacant, rfl, FileTree.get?_put _ (FileTree.ne_root hdirectory)⟩

theorem grows_makeDirectory (h : w.makeDirectory path = .ok v) : Grows w v := by
  obtain ⟨p, hvacant, hhere, hget⟩ := makeDirectory_eq_ok h
  refine ⟨hhere, fun q e hq => ?_⟩
  rw [hget, if_neg, hq]
  rintro rfl
  rw [hvacant] at hq
  cases hq

/-- What holds of making one directory, and of doing nothing, holds of making those above it too. -/
theorem of_ensureDirectoriesFrom {R : Workspace → Workspace → Prop} (hrefl : ∀ w, R w w)
    (htrans : ∀ {w v u}, R w v → R v u → R w u)
    (hmake : ∀ {w v path}, makeDirectory w path = .ok v → R w v) {fuel : Nat}
    (h : w.ensureDirectoriesFrom fuel path = .ok v) : R w v := by
  have hone {w v : Workspace} {path : Text} (h : w.ensureDirectory path = .ok v) : R w v := by
    rw [ensureDirectory] at h
    split at h
    · rename_i made hmade
      obtain rfl := Except.ok.inj h
      exact hmake hmade
    · split at h
      · obtain rfl := Except.ok.inj h
        exact hrefl w
      · cases h
  induction fuel generalizing path v with
  | zero => exact hone h
  | succ fuel ih =>
    rw [ensureDirectoriesFrom] at h
    split at h
    · obtain rfl := Except.ok.inj h
      exact hrefl w
    split at h
    · split at h
      · rename_i above hmade
        exact htrans (ih hmade) (hone h)
      · cases h
    · exact hone h

theorem grows_ensureDirectoriesFrom {fuel : Nat} (h : w.ensureDirectoriesFrom fuel path = .ok v) :
    Grows w v :=
  of_ensureDirectoriesFrom Grows.refl Grows.trans grows_makeDirectory h

def SameFiles (w v : Workspace) : Prop :=
  ∀ p content, v.tree.get? p = some (.file content) ↔ w.tree.get? p = some (.file content)

theorem SameFiles.refl (w : Workspace) : SameFiles w w := fun _ _ => Iff.rfl

theorem SameFiles.trans {u : Workspace} (h : SameFiles w v) (h' : SameFiles v u) :
    SameFiles w u :=
  fun p content => (h' p content).trans (h p content)

theorem sameFiles_makeDirectory (h : w.makeDirectory path = .ok v) : SameFiles w v := by
  obtain ⟨p, hvacant, -, hget⟩ := makeDirectory_eq_ok h
  intro q content
  rw [hget]
  split
  · rename_i hq
    simp [hq, hvacant]
  · rfl

theorem sameFiles_ensureDirectoriesFrom {fuel : Nat}
    (h : w.ensureDirectoriesFrom fuel path = .ok v) : SameFiles w v :=
  of_ensureDirectoriesFrom SameFiles.refl SameFiles.trans sameFiles_makeDirectory h

end Workspace
end Quizdown
