import Quizdown.Proofs.FileTree.Writing
import Quizdown.Proofs.Text.Blank
import Mathlib.Data.List.Induction

/-! The path that is written for a place leads there, if the names in it are names of entries and
the entries of the tree stand in directories. -/
set_option autoImplicit false

namespace Quizdown

structure IsName (name : Text) : Prop where
  ne_nil : name ≠ []
  noSlash : '/' ∉ name
  ne_point : name ≠ ['.']
  ne_points : name ≠ ['.', '.']

def FileTree.Grounded (t : FileTree) : Prop :=
  ∀ p name, (t.get? (p ++ [name])).isSome = true → t.get? p = some .directory

variable {t : FileTree} {p q : Place} {names : Texts}

theorem IsName.splitBy {name : Text} (h : IsName name) :
    Text.splitBy (· == '/') name = [name] :=
  Text.splitBy_of_forall_not fun c hc => by
    rw [beq_eq_false_iff_ne]
    rintro rfl
    exact h.noSlash hc

theorem Path.names_join (h : ∀ name ∈ names, IsName name) :
    Path.names (Text.join ['/'] names) = names := by
  induction names with
  | nil => rfl
  | cons name names ih =>
    rw [List.forall_mem_cons] at h
    have hname : name.isEmpty = false := by simpa using h.1.ne_nil
    rw [Path.names] at ih ⊢
    cases names with
    | nil => rw [Text.join_singleton, h.1.splitBy, List.filter_singleton, hname]; rfl
    | cons next names =>
      rw [Text.join_cons (by simp), List.append_assoc, List.singleton_append,
        Text.splitBy_append (by rfl), List.filter_append, ih h.2, h.1.splitBy,
        List.filter_singleton, hname]
      rfl

theorem Path.names_text (h : ∀ name ∈ p, IsName name) : Path.names p.text = p := by
  have hroot : Path.names p.text = Path.names (Text.join ['/'] p) := rfl
  rw [hroot, Path.names_join h]

theorem Path.wantsDirectory_text (h : ∀ name ∈ p, IsName name) (hroot : p ≠ []) :
    Path.wantsDirectory p.text = false := by
  obtain ⟨front, name, rfl⟩ : ∃ front name, p = front ++ [name] := by
    simpa using (List.eq_nil_or_concat p).resolve_left hroot
  have hname : IsName name := h name (by simp)
  obtain ⟨c, hc⟩ := Option.isSome_iff_exists.mp (List.getLast?_isSome.mpr hname.ne_nil)
  obtain ⟨before, hbefore⟩ : ∃ before, Place.text (front ++ [name]) = before ++ name := by
    by_cases hfront : front = []
    · exact ⟨['/'], by rw [hfront]; rfl⟩
    · refine ⟨'/' :: (Text.join ['/'] front ++ ['/']), ?_⟩
      rw [Place.text, Text.join_concat hfront]
      rfl
  rw [Path.wantsDirectory, hbefore, List.getLast?_append, hc]
  have hne : c ≠ '/' := fun hslash => hname.noSlash (hslash ▸ List.mem_of_getLast? hc)
  simpa using hne

namespace FileTree

theorem Grounded.directory_of_append (h : t.Grounded) (hnames : names ≠ [])
    (hsome : (t.get? (p ++ names)).isSome = true) : t.get? p = some .directory := by
  induction names using List.reverseRecOn with
  | nil => exact absurd rfl hnames
  | append_singleton names name ih =>
    rw [← List.append_assoc] at hsome
    have habove := h _ _ hsome
    by_cases hnil : names = []
    · rwa [hnil, List.append_nil] at habove
    · exact ih hnil (by rw [habove]; rfl)

theorem walk_cons_name {name : Text} (hname : IsName name) (rest : Texts)
    (hdirectory : t.get? p = some .directory) :
    t.walk p (name :: rest) = t.walk (p ++ [name]) rest := by
  rw [walk, hdirectory]
  simp [hname.ne_point, hname.ne_points]

theorem eq_of_walk (hnames : ∀ name ∈ names, IsName name) (h : t.walk p names = .ok q) :
    q = p ++ names := by
  induction names generalizing p with
  | nil =>
    obtain rfl := Except.ok.inj h
    rw [List.append_nil]
  | cons name names ih =>
    rw [List.forall_mem_cons] at hnames
    cases hp : t.get? p with
    | none => simp [walk, hp] at h
    | some entry =>
      cases entry with
      | file content => simp [walk, hp] at h
      | directory =>
        rw [walk_cons_name hnames.1 names hp] at h
        rw [ih hnames.2 h, List.append_assoc, List.singleton_append]

theorem Grounded.walk (h : t.Grounded) (hnames : ∀ name ∈ names, IsName name)
    (hsome : (t.get? (p ++ names)).isSome = true) : t.walk p names = .ok (p ++ names) := by
  induction names generalizing p with
  | nil => rw [FileTree.walk, List.append_nil]
  | cons name names ih =>
    rw [List.forall_mem_cons] at hnames
    have hdirectory := h.directory_of_append (by simp) hsome
    rw [← List.singleton_append, ← List.append_assoc] at hsome ⊢
    rw [List.singleton_append, walk_cons_name hnames.1 names hdirectory, ih hnames.2 hsome]

end FileTree

namespace Workspace

/-- What stands at a place exists at the path that is written for it. -/
theorem pathExists_text {w : Workspace} (h : w.tree.Grounded) (hp : ∀ name ∈ p, IsName name) :
    w.pathExists p.text = (w.tree.get? p).isSome := by
  have hlocate : w.locate p.text = w.tree.walk [] p := by
    rw [locate, Path.names_text hp]
    rfl
  rw [pathExists, look, hlocate]
  cases hentry : w.tree.get? p with
  | none =>
    cases hwalk : w.tree.walk [] p with
    | error e => rfl
    | ok q =>
      obtain rfl : q = p := FileTree.eq_of_walk hp hwalk
      simp [hentry]
  | some entry =>
    have hwalk : w.tree.walk [] p = .ok p := h.walk hp (by simp [hentry])
    cases entry with
    | directory => simp [hwalk, hentry]
    | file content =>
      have hroot : p ≠ [] := FileTree.ne_root (t := w.tree) (by simp [hentry])
      simp [hwalk, hentry, Path.wantsDirectory_text hp hroot]

end Workspace
end Quizdown
