import Quizdown.Config.Load
import Quizdown.Proofs.FileTree.WrittenPath

/-! The configuration file that is found when none is named: it stands in the deepest directory that
has one, among the start and the directories above it. -/
set_option autoImplicit false

namespace Quizdown
namespace Config

def HasConfig (t : FileTree) (directory : Place) : Prop :=
  (t.get? (directory ++ [fileName])).isSome = true

/-- Of a directory and those above it, the deepest that has a configuration file. -/
structure Nearest (t : FileTree) (start directory : Place) : Prop where
  above : directory <+: start
  has : HasConfig t directory
  deepest : ∀ other, other <+: start → HasConfig t other → other.length ≤ directory.length

variable {t : FileTree} {start above directory p : Place} {name : Text}

theorem nearest_of_has (h : HasConfig t start) : Nearest t start directory ↔ directory = start := by
  constructor
  · rintro ⟨habove, -, hdeepest⟩
    exact habove.eq_of_length_le (hdeepest start List.prefix_rfl h)
  · rintro rfl
    exact ⟨List.prefix_rfl, h, fun _ hother _ => hother.length_le⟩

theorem nearest_concat (h : ¬ HasConfig t (above ++ [name])) :
    Nearest t (above ++ [name]) directory ↔ Nearest t above directory := by
  constructor
  · rintro ⟨habove, hhas, hdeepest⟩
    rcases List.prefix_concat_iff.mp habove with rfl | habove
    · exact absurd hhas h
    · exact ⟨habove, hhas, fun other hother =>
        hdeepest other (hother.trans (List.prefix_append ..))⟩
  · rintro ⟨habove, hhas, hdeepest⟩
    refine ⟨habove.trans (List.prefix_append ..), hhas, fun other hother hhas => ?_⟩
    rcases List.prefix_concat_iff.mp hother with rfl | hother
    · exact absurd hhas h
    · exact hdeepest other hother hhas

theorem not_nearest_root (h : ¬ HasConfig t []) : ¬ Nearest t [] directory := by
  rintro ⟨habove, hhas, -⟩
  rw [List.prefix_nil.mp habove] at hhas
  exact h hhas

/-! One round of the search. -/

theorem discover?_of_has (h : HasConfig t start) :
    discover? t start = some (start ++ [fileName]) := by
  rw [discover?, discoverFrom.eq_def, List.reverse_reverse]
  exact if_pos h

theorem discover?_root (h : ¬ HasConfig t []) : discover? t [] = none := if_neg h

/-- Where nothing is found, the search goes on in the directory above. -/
theorem discover?_concat (h : ¬ HasConfig t (above ++ [name])) :
    discover? t (above ++ [name]) = discover? t above := by
  have hcandidate : ¬ (t.get? ((name :: above.reverse).reverse ++ [fileName])).isSome = true := by
    rwa [List.reverse_cons, List.reverse_reverse]
  rw [discover?, List.reverse_append, List.reverse_singleton, List.singleton_append, discoverFrom]
  exact if_neg hcandidate

/-! The whole search. -/

theorem discover?_eq_some_iff : discover? t start = some p ↔
    ∃ directory, Nearest t start directory ∧ p = directory ++ [fileName] := by
  have hhere {start : Place} (h : HasConfig t start) : discover? t start = some p ↔
      ∃ directory, Nearest t start directory ∧ p = directory ++ [fileName] := by
    simp [discover?_of_has h, nearest_of_has h, eq_comm]
  induction start using List.reverseRecOn with
  | nil =>
    by_cases h : HasConfig t []
    · exact hhere h
    · simp [discover?_root h, not_nearest_root h]
  | append_singleton above name ih =>
    by_cases h : HasConfig t (above ++ [name])
    · exact hhere h
    · rw [discover?_concat h]
      simpa only [nearest_concat h] using ih

theorem discover?_eq_none_iff : discover? t start = none ↔
    ∀ directory, directory <+: start → ¬ HasConfig t directory := by
  induction start using List.reverseRecOn with
  | nil =>
    by_cases h : HasConfig t []
    · simp [discover?_of_has h, h]
    · simp [discover?_root h, h]
  | append_singleton above name ih =>
    by_cases h : HasConfig t (above ++ [name])
    · rw [discover?_of_has h]
      exact ⟨nofun, fun hall => absurd h (hall _ List.prefix_rfl)⟩
    · rw [discover?_concat h, ih]
      simp [List.prefix_concat_iff, h]

theorem loadFrom_of_discover? {w : Workspace} (hgrounded : w.tree.Grounded)
    (hhere : ∀ name ∈ w.here, IsName name) (h : discover? w.tree w.here = some p) :
    loadFrom w none = loadFrom w (some p.text) := by
  obtain ⟨directory, hnearest, rfl⟩ := discover?_eq_some_iff.mp h
  have hname : IsName fileName := ⟨by decide, by decide, by decide, by decide⟩
  have hnames : ∀ name ∈ directory ++ [fileName], IsName name := by
    intro name hmem
    rcases List.mem_append.mp hmem with hmem | hmem
    · exact hhere name (hnearest.above.mem hmem)
    · rwa [List.mem_singleton.mp hmem]
  have hexists : w.pathExists (Place.text (directory ++ [fileName])) = true := by
    rw [Workspace.pathExists_text hgrounded hnames]
    exact hnearest.has
  have hfound : loadFrom w none = loadFile w (Place.text (directory ++ [fileName])) := by
    rw [loadFrom, h]
  rw [hfound, loadFrom, if_pos hexists]

/-- The search ends in one of two ways. A configuration file is found if the start or a directory
above it has one, and then it is the one of the deepest of these directories; files of other
directories are never found. -/
theorem discover?_nearest (t : FileTree) (start : Place) :
    (∀ p, discover? t start = some p ↔
        ∃ directory, Nearest t start directory ∧ p = directory ++ [fileName]) ∧
      (discover? t start = none ↔
        ∀ directory, directory <+: start → ¬ HasConfig t directory) ∧
      ∀ directory, ¬ directory <+: start → discover? t start ≠ some (directory ++ [fileName]) := by
  refine ⟨fun p => discover?_eq_some_iff, discover?_eq_none_iff, fun directory hother hfound => ?_⟩
  obtain ⟨nearest, hnearest, hsame⟩ := discover?_eq_some_iff.mp hfound
  obtain rfl := List.append_cancel_right hsame
  exact hother hnearest.above

-- From `/quizzes/week1` the file of the root is found, not the one beside or the one below.
example :
    let document := Entry.file (some "[quiz]\n".toList)
    let t : FileTree := ⟨[(["mdquiz.toml".toList], document), (["quizzes".toList], .directory),
      (["quizzes".toList, "week1".toList], .directory),
      (["quizzes".toList, "week1".toList, "old".toList], .directory),
      (["quizzes".toList, "week1".toList, "old".toList, "mdquiz.toml".toList], document),
      (["quizzes".toList, "week2".toList], .directory),
      (["quizzes".toList, "week2".toList, "mdquiz.toml".toList], document)]⟩
    discover? t ["quizzes".toList, "week1".toList] = some ["mdquiz.toml".toList] := rfl

end Config
end Quizdown
