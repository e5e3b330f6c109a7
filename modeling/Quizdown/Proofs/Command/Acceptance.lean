import Quizdown.Command.Convert
import Quizdown.Proofs.Assembly.Agreement

/-! Which documents the commands accept. What the command line asks for is added to the settings
after they are loaded, and does not reach the separator of pairs; so `check`, which is told nothing
of it, refuses the same documents as `convert`, for the same reasons. -/
set_option autoImplicit false

namespace Quizdown
namespace Command

open Config (Loaded Overrides load)

theorem load_alike (w : Workspace) (config : Option Text) (overrides : Overrides) :
    Alike (fun plain overridden : Loaded =>
        overridden.settings = overrides.apply plain.settings ∧ overridden.path = plain.path)
      (load w config {}) (load w config overrides) := by
  have hnone (s : Settings) : Overrides.apply {} s = s := by simp [Overrides.apply]
  simp only [load, hnone]
  cases Config.loadFrom w config with
  | error e => exact .error e
  | ok l => exact .ok ⟨rfl, rfl⟩

theorem readQuestions_alike {s t : Settings} (hsep : s.matchingSeparator = t.matchingSeparator)
    (w : Workspace) (path : Text) :
    Alike (List.Forall₂ (Question.Agree s t)) (readQuestions w s path)
      (readQuestions w t path) := by
  unfold readQuestions
  split
  · exact .error _
  · rename_i source _
    rcases (parseQuiz_alike hsep source).cases with ⟨e, hs, ht⟩ | ⟨qs, rs, hs, ht, hagree⟩
    · simp only [hs, ht]
      exact .error _
    · simp only [hs, ht]
      exact .ok hagree

theorem convertDocument_refused_iff {settings : Settings} {directory : Option Text} {w : Workspace}
    {path : Text} {e : ConvertError} :
    (convertDocument settings directory w path).1 = .error (.refused e) ↔
      readQuestions w settings path = .error (.refused e) := by
  unfold convertDocument
  cases readQuestions w settings path with
  | error fault => simp
  | ok questions =>
    dsimp only
    split <;> simp

end Command
end Quizdown
