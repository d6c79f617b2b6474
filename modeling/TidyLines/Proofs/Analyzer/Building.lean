import TidyLines.Analyzer

/-!
# Analyzers that are built

A plan makes an analyzer exactly when all its patterns can be read (`Plan.build_eq_ok_iff`).
-/

namespace TidyLines

theorem mapError_eq_ok_iff {Error Other Value : Type} {result : Except Error Value}
    {change : Error → Other} {value : Value} :
    result.mapError change = .ok value ↔ result = .ok value := by
  cases result with
  | ok other =>
      change Except.ok other = Except.ok value ↔ _
      rw [Except.ok.injEq, Except.ok.injEq]
  | error error => exact ⟨nofun, nofun⟩

theorem bind_eq_ok_iff {Error Value Next : Type} {result : Except Error Value}
    {continue_ : Value → Except Error Next} {next : Next} :
    result >>= continue_ = .ok next ↔
      ∃ value, result = .ok value ∧ continue_ value = .ok next := by
  cases result with
  | ok other => simp [bind, Except.bind]
  | error error => simp [bind, Except.bind]

namespace Plan

variable {plan : Plan} {directory : Path} {analyzer : Analyzer}

/-- The analyzer of a plan, once its patterns are read. -/
def analyzerWith (plan : Plan) (directory : Path) (excluded included : List Filter) :
    Analyzer where
  search := {
    root := directory.join plan.givenRoot
    excluded
    included
    respectIgnoreFiles := (plan.config.getD {}).selection.respectIgnoreFiles }
  rules := plan.rules
  config := plan.config.getD {}
  failOnUndecodable := plan.failOnUndecodable

theorem build_eq_ok_iff :
    plan.build directory = .ok analyzer ↔
      ∃ excluded included, plan.allExcluded.mapM Filter.parse = .ok excluded ∧
        plan.allIncluded.mapM Filter.parse = .ok included ∧
        analyzer = plan.analyzerWith directory excluded included := by
  simp only [build, bind_eq_ok_iff, mapError_eq_ok_iff, pure, Except.pure, Except.ok.injEq,
    exists_and_left, @eq_comm _ _ analyzer]
  rfl

end Plan
end TidyLines
