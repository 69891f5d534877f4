import TemplateExpr.Proofs.Caching.Session

namespace TemplateExpr.Cache

open Incident (inSource_failure)

/-- Whatever has been requested before, a source has the tree or the failure that it has without a
cache, and its tree the value or the failure that its evaluation has; only the source of a failed
evaluation is not noted on the tree. -/
theorem run_transparent (capacity : Nat) (enabled : Bool) (requests : List Request)
    (source : String) :
    (((ofCapacity capacity enabled).run requests).get source).result = parseSource source ∧
    ∀ context,
      (((ofCapacity capacity enabled).run requests).evaluate source context).mapError
          Incident.failure =
        (evaluateSource context source).mapError Incident.failure := by
  have hget := ((ofCapacity_faithful capacity enabled).run requests).get_result source
  refine ⟨hget, fun context => ?_⟩
  rw [evaluate, evaluateSource, hget]
  cases parseSource source with
  | error incident => rfl
  | ok e =>
      cases he : TemplateExpr.evaluate context e with
      | error fault =>
          have hfailure := inSource_failure source (.ofFault fault)
          simp only [he]
          exact congrArg Except.error hfailure.symm
      | ok v =>
          simp only [he]
          rfl

end TemplateExpr.Cache
