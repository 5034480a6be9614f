import Centroid.Config.AgentConfig
import Centroid.Lib.FloatArith

namespace Centroid

structure PrioritySignal where
  urgency : PyFloat := .finite 0
  risk : PyFloat := .finite 0
  userValue : PyFloat := .finite 0
  stability : PyFloat := .finite 1

structure RouteDecision where
  node : String
  reason : String
  requiresApproval : Bool := false
  deriving DecidableEq

structure ConfiguredPriorityResult where
  score : PyFloat
  route : RouteDecision
  deriving DecidableEq

/-- `_clamp`. -/
def clampFloat (value : PyFloat) : PyFloat := .pyMax (.finite 0) (.pyMin (.finite 1) value)

example : clampFloat .nan = .finite 1 := rfl

structure ConfiguredPriorityScorer where
  policy : PriorityPolicy

namespace ConfiguredPriorityScorer

variable (self : ConfiguredPriorityScorer)

/-- The sum of the weights, in the order in which it is written. -/
def total : PyFloat :=
  ((self.policy.weights.urgency.add self.policy.weights.risk).add self.policy.weights.userValue).add
    self.policy.weights.instability

def weightedSum (signal : PrioritySignal) : PyFloat :=
  let weights := self.policy.weights
  (((weights.urgency.mul (clampFloat signal.urgency)).add (weights.risk.mul (clampFloat signal.risk))).add
    (weights.userValue.mul (clampFloat signal.userValue))).add
    (weights.instability.mul ((PyFloat.finite 1).sub (clampFloat signal.stability)))

/-- `score`, `none` where the division raises. Sums, products and the quotient are exact; only the
result is rounded. -/
def score (signal : PrioritySignal) : Option PyFloat :=
  if self.total.le (.finite 0) then some (.finite 0)
  else ((self.weightedSum signal).div? self.total).map fun score => (clampFloat score).round 4

/-- `route`, `none` where the score raises. -/
def route (signal : PrioritySignal) (mutatesState : Bool) : Option ConfiguredPriorityResult :=
  (self.score signal).map fun score =>
    if mutatesState then
      ⟨score, "orchestration_node", "configured runtime routed mutating work through orchestration", true⟩
    else if self.policy.reflexThreshold.le score then
      ⟨score, "reflex_node", "configured reflex threshold met", false⟩
    else if self.policy.deliberationThreshold.le score then
      ⟨score, "deliberation_node", "configured deliberation threshold met", false⟩
    else ⟨score, "deliberation_node", "configured low-priority deliberation fallback", false⟩

/-- For every policy and signal there is a score, from zero to one. -/
theorem exists_score (signal : PrioritySignal) : ∃ score, self.score signal = some score ∧ score.InUnit := by
  unfold score
  split
  · exact ⟨.finite 0, rfl, 0, rfl, le_rfl, zero_le_one⟩
  · rename_i above
    obtain ⟨quotient, divided⟩ := PyFloat.exists_div? (self.weightedSum signal) (Bool.eq_false_iff.mpr above)
    refine ⟨(clampFloat quotient).round 4, by rw [divided, Option.map_some], ?_⟩
    exact (PyFloat.inUnit_clip quotient).round 4

theorem exists_route (signal : PrioritySignal) (mutatesState : Bool) :
    ∃ result, self.route signal mutatesState = some result ∧ result.score.InUnit := by
  obtain ⟨score, scored, unit⟩ := self.exists_score signal
  rw [route, scored, Option.map_some]
  refine ⟨_, rfl, ?_⟩
  split
  · exact unit
  · split
    · exact unit
    · split
      · exact unit
      · exact unit

end ConfiguredPriorityScorer

end Centroid
