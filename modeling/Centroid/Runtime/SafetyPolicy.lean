import Mathlib.Data.List.Infix

namespace Centroid

/-- What the policy on texts says of an objective. -/
structure ObjectiveDecision where
  allowed : Bool
  requiresApproval : Bool
  reasons : List String

namespace SafetyPolicy

def destructiveTerms : List String :=
  ["rm -rf", "delete everything", "wipe", "disable safety", "exfiltrate", "chmod 777"]

def riskyTerms : List String :=
  ["restart service", "modify config", "write file", "execute command", "open network port"]

/-- `any(term in text for term in terms)`. -/
def mentions (terms : List String) (text : String) : Bool :=
  terms.any fun term => term.toList <:+: text.toList

/-- `SafetyPolicy.evaluate`; `secret` stands for the search of the secret patterns
and `lower` for `str.lower`. -/
def evaluate (secret : String → Bool) (lower : String → String) (objective : String) (mode : String := "observe")
    (confirmed : Bool := false) : ObjectiveDecision :=
  let normalized := lower objective
  if secret objective then ⟨false, false, ["objective appears to contain or request secret material"]⟩
  else if mentions destructiveTerms normalized then ⟨false, true, ["objective matches destructive policy terms"]⟩
  else
    let risky := mode = "act" || mentions riskyTerms normalized
    if risky && !confirmed then ⟨false, true, ["mutating or risky objective requires approval"]⟩
    else ⟨true, risky, []⟩

/-- The policy on texts holds every unconfirmed objective to act. -/
theorem not_allowed_of_act (secret : String → Bool) (lower : String → String) (objective : String) :
    (evaluate secret lower objective "act" false).allowed = false := by
  unfold evaluate
  split
  · rfl
  · dsimp only
    split
    · rfl
    · simp

end SafetyPolicy

end Centroid
