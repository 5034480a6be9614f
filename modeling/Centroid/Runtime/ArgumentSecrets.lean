import Centroid.Runtime.ProviderProposals

namespace Centroid

mutual

/-- The strings that occur as values in some data, at any depth. -/
def stringsOf : Json → List String
  | .str s => [s]
  | .list items => stringsOfItems items
  | .dict entries => stringsOfEntries entries
  | _ => []

def stringsOfItems : List Json → List String
  | [] => []
  | item :: rest => stringsOf item ++ stringsOfItems rest

def stringsOfEntries : List (Key JsonNumber × Json) → List String
  | [] => []
  | (_, value) :: rest => stringsOf value ++ stringsOfEntries rest

end

namespace ModelToolProposal

/-- Some string among the arguments holds a secret. -/
def Leaks (secret : String → Bool) (proposal : ModelToolProposal) : Prop :=
  ∃ s ∈ stringsOf (.dict proposal.arguments), secret s = true

/-- The arguments of a proposal that reach the text in which secrets are
searched. -/
def searchedKeys : List String := ["resource", "intended_effect", "risk_level"]

/-- The text in which secrets are searched, from the name of a proposal and
the searched arguments. -/
def searchedText (render : Json → String) (proposal : ModelToolProposal) : String :=
  let argument name (default : String) := ((proposal.arguments.get? name).getD (.str default)).pyStr render
  " ".intercalate
    ([proposal.name, argument "resource" proposal.name, argument "intended_effect" ("provider proposed " ++ proposal.name),
      argument "risk_level" "medium"].filter (· ≠ ""))

end ModelToolProposal

/-- A decision that the search for secrets has made. -/
def SafetyDecision.CaughtSecret (decision : SafetyDecision) : Prop :=
  decision.decision = .deny ∧ decision.matchedRule = "secret_pattern"

namespace ConfiguredSafetyPolicy

variable {self : ConfiguredSafetyPolicy} {secret : String → Bool} {request : ActionRequest}

/-- No other rule denies under the name of the search for secrets. -/
theorem caughtSecret_iff : (self.evaluate secret request).CaughtSecret ↔ secret request.normalized = true := by
  unfold evaluate SafetyDecision.CaughtSecret
  by_cases hidden : secret request.normalized = true
  · simp [hidden, decision]
  · simp only [hidden, if_false, iff_false, not_and, Bool.false_eq_true]
    intro _
    split
    · simp [decision]
    split
    · simp [decision]
    split
    · split <;> simp [decision]
    split
    · split
      · simp [decision]
      · split <;> simp [decision]
      · simp [decision]
    · simp [decision]

end ConfiguredSafetyPolicy

theorem infix_intercalate {parts : List (List Char)} {part separator : List Char} (member : part ∈ parts) :
    part <:+: separator.intercalate parts := by
  induction parts with
  | nil => cases member
  | cons first rest ih =>
    cases rest with
    | nil =>
      rw [List.mem_singleton.mp member, List.intercalate_singleton]
    | cons second rest =>
      rw [List.intercalate_cons_cons]
      rcases List.mem_cons.mp member with here | later
      · rw [here, List.append_assoc]
        exact List.infix_append_left
      · exact List.infix_append_of_infix_right (ih later)

namespace ModelToolProposal

variable {render : Json → String} {proposal : ModelToolProposal}

/-- A secret directly under a searched argument is in the searched text. -/
theorem searchedText_of_argument {key s : String} (searched : key ∈ searchedKeys)
    (given : proposal.arguments.get? key = some (.str s)) (hidden : matchesSecret s = true) :
    matchesSecret (proposal.searchedText render) = true := by
  have present : s ≠ "" := by
    intro nothing
    rw [nothing] at hidden
    exact absurd hidden (by decide)
  refine matchesSecret_of_infix ?_ hidden
  rw [searchedText, String.toList_intercalate]
  refine infix_intercalate (List.mem_map.mpr ⟨s, List.mem_filter.mpr ⟨?_, by simpa using present⟩, rfl⟩)
  simp only [searchedKeys, List.mem_cons, List.not_mem_nil, or_false] at searched
  rcases searched with rfl | rfl | rfl <;> simp [given, Value.pyStr]

/-- The other arguments do not reach the searched text. -/
theorem searchedText_congr {other : ModelToolProposal} (name : other.name = proposal.name)
    (arguments : ∀ key ∈ searchedKeys, other.arguments.get? key = proposal.arguments.get? key) :
    other.searchedText render = proposal.searchedText render := by
  have resource := arguments "resource" (by decide)
  have intendedEffect := arguments "intended_effect" (by decide)
  have riskLevel := arguments "risk_level" (by decide)
  simp only [searchedText, name, resource, intendedEffect, riskLevel]

end ModelToolProposal

namespace ConfiguredAgent

variable {agent : ConfiguredAgent} {render : Json → String} {proposal : ModelToolProposal}

theorem proposalDecision_caughtSecret_iff :
    (agent.proposalDecision matchesSecret render proposal).CaughtSecret ↔
      matchesSecret (proposal.searchedText render) = true := by
  rw [proposalDecision, ConfiguredSafetyPolicy.caughtSecret_iff]
  rfl

/-- The secrets among the arguments of the proposals of a response are caught
exactly where the searched text of each proposal that holds one is secret. It
is when a secret stands directly under a searched argument; what stands
elsewhere does not reach it. -/
theorem applyProvider_catches_iff (agent : ConfiguredAgent) (render : Json → String) (result : ScenarioResult)
    (response : ModelResponse) (live : Bool) :
    (List.Forall₂ (fun proposal decision => proposal.Leaks matchesSecret → decision.CaughtSecret) response.toolProposals
        (agent.applyProvider matchesSecret render result response live).providerSafetyDecisions ↔
      ∀ proposal ∈ response.toolProposals, proposal.Leaks matchesSecret →
        matchesSecret (proposal.searchedText render) = true) ∧
    (∀ (proposal : ModelToolProposal), ∀ key ∈ ModelToolProposal.searchedKeys, ∀ s,
      proposal.arguments.get? key = some (.str s) → matchesSecret s = true →
        matchesSecret (proposal.searchedText render) = true) ∧
    ∀ (proposal : ModelToolProposal), ∀ key ∉ ModelToolProposal.searchedKeys, ∀ value,
      ({ proposal with arguments := Assoc.set proposal.arguments (.str key) value } : ModelToolProposal).searchedText
        render = proposal.searchedText render := by
  refine ⟨?_, fun proposal key searched s => ModelToolProposal.searchedText_of_argument searched, ?_⟩
  · simp only [applyProvider, List.forall₂_map_right_iff, List.forall₂_same, proposalDecision_caughtSecret_iff]
  · intro proposal key unsearched value
    refine ModelToolProposal.searchedText_congr rfl fun other searched => ?_
    have apart : (Key.str key : Key JsonNumber) ≠ .str other := by
      intro same
      exact unsearched (Key.str.inj same ▸ searched)
    rw [JsonObject.get?, JsonObject.get?, Assoc.get?_set, if_neg apart]

/-- A proposal to write a key into a file. -/
def leakingProposal : ModelToolProposal where
  proposalId := .str "1"
  name := "write_file"
  arguments := [(.str "resource", .str "notes.txt"), (.str "content", .str "api_key=abc123")]
  providerId := "mock"
  modelId := "mock"

/-- The content of the file is not searched; the proposal is held for
approval. -/
theorem content_not_searched : ¬
    List.Forall₂ (fun proposal decision => proposal.Leaks matchesSecret → decision.CaughtSecret)
      (responseOf leakingProposal).toolProposals (defaultAgent.applyProvider matchesSecret (fun _ => "") emptyResult
        (responseOf leakingProposal) false).providerSafetyDecisions := by
  intro caught
  have leaks : leakingProposal.Leaks matchesSecret := by
    refine ⟨"api_key=abc123", ?_, by decide +kernel⟩
    simp [leakingProposal, stringsOf, stringsOfEntries]
  have only := (List.forall₂_cons.mp caught).1 leaks
  rw [proposalDecision_caughtSecret_iff] at only
  revert only
  decide +kernel

end ConfiguredAgent

end Centroid
