import Centroid.Fusion.BridgeCandidates
import Centroid.Fusion.Synthesis

namespace Centroid

open BridgeDetector

/-- What two modules have in common, told from their texts alone. -/
def commonGround (perceivedList : List PerceivedText) (a b : String) : String :=
  let shared := sharedConcepts perceivedList a b
  "Modules '" ++ a ++ "' and '" ++ b ++ "' share " ++ toString shared.card ++ " concepts including: " ++
    ", ".intercalate ((sorted shared).take 3) ++ "."

/-- A reply that raises nothing: an error of the connection, a text that is no JSON,
or an object whose message is an object with a text for its content, if with any. -/
def OllamaReply.Readable (loads : String → Except DecodeFailure Json) : OllamaReply → Prop
  | .osError => True
  | .raised _ => False
  | .body text => loads text = .error .jsonDecodeError ∨ loads text = .error .valueError ∨
      ∃ data msg : JsonObject, loads text = .ok (.dict data) ∧ data.getD "message" (.dict []) = .dict msg ∧
        let content := orElse (msg.getD "content" (.str "")) (msg.getD "thinking" (.str ""))
        content.pyBool = true → ∃ said, content = .str said

namespace BridgeSynthesizer

section Reply

theorem asDict_eq_ok_iff {value : Json} {entries : JsonObject} : value.asDict = .ok entries ↔ value = .dict entries := by
  cases value with
  | dict d => exact ⟨fun same => congrArg _ (Except.ok.inj same), fun same => by cases same; rfl⟩
  | _ => exact iff_of_false (fun same => nomatch same) (fun same => nomatch same)

theorem readMessage_returns_iff (data : Json) : (∃ told, readMessage data = .ok told) ↔
    ∃ entries msg : JsonObject, data = .dict entries ∧ entries.getD "message" (.dict []) = .dict msg ∧
      let content := orElse (msg.getD "content" (.str "")) (msg.getD "thinking" (.str ""))
      content.pyBool = true → ∃ said, content = .str said := by
  rw [readMessage, Raises.returns_bind_iff]
  simp only [asDict_eq_ok_iff, Raises.returns_bind_iff, exists_and_left]
  refine exists_congr fun entries => and_congr_right fun _ => exists_congr fun msg => and_congr_right fun _ => ?_
  generalize orElse (msg.getD "content" (.str "")) (msg.getD "thinking" (.str "")) = content
  have course : ¬ (∃ said, content = .str said) →
      ((∃ told, (if content.pyBool then .error .attributeError else .ok none : Except NormalizeError (Option String)) =
        .ok told) ↔ (content.pyBool = true → ∃ said, content = .str said)) := by
    intro other
    cases content.pyBool with
    | false => exact iff_of_true ⟨none, rfl⟩ fun truthy => nomatch truthy
    | true => exact iff_of_false (fun ⟨_, same⟩ => nomatch same) fun given => other (given rfl)
  cases content with
  | str said => exact iff_of_true ⟨_, rfl⟩ fun _ => ⟨said, rfl⟩
  | _ => exact course fun ⟨_, same⟩ => nomatch same

theorem readReply_returns_iff (loads : String → Except DecodeFailure Json) (reply : OllamaReply) :
    (∃ told, readReply loads reply = .ok told) ↔ reply.Readable loads := by
  cases reply with
  | osError => exact iff_of_true ⟨none, rfl⟩ trivial
  | raised exc => exact iff_of_false (by rintro ⟨_, same⟩; cases same) id
  | body text =>
    rw [readReply, OllamaReply.Readable]
    cases loads text with
    | error e =>
      cases e with
      | jsonDecodeError => exact iff_of_true ⟨none, rfl⟩ (.inl rfl)
      | valueError => exact iff_of_true ⟨none, rfl⟩ (.inr (.inl rfl))
      | recursionError =>
        refine iff_of_false (by rintro ⟨_, same⟩; cases same) ?_
        rintro (same | same | ⟨_, _, same, -⟩)
        · cases same
        · cases same
        · cases same
    | ok data =>
      have shape := readMessage_returns_iff data
      refine Iff.trans (b := ∃ told, readMessage data = .ok told) ?_ (shape.trans ?_)
      · dsimp only
        cases readMessage data with
        | error e => exact iff_of_false (by rintro ⟨_, same⟩; cases same) (by rintro ⟨_, same⟩; cases same)
        | ok told => exact iff_of_true ⟨told, rfl⟩ ⟨told, rfl⟩
      · constructor
        · rintro ⟨entries, msg, rfl, both⟩
          exact .inr (.inr ⟨entries, msg, rfl, both⟩)
        · rintro (same | same | ⟨entries, msg, same, both⟩)
          · cases same
          · cases same
          · exact ⟨entries, msg, Except.ok.inj same, both⟩

end Reply

section Each

variable (self : BridgeSynthesizer) (world : SynthesisWorld) (conceptGraph : ConceptGraph)

def callFor (bridge : BridgeCandidate) : OllamaCall := self.ollamaCall bridge (sharedIn conceptGraph bridge)

/-- What the server tells of a bridge after these requests, if it is asked. -/
def toldAfter (made : List OllamaCall) (bridge : BridgeCandidate) : Option String :=
  if self.ollamaHost = "" then none
  else
    match readReply world.loads (world.respond made (self.callFor conceptGraph bridge)) with
    | .ok told => told
    | .error _ => none

/-- Nothing is raised: there is no server, or its address is one and every reply
can be read. -/
def Answered (made : List OllamaCall) (bridges : List BridgeCandidate) : Prop :=
  self.ollamaHost = "" ∨ ∀ k bridge, bridges[k]? = some bridge → urlTyped self.url = true ∧
    (world.respond (made ++ (bridges.take k).map (self.callFor conceptGraph))
      (self.callFor conceptGraph bridge)).Readable world.loads

/-- The description of the bridge at a place of the list. -/
def resultAt (i : ℕ) (made : List OllamaCall) (bridges : List BridgeCandidate) (k : ℕ) (bridge : BridgeCandidate) :
    SynthesisResult :=
  let told := self.toldAfter world conceptGraph (made ++ (bridges.take k).map (self.callFor conceptGraph)) bridge
  ⟨bridge, told.getD (fallbackText bridge (sharedIn conceptGraph bridge)), told.isSome, world.clock (i + k)⟩

variable {self world conceptGraph}

theorem toldAfter_of_no_host (noHost : self.ollamaHost = "") (made : List OllamaCall) (bridge : BridgeCandidate) :
    self.toldAfter world conceptGraph made bridge = none := if_pos noHost

theorem resultAt_cons (i : ℕ) (made : List OllamaCall) (first : BridgeCandidate) (bridges : List BridgeCandidate) (k : ℕ) :
    self.resultAt world conceptGraph i made (first :: bridges) (k + 1) =
      self.resultAt world conceptGraph (i + 1) (made ++ [self.callFor conceptGraph first]) bridges k := by
  funext bridge
  have place : i + (k + 1) = i + 1 + k := by omega
  have before : made ++ ((first :: bridges).take (k + 1)).map (self.callFor conceptGraph) =
      made ++ [self.callFor conceptGraph first] ++ (bridges.take k).map (self.callFor conceptGraph) := by
    rw [List.take_succ_cons, List.map_cons, List.append_assoc, List.singleton_append]
  rw [resultAt, resultAt, place, before]

theorem synthesizeEach_of_no_host (noHost : self.ollamaHost = "") (i : ℕ) (made : List OllamaCall)
    (bridges : List BridgeCandidate) :
    ∃ results, self.synthesizeEach world conceptGraph i made bridges = (made, .ok results) ∧
      ∀ k, results[k]? = bridges[k]?.map (self.resultAt world conceptGraph i made bridges k) := by
  induction bridges generalizing i with
  | nil => exact ⟨[], rfl, fun _ => rfl⟩
  | cons bridge bridges ih =>
    obtain ⟨results, ran, each⟩ := ih (i + 1)
    rw [synthesizeEach, synthesize, if_pos noHost]
    dsimp only
    rw [ran]
    refine ⟨_, rfl, fun k => ?_⟩
    cases k with
    | zero =>
      rw [List.getElem?_cons_zero, List.getElem?_cons_zero, Option.map_some, resultAt, toldAfter_of_no_host noHost]
      rfl
    | succ k =>
      rw [List.getElem?_cons_succ, List.getElem?_cons_succ, each, resultAt_cons]
      refine congrArg (fun f => Option.map f bridges[k]?) ?_
      funext other
      simp only [resultAt, toldAfter_of_no_host noHost]

theorem synthesize_of_host (hosted : self.ollamaHost ≠ "") (now : ℚ) (made : List OllamaCall) (bridge : BridgeCandidate) :
    self.synthesize world now made bridge conceptGraph =
      if urlTyped self.url then
        (made ++ [self.callFor conceptGraph bridge],
          (readReply world.loads (world.respond made (self.callFor conceptGraph bridge))).map fun told =>
            ⟨bridge, told.getD (fallbackText bridge (sharedIn conceptGraph bridge)), told.isSome, now⟩)
      else (made, .error (.unknownUrlType self.url)) := by
  have address : (self.ollamaCall bridge (sharedIn conceptGraph bridge)).url = self.url := rfl
  rw [synthesize, if_neg hosted, callOllama, callFor]
  rw [address]
  cases urlTyped self.url with
  | false => rfl
  | true =>
    rw [if_pos rfl, if_pos rfl]
    rcases readReply world.loads (world.respond made (self.ollamaCall bridge (sharedIn conceptGraph bridge))) with
      e | told | text
    · rfl
    · rfl
    · rfl

theorem answered_cons (hosted : self.ollamaHost ≠ "") (made : List OllamaCall) (bridge : BridgeCandidate)
    (bridges : List BridgeCandidate) :
    self.Answered world conceptGraph made (bridge :: bridges) ↔ urlTyped self.url = true ∧
      (world.respond made (self.callFor conceptGraph bridge)).Readable world.loads ∧
        self.Answered world conceptGraph (made ++ [self.callFor conceptGraph bridge]) bridges := by
  have before (k : ℕ) : made ++ ((bridge :: bridges).take (k + 1)).map (self.callFor conceptGraph) =
      made ++ [self.callFor conceptGraph bridge] ++ (bridges.take k).map (self.callFor conceptGraph) := by
    rw [List.take_succ_cons, List.map_cons, List.append_assoc, List.singleton_append]
  rw [Answered, Answered, or_iff_right hosted, or_iff_right hosted]
  constructor
  · intro each
    obtain ⟨typed, first⟩ := each 0 bridge rfl
    rw [List.take_zero, List.map_nil, List.append_nil] at first
    refine ⟨typed, first, fun k other found => ?_⟩
    have later := each (k + 1) other found
    rwa [before] at later
  · rintro ⟨typed, first, each⟩ k other found
    cases k with
    | zero =>
      rw [List.getElem?_cons_zero] at found
      rw [← Option.some.inj found, List.take_zero, List.map_nil, List.append_nil]
      exact ⟨typed, first⟩
    | succ k =>
      rw [before]
      exact each k other found

/-- One request after the other, as long as the replies can be read. -/
theorem synthesizeEach_of_host (hosted : self.ollamaHost ≠ "") (i : ℕ) (made : List OllamaCall)
    (bridges : List BridgeCandidate) :
    ((∃ results, (self.synthesizeEach world conceptGraph i made bridges).2 = .ok results) ↔
        self.Answered world conceptGraph made bridges) ∧
      ∀ results, (self.synthesizeEach world conceptGraph i made bridges).2 = .ok results →
        (self.synthesizeEach world conceptGraph i made bridges).1 = made ++ bridges.map (self.callFor conceptGraph) ∧
          ∀ k, results[k]? = bridges[k]?.map (self.resultAt world conceptGraph i made bridges k) := by
  induction bridges generalizing i made with
  | nil =>
    refine ⟨iff_of_true ⟨[], rfl⟩ (.inr fun k bridge found => nomatch found), fun results ok => ?_⟩
    rw [← Except.ok.inj ok]
    exact ⟨(List.append_nil made).symm, fun _ => rfl⟩
  | cons bridge bridges ih =>
    rw [answered_cons hosted, synthesizeEach, synthesize_of_host hosted]
    cases typed : urlTyped self.url with
    | false => exact ⟨iff_of_false (fun ⟨_, ok⟩ => nomatch ok) (fun both => nomatch both.1), fun _ ok => nomatch ok⟩
    | true =>
      rw [if_pos rfl, ← readReply_returns_iff]
      cases read : readReply world.loads (world.respond made (self.callFor conceptGraph bridge)) with
      | error e =>
        exact ⟨iff_of_false (fun ⟨_, ok⟩ => nomatch ok) (fun ⟨_, ⟨_, told⟩, _⟩ => nomatch told), fun _ ok => nomatch ok⟩
      | ok told =>
        obtain ⟨returns, tells⟩ := ih (i + 1) (made ++ [self.callFor conceptGraph bridge])
        have readable : ∃ text, (.ok told : Except SynthesisError (Option String)) = .ok text := ⟨told, rfl⟩
        dsimp only [Except.map]
        rw [and_iff_right rfl, and_iff_right readable, ← returns]
        have first : self.resultAt world conceptGraph i made (bridge :: bridges) 0 bridge =
            ⟨bridge, told.getD (fallbackText bridge (sharedIn conceptGraph bridge)), told.isSome, world.clock i⟩ := by
          rw [resultAt, toldAfter, if_neg hosted, List.take_zero, List.map_nil, List.append_nil, read]
          rfl
        rcases ran : self.synthesizeEach world conceptGraph (i + 1) (made ++ [self.callFor conceptGraph bridge]) bridges
          with ⟨after, e | later⟩
        · exact ⟨iff_of_false (fun ⟨_, ok⟩ => nomatch ok) (fun ⟨_, ok⟩ => nomatch ok), fun _ ok => nomatch ok⟩
        · refine ⟨iff_of_true ⟨_, rfl⟩ ⟨_, rfl⟩, fun results ok => ?_⟩
          rw [ran] at tells
          obtain ⟨requests, each⟩ := tells later rfl
          rw [← Except.ok.inj ok]
          refine ⟨?_, fun k => ?_⟩
          · dsimp only at requests ⊢
            rw [requests, List.map_cons, List.append_assoc, List.singleton_append]
          · cases k with
            | zero => rw [List.getElem?_cons_zero, List.getElem?_cons_zero, Option.map_some, first]
            | succ k => rw [List.getElem?_cons_succ, List.getElem?_cons_succ, each, resultAt_cons]

end Each

section Pipeline

variable {self : BridgeSynthesizer} {world : SynthesisWorld} {perceivedList : List PerceivedText}
  {visit : ∀ (_ : String) (modules : Finset String), Visit modules}

/-- The count of a candidate and the names that are listed are those of the texts. -/
theorem fallbackText_eq {bridge : BridgeCandidate} (described : Describes perceivedList bridge) :
    fallbackText bridge (sharedIn (ConceptGraphBuilder.build visit perceivedList) bridge) =
      commonGround perceivedList bridge.moduleA bridge.moduleB := by
  rw [fallbackText, sharedIn, described.count, ConceptGraphBuilder.moduleIndex_getD, ConceptGraphBuilder.moduleIndex_getD]
  rfl

/-- The bridges that no edge covers come in the order in which they would be sorted. -/
theorem mergeSort_implicitBridges (graph : Option (CoherenceGraphDef (Key ℚ) ℚ)) (clock : ℕ → ℚ) :
    let bridges := (BridgeDetector.init graph).implicitBridges (detect (ConceptGraphBuilder.build visit perceivedList) clock)
    (bridges.mergeSort fun c d => decide (d.bridgeScore ≤ c.bridgeScore)) = bridges := by
  refine List.mergeSort_of_pairwise ((pairwise_detect visit perceivedList clock).filter _ |>.imp ?_)
  exact fun order => decide_eq_true order.1

theorem describes_of_top {graph : Option (CoherenceGraphDef (Key ℚ) ℚ)} {clock : ℕ → ℚ} {maxBridges : ℤ} {k : ℕ}
    {bridge : BridgeCandidate}
    (found : (sliceTo maxBridges ((BridgeDetector.init graph).implicitBridges
      (detect (ConceptGraphBuilder.build visit perceivedList) clock)))[k]? = some bridge) :
    Describes perceivedList bridge := by
  have chosen := List.mem_of_mem_take (List.mem_of_getElem? found)
  exact describes_detect (List.mem_filter.mp chosen).1

variable (self world visit perceivedList)

/-- The fusion of the texts of the modules, up to the descriptions of the bridges.
It returns exactly if there is no server, or its address is one and each of its
replies can be read. Then the first bridges of the report are described in their
order: by the text of the server where it has told one, else by what the texts of
the two modules have in common. One request is made for each, and none without a
server. -/
theorem synthesizeAll_implicitBridges (graph : Option (CoherenceGraphDef (Key ℚ) ℚ)) (clock : ℕ → ℚ) (maxBridges : ℤ) :
    let conceptGraph := ConceptGraphBuilder.build visit perceivedList
    let bridges := (BridgeDetector.init graph).implicitBridges (detect conceptGraph clock)
    let top := sliceTo maxBridges bridges
    let run := self.synthesizeAll world bridges conceptGraph maxBridges
    ((∃ results, run.2 = .ok results) ↔ self.Answered world conceptGraph [] top) ∧
      ∀ results, run.2 = .ok results →
        run.1 = (if self.ollamaHost = "" then [] else top.map (self.callFor conceptGraph)) ∧
          results.length = top.length ∧
          ∀ k bridge, top[k]? = some bridge →
            let told := self.toldAfter world conceptGraph ((top.take k).map (self.callFor conceptGraph)) bridge
            results[k]? = some ⟨bridge, told.getD (commonGround perceivedList bridge.moduleA bridge.moduleB), told.isSome,
              world.clock k⟩ := by
  intro conceptGraph bridges top run
  have course : run = self.synthesizeEach world conceptGraph 0 [] top := by
    show self.synthesizeEach world conceptGraph 0 [] (sliceTo maxBridges (bridges.mergeSort _)) = _
    rw [mergeSort_implicitBridges]
  have described (k : ℕ) (bridge : BridgeCandidate) (found : top[k]? = some bridge) :
      self.resultAt world conceptGraph 0 [] top k bridge =
        let told := self.toldAfter world conceptGraph ((top.take k).map (self.callFor conceptGraph)) bridge
        ⟨bridge, told.getD (commonGround perceivedList bridge.moduleA bridge.moduleB), told.isSome, world.clock k⟩ := by
    rw [resultAt, fallbackText_eq (describes_of_top found), List.nil_append, Nat.zero_add]
  have settled (results : List SynthesisResult)
      (each : ∀ k, results[k]? = top[k]?.map (self.resultAt world conceptGraph 0 [] top k)) :
      results.length = top.length ∧ ∀ k bridge, top[k]? = some bridge →
        let told := self.toldAfter world conceptGraph ((top.take k).map (self.callFor conceptGraph)) bridge
        results[k]? = some ⟨bridge, told.getD (commonGround perceivedList bridge.moduleA bridge.moduleB), told.isSome,
          world.clock k⟩ := by
    refine ⟨?_, fun k bridge found => ?_⟩
    · refine le_antisymm ?_ ?_
      · refine List.getElem?_eq_none_iff.mp ?_
        rw [each, List.getElem?_eq_none le_rfl]
        rfl
      · refine List.getElem?_eq_none_iff.mp ?_
        have past := each results.length
        rw [List.getElem?_eq_none le_rfl] at past
        exact Option.map_eq_none_iff.mp past.symm
    · rw [each, found, Option.map_some, described k bridge found]
  rw [course]
  by_cases noHost : self.ollamaHost = ""
  · obtain ⟨results, ran, each⟩ := @synthesizeEach_of_no_host self world conceptGraph noHost 0 [] top
    rw [ran, if_pos noHost]
    refine ⟨iff_of_true ⟨results, rfl⟩ (.inl noHost), fun results' ok => ?_⟩
    rw [← Except.ok.inj ok]
    exact ⟨rfl, settled results each⟩
  · obtain ⟨returns, tells⟩ := @synthesizeEach_of_host self world conceptGraph noHost 0 [] top
    refine ⟨returns, fun results ok => ?_⟩
    obtain ⟨requests, each⟩ := tells results ok
    rw [if_neg noHost]
    exact ⟨requests, settled results each⟩

end Pipeline

end BridgeSynthesizer

end Centroid
