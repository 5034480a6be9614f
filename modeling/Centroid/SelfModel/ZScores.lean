import Centroid.Lib.Statistics
import Centroid.SelfModel.Telemetry

namespace Centroid

open Rounding

/-- An anomaly as it is found, before its numbers are rounded for the event. The
deviation and the score may be of another field than the values. -/
structure ScoredEvent (K : Type) where
  sourceId : String
  field : String
  observed : ℚ
  mean : ℚ
  std : K
  zScore : K
  severity : Severity

/-- The event that reports an anomaly. -/
def ScoredEvent.event (e : ScoredEvent ℚ) (now : ℚ) : AnomalyEvent :=
  ⟨e.sourceId, e.field, roundTo 4 e.observed, roundTo 4 e.mean, roundTo 4 e.std, roundTo 4 e.zScore, e.severity, now⟩

/-- The arguments of one `update` of a detector. -/
structure DetectorCall where
  sourceId : String
  metrics : Dict String ℚ

namespace DetectorCall

/-- What a call tells of a pair of source and field. -/
def observation (c : DetectorCall) (pair : String × String) : Option ℚ :=
  if c.sourceId = pair.1 then c.metrics.get? pair.2 else none

def observations (calls : List DetectorCall) (pair : String × String) : List ℚ :=
  calls.filterMap fun c => c.observation pair

theorem observations_append_singleton (calls : List DetectorCall) (c : DetectorCall) (pair : String × String) :
    observations (calls ++ [c]) pair = observations calls pair ++ (c.observation pair).toList := by
  rw [observations, List.filterMap_append]
  cases told : c.observation pair with
  | none => simp [told, observations]
  | some v => simp [told, observations]

end DetectorCall

namespace AnomalyDetector

section

variable {K : Type} [Field K] [LinearOrder K] (stdev : List ℚ → K)

/-- `judge` with deviations in another field. -/
def judgeIn (self : AnomalyDetector) (windowValues : List ℚ) (value : ℚ) : Option (ℚ × K × K × Severity) :=
  if windowValues.length < self.minSamples then none
  else
    let prior := windowValues.dropLast
    if prior.length < 2 then none
    else
      let meanVal := prior.sum / prior.length
      let stdVal := stdev prior
      if stdVal = 0 then none
      else
        let z := ((value - meanVal : ℚ) : K) / stdVal
        if (self.criticalThreshold : K) < |z| then some (meanVal, stdVal, z, .critical)
        else if (self.warnThreshold : K) < |z| then some (meanVal, stdVal, z, .warn)
        else none

def updateFieldIn (sourceId : String) (state : AnomalyDetector × List (ScoredEvent K)) (entry : String × ℚ) :
    AnomalyDetector × List (ScoredEvent K) :=
  let (self, anomalies) := state
  let key := (sourceId, entry.1)
  let windowValues := Window.push self.window ((self.windows.get? key).getD []) entry.2
  let self := { self with windows := self.windows.set key windowValues }
  match self.judgeIn stdev windowValues entry.2 with
  | none => (self, anomalies)
  | some (meanVal, stdVal, z, severity) =>
    (self, anomalies ++ [⟨sourceId, entry.1, entry.2, meanVal, stdVal, z, severity⟩])

/-- `update` with deviations in another field. -/
def updateIn (self : AnomalyDetector) (c : DetectorCall) : AnomalyDetector × List (ScoredEvent K) :=
  c.metrics.entries.foldl (updateFieldIn stdev c.sourceId) (self, [])

/-- The detector after some calls. -/
def afterCalls (self : AnomalyDetector) (calls : List DetectorCall) : AnomalyDetector :=
  calls.foldl (fun detector c => (detector.updateIn stdev c).1) self

/-- What a call finds for a pair after some calls. -/
def found (self : AnomalyDetector) (calls : List DetectorCall) (c : DetectorCall) (pair : String × String) :
    List (ScoredEvent K) :=
  ((self.afterCalls stdev calls).updateIn stdev c).2.filter fun e => (e.sourceId, e.field) = pair

end

/-- With rational deviations this is `judge`. -/
theorem judgeIn_rat (stdev : List ℚ → ℚ) (self : AnomalyDetector) : self.judgeIn stdev = self.judge stdev := by
  funext windowValues value
  simp only [judgeIn, judge, Rat.cast_id]

section

variable {K : Type} [Field K] [LinearOrder K] (stdev : List ℚ → K)

def windowOf (self : AnomalyDetector) (pair : String × String) : List ℚ := (self.windows.get? pair).getD []

/-- What is found of a value in the window that it goes into. -/
def scored (self : AnomalyDetector) (sourceId : String) (windowValues : List ℚ) (entry : String × ℚ) :
    Option (ScoredEvent K) :=
  (self.judgeIn stdev windowValues entry.2).map fun (meanVal, stdVal, z, severity) =>
    ⟨sourceId, entry.1, entry.2, meanVal, stdVal, z, severity⟩

/-- What is found of an entry of the metrics. -/
def scoredEntry (self : AnomalyDetector) (sourceId : String) (entry : String × ℚ) : Option (ScoredEvent K) :=
  self.scored stdev sourceId (Window.push self.window (self.windowOf (sourceId, entry.1)) entry.2) entry

variable {stdev} in
theorem scoredEntry_of_quiet {self : AnomalyDetector} {sourceId : String} {entry : String × ℚ}
    (quiet : self.judgeIn stdev (Window.push self.window (self.windowOf (sourceId, entry.1)) entry.2) entry.2 = none) :
    self.scoredEntry stdev sourceId entry = none :=
  Option.map_eq_none_iff.mpr quiet

variable {stdev} in
theorem scoredEntry_of_judged {self : AnomalyDetector} {sourceId : String} {entry : String × ℚ} {meanVal : ℚ}
    {stdVal z : K} {severity : Severity}
    (judged : self.judgeIn stdev (Window.push self.window (self.windowOf (sourceId, entry.1)) entry.2) entry.2 =
      some (meanVal, stdVal, z, severity)) :
    self.scoredEntry stdev sourceId entry = some ⟨sourceId, entry.1, entry.2, meanVal, stdVal, z, severity⟩ :=
  Option.map_eq_some_iff.mpr ⟨_, judged, rfl⟩

/-- The detector with one value more in one of its windows. -/
def pushed (self : AnomalyDetector) (sourceId : String) (entry : String × ℚ) : AnomalyDetector :=
  { self with
    windows := self.windows.set (sourceId, entry.1) (Window.push self.window (self.windowOf (sourceId, entry.1)) entry.2) }

theorem updateFieldIn_eq (self : AnomalyDetector) (sourceId : String) (events : List (ScoredEvent K))
    (entry : String × ℚ) :
    updateFieldIn stdev sourceId (self, events) entry =
      (self.pushed sourceId entry, events ++ (self.scoredEntry stdev sourceId entry).toList) := by
  rw [updateFieldIn]
  split
  · rename_i quiet
    rw [scoredEntry_of_quiet quiet]
    exact Prod.ext rfl (List.append_nil _).symm
  · rename_i meanVal stdVal z severity judged
    rw [scoredEntry_of_judged judged]
    rfl

/-- With rational deviations the anomalies are reported as events. -/
theorem updateField_eq (stdev : List ℚ → ℚ) (self : AnomalyDetector) (sourceId : String) (now : ℚ)
    (events : List AnomalyEvent) (entry : String × ℚ) :
    updateField stdev sourceId now (self, events) entry =
      (self.pushed sourceId entry, events ++ ((self.scoredEntry stdev sourceId entry).map (·.event now)).toList) := by
  rw [updateField]
  split
  · rename_i quiet
    rw [← judgeIn_rat] at quiet
    rw [scoredEntry_of_quiet quiet]
    exact Prod.ext rfl (List.append_nil _).symm
  · rename_i meanVal stdVal z severity judged
    rw [← judgeIn_rat] at judged
    rw [scoredEntry_of_judged judged]
    rfl

/-- With rational deviations `updateIn` is `update`, before the rounding. -/
theorem update_eq_updateIn (stdev : List ℚ → ℚ) (self : AnomalyDetector) (c : DetectorCall) (now : ℚ) :
    self.update stdev c.sourceId c.metrics now =
      ((self.updateIn stdev c).1, (self.updateIn stdev c).2.map (·.event now)) := by
  have general : ∀ (entries : List (String × ℚ)) (self : AnomalyDetector) (found : List (ScoredEvent ℚ)),
      entries.foldl (updateField stdev c.sourceId now) (self, found.map (·.event now)) =
        ((entries.foldl (updateFieldIn stdev c.sourceId) (self, found)).1,
          (entries.foldl (updateFieldIn stdev c.sourceId) (self, found)).2.map (·.event now)) := by
    intro entries
    induction entries with
    | nil => exact fun _ _ => rfl
    | cons entry entries ih =>
      intro self found
      have more : found.map (·.event now) ++ ((self.scoredEntry stdev c.sourceId entry).map (·.event now)).toList =
          (found ++ (self.scoredEntry stdev c.sourceId entry).toList).map (·.event now) := by
        rw [List.map_append]
        cases self.scoredEntry stdev c.sourceId entry <;> rfl
      rw [List.foldl_cons, List.foldl_cons, updateField_eq, updateFieldIn_eq, more]
      exact ih _ _
  exact general c.metrics.entries self []

theorem windowOf_pushed (self : AnomalyDetector) (sourceId : String) (entry : String × ℚ) (pair : String × String) :
    (self.pushed sourceId entry).windowOf pair =
      if (sourceId, entry.1) = pair then Window.push self.window (self.windowOf pair) entry.2 else self.windowOf pair := by
  rw [windowOf, pushed, Dict.get?_set]
  split
  · rename_i same
    rw [← same]
    rfl
  · rfl

/-- The entries of some metrics are judged one by one, each in its own window. -/
theorem foldl_updateFieldIn (sourceId : String) {entries : List (String × ℚ)} (distinct : (entries.map Prod.fst).Nodup)
    (self : AnomalyDetector) (events : List (ScoredEvent K)) :
    let after := entries.foldl (updateFieldIn stdev sourceId) (self, events)
    after.1 = { self with windows := after.1.windows } ∧
      (∀ pair, after.1.windowOf pair = match (if sourceId = pair.1 then Assoc.get? entries pair.2 else none) with
        | none => self.windowOf pair
        | some v => Window.push self.window (self.windowOf pair) v) ∧
      after.2 = events ++ entries.filterMap (self.scoredEntry stdev sourceId) := by
  induction entries generalizing self events with
  | nil => exact ⟨rfl, fun pair => by simp [Assoc.get?], (List.append_nil _).symm⟩
  | cons entry entries ih =>
    obtain ⟨fresh, restDistinct⟩ := List.nodup_cons.mp distinct
    obtain ⟨same, windows, found⟩ := ih restDistinct (self.pushed sourceId entry)
      (events ++ (self.scoredEntry stdev sourceId entry).toList)
    rw [List.foldl_cons, updateFieldIn_eq]
    refine ⟨same, fun pair => (windows pair).trans ?_, found.trans ?_⟩
    · rw [windowOf_pushed]
      by_cases own : sourceId = pair.1
      · rw [if_pos own, if_pos own, Assoc.get?]
        by_cases here : entry.1 = pair.2
        · have absent : Assoc.get? entries pair.2 = none := (Assoc.get?_eq_none_iff _ _).mpr (here ▸ fresh)
          rw [absent, if_pos here, if_pos (Prod.ext own here)]
        · have other : (sourceId, entry.1) ≠ pair := fun both => here (congrArg Prod.snd both)
          rw [if_neg here, if_neg other]
          rfl
      · have other : (sourceId, entry.1) ≠ pair := fun both => own (congrArg Prod.fst both)
        rw [if_neg own, if_neg own, if_neg other]
    · have later : entries.filterMap ((self.pushed sourceId entry).scoredEntry stdev sourceId) =
          entries.filterMap (self.scoredEntry stdev sourceId) := by
        refine List.filterMap_congr fun e member => ?_
        have other : (sourceId, entry.1) ≠ (sourceId, e.1) := by
          intro both
          exact fresh (List.mem_map.mpr ⟨e, member, (congrArg Prod.snd both).symm⟩)
        rw [scoredEntry, windowOf_pushed, if_neg other]
        rfl
      rw [later, List.append_assoc, List.filterMap_cons]
      cases self.scoredEntry stdev sourceId entry <;> rfl

theorem pair_of_scoredEntry {stdev : List ℚ → K} {self : AnomalyDetector} {sourceId : String} {entry : String × ℚ}
    {e : ScoredEvent K} (found : self.scoredEntry stdev sourceId entry = some e) :
    (e.sourceId, e.field) = (sourceId, entry.1) := by
  obtain ⟨_, -, rfl⟩ := Option.map_eq_some_iff.mp found
  rfl

/-- Among what some metrics give, that of a pair comes from its own value. -/
theorem filter_scoredEntries (self : AnomalyDetector) (sourceId : String) {entries : List (String × ℚ)}
    (distinct : (entries.map Prod.fst).Nodup) (pair : String × String) :
    (entries.filterMap (self.scoredEntry stdev sourceId)).filter (fun e => (e.sourceId, e.field) = pair) =
      match (if sourceId = pair.1 then Assoc.get? entries pair.2 else none) with
      | none => []
      | some v => (self.scoredEntry stdev sourceId (pair.2, v)).toList := by
  induction entries with
  | nil => simp [Assoc.get?]
  | cons entry entries ih =>
    obtain ⟨fresh, restDistinct⟩ := List.nodup_cons.mp distinct
    have head : ((self.scoredEntry stdev sourceId entry).toList.filter fun e => (e.sourceId, e.field) = pair) =
        if (sourceId, entry.1) = pair then (self.scoredEntry stdev sourceId entry).toList else [] := by
      cases found : self.scoredEntry stdev sourceId entry with
      | none => simp
      | some e =>
        have own := pair_of_scoredEntry found
        split
        · rename_i same
          simp [own, same]
        · rename_i other
          simp [own, other]
    have split : (entry :: entries).filterMap (self.scoredEntry stdev sourceId) =
        (self.scoredEntry stdev sourceId entry).toList ++ entries.filterMap (self.scoredEntry stdev sourceId) := by
      rw [List.filterMap_cons]
      cases self.scoredEntry stdev sourceId entry <;> rfl
    rw [split, List.filter_append, head, ih restDistinct]
    by_cases own : sourceId = pair.1
    · rw [if_pos own, if_pos own, Assoc.get?]
      by_cases here : entry.1 = pair.2
      · have absent : Assoc.get? entries pair.2 = none := (Assoc.get?_eq_none_iff _ _).mpr (here ▸ fresh)
        rw [absent, if_pos here, if_pos (Prod.ext own here), ← here]
        exact List.append_nil _
      · rw [if_neg here, if_neg fun both => here (congrArg Prod.snd both)]
        rfl
    · rw [if_neg own, if_neg own, if_neg fun both => own (congrArg Prod.fst both)]
      rfl

/-- A detector that has seen nothing. -/
def init (warnThreshold criticalThreshold : ℚ) (minSamples window : ℕ) : AnomalyDetector :=
  ⟨warnThreshold, criticalThreshold, minSamples, window, ∅⟩

theorem afterCalls_append_singleton (self : AnomalyDetector) (calls : List DetectorCall) (c : DetectorCall) :
    self.afterCalls stdev (calls ++ [c]) = ((self.afterCalls stdev calls).updateIn stdev c).1 := by
  rw [afterCalls, List.foldl_append]
  rfl

/-- The window of a pair holds the last of its own observations. -/
theorem afterCalls_spec (warnThreshold criticalThreshold : ℚ) (minSamples window : ℕ) (calls : List DetectorCall) :
    let after := (init warnThreshold criticalThreshold minSamples window).afterCalls stdev calls
    after = { init warnThreshold criticalThreshold minSamples window with windows := after.windows } ∧
      ∀ pair, after.windowOf pair = (DetectorCall.observations calls pair).rtake window := by
  induction calls using List.reverseRecOn with
  | nil => exact ⟨rfl, fun pair => (List.rtake_nil _).symm⟩
  | append_singleton calls c ih =>
    obtain ⟨same, windows⟩ := ih
    rw [afterCalls_append_singleton]
    generalize (init warnThreshold criticalThreshold minSamples window).afterCalls stdev calls = before at same windows
    obtain ⟨sameNext, windowsNext, -⟩ := foldl_updateFieldIn stdev c.sourceId c.metrics.distinct before []
    have width : before.window = window := by rw [same]; rfl
    refine ⟨?_, fun pair => (windowsNext pair).trans ?_⟩
    · refine sameNext.trans ?_
      rw [same]
      rfl
    · rw [DetectorCall.observations_append_singleton, windows, width]
      have told : c.observation pair = if c.sourceId = pair.1 then Assoc.get? c.metrics.entries pair.2 else none := rfl
      rw [← told]
      cases c.observation pair with
      | none => simp
      | some v => exact Window.push_rtake window _ v

/-- What a call finds for a pair depends on the last of its own observations. -/
theorem found_eq (warnThreshold criticalThreshold : ℚ) (minSamples window : ℕ) (calls : List DetectorCall)
    (c : DetectorCall) (pair : String × String) :
    let detector := init warnThreshold criticalThreshold minSamples window
    detector.found stdev calls c pair = match c.observation pair with
      | none => []
      | some v => (detector.scored stdev pair.1 ((DetectorCall.observations calls pair ++ [v]).rtake window)
          (pair.2, v)).toList := by
  obtain ⟨same, windows⟩ := afterCalls_spec stdev warnThreshold criticalThreshold minSamples window calls
  dsimp only [found]
  generalize (init warnThreshold criticalThreshold minSamples window).afterCalls stdev calls = before at same windows ⊢
  obtain ⟨-, -, events⟩ := foldl_updateFieldIn stdev c.sourceId c.metrics.distinct before []
  have all : (before.updateIn stdev c).2 = c.metrics.entries.filterMap (before.scoredEntry stdev c.sourceId) := events
  have told : c.observation pair = if c.sourceId = pair.1 then Assoc.get? c.metrics.entries pair.2 else none := rfl
  rw [all, filter_scoredEntries stdev before c.sourceId c.metrics.distinct, ← told]
  cases observed : c.observation pair with
  | none => rfl
  | some v =>
    have own : c.sourceId = pair.1 := by
      by_contra other
      rw [told, if_neg other] at observed
      cases observed
    have width : before.window = window := by rw [same]; rfl
    dsimp only
    rw [scoredEntry, own, windows, width, Window.push_rtake, scored, scored, same]
    rfl

end

end AnomalyDetector

end Centroid
