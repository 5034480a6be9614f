import Centroid.Daemon.Cycle
import Centroid.Planner.FeedbackRuns

namespace Centroid

namespace ForecastFeedbackLoop

/-- Registrations change what is pending, and nothing else. -/
theorem foldl_register_eq (forecasts : List Forecast) (loop : ForecastFeedbackLoop) :
    forecasts.foldl register loop = { loop with pending := (forecasts.foldl register loop).pending } := by
  induction forecasts generalizing loop with
  | nil => rfl
  | cons f forecasts ih => exact ih (loop.register f)

theorem foldl_register_cycle (forecasts : List Forecast) (loop : ForecastFeedbackLoop) :
    (forecasts.foldl register loop).cycle = loop.cycle := by
  rw [foldl_register_eq]

/-- After some registrations a pending forecast is one of them, or an old one. -/
theorem foldl_register_pending {forecasts : List Forecast} {loop : ForecastFeedbackLoop} {id : String}
    {p : PendingForecast} (found : (forecasts.foldl register loop).pending.get? id = some p) :
    (∃ f ∈ forecasts, f.forecastId = id ∧ p = ⟨f, loop.cycle⟩) ∨ loop.pending.get? id = some p := by
  induction forecasts generalizing loop with
  | nil => exact Or.inr found
  | cons f forecasts ih =>
    rcases ih found with ⟨f', member, own, isPending⟩ | old
    · exact Or.inl ⟨f', List.mem_cons_of_mem _ member, own, isPending⟩
    · rw [register, Dict.get?_set] at old
      split at old
      · rename_i here
        exact Or.inl ⟨f, List.mem_cons_self, here, (Option.some.inj old).symm⟩
      · exact Or.inr old

/-- Of registrations with distinct identifiers each one is pending. -/
theorem foldl_register_get? {forecasts : List Forecast} (loop : ForecastFeedbackLoop)
    (distinct : (forecasts.map Forecast.forecastId).Nodup) {f : Forecast} (member : f ∈ forecasts) :
    (forecasts.foldl register loop).pending.get? f.forecastId = some ⟨f, loop.cycle⟩ := by
  induction forecasts generalizing loop with
  | nil => cases member
  | cons g forecasts ih =>
    rw [List.map_cons, List.nodup_cons] at distinct
    rcases List.mem_cons.mp member with same | later
    · subst same
      have untouched : ∀ (rest : List Forecast) (loop : ForecastFeedbackLoop), f.forecastId ∉ rest.map Forecast.forecastId →
          (rest.foldl register loop).pending.get? f.forecastId = loop.pending.get? f.forecastId := by
        intro rest
        induction rest with
        | nil => exact fun _ _ => rfl
        | cons h rest ih =>
          intro loop absent
          rw [List.map_cons, List.mem_cons, not_or] at absent
          rw [List.foldl_cons, ih _ absent.2]
          exact Dict.get?_set_of_ne _ _ (Ne.symm absent.1)
      rw [List.foldl_cons, untouched forecasts _ distinct.1]
      exact Dict.get?_set_self _ _ _
    · exact ih (loop.register g) distinct.2 later

/-- What a call of `resolve` that returns has done: it has scored the mature
forecasts against the observed values and removed them. -/
theorem resolve_ok {loop loop' : ForecastFeedbackLoop} {faults : WriteFaults} {now : ℚ} {values : Dict String ℚ}
    {disk disk' : Disk ℚ} {results : List FeedbackResult}
    (ok : loop.resolve faults now values disk = (loop', disk', .ok results)) :
    loop'.cycle = loop.cycle + 1 ∧
      (∀ id p, loop'.pending.get? id = some p → loop.pending.get? id = some p ∧ mature (loop.cycle + 1) (id, p) = false) ∧
      (∀ r ∈ results, r.Observed values) ∧
      results.map FeedbackResult.tag =
        (loop.pending.entries.filter (mature (loop.cycle + 1))).flatMap fun e => e.2.forecast.tags e.1 := by
  obtain ⟨_, added, isAdded, observed, _, _, resolved⟩ := resolvePending_spec faults now values (loop.cycle + 1)
    loop.pending.entries ⟨loop.calibration, loop.planTree, disk, 0, 0, [], []⟩
  unfold resolve resolveLoop at ok
  generalize resolvePending faults now (loop.cycle + 1) values loop.pending.entries _ = final at ok isAdded resolved
  obtain ⟨state, _ | e⟩ := final
  · obtain ⟨ids, tags⟩ := resolved rfl
    dsimp only at ok ids isAdded
    rw [List.nil_append] at ids isAdded
    simp only [Prod.mk.injEq, Except.ok.injEq] at ok
    obtain ⟨rfl, rfl, rfl⟩ := ok
    refine ⟨rfl, fun id p found => ?_, isAdded ▸ observed, isAdded ▸ tags⟩
    dsimp only at found
    rw [ids, Dict.get?_foldl_erase] at found
    split at found
    · cases found
    · rename_i kept
      refine ⟨found, ?_⟩
      by_contra isMature
      exact kept (List.mem_map.mpr ⟨(id, p), List.mem_filter.mpr ⟨(loop.pending.mem_entries_iff id p).mpr found,
        by simpa using isMature⟩, rfl⟩)
  · dsimp only at ok
    cases ok

end ForecastFeedbackLoop

namespace CycleRunner

theorem guarded_of_no_error {α : Type} {outcome : Except String α} {record : String → CycleError}
    (quiet : (guarded true outcome record).2 = []) : ∃ value, (guarded true outcome record).1 = some value := by
  cases outcome with
  | ok value => exact ⟨value, rfl⟩
  | error exc => simp [guarded] at quiet

theorem generate_cases (generator : ForecastGenerator) (values : Dict String ℚ) (calibration : Option CalibrationStore)
    (ids : IdSource) (position : ℕ) (now : ℚ) :
    (∃ generator' exc, generate generator values calibration ids position now = (generator', .error exc)) ∨
    ∃ store generator' forecasts, generator.generate values store ids position now = (generator', forecasts) ∧
      generate generator values calibration ids position now = (generator', .ok forecasts) := by
  unfold generate
  split
  · exact Or.inl ⟨_, _, rfl⟩
  · exact Or.inr ⟨_, _, _, rfl, rfl⟩

theorem forecastStep_of_no_error {self : CycleRunner} {generator : ForecastGenerator} {loop : ForecastFeedbackLoop}
    (generates : self.forecastGenerator = some generator) (loops : self.feedbackLoop = some loop) {ids : IdSource}
    {values : Dict String ℚ} {now : ℚ} (quiet : (self.forecastStep ids values now).2.2 = []) :
    ∃ store generator' forecasts, generator.generate values store ids self.drawn now = (generator', forecasts) ∧
      self.forecastStep ids values now =
        ({ self with
            forecastGenerator := some generator'
            feedbackLoop := some (forecasts.foldl ForecastFeedbackLoop.register loop)
            drawn := self.drawn + forecasts.length }, some forecasts, []) := by
  rcases generate_cases generator values self.calibration? ids self.drawn now with ⟨_, exc, failed⟩ |
    ⟨store, generator', forecasts, generated, ok⟩
  · simp only [forecastStep, generates, failed, List.cons_ne_nil] at quiet
  · exact ⟨store, generator', forecasts, generated, by simp only [forecastStep, generates, ok, loops, Option.map_some]⟩

theorem feedbackStep_of_no_error {self : CycleRunner} {loop : ForecastFeedbackLoop} (loops : self.feedbackLoop = some loop)
    {values : Dict String ℚ} {faults : WriteFaults} {now : ℚ} {disk : Disk ℚ}
    (quiet : (self.feedbackStep values faults now disk).2.2.2 = []) :
    ∃ loop' disk' results, loop.resolve faults now values disk = (loop', disk', .ok results) ∧
      self.feedbackStep values faults now disk = ({ self with feedbackLoop := some loop' }, disk', some results, []) := by
  rcases outcome : loop.resolve faults now values disk with ⟨loop', disk', e | results⟩
  · simp only [feedbackStep, loops, outcome, List.cons_ne_nil] at quiet
  · exact ⟨loop', disk', results, rfl, by simp only [feedbackStep, loops, outcome]⟩

/-- A cycle without an error has generated, registered and resolved, all with
the values of its own snapshot. -/
theorem run_of_no_error {self : CycleRunner} (models : self.selfModel = true) {generator : ForecastGenerator}
    (generates : self.forecastGenerator = some generator) {loop : ForecastFeedbackLoop}
    (loops : self.feedbackLoop = some loop) {ids : IdSource} {c : ℕ} {env : CycleEnvironment} {disk : Disk ℚ}
    (quiet : (self.run ids c env disk).2.2.errors = []) :
    ∃ snapshot store generator' forecasts loop' disk' results,
      generator.generate (currentValues (some snapshot)) store ids self.drawn env.startedAt = (generator', forecasts) ∧
      (forecasts.foldl ForecastFeedbackLoop.register loop).resolve env.faults env.startedAt
        (currentValues (some snapshot)) disk = (loop', disk', .ok results) ∧
      (self.run ids c env disk).2.2.selfModelSnapshot = some snapshot ∧
      (self.run ids c env disk).2.2.forecasts = some forecasts ∧
      (self.run ids c env disk).2.2.feedbackResults = some results ∧
      (self.run ids c env disk).1.selfModel = true ∧
      (self.run ids c env disk).1.forecastGenerator = some generator' ∧
      (self.run ids c env disk).1.feedbackLoop = some loop' ∧
      (self.run ids c env disk).1.drawn = self.drawn + forecasts.length := by
  have parts := quiet
  simp only [run, List.append_eq_nil_iff] at parts
  obtain ⟨⟨⟨⟨⟨_, modelQuiet⟩, _⟩, forecastQuiet⟩, feedbackQuiet⟩, _⟩ := parts
  rw [models] at modelQuiet
  obtain ⟨snapshot, isSnapshot⟩ := guarded_of_no_error modelQuiet
  rw [models, isSnapshot] at forecastQuiet feedbackQuiet
  obtain ⟨store, generator', forecasts, generated, isForecast⟩ :=
    forecastStep_of_no_error generates loops forecastQuiet
  rw [isForecast] at feedbackQuiet
  obtain ⟨loop', disk', results, resolved, isFeedback⟩ := feedbackStep_of_no_error rfl feedbackQuiet
  refine ⟨snapshot, store, generator', forecasts, loop', disk', results, generated, resolved, ?_⟩
  simp only [models] at isFeedback
  simp only [run, models, isSnapshot, isForecast, isFeedback, and_self]

section Runs

variable (ids : IdSource) (env : ℕ → CycleEnvironment) (start : CycleRunner × Disk ℚ)

/-- The runner and the files before each of the cycles 0, 1, 2 and so on. -/
def before : ℕ → CycleRunner × Disk ℚ
  | 0 => start
  | c + 1 =>
    let (self, disk, _) := (before c).1.run ids c (env c) (before c).2
    (self, disk)

def resultOf (c : ℕ) : CycleResult := ((before ids env start c).1.run ids c (env c) (before ids env start c).2).2.2

/-- A forecast and the cycle that generated it. -/
def Generated (k : ℕ) (f : Forecast) : Prop := ∃ forecasts, (resultOf ids env start k).forecasts = some forecasts ∧ f ∈ forecasts

/-- Before cycle `c` every pending forecast was generated in an earlier cycle
and is not mature yet, and the identifiers are drawn three in a cycle. -/
structure Timed (fields : List String) (c : ℕ) : Prop where
  models : (before ids env start c).1.selfModel = true
  generates : ∃ generator, (before ids env start c).1.forecastGenerator = some generator ∧ generator.fields = fields
  drawn : (before ids env start c).1.drawn = start.1.drawn + 3 * c
  loops : ∃ loop, (before ids env start c).1.feedbackLoop = some loop ∧ loop.cycle = c ∧
    ∀ id p, loop.pending.get? id = some p → Generated ids env start p.registeredCycle p.forecast ∧
      p.registeredCycle < c ∧ p.forecast.forecastId = id ∧ c < p.registeredCycle + p.forecast.cycleDistance

/-- What a cycle reports when nothing raises. -/
structure Reported (fields : List String) (c : ℕ) : Prop where
  forecasts : ∃ forecasts, (resultOf ids env start c).forecasts = some forecasts ∧
    forecasts.map Forecast.forecastId = (List.range' (start.1.drawn + 3 * c) 3).map ids.draw ∧
    forecasts.map (fun f => (f.horizon, f.cycleDistance)) = horizons ∧
    ∀ f ∈ forecasts, ∀ field, field ∈ f.predictions.keys ↔ field ∈ fields
  results : ∃ results, (resultOf ids env start c).feedbackResults = some results ∧
    (∀ r ∈ results, r.Observed (currentValues (resultOf ids env start c).selfModelSnapshot) ∧
      ∃ k f, k ≤ c ∧ Generated ids env start k f ∧ f.forecastId = r.forecastId ∧ r.field ∈ f.predictions.keys ∧
        c + 1 = k + f.cycleDistance) ∧
    ∀ f, Generated ids env start c f → f.cycleDistance = 1 → ∀ field ∈ f.predictions.keys,
      ∃ r ∈ results, r.forecastId = f.forecastId

variable {ids env start}

theorem generated_iff {c : ℕ} {forecasts : List Forecast} (isForecasts : (resultOf ids env start c).forecasts = some forecasts)
    (f : Forecast) : Generated ids env start c f ↔ f ∈ forecasts := by
  constructor
  · rintro ⟨others, isOthers, member⟩
    have same := Option.some.inj (isForecasts.symm.trans isOthers)
    exact same ▸ member
  · exact fun member => ⟨forecasts, isForecasts, member⟩

theorem one_le_cycleDistance {forecasts : List Forecast}
    (rows : forecasts.map (fun f => (f.horizon, f.cycleDistance)) = horizons) {f : Forecast} (member : f ∈ forecasts) :
    1 ≤ f.cycleDistance := by
  have row : (f.horizon, f.cycleDistance) ∈ horizons := rows ▸ List.mem_map.mpr ⟨f, member, rfl⟩
  simp only [horizons, List.mem_cons, Prod.mk.injEq, List.not_mem_nil, or_false] at row
  omega

/-- One cycle without an error keeps the invariant and scores what matures. -/
theorem Timed.next {fields : List String} {c : ℕ} (timed : Timed ids env start fields c)
    (quiet : (resultOf ids env start c).errors = []) :
    Timed ids env start fields (c + 1) ∧ Reported ids env start fields c := by
  obtain ⟨models, ⟨generator, generates, isFields⟩, drawn, loop, loops, cycle, pending⟩ := timed
  obtain ⟨snapshot, store, generator', forecasts, loop', disk', results, generated, resolved, isSnapshot, isForecasts,
    isResults, models', generates', loops', drawn'⟩ := run_of_no_error models generates loops quiet
  obtain ⟨sameFields, drawnIds, rows, predicted⟩ := ForecastGenerator.generateFrom_spec (currentValues (some snapshot))
    store ids (env c).startedAt horizons (before ids env start c).1.drawn generator
  rw [ForecastGenerator.generate] at generated
  rw [generated, isFields] at sameFields predicted
  rw [generated] at drawnIds rows
  rw [drawn] at drawnIds
  dsimp only at sameFields drawnIds rows predicted
  have distinct : (forecasts.map Forecast.forecastId).Nodup := by
    rw [drawnIds]
    exact List.Nodup.map ids.injective List.nodup_range'
  have three : forecasts.length = 3 := by
    have lengths := congrArg List.length rows
    rwa [List.length_map] at lengths
  obtain ⟨nextCycle, kept, observed, tags⟩ := ForecastFeedbackLoop.resolve_ok resolved
  rw [ForecastFeedbackLoop.foldl_register_cycle, cycle] at nextCycle kept tags
  have here := fun f => generated_iff isForecasts f
  -- before the resolution nothing has matured yet, the new forecasts included
  have early : ∀ id p, (forecasts.foldl ForecastFeedbackLoop.register loop).pending.get? id = some p →
      Generated ids env start p.registeredCycle p.forecast ∧ p.registeredCycle ≤ c ∧ p.forecast.forecastId = id ∧
        c < p.registeredCycle + p.forecast.cycleDistance := by
    intro id p found
    rcases ForecastFeedbackLoop.foldl_register_pending found with ⟨f, member, own, rfl⟩ | old
    · have := one_le_cycleDistance rows member
      dsimp only
      rw [cycle]
      exact ⟨(here f).mpr member, le_rfl, own, by omega⟩
    · obtain ⟨isGenerated, past, own, ahead⟩ := pending id p old
      exact ⟨isGenerated, past.le, own, ahead⟩
  have counted : (before ids env start (c + 1)).1.drawn = start.1.drawn + 3 * (c + 1) := by
    have total : (before ids env start (c + 1)).1.drawn = (before ids env start c).1.drawn + forecasts.length := drawn'
    omega
  refine ⟨⟨models', ⟨generator', generates', sameFields⟩, counted, loop', loops', nextCycle, ?_⟩,
    ⟨forecasts, isForecasts, drawnIds, rows, predicted⟩, results, isResults, ?_, ?_⟩
  · intro id p found
    obtain ⟨old, immature⟩ := kept id p found
    obtain ⟨isGenerated, past, own, _⟩ := early id p old
    simp only [ForecastFeedbackLoop.mature, decide_eq_false_iff_not] at immature
    exact ⟨isGenerated, by omega, own, by omega⟩
  · intro r member
    have seen : (resultOf ids env start c).selfModelSnapshot = some snapshot := isSnapshot
    have tagged : r.tag ∈ results.map FeedbackResult.tag := List.mem_map.mpr ⟨r, member, rfl⟩
    rw [tags] at tagged
    obtain ⟨⟨id, p⟩, entry, inTags⟩ := List.mem_flatMap.mp tagged
    obtain ⟨stored, isMature⟩ := List.mem_filter.mp entry
    obtain ⟨field, inside, tag⟩ := List.mem_map.mp inTags
    have sameField : field = r.field := congrArg (fun t => t.2.2) tag
    obtain ⟨isGenerated, past, own, ahead⟩ := early id p ((Dict.mem_entries_iff _ _ _).mp stored)
    simp only [ForecastFeedbackLoop.mature, decide_eq_true_eq] at isMature
    have sameId : id = r.forecastId := congrArg Prod.fst tag
    exact ⟨seen ▸ observed r member, p.registeredCycle, p.forecast, past, isGenerated, own.trans sameId, sameField ▸ inside,
      by omega⟩
  · intro f isGenerated one field inside
    have stored := ForecastFeedbackLoop.foldl_register_get? loop distinct ((here f).mp isGenerated)
    have isMature : ForecastFeedbackLoop.mature (c + 1) (f.forecastId, ⟨f, loop.cycle⟩) = true := by
      simp only [ForecastFeedbackLoop.mature, decide_eq_true_eq]
      omega
    have tagged : (f.forecastId, f.horizon, field) ∈ results.map FeedbackResult.tag := by
      rw [tags]
      exact List.mem_flatMap.mpr ⟨_, List.mem_filter.mpr ⟨(Dict.mem_entries_iff _ _ _).mpr stored, isMature⟩,
        List.mem_map.mpr ⟨field, inside, rfl⟩⟩
    obtain ⟨r, member, tag⟩ := List.mem_map.mp tagged
    exact ⟨r, member, congrArg Prod.fst tag⟩

/-- The invariant holds along every run in which nothing raises. -/
theorem timed_of_no_error {generator : ForecastGenerator} {calibration : CalibrationStore} {planTree : PlanTree}
    (models : start.1.selfModel = true) (generates : start.1.forecastGenerator = some generator)
    (loops : start.1.feedbackLoop = some (.init calibration planTree)) {n : ℕ}
    (quiet : ∀ c < n, (resultOf ids env start c).errors = []) :
    ∀ c ≤ n, Timed ids env start generator.fields c := by
  intro c
  induction c with
  | zero =>
    intro _
    exact ⟨models, ⟨generator, generates, rfl⟩, rfl, _, loops, rfl, fun id p found => by cases found⟩
  | succ c ih => exact fun bound => ((ih (by omega)).next (quiet c (by omega))).1

/-- An identifier belongs to one forecast of one cycle. -/
theorem Reported.forecast_unique {fields : List String} {k k' : ℕ} {f f' : Forecast}
    (reported : Reported ids env start fields k) (reported' : Reported ids env start fields k')
    (generated : Generated ids env start k f) (generated' : Generated ids env start k' f')
    (same : f.forecastId = f'.forecastId) : k = k' ∧ f = f' := by
  obtain ⟨forecasts, isForecasts, drawn, _, _⟩ := reported.forecasts
  obtain ⟨forecasts', isForecasts', drawn', _, _⟩ := reported'.forecasts
  have member := (generated_iff isForecasts f).mp generated
  have member' := (generated_iff isForecasts' f').mp generated'
  have inRange : f.forecastId ∈ forecasts.map Forecast.forecastId := List.mem_map.mpr ⟨f, member, rfl⟩
  have inRange' : f'.forecastId ∈ forecasts'.map Forecast.forecastId := List.mem_map.mpr ⟨f', member', rfl⟩
  rw [drawn] at inRange
  rw [drawn'] at inRange'
  obtain ⟨i, atI, isI⟩ := List.mem_map.mp inRange
  obtain ⟨j, atJ, isJ⟩ := List.mem_map.mp inRange'
  have equal := ids.injective (isI.trans (same.trans isJ.symm))
  rw [List.mem_range'_1] at atI atJ
  have sameCycle : k = k' := by omega
  subst sameCycle
  have sameForecasts := Option.some.inj (isForecasts.symm.trans isForecasts')
  have distinct : (forecasts.map Forecast.forecastId).Nodup := by
    rw [drawn]
    exact List.Nodup.map ids.injective List.nodup_range'
  exact ⟨rfl, List.inj_on_of_nodup_map distinct member (sameForecasts ▸ member') same⟩

variable (ids env start)

/-- Over `n` cycles, each result of a forecast generated in cycle `k` for a
distance `d` comes in cycle `k + d`, with what is observed in that cycle. -/
def ScoredAhead (n : ℕ) : Prop :=
  ∀ c < n, ∀ results, (resultOf ids env start c).feedbackResults = some results → ∀ r ∈ results,
    ∀ k < n, ∀ f, Generated ids env start k f → f.forecastId = r.forecastId →
      c = k + f.cycleDistance ∧
        r.Observed (currentValues (resultOf ids env start (k + f.cycleDistance)).selfModelSnapshot)

/-- Registration precedes the resolution that counts the cycle, so a forecast
for a distance `d` is scored `d - 1` cycles after the one that generated it,
and the distances are kept only where nothing is ever scored. -/
theorem scoredAhead_iff {generator : ForecastGenerator} {calibration : CalibrationStore} {planTree : PlanTree}
    (models : start.1.selfModel = true) (generates : start.1.forecastGenerator = some generator)
    (loops : start.1.feedbackLoop = some (.init calibration planTree)) {n : ℕ}
    (quiet : ∀ c < n, (resultOf ids env start c).errors = []) :
    (∀ c < n, ∀ results, (resultOf ids env start c).feedbackResults = some results → ∀ r ∈ results,
      ∀ k < n, ∀ f, Generated ids env start k f → f.forecastId = r.forecastId →
        c + 1 = k + f.cycleDistance ∧ r.Observed (currentValues (resultOf ids env start c).selfModelSnapshot)) ∧
    (ScoredAhead ids env start n ↔ generator.fields = [] ∨ n = 0) := by
  have reported : ∀ c < n, Reported ids env start generator.fields c := fun c bound =>
    ((timed_of_no_error models generates loops quiet c bound.le).next (quiet c bound)).2
  have timing : ∀ c < n, ∀ results, (resultOf ids env start c).feedbackResults = some results → ∀ r ∈ results,
      ∀ k < n, ∀ f, Generated ids env start k f → f.forecastId = r.forecastId →
        c + 1 = k + f.cycleDistance ∧ r.Observed (currentValues (resultOf ids env start c).selfModelSnapshot) := by
    intro c bound results isResults r member k bound' f generated own
    obtain ⟨results', isResults', each, _⟩ := (reported c bound).results
    rw [← Option.some.inj (isResults.symm.trans isResults')] at each
    obtain ⟨observed, k', f', past, generated', own', _, ahead⟩ := each r member
    obtain ⟨rfl, rfl⟩ := (reported k bound').forecast_unique (reported k' (by omega)) generated generated'
      (own.trans own'.symm)
    exact ⟨ahead, observed⟩
  refine ⟨timing, ?_, ?_⟩
  · intro promised
    by_contra neither
    rw [not_or] at neither
    obtain ⟨someField, someCycle⟩ := neither
    obtain ⟨field, inside⟩ := List.exists_mem_of_ne_nil _ someField
    have bound : 0 < n := by omega
    obtain ⟨forecasts, isForecasts, _, rows, predicted⟩ := (reported 0 bound).forecasts
    have first : (Horizon.short, 1) ∈ forecasts.map fun f => (f.horizon, f.cycleDistance) := by
      rw [rows]
      exact List.mem_cons_self
    obtain ⟨f, member, row⟩ := List.mem_map.mp first
    have one : f.cycleDistance = 1 := congrArg Prod.snd row
    obtain ⟨results, isResults, _, scored⟩ := (reported 0 bound).results
    obtain ⟨r, isScored, own⟩ := scored f ⟨forecasts, isForecasts, member⟩ one field ((predicted f member field).mpr inside)
    have late := (promised 0 bound results isResults r isScored 0 bound f ⟨forecasts, isForecasts, member⟩ own.symm).1
    omega
  · intro nothing c bound results isResults r member k bound' f generated own
    rcases nothing with noField | noCycle
    · obtain ⟨results', isResults', each, _⟩ := (reported c bound).results
      rw [← Option.some.inj (isResults.symm.trans isResults')] at each
      obtain ⟨_, k', f', past, ⟨forecasts, isForecasts, inside⟩, _, predictedField, _⟩ := each r member
      obtain ⟨forecasts', isForecasts', _, _, predicted⟩ := (reported k' (by omega)).forecasts
      rw [← Option.some.inj (isForecasts.symm.trans isForecasts')] at predicted
      have configured := (predicted f' inside r.field).mp predictedField
      rw [noField] at configured
      cases configured
    · omega

end Runs

/-- Identifiers of growing length. -/
def unaryIds : IdSource where
  draw n := String.ofList (List.replicate n 'f')
  injective := by
    intro m n same
    have lengths := congrArg List.length (String.ofList_injective same)
    rwa [List.length_replicate, List.length_replicate] at lengths

/-- One source, whose health in cycle `c` is one over `c + 2`. -/
def loadEnvironment (c : ℕ) : CycleEnvironment where
  startedAt := c
  completedAt := c
  sensoryScan := .ok ()
  selfModelTick := .ok ⟨c, Dict.empty.set "load" (1 / (c + 2)), ∅, 1 / (c + 2), 0, none⟩
  coherenceTick := .error "not configured"
  memoryAppend := .ok ()
  faults := .none

/-- A daemon that forecasts the load. -/
def loadRunner : CycleRunner where
  memoryStore := none
  selfModel := true
  coherenceGraph := false
  forecastGenerator := some (.init ["load"] (3 / 10))
  feedbackLoop := some (.init ⟨"state/calibration.json", ∅⟩ ⟨1 / 5, "state/plan_tree.json", ∅, PlanTree.keyed_empty⟩)
  sensoryPipeline := false
  calibrationStore := .ofLoop
  drawn := 0

theorem scoredAhead_iff_load :
    ScoredAhead unaryIds loadEnvironment (loadRunner, fun _ => .missing) 1 ↔ ["load"] = [] ∨ 1 = 0 :=
  (scoredAhead_iff unaryIds loadEnvironment (loadRunner, fun _ => .missing) rfl rfl rfl fun c bound => by
    have first : c = 0 := by omega
    subst first
    rfl).2

/-- The short forecast of cycle 0 is scored in cycle 0, against the load that
it was generated from. -/
theorem short_forecast_scored_at_once :
    ∃ results r f, (resultOf unaryIds loadEnvironment (loadRunner, fun _ => .missing) 0).feedbackResults = some results ∧
      r ∈ results ∧ Generated unaryIds loadEnvironment (loadRunner, fun _ => .missing) 0 f ∧
      f.forecastId = r.forecastId ∧ f.cycleDistance = 1 ∧ r.actual = 1 / 2 ∧
      ¬ ScoredAhead unaryIds loadEnvironment (loadRunner, fun _ => .missing) 1 := by
  refine ⟨_, _, _, rfl, List.mem_cons_self, ⟨_, rfl, List.mem_cons_self⟩, rfl, rfl, by decide +kernel, ?_⟩
  intro promised
  have late := (promised 0 Nat.one_pos _ rfl _ List.mem_cons_self 0 Nat.one_pos _ ⟨_, rfl, List.mem_cons_self⟩ rfl).1
  exact absurd late (by decide)

end CycleRunner

end Centroid
