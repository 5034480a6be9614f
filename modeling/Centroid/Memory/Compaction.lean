import Centroid.Memory.Rebuild
import Mathlib.Algebra.Order.Group.Multiset
import Mathlib.Tactic.Abel

namespace Centroid

def TierCapacity.Nonnegative (capacity : TierCapacity) : Prop :=
  0 ≤ capacity.active ∧ 0 ≤ capacity.working ∧ 0 ≤ capacity.longTerm

instance (capacity : TierCapacity) : Decidable capacity.Nonnegative := inferInstanceAs (Decidable (_ ∧ _ ∧ _))

/-- How many entries of a tier may stay. -/
def TierCapacity.room (capacity : TierCapacity) : Tier → ℕ
  | .active => capacity.active.toNat
  | .working => capacity.working.toNat
  | .longTerm => capacity.longTerm.toNat
  | .archive => 0

theorem sliceTo_of_nonneg {α : Type} {stop : ℤ} (nonneg : 0 ≤ stop) (items : List α) :
    sliceTo stop items = items.take stop.toNat := by
  rw [sliceTo, if_pos nonneg]

theorem sliceFrom_of_nonneg {α : Type} {start : ℤ} (nonneg : 0 ≤ start) (items : List α) :
    sliceFrom start items = items.drop start.toNat := by
  rw [sliceFrom, if_pos nonneg]

section Decided

variable {α : Type} (docId : α → String) (capacity : TierCapacity) (decided : List (α × TierDecision))

theorem mem_tierBucket {tier : Tier} {pair : α × TierDecision} :
    pair ∈ tierBucket decided tier ↔ pair ∈ decided ∧ pair.2.tier = tier := by
  rw [tierBucket, List.mem_mergeSort, List.mem_filter, decide_eq_true_iff]

theorem tierBucket_perm (tier : Tier) :
    (tierBucket decided tier).Perm (decided.filter fun pair => pair.2.tier = tier) :=
  List.mergeSort_perm _ _

/-- The order of a bucket: the more salient first, and the newer of the equally
salient. -/
def Before (a b : α × TierDecision) : Prop :=
  b.2.salience < a.2.salience ∨ a.2.salience = b.2.salience ∧ a.2.ageHours ≤ b.2.ageHours

instance (a b : α × TierDecision) : Decidable (Before a b) := inferInstanceAs (Decidable (_ ∨ _))

theorem Before.trans {a b c : α × TierDecision} (first : Before a b) (second : Before b c) : Before a c := by
  rcases first with below | ⟨same, older⟩
  · rcases second with next | ⟨next, _⟩
    · exact Or.inl (next.trans below)
    · exact Or.inl (next ▸ below)
  · rcases second with next | ⟨next, oldest⟩
    · exact Or.inl (same ▸ next)
    · exact Or.inr ⟨same.trans next, older.trans oldest⟩

theorem Before.total (a b : α × TierDecision) : Before a b ∨ Before b a := by
  rcases lt_trichotomy a.2.salience b.2.salience with below | same | above
  · exact Or.inr (Or.inl below)
  · rcases le_total a.2.ageHours b.2.ageHours with older | newer
    · exact Or.inl (Or.inr ⟨same, older⟩)
    · exact Or.inr (Or.inr ⟨same.symm, newer⟩)
  · exact Or.inl (Or.inl above)

theorem tierBucket_sorted (tier : Tier) : (tierBucket decided tier).Pairwise Before := by
  have transitive : ∀ a b c : α × TierDecision, decide (Before a b) = true → decide (Before b c) = true →
      decide (Before a c) = true :=
    fun a b c first second => decide_eq_true ((of_decide_eq_true first).trans (of_decide_eq_true second))
  have total : ∀ a b : α × TierDecision, (decide (Before a b) || decide (Before b a)) = true := by
    intro a b
    rw [Bool.or_eq_true, decide_eq_true_iff, decide_eq_true_iff]
    exact Before.total a b
  have sorted := List.pairwise_mergeSort transitive total (decided.filter fun pair => pair.2.tier = tier)
  exact sorted.imp fun before => of_decide_eq_true before

/-- The entries that stay in the active tier. -/
def keptActive : List (α × TierDecision) := (tierBucket decided .active).take capacity.active.toNat

/-- What `compact` leaves for the working tier. -/
def workingRoom : ℕ :=
  (capacity.working - countIn docId ((keptActive capacity decided).map Prod.fst) (decided.map Prod.snd) .working).toNat

def keptWorking : List (α × TierDecision) := (tierBucket decided .working).take (workingRoom docId capacity decided)

def longTermRoom : ℕ :=
  (capacity.longTerm - countIn docId ((keptActive capacity decided ++ keptWorking docId capacity decided).map Prod.fst)
    (decided.map Prod.snd) .longTerm).toNat

def kept : List (α × TierDecision) :=
  keptActive capacity decided ++ keptWorking docId capacity decided ++
    (tierBucket decided .longTerm).take (longTermRoom docId capacity decided)

def lost : List (α × TierDecision) :=
  (tierBucket decided .active).drop capacity.active.toNat ++
    (tierBucket decided .working).drop (workingRoom docId capacity decided) ++
    (tierBucket decided .longTerm).drop (longTermRoom docId capacity decided) ++ tierBucket decided .archive

/-- The three branches of `compact` differ in writing only. -/
theorem compactDecided_eq (nonneg : 0 ≤ capacity.active) : compactDecided docId capacity decided =
    ((kept docId capacity decided).map Prod.fst, (lost docId capacity decided).map Prod.fst) := by
  have fills : ∀ (remaining : ℤ) (bucket : List (α × TierDecision)) (retained evicted : List α),
      (if 0 < remaining then
          (retained ++ (sliceTo remaining bucket).map Prod.fst, evicted ++ (sliceFrom remaining bucket).map Prod.fst)
        else (retained, evicted ++ bucket.map Prod.fst)) =
        (retained ++ (bucket.take remaining.toNat).map Prod.fst,
          evicted ++ (bucket.drop remaining.toNat).map Prod.fst) := by
    intro remaining bucket retained evicted
    by_cases positive : 0 < remaining
    · rw [if_pos positive, sliceTo_of_nonneg positive.le, sliceFrom_of_nonneg positive.le]
    · have none : remaining.toNat = 0 := by omega
      rw [if_neg positive, none, List.take_zero, List.drop_zero, List.map_nil, List.append_nil]
  simp only [compactDecided, fills, sliceTo_of_nonneg nonneg, sliceFrom_of_nonneg nonneg, kept, lost, keptActive,
    keptWorking, workingRoom, longTermRoom, List.map_append]

/-- The tier of the last entry with an identifier. -/
def lastTier (id : String) : Option Tier :=
  ((decided.filter fun pair => docId pair.1 = id).getLast?).map fun pair => pair.2.tier

section

variable {decided} {docId} (own : ∀ pair ∈ decided, pair.2.docId = docId pair.1)

include own

theorem countIn_eq (retained : List α) (tier : Tier) : countIn docId retained (decided.map Prod.snd) tier =
    retained.countP fun entry => lastTier docId decided (docId entry) = some tier := by
  have decisionOf : ∀ id, ((Dict.ofList ((decided.map Prod.snd).map fun d => (d.docId, d))).get? id).map TierDecision.tier =
      lastTier docId decided id := by
    intro id
    have same : ((decided.map Prod.snd).map fun d => (d.docId, d)).filter (fun pair => pair.1 = id) =
        (decided.filter fun pair => docId pair.1 = id).map fun pair => (pair.2.docId, pair.2) := by
      rw [List.map_map, List.filter_map]
      refine congrArg (List.map _) (List.filter_congr ?_)
      intro pair member
      simp only [Function.comp_apply, own pair member]
    rw [Dict.get?_ofList, same, List.getLast?_map, lastTier, Option.map_map, Option.map_map]
    rfl
  simp only [countIn, decisionOf]

end

section

variable {decided} {docId} (distinct : (decided.map fun pair => docId pair.1).Nodup)

include distinct

theorem lastTier_of_distinct {pair : α × TierDecision} (member : pair ∈ decided) :
    lastTier docId decided (docId pair.1) = some pair.2.tier := by
  have there : pair ∈ decided.filter fun other => docId other.1 = docId pair.1 :=
    List.mem_filter.mpr ⟨member, decide_eq_true rfl⟩
  have nonempty := List.ne_nil_of_mem there
  have last := List.mem_filter.mp (List.getLast_mem nonempty)
  have same := List.inj_on_of_nodup_map distinct last.1 member (of_decide_eq_true last.2)
  rw [lastTier, List.getLast?_eq_some_getLast nonempty, Option.map_some, same]

end

theorem length_tierBucket (tier : Tier) :
    (tierBucket decided tier).length = decided.countP fun pair => pair.2.tier = tier := by
  rw [(tierBucket_perm decided tier).length_eq, List.countP_eq_length_filter]

theorem countP_take_tierBucket (tier other : Tier) (count : ℕ) :
    ((tierBucket decided tier).take count).countP (fun pair => pair.2.tier = other) =
      if tier = other then min count (decided.countP fun pair => pair.2.tier = tier) else 0 := by
  by_cases same : tier = other
  · rw [if_pos same, ← length_tierBucket decided tier, ← List.length_take]
    refine List.countP_eq_length.mpr ?_
    intro pair member
    exact decide_eq_true (((mem_tierBucket decided).mp (List.mem_of_mem_take member)).2.trans same)
  · rw [if_neg same]
    refine List.countP_eq_zero.mpr ?_
    intro pair member ofOther
    exact same (((mem_tierBucket decided).mp (List.mem_of_mem_take member)).2.symm.trans (of_decide_eq_true ofOther))

theorem buckets_perm : (tierBucket decided .active ++ tierBucket decided .working ++ tierBucket decided .longTerm ++
    tierBucket decided .archive).Perm decided := by
  refine ((((tierBucket_perm decided .active).append (tierBucket_perm decided .working)).append
    (tierBucket_perm decided .longTerm)).append (tierBucket_perm decided .archive)).trans ?_
  induction decided with
  | nil => exact .nil
  | cons pair rest ih =>
    rw [← Multiset.coe_eq_coe] at ih ⊢
    cases tier : pair.2.tier <;>
      simp [tier, ← Multiset.coe_add, ← Multiset.cons_coe] at ih ⊢ <;> exact ih

/-- Nothing is lost or doubled, whatever the identifiers. -/
theorem kept_lost_perm : (kept docId capacity decided ++ lost docId capacity decided).Perm decided := by
  refine List.Perm.trans ?_ (buckets_perm decided)
  rw [← List.take_append_drop capacity.active.toNat (tierBucket decided .active),
    ← List.take_append_drop (workingRoom docId capacity decided) (tierBucket decided .working),
    ← List.take_append_drop (longTermRoom docId capacity decided) (tierBucket decided .longTerm)]
  rw [← Multiset.coe_eq_coe]
  simp only [kept, lost, keptActive, keptWorking, ← Multiset.coe_add]
  abel

theorem keptActive_tier {pair : α × TierDecision} (member : pair ∈ keptActive capacity decided) :
    pair ∈ decided ∧ pair.2.tier = .active :=
  (mem_tierBucket decided).mp (List.mem_of_mem_take member)

theorem keptWorking_tier {pair : α × TierDecision} (member : pair ∈ keptWorking docId capacity decided) :
    pair ∈ decided ∧ pair.2.tier = .working :=
  (mem_tierBucket decided).mp (List.mem_of_mem_take member)

theorem mem_parts (part : Tier → List (α × TierDecision)) (ofTier : ∀ tier, ∀ pair ∈ part tier, pair.2.tier = tier)
    (pair : α × TierDecision) :
    pair ∈ part .active ++ part .working ++ part .longTerm ++ part .archive ↔ pair ∈ part pair.2.tier := by
  simp only [List.mem_append]
  constructor
  · rintro (((member | member) | member) | member) <;> rwa [ofTier _ pair member]
  · intro member
    cases tier : pair.2.tier <;> simp only [tier] at member <;> simp only [member, true_or, or_true]

section

variable {decided} {docId} (own : ∀ pair ∈ decided, pair.2.docId = docId pair.1)
  (distinct : (decided.map fun pair => docId pair.1).Nodup)

include own distinct

/-- With distinct identifiers no entry of another tier is counted. -/
theorem countIn_other {pairs : List (α × TierDecision)} {tier : Tier}
    (others : ∀ pair ∈ pairs, pair ∈ decided ∧ pair.2.tier ≠ tier) :
    countIn docId (pairs.map Prod.fst) (decided.map Prod.snd) tier = 0 := by
  rw [countIn_eq own, List.countP_map]
  refine List.countP_eq_zero.mpr ?_
  intro pair member counted
  obtain ⟨inside, other⟩ := others pair member
  rw [Function.comp_apply, lastTier_of_distinct distinct inside, decide_eq_true_iff] at counted
  exact other (Option.some.inj counted)

theorem workingRoom_of_distinct : workingRoom docId capacity decided = capacity.room .working := by
  have none : countIn docId ((keptActive capacity decided).map Prod.fst) (decided.map Prod.snd) .working = 0 := by
    refine countIn_other own distinct ?_
    intro pair member
    obtain ⟨inside, active⟩ := keptActive_tier capacity decided member
    exact ⟨inside, by rw [active]; exact Tier.noConfusion⟩
  rw [workingRoom, none, TierCapacity.room, Nat.cast_zero, sub_zero]

theorem longTermRoom_of_distinct : longTermRoom docId capacity decided = capacity.room .longTerm := by
  have none : countIn docId ((keptActive capacity decided ++ keptWorking docId capacity decided).map Prod.fst)
      (decided.map Prod.snd) .longTerm = 0 := by
    refine countIn_other own distinct ?_
    intro pair member
    rcases List.mem_append.mp member with first | second
    · obtain ⟨inside, active⟩ := keptActive_tier capacity decided first
      exact ⟨inside, by rw [active]; exact Tier.noConfusion⟩
    · obtain ⟨inside, working⟩ := keptWorking_tier docId capacity decided second
      exact ⟨inside, by rw [working]; exact Tier.noConfusion⟩
  rw [longTermRoom, none, TierCapacity.room, Nat.cast_zero, sub_zero]

/-- Each tier keeps the head of its bucket, as long as its own capacity. -/
theorem kept_of_distinct : kept docId capacity decided =
    (tierBucket decided .active).take (capacity.room .active) ++
      (tierBucket decided .working).take (capacity.room .working) ++
      (tierBucket decided .longTerm).take (capacity.room .longTerm) := by
  rw [kept, keptWorking, workingRoom_of_distinct capacity own distinct, longTermRoom_of_distinct capacity own distinct]
  rfl

theorem lost_of_distinct : lost docId capacity decided =
    (tierBucket decided .active).drop (capacity.room .active) ++
      (tierBucket decided .working).drop (capacity.room .working) ++
      (tierBucket decided .longTerm).drop (capacity.room .longTerm) ++ tierBucket decided .archive := by
  rw [lost, workingRoom_of_distinct capacity own distinct, longTermRoom_of_distinct capacity own distinct]
  rfl

theorem countP_kept (tier : Tier) : (kept docId capacity decided).countP (fun pair => pair.2.tier = tier) =
    min (capacity.room tier) (decided.countP fun pair => pair.2.tier = tier) := by
  rw [kept_of_distinct capacity own distinct]
  simp only [List.countP_append, countP_take_tierBucket]
  cases tier with
  | archive => simp [TierCapacity.room]
  | _ => simp

theorem mem_kept {pair : α × TierDecision} : pair ∈ kept docId capacity decided ↔
    pair ∈ (tierBucket decided pair.2.tier).take (capacity.room pair.2.tier) := by
  have parts := mem_parts (fun tier => (tierBucket decided tier).take (capacity.room tier))
    (fun tier other member => ((mem_tierBucket decided).mp (List.mem_of_mem_take member)).2) pair
  rw [kept_of_distinct capacity own distinct, ← parts]
  simp [TierCapacity.room]

theorem mem_lost {pair : α × TierDecision} : pair ∈ lost docId capacity decided ↔
    pair ∈ (tierBucket decided pair.2.tier).drop (capacity.room pair.2.tier) := by
  have parts := mem_parts (fun tier => (tierBucket decided tier).drop (capacity.room tier))
    (fun tier other member => ((mem_tierBucket decided).mp (List.mem_of_mem_drop member)).2) pair
  rw [lost_of_distinct capacity own distinct, ← parts]
  simp [TierCapacity.room]

/-- What a tier keeps comes before what it gives up. -/
theorem kept_before_lost {stays goes : α × TierDecision} (isKept : stays ∈ kept docId capacity decided)
    (isLost : goes ∈ lost docId capacity decided) (same : stays.2.tier = goes.2.tier) : Before stays goes := by
  have first := (mem_kept capacity own distinct).mp isKept
  have second := (mem_lost capacity own distinct).mp isLost
  rw [← same] at second
  have sorted := tierBucket_sorted decided stays.2.tier
  rw [← List.take_append_drop (capacity.room stays.2.tier) (tierBucket decided stays.2.tier), List.pairwise_append]
    at sorted
  exact sorted.2.2 stays first goes second

end

theorem drop_tierBucket {tier : Tier} (kept : tier ≠ .archive) (count : ℕ) :
    (∀ pair ∈ (tierBucket decided tier).drop count, pair.2.tier = .archive) ↔
      (tierBucket decided tier).length ≤ count := by
  rw [← List.drop_eq_nil_iff, List.eq_nil_iff_forall_not_mem]
  constructor
  · intro archived pair member
    exact kept (((mem_tierBucket decided).mp (List.mem_of_mem_drop member)).2.symm.trans (archived pair member))
  · intro none pair member
    exact absurd member (none pair)

theorem lost_archive_iff : (∀ pair ∈ lost docId capacity decided, pair.2.tier = .archive) ↔
    (tierBucket decided .active).length ≤ capacity.active.toNat ∧
      (tierBucket decided .working).length ≤ workingRoom docId capacity decided ∧
      (tierBucket decided .longTerm).length ≤ longTermRoom docId capacity decided := by
  have archived : ∀ pair ∈ tierBucket decided .archive, pair.2.tier = .archive :=
    fun pair member => ((mem_tierBucket decided).mp member).2
  simp only [lost, List.forall_mem_append]
  rw [drop_tierBucket decided Tier.noConfusion, drop_tierBucket decided Tier.noConfusion,
    drop_tierBucket decided Tier.noConfusion, and_iff_left archived, and_assoc]

/-- The entries of one tier that a later entry with their identifier puts into
another. -/
def borrowed (tier counted : Tier) : ℕ :=
  decided.countP fun pair => pair.2.tier = tier ∧ lastTier docId decided (docId pair.1) = some counted

section

variable {decided} {docId} (own : ∀ pair ∈ decided, pair.2.docId = docId pair.1)

include own

theorem countIn_bucket (tier counted : Tier) :
    countIn docId ((tierBucket decided tier).map Prod.fst) (decided.map Prod.snd) counted =
      borrowed docId decided tier counted := by
  rw [countIn_eq own, List.countP_map, (tierBucket_perm decided tier).countP_eq, List.countP_filter, borrowed]
  refine List.countP_congr ?_
  intro pair _
  simp [and_comm]

theorem workingRoom_of_fits (fits : (tierBucket decided .active).length ≤ capacity.active.toNat) :
    workingRoom docId capacity decided = (capacity.working - borrowed docId decided .active .working).toNat := by
  rw [workingRoom, keptActive, List.take_of_length_le fits, countIn_bucket own]

theorem longTermRoom_of_fits (active : (tierBucket decided .active).length ≤ capacity.active.toNat)
    (working : (tierBucket decided .working).length ≤ workingRoom docId capacity decided) :
    longTermRoom docId capacity decided = (capacity.longTerm -
      (borrowed docId decided .active .longTerm + borrowed docId decided .working .longTerm : ℕ)).toNat := by
  have parts : ∀ first second : List α, countIn docId (first ++ second) (decided.map Prod.snd) .longTerm =
      countIn docId first (decided.map Prod.snd) .longTerm + countIn docId second (decided.map Prod.snd) .longTerm := by
    intro first second
    exact List.countP_append
  rw [longTermRoom, keptActive, keptWorking, List.take_of_length_le active, List.take_of_length_le working,
    List.map_append, parts, countIn_bucket own, countIn_bucket own]

end

/-- Every entry that is not for the archive fits its own tier, beside those
that are counted there for their identifier. -/
def EachFits : Prop :=
  let size := fun tier => decided.countP fun pair => pair.2.tier = tier
  (size .active : ℤ) ≤ capacity.active ∧
    (size .working = 0 ∨ (size .working + borrowed docId decided .active .working : ℤ) ≤ capacity.working) ∧
    (size .longTerm = 0 ∨ (size .longTerm + borrowed docId decided .active .longTerm +
      borrowed docId decided .working .longTerm : ℤ) ≤ capacity.longTerm)

instance : Decidable (EachFits docId capacity decided) := inferInstanceAs (Decidable (_ ∧ (_ ∨ _) ∧ (_ ∨ _)))

variable {decided} {docId} in
theorem lost_archive_iff_eachFits (own : ∀ pair ∈ decided, pair.2.docId = docId pair.1) (nonneg : 0 ≤ capacity.active) :
    (∀ pair ∈ lost docId capacity decided, pair.2.tier = .archive) ↔ EachFits docId capacity decided := by
  rw [lost_archive_iff, EachFits]
  dsimp only
  have activeSize := length_tierBucket decided .active
  have workingSize := length_tierBucket decided .working
  have longTermSize := length_tierBucket decided .longTerm
  constructor
  · rintro ⟨active, working, longTerm⟩
    rw [longTermRoom_of_fits capacity own active working] at longTerm
    rw [workingRoom_of_fits capacity own active] at working
    refine ⟨by omega, by omega, by omega⟩
  · rintro ⟨active, working, longTerm⟩
    have activeFits : (tierBucket decided .active).length ≤ capacity.active.toNat := by omega
    have workingFits : (tierBucket decided .working).length ≤ workingRoom docId capacity decided := by
      rw [workingRoom_of_fits capacity own activeFits]
      omega
    refine ⟨activeFits, workingFits, ?_⟩
    rw [longTermRoom_of_fits capacity own activeFits workingFits]
    omega

end Decided

namespace MemoryPyramid

variable (tools : TextTools) (now : ℚ) (self : MemoryPyramid) (entries : List IndexEntry)

/-- The entries with the decisions made for them. -/
def decided : List (IndexEntry × TierDecision) := entries.map fun entry => (entry, classifyOne tools self.weights now entry)

theorem decided_own : ∀ pair ∈ self.decided tools now entries, pair.2.docId = pair.1.docId := by
  intro pair member
  obtain ⟨entry, _, rfl⟩ := List.mem_map.mp member
  rfl

theorem compact_eq (nonneg : 0 ≤ self.capacity.active) : self.compact tools now entries =
    ((kept IndexEntry.docId self.capacity (self.decided tools now entries)).map Prod.fst,
      (lost IndexEntry.docId self.capacity (self.decided tools now entries)).map Prod.fst) := by
  rw [compact, classifyAll, ← List.map_prod_left_eq_zip]
  exact compactDecided_eq _ _ _ nonneg

variable {tools now self entries}

theorem decision_of_mem {pair : IndexEntry × TierDecision} (member : pair ∈ self.decided tools now entries) :
    pair.2 = classifyOne tools self.weights now pair.1 := by
  obtain ⟨entry, _, rfl⟩ := List.mem_map.mp member
  rfl

theorem mem_decided_of_kept {pair : IndexEntry × TierDecision}
    (member : pair ∈ kept IndexEntry.docId self.capacity (self.decided tools now entries)) :
    pair ∈ self.decided tools now entries :=
  (kept_lost_perm _ _ _).mem_iff.mp (List.mem_append_left _ member)

theorem mem_decided_of_lost {pair : IndexEntry × TierDecision}
    (member : pair ∈ lost IndexEntry.docId self.capacity (self.decided tools now entries)) :
    pair ∈ self.decided tools now entries :=
  (kept_lost_perm _ _ _).mem_iff.mp (List.mem_append_right _ member)

/-- A property of the entries and their decisions, seen on the entries. -/
theorem forall_mem_firsts {pairs : List (IndexEntry × TierDecision)} (holds : IndexEntry → TierDecision → Prop)
    (inside : ∀ pair ∈ pairs, pair ∈ self.decided tools now entries) :
    (∀ entry ∈ pairs.map Prod.fst, holds entry (classifyOne tools self.weights now entry)) ↔
      ∀ pair ∈ pairs, holds pair.1 pair.2 := by
  rw [List.forall_mem_map]
  refine forall_congr' fun pair => forall_congr' fun member => ?_
  rw [decision_of_mem (inside pair member)]

theorem countP_decided (tier : Tier) : (self.decided tools now entries).countP (fun pair => pair.2.tier = tier) =
    entries.countP fun entry => (classifyOne tools self.weights now entry).tier = tier := by
  rw [decided, List.countP_map]
  rfl

/-- The compaction of entries with distinct identifiers and a capacity that is
not negative keeps of each tier the best as far as they fit, and loses nothing. -/
theorem compact_keeps_best (nonneg : self.capacity.Nonnegative) (distinct : (entries.map IndexEntry.docId).Nodup) :
    let retained := (self.compact tools now entries).1
    let evicted := (self.compact tools now entries).2
    let decision := classifyOne tools self.weights now
    (retained ++ evicted).Perm entries ∧ (∀ entry ∈ retained, entry ∉ evicted) ∧
      (∀ tier, tier ≠ .archive → retained.countP (fun entry => (decision entry).tier = tier) =
        min (self.capacity.room tier) (entries.countP fun entry => (decision entry).tier = tier)) ∧
      (∀ stays ∈ retained, ∀ goes ∈ evicted, (decision stays).tier = (decision goes).tier →
        ¬ (decision stays).salience < (decision goes).salience ∧
          ¬ ((decision goes).salience = (decision stays).salience ∧ (decision goes).ageHours < (decision stays).ageHours)) ∧
      ∀ entry ∈ entries, (decision entry).tier = .archive → entry ∈ evicted ∧ entry ∉ retained := by
  intro retained evicted decision
  have own := decided_own tools now self entries
  have distinctPairs : ((self.decided tools now entries).map fun pair => pair.1.docId).Nodup := by
    rw [decided, List.map_map]
    exact distinct
  have isRetained : retained = (kept IndexEntry.docId self.capacity (self.decided tools now entries)).map Prod.fst :=
    congrArg Prod.fst (compact_eq tools now self entries nonneg.1)
  have isEvicted : evicted = (lost IndexEntry.docId self.capacity (self.decided tools now entries)).map Prod.fst :=
    congrArg Prod.snd (compact_eq tools now self entries nonneg.1)
  have perm : (retained ++ evicted).Perm entries := by
    have firsts : (self.decided tools now entries).map Prod.fst = entries := by
      rw [decided, List.map_map]
      exact List.map_id _
    have pairs := (kept_lost_perm IndexEntry.docId self.capacity (self.decided tools now entries)).map Prod.fst
    rwa [List.map_append, firsts, ← isRetained, ← isEvicted] at pairs
  have apart : ∀ entry ∈ retained, entry ∉ evicted := by
    have nodup := perm.nodup_iff.mpr distinct.of_map
    intro entry isIn isOut
    exact (List.nodup_append.mp nodup).2.2 entry isIn entry isOut rfl
  have counts : ∀ tier, retained.countP (fun entry => (decision entry).tier = tier) =
      min (self.capacity.room tier) (entries.countP fun entry => (decision entry).tier = tier) := by
    intro tier
    have counted := countP_kept self.capacity own distinctPairs tier
    rw [countP_decided] at counted
    rw [← counted, isRetained, List.countP_map]
    refine List.countP_congr ?_
    intro pair member
    rw [Function.comp_apply, decision_of_mem (mem_decided_of_kept member)]
  refine ⟨perm, apart, fun tier _ => counts tier, ?_, ?_⟩
  · rw [isRetained, isEvicted, List.forall_mem_map]
    intro stays isKept
    rw [List.forall_mem_map]
    intro goes isLost same
    have first := decision_of_mem (mem_decided_of_kept isKept)
    have second := decision_of_mem (mem_decided_of_lost isLost)
    simp only [decision, ← first, ← second] at same ⊢
    rcases kept_before_lost self.capacity own distinctPairs isKept isLost same with above | ⟨equal, newer⟩
    · exact ⟨above.not_gt, fun both => above.ne both.1⟩
    · exact ⟨equal.not_lt, fun both => newer.not_gt both.2⟩
  · intro entry member archived
    have outside : entry ∉ retained := by
      intro isIn
      have positive : 0 < retained.countP fun entry => (decision entry).tier = .archive :=
        List.countP_pos_iff.mpr ⟨entry, isIn, decide_eq_true archived⟩
      rw [counts .archive, TierCapacity.room, Nat.zero_min] at positive
      exact Nat.lt_irrefl 0 positive
    exact ⟨(List.mem_append.mp (perm.mem_iff.mpr member)).resolve_left outside, outside⟩

/-- What the description of `compact` promises: where the entries that are not
for the archive fit the capacities together, these alone are evicted; no active
entry goes while a less salient one of another tier stays. -/
def EvictsArchiveOnly (tools : TextTools) (now : ℚ) (self : MemoryPyramid) (entries : List IndexEntry) : Prop :=
  let retained := (self.compact tools now entries).1
  let evicted := (self.compact tools now entries).2
  let decision := classifyOne tools self.weights now
  (entries.countP (fun entry => (decision entry).tier ≠ .archive) : ℤ) ≤
      self.capacity.active + self.capacity.working + self.capacity.longTerm →
    (∀ goes ∈ evicted, (decision goes).tier = .archive) ∧
      ∀ goes ∈ evicted, (decision goes).tier = .active → ∀ stays ∈ retained,
        (decision stays).tier = .working ∨ (decision stays).tier = .longTerm →
          ¬ (decision stays).salience < (decision goes).salience

theorem evicted_archive_iff (nonneg : 0 ≤ self.capacity.active) :
    (∀ goes ∈ (self.compact tools now entries).2, (classifyOne tools self.weights now goes).tier = .archive) ↔
      EachFits IndexEntry.docId self.capacity (self.decided tools now entries) := by
  rw [compact_eq tools now self entries nonneg, ← lost_archive_iff_eachFits self.capacity
    (decided_own tools now self entries) nonneg]
  exact forall_mem_firsts (fun _ decision => decision.tier = .archive) fun pair => mem_decided_of_lost

/-- The promise holds exactly where there are too many entries for it or each
tier has room for its own. -/
theorem evictsArchiveOnly_iff (nonneg : self.capacity.Nonnegative) : self.EvictsArchiveOnly tools now entries ↔
    self.capacity.active + self.capacity.working + self.capacity.longTerm <
        entries.countP (fun entry => (classifyOne tools self.weights now entry).tier ≠ .archive) ∨
      EachFits IndexEntry.docId self.capacity (self.decided tools now entries) := by
  have evicted := @evicted_archive_iff tools now self entries nonneg.1
  constructor
  · intro promised
    refine or_iff_not_imp_left.mpr fun room => evicted.mp (promised (not_lt.mp room)).1
  · rintro (tooMany | fits) room
    · exact absurd room (not_le.mpr tooMany)
    · refine ⟨evicted.mpr fits, ?_⟩
      intro goes isOut active
      have archived := evicted.mpr fits goes isOut
      rw [active] at archived
      cases archived

/-- With distinct identifiers it is an overfull tier that breaks the promise. -/
theorem eachFits_of_distinct (nonneg : 0 ≤ self.capacity.active) (distinct : (entries.map IndexEntry.docId).Nodup) :
    EachFits IndexEntry.docId self.capacity (self.decided tools now entries) ↔
      ∀ tier, tier ≠ .archive → (entries.countP fun entry => (classifyOne tools self.weights now entry).tier = tier) ≤
        self.capacity.room tier := by
  have distinctPairs : ((self.decided tools now entries).map fun pair => pair.1.docId).Nodup := by
    rw [decided, List.map_map]
    exact distinct
  have none : ∀ tier counted, tier ≠ counted → borrowed IndexEntry.docId (self.decided tools now entries) tier counted = 0 := by
    intro tier counted other
    refine List.countP_eq_zero.mpr ?_
    intro pair member both
    obtain ⟨ofTier, last⟩ := of_decide_eq_true both
    rw [lastTier_of_distinct distinctPairs member, ofTier] at last
    exact other (Option.some.inj last)
  rw [EachFits, none .active .working Tier.noConfusion, none .active .longTerm Tier.noConfusion,
    none .working .longTerm Tier.noConfusion]
  simp only [countP_decided]
  constructor
  · rintro ⟨active, working, longTerm⟩ tier kept
    cases tier with
    | archive => exact absurd rfl kept
    | _ =>
      rw [TierCapacity.room]
      omega
  · intro fits
    have active := fits .active Tier.noConfusion
    have working := fits .working Tier.noConfusion
    have longTerm := fits .longTerm Tier.noConfusion
    simp only [TierCapacity.room] at active working longTerm
    refine ⟨?_, ?_, ?_⟩ <;> omega

/-- An entry of the active tier. -/
def failure (docId : String) : IndexEntry :=
  ⟨docId, "error: failed", "audit_log", [], ∅, Dict.empty.set "timestamp" "1970-01-01T00:00:00+00:00"⟩

theorem compact_keeps_best_failures :
    let self : MemoryPyramid := ⟨⟨1, 1, 0⟩, defaultWeights⟩
    let entries := [failure "a", failure "b"]
    let result := self.compact MemoryStore.epochTools 0 entries
    (result.1 ++ result.2).Perm entries ∧ ∀ entry ∈ result.1, entry ∉ result.2 := by
  intro self entries result
  have keeps := @compact_keeps_best MemoryStore.epochTools 0 self entries (by decide) (by decide)
  exact ⟨keeps.1, keeps.2.1⟩

theorem evictsArchiveOnly_failures :
    EvictsArchiveOnly MemoryStore.epochTools 0 ⟨{}, defaultWeights⟩ [failure "a", failure "b"] :=
  (evictsArchiveOnly_iff (by decide)).mpr (Or.inr (by decide +kernel))

theorem not_evictsArchiveOnly_failures :
    ¬ EvictsArchiveOnly MemoryStore.epochTools 0 ⟨⟨1, 1, 0⟩, defaultWeights⟩ [failure "a", failure "b"] := by
  intro promised
  have archived := (promised (by decide +kernel)).1
  have fits := ((evicted_archive_iff (by decide)).mp archived).1
  have overfull : ¬ (((decided MemoryStore.epochTools 0 ⟨⟨1, 1, 0⟩, defaultWeights⟩ [failure "a", failure "b"]).countP
      fun pair => pair.2.tier = .active : ℕ) : ℤ) ≤ 1 := by
    decide +kernel
  exact overfull fits

end MemoryPyramid

end Centroid
