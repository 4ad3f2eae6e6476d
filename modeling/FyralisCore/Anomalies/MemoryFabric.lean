import Mathlib.Algebra.Order.Field.Rat
import Mathlib.Data.List.Induction
import Mathlib.Data.List.Sort
import FyralisCore.Lib.Reach

/-! The anomaly processor. Signals below the threshold gather in the memory fabric, and a
sweep promotes a region that has enough of them. -/
namespace FyralisCore.Anomalies

open List Option Transition

/-- What is computed with significances in floating point. A number stands for the float that
is written so. -/
class Arithmetic where
  mean : List ℚ → ℚ
  add : ℚ → ℚ → ℚ

/-- Nothing is rounded. -/
@[reducible] def Arithmetic.exact : Arithmetic where
  mean numbers := numbers.sum / numbers.length
  add := (· + ·)

variable {P : Type}

def significanceThreshold : ℚ := 0.4

def escalationDelta : ℚ := 0.2

def promoteCountThreshold : Nat := 5

/-- Seven days, in microseconds. -/
def promoteWindow : Int := 7 * 24 * 60 * 60 * 1000000

structure AnomalyCandidate (P : Type) where
  kind : String
  entityType : String
  entityId : Nat
  tenantId : Nat
  regionEntityIds : List (String × String)
  significance : ℚ
  triggeringObservationIds : List Nat
  payload : P
  trustTiers : List String

/-- What is handed over to Think: the detector's payload, and what a promotion adds to it. -/
structure CandidatePayload (P : Type) where
  payload : P
  memoryFabricPromoted : Bool := false
  accumulatedCount : Option Nat := none
  fabricRowIds : List Nat := []

/-- A row of `signal_memory_fabric`; `signal_ref` is the candidate, which can be read again. -/
structure FabricRow (P : Type) where
  id : Nat
  tenantId : Nat
  regionHash : String
  signalRef : AnomalyCandidate P
  significance : ℚ
  recordedAt : Int
  promotedAt : Option Int

/-- A row of `think_anomalies_raw`; Think's own regions may lack a hash. -/
structure AnomalyRow where
  id : Nat
  tenantId : Nat
  kind : String
  regionHash : Option String
  significance : Option ℚ
  publishedAt : Int

structure T3Trigger (P : Type) where
  id : Nat
  tenantId : Nat
  triggerSubkind : String
  modelId : Option Nat
  anomalySignificance : ℚ
  entityIds : List (String × String)
  triggeringObservationIds : List Nat
  candidatePayload : CandidatePayload P
  escalates : Option Nat

structure FabricDb (P : Type) where
  rows : List (FabricRow P) := []
  anomalies : List AnomalyRow := []
  triggers : List (T3Trigger P) := []

/-- The identifiers that a turn may draw, the clock of the process and that of its transaction. -/
structure Moment where
  rowId : Nat
  triggerId : Nat
  anomalyId : Nat
  clock : Int
  now : Int

/-! ### debounce.py -/

section Definitions

variable [Arithmetic]

section

variable (anomalies : List AnomalyRow) (regionHash : String) (tenantId : Nat) (kind : String)

def mostRecentAnomalyInRegion (within clock : Int) : Option (Nat × ℚ) :=
  ((anomalies.filter fun row => row.tenantId == tenantId && row.kind == kind &&
      row.regionHash == some regionHash && decide (clock - within ≤ row.publishedAt)).insertionSort
    fun first second => second.publishedAt ≤ first.publishedAt).head?.map fun row =>
      (row.id, row.significance.getD 0)

inductive DebounceDecision where
  | publishNew
  | escalate (priorAnomalyId : Nat) (priorSignificance : ℚ)
  | suppress (priorAnomalyId : Nat) (priorSignificance : ℚ)

def decideDebounce (newSignificance : ℚ) (within clock : Int) : DebounceDecision :=
  match mostRecentAnomalyInRegion anomalies regionHash tenantId kind within clock with
  | none => .publishNew
  | some (prior, significance) =>
    if Arithmetic.add significance escalationDelta ≤ newSignificance then .escalate prior significance
    else .suppress prior significance

end

/-! ### memory_fabric.py -/

/-- `none` where the key is taken. -/
def recordSubthresholdSignal (db : FabricDb P) (candidate : AnomalyCandidate P)
    (regionHash : String) (significance : ℚ) (moment : Moment) : Option (FabricDb P) :=
  if db.rows.any (·.id == moment.rowId) then none
  else some { db with rows := db.rows ++ [{
    id := moment.rowId, tenantId := candidate.tenantId, regionHash, signalRef := candidate
    significance, recordedAt := moment.now, promotedAt := none }] }

/-- The rows that the promotion selects and locks, the earliest first. -/
def accumulated (rows : List (FabricRow P)) (tenantId : Nat) (regionHash : String)
    (clock : Int) : List (FabricRow P) :=
  (rows.filter fun row => row.tenantId == tenantId && row.regionHash == regionHash &&
      row.promotedAt.isNone && decide (clock - promoteWindow ≤ row.recordedAt)).insertionSort
    fun first second => first.recordedAt ≤ second.recordedAt

def promotedSignificance (rows : List (FabricRow P)) : ℚ :=
  min 1 (Arithmetic.add (Arithmetic.mean (rows.map (·.significance))) 0.2)

def stamp (ids : List Nat) (now : Int) (row : FabricRow P) : FabricRow P :=
  if row.id ∈ ids then { row with promotedAt := some now } else row

/-- The rows as they are stamped, and the candidate. A `signal_ref` of the table is never garbled. -/
def promoteIfAccumulated (db : FabricDb P) (tenantId : Nat) (regionHash : String)
    (moment : Moment) : Option (FabricDb P × AnomalyCandidate (CandidatePayload P)) :=
  match accumulated db.rows tenantId regionHash moment.clock with
  | [] => none
  | first :: rest =>
    if (first :: rest).length ≤ promoteCountThreshold then none
    else some ({ db with rows := db.rows.map (stamp ((first :: rest).map (·.id)) moment.now) }, {
      kind := first.signalRef.kind
      entityType := first.signalRef.entityType
      entityId := first.signalRef.entityId
      tenantId
      regionEntityIds := first.signalRef.regionEntityIds
      significance := promotedSignificance (first :: rest)
      triggeringObservationIds := (first :: rest).flatMap (·.signalRef.triggeringObservationIds)
      payload := {
        payload := first.signalRef.payload
        memoryFabricPromoted := true
        accumulatedCount := some (first :: rest).length
        fabricRowIds := (first :: rest).map (·.id) }
      trustTiers := (first :: rest).flatMap (·.signalRef.trustTiers) })

/-! ### worker.py -/

def publish (db : FabricDb P) (candidate : AnomalyCandidate (CandidatePayload P))
    (regionHash : String) (significance : ℚ) (escalates : Option Nat) (moment : Moment) :
    FabricDb P :=
  { db with
    triggers := db.triggers ++ [{
      id := moment.triggerId, tenantId := candidate.tenantId, triggerSubkind := candidate.kind
      modelId := if candidate.entityType = "model" then some candidate.entityId else none
      anomalySignificance := significance, entityIds := candidate.regionEntityIds
      triggeringObservationIds := candidate.triggeringObservationIds
      candidatePayload := candidate.payload, escalates }]
    anomalies := db.anomalies ++ [{
      id := moment.anomalyId, tenantId := candidate.tenantId, kind := candidate.kind
      regionHash := some regionHash, significance := some significance
      publishedAt := moment.now }] }

/-- A turn of the loop of `_process_tenant`. The significance is that of `compute_significance`;
`budget` is the answer of the rate limiter. -/
def processCandidate (db : FabricDb P) (within : Int) (candidate : AnomalyCandidate P)
    (regionHash : String) (significance : ℚ) (budget : Bool) (moment : Moment) :
    Option (FabricDb P) :=
  if significance < significanceThreshold then
    recordSubthresholdSignal db candidate regionHash significance moment
  else
    let publishOr escalates :=
      if budget then
        some (publish db { candidate with payload := { payload := candidate.payload } } regionHash
          significance escalates moment)
      else recordSubthresholdSignal db candidate regionHash significance moment
    match decideDebounce db.anomalies regionHash candidate.tenantId candidate.kind significance
      within moment.clock with
    | .suppress _ _ => some db
    | .escalate prior _ => publishOr (some prior)
    | .publishNew => publishOr none

def sweepRegion (db : FabricDb P) (within : Int) (tenantId : Nat) (regionHash : String)
    (moment : Moment) : FabricDb P :=
  match promoteIfAccumulated db tenantId regionHash moment with
  | none => db
  | some (db, candidate) =>
    match decideDebounce db.anomalies regionHash candidate.tenantId candidate.kind
      candidate.significance within moment.clock with
    | .suppress _ _ => db
    | .escalate prior _ => publish db candidate regionHash candidate.significance (some prior) moment
    | .publishNew => publish db candidate regionHash candidate.significance none moment

inductive Turn (P : Type) where
  | process (candidate : AnomalyCandidate P) (significance : ℚ) (budget : Bool) (moment : Moment)
  | sweep (tenantId : Nat) (regionHash : String) (moment : Moment)
  /-- Think publishes an anomaly of its own. -/
  | emit (row : AnomalyRow)

-- The digest of `compute_region_hash`, and the window of the debounce.
variable (regionHashOf : Nat → String → List (String × String) → String) (within : Int)

def FabricDb.step (db : FabricDb P) : Turn P → Option (FabricDb P)
  | .process candidate significance budget moment =>
    processCandidate db within candidate
      (regionHashOf candidate.tenantId candidate.kind candidate.regionEntityIds) significance budget
      moment
  | .sweep tenantId regionHash moment => some (sweepRegion db within tenantId regionHash moment)
  | .emit row => some { db with anomalies := db.anomalies ++ [row] }

/-- The sweep promotes the region while a recent anomaly covers what has accumulated there. -/
def CoveredPromotion (db : FabricDb P) (tenantId : Nat) (regionHash : String)
    (clock : Int) : Prop :=
  ∃ first rest prior significance, accumulated db.rows tenantId regionHash clock = first :: rest ∧
    promoteCountThreshold < (first :: rest).length ∧
    mostRecentAnomalyInRegion db.anomalies regionHash tenantId first.signalRef.kind within clock =
      some (prior, significance) ∧
    promotedSignificance (first :: rest) < Arithmetic.add significance escalationDelta

def listings (triggers : List (T3Trigger P)) (id : Nat) : Nat :=
  triggers.countP fun trigger => id ∈ trigger.candidatePayload.fabricRowIds

/-- Each promoted row is listed by exactly one trigger. -/
def NeverSilent (db : FabricDb P) : Prop :=
  ∀ row ∈ db.rows, row.promotedAt ≠ none → listings db.triggers row.id = 1

def fabricAfter (turns : List (Turn P)) : Option (FabricDb P) :=
  runAll (FabricDb.step regionHashOf within) {} turns

/-- No turn of the run is a promotion that a recent anomaly covers. -/
def NoneCovered (turns : List (Turn P)) : Prop :=
  ∀ before tenantId regionHash moment rest db,
    turns = before ++ .sweep tenantId regionHash moment :: rest →
    fabricAfter regionHashOf within before = some db →
    ¬ CoveredPromotion within db tenantId regionHash moment.clock

end Definitions

variable {regionHashOf : Nat → String → List (String × String) → String} {within : Int}
  {db after : FabricDb P} {ids : List Nat} {fresh : Option (FabricRow P)}
  {triggers : List (T3Trigger P)}

/-- After a turn that promotes the rows `ids`, records `fresh` and enqueues `triggers`. -/
structure Moved (db after : FabricDb P) (ids : List Nat) (fresh : Option (FabricRow P))
    (triggers : List (T3Trigger P)) : Prop where
  stamped : ∃ now, after.rows = db.rows.map (stamp ids now) ++ fresh.toList
  enqueued : after.triggers = db.triggers ++ triggers
  waiting : ∀ id ∈ ids, ∃ row ∈ db.rows, row.id = id ∧ row.promotedAt = none
  recorded : ∀ row ∈ fresh, row.promotedAt = none ∧ ∀ old ∈ db.rows, old.id ≠ row.id
  listed : ∀ trigger ∈ triggers, trigger.candidatePayload.fabricRowIds = ids

theorem moved_of_arrival (hr : after.rows = db.rows ++ fresh.toList)
    (hnw : ∀ row ∈ fresh, row.promotedAt = none ∧ ∀ old ∈ db.rows, old.id ≠ row.id)
    (ht : after.triggers = db.triggers ++ triggers)
    (hn : ∀ trigger ∈ triggers, trigger.candidatePayload.fabricRowIds = []) :
    Moved db after [] fresh triggers where
  stamped := ⟨0, hr.trans (congrArg (· ++ _) (map_id db.rows).symm)⟩
  enqueued := ht
  waiting := by simp
  recorded := hnw
  listed := hn

theorem moved_self (db : FabricDb P) : Moved db db [] none [] :=
  moved_of_arrival (by simp) (by simp) (by simp) (by simp)

theorem moved_recordSubthresholdSignal
    (hs : recordSubthresholdSignal db candidate regionHash significance moment = some after) :
    ∃ fresh, Moved db after [] fresh [] := by
  unfold recordSubthresholdSignal at hs
  split at hs
  · cases hs
  next hf =>
  cases hs
  exact ⟨some _, moved_of_arrival rfl (by simpa using hf) (by simp) (by simp)⟩

/-! ### The rows and the triggers that list them -/

/-- Ids are unique, and a trigger lists promoted rows only. -/
structure Kept (db : FabricDb P) : Prop where
  unique : (db.rows.map (·.id)).Nodup
  listed : ∀ trigger ∈ db.triggers, ∀ id ∈ trigger.candidatePayload.fabricRowIds,
    ∃ row ∈ db.rows, row.id = id ∧ row.promotedAt ≠ none

theorem Kept.listings_eq_zero (hk : Kept db) {row : FabricRow P} (hr : row ∈ db.rows)
    (hu : row.promotedAt = none) : listings db.triggers row.id = 0 := by
  rw [listings, countP_eq_zero]
  intro trigger ht hi
  obtain ⟨other, ho, he, hp⟩ := hk.listed trigger ht _ (of_decide_eq_true hi)
  rw [inj_on_of_nodup_map hk.unique ho hr he] at hp
  exact hp hu

@[simp] theorem stamp_id (now : Int) (row : FabricRow P) : (stamp ids now row).id = row.id := by
  unfold stamp
  split <;> rfl

theorem stamp_promotedAt (now : Int) (row : FabricRow P) :
    (stamp ids now row).promotedAt ≠ none ↔ row.id ∈ ids ∨ row.promotedAt ≠ none := by
  unfold stamp
  split <;> simp [*]

/-- The rows that are promoted afterwards were so before, or are among the new ones. -/
theorem Moved.promoted_iff (hm : Moved db after ids fresh triggers) (id : Nat) :
    (∃ row ∈ after.rows, row.id = id ∧ row.promotedAt ≠ none) ↔
      id ∈ ids ∨ ∃ row ∈ db.rows, row.id = id ∧ row.promotedAt ≠ none := by
  obtain ⟨now, hrw⟩ := hm.stamped
  rw [hrw]
  constructor
  · rintro ⟨row, hr, rfl, hp⟩
    rcases mem_append.mp hr with hr | hr
    · obtain ⟨old, ho, rfl⟩ := mem_map.mp hr
      rw [stamp_id]
      exact ((stamp_promotedAt now old).mp hp).imp_right fun hp => ⟨old, ho, rfl, hp⟩
    · exact absurd (hm.recorded row (mem_toList.mp hr)).1 hp
  · intro hi
    have hold : ∃ row ∈ db.rows, row.id = id ∧ (row.id ∈ ids ∨ row.promotedAt ≠ none) := by
      rcases hi with hi | ⟨row, hr, rfl, hp⟩
      · obtain ⟨row, hr, rfl, -⟩ := hm.waiting id hi
        exact ⟨row, hr, rfl, .inl hi⟩
      · exact ⟨row, hr, rfl, .inr hp⟩
    obtain ⟨row, hr, rfl, hp⟩ := hold
    exact ⟨stamp ids now row, mem_append_left _ (mem_map_of_mem hr), stamp_id now row,
      (stamp_promotedAt now row).mpr hp⟩

theorem Kept.moved (hk : Kept db) (hm : Moved db after ids fresh triggers) : Kept after where
  unique := by
    obtain ⟨now, hrw⟩ := hm.stamped
    rw [hrw, map_append, nodup_append]
    refine ⟨by simpa [Function.comp_def] using hk.unique, by cases fresh <;> simp, ?_⟩
    simp only [List.mem_map, mem_toList]
    rintro _ ⟨_, ⟨old, ho, rfl⟩, rfl⟩ _ ⟨row, hr, rfl⟩
    rw [stamp_id]
    exact (hm.recorded row hr).2 old ho
  listed := by
    intro trigger ht id hi
    rw [hm.promoted_iff]
    rw [hm.enqueued] at ht
    rcases mem_append.mp ht with ht | ht
    · exact .inr (hk.listed trigger ht id hi)
    · exact .inl (hm.listed trigger ht ▸ hi)

theorem Moved.listings_eq (hm : Moved db after ids fresh triggers) (id : Nat) :
    listings after.triggers id = listings db.triggers id + if id ∈ ids then triggers.length else 0 := by
  have hn : listings triggers id = if id ∈ ids then triggers.length else 0 := by
    rw [listings]
    split
    · next hi => exact countP_eq_length.mpr fun trigger ht => by simp [hm.listed trigger ht, hi]
    · next ho => exact countP_eq_zero.mpr fun trigger ht => by simp [hm.listed trigger ht, ho]
  rw [← hn, hm.enqueued]
  exact countP_append

theorem Moved.neverSilent (hm : Moved db after ids fresh triggers) (hk : Kept db)
    (hon : ids = [] ∨ triggers.length = 1) (hn : NeverSilent db) : NeverSilent after := by
  intro row hr hp
  rw [hm.listings_eq]
  rcases (hm.promoted_iff row.id).mp ⟨row, hr, rfl, hp⟩ with hi | ⟨old, ho, he, hp⟩
  · obtain ⟨old, ho, he, hu⟩ := hm.waiting _ hi
    rw [← he, hk.listings_eq_zero ho hu, he, if_pos hi, hon.resolve_left (ne_nil_of_mem hi)]
  · rw [← he, hn old ho hp, if_neg fun hi => ?_]
    obtain ⟨waiting, hw, hs, hu⟩ := hm.waiting _ hi
    rw [inj_on_of_nodup_map hk.unique hw ho hs] at hu
    exact hp hu

theorem Moved.silent (hm : Moved db after ids fresh []) (hk : Kept db) (hn : ids ≠ []) :
    ¬ NeverSilent after := by
  obtain ⟨id, hi⟩ := exists_mem_of_ne_nil _ hn
  obtain ⟨old, ho, rfl, hu⟩ := hm.waiting id hi
  obtain ⟨row, hr, he, hp⟩ := (hm.promoted_iff old.id).mpr (.inl hi)
  intro hns
  have hon := hns row hr hp
  rw [he, hm.listings_eq, hk.listings_eq_zero ho hu] at hon
  simp at hon

/-! ### What a turn does -/

section

variable [Arithmetic]

theorem moved_processCandidate
    (hs : processCandidate db within candidate regionHash significance budget moment =
      some after) : ∃ fresh triggers, Moved db after [] fresh triggers := by
  unfold processCandidate at hs
  split at hs
  · exact (moved_recordSubthresholdSignal hs).imp fun _ h => ⟨_, h⟩
  generalize decideDebounce .. = decision at hs
  cases decision with
  | suppress prior priorSignificance =>
    cases hs
    exact ⟨none, [], moved_self db⟩
  | _ =>
    dsimp only at hs
    split at hs
    · cases hs
      exact ⟨none, [_], moved_of_arrival (by simp [publish]) (by simp) rfl (by simp)⟩
    · exact (moved_recordSubthresholdSignal hs).imp fun _ h => ⟨_, h⟩

/-- A sweep enqueues one trigger for the rows that it promotes, or none for a covered region. -/
theorem moved_sweepRegion (db : FabricDb P) (within tenantId regionHash moment) :
    ∃ ids triggers, Moved db (sweepRegion db within tenantId regionHash moment) ids none triggers ∧
      (CoveredPromotion within db tenantId regionHash moment.clock → ids ≠ [] ∧ triggers = []) ∧
      (¬ CoveredPromotion within db tenantId regionHash moment.clock → ids = [] ∨
        triggers.length = 1) := by
  have hmm : ∀ row ∈ accumulated db.rows tenantId regionHash moment.clock,
      row ∈ db.rows ∧ row.promotedAt = none := by
    intro row hr
    simp only [accumulated, mem_insertionSort, mem_filter, Bool.and_eq_true,
      isNone_iff_eq_none] at hr
    exact ⟨hr.1, hr.2.1.2⟩
  unfold sweepRegion promoteIfAccumulated CoveredPromotion
  rcases hrw : accumulated db.rows tenantId regionHash moment.clock with _ | ⟨first, rest⟩
  · exact ⟨[], [], moved_self db, by simp, by simp⟩
  by_cases hf : (first :: rest).length ≤ promoteCountThreshold
  · simp only [hf, if_true]
    refine ⟨[], [], moved_self db, ?_, by simp⟩
    rintro ⟨_, _, _, _, heq, hmn, -⟩
    cases heq
    omega
  have hm : ∀ {after triggers},
      after.rows = db.rows.map (stamp ((first :: rest).map (·.id)) moment.now) →
      after.triggers = db.triggers ++ triggers →
      (∀ trigger ∈ triggers, trigger.candidatePayload.fabricRowIds = (first :: rest).map (·.id)) →
      Moved db after ((first :: rest).map (·.id)) none triggers := by
    intro after triggers hst he hl
    refine ⟨⟨_, hst.trans (append_nil _).symm⟩, he, ?_, by simp, hl⟩
    intro id hi
    obtain ⟨row, hr, rfl⟩ := mem_map.mp hi
    exact ⟨row, (hmm row (hrw ▸ hr)).1, rfl, (hmm row (hrw ▸ hr)).2⟩
  simp only [hf, if_false, decideDebounce]
  refine ⟨(first :: rest).map (·.id), ?_⟩
  rcases hp : mostRecentAnomalyInRegion db.anomalies regionHash tenantId first.signalRef.kind
    within moment.clock with _ | ⟨prior, significance⟩
  · refine ⟨[_], hm rfl rfl (by simp), ?_, by simp⟩
    rintro ⟨_, _, _, _, heq, -, hs, -⟩
    cases heq
    cases hp.symm.trans hs
  by_cases hle : Arithmetic.add significance escalationDelta ≤ promotedSignificance (first :: rest)
  · simp only [hle, if_true]
    refine ⟨[_], hm rfl rfl (by simp), ?_, by simp⟩
    rintro ⟨_, _, _, _, heq, -, hs, hlt⟩
    cases heq
    cases hp.symm.trans hs
    exact absurd hle (not_le.mpr hlt)
  · simp only [hle, if_false]
    refine ⟨[], hm rfl (append_nil _).symm (by simp), by simp, fun hc => absurd ?_ hc⟩
    exact ⟨first, rest, prior, significance, rfl, not_le.mp hf, hp, not_le.mp hle⟩

/-- A turn promotes some rows, and lists them once unless it is a promotion that is covered. -/
theorem moved_step {turn : Turn P} (hs : db.step regionHashOf within turn = some after) :
    ∃ ids fresh triggers, Moved db after ids fresh triggers ∧
      ((∀ tenantId regionHash moment, turn = .sweep tenantId regionHash moment →
        ¬ CoveredPromotion within db tenantId regionHash moment.clock) →
          ids = [] ∨ triggers.length = 1) := by
  cases turn with
  | process candidate significance budget moment =>
    obtain ⟨fresh, triggers, hm⟩ := moved_processCandidate hs
    exact ⟨[], fresh, triggers, hm, fun _ => .inl rfl⟩
  | emit row =>
    cases hs
    exact ⟨[], none, [], moved_of_arrival (by simp) (by simp) (by simp) (by simp), fun _ => .inl rfl⟩
  | sweep tenantId regionHash moment =>
    cases hs
    obtain ⟨ids, triggers, hm, -, hc⟩ := moved_sweepRegion db within tenantId regionHash moment
    exact ⟨ids, none, triggers, hm, fun hn => hc (hn tenantId regionHash moment rfl)⟩

theorem kept_of_run {turns : List (Turn P)} (hr : fabricAfter regionHashOf within turns = some db) :
    Kept db ∧ (NoneCovered regionHashOf within turns → NeverSilent db) := by
  induction turns using List.reverseRecOn generalizing db with
  | nil =>
    cases hr
    exact ⟨⟨.nil, by simp⟩, by simp [NeverSilent]⟩
  | append_singleton turns turn ih =>
    obtain ⟨before, hb, hs⟩ := runAll_concat.mp hr
    obtain ⟨ids, fresh, triggers, hm, ho⟩ := moved_step hs
    obtain ⟨hk, hns⟩ := ih hb
    refine ⟨hk.moved hm, fun hn => hm.neverSilent hk (ho ?_) (hns ?_)⟩
    · rintro tenantId regionHash moment rfl
      exact hn turns tenantId regionHash moment [] before rfl hb
    · intro first tenantId regionHash moment rest s he
      exact hn first tenantId regionHash moment (rest ++ [turn]) s (by simp [he])

/-- Promoted signals are listed by exactly one trigger throughout a run exactly when no sweep
promotes a region that a recent anomaly covers: such a sweep stamps the rows and drops the
candidate. -/
theorem never_silent_iff (turns : List (Turn P)) :
    (∀ before rest db, turns = before ++ rest → fabricAfter regionHashOf within before = some db →
      NeverSilent db) ↔ NoneCovered regionHashOf within turns := by
  constructor
  · rintro hclaim before tenantId regionHash moment rest db rfl hbefore hcov
    refine absurd (hclaim (before ++ [.sweep tenantId regionHash moment]) rest
      (sweepRegion db within tenantId regionHash moment) (by simp) ?_) ?_
    · rw [fabricAfter, runAll_append, ← fabricAfter, hbefore]
      rfl
    obtain ⟨ids, triggers, hm, hsilent, -⟩ := moved_sweepRegion db within tenantId regionHash moment
    obtain ⟨hne, rfl⟩ := hsilent hcov
    exact hm.silent (kept_of_run hbefore).1 hne
  · rintro hnone before rest db rfl hbefore
    refine (kept_of_run hbefore).2 fun first tenantId regionHash moment later state heq =>
      hnone first tenantId regionHash moment (later ++ rest) state (by simp [heq])

end

def drift (id : Nat) : AnomalyCandidate Unit where
  kind := "commitment_drift"
  entityType := "commitment"
  entityId := 9
  tenantId := 1
  regionEntityIds := [("commitment", "9")]
  significance := 0.25
  triggeringObservationIds := [id]
  payload := ()
  trustTiers := []

def sixAfterAnomaly : List (Turn Unit) :=
  .process (drift 0) 0.875 true ⟨0, 20, 30, 0, 0⟩ ::
    ((List.range 6).map fun n => .process (drift n) 0.25 true ⟨n, 0, 0, n, n⟩) ++
    [.sweep 1 "" ⟨0, 21, 31, 10, 10⟩]

/-- The sweep stamps the six rows, and the anomaly suppresses their trigger; no float of the
run is rounded. -/
theorem swept_silently : ∃ db,
    @fabricAfter _ .exact (fun _ _ _ => "") 1000 sixAfterAnomaly = some db ∧ ¬ NeverSilent db := by
  let arithmetic := Arithmetic.exact
  have hrun : (fabricAfter (fun _ _ _ => "") 1000 sixAfterAnomaly).map (fun db =>
      db.rows.map fun row => (row.promotedAt, listings db.triggers row.id)) =
        some (List.replicate 6 (some 10, 0)) := by decide +kernel
  obtain ⟨db, hdb, hrows⟩ := map_eq_some_iff.mp hrun
  refine ⟨db, hdb, fun hns => ?_⟩
  have hm : (some 10, 0) ∈ db.rows.map fun row => (row.promotedAt, listings db.triggers row.id) := by
    simp [hrows]
  obtain ⟨row, hr, heq⟩ := mem_map.mp hm
  obtain ⟨hp, hzero⟩ := Prod.mk.inj heq
  exact absurd (hzero.symm.trans (hns row hr (by simp [hp]))) (by decide)

end FyralisCore.Anomalies
