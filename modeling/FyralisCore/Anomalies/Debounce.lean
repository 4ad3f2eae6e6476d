import Mathlib.Data.List.Chain
import FyralisCore.Anomalies.MemoryFabric

/-! What the debounce lets through, with exact significances. The cutoff of its SELECT is taken
from the clock of the process, while a row is stamped with the time at which its transaction
began. -/
namespace FyralisCore.Anomalies

open List Option Transition

local instance : Arithmetic := .exact

variable {P : Type}

/-- A candidate, its significance, the answer of the rate limiter and the time. -/
structure Arrival (P : Type) where
  candidate : AnomalyCandidate P
  significance : ℚ
  budget : Bool
  moment : Moment

def Arrival.turn (arrival : Arrival P) : Turn P :=
  .process arrival.candidate arrival.significance arrival.budget arrival.moment

structure DebounceKey where
  tenantId : Nat
  kind : String
  regionHash : String
deriving DecidableEq

def AnomalyRow.isOf (row : AnomalyRow) (key : DebounceKey) : Bool :=
  row.tenantId == key.tenantId && row.kind == key.kind && row.regionHash == some key.regionHash

def AnomalyRow.level (row : AnomalyRow) : ℚ := row.significance.getD 0

/-- The anomalies of the key in the order in which they were published. -/
def published (db : FabricDb P) (key : DebounceKey) : List AnomalyRow :=
  db.anomalies.filter (·.isOf key)

/-- Inside the window that each publication opens, every anomaly exceeds the one before it. -/
def DropsOrEscalates (within : Int) (rows : List AnomalyRow) : Prop :=
  ∀ before first inside after, rows = before ++ first :: (inside ++ after) →
    (∀ row ∈ inside, row.publishedAt ≤ first.publishedAt + within) →
    (first :: inside).IsChain fun earlier later =>
      earlier.level < later.level ∧ earlier.level + escalationDelta ≤ later.level

variable (regionHashOf : Nat → String → List (String × String) → String) (within : Int)

section

variable (arrival : Arrival P)

def Arrival.key : DebounceKey where
  tenantId := arrival.candidate.tenantId
  kind := arrival.candidate.kind
  regionHash := regionHashOf arrival.candidate.tenantId arrival.candidate.kind
    arrival.candidate.regionEntityIds

def processed (arrivals : List (Arrival P)) : Option (FabricDb P) :=
  fabricAfter regionHashOf within (arrivals.map Arrival.turn)

/-- The anomaly that the SELECT of the debounce returns. -/
def Arrival.prior (db : FabricDb P) : Option (Nat × ℚ) :=
  mostRecentAnomalyInRegion db.anomalies (arrival.key regionHashOf).regionHash
    arrival.candidate.tenantId arrival.candidate.kind within arrival.moment.clock

def Arrival.decision (db : FabricDb P) : DebounceDecision :=
  decideDebounce db.anomalies (arrival.key regionHashOf).regionHash arrival.candidate.tenantId
    arrival.candidate.kind arrival.significance within arrival.moment.clock

/-- The candidate reaches the debounce and is dropped there, or has no budget. -/
def Arrival.Refused (db : FabricDb P) : Prop :=
  significanceThreshold ≤ arrival.significance ∧
    (∃ prior level, arrival.decision regionHashOf within db = .suppress prior level) ∨
  arrival.budget = false

/-- Neither an anomaly nor a trigger is written, and what was there stays. -/
structure Unpublished (db after : FabricDb P) : Prop where
  anomalies : after.anomalies = db.anomalies
  triggers : after.triggers = db.triggers
  rows : db.rows <+: after.rows

/-- The candidate passes the threshold, the debounce and the rate limiter. -/
def Arrival.Publishes (db : FabricDb P) : Prop :=
  significanceThreshold ≤ arrival.significance ∧ arrival.budget ∧
  ∀ prior level, arrival.prior regionHashOf within db = some (prior, level) →
    level + escalationDelta ≤ arrival.significance

/-- A candidate with a budget above the threshold meets the open window of the last anomaly of
its key and does not exceed it; but the clock has passed the window, or the anomaly was published
together with another one, the first of them, which the candidate does exceed. -/
def Arrival.Overlooks (db : FabricDb P) : Prop :=
  (significanceThreshold ≤ arrival.significance ∧ arrival.budget) ∧
  ∃ last ∈ (published db (arrival.key regionHashOf)).getLast?,
    (arrival.moment.now ≤ last.publishedAt + within ∧
      arrival.significance < last.level + escalationDelta) ∧
    (last.publishedAt + within < arrival.moment.clock ∨
      ∃ first ∈ (published db (arrival.key regionHashOf)).find? (·.publishedAt == last.publishedAt),
        first.level + escalationDelta ≤ arrival.significance)

def Arrival.row : AnomalyRow where
  id := arrival.moment.anomalyId
  tenantId := arrival.candidate.tenantId
  kind := arrival.candidate.kind
  regionHash := some (arrival.key regionHashOf).regionHash
  significance := some arrival.significance
  publishedAt := arrival.moment.now

end

/-- The debounce over a run: what is published escalates, and what is refused leaves no mark. -/
def Debounced (arrivals : List (Arrival P)) : Prop :=
  (∀ key before rest db, arrivals = before ++ rest →
    processed regionHashOf within before = some db → DropsOrEscalates within (published db key)) ∧
  ∀ before arrival rest db after, arrivals = before ++ arrival :: rest →
    processed regionHashOf within before = some db →
    db.step regionHashOf within arrival.turn = some after →
    arrival.Refused regionHashOf within db → Unpublished db after

/-- No candidate of the run overlooks the last anomaly of its key. -/
def NoneOverlooked (arrivals : List (Arrival P)) : Prop :=
  ∀ before arrival rest db, arrivals = before ++ arrival :: rest →
    processed regionHashOf within before = some db → ¬ arrival.Overlooks regionHashOf within db

variable {regionHashOf within} {db after : FabricDb P} {arrival : Arrival P}
  {rows : List AnomalyRow}

/-- An anomaly inside the window of the one before it exceeds that one. -/
def Exceeds (within : Int) (earlier later : AnomalyRow) : Prop :=
  later.publishedAt ≤ earlier.publishedAt + within → earlier.level + escalationDelta ≤ later.level

theorem escalationDelta_pos : 0 < escalationDelta := by decide +kernel

/-- Where the anomalies are in the order of time, it is enough to compare neighbours. -/
theorem dropsOrEscalates_iff (ho : rows.Pairwise fun a b => a.publishedAt ≤ b.publishedAt) :
    DropsOrEscalates within rows ↔ rows.IsChain (Exceeds within) := by
  rw [isChain_iff_forall_rel_of_append_cons_cons]
  constructor
  · intro hd a b before after he hi
    have hc := hd before a [b] after he (by simpa using hi)
    exact (isChain_pair.mp hc).2
  · rintro hc before first inside after rfl hi
    rw [isChain_iff_forall_rel_of_append_cons_cons]
    intro a b left right he
    have hb : b ∈ inside := by
      have hm : b ∈ (first :: inside).tail := by
        rw [he]
        cases left <;> simp
      exact hm
    have ha : first.publishedAt ≤ a.publishedAt := by
      cases left with
      | nil =>
        cases he
        exact le_rfl
      | cons other left =>
        cases he
        have hp := (pairwise_append.mp ho).2.1
        exact (pairwise_cons.mp hp).1 a (by simp)
    have hat : before ++ first :: (inside ++ after) =
        before ++ left ++ a :: b :: (right ++ after) := by
      rw [← cons_append, he]
      simp
    have hl := hc hat ((hi b hb).trans (by omega))
    exact ⟨(lt_add_of_pos_right _ escalationDelta_pos).trans_le hl, hl⟩

theorem row_isOf (arrival : Arrival P) (key : DebounceKey) :
    (arrival.row regionHashOf).isOf key ↔ arrival.key regionHashOf = key := by
  cases key
  simp [AnomalyRow.isOf, Arrival.row, Arrival.key, and_assoc]

theorem unpublished_of_record (hs : recordSubthresholdSignal db candidate regionHash significance
    moment = some after) : Unpublished db after := by
  unfold recordSubthresholdSignal at hs
  split at hs
  · cases hs
  · cases hs
    exact ⟨rfl, rfl, prefix_append ..⟩

theorem publishes_or_records (h : (if arrival.budget then some (publish db candidate
      (arrival.key regionHashOf).regionHash arrival.significance escalates arrival.moment)
    else recordSubthresholdSignal db arrival.candidate regionHash significance moment) = some after)
    (ht : candidate.tenantId = arrival.candidate.tenantId)
    (hk : candidate.kind = arrival.candidate.kind) :
    arrival.budget ∧ after.anomalies = db.anomalies ++ [arrival.row regionHashOf] ∨
      arrival.budget = false ∧ Unpublished db after := by
  split at h
  · next hb =>
    cases h
    simp [publish, Arrival.row, ht, hk, hb]
  · next hb => exact .inr ⟨eq_false_of_ne_true hb, unpublished_of_record h⟩

/-- An arrival publishes its row, or writes neither an anomaly nor a trigger. -/
theorem step_arrival (hs : db.step regionHashOf within arrival.turn = some after) :
    arrival.Publishes regionHashOf within db ∧ ¬ arrival.Refused regionHashOf within db ∧
        after.anomalies = db.anomalies ++ [arrival.row regionHashOf] ∨
      ¬ arrival.Publishes regionHashOf within db ∧ Unpublished db after := by
  change processCandidate db within arrival.candidate (arrival.key regionHashOf).regionHash
    arrival.significance arrival.budget arrival.moment = some after at hs
  unfold processCandidate at hs
  split at hs
  · next hlw =>
    exact .inr ⟨fun hp => absurd hp.1 (not_le.mpr hlw), unpublished_of_record hs⟩
  next hh =>
  have hl := not_lt.mp hh
  simp only [Arrival.Publishes, Arrival.Refused, Arrival.decision, Arrival.prior, hl, true_and]
  unfold decideDebounce at hs ⊢
  generalize mostRecentAnomalyInRegion .. = found at hs ⊢
  rcases found with _ | ⟨prior, level⟩
  · rcases publishes_or_records hs rfl rfl with ⟨hb, ha⟩ | ⟨hb, hu⟩
    · simp [hb, ha]
    · simp [hb, hu]
  by_cases hle : Arithmetic.add level escalationDelta ≤ arrival.significance
  · have hexceeds : level + escalationDelta ≤ arrival.significance := hle
    simp only [hle, if_true] at hs ⊢
    rcases publishes_or_records hs rfl rfl with ⟨hb, ha⟩ | ⟨hb, hu⟩
    · simp [hb, ha, hexceeds]
    · simp [hb, hu]
  · simp only [hle, if_false] at hs
    cases hs
    refine .inr ⟨fun hp => hle (hp.2 prior level rfl), rfl, rfl, prefix_rfl⟩

theorem exists_step (hp : arrival.Publishes regionHashOf within db) :
    ∃ after, db.step regionHashOf within arrival.turn = some after := by
  change ∃ after, processCandidate db within arrival.candidate (arrival.key regionHashOf).regionHash
    arrival.significance arrival.budget arrival.moment = some after
  simp only [processCandidate, not_lt.mpr hp.1, hp.2.1, if_true, if_false]
  split <;> simp

theorem processed_concat {arrivals : List (Arrival P)} :
    processed regionHashOf within (arrivals ++ [arrival]) = some after ↔
      ∃ db, processed regionHashOf within arrivals = some db ∧
        db.step regionHashOf within arrival.turn = some after := by
  simp [processed, fabricAfter, map_append, map_cons, map_nil, runAll_concat]

theorem published_append (h : after.anomalies = db.anomalies ++ [arrival.row regionHashOf])
    (key : DebounceKey) : published after key = published db key ++
      if arrival.key regionHashOf = key then [arrival.row regionHashOf] else [] := by
  simp [published, h, filter_append, filter_singleton, row_isOf, Bool.cond_eq_ite]

/-- The anomalies bear the times of arrivals, in their order. -/
theorem times_sublist {arrivals : List (Arrival P)}
    (hr : processed regionHashOf within arrivals = some db) :
    db.anomalies.map (·.publishedAt) <+ arrivals.map (·.moment.now) := by
  induction arrivals using List.reverseRecOn generalizing db with
  | nil =>
    cases hr
    exact .slnil
  | append_singleton arrivals arrival ih =>
    obtain ⟨before, hb, hs⟩ := processed_concat.mp hr
    rw [map_append]
    rcases step_arrival hs with ⟨-, -, ha⟩ | ⟨-, hu⟩
    · rw [ha, map_append]
      exact (ih hb).append (.refl _)
    · rw [hu.anomalies]
      exact (ih hb).trans (sublist_append_left ..)

theorem published_ordered {arrivals : List (Arrival P)}
    (ho : arrivals.Pairwise fun a b => a.moment.now ≤ b.moment.now)
    (hr : processed regionHashOf within arrivals = some db) (key : DebounceKey) :
    (published db key).Pairwise fun a b => a.publishedAt ≤ b.publishedAt := by
  have hp := (pairwise_map.mpr ho).sublist (times_sublist hr)
  exact (pairwise_map.mp hp).filter _

/-! ### The row that the SELECT returns -/

/-- Of the rows with the last time the sort puts the first in front. -/
theorem head_latest (ho : rows.Pairwise fun a b => a.publishedAt ≤ b.publishedAt) :
    (rows.insertionSort fun first second => second.publishedAt ≤ first.publishedAt).head? =
      rows.getLast?.bind fun last => rows.find? (·.publishedAt == last.publishedAt) := by
  induction rows with
  | nil => rfl
  | cons row rows ih =>
    obtain ⟨hle, ho⟩ := pairwise_cons.mp ho
    specialize ih ho
    cases hl : rows.getLast? with
    | none => simp [getLast?_eq_none_iff.mp hl]
    | some last =>
      have hm := mem_of_getLast? hl
      rw [hl, Option.bind_some] at ih
      rw [getLast?_cons, hl, insertionSort_cons]
      obtain ⟨first, hf⟩ := Option.isSome_iff_exists.mp
        (find?_isSome (p := fun row => row.publishedAt == last.publishedAt) |>.mpr ⟨last, hm, by simp⟩)
      have he : first.publishedAt = last.publishedAt := by simpa using find?_some hf
      rw [hf] at ih
      obtain ⟨sorted, hs⟩ := head?_eq_some_iff.mp ih
      have hrow := hle last hm
      simp only [hs, orderedInsert_cons, he, getD_some, Option.bind_some, find?_cons, hf]
      by_cases heq : row.publishedAt = last.publishedAt
      · simp [heq]
      · simp [beq_eq_false_iff_ne.mpr heq, show ¬ last.publishedAt ≤ row.publishedAt by omega]

theorem prior_eq (ho : (published db (arrival.key regionHashOf)).Pairwise
      fun a b => a.publishedAt ≤ b.publishedAt) :
    arrival.prior regionHashOf within db =
      (published db (arrival.key regionHashOf)).getLast?.bind fun last =>
        if last.publishedAt + within < arrival.moment.clock then none
        else ((published db (arrival.key regionHashOf)).find?
          (·.publishedAt == last.publishedAt)).map fun row => (row.id, row.level) := by
  have hfilter : (db.anomalies.filter fun row => row.tenantId == arrival.candidate.tenantId &&
      row.kind == arrival.candidate.kind &&
      row.regionHash == some (arrival.key regionHashOf).regionHash &&
      decide (arrival.moment.clock - within ≤ row.publishedAt)) =
        (published db (arrival.key regionHashOf)).filter
          fun row => decide (arrival.moment.clock - within ≤ row.publishedAt) := by
    rw [published, List.filter_filter]
    exact filter_congr fun row _ => Bool.and_comm ..
  rw [Arrival.prior, mostRecentAnomalyInRegion, hfilter, head_latest (ho.filter _)]
  generalize published db (arrival.key regionHashOf) = rows at ho ⊢
  cases hl : rows.getLast? with
  | none => simp [getLast?_eq_none_iff.mp hl]
  | some last =>
    obtain ⟨before, rfl⟩ := getLast?_eq_some_iff.mp hl
    have hle := (pairwise_append.mp ho).2.2
    simp only [Option.bind_some]
    split
    · next hc =>
      rw [filter_eq_nil_iff.mpr]
      · rfl
      intro row hm
      rcases mem_append.mp hm with hb | hb
      · have := hle row hb last (.head _)
        simp
        omega
      · cases mem_singleton.mp hb
        simp
        omega
    · next hc =>
      have hlast : arrival.moment.clock ≤ last.publishedAt + within := not_lt.mp hc
      have hsame : (fun row : AnomalyRow => decide
          ((decide (arrival.moment.clock - within ≤ row.publishedAt) = true) ∧
            (row.publishedAt == last.publishedAt) = true)) = (·.publishedAt == last.publishedAt) := by
        funext row
        by_cases he : row.publishedAt = last.publishedAt <;> simp [he, hlast]
      rw [show (filter _ (before ++ [last])).getLast? = some last by simp [filter_append, hlast],
        Option.bind_some, find?_filter, hsame]
      rfl

/-- A candidate is overlooked when it is published although the open window forbids it. -/
theorem overlooks_iff (ho : (published db (arrival.key regionHashOf)).Pairwise
      fun a b => a.publishedAt ≤ b.publishedAt) :
    arrival.Overlooks regionHashOf within db ↔ arrival.Publishes regionHashOf within db ∧
      ∃ last ∈ (published db (arrival.key regionHashOf)).getLast?,
        arrival.moment.now ≤ last.publishedAt + within ∧
        arrival.significance < last.level + escalationDelta := by
  simp only [Arrival.Overlooks, Arrival.Publishes, prior_eq ho]
  cases hl : (published db (arrival.key regionHashOf)).getLast? with
  | none => simp
  | some last =>
    obtain ⟨first, hf⟩ := Option.isSome_iff_exists.mp
      (find?_isSome (p := fun row => row.publishedAt == last.publishedAt) |>.mpr
        ⟨last, mem_of_getLast? hl, by simp⟩)
    by_cases hc : last.publishedAt + within < arrival.moment.clock
    · simp [hc]
    · simp [hc, hf]
      tauto

/-- One step keeps the chain exactly when the arrival does not overlook the last anomaly. -/
theorem chain_step (hs : db.step regionHashOf within arrival.turn = some after)
    (ho : ∀ key, (published db key).Pairwise fun a b => a.publishedAt ≤ b.publishedAt)
    (hc : ∀ key, (published db key).IsChain (Exceeds within)) :
    (∀ key, (published after key).IsChain (Exceeds within)) ↔
      ¬ arrival.Overlooks regionHashOf within db := by
  rw [overlooks_iff (ho _)]
  rcases step_arrival hs with ⟨hp, -, ha⟩ | ⟨hp, hu⟩
  · have hk : ∀ key, (published after key).IsChain (Exceeds within) ↔
        arrival.key regionHashOf = key → ∀ last ∈ (published db key).getLast?,
          Exceeds within last (arrival.row regionHashOf) := by
      intro key
      rw [published_append ha]
      split
      · next he => simp [isChain_append, hc, he]
      · next hn => simp [hc, hn]
    simp [hk, forall_eq', hp, true_and, Exceeds, Arrival.row,
      AnomalyRow.level, getD_some, not_exists, not_and, not_lt]
  · simp only [published, hu.anomalies] at hc ⊢
    exact iff_of_true hc fun ho => hp ho.1

theorem chain_of_run {arrivals : List (Arrival P)}
    (ho : arrivals.Pairwise fun a b => a.moment.now ≤ b.moment.now)
    (hn : NoneOverlooked regionHashOf within arrivals)
    (hr : processed regionHashOf within arrivals = some db) (key : DebounceKey) :
    (published db key).IsChain (Exceeds within) := by
  induction arrivals using List.reverseRecOn generalizing db key with
  | nil =>
    cases hr
    exact .nil
  | append_singleton arrivals arrival ih =>
    obtain ⟨before, hb, hs⟩ := processed_concat.mp hr
    have hbf : NoneOverlooked regionHashOf within arrivals := by
      intro first middle rest state he
      exact hn first middle (rest ++ [arrival]) state (by simp [he])
    have hob := (pairwise_append.mp ho).1
    exact (chain_step hs (published_ordered hob hb) fun key => ih hob hbf hb key).mpr
      (hn arrivals arrival [] before rfl hb) key

/-- The debounce drops or escalates throughout a run exactly when no candidate overlooks the last
anomaly of an open window. -/
theorem debounced_iff (arrivals : List (Arrival P))
    (hord : arrivals.Pairwise fun a b => a.moment.now ≤ b.moment.now) :
    Debounced regionHashOf within arrivals ↔ NoneOverlooked regionHashOf within arrivals := by
  have hpre : ∀ before rest, arrivals = before ++ rest →
      before.Pairwise fun a b => a.moment.now ≤ b.moment.now := by
    rintro before rest rfl
    exact (pairwise_append.mp hord).1
  constructor
  · rintro ⟨hd, -⟩ before arrival rest db heq hrun ho
    have hto := published_ordered (hpre _ _ heq) hrun
    obtain ⟨after, hs⟩ := exists_step ((overlooks_iff (hto _)).mp ho).1
    have hlast : arrivals = (before ++ [arrival]) ++ rest := by simp [heq]
    have hend := processed_concat.mpr ⟨db, hrun, hs⟩
    refine (chain_step hs hto fun key => ?_).mp (fun key => ?_) ho
    · exact (dropsOrEscalates_iff (hto key)).mp (hd key before _ db heq hrun)
    · exact (dropsOrEscalates_iff (published_ordered (hpre _ _ hlast) hend key)).mp
        (hd key _ rest after hlast hend)
  · intro hn
    refine ⟨fun key before rest db heq hrun => ?_, fun before arrival rest db after _ _ hs href => ?_⟩
    · refine (dropsOrEscalates_iff (published_ordered (hpre _ _ heq) hrun key)).mpr ?_
      refine chain_of_run (hpre _ _ heq) (fun first arrival later state hf => ?_) hrun key
      exact hn first arrival (later ++ rest) state (by simp [heq, hf])
    · rcases step_arrival hs with ⟨-, hnot, -⟩ | ⟨-, hu⟩
      · exact absurd href hnot
      · exact hu

deriving instance DecidableEq for AnomalyRow

/-- The transaction of the second candidate begins inside the window of the first; its SELECT
is sent when the window has passed. -/
def slowTransaction : List (Arrival Unit) :=
  [⟨drift 0, 0.5, true, ⟨0, 20, 30, 0, 0⟩⟩, ⟨drift 1, 0.5, true, ⟨1, 21, 31, 1001, 1000⟩⟩]

theorem published_twice : ¬ Debounced (fun _ _ _ => "") 1000 slowTransaction := by
  rintro ⟨hd, -⟩
  have hrun : (processed (fun _ _ _ => "") 1000 slowTransaction).map
      (published · ⟨1, "commitment_drift", ""⟩) =
        some (slowTransaction.map (·.row fun _ _ _ => "")) := by decide +kernel
  obtain ⟨db, hdb, hrows⟩ := map_eq_some_iff.mp hrun
  have hc := hd _ slowTransaction [] db (by simp) hdb [] _ [_] [] (by rw [hrows]; rfl)
    (by simp [Arrival.row])
  exact absurd (isChain_pair.mp hc).1 (by decide +kernel)

instance (db : FabricDb P) (arrival : Arrival P) :
    Decidable (arrival.Overlooks regionHashOf within db) :=
  inferInstanceAs (Decidable ((_ ∧ _) ∧ ∃ last ∈ _, (_ ∧ _) ∧ (_ ∨ ∃ first ∈ _, _)))

/-- 0.5 is published, 0.6 is dropped, and 0.75 escalates. -/
def worsening : List (Arrival Unit) :=
  [⟨drift 0, 0.5, true, ⟨0, 20, 30, 0, 0⟩⟩, ⟨drift 1, 0.6, true, ⟨1, 21, 31, 101, 100⟩⟩,
    ⟨drift 2, 0.75, true, ⟨2, 22, 32, 201, 200⟩⟩]

theorem debounced_worsening : ((processed (fun _ _ _ => "") 1000 worsening).map fun db =>
      (published db ⟨1, "commitment_drift", ""⟩).map AnomalyRow.level) = some [0.5, 0.75] ∧
    Debounced (fun _ _ _ => "") 1000 worsening := by
  refine ⟨by decide +kernel, (debounced_iff worsening (by decide)).mpr ?_⟩
  have hnone : ∀ n < 3, ∀ arrival ∈ worsening[n]?,
      ∀ db ∈ processed (fun _ _ _ => "") 1000 (worsening.take n),
        ¬ arrival.Overlooks (fun _ _ _ => "") 1000 db := by decide +kernel
  intro before arrival rest db heq hrun
  have hlen : before.length < 3 := by
    have := congrArg List.length heq
    simp [worsening] at this
    omega
  exact hnone _ hlen arrival (by simp [heq]) db (by simp [heq, hrun])

end FyralisCore.Anomalies
