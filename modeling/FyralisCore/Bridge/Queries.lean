import Mathlib.Algebra.BigOperators.Group.List.Basic
import Mathlib.Data.List.Dedup
import Mathlib.Data.List.Sort
import Mathlib.Tactic.Ring

/-! Revenue at risk and the health timeline of a customer (`bridge/queries.py`). Amounts are whole
cents, as the column and the ARR have them; of the code's `quantize` only that of the quotient
rounds. The timeline replays the states of the customer's commitments over the days of a window,
from the changes inside it; its times are microseconds. -/
namespace FyralisCore.Bridge

open List Nat Option

structure CommitmentRow where
  id : Nat
  tenantId : Nat
  state : String
  dueDate : Option Int

/-- A row of `models`, with the commitments in its `scope_entities`. -/
structure ModelRow where
  tenantId : Nat
  propositionKind : String
  status : String
  scopeCommitments : List Nat
  direction : Option String
  confidence : Rat

structure CustomerCommitmentRow where
  tenantId : Nat
  customerResourceId : Nat
  commitmentId : Nat
  revenueAtRiskUsd : Option Nat

structure ResourceRow where
  id : Nat
  tenantId : Nat
  kind : String
  identity : String
  archived : Bool
  arrUsd : Nat

structure BridgeDb where
  commitments : List CommitmentRow
  models : List ModelRow
  customerCommitments : List CustomerCommitmentRow
  resources : List ResourceRow

def atRiskStates : List String := ["blocked", "paused", "doneunverified"]

/-- An active prediction says that the commitment will slip. -/
def BridgeDb.willSlip (db : BridgeDb) (tenantId commitmentId : Nat) : Bool :=
  db.models.any fun row => row.tenantId == tenantId && row.propositionKind == "prediction" &&
    row.status == "active" && row.scopeCommitments.contains commitmentId &&
    row.direction == some "will_slip" && decide (0.6 < row.confidence)

/-- A row of `linked`: `state` and `predictionDriven` are those of the commitment. -/
structure Link where
  customerResourceId : Nat
  commitmentId : Nat
  revenueAtRiskUsd : Option Nat
  state : String
  predictionDriven : Bool

-- `deadline` is `now() + horizon`.
variable (db : BridgeDb) (tenantId : Nat) (deadline : Int)

def linked : List Link :=
  (db.customerCommitments.filter (·.tenantId == tenantId)).flatMap fun link =>
    (db.commitments.filter fun row => row.id == link.commitmentId && row.tenantId == tenantId &&
        atRiskStates.contains row.state &&
        (row.dueDate.any (· < deadline) || db.willSlip tenantId row.id)).map fun row => {
      customerResourceId := link.customerResourceId
      commitmentId := link.commitmentId
      revenueAtRiskUsd := link.revenueAtRiskUsd
      state := row.state
      predictionDriven := !row.dueDate.any (· < deadline) && db.willSlip tenantId row.id }

def linksOf (customerId : Nat) : List Link :=
  (linked db tenantId deadline).filter (·.customerResourceId == customerId)

def explicitUsd (links : List Link) : Nat := (links.map (·.revenueAtRiskUsd.getD 0)).sum

def nullCount (links : List Link) : Nat := links.countP (·.revenueAtRiskUsd.isNone)

/-- The quotient to the nearest, from a half to the even one. -/
def quantizedQuotient (amount count : Nat) : Nat :=
  if 2 * (amount % count) < count ∨ 2 * (amount % count) = count ∧ amount / count % 2 = 0 then
    amount / count
  else amount / count + 1

def fallbackRevenuePerRow (arrUsd atRiskCount nullCount : Nat) : Nat :=
  if 0 < atRiskCount ∧ 0 < nullCount ∧ 0 < arrUsd then quantizedQuotient arrUsd atRiskCount else 0

def riskBucketAmount (bucket : List Link) (perRow : Nat) : Nat :=
  explicitUsd bucket + perRow * nullCount bucket

structure CustomerRevenueRow where
  customerResourceId : Nat
  customerName : String
  totalAtRiskUsd : Nat
  blockedUsd : Nat
  pausedUsd : Nat
  doneunverifiedUsd : Nat
  predictionDrivenUsd : Nat
  atRiskCommitmentIds : List Nat
  fallbackUsed : Bool
deriving DecidableEq

/-- The resource of the LEFT JOIN. -/
def BridgeDb.customer (db : BridgeDb) (tenantId customerId : Nat) : Option ResourceRow :=
  db.resources.find? fun row => row.id == customerId && row.tenantId == tenantId

def arrOf (customerId : Nat) : Nat := ((db.customer tenantId customerId).map (·.arrUsd)).getD 0

def revenueCustomerFromRow (customerId : Nat) : CustomerRevenueRow :=
  let links := linksOf db tenantId deadline customerId
  let perRow := fallbackRevenuePerRow (arrOf db tenantId customerId) links.length (nullCount links)
  let bucket state := riskBucketAmount (links.filter (·.state == state)) perRow
  { customerResourceId := customerId
    customerName := ((db.customer tenantId customerId).map (·.identity)).getD ""
    totalAtRiskUsd := bucket "blocked" + bucket "paused" + bucket "doneunverified"
    blockedUsd := bucket "blocked"
    pausedUsd := bucket "paused"
    doneunverifiedUsd := bucket "doneunverified"
    predictionDrivenUsd := riskBucketAmount (links.filter (·.predictionDriven)) perRow
    atRiskCommitmentIds := links.map (·.commitmentId)
    fallbackUsed := 0 < nullCount links }

def zeroRiskCustomerFromRow (row : ResourceRow) : CustomerRevenueRow :=
  ⟨row.id, row.identity, 0, 0, 0, 0, 0, [], false⟩

def zeroRiskCustomers : List ResourceRow :=
  db.resources.filter fun row => row.tenantId == tenantId && row.kind == "relational" &&
    !row.archived && db.customerCommitments.any fun link =>
      link.customerResourceId == row.id && link.tenantId == tenantId

structure RevenueAtRiskReport where
  customers : List CustomerRevenueRow
  grandTotalUsd : Nat
  fallbackCount : Nat

def revenueAtRisk : RevenueAtRiskReport :=
  let seen := ((linked db tenantId deadline).map (·.customerResourceId)).dedup
  let customers := seen.map (revenueCustomerFromRow db tenantId deadline) ++
    ((zeroRiskCustomers db tenantId).filter (!seen.contains ·.id)).map zeroRiskCustomerFromRow
  { customers := customers.insertionSort fun first second =>
      second.totalAtRiskUsd ≤ first.totalAtRiskUsd
    grandTotalUsd := (customers.map (·.totalAtRiskUsd)).sum
    fallbackCount := customers.countP (·.fallbackUsed) }

/-- The amount at risk over the links of a customer with the ARR. -/
structure SplitsExactly (links : List Link) (arrUsd total : Nat) : Prop where
  lower : explicitUsd links ≤ total
  upper : total ≤ explicitUsd links + arrUsd
  whole : links ≠ [] → nullCount links = links.length → total = arrUsd

/-- The shares are equal where nothing is priced; a share that is rounded up leaves enough to the
links that are priced. -/
def EvenShares (arrUsd links unpriced : Nat) : Prop :=
  (0 < links → unpriced = links → links ∣ arrUsd) ∧
  (0 < links → links < 2 * (arrUsd % links) ∨
      2 * (arrUsd % links) = links ∧ arrUsd / links % 2 = 1 →
    unpriced ≤ (links - unpriced) * (arrUsd / links) + arrUsd % links)

variable {db tenantId deadline} {links : List Link}

theorem mul_quantizedQuotient_le_iff (hk : unpriced ≤ shares) (hp : 0 < shares) :
    quantizedQuotient amount shares * unpriced ≤ amount ↔
      (shares < 2 * (amount % shares) ∨ 2 * (amount % shares) = shares ∧ amount / shares % 2 = 1 →
        unpriced ≤ (shares - unpriced) * (amount / shares) + amount % shares) := by
  obtain ⟨priced, rfl⟩ := Nat.exists_eq_add_of_le hk
  have hd := div_add_mod amount (unpriced + priced)
  unfold quantizedQuotient
  generalize amount / (unpriced + priced) = q at hd ⊢
  generalize amount % (unpriced + priced) = r at hd ⊢
  rw [Nat.add_sub_cancel_left]
  have hs : unpriced * q + priced * q + r = amount := by rw [← hd]; ring
  rw [mul_comm]
  split
  · next hdw =>
    refine iff_of_true (by omega) fun hu => ?_
    omega
  · next hu =>
    rw [forall_prop_of_true (by omega), mul_add]
    omega

theorem mul_quantizedQuotient_eq_iff (hp : 0 < shares) :
    quantizedQuotient amount shares * shares = amount ↔ shares ∣ amount := by
  have hdv := div_add_mod amount shares
  have hl := mod_lt amount hp
  constructor
  · intro he
    exact ⟨_, (he.symm.trans (mul_comm ..))⟩
  · intro hd
    rw [dvd_iff_mod_eq_zero] at hd
    rw [quantizedQuotient, if_pos (by omega), Nat.div_mul_cancel (Nat.dvd_of_mod_eq_zero hd)]

theorem explicitUsd_of_unpriced (h : nullCount links = links.length) : explicitUsd links = 0 := by
  rw [nullCount, countP_eq_length] at h
  refine sum_eq_zero fun amount hm => ?_
  obtain ⟨link, hl, rfl⟩ := mem_map.mp hm
  simp [Option.isNone_iff_eq_none.mp (h link hl)]

theorem splitsExactly_iff (links : List Link) (arrUsd : Nat) :
    SplitsExactly links arrUsd (riskBucketAmount links
        (fallbackRevenuePerRow arrUsd links.length (nullCount links))) ↔
      EvenShares arrUsd links.length (nullCount links) := by
  have hk : nullCount links ≤ links.length := countP_le_length
  unfold riskBucketAmount fallbackRevenuePerRow EvenShares
  rcases Nat.eq_zero_or_pos (nullCount links) with hz | hp
  · simp only [hz, lt_irrefl, false_and, and_false, if_false, mul_zero, add_zero,
      zero_le, implies_true, and_true]
    refine iff_of_true ⟨le_rfl, by omega, fun hn h => ?_⟩ fun hl h => by omega
    exact absurd (length_eq_zero_iff.mp (hz.symm.trans h).symm) hn
  have hl : 0 < links.length := hp.trans_le hk
  simp only [hl, hp, true_and, forall_const]
  rcases Nat.eq_zero_or_pos arrUsd with rfl | har
  · simp only [lt_irrefl, if_false, zero_mul, add_zero, zero_mod]
    refine iff_of_true ⟨le_rfl, le_rfl, fun _ => explicitUsd_of_unpriced⟩ ⟨by simp, by omega⟩
  rw [if_pos har, ← mul_quantizedQuotient_le_iff hk hl, ← mul_quantizedQuotient_eq_iff hl]
  constructor
  · rintro ⟨-, hle, hw⟩
    refine ⟨fun ha => ?_, by omega⟩
    have he := hw (ne_nil_of_length_pos hl) ha
    rwa [explicitUsd_of_unpriced ha, ha, zero_add] at he
  · rintro ⟨hw, hle⟩
    refine ⟨by omega, by omega, fun _ ha => ?_⟩
    rw [explicitUsd_of_unpriced ha, ha, zero_add]
    exact hw ha

theorem buckets_eq (perRow : Nat) (h : ∀ link ∈ links, link.state ∈ atRiskStates) :
    riskBucketAmount (links.filter (·.state == "blocked")) perRow +
        riskBucketAmount (links.filter (·.state == "paused")) perRow +
        riskBucketAmount (links.filter (·.state == "doneunverified")) perRow =
      riskBucketAmount links perRow := by
  induction links with
  | nil => rfl
  | cons link rest ih =>
    have ih := ih (forall_mem_cons.mp h).2
    have hs : link.state = "blocked" ∨ link.state = "paused" ∨ link.state = "doneunverified" := by
      simpa [atRiskStates] using h link (.head _)
    simp only [riskBucketAmount, explicitUsd, nullCount, filter_cons] at ih ⊢
    rcases hs with hs | hs | hs <;> simp [hs, countP_cons, mul_add] <;> omega

theorem state_of_mem_linked (h : link ∈ linked db tenantId deadline) : link.state ∈ atRiskStates := by
  simp only [linked, mem_flatMap, List.mem_map, mem_filter, Bool.and_eq_true, contains_iff_mem] at h
  obtain ⟨_, -, row, ⟨-, ⟨-, hs⟩, -⟩, rfl⟩ := h
  exact hs

/-- A row of the report has the amounts of its links, and their shares of the ARR. -/
theorem total_of_mem (h : row ∈ (revenueAtRisk db tenantId deadline).customers) :
    row.totalAtRiskUsd = riskBucketAmount (linksOf db tenantId deadline row.customerResourceId)
      (fallbackRevenuePerRow (arrOf db tenantId row.customerResourceId)
        (linksOf db tenantId deadline row.customerResourceId).length
        (nullCount (linksOf db tenantId deadline row.customerResourceId))) := by
  simp only [revenueAtRisk, mem_insertionSort, mem_append, List.mem_map, mem_filter] at h
  rcases h with ⟨id, -, rfl⟩ | ⟨resource, ⟨-, hns⟩, rfl⟩
  · refine buckets_eq _ fun link hl => ?_
    exact state_of_mem_linked (mem_filter.mp hl).1
  · have hn : linksOf db tenantId deadline resource.id = [] := by
      refine filter_eq_nil_iff.mpr fun link hl he => ?_
      simp only [Bool.not_eq_eq_eq_not, Bool.not_true, contains_eq_mem, decide_eq_false_iff_not,
        mem_dedup, List.mem_map] at hns
      exact hns ⟨link, hl, by simpa using he⟩
    simp only [zeroRiskCustomerFromRow, hn]
    rfl

/-- The report splits the ARR of a customer exactly when the shares come out even: the ARR is
rounded for each link, and the roundings add up. -/
theorem revenue_splits_iff (db : BridgeDb) (tenantId : Nat) (deadline : Int)
    (row : CustomerRevenueRow) : (row ∈ (revenueAtRisk db tenantId deadline).customers →
      SplitsExactly (linksOf db tenantId deadline row.customerResourceId)
        (arrOf db tenantId row.customerResourceId) row.totalAtRiskUsd) ↔
    (row ∈ (revenueAtRisk db tenantId deadline).customers →
      EvenShares (arrOf db tenantId row.customerResourceId)
        (linksOf db tenantId deadline row.customerResourceId).length
        (nullCount (linksOf db tenantId deadline row.customerResourceId))) := by
  refine forall_congr' fun h => ?_
  rw [total_of_mem h]
  exact splitsExactly_iff _ _

/-- A dollar over three commitments without a price. -/
def threeUnpriced : BridgeDb where
  commitments := [1, 2, 3].map (⟨·, 1, "blocked", some 0⟩)
  models := []
  customerCommitments := [1, 2, 3].map (⟨1, 7, ·, none⟩)
  resources := [⟨7, 1, "relational", "Acme", false, 100⟩]

theorem cent_lost : ∃ row ∈ (revenueAtRisk threeUnpriced 1 90).customers,
    ¬ SplitsExactly (linksOf threeUnpriced 1 90 row.customerResourceId)
      (arrOf threeUnpriced 1 row.customerResourceId) row.totalAtRiskUsd := by
  refine ⟨revenueCustomerFromRow threeUnpriced 1 90 7, by decide +kernel, fun hs => ?_⟩
  exact absurd (hs.whole (by decide +kernel) (by decide +kernel)) (by decide +kernel)

def dayLength : Int := 24 * 60 * 60 * 1000000

def dateOf (time : Int) : Int := time / dayLength

/-- A `state_change` observation; `newState` is the COALESCE of its content. -/
structure StateChange where
  tenantId : Nat
  entityKind : String
  entityId : Nat
  newState : Option String
  occurredAt : Int

/-- The state changes as ORDER BY `occurred_at` returns them. -/
structure ChangeLog where
  rows : List StateChange
  ordered : rows.Pairwise fun first second => first.occurredAt ≤ second.occurredAt

structure HealthPoint where
  day : Int
  totalAtRiskUsd : Nat
  blockedCommitmentCount : Nat

/-- A commitment of the customer: its price and the state that its row holds now. -/
structure ServedRow where
  commitmentId : Nat
  revenueAtRiskUsd : Option Nat
  currentState : String
deriving DecidableEq

variable (db : BridgeDb) (log : ChangeLog) (tenantId customerId : Nat) (now windowDays : Int)

def timelineDays : List Int :=
  (List.range windowDays.toNat).map fun (i : Nat) => dateOf now - (windowDays - 1 - (i : Int))

def servedRows : List ServedRow :=
  (db.customerCommitments.filter fun link =>
      link.customerResourceId == customerId && link.tenantId == tenantId).flatMap fun link =>
    (db.commitments.filter (·.id == link.commitmentId)).map fun row =>
      ⟨row.id, link.revenueAtRiskUsd, row.state⟩

/-- The dates and the states of the changes of a commitment, among some of the log. -/
def changesOf (rows : List StateChange) (commitmentId : Nat) : List (Int × String) :=
  (rows.filter fun row => row.tenantId == tenantId && row.entityKind == "commitment" &&
      row.entityId == commitmentId).filterMap fun row =>
    (row.newState.filter (· != "")).map (dateOf row.occurredAt, ·)

def windowRows : List StateChange :=
  log.rows.filter fun row => now - windowDays * dayLength ≤ row.occurredAt

/-- Moves the pointer past the changes up to the day. -/
def advance (day : Int) (state : String) : List (Int × String) → String × List (Int × String)
  | [] => (state, [])
  | (date, next) :: pending =>
    if date ≤ day then advance day next pending else (state, (date, next) :: pending)

def replay (state : String) (pending : List (Int × String)) : List Int → List String
  | [] => []
  | day :: days =>
    let (state, pending) := advance day state pending
    state :: replay state pending days

/-- The states of a commitment, one for each day. The seed is its present state. -/
def dailyStates (row : ServedRow) : List String :=
  replay row.currentState (changesOf tenantId (windowRows log now windowDays) row.commitmentId)
    (timelineDays now windowDays)

def customerHealthTimeline : List HealthPoint :=
  let served := servedRows db tenantId customerId
  let arrUsd := arrOf db tenantId customerId
  let perFallback := if 0 < served.length ∧ 0 < arrUsd then quantizedQuotient arrUsd served.length
    else 0
  (timelineDays now windowDays).zipIdx.map fun (day, index) =>
    let atRisk := served.filter fun row =>
      (dailyStates log tenantId now windowDays row)[index]?.any atRiskStates.contains
    ⟨day, (atRisk.map (·.revenueAtRiskUsd.getD perFallback)).sum, atRisk.length⟩

/-- The state after all changes up to the end of the day, of a commitment that exists by then. -/
def stateAtEndOf (day : Int) (commitmentId : Nat) : Option String :=
  ((changesOf tenantId log.rows commitmentId).filter (·.1 ≤ day)).getLast?.map (·.2)

def Faithful : Prop :=
  ∀ row ∈ servedRows db tenantId customerId,
    (dailyStates log tenantId now windowDays row).map some =
      (timelineDays now windowDays).map (stateAtEndOf log tenantId · row.commitmentId)

def earlierRows : List StateChange :=
  log.rows.filter fun row => ¬ now - windowDays * dayLength ≤ row.occurredAt

/-- The state from before the window. -/
def incomingState (commitmentId : Nat) : Option String :=
  (changesOf tenantId (earlierRows log now windowDays) commitmentId).getLast?.map (·.2)

/-- A commitment without a change in the window by the end of the first day still has the state
that it brought into the window. -/
def SeedsHold : Prop :=
  ∀ row ∈ servedRows db tenantId customerId, ∀ first ∈ (timelineDays now windowDays).head?,
    (∀ change ∈ changesOf tenantId (windowRows log now windowDays) row.commitmentId,
      first < change.1) →
    incomingState log tenantId now windowDays row.commitmentId = some row.currentState

variable {log tenantId now windowDays} {changes pending : List (Int × String)}

/-- The last state by the day, or the seed. -/
def lastBy (day : Int) (seed : String) (changes : List (Int × String)) : String :=
  ((changes.filter (·.1 ≤ day)).getLast?.map (·.2)).getD seed

theorem filter_append_filter {α : Type} {f : α → Int} {l : List α} (bound : Int)
    (ho : l.Pairwise fun a b => f a ≤ f b) :
    l.filter (¬ bound ≤ f ·) ++ l.filter (bound ≤ f ·) = l := by
  induction l with
  | nil => rfl
  | cons a rest ih =>
    obtain ⟨hf, ho⟩ := pairwise_cons.mp ho
    by_cases hl : bound ≤ f a
    · have ha : ∀ b ∈ rest, bound ≤ f b := fun b hb => hl.trans (hf b hb)
      have hi : rest.filter (bound ≤ f ·) = rest := filter_eq_self.mpr (by simpa using ha)
      simpa [hl, hi] using ha
    · simpa [hl, not_le.mp hl] using ih ho

theorem advance_eq (hor : pending.Pairwise fun a b => a.1 ≤ b.1) : advance day seed pending =
    (lastBy day seed pending, pending.filter (day < ·.1)) := by
  induction pending generalizing seed with
  | nil => rfl
  | cons change rest ih =>
    obtain ⟨hf, hor⟩ := pairwise_cons.mp hor
    rw [advance]
    by_cases hl : change.1 ≤ day
    · rw [if_pos hl, ih hor]
      simp only [lastBy, filter_cons, hl, decide_true, if_true, getLast?_cons, not_lt.mpr hl,
        decide_false, Bool.false_eq_true, if_false]
      cases (rest.filter (·.1 ≤ day)).getLast? <;> rfl
    · have ha : ∀ other ∈ rest, day < other.1 :=
        fun other ho => (not_le.mp hl).trans_le (hf other ho)
      have hn : rest.filter (·.1 ≤ day) = [] := by simpa using ha
      have hi : rest.filter (day < ·.1) = rest := filter_eq_self.mpr (by simpa using ha)
      simp [hl, not_le.mp hl, lastBy, hn, hi]

theorem lastBy_advance (ho : pending.Pairwise fun a b => a.1 ≤ b.1) (hl : day ≤ later) :
    lastBy later (lastBy day seed pending) (pending.filter (day < ·.1)) =
      lastBy later seed pending := by
  have hs := filter_append_filter (day + 1) ho
  simp only [Int.add_one_le_iff, not_lt] at hs
  have hsb : (pending.filter (·.1 ≤ day)).filter (·.1 ≤ later) = pending.filter (·.1 ≤ day) :=
    filter_eq_self.mpr fun change hc => by
      have := (mem_filter.mp hc).2
      simp only [decide_eq_true_eq] at this ⊢
      omega
  conv_rhs => rw [lastBy, ← hs]
  rw [filter_append, hsb, getLast?_append]
  unfold lastBy
  cases ((pending.filter (day < ·.1)).filter (·.1 ≤ later)).getLast? <;> simp

theorem replay_eq (ho : pending.Pairwise fun a b => a.1 ≤ b.1) (hd : days.Pairwise (· ≤ ·)) :
    replay seed pending days = days.map fun day => lastBy day seed pending := by
  induction days generalizing seed pending with
  | nil => rfl
  | cons day days ih =>
    obtain ⟨hf, hd⟩ := pairwise_cons.mp hd
    rw [replay, advance_eq ho, map_cons]
    dsimp only
    rw [ih (ho.filter _) hd]
    refine congrArg _ (map_congr_left fun later hl => ?_)
    exact lastBy_advance ho (hf later hl)

theorem dateOf_mono (hl : first ≤ second) : dateOf first ≤ dateOf second :=
  Int.ediv_le_ediv (by decide) hl

theorem changesOf_ordered (hs : rows <+ log.rows) (id : Nat) :
    (changesOf tenantId rows id).Pairwise fun a b => a.1 ≤ b.1 := by
  refine pairwise_filterMap.mpr (((log.ordered.sublist hs).filter _).imp ?_)
  intro first second hl a ha b hb
  obtain ⟨_, -, rfl⟩ := map_eq_some_iff.mp ha
  obtain ⟨_, -, rfl⟩ := map_eq_some_iff.mp hb
  exact dateOf_mono hl

theorem timelineDays_ordered : (timelineDays now windowDays).Pairwise (· ≤ ·) := by
  refine pairwise_map.mpr ((pairwise_lt_range (n := windowDays.toNat)).imp ?_)
  intro i j hi
  omega

/-- What precedes the window is over by each of its days. -/
theorem date_le_of_before {id : Nat}
    (hc : change ∈ changesOf tenantId (earlierRows log now windowDays) id)
    (hdy : day ∈ timelineDays now windowDays) : change.1 ≤ day := by
  obtain ⟨row, hr, he⟩ := mem_filterMap.mp hc
  obtain ⟨_, -, rfl⟩ := map_eq_some_iff.mp he
  obtain ⟨i, -, rfl⟩ := mem_map.mp hdy
  have hb : row.occurredAt ≤ now - windowDays * dayLength := by
    simp only [earlierRows, mem_filter, decide_not, Bool.not_eq_true',
      decide_eq_false_iff_not] at hr
    omega
  have hd := dateOf_mono hb
  rw [dateOf, dateOf, Int.sub_mul_ediv_right _ _ (by decide)] at hd
  dsimp [dateOf]
  omega

theorem stateAtEndOf_eq (hd : day ∈ timelineDays now windowDays) (id : Nat) :
    stateAtEndOf log tenantId day id =
      (((changesOf tenantId (windowRows log now windowDays) id).filter (·.1 ≤ day)).getLast?.map
        (·.2)).or (incomingState log tenantId now windowDays id) := by
  have hs : changesOf tenantId log.rows id = changesOf tenantId (earlierRows log now windowDays)
      id ++ changesOf tenantId (windowRows log now windowDays) id := by
    conv_lhs => rw [← filter_append_filter (now - windowDays * dayLength) log.ordered]
    simp only [changesOf, filter_append, filterMap_append]
    rfl
  have hi : (changesOf tenantId (earlierRows log now windowDays) id).filter (·.1 ≤ day) =
      changesOf tenantId (earlierRows log now windowDays) id :=
    filter_eq_self.mpr fun change hc => decide_eq_true (date_le_of_before hc hd)
  rw [stateAtEndOf, hs, filter_append, hi, getLast?_append, map_or]
  rfl

/-- The replay is faithful exactly when no commitment that first changes after the first day of
the window, or not at all, has left the state that it had before: its row holds the last state. -/
theorem timeline_faithful_iff (db : BridgeDb) (log : ChangeLog) (tenantId customerId : Nat)
    (now windowDays : Int) : Faithful db log tenantId customerId now windowDays ↔
      SeedsHold db log tenantId customerId now windowDays := by
  refine forall₂_congr fun row _ => ?_
  have hord : (changesOf tenantId (windowRows log now windowDays) row.commitmentId).Pairwise
      fun a b => a.1 ≤ b.1 := changesOf_ordered filter_sublist row.commitmentId
  rw [dailyStates, replay_eq hord timelineDays_ordered, List.map_map, map_inj_left]
  have hday : ∀ day ∈ timelineDays now windowDays, (some (lastBy day row.currentState
      (changesOf tenantId (windowRows log now windowDays) row.commitmentId)) =
      stateAtEndOf log tenantId day row.commitmentId ↔
      ((∀ change ∈ changesOf tenantId (windowRows log now windowDays) row.commitmentId,
        day < change.1) →
        incomingState log tenantId now windowDays row.commitmentId = some row.currentState)) := by
    intro day hd
    rw [stateAtEndOf_eq hd, lastBy]
    rcases hl : ((changesOf tenantId (windowRows log now windowDays) row.commitmentId).filter
      (·.1 ≤ day)).getLast? with _ | last
    · have hall := hl
      simp only [getLast?_eq_none_iff, filter_eq_nil_iff, decide_eq_true_eq, not_le] at hall
      rw [hl, forall_prop_of_true hall]
      exact eq_comm
    · have hm := mem_filter.mp (mem_of_getLast? hl)
      refine iff_of_true (by rw [hl]; rfl) fun hall => absurd (hall last hm.1) ?_
      simpa using hm.2
  constructor
  · intro hf first hfirst
    exact (hday first (mem_of_head? hfirst)).mp (hf first (mem_of_head? hfirst))
  · intro hs day hd
    refine (hday day hd).mpr fun hall => ?_
    have hasc : (timelineDays now windowDays).Pairwise (· ≤ ·) := timelineDays_ordered
    generalize timelineDays now windowDays = days at hd hasc hs
    rcases days with _ | ⟨first, days⟩
    · cases hd
    refine hs first rfl fun change hc => lt_of_le_of_lt ?_ (hall change hc)
    rcases mem_cons.mp hd with rfl | hd
    · exact le_rfl
    · exact (pairwise_cons.mp hasc).1 day hd

/-- A commitment that is active from the first day and blocked on the fortieth. -/
def blockedLate : ChangeLog where
  rows := [(0, "active"), (40, "blocked")].map fun (day, state) =>
    ⟨1, "commitment", 1, some state, day * dayLength⟩
  ordered := by decide

def servedOnce : BridgeDb where
  commitments := [⟨1, 1, "blocked", none⟩]
  models := []
  customerCommitments := [⟨1, 7, 1, none⟩]
  resources := []

/-- The first of thirty days is shown with the block that is still to come. -/
theorem blocked_too_early : ¬ Faithful servedOnce blockedLate 1 7 (41 * dayLength) 30 := by
  intro hf
  exact absurd (hf ⟨1, none, "blocked"⟩ (by decide +kernel)) (by decide +kernel)

end FyralisCore.Bridge
