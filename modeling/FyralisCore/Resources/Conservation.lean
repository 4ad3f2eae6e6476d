import FyralisCore.Lib.TotalCorrectness
import FyralisCore.Resources.Capacity

/-! Conservation over runs of `record_transaction`. A spend is clamped before R1
looks at it, so R1 never sees it: what keeps the equation is that no spend asks
for more than is available. -/
namespace FyralisCore.Resources

open Relational Transaction Transition ResourceDb TransactionType
open Acts (Clock)

structure RecordCall where
  clock : Clock
  args : RecordArgs

def RecordCall.program (call : RecordCall) : ResourceTx TransactionRow :=
  recordTransaction call.clock call.args

def ConservedAt (resourceId : Nat) (db : ResourceDb) : Prop :=
  ∃ row capacity, db.resources.get resourceId = some row ∧ row.kind = .capacity ∧
    row.currentValue.capacity = some capacity ∧ capacity.Balanced

structure Asks (resourceId : Nat) (db : ResourceDb) (call : RecordCall) (kind : TransactionType)
    (units : Int) (capacity : Capacity) : Prop where
  resource : call.args.resourceId = resourceId
  kind_eq : ofText call.args.kind = some kind
  units_eq : ∃ delta, call.args.delta = .object delta ∧ requestedUnits delta = .ok units
  counters : ∃ row, db.resources.get resourceId = some row ∧
    row.currentValue.capacity = some capacity

/-- A call moves units of the resource: a non-negative number of them, and none
is released that is not deployed. -/
structure MovesUnits (resourceId : Nat) (db : ResourceDb) (call : RecordCall) : Prop where
  kind : ∀ kind, ofText call.args.kind = some kind → kind.movesUnits
  units : ∀ kind units capacity, Asks resourceId db call kind units capacity → 0 ≤ units
  release : ∀ units capacity, Asks resourceId db call .release units capacity →
    units ≤ capacity.deployed

def Overspends (resourceId : Nat) (db : ResourceDb) (call : RecordCall) : Prop :=
  ∃ units capacity, Asks resourceId db call .spend units capacity ∧ capacity.available < units

/-- A step of the runs considered: any call on another resource, and on this one
a call that moves units and does not overspend. -/
def WithinCapacity (resourceId : Nat) (db : Database ResourceDb) (call : RecordCall) : Prop :=
  call.args.resourceId = resourceId →
    MovesUnits resourceId db.state call ∧ ¬ Overspends resourceId db.state call

/-- What conservation asks of one call: when it succeeds the counters are still
balanced, and a spend larger than the available units is refused with R1. -/
structure Conserves (resourceId : Nat) (db : Database ResourceDb) (call : RecordCall) : Prop where
  kept : ∀ value after left,
    Tx.Returns apply call.program db.state db.supply value after left → ConservedAt resourceId after
  refused : Overspends resourceId db.state call → ∃ error : ResourceError,
    (call.program.exec apply db.state db.supply).result = .error error ∧ error.Violates .r1

variable {resourceId : Nat} {db : Database ResourceDb} {call : RecordCall}

/-- A successful call that moves units moves the counters, and leaves no
negative availability behind. -/
theorem conservedAt_of_returns (hcn : ConservedAt resourceId db.state)
    (hw : WithinCapacity resourceId db call)
    (hrt : Tx.Returns apply call.program db.state db.supply v after left) :
    ConservedAt resourceId after := by
  obtain ⟨row, capacity, hr, hk, hc, hb⟩ := hcn
  obtain ⟨kind, delta, found, newCv, hrc⟩ := returns_recordTransaction hrt
  by_cases hs : call.args.resourceId = resourceId
  · obtain ⟨hmv, hsp⟩ := hw hs
    obtain rfl : row = found := Option.some.inj (hr.symm.trans (hs ▸ hrc.found))
    obtain ⟨newUtil, hv, ha⟩ := hrc.get_resource
    obtain ⟨hap, hR1⟩ := newValues_eq_ok hv
    rw [hk] at hap
    have hm := hmv.kind kind hrc.kind_eq
    obtain ⟨units, hu, hn⟩ := capacity_applyDelta hc hm hap
    have hask : Asks resourceId db.state call kind units capacity :=
      ⟨hs, hrc.kind_eq, ⟨delta, hrc.delta_eq, hu⟩, row, hr, hc⟩
    refine ⟨row.withValue newCv newUtil _ _, capacity.move kind units, hs ▸ ha, hk, hn,
      hb.move hm (hmv.units kind units capacity hask) ?_ ?_ ?_⟩
    · -- R1 has seen the availability that a deploy leaves.
      rintro rfl
      have hav := (Dict.capacity_eq_some_iff.mp hn).1
      have hnn := hR1 hk
      unfold Dict.counter at hav
      split at hav
      · next available hvl =>
        rw [hvl] at hnn
        cases hav
        simpa [Value.isNegative, Value.number, Capacity.move] using hnn
      · cases hav
    · rintro rfl
      exact hmv.release units capacity hask
    · rintro rfl
      by_contra ho
      exact hsp ⟨units, capacity, hask, not_le.mp ho⟩
  · refine ⟨row, capacity, ?_, hk, hc, hb⟩
    rw [hrc.get_resource_ne (Ne.symm hs), hr]

variable {row : ResourceRow} {delta : Dict} {capacity : Capacity}

theorem checkR1_spend (resourceId : Nat)
    (hc : row.currentValue.capacity = some capacity) (hk : row.kind = .capacity)
    (hap : applyDelta row.currentValue delta row.kind .spend = .ok newCv) :
    checkR1 resourceId row delta newCv = .ok () := by
  rw [hk] at hap
  obtain ⟨units, -, hn⟩ := capacity_applyDelta hc rfl hap
  have ha := (Dict.capacity_eq_some_iff.mp hn).1
  unfold Dict.counter at ha
  split at ha
  · next available hv =>
    cases ha
    simp [checkR1, hk, hv, Value.isNegative, Value.number, Capacity.move, lifted,
      bind, Except.bind, pure, Except.pure]
  · cases ha

def OtherError (error : ResourceError) (_ : ResourceDb) (_ : Nat) : Prop := ¬ error.Violates .r1

theorem ends_constrained {db : ResourceDb} :
    Tx.Ends apply (constrained lock constraints w) db n (fun _ _ _ => True)
      OtherError := by
  unfold constrained
  rw [Tx.ends_query]
  cases (constraints db).find? fun constraint => !constraint.1 with
  | none => trivial
  | some constraint => exact id

theorem ends_writeTransaction {newCv : Dict} {newUtil : UtilizationState} {db : ResourceDb} :
    Tx.Ends apply (writeTransaction clock a row kind delta newCv newUtil) db n
      (fun _ _ _ => True) OtherError := by
  unfold writeTransaction emitStateChange
  simp only [Tx.bind_eq_bind, Tx.bind_assoc]
  refine Tx.ends_bind.mpr (Tx.ends_newId.mpr ?_)
  refine ends_constrained.seq fun _ db _ _ => ends_constrained.seq fun _ db _ _ => ?_
  refine Tx.ends_bind.mpr (Tx.ends_newId.mpr ?_)
  refine ends_constrained.seq fun _ db left _ => ?_
  refine Tx.ends_bind.mpr (Tx.ends_done.mpr ?_)
  refine Tx.ends_bind.mpr (Tx.ends_read.mpr ?_)
  cases db.transactions.get _ with
  | none => exact id
  | some row => trivial

theorem newValues_spend (hc : row.currentValue.capacity = some capacity) (hk : row.kind = .capacity)
    (hv : newValues resourceId row .spend delta = .error error) : ¬ error.Violates .r1 := by
  unfold newValues at hv
  cases ha : applyDelta row.currentValue delta row.kind .spend with
  | error raised =>
    rw [ha] at hv
    cases hv
    exact id
  | ok newCv =>
    rw [ha] at hv
    have hch := checkR1_spend resourceId hc hk ha
    simp only [lifted, bind, Except.bind, hch] at hv
    cases hu : computeUtilization newCv row.kind row.utilizationState with
    | error raised =>
      rw [hu] at hv
      cases hv
      exact id
    | ok newUtil =>
      rw [hu] at hv
      cases hv

theorem not_violates_r1_of_spend (hk : ofText call.args.kind = some .spend)
    (hr : db.state.resources.get call.args.resourceId = some row)
    (hcp : row.kind = .capacity) (hc : row.currentValue.capacity = some capacity) :
    Tx.Ends apply call.program db.state db.supply (fun _ _ _ => True) OtherError := by
  unfold RecordCall.program recordTransaction
  rw [hk]
  cases hd : call.args.delta with
  | object delta =>
    refine Tx.ends_bind.mpr (Tx.ends_readLocking.mpr ?_)
    rw [hr]
    refine Tx.ends_bind.mpr (Tx.ends_done.mpr ?_)
    refine Tx.ends_bind.mpr (Tx.ends_ensure.mpr ⟨fun _ => ?_, fun _ => ?_⟩)
    · refine Tx.ends_bind.mpr (Tx.ends_ofExcept.mpr ?_)
      cases hv : newValues call.args.resourceId row .spend delta with
      | error error => exact newValues_spend hc hcp hv
      | ok values => exact ends_writeTransaction
    · simp [OtherError, ResourceError.Violates]
  | _ => exact id

theorem conserves_iff (hc : ConservedAt resourceId db.state)
    (hre : call.args.resourceId = resourceId) (hm : MovesUnits resourceId db.state call) :
    Conserves resourceId db call ↔ ¬ Overspends resourceId db.state call := by
  constructor
  · rintro hcn ho
    obtain ⟨error, hrs, hv⟩ := hcn.refused ho
    obtain ⟨units, capacity, ha, -⟩ := ho
    obtain ⟨row, capacity, hr, hk, hco, -⟩ := hc
    have he := not_violates_r1_of_spend ha.kind_eq (hre ▸ hr) hk hco
    unfold Tx.Ends at he
    split at he
    · next hx =>
      rw [hx] at hrs
      cases hrs
    · next hx =>
      rw [hx] at hrs
      cases hrs
      exact he hv
  · intro hs
    exact ⟨fun _ _ _ hrt =>
      conservedAt_of_returns hc (fun _ => ⟨hm, hs⟩) hrt,
      fun ho => absurd ho hs⟩

/-- From a balanced capacity every run whose calls stay within it keeps it
balanced, and in each state reached a call that moves units is conserved if and
only if it does not overspend. -/
theorem capacity_conserved {start : Database ResourceDb}
    (hstart : ConservedAt resourceId start.state)
    (hreach : Reach (Database.step apply RecordCall.program) (WithinCapacity resourceId)
      start db) : ConservedAt resourceId db.state ∧
      ∀ call, call.args.resourceId = resourceId → MovesUnits resourceId db.state call →
        (Conserves resourceId db call ↔ ¬ Overspends resourceId db.state call) := by
  have hconserved : ConservedAt resourceId db.state := Database.invariant_of_returns hreach hstart
      fun db call value after left hbefore hwithin hreturns =>
        conservedAt_of_returns hbefore hwithin hreturns
  exact ⟨hconserved, fun call hresource hmoves => conserves_iff hconserved hresource hmoves⟩

def tenUnits : Database ResourceDb where
  state := {
    tenants := [0]
    resources := Table.put ∅ 1
      { tenantId := 0
        kind := .capacity
        currentValue := [("available_units", .int 8), ("deployed_units", .int 2),
          ("total_units", .int 10)]
        lastUpdatedAt := 0 } }
  supply := 0

def spendUnits (units : Int) : RecordCall where
  clock := ⟨5, 5⟩
  args := ⟨1, "spend", .object [("units", .int units)], 5, 7⟩

theorem conservedAt_tenUnits : ConservedAt 1 tenUnits.state :=
  ⟨_, ⟨8, 2, 10⟩, rfl, rfl, rfl, by constructor <;> decide⟩

theorem asks_spendUnits (hu : 0 < units)
    (ha : Asks 1 tenUnits.state (spendUnits units) kind asked capacity) :
    kind = .spend ∧ asked = units ∧ capacity = ⟨8, 2, 10⟩ := by
  obtain ⟨-, hk, ⟨delta, hd, hak⟩, row, hr, hc⟩ := ha
  obtain rfl : spend = kind := Option.some.inj hk
  obtain rfl : [("units", Value.int units)] = delta := Value.object.inj hd
  have hrq : requestedUnits [("units", .int units)] = .ok units := by
    simp [requestedUnits, Dict.getD, Dict.get, Value.orZero, Value.truthy, hu.ne', Value.toInt,
      List.lookup_cons]
  cases hr
  exact ⟨rfl, Except.ok.inj (hak.symm.trans hrq), (Option.some.inj hc).symm⟩

theorem movesUnits_spendUnits (hu : 0 < units) :
    MovesUnits 1 tenUnits.state (spendUnits units) where
  kind := by
    intro kind hk
    obtain rfl : spend = kind := Option.some.inj hk
    rfl
  units := by
    intro kind asked capacity ha
    obtain ⟨-, rfl, -⟩ := asks_spendUnits hu ha
    exact hu.le
  release := by
    intro asked capacity ha
    obtain ⟨hk, -⟩ := asks_spendUnits hu ha
    cases hk

/-- The whole of the available units is spent. -/
theorem capacity_conserved_spend :
    ConservedAt 1 (tenUnits.run apply (spendUnits 8).program).state := by
  have hwithin : WithinCapacity 1 tenUnits (spendUnits 8) := by
    refine fun _ => ⟨movesUnits_spendUnits (by decide), ?_⟩
    rintro ⟨asked, capacity, hasks, hover⟩
    obtain ⟨-, rfl, rfl⟩ := asks_spendUnits (by decide) hasks
    exact absurd hover (by decide)
  exact (capacity_conserved conservedAt_tenUnits (Reach.start.next hwithin rfl)).1

/-- A spend of nine of the eight available units succeeds: of two deployed units
in a total of one, none is available. -/
theorem overspend_accepted :
    ConservedAt 1 tenUnits.state ∧ MovesUnits 1 tenUnits.state (spendUnits 9) ∧
      Overspends 1 tenUnits.state (spendUnits 9) ∧
      (∃ value after left, Tx.Returns apply (spendUnits 9).program tenUnits.state
        tenUnits.supply value after left ∧
        (after.resources.get 1).bind (·.currentValue.capacity) = some ⟨0, 2, 1⟩) ∧
      ¬ Conserves 1 tenUnits (spendUnits 9) := by
  have hmoves : MovesUnits 1 tenUnits.state (spendUnits 9) := movesUnits_spendUnits (by decide)
  have hover : Overspends 1 tenUnits.state (spendUnits 9) :=
    ⟨9, ⟨8, 2, 10⟩, ⟨rfl, rfl, ⟨_, rfl, rfl⟩, _, rfl, rfl⟩, by decide⟩
  have hreturns : ∃ value after left, Tx.Returns apply (spendUnits 9).program
      tenUnits.state tenUnits.supply value after left ∧
      (after.resources.get 1).bind (·.currentValue.capacity) = some ⟨0, 2, 1⟩ := ⟨_, _, _, rfl, rfl⟩
  refine ⟨conservedAt_tenUnits, hmoves, hover, hreturns, fun hconserves => ?_⟩
  exact (conserves_iff conservedAt_tenUnits rfl hmoves).mp hconserves hover

end FyralisCore.Resources
