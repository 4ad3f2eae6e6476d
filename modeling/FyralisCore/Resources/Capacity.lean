import FyralisCore.Resources.Transactions

/-! Capacity conservation. A capacity is three counters; what a transaction does
to them is stated on the counters alone, and `apply_delta` is shown to do that
to the value it stores. -/
namespace FyralisCore.Resources

open Relational Transaction Except Resources.Dict

structure Capacity where
  available : Int
  deployed : Int
  total : Int
  deriving DecidableEq

structure Capacity.Balanced (capacity : Capacity) : Prop where
  available_nonneg : 0 ≤ capacity.available
  deployed_nonneg : 0 ≤ capacity.deployed
  total_nonneg : 0 ≤ capacity.total
  equation : capacity.available + capacity.deployed = capacity.total

def Capacity.move (capacity : Capacity) (kind : TransactionType) (units : Int) : Capacity :=
  match kind with
  | .acquire => { capacity with
      total := capacity.total + units
      available := capacity.available + units }
  | .deploy => { capacity with
      deployed := capacity.deployed + units
      available := capacity.available - units }
  | .release => { capacity with
      deployed := max 0 (capacity.deployed - units)
      available := capacity.available + units }
  | .spend => { capacity with
      total := max 0 (capacity.total - units)
      available := max 0 (capacity.available - units) }
  | .expire => { capacity with available := 0 }
  | .strengthen | .weaken => capacity

def TransactionType.movesUnits : TransactionType → Bool
  | .acquire | .deploy | .release | .spend => true
  | .strengthen | .weaken | .expire => false

variable {kind : TransactionType}

theorem Capacity.Balanced.move {capacity : Capacity} (hb : capacity.Balanced) {units : Int}
    (hk : kind.movesUnits) (hu : 0 ≤ units)
    (hd : kind = .deploy → units ≤ capacity.available)
    (hr : kind = .release → units ≤ capacity.deployed)
    (hs : kind = .spend → units ≤ capacity.available) :
    (capacity.move kind units).Balanced := by
  obtain ⟨ha, hdp, ht, he⟩ := hb
  cases kind with
  | acquire => constructor <;> simp only [Capacity.move] <;> omega
  | deploy =>
    have hro := hd rfl
    constructor <;> simp only [Capacity.move] <;> omega
  | release =>
    have hro := hr rfl
    constructor <;> simp only [Capacity.move] <;> omega
  | spend =>
    have hro := hs rfl
    constructor <;> simp only [Capacity.move] <;> omega
  | strengthen => cases hk
  | weaken => cases hk
  | expire => cases hk

def Dict.counter (dict : Dict) (key : String) : Option Int :=
  match dict.getD key (.int 0) with
  | .int value => some value
  | _ => none

def Dict.capacity (dict : Dict) : Option Capacity :=
  match dict.counter "available_units", dict.counter "deployed_units",
    dict.counter "total_units" with
  | some available, some deployed, some total => some ⟨available, deployed, total⟩
  | _, _, _ => none

theorem Dict.capacity_eq_some_iff {dict : Dict} {capacity : Capacity} :
    dict.capacity = some capacity ↔ dict.counter "available_units" = some capacity.available ∧
      dict.counter "deployed_units" = some capacity.deployed ∧
      dict.counter "total_units" = some capacity.total := by
  unfold Dict.capacity
  obtain ⟨available, deployed, total⟩ := capacity
  cases dict.counter "available_units" <;> cases dict.counter "deployed_units" <;>
    cases dict.counter "total_units" <;> simp

theorem Dict.units_of_counter {dict : Dict}
    (hc : dict.counter key = some value) : dict.units key = .ok value := by
  unfold counter at hc
  unfold units
  split at hc
  · next hv =>
    cases hc
    rw [hv]
    rfl
  · cases hc

theorem Dict.counter_set (dict : Dict) (key other : String) (v : Int) :
    (dict.set key (.int v)).counter other =
      if other = key then some v else dict.counter other := by
  unfold counter getD
  rw [get_set]
  by_cases he : other = key
  · simp [he]
  · simp [he]

def CapacityStored (cv delta newCv : Dict) (units deployed available : Int) : TransactionType → Prop
  | .deploy => newCv = (cv.set "deployed_units" (.int (deployed + units))).set
      "available_units" (.int (available - units))
  | .release => newCv = (cv.set "deployed_units" (.int (max 0 (deployed - units)))).set
      "available_units" (.int (available + units))
  | .acquire => ∃ total, cv.units "total_units" = .ok total ∧
      newCv = (cv.set "total_units" (.int (total + units))).set
        "available_units" (.int (available + units))
  | .spend => ∃ total, cv.units "total_units" = .ok total ∧
      newCv = (cv.set "total_units" (.int (max 0 (total - units)))).set
        "available_units" (.int (max 0 (available - units)))
  | .expire => newCv = cv.set "available_units" (.int 0)
  | .strengthen | .weaken => newCv = cv.update
      (delta.filter fun item => item.1 != "units" && item.1 != "deployed_units")

theorem applyCapacity_eq_ok (ha : applyCapacity cv delta kind = .ok newCv) :
    ∃ units deployed available, requestedUnits delta = .ok units ∧
      cv.units "deployed_units" = .ok deployed ∧ cv.units "available_units" = .ok available ∧
      CapacityStored cv delta newCv units deployed available kind := by
  obtain ⟨units, hu, ha⟩ := bind_eq_ok_iff.mp ha
  obtain ⟨deployed, hdp, ha⟩ := bind_eq_ok_iff.mp ha
  obtain ⟨available, hav, ha⟩ := bind_eq_ok_iff.mp ha
  refine ⟨units, deployed, available, hu, hdp, hav, ?_⟩
  cases kind with
  | acquire =>
    obtain ⟨total, ht, hd⟩ := bind_eq_ok_iff.mp ha
    exact ⟨total, ht, (ok.inj hd).symm⟩
  | spend =>
    obtain ⟨total, ht, hd⟩ := bind_eq_ok_iff.mp ha
    exact ⟨total, ht, (ok.inj hd).symm⟩
  | deploy => exact (ok.inj ha).symm
  | release => exact (ok.inj ha).symm
  | expire => exact (ok.inj ha).symm
  | strengthen => exact (ok.inj ha).symm
  | weaken => exact (ok.inj ha).symm

theorem capacity_applyDelta {delta : Dict} {capacity : Capacity}
    (hc : cv.capacity = some capacity) (hk : kind.movesUnits)
    (ha : applyDelta cv delta .capacity kind = .ok newCv) :
    ∃ units, requestedUnits delta = .ok units ∧
      newCv.capacity = some (capacity.move kind units) := by
  obtain ⟨hav, hd, ht⟩ := capacity_eq_some_iff.mp hc
  obtain ⟨units, deployed, available, hu, hd', hav', hn⟩ := applyCapacity_eq_ok ha
  obtain rfl := ok.inj ((units_of_counter hd).symm.trans hd')
  obtain rfl := ok.inj ((units_of_counter hav).symm.trans hav')
  refine ⟨units, hu, capacity_eq_some_iff.mpr ?_⟩
  cases kind with
  | deploy => subst hn; simp [counter_set, Capacity.move, ht]
  | release => subst hn; simp [counter_set, Capacity.move, ht]
  | acquire =>
    obtain ⟨total, ht', rfl⟩ := hn
    obtain rfl := ok.inj ((units_of_counter ht).symm.trans ht')
    simp [counter_set, Capacity.move, hd]
  | spend =>
    obtain ⟨total, ht', rfl⟩ := hn
    obtain rfl := ok.inj ((units_of_counter ht).symm.trans ht')
    simp [counter_set, Capacity.move, hd]
  | strengthen => cases hk
  | weaken => cases hk
  | expire => cases hk

end FyralisCore.Resources
