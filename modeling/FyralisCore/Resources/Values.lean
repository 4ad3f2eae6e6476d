import FyralisCore.Acts.Goals
import Mathlib.Data.Rat.Floor

/-! The JSON values of resources and the arithmetic of `transactions.py` on them:
`apply_delta` and `compute_utilization`. A JSON number is an integer or a
rational, as the text has a fraction or not. -/
namespace FyralisCore.Resources

open Acts

inductive Value where
  | null
  | bool (value : Bool)
  | int (value : Int)
  | float (value : Rat)
  | text (value : String)
  | array (items : List Value)
  | object (fields : List (String × Value))

abbrev Dict : Type := List (String × Value)

def Dict.get (dict : Dict) (key : String) : Option Value := List.lookup key dict

def Dict.getD (dict : Dict) (key : String) (default : Value) : Value :=
  (dict.get key).getD default

def Dict.set (dict : Dict) (key : String) (value : Value) : Dict :=
  (key, value) :: dict.filter fun item => item.1 != key

def Dict.update (dict items : Dict) : Dict :=
  items.foldl (fun dict item => dict.set item.1 item.2) dict

inductive PyError where
  | typeError
  | valueError
  deriving DecidableEq, Repr

def Value.typeName : Value → String
  | .null => "NoneType"
  | .bool _ => "bool"
  | .int _ => "int"
  | .float _ => "float"
  | .text _ => "str"
  | .array _ => "list"
  | .object _ => "dict"

def Value.truthy : Value → Bool
  | .null => false
  | .bool value => value
  | .int value => value != 0
  | .float value => value != 0
  | .text value => value != ""
  | .array items => !items.isEmpty
  | .object fields => !fields.isEmpty

def Value.orZero (value : Value) : Value := if value.truthy then value else .int 0

def Value.number : Value → Option Rat
  | .bool value => some (if value then 1 else 0)
  | .int value => some value
  | .float value => some value
  | _ => none

/-- `int` of a fraction, toward zero. -/
def truncate (value : Rat) : Int := if value < 0 then ⌈value⌉ else ⌊value⌋

/-- The zeros of the decimal digits, one for each script. -/
def digitZeros : List Nat :=
  [0x30, 0x660, 0x6f0, 0x7c0, 0x966, 0x9e6, 0xa66, 0xae6, 0xb66, 0xbe6, 0xc66, 0xce6, 0xd66, 0xde6,
    0xe50, 0xed0, 0xf20, 0x1040, 0x1090, 0x17e0, 0x1810, 0x1946, 0x19d0, 0x1a80, 0x1a90, 0x1b50,
    0x1bb0, 0x1c40, 0x1c50, 0xa620, 0xa8d0, 0xa900, 0xa9d0, 0xa9f0, 0xaa50, 0xabf0, 0xff10, 0x104a0,
    0x10d30, 0x11066, 0x110f0, 0x11136, 0x111d0, 0x112f0, 0x11450, 0x114d0, 0x11650, 0x116c0,
    0x11730, 0x118e0, 0x11950, 0x11c50, 0x11d50, 0x11da0, 0x16a60, 0x16ac0, 0x16b50, 0x1d7ce,
    0x1d7d8, 0x1d7e2, 0x1d7ec, 0x1d7f6, 0x1e140, 0x1e2f0, 0x1e950, 0x1fbf0]

def digitValue (char : Char) : Option Nat :=
  (digitZeros.find? fun start => start ≤ char.toNat && char.toNat < start + 10).map (char.toNat - ·)

/-- White space to `int`, which takes the separators of ASCII for none. -/
def isLiteralSpace (char : Char) : Bool :=
  isSpaceChar char && !(0x1c ≤ char.toNat && char.toNat ≤ 0x1f)

/-- A Python decimal literal: spaces around it, a sign, digits with single
underscores between them. -/
def intLiteral (text : String) : Option Int :=
  let trimmed := (text.toList.dropWhile isLiteralSpace).reverse.dropWhile isLiteralSpace |>.reverse
  let (negative, digits) := match trimmed with
    | '-' :: rest => (true, rest)
    | '+' :: rest => (false, rest)
    | rest => (false, rest)
  let groups := digits.splitOn '_'
  if groups.all (fun group => !group.isEmpty && group.all fun char => (digitValue char).isSome) then
    let value : Int := (groups.flatten.filterMap digitValue).foldl (10 * · + ·) (0 : Nat)
    some (if negative then -value else value)
  else none

def Value.toInt : Value → Except PyError Int
  | .bool value => .ok (if value then 1 else 0)
  | .int value => .ok value
  | .float value => .ok (truncate value)
  | .text value => (intLiteral value).elim (.error .valueError) .ok
  | _ => .error .typeError

def Value.abs : Value → Except PyError Value
  | .bool value => .ok (.int (if value then 1 else 0))
  | .int value => .ok (.int |value|)
  | .float value => .ok (.float |value|)
  | _ => .error .typeError

/-- `-value`, of what `abs` returns. -/
def Value.negate : Value → Value
  | .int value => .int (-value)
  | .float value => .float (-value)
  | value => value

def Value.isNegative (value : Value) : Except PyError Bool :=
  value.number.elim (.error .typeError) fun number => .ok (number < 0)

/-- `isinstance(value, (int, float)) and value > 0` -/
def Value.isPositive (value : Value) : Bool :=
  value.number.any fun number => 0 < number

def Value.exceeds : Value → Value → Except PyError Bool
  | .text first, .text second => .ok (second < first)
  | first, second =>
    match first.number, second.number with
    | some first, some second => .ok (second < first)
    | _, _ => .error .typeError

def kindText : ResourceKind → String
  | .financial => "financial"
  | .ip => "ip"
  | .relational => "relational"
  | .capacity => "capacity"
  | .infrastructure => "infrastructure"
  | .regulatory => "regulatory"

inductive TransactionType where
  | acquire | deploy | release | spend | strengthen | weaken | expire
  deriving DecidableEq, Repr

def TransactionType.text : TransactionType → String
  | .acquire => "acquire"
  | .deploy => "deploy"
  | .release => "release"
  | .spend => "spend"
  | .strengthen => "strengthen"
  | .weaken => "weaken"
  | .expire => "expire"

def TransactionType.all : List TransactionType :=
  [.acquire, .deploy, .release, .spend, .strengthen, .weaken, .expire]

def TransactionType.ofText (text : String) : Option TransactionType :=
  TransactionType.all.find? (·.text == text)

def strengthLadder : List String := ["at_risk", "weakening", "moderate", "strong"]

/-- `STRENGTH_LADDER.index(value)` -/
def ladderIndex (value : Value) : Except PyError Int :=
  match value with
  | .text value =>
    if value ∈ strengthLadder then .ok (strengthLadder.idxOf value) else .error .valueError
  | _ => .error .valueError

/-- `STRENGTH_LADDER[max(0, min(len(STRENGTH_LADDER) - 1, index))]` -/
def ladderAt (index : Int) : Value :=
  .text (strengthLadder.getD (max 0 (min 3 index)).toNat "")

/-! ### `apply_delta` -/

/-- `int(delta.get("deployed_units", delta.get("units", 0)) or 0)` -/
def requestedUnits (delta : Dict) : Except PyError Int :=
  (delta.getD "deployed_units" (delta.getD "units" (.int 0))).orZero.toInt

/-- `int(cv.get(key, 0))` -/
def Dict.units (dict : Dict) (key : String) : Except PyError Int :=
  (dict.getD key (.int 0)).toInt

section

variable (cv delta : Dict) (txType : TransactionType)

def applyFinancial : Except PyError Dict := do
  let amount := delta.getD "amount_cents" (.int 0)
  let others := delta.filter fun item => item.1 != "amount_cents"
  let amount ← match txType with
    | .spend => if amount.number = some 0 then .ok (.int 0) else amount.abs.map Value.negate
    | .release | .acquire => if amount.number = some 0 then .ok (.int 0) else amount.abs
    | _ => .ok amount
  match txType with
  | .strengthen | .weaken | .expire => return cv.update others
  | _ =>
    let before ← cv.units "amount_cents"
    let moved ← amount.toInt
    return (cv.set "amount_cents" (.int (before + moved))).update others

def applyCapacity : Except PyError Dict := do
  let units ← requestedUnits delta
  let deployed ← cv.units "deployed_units"
  let available ← cv.units "available_units"
  match txType with
  | .deploy =>
    return (cv.set "deployed_units" (.int (deployed + units))).set "available_units"
      (.int (available - units))
  | .release =>
    return (cv.set "deployed_units" (.int (max 0 (deployed - units)))).set "available_units"
      (.int (available + units))
  | .acquire =>
    let total ← cv.units "total_units"
    return (cv.set "total_units" (.int (total + units))).set "available_units"
      (.int (available + units))
  | .spend =>
    let total ← cv.units "total_units"
    return (cv.set "total_units" (.int (max 0 (total - units)))).set "available_units"
      (.int (max 0 (available - units)))
  | .expire => return cv.set "available_units" (.int 0)
  | .strengthen | .weaken =>
    return cv.update (delta.filter fun item => item.1 != "units" && item.1 != "deployed_units")

def applyRelational : Except PyError Dict := do
  let cv ← match delta.getD "strength_delta" .null, txType with
    | .null, .strengthen => do
      let current ← ladderIndex (cv.getD "strength" (.text "moderate"))
      pure (cv.set "strength" (ladderAt (current + 1)))
    | .null, .weaken => do
      let current ← ladderIndex (cv.getD "strength" (.text "moderate"))
      pure (cv.set "strength" (ladderAt (current - 1)))
    | .null, _ => pure cv
    | shift, _ => do
      let current ← ladderIndex (cv.getD "strength" (.text "moderate"))
      let shift ← shift.toInt
      pure (cv.set "strength" (ladderAt (current + shift)))
  let cv ← match delta.getD "arr_delta_cents" .null with
    | .null => pure cv
    | shift => do
      let before ← cv.units "arr_cents"
      let shift ← shift.toInt
      pure (cv.set "arr_cents" (.int (before + shift)))
  return cv.update
    (delta.filter fun item => item.1 != "strength_delta" && item.1 != "arr_delta_cents")

end

def applyDelta (cv delta : Dict) (kind : ResourceKind) (txType : TransactionType) :
    Except PyError Dict :=
  match kind with
  | .financial => applyFinancial cv delta txType
  | .capacity => applyCapacity cv delta txType
  | .relational => applyRelational cv delta txType
  | .ip | .infrastructure | .regulatory =>
    let merged := cv.update delta
    .ok (if txType = .expire then merged.set "expired" (.bool true) else merged)

/-! ### `compute_utilization` -/

inductive UtilizationState where
  | available | deployed | committed | depleted | expired
  deriving DecidableEq, Repr

def UtilizationState.text : UtilizationState → String
  | .available => "available"
  | .deployed => "deployed"
  | .committed => "committed"
  | .depleted => "depleted"
  | .expired => "expired"

def computeUtilization (cv : Dict) (kind : ResourceKind) (current : UtilizationState) :
    Except PyError UtilizationState :=
  match kind with
  | .capacity => do
    let deployed ← cv.units "deployed_units"
    let total ← cv.units "total_units"
    if total ≤ 0 then return if 0 < deployed then .depleted else .available
    else if total ≤ deployed then return .depleted
    else if 0 < deployed then return .deployed
    else return .available
  | _ => .ok current

variable (dict : Dict) (key other : String) (value : Value)

theorem Dict.get_set :
    (dict.set key value).get other = if other = key then some value else dict.get other := by
  unfold Dict.get Dict.set
  by_cases he : other = key
  · simp [he]
  · have hb : (other == key) = false := by simpa using he
    simp only [he, if_false, List.lookup_cons, hb]
    induction dict with
    | nil => rfl
    | cons item rest ih =>
      obtain ⟨name, held⟩ := item
      by_cases hi : name = key
      · simp [hi, List.lookup_cons, ih, hb]
      · simp [hi, List.lookup_cons, ih]

@[simp] theorem Dict.units_set_self (number : Int) :
    (dict.set key (.int number)).units key = .ok number := by
  simp [Dict.units, Dict.getD, Dict.get_set, Value.toInt]

theorem Dict.units_set_ne (hn : other ≠ key) :
    (dict.set key value).units other = dict.units other := by
  simp [Dict.units, Dict.getD, Dict.get_set, hn]

theorem truncate_mono (hl : first ≤ second) : truncate first ≤ truncate second := by
  unfold truncate
  by_cases h1 : first < 0
  · rw [if_pos h1]
    by_cases h2 : second < 0
    · rw [if_pos h2]
      exact Int.ceil_mono hl
    · rw [if_neg h2]
      have hc : ⌈first⌉ ≤ 0 := Int.ceil_le.mpr (by push_cast; exact h1.le)
      exact hc.trans (Int.floor_nonneg.mpr (not_lt.mp h2))
  · rw [if_neg h1, if_neg (not_lt.mpr ((not_lt.mp h1).trans hl))]
    exact Int.floor_mono hl

theorem truncate_nonneg {value : Rat} (hv : 0 ≤ value) : 0 ≤ truncate value := by
  rw [truncate, if_neg (not_lt.mpr hv)]
  exact Int.floor_nonneg.mpr hv

theorem Value.toInt_of_number {value : Value} {number : Rat}
    (hn : value.number = some number) : value.toInt = .ok (truncate number) := by
  cases value with
  | bool value => cases value <;> cases hn <;> rfl
  | int value =>
    cases hn
    simp [Value.toInt, truncate]
  | float value =>
    cases hn
    rfl
  | _ => cases hn

theorem Value.number_of_isPositive {value : Value} (hp : value.isPositive) :
    ∃ number, value.number = some number ∧ 0 < number := by
  unfold Value.isPositive at hp
  cases hn : value.number with
  | none => simp [hn] at hp
  | some number => exact ⟨number, rfl, by simpa [hn] using hp⟩

theorem Value.exceeds_eq_false {first : Value} {number : Rat}
    (hn : second.number = some number) (he : first.exceeds second = .ok false) :
    ∃ other, first.number = some other ∧ other ≤ number := by
  unfold Value.exceeds at he
  split at he
  · cases hn
  · split at he
    · next other number' h1 h2 =>
      cases hn.symm.trans h2
      exact ⟨other, h1, by simpa using he⟩
    · cases he

end FyralisCore.Resources
