import FyralisCore.Acts.Goals
import FyralisCore.Models.Insert

/-! The adequacy of a falsifier (`falsifier.py`): the grammar of its window and the
rules of its five kinds. -/
namespace FyralisCore.Models

open Acts (stripped Json)

structure FalsifierRules where
  /-- `datetime.fromisoformat`, in UTC when it names no zone. -/
  fromIsoformat : String → Option Nat
  /-- `str` of a value that is no text. -/
  str : Json → String
  /-- `unicodedata.decimal`, the value of a character that `\d` matches. -/
  decimal : Char → Option Nat
  /-- The double nearest to a number; infinity is `none`. -/
  float : Rat → Option Rat

/-- ASCII digits, and numbers that doubles hold exactly. -/
def asciiRules : FalsifierRules where
  fromIsoformat _ := none
  str _ := ""
  decimal char := if char.isDigit then some (char.toNat - '0'.toNat) else none
  float := some

inductive FalsifierError where
  | malformed (message : String)
  | overflow
  | unhashable
  | key
  deriving DecidableEq, Repr

section Windows

variable (rules : FalsifierRules)

/-- A number of a window: the digits of `\d+(?:\.\d+)?`. -/
structure WindowNumber where
  whole : List Char
  fraction : List Char
  deriving DecidableEq

def FalsifierRules.isDigit (char : Char) : Bool := (rules.decimal char).isSome

def digitsValue (digits : List Char) : Nat :=
  digits.foldl (fun value digit => 10 * value + (rules.decimal digit).getD 0) 0

def WindowNumber.value (number : WindowNumber) : Rat :=
  digitsValue rules number.whole +
    digitsValue rules number.fraction / (10 : Rat) ^ number.fraction.length

/-- `\d+(?:\.\d+)?` at the start of the text. -/
def windowNumber (text : List Char) : Option (WindowNumber × List Char) :=
  let whole := text.takeWhile rules.isDigit
  let rest := text.dropWhile rules.isDigit
  if whole = [] then none
  else
    match rest with
    | '.' :: after =>
      let fraction := after.takeWhile rules.isDigit
      if fraction = [] then some (⟨whole, []⟩, rest)
      else some (⟨whole, fraction⟩, after.dropWhile rules.isDigit)
    | _ => some (⟨whole, []⟩, rest)

/-- `(?:(\d+(?:\.\d+)?)U)?` for the letter of a unit. -/
def windowComponent (unit : Char) (text : List Char) : Option WindowNumber × List Char :=
  match windowNumber rules text with
  | some (number, letter :: rest) => if letter = unit then (some number, rest) else (none, text)
  | _ => (none, text)

def windowComponents : List Char → List Char → List (Option WindowNumber) × List Char
  | [], text => ([], text)
  | unit :: units, text =>
    let (number, text) := windowComponent rules unit text
    let (numbers, text) := windowComponents units text
    (number :: numbers, text)

def secondsPerMinute : Rat := 60
def secondsPerHour : Rat := 3600
def secondsPerDay : Rat := 86400

/-- `_HUMAN_UNIT_SECONDS` with the aliases, in the order of `_HUMAN_WINDOW_RE`. -/
def humanUnits : List (String × Rat) :=
  [("second", 1), ("sec", 1), ("minute", secondsPerMinute), ("min", secondsPerMinute),
    ("hour", secondsPerHour), ("hr", secondsPerHour), ("day", secondsPerDay),
    ("week", 7 * secondsPerDay), ("month", 30 * secondsPerDay), ("year", 365 * secondsPerDay),
    ("yr", 365 * secondsPerDay)]

def compactUnits : List (String × Rat) :=
  [("s", 1), ("m", secondsPerMinute), ("h", secondsPerHour), ("d", secondsPerDay),
    ("w", 7 * secondsPerDay), ("y", 365 * secondsPerDay)]

/-- `str.lower` where it gives one ASCII letter: also for the Kelvin sign. -/
def lowerCase (char : Char) : Char := if char = '\u212a' then 'k' else char.toLower

/-- The letter as which `re.IGNORECASE` takes a character. -/
def foldCase (char : Char) : Char :=
  if char = 'ſ' then 's' else if char = 'ı' ∨ char = 'İ' then 'i' else lowerCase char

def upperCase (char : Char) : Char :=
  if char = 'ſ' then 'S' else char.toUpper

def roundHalfEven (number : Rat) : Int :=
  let twice := 2 * (number - number.floor)
  if twice < 1 ∨ (twice = 1 ∧ number.floor % 2 = 0) then number.floor else number.floor + 1

def microseconds (seconds : Rat) : Option Int :=
  (rules.float (1000000 * (seconds - seconds.floor))).map fun micros =>
    roundHalfEven (1000000 * seconds.floor + micros)

/-- `timedelta(seconds=total)`; it has less than a thousand million days. -/
def timedelta (total : Option Rat) : Except FalsifierError Rat :=
  match total.bind (microseconds rules) with
  | none => .error .overflow
  | some micros =>
    if 1000000000 * 86400 * 1000000 ≤ micros then .error .overflow else .ok (micros / 1000000)

/-- The window of a total, which has to be positive. -/
def windowOf (total : Option Rat) : Except FalsifierError Rat :=
  if total.any (· ≤ 0) then .error (.malformed "resolves to non-positive duration")
  else timedelta rules total

def timesUnit (number : Option WindowNumber) (unit : Rat) : Option Rat :=
  match number with
  | none => some 0
  | some number => (rules.float (number.value rules)).bind fun count => rules.float (count * unit)

def addFloat (x y : Option Rat) : Option Rat :=
  x.bind fun x => y.bind fun y => rules.float (x + y)

/-- The components of `_ISO_DURATION_RE` after the `P`. -/
structure IsoDuration where
  date : List (Option WindowNumber)
  marked : Bool
  time : List (Option WindowNumber)
  deriving DecidableEq

def dateUnits : List Char := ['Y', 'M', 'W', 'D']
def timeUnits : List Char := ['H', 'M', 'S']

def windowMarker : List Char → Bool × List Char
  | 'T' :: rest => (true, rest)
  | text => (false, text)

/-- Match `_ISO_DURATION_RE` on an upper-case text without the `P`. -/
def isoDuration (text : List Char) : Option IsoDuration :=
  let (date, text) := windowComponents rules dateUnits text
  let (marked, text) := windowMarker text
  let (time, text) := windowComponents rules timeUnits text
  if text = [] then some { date, marked, time } else none

def isoUnitSeconds : List Rat :=
  [365 * secondsPerDay, 30 * secondsPerDay, 7 * secondsPerDay, secondsPerDay, secondsPerHour,
    secondsPerMinute, 1]

def IsoDuration.total (duration : IsoDuration) : Option Rat :=
  match List.zipWith (timesUnit rules) (duration.date ++ duration.time) isoUnitSeconds with
  | [] => some 0
  | first :: rest => rest.foldl (addFloat rules) first

def isoWindow (text : List Char) : Except FalsifierError Rat :=
  match isoDuration rules (text.map upperCase) with
  | none => .error (.malformed "starts with 'P' but is not a valid ISO-8601 duration")
  | some duration =>
    if (duration.date ++ duration.time).all Option.isNone then
      .error (.malformed "has no duration components")
    else if duration.marked ∧ duration.time.all Option.isNone then
      .error (.malformed "has 'T' separator with no time components")
    else windowOf rules (duration.total rules)

/-- `_COMPACT_WINDOW_RE`: the number and the unit as it is written. -/
def compactWindow (text : List Char) : Option (WindowNumber × List Char) :=
  match windowNumber rules text with
  | some (number, [letter]) =>
    if (compactUnits.lookup (foldCase letter).toString).isSome then some (number, [letter])
    else none
  | _ => none

/-- `(?:\s+period)?` and the end. -/
def endsWindow (text : List Char) : Bool :=
  text = [] ||
    (text.head?.any Acts.isSpaceChar && text.dropWhile Acts.isSpaceChar = "period".toList)

def afterWord (word : String) (text : List Char) : Option (List Char) :=
  if word.toList.isPrefixOf text then some (text.drop word.length) else none

/-- The text without `(?:any\s+)?`. -/
def afterAny (text : List Char) : List Char :=
  match afterWord "any" (text.map foldCase) with
  | some _ =>
    let rest := text.drop 3
    if rest.head?.any Acts.isSpaceChar then rest.dropWhile Acts.isSpaceChar else text
  | none => text

/-- `_HUMAN_WINDOW_RE`: the number and the unit as it is written. -/
def humanWindow (text : List Char) : Option (WindowNumber × List Char) :=
  match windowNumber rules (afterAny text) with
  | none => none
  | some (number, rest) =>
    let rest := match rest with
      | separator :: after => if separator = '-' ∨ separator = ' ' then after else rest
      | [] => rest
    (humanUnits.find? fun unit =>
      (afterWord unit.1 (rest.map foldCase)).any fun after =>
        endsWindow after || (afterWord "s" after).any endsWindow).map
          fun unit => (number, rest.take unit.1.length)

/-- The entry of a unit under its lower-case spelling. -/
def unitSeconds (unit : List Char) : Except FalsifierError Rat :=
  match (compactUnits ++ humanUnits).lookup (String.ofList (unit.map lowerCase)) with
  | some seconds => .ok seconds
  | none => .error .key

def windowOfText (text : String) : Except FalsifierError (Option Rat) :=
  match stripped text with
  | [] => .ok none
  | first :: rest =>
    if first = 'P' ∨ first = 'p' then (isoWindow rules rest).map some
    else
      match (compactWindow rules (first :: rest)).or (humanWindow rules (first :: rest)) with
      | some (number, unit) =>
        (unitSeconds unit).bind fun seconds =>
          (windowOf rules (timesUnit rules (some number) seconds)).map some
      | none => .error (.malformed "does not match either grammar")

def parseWithinWindow : Json → Except FalsifierError (Option Rat)
  | .null => .ok none
  | .string text => windowOfText rules text
  | _ => .error (.malformed "within_window must be a string")

end Windows

def typeName : Json → String
  | .null => "NoneType"
  | .bool _ => "bool"
  | .number literal =>
    if literal.toList.any fun character => character = '.' ∨ character = 'e' ∨ character = 'E' then
      "float" else "int"
  | .string _ => "str"
  | .array _ => "list"
  | .object _ => "dict"

inductive FalsifierKind where
  | observationPattern
  | commitmentOutcome
  | predictionDeadline
  | resourceThreshold
  | explicitContestation
  deriving DecidableEq, Repr

def FalsifierKind.text : FalsifierKind → String
  | .observationPattern => "observation_pattern"
  | .commitmentOutcome => "commitment_outcome"
  | .predictionDeadline => "prediction_deadline"
  | .resourceThreshold => "resource_threshold"
  | .explicitContestation => "explicit_contestation"

def FalsifierKind.ofText (text : String) : Option FalsifierKind :=
  [FalsifierKind.observationPattern, .commitmentOutcome, .predictionDeadline, .resourceThreshold,
    .explicitContestation].find? (·.text == text)

/-- `falsifier.get(key)` when it counts as true. -/
def given (falsifier : Json) (key : String) : Option Json :=
  (field key falsifier).filter truthy

/-- The answer of `is_adequate_falsifier`: the reason why not, if it is not. -/
abbrev Adequacy : Type := Except FalsifierError (Option String)

section

variable (rules : FalsifierRules)

def checkWindow (window : Json) : Adequacy :=
  (parseWithinWindow rules window).map fun _ => none

def observationPattern (falsifier : Json) : Adequacy :=
  match field "pattern" falsifier with
  | some (.string pattern) =>
    if pattern.length < 20 then .ok (some "pattern too vague")
    else
      match given falsifier "within_window" with
      | none => .ok (some "no window specified")
      | some window => checkWindow rules window
  | _ => .ok (some "pattern too vague")

def commitmentOutcome (falsifier : Json) : Adequacy :=
  if (given falsifier "commitment_ref").isNone then .ok (some "no commitment reference")
  else
    match field "contradicting_state" falsifier with
    | none | some .null | some (.array []) | some (.string "") =>
      .ok (some "no contradicting state")
    | some _ => .ok none

def evaluateAt (falsifier : Json) : Option Nat :=
  match field "evaluate_at" falsifier with
  | some (.string text) => rules.fromIsoformat (text.replace "Z" "+00:00")
  | _ => none

def predictionDeadline (now : Nat) (falsifier : Json) : Adequacy :=
  match evaluateAt rules falsifier with
  | none => .ok (some "no evaluate_at time")
  | some time =>
    if time < now then .ok (some "evaluate_at in past")
    else if (given falsifier "check").isNone then .ok (some "no check specification")
    else .ok none

def resourceThreshold (falsifier : Json) : Adequacy :=
  if (given falsifier "resource_ref").isNone then .ok (some "no resource reference")
  else if (given falsifier "threshold").isNone then .ok (some "no threshold")
  else .ok none

def explicitContestation (falsifier : Json) : Adequacy :=
  match field "contesting_actors" falsifier with
  | some (.array (_ :: _)) =>
    match given falsifier "within_window" with
    | none => .ok none
    | some window => checkWindow rules window
  | _ => .ok (some "no contesting actors")

def falsifierKind (falsifier : Json) : Except FalsifierError (String ⊕ FalsifierKind) :=
  match given falsifier "kind" with
  | none => .ok (.inl "falsifier missing 'kind' field")
  | some (.string kind) =>
    match FalsifierKind.ofText kind with
    | some legal => .ok (.inr legal)
    | none => .ok (.inl ("unknown falsifier kind: " ++ kind))
  | some (.array _) | some (.object _) => .error .unhashable
  | some kind => .ok (.inl ("unknown falsifier kind: " ++ rules.str kind))

def FalsifierKind.check (now : Nat) (falsifier : Json) : FalsifierKind → Adequacy
  | .observationPattern => Models.observationPattern rules falsifier
  | .commitmentOutcome => Models.commitmentOutcome falsifier
  | .predictionDeadline => Models.predictionDeadline rules now falsifier
  | .resourceThreshold => Models.resourceThreshold falsifier
  | .explicitContestation => Models.explicitContestation rules falsifier

def isAdequateFalsifier (now : Nat) : Option Json → Adequacy
  | none | some .null => .ok (some "no falsifier specified")
  | some (.object fields) => do
    match ← falsifierKind rules (.object fields) with
    | .inl reason => return some reason
    | .inr kind => kind.check rules now (.object fields)
  | some other => .ok (some ("falsifier must be dict; got " ++ typeName other))

def Accepted (now : Nat) (falsifier : Option Json) : Prop :=
  isAdequateFalsifier rules now falsifier = .ok none

def DeadlinePassed (now : Nat) (falsifier : Option Json) : Prop :=
  ∃ value time, falsifier = some value ∧
    falsifierKind rules value = .ok (.inr .predictionDeadline) ∧
      evaluateAt rules value = some time ∧ time < now

end

variable {rules : FalsifierRules} {now since : Nat} {falsifier : Option Json}

instance : Decidable (Accepted rules now falsifier) :=
  inferInstanceAs (Decidable (_ = _))

theorem FalsifierKind.check_eq {kind : FalsifierKind} (hk : kind ≠ .predictionDeadline)
    (value : Json) : kind.check rules now value = kind.check rules since value := by
  cases kind <;> first | rfl | exact absurd rfl hk

theorem predictionDeadline_stays (hac : predictionDeadline rules now v = .ok none)
    (ha : ∀ time, evaluateAt rules v = some time → since ≤ time) :
    predictionDeadline rules since v = .ok none := by
  unfold predictionDeadline at hac ⊢
  cases ht : evaluateAt rules v with
  | none => simp [ht] at hac
  | some time =>
    have hn : ¬ time < since := Nat.not_lt.mpr (ha time ht)
    simp only [ht] at hac
    split at hac
    · simp at hac
    · simpa [hn] using hac

theorem Accepted.stays (ha : Accepted rules now falsifier)
    (hp : ¬ DeadlinePassed rules since falsifier) : Accepted rules since falsifier := by
  unfold Accepted at *
  match falsifier with
  | some (.object fields) =>
    unfold isAdequateFalsifier at *
    cases hk : falsifierKind rules (.object fields) with
    | error error => simp [hk, bind, Except.bind] at ha
    | ok found =>
      cases found with
      | inl reason => simp [hk, bind, Except.bind, pure, Except.pure] at ha
      | inr kind =>
        simp only [hk, bind, Except.bind] at ha ⊢
        by_cases hd : kind = .predictionDeadline
        · subst hd
          refine predictionDeadline_stays ha fun time ht => Nat.not_lt.mp fun hl => ?_
          exact hp ⟨_, time, rfl, hk, ht, hl⟩
        · rw [FalsifierKind.check_eq hd]
          exact ha
  | none | some .null | some (.bool _) | some (.number _) | some (.string _) | some (.array _) =>
    simp [isAdequateFalsifier] at ha

end FyralisCore.Models
