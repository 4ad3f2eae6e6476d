import Mathlib.Data.Nat.Bitwise
import Mathlib.Data.Prod.Lex

/-! UUID v7 (`lib/shared/ids.py`): the identifiers that the calls of one process return,
in the order of the calls. -/
namespace FyralisCore.Shared.Ids

open List

structure Globals where
  lastMs : Nat := 0
  lastCounter : Nat := 0
  deriving DecidableEq

inductive ValueError where
  | outOfRange (timestampMs : Nat)
  | notA128BitValue
  deriving DecidableEq

def uuidOfInt (value : Nat) : Except ValueError Nat :=
  if value < 2 ^ 128 then .ok value else .error .notA128BitValue

/-- [48 ms | 4 ver | 12 counter | 2 variant | 62 rand] -/
def assemble (ms counter rand : Nat) : Nat :=
  0 ||| ms <<< 80 ||| 0x7 <<< 76 ||| counter <<< 64 ||| 0x2 <<< 62 ||| rand

/-- `uuid7` with the clock reading `ms` and the random bits `rand`. -/
def uuid7 (ms rand : Nat) (globals : Globals) : Except ValueError Nat × Globals :=
  if ms ≥ 2 ^ 48 then (.error (.outOfRange ms), globals)
  else
    let (ms, globals) : Nat × Globals :=
      if ms = globals.lastMs then
        let counter := globals.lastCounter + 1
        if counter ≥ 2 ^ 12 then (ms + 1, ⟨ms + 1, 0⟩) else (ms, ⟨globals.lastMs, counter⟩)
      else (ms, ⟨ms, 0⟩)
    (uuidOfInt (assemble ms globals.lastCounter rand), globals)

def uuid7Calls : Globals → List (Nat × Nat) → List (Except ValueError Nat)
  | _, [] => []
  | globals, (ms, rand) :: rest =>
    (uuid7 ms rand globals).1 :: uuid7Calls (uuid7 ms rand globals).2 rest

/-- `extract_timestamp_ms`, with the counter below it. -/
def prefixOf (id : Nat) : Nat ×ₗ Nat := toLex (id >>> 80, (id >>> 64) % 2 ^ 12)

def IsUuid7 (id : Nat) : Prop := id < 2 ^ 128 ∧ (id >>> 76) % 16 = 7 ∧ (id >>> 62) % 4 = 2

/-- Every call returns a UUID, and the prefixes go up. -/
def Ascending (results : List (Except ValueError Nat)) : Prop :=
  ∃ ids : List Nat, results = ids.map .ok ∧ (∀ id ∈ ids, IsUuid7 id) ∧
    (ids.map prefixOf).Pairwise (· < ·)

/-- The clock has not been overtaken by a wrap, and does not wrap at its last value. -/
def Timely (ms : Nat) (globals : Globals) : Prop :=
  globals.lastMs ≤ ms ∧ ¬ (ms = globals.lastMs ∧ ms + 1 = 2 ^ 48 ∧ globals.lastCounter + 1 = 2 ^ 12)

instance (ms : Nat) (globals : Globals) : Decidable (Timely ms globals) :=
  inferInstanceAs (Decidable (_ ∧ _))

def AllTimely : Globals → List (Nat × Nat) → Prop
  | _, [] => True
  | globals, (ms, rand) :: rest => Timely ms globals ∧ AllTimely (uuid7 ms rand globals).2 rest

variable {ms counter rand : Nat} {globals : Globals}

theorem assemble_eq (hc : counter < 2 ^ 12) (hr : rand < 2 ^ 62) :
    assemble ms counter rand = ms * 2 ^ 80 + 7 * 2 ^ 76 + counter * 2 ^ 64 + 2 ^ 63 + rand := by
  have hv : 0x2 <<< 62 ||| rand = 2 ^ 63 + rand := by
    rw [← Nat.shiftLeft_add_eq_or_of_lt hr, Nat.shiftLeft_eq]
    omega
  have hl : counter <<< 64 ||| (2 ^ 63 + rand) = counter * 2 ^ 64 + (2 ^ 63 + rand) := by
    rw [← Nat.shiftLeft_add_eq_or_of_lt (by omega), Nat.shiftLeft_eq]
  have hvr : 0x7 <<< 76 ||| (counter * 2 ^ 64 + (2 ^ 63 + rand)) =
      7 * 2 ^ 76 + (counter * 2 ^ 64 + (2 ^ 63 + rand)) := by
    rw [← Nat.shiftLeft_add_eq_or_of_lt (by omega), Nat.shiftLeft_eq]
  rw [assemble, Nat.zero_or, Nat.or_assoc, Nat.or_assoc, Nat.or_assoc, hv, hl, hvr,
    ← Nat.shiftLeft_add_eq_or_of_lt (by omega), Nat.shiftLeft_eq]
  omega

theorem prefixOf_assemble (ms : Nat) (hc : counter < 2 ^ 12) (hr : rand < 2 ^ 62) :
    prefixOf (assemble ms counter rand) = toLex (ms, counter) := by
  rw [prefixOf, assemble_eq hc hr, Nat.shiftRight_eq_div_pow, Nat.shiftRight_eq_div_pow]
  congr 2 <;> omega

theorem isUuid7_assemble (hc : counter < 2 ^ 12) (hr : rand < 2 ^ 62)
    (hm : ms < 2 ^ 48) : IsUuid7 (assemble ms counter rand) := by
  rw [IsUuid7, assemble_eq hc hr, Nat.shiftRight_eq_div_pow, Nat.shiftRight_eq_div_pow]
  omega

def Globals.stamp (globals : Globals) : Nat ×ₗ Nat := toLex (globals.lastMs, globals.lastCounter)

/-- A call moves the globals and returns the identifier that they stand for. -/
theorem uuid7_spec (rand : Nat) (hm : ms < 2 ^ 48) (hc : globals.lastCounter < 2 ^ 12) :
    let next := (uuid7 ms rand globals).2
    next.lastCounter < 2 ^ 12 ∧
      (uuid7 ms rand globals).1 = uuidOfInt (assemble next.lastMs next.lastCounter rand) ∧
      (next.lastMs < 2 ^ 48 ∧ globals.stamp < next.stamp ↔ Timely ms globals) := by
  have hi : ¬ ms ≥ 2 ^ 48 := by omega
  simp only [uuid7, hi, if_false, Globals.stamp, Timely, Prod.Lex.toLex_lt_toLex]
  split
  · split
    · refine ⟨by simp, rfl, ?_⟩
      dsimp only
      omega
    · refine ⟨by dsimp only; omega, ?_, ?_⟩
      · simp_all
      · dsimp only
        omega
  · refine ⟨by simp, rfl, ?_⟩
    dsimp only
    omega

theorem uuidOfInt_eq_ok {id : Nat} : uuidOfInt v = .ok id ↔ v < 2 ^ 128 ∧ v = id := by
  unfold uuidOfInt
  split <;> simp_all

/-- The identifiers of a run go up from where the globals stood. -/
def AscendingFrom (globals : Globals) (results : List (Except ValueError Nat)) : Prop :=
  ∃ ids : List Nat, results = ids.map .ok ∧ (∀ id ∈ ids, IsUuid7 id) ∧
    (globals.stamp :: ids.map prefixOf).Pairwise (· < ·)

theorem ascendingFrom_calls (hc : ∀ call ∈ calls, call.1 < 2 ^ 48 ∧ call.2 < 2 ^ 62)
    (hct : globals.lastCounter < 2 ^ 12) :
    AscendingFrom globals (uuid7Calls globals calls) ↔ AllTimely globals calls := by
  induction calls generalizing globals with
  | nil => simp [AscendingFrom, AllTimely, uuid7Calls]
  | cons call rest ih =>
    obtain ⟨ms, rand⟩ := call
    obtain ⟨hm, hr⟩ := hc _ (.head _)
    obtain ⟨hn, hvl, htm⟩ := uuid7_spec rand hm hct
    set next := (uuid7 ms rand globals).2 with hd
    rw [AllTimely, ← htm, ← hd, ← ih (fun c h => hc c (.tail _ h)) hn, uuid7Calls, hvl, ← hd]
    have hp := prefixOf_assemble next.lastMs hn hr
    constructor
    · rintro ⟨ids, hi, hv, hu⟩
      cases ids with
      | nil => cases hi
      | cons id ids =>
        obtain ⟨hid, ht⟩ := List.cons.inj hi
        obtain ⟨hf, rfl⟩ := uuidOfInt_eq_ok.mp hid
        rw [map_cons, hp] at hu
        refine ⟨⟨?_, rel_of_pairwise_cons hu (.head _)⟩, ids, ht,
          fun id h => hv id (.tail _ h), hu.of_cons⟩
        rw [assemble_eq hn hr] at hf
        omega
    · rintro ⟨⟨hm, hl⟩, ids, hi, hv, hu⟩
      have h1 := isUuid7_assemble hn hr hm
      refine ⟨assemble next.lastMs next.lastCounter rand :: ids, ?_, ?_, ?_⟩
      · rw [hi, map_cons, uuidOfInt_eq_ok.mpr ⟨h1.1, rfl⟩]
      · exact forall_mem_cons.mpr ⟨h1, hv⟩
      · rw [map_cons, hp]
        refine pairwise_cons.mpr ⟨fun stamp h => ?_, hu⟩
        rcases mem_cons.mp h with rfl | h
        · exact hl
        · exact hl.trans (rel_of_pairwise_cons hu h)

variable {calls : List (Nat × Nat)}

/-- Nothing stands before the first identifier of a process. -/
theorem ascendingFrom_start (hc : ∀ call ∈ calls, call.1 < 2 ^ 48 ∧ call.2 < 2 ^ 62) :
    Ascending (uuid7Calls {} calls) ↔ AscendingFrom {} (uuid7Calls {} calls) := by
  refine ⟨?_, fun ⟨ids, hi, hv, hu⟩ => ⟨ids, hi, hv, hu.of_cons⟩⟩
  rintro ⟨ids, hi, hv, hu⟩
  refine ⟨ids, hi, hv, pairwise_cons.mpr ⟨?_, hu⟩⟩
  cases calls with
  | nil =>
    cases ids with
    | nil => simp
    | cons id ids => cases hi
  | cons call rest =>
    obtain ⟨ms, rand⟩ := call
    obtain ⟨hm, hr⟩ := hc _ (.head _)
    obtain ⟨hn, hvl, ht⟩ := uuid7_spec rand hm (show ({} : Globals).lastCounter < 2 ^ 12 by simp)
    have hl := (ht.mpr (by simp [Timely])).2
    cases ids with
    | nil => cases hi
    | cons id ids =>
      rw [uuid7Calls, hvl] at hi
      obtain ⟨hid, -⟩ := List.cons.inj hi
      obtain ⟨-, rfl⟩ := uuidOfInt_eq_ok.mp hid
      rw [map_cons, prefixOf_assemble _ hn hr] at hu ⊢
      refine forall_mem_cons.mpr ⟨hl, fun stamp h => hl.trans ?_⟩
      exact rel_of_pairwise_cons hu h

theorem ids_ascending_iff_timely (hcalls : ∀ call ∈ calls, call.1 < 2 ^ 48 ∧ call.2 < 2 ^ 62) :
    Ascending (uuid7Calls {} calls) ↔ AllTimely {} calls :=
  (ascendingFrom_start hcalls).trans (ascendingFrom_calls hcalls (by simp))

theorem ids_ascending_iff_timely_pair :
    Ascending (uuid7Calls {} [(5, 1), (5, 0)]) ↔ AllTimely {} [(5, 1), (5, 0)] :=
  ids_ascending_iff_timely (by decide)

/-- Once the counter has wrapped, a call that still reads `ms` is behind the globals. -/
theorem not_allTimely_replicate (hm : ms < 2 ^ 48) (hc : counter < 2 ^ 12)
    (hn : 2 ^ 12 < n + counter) : ¬ AllTimely ⟨ms, counter⟩ (List.replicate n (ms, rand)) := by
  induction n generalizing counter with
  | zero => omega
  | succ n ih =>
    have hi : ¬ ms ≥ 2 ^ 48 := by omega
    rw [replicate_succ, AllTimely]
    by_cases hw : counter + 1 ≥ 2 ^ 12
    · obtain ⟨m, rfl⟩ : ∃ m, n = m + 1 := ⟨n - 1, by omega⟩
      have hnx : (uuid7 ms rand ⟨ms, counter⟩).2 = ⟨ms + 1, 0⟩ := by
        simp only [uuid7, hi, hw, if_false, if_true]
      rw [hnx, replicate_succ, AllTimely]
      exact fun h => Nat.not_succ_le_self ms h.2.1.1
    · have hnx : (uuid7 ms rand ⟨ms, counter⟩).2 = ⟨ms, counter + 1⟩ := by
        simp only [uuid7, hi, hw, if_false, if_true]
      rw [hnx]
      exact fun h => ih (by omega) (by omega) h.2

/-- The calls of one millisecond, one more than the counter and its wrap take. -/
theorem ids_fall_back_after_wrap :
    ¬ ∀ calls : List (Nat × Nat), (∀ call ∈ calls, call.1 < 2 ^ 48 ∧ call.2 < 2 ^ 62) →
      (calls.map Prod.fst).Pairwise (· ≤ ·) → Ascending (uuid7Calls {} calls) := by
  intro h
  have hcalls : ∀ call ∈ List.replicate 4098 (1, 0), call.1 < 2 ^ 48 ∧ call.2 < 2 ^ 62 := by
    intro call hcall
    cases eq_of_mem_replicate hcall
    decide
  have hreadings : ((List.replicate 4098 (1, 0)).map Prod.fst).Pairwise (· ≤ ·) := by
    rw [map_replicate]
    exact pairwise_replicate.mpr (.inr le_rfl)
  have htimely := (ascendingFrom_calls hcalls (by decide)).mp
    ((ascendingFrom_start hcalls).mp (h _ hcalls hreadings))
  exact not_allTimely_replicate (by decide) (by decide) (by decide) htimely.2

end FyralisCore.Shared.Ids
