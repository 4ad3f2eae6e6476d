import Mathlib.Data.List.Induction
import Mathlib.Data.List.Nodup

/-! Lists with their repetitions erased, the first occurrence kept: of a list as
such, and of keyed rows by their key. -/
namespace Relational

open List

variable {α K V : Type} [DecidableEq α] [DecidableEq K]

theorem nodup_eraseDups (items : List α) : items.eraseDups.Nodup := by
  cases items with
  | nil => exact nodup_nil
  | cons item rest =>
    rw [eraseDups_cons, nodup_cons, mem_eraseDups]
    exact ⟨by simp, nodup_eraseDups _⟩
termination_by items.length
decreasing_by exact Nat.lt_succ_of_le (length_filter_le _ _)

theorem eraseDups_of_nodup {items : List α} (hn : items.Nodup) : items.eraseDups = items := by
  induction items with
  | nil => rfl
  | cons item rest ih =>
    obtain ⟨hf, ht⟩ := nodup_cons.mp hn
    rw [eraseDups_cons, filter_eq_self.mpr, ih ht]
    intro other hm
    simp [ne_of_mem_of_not_mem hm hf]

theorem eraseDups_sublist (items : List α) : items.eraseDups.Sublist items := by
  cases items with
  | nil => exact .slnil
  | cons item rest =>
    rw [eraseDups_cons]
    exact ((eraseDups_sublist _).trans filter_sublist).cons_cons item
termination_by items.length
decreasing_by exact Nat.lt_succ_of_le (length_filter_le _ _)

def firstByKey (rows : List (K × V)) : List (K × V) :=
  rows.eraseDupsBy fun first second => first.1 == second.1

theorem firstByKey_cons (row : K × V) (rest : List (K × V)) :
    firstByKey (row :: rest) = row :: firstByKey (rest.filter fun other => !(other.1 == row.1)) := by
  unfold firstByKey
  rw [eraseDupsBy_cons]
  congr 2
  apply filter_congr
  intro other _
  cases other.1 == row.1 <;> rfl

theorem keys_firstByKey (rows : List (K × V)) :
    (firstByKey rows).map Prod.fst = (rows.map Prod.fst).eraseDups := by
  cases rows with
  | nil => rfl
  | cons row rest =>
    rw [firstByKey_cons, map_cons, map_cons, eraseDups_cons, keys_firstByKey, filter_map]
    rfl
termination_by rows.length
decreasing_by exact Nat.lt_succ_of_le (length_filter_le _ _)

theorem nodup_keys_firstByKey (rows : List (K × V)) : ((firstByKey rows).map Prod.fst).Nodup := by
  rw [keys_firstByKey]
  exact nodup_eraseDups _

theorem lookup_filter_ne (rows : List (K × V)) (hn : key ≠ other) :
    (rows.filter fun row => !(row.1 == other)).lookup key = rows.lookup key := by
  induction rows with
  | nil => rfl
  | cons row rest ih =>
    by_cases hr : row.1 = other
    · have hk : (key == row.1) = false := by simpa [hr] using hn
      rw [filter_cons_of_neg (by simpa using hr), ih, lookup_cons, hk]
    · rw [filter_cons_of_pos (by simpa using hr), lookup_cons, lookup_cons, ih]

theorem lookup_firstByKey (rows : List (K × V)) (key : K) :
    (firstByKey rows).lookup key = rows.lookup key := by
  cases rows with
  | nil => rfl
  | cons row rest =>
    rw [firstByKey_cons, lookup_cons, lookup_cons]
    cases hk : key == row.1 with
    | true => rfl
    | false =>
      have hn : key ≠ row.1 := by simpa using hk
      rw [lookup_firstByKey, lookup_filter_ne rest hn]
termination_by rows.length
decreasing_by exact Nat.lt_succ_of_le (length_filter_le _ _)

theorem lookup_of_mem {rows : List (K × V)} (hnd : (rows.map Prod.fst).Nodup) {row : K × V}
    (hm : row ∈ rows) : rows.lookup row.1 = some row.2 := by
  induction rows with
  | nil => cases hm
  | cons first rest ih =>
    obtain ⟨hn, ht⟩ := nodup_cons.mp hnd
    rw [lookup_cons]
    rcases mem_cons.mp hm with rfl | hmm
    · simp
    · have hne : (row.1 == first.1) = false := by
        rw [beq_eq_false_iff_ne]
        exact fun he => hn (he ▸ mem_map_of_mem hmm)
      rw [hne]
      exact ih ht hmm

theorem mem_of_lookup {rows : List (K × V)}
    (hl : rows.lookup key = some value) : (key, value) ∈ rows := by
  obtain ⟨before, rest, rfl, -⟩ := lookup_eq_some_iff.mp hl
  simp

end Relational

/-! A dict that keeps the order in which its keys came: setting a key that is
there keeps its place. -/
namespace Dict

variable {K V : Type} [DecidableEq K]

def set (key : K) (value : V) : List (K × V) → List (K × V)
  | [] => [(key, value)]
  | field :: rest => if field.1 = key then (key, value) :: rest else field :: set key value rest

def update (dict items : List (K × V)) : List (K × V) :=
  items.foldl (fun dict item => set item.1 item.2 dict) dict

def pop (key : K) (dict : List (K × V)) : List (K × V) :=
  dict.filter fun field => field.1 ≠ key

theorem lookup_cons_eq_ite (name : K) (value : V) (rest : List (K × V)) (key : K) :
    ((name, value) :: rest).lookup key = if key = name then some value else rest.lookup key := by
  by_cases hk : key = name
  · simp [hk]
  · have hf : (key == name) = false := by simpa using hk
    simp [List.lookup_cons, hf, hk]

@[simp] theorem lookup_set (key : K) (value : V) (dict : List (K × V)) (other : K) :
    (set key value dict).lookup other = if other = key then some value else dict.lookup other := by
  induction dict with
  | nil => rw [set, lookup_cons_eq_ite]
  | cons field rest ih =>
    obtain ⟨name, current⟩ := field
    by_cases hn : name = key
    · subst hn
      simp only [set, ↓reduceIte, lookup_cons_eq_ite]
      split <;> rfl
    · simp only [set, hn, ↓reduceIte, lookup_cons_eq_ite, ih]
      by_cases hf : other = name
      · subst hf
        simp [hn]
      · simp [hf]

@[simp] theorem lookup_pop (key : K) (dict : List (K × V)) (other : K) :
    (pop key dict).lookup other = if other = key then none else dict.lookup other := by
  induction dict with
  | nil => simp [pop]
  | cons field rest ih =>
    obtain ⟨name, current⟩ := field
    rw [pop] at ih
    by_cases hn : name = key
    · subst hn
      rw [pop, List.filter_cons_of_neg (by simp), ih, lookup_cons_eq_ite]
      split <;> rfl
    · rw [pop, List.filter_cons_of_pos (by simpa using hn), lookup_cons_eq_ite, ih,
        lookup_cons_eq_ite]
      by_cases hf : other = name
      · subst hf
        simp [hn]
      · simp [hf]

end Dict

/-! Steps that overwrite one value: what is there at the end is what the last step wrote
that wrote at all. -/
namespace Relational

variable {α β : Type} (writes : α → Prop) (value : α → β)

def lastWrite [DecidablePred writes] (init : β) (steps : List α) : β :=
  steps.foldl (fun found step => if writes step then value step else found) init

def LastWrites (steps : List α) (result : β) : Prop :=
  ∃ earlier step later, steps = earlier ++ step :: later ∧ writes step ∧ value step = result ∧
    ∀ after ∈ later, ¬ writes after

variable {writes value} {init result : β} {steps : List α} {step : α}

theorem lastWrites_concat_of_writes (hw : writes step) :
    LastWrites writes value (steps ++ [step]) result ↔ value step = result := by
  constructor
  · rintro ⟨earlier, last, u, hs, -, hv, hsl⟩
    rcases List.eq_nil_or_concat u with rfl | ⟨front, final, rfl⟩
    · obtain ⟨-, he⟩ := List.append_inj' hs rfl
      cases he
      exact hv
    · rw [List.concat_eq_append, ← List.cons_append, ← List.append_assoc] at hs
      obtain ⟨-, he⟩ := List.append_inj' hs rfl
      cases he
      exact absurd hw (hsl step (by simp))
  · intro hv
    exact ⟨steps, step, [], rfl, hw, hv, by simp⟩

theorem lastWrites_concat_of_silent (hsl : ¬ writes step) :
    LastWrites writes value (steps ++ [step]) result ↔ LastWrites writes value steps result := by
  constructor
  · rintro ⟨earlier, last, u, hs, hw, hv, hlt⟩
    rcases List.eq_nil_or_concat u with rfl | ⟨front, final, rfl⟩
    · obtain ⟨-, he⟩ := List.append_inj' hs rfl
      cases he
      exact absurd hw hsl
    · rw [List.concat_eq_append, ← List.cons_append, ← List.append_assoc] at hs
      obtain ⟨rfl, -⟩ := List.append_inj' hs rfl
      exact ⟨earlier, last, front, rfl, hw, hv, fun t hm => hlt t (by simp [hm])⟩
  · rintro ⟨earlier, last, u, rfl, hw, hv, hlt⟩
    refine ⟨earlier, last, u ++ [step], by simp, hw, hv, fun t hm => ?_⟩
    rcases List.mem_append.mp hm with hb | hl
    · exact hlt t hb
    · rwa [List.mem_singleton.mp hl]

theorem lastWrite_eq_iff [DecidablePred writes] : lastWrite writes value init steps = result ↔
      LastWrites writes value steps result ∨ ((∀ step ∈ steps, ¬ writes step) ∧ init = result) := by
  induction steps using List.reverseRecOn with
  | nil => simp [lastWrite, LastWrites]
  | append_singleton steps step ih =>
    have hf : lastWrite writes value init (steps ++ [step]) =
        if writes step then value step else lastWrite writes value init steps := by
      simp [lastWrite]
    rw [hf]
    by_cases hw : writes step
    · rw [if_pos hw, lastWrites_concat_of_writes hw]
      have hn : ¬ ∀ after ∈ steps ++ [step], ¬ writes after := fun hs =>
        hs step (by simp) hw
      simp only [hn, false_and, or_false]
    · rw [if_neg hw, lastWrites_concat_of_silent hw, ih]
      grind

end Relational
