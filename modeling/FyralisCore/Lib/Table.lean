import Mathlib.Data.List.AList

/-! Keyed tables with at most one row a key. The rows live in Mathlib's
association lists, whose key uniqueness is a field of the structure; what is
added here are the statements of SQL that lists do not have: insertion that
leaves an existing row alone, and updates and deletions by a condition. -/
namespace Relational

open List AList

abbrev Table (K V : Type) : Type := AList fun _ : K => V

namespace Table

variable {K V : Type} [DecidableEq K]

section

variable (table : Table K V)

def get (key : K) : Option V :=
  lookup key table

def rows : List (K × V) :=
  table.entries.map fun entry => (entry.1, entry.2)

def put (key : K) (row : V) : Table K V :=
  insert key row table

def insertNew (key : K) (row : V) : Table K V :=
  if (table.get key).isSome then table else table.put key row

/-- Several rows inserted one after another, each ON CONFLICT DO NOTHING. -/
def insertAll (rows : List (K × V)) : Table K V :=
  rows.foldl (fun table row => table.insertNew row.1 row.2) table

end

/-- Several rows inserted by one statement; none when a key is taken or repeated. -/
def insertFresh (table : Table K V) (rows : List (K × V)) : Option (Table K V) :=
  match rows with
  | [] => some table
  | row :: rest =>
    if (table.get row.1).isSome then none else (table.put row.1 row.2).insertFresh rest

def changed (condition : K → V → Bool) (change : K → V → V) (key : K) (row : V) : V :=
  if condition key row then change key row else row

/-- UPDATE ... WHERE: `change` is applied to the rows that satisfy the condition. -/
def updateWhere (table : Table K V) (condition : K → V → Bool) (change : K → V → V) :
    Table K V where
  entries := table.entries.map fun entry =>
    ⟨entry.1, changed condition change entry.1 entry.2⟩
  nodupKeys := by
    unfold List.NodupKeys List.keys
    rw [List.map_map]
    exact table.nodupKeys

def update (table : Table K V) (key : K) (change : V → V) : Table K V :=
  table.updateWhere (fun candidate _ => candidate == key) fun _ row => change row

def deleteWhere (table : Table K V) (condition : K → V → Bool) : Table K V where
  entries := table.entries.filter fun entry => !condition entry.1 entry.2
  nodupKeys := table.nodupKeys.sublist List.filter_sublist

def remove (table : Table K V) (key : K) : Table K V :=
  table.deleteWhere fun candidate _ => candidate == key

def any (table : Table K V) (condition : K → V → Bool) : Bool :=
  table.rows.any fun entry => condition entry.1 entry.2

def count (table : Table K V) (condition : K → V → Bool) : Nat :=
  table.rows.countP fun entry => condition entry.1 entry.2

def primaryKeys (table : Table K V) : List K :=
  table.rows.map Prod.fst

@[simp] theorem get_empty (key : K) : get (∅ : Table K V) key = none := rfl

section

variable (table : Table K V)

theorem mem_rows_iff (key : K) (row : V) : (key, row) ∈ table.rows ↔ table.get key = some row := by
  unfold rows get
  rw [mem_map, ← Option.mem_def, mem_lookup_iff]
  constructor
  · rintro ⟨⟨entryKey, entryRow⟩, hm, he⟩
    obtain ⟨rfl, rfl⟩ := Prod.mk.inj he
    exact hm
  · intro hm
    exact ⟨⟨key, row⟩, hm, rfl⟩

theorem any_iff (condition : K → V → Bool) : table.any condition ↔ ∃ key row, table.get key =
    some row ∧ condition key row := by
  simp [any, any_eq_true, Prod.exists, mem_rows_iff]

theorem count_eq_zero_iff (condition : K → V → Bool) : table.count condition = 0 ↔ ∀ key row,
    table.get key = some row → ¬ condition key row := by
  simp [count, countP_eq_zero, Prod.forall, mem_rows_iff]

theorem isSome_find_rows_iff (condition : K × V → Bool) :
    ((table.rows.find? condition).map Prod.fst).isSome ↔ ∃ key row, table.get key = some row ∧
    condition (key, row) := by
  simp [Option.isSome_map, List.find?_isSome, Prod.exists, mem_rows_iff]

end

variable {table after : Table K V} {key : K} {rows : List (K × V)} {value : V}

theorem count_put_of_none (row : V) (hn : table.get key = none) (condition : K → V → Bool) :
    (table.put key row).count condition =
      table.count condition + if condition key row then 1 else 0 := by
  have hf : key ∉ table := lookup_eq_none.mp hn
  simp only [count, rows, put, entries_insert_of_notMem hf, map_cons, countP_cons]

theorem mem_primaryKeys_iff (table : Table K V) (key : K) :
    key ∈ table.primaryKeys ↔ ∃ row, table.get key = some row := by
  simp [primaryKeys, mem_map, Prod.exists, mem_rows_iff, exists_and_right, exists_eq_right]

omit [DecidableEq K] in
theorem nodup_primaryKeys (table : Table K V) : table.primaryKeys.Nodup := by
  have hk : table.primaryKeys = table.keys := by
    simp [primaryKeys, rows, AList.keys, List.keys]
  rw [hk]
  exact table.nodupKeys

theorem filter_rows_key (table : Table K V) {condition : K → Bool}
    (ho : ∀ other row, table.get other = some row → (condition other ↔ other = key)) :
    (table.rows.filter fun e => condition e.1) =
      ((table.get key).map fun row => (key, row)).toList := by
  have hn : table.rows.Nodup := List.Nodup.of_map _ table.nodup_primaryKeys
  have hm : ∀ e, e ∈ (table.rows.filter fun e => condition e.1) ↔
      table.get key = some e.2 ∧ e.1 = key := by
    intro e
    rw [mem_filter, mem_rows_iff]
    constructor
    · rintro ⟨hg, hc⟩
      obtain rfl := (ho _ _ hg).mp hc
      exact ⟨hg, rfl⟩
    · rintro ⟨hg, rfl⟩
      exact ⟨hg, (ho _ _ hg).mpr rfl⟩
  cases hr : table.get key with
  | none =>
    rw [Option.map_none, Option.toList_none, eq_nil_iff_forall_not_mem]
    intro e he
    have hg := ((hm e).mp he).1
    rw [hr] at hg
    cases hg
  | some row =>
    rw [Option.map_some, Option.toList_some, ← perm_singleton]
    apply (perm_ext_iff_of_nodup (hn.filter _) (nodup_singleton _)).mpr
    intro e
    rw [hm, hr, mem_singleton, Option.some.injEq, Prod.ext_iff, eq_comm, and_comm]

@[simp] theorem get_put_self (table : Table K V) (key : K) (row : V) :
    (table.put key row).get key = some row :=
  lookup_insert table

theorem get_put_ne (table : Table K V) (row : V) (hn : other ≠ key) :
    (table.put key row).get other = table.get other :=
  lookup_insert_ne hn

theorem get_put (table : Table K V) (key other : K) (row : V) :
    (table.put key row).get other = if other = key then some row else table.get other := by
  split
  · next he => rw [he, get_put_self]
  · next hn => exact get_put_ne table row hn

theorem get_insertNew (table : Table K V) (key other : K) (row : V) :
    (table.insertNew key row).get other =
      if other = key ∧ table.get key = none then some row else table.get other := by
  unfold insertNew
  cases hk : table.get key with
  | some existing => simp
  | none => simp [get_put]

theorem count_insertNew_le (table : Table K V) (key : K) (row : V) (condition : K → V → Bool) :
    (table.insertNew key row).count condition ≤
      table.count condition + if condition key row then 1 else 0 := by
  unfold insertNew
  split
  · exact Nat.le_add_right _ _
  · next hf =>
    exact Nat.le_of_eq (count_put_of_none row (Option.not_isSome_iff_eq_none.mp hf) condition)

theorem insertNew_of_isSome (table : Table K V) (row : V)
    (hp : (table.get key).isSome) : table.insertNew key row = table :=
  if_pos hp

@[simp] theorem insertAll_nil (table : Table K V) : table.insertAll [] = table := rfl

@[simp] theorem insertAll_cons (table : Table K V) (row : K × V) (rest : List (K × V)) :
    table.insertAll (row :: rest) = (table.insertNew row.1 row.2).insertAll rest := rfl

theorem get_insertAll (table : Table K V) (rows : List (K × V)) (key : K) :
    (table.insertAll rows).get key = (table.get key).or (rows.lookup key) := by
  induction rows generalizing table with
  | nil => simp
  | cons row rest ih =>
    rw [insertAll_cons, ih, get_insertNew, lookup_cons]
    by_cases he : key = row.1
    · subst he
      cases table.get row.1 with
      | none => simp
      | some existing => simp
    · have hn : (key == row.1) = false := by simpa using he
      simp [he, hn]

theorem isSome_get_insertAll (table : Table K V)
    (hm : row ∈ rows) : ((table.insertAll rows).get row.1).isSome := by
  have hl : (rows.lookup row.1).isSome :=
    lookup_isSome_iff.mpr ⟨row, hm, beq_self_eq_true _⟩
  rw [get_insertAll, Option.isSome_or, hl, Bool.or_true]

theorem get_insertAll_cases (table : Table K V) (hg : (table.insertAll rows).get key = some value) :
    table.get key = some value ∨ (key, value) ∈ rows := by
  rw [get_insertAll] at hg
  rcases Option.or_eq_some_iff.mp hg with ho | ⟨_, hn⟩
  · exact .inl ho
  · obtain ⟨before, rest, hr, _⟩ := lookup_eq_some_iff.mp hn
    exact .inr (by simp [hr])

theorem get_insertAll_of_ne (table : Table K V)
    (hne : ∀ row ∈ rows, row.1 ≠ key) : (table.insertAll rows).get key = table.get key := by
  have hn : rows.lookup key = none := by
    rw [lookup_eq_none_iff]
    intro row hm
    simpa using Ne.symm (hne row hm)
  rw [get_insertAll, hn, Option.or_none]

theorem get_insertAll_keys_iff (table : Table K Unit) (items : List A) (keyOf : A → K) (key : K) :
    (table.insertAll (items.map fun item => (keyOf item, ()))).get key = some () ↔
      table.get key = some () ∨ ∃ item ∈ items, keyOf item = key := by
  induction items generalizing table with
  | nil => simp
  | cons item rest ih =>
    rw [map_cons, insertAll_cons, ih, get_insertNew]
    by_cases hk : key = keyOf item
    · subst hk
      cases hg : table.get (keyOf item) with
      | none => simp
      | some value => simp
    · simp [hk, Ne.symm hk]

theorem insertFresh_eq_some_iff (table : Table K V) (rows : List (K × V)) :
    (∃ after, table.insertFresh rows = some after) ↔
      (rows.map Prod.fst).Nodup ∧ ∀ row ∈ rows, table.get row.1 = none := by
  induction rows generalizing table with
  | nil => simp [insertFresh]
  | cons row rest ih =>
    rw [map_cons, nodup_cons, forall_mem_cons]
    cases hk : table.get row.1 with
    | some existing => simp [insertFresh, hk]
    | none =>
      simp only [insertFresh, hk, Option.isSome_none, Bool.false_eq_true, if_false, ih]
      constructor
      · rintro ⟨hnd, ha⟩
        have hn : ∀ other ∈ rest, other.1 ≠ row.1 := by
          intro other ho he
          have hg := ha other ho
          rw [he, get_put_self] at hg
          cases hg
        refine ⟨⟨fun hm => ?_, hnd⟩, trivial, fun other ho => ?_⟩
        · obtain ⟨other, ho, he⟩ := mem_map.mp hm
          exact hn other ho he
        · rw [← get_put_ne table row.2 (hn other ho)]
          exact ha other ho
      · rintro ⟨⟨hn, hnd⟩, -, ha⟩
        refine ⟨hnd, fun other ho => ?_⟩
        rw [get_put_ne]
        · exact ha other ho
        · exact fun he => hn (he ▸ mem_map_of_mem ho)

section

variable (hi : table.insertFresh rows = some after)

include hi

theorem get_insertFresh (key : K) : after.get key = (rows.lookup key).or (table.get key) := by
  induction rows generalizing table with
  | nil =>
    cases hi
    rfl
  | cons row rest ih =>
    rw [insertFresh] at hi
    split at hi
    · cases hi
    · next ha =>
      obtain ⟨-, hf⟩ := (insertFresh_eq_some_iff _ _).mp ⟨after, hi⟩
      rw [ih hi, lookup_cons, get_put]
      by_cases he : key = row.1
      · subst he
        have hn : rest.lookup row.1 = none := by
          rw [lookup_eq_none_iff]
          intro other ho
          rw [bne_iff_ne]
          intro hs
          have hg := hf other ho
          rw [← hs, get_put_self] at hg
          cases hg
        simp [hn]
      · have hne : (key == row.1) = false := by simpa using he
        simp [he, hne]

theorem get_insertFresh_cases (hg : after.get key = some value) : table.get key = some value ∨ (key,
    value) ∈ rows := by
  rw [get_insertFresh hi] at hg
  rcases Option.or_eq_some_iff.mp hg with hn | ⟨_, ho⟩
  · obtain ⟨before, rest, hr, _⟩ := lookup_eq_some_iff.mp hn
    exact .inr (by simp [hr])
  · exact .inl ho

theorem get_insertFresh_of_some (hg : table.get key = some value) : after.get key = some value := by
  have hl : rows.lookup key = none := by
    rw [lookup_eq_none_iff]
    intro row hr
    rw [bne_iff_ne]
    rintro rfl
    rw [((insertFresh_eq_some_iff _ _).mp ⟨after, hi⟩).2 row hr] at hg
    cases hg
  rw [get_insertFresh hi, hl, hg]
  rfl

theorem insertFresh_invariant {P : Table K V → Prop} (hs : P table) (hp : ∀ table, ∀ row ∈ rows,
    P table → table.get row.1 = none → P (table.put row.1 row.2)) : P after := by
  induction rows generalizing table with
  | nil =>
    cases hi
    exact hs
  | cons row rest ih =>
    simp only [insertFresh, Option.ite_none_left_eq_some, Bool.not_eq_true,
      Option.isSome_eq_false_iff, Option.isNone_iff_eq_none] at hi
    exact ih hi.2 (hp table row (.head _) hs hi.1)
      fun table row hm => hp table row (.tail _ hm)

end

section

variable {A : Type} {upsert : Table K V → K → V → Table K V} {merge : V → V → V} {keyOf : A → K}
  {row : V}

/-- An upsert writes its row, or merges it into the row that is there. -/
def Upserts (upsert : Table K V → K → V → Table K V) (merge : V → V → V) : Prop :=
  ∀ (table : Table K V) key row other, (upsert table key row).get other =
    if other = key then some ((table.get key).elim row fun existing => merge existing row)
    else table.get other

variable {key : K}

section

variable (hu : Upserts upsert merge)

include hu

theorem get_foldl_upsert_of_ne {items : List A} (ho : ∀ item ∈ items, keyOf item ≠ key)
    (table : Table K V) :
    (items.foldl (fun table item => upsert table (keyOf item) row) table).get key =
    table.get key := by
  induction items generalizing table with
  | nil => rfl
  | cons item rest ih =>
    rw [foldl_cons, ih fun other hm => ho other (.tail _ hm), hu,
      if_neg fun he => ho item (.head _) he.symm]

theorem get_foldl_upsert_of_some (hm : merge row row = row) (items : List A) (hs : table.get key =
    some row) : (items.foldl (fun table item => upsert table (keyOf item) row) table).get key =
    some row := by
  induction items generalizing table with
  | nil => exact hs
  | cons item rest ih =>
    refine ih ?_
    rw [hu]
    split
    · next he =>
      rw [← he, hs]
      exact congrArg some hm
    · exact hs

theorem get_foldl_upsert_of_none (hm : merge row row = row)
    (items : List A) (hn : table.get key = none) :
    (items.foldl (fun table item => upsert table (keyOf item) row) table).get key =
      if key ∈ items.map keyOf then some row else none := by
  induction items generalizing table with
  | nil => simpa using hn
  | cons item rest ih =>
    rw [foldl_cons]
    by_cases he : key = keyOf item
    · subst he
      rw [get_foldl_upsert_of_some hu hm, if_pos (by simp)]
      rw [hu, if_pos rfl, hn]
      rfl
    · rw [ih (by rw [hu, if_neg he, hn]), map_cons]
      simp [he]

end

end

section

variable (table)

theorem get_updateWhere (condition : K → V → Bool) (change : K → V → V) (key : K) :
    (table.updateWhere condition change).get key = (table.get key).map
    (changed condition change key) :=
  dlookup_map₂ key

theorem get_update (key other : K) (change : V → V) : (table.update key change).get other =
      if other = key then (table.get other).map change else table.get other := by
  unfold update
  rw [get_updateWhere]
  cases table.get other with
  | none => simp
  | some row =>
    by_cases he : other = key
    · simp [changed, he]
    · simp [changed, he]

theorem get_deleteWhere (condition : K → V → Bool) (key : K) :
    (table.deleteWhere condition).get key =
    (table.get key).filter fun row => !condition key row := by
  apply Option.ext
  intro row
  have hm : (table.deleteWhere condition).get key = some row ↔
      table.get key = some row ∧ condition key row = false := by
    rw [get, get, ← Option.mem_def, ← Option.mem_def, mem_lookup_iff, mem_lookup_iff]
    simp [deleteWhere]
  rw [hm, Option.filter_eq_some_iff]
  simp

end

theorem get_deleteWhere_of_none (condition : K → V → Bool)
    (hn : table.get key = none) : (table.deleteWhere condition).get key = none := by
  rw [get_deleteWhere, hn]
  rfl

theorem get_deleteWhere_of_kept (hk : ∀ row, condition key row = false) :
    (table.deleteWhere condition).get key = table.get key := by
  rw [get_deleteWhere]
  cases table.get key with
  | none => rfl
  | some row => simp [Option.filter, hk]

theorem get_remove (table : Table K V) (key other : K) :
    (table.remove key).get other = if other = key then none else table.get other := by
  unfold remove
  rw [get_deleteWhere]
  cases table.get other with
  | none => simp
  | some row =>
    by_cases he : other = key
    · simp [he, Option.filter]
    · simp [he, Option.filter]

section

variable {theirs : K → V → Prop} {table after later : Table K V}

/-- The rows that `theirs` holds of are the same in both tables. -/
def SameWhere (theirs : K → V → Prop) (table after : Table K V) : Prop :=
  ∀ key row, theirs key row → (after.get key = some row ↔ table.get key = some row)

theorem SameWhere.refl : SameWhere theirs table table := fun _ _ _ => Iff.rfl

theorem SameWhere.trans (h1 : SameWhere theirs table after)
    (h2 : SameWhere theirs after later) : SameWhere theirs table later :=
  fun key row ht => (h2 key row ht).trans (h1 key row ht)

theorem sameWhere_put (ho : ∀ existing, table.get key = some existing →
    ¬ theirs key existing) (hr : ¬ theirs key row) : SameWhere theirs table (table.put key row) := by
  intro other found ht
  rw [get_put]
  split
  · next hs =>
    subst hs
    constructor
    · intro hf
      cases hf
      exact absurd ht hr
    · exact fun hf => absurd ht (ho found hf)
  · rfl

theorem sameWhere_insertNew (hr : ¬ theirs key row) :
    SameWhere theirs table (table.insertNew key row) := by
  unfold insertNew
  split
  · exact .refl
  · next hf =>
    apply sameWhere_put _ hr
    intro existing hex
    simp [hex] at hf

theorem sameWhere_updateWhere
    (hr : ∀ key row, condition key row → ¬ theirs key row ∧ ¬ theirs key (change key row)) :
    SameWhere theirs table (table.updateWhere condition change) := by
  intro key row ht
  rw [get_updateWhere]
  cases hk : table.get key with
  | none => simp
  | some existing =>
    rw [Option.map_some, changed]
    split
    · next hc =>
      obtain ⟨hb, ha⟩ := hr key existing hc
      constructor
      · intro hf
        cases hf
        exact absurd ht ha
      · intro hf
        cases hf
        exact absurd ht hb
    · rfl

end

end Table

end Relational
