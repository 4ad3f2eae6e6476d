import FyralisCore.Lib.Table
import Mathlib.Algebra.Order.BigOperators.Group.List
import Mathlib.Tactic.Abel

/-! Sums over the rows of a table, and how a write of one row moves them. -/
namespace Relational.Table

open List

variable {K V M : Type} [DecidableEq K]

section

variable [AddCommGroup M] (f : K → V → M)

def sum (table : Table K V) (f : K → V → M) : M :=
  (table.rows.map fun entry => f entry.1 entry.2).sum

omit [DecidableEq K] in
theorem sum_eq_entries (table : Table K V) :
    table.sum f = (table.entries.map fun e => f e.1 e.2).sum := by
  simp [sum, rows, Function.comp_def]

variable {key : K}

theorem sum_put_of_none {table : Table K V} (row : V) (hn : table.get key = none) :
    (table.put key row).sum f = f key row + table.sum f := by
  have hf : key ∉ table := AList.lookup_eq_none.mp hn
  simp only [sum_eq_entries, put, AList.entries_insert_of_notMem hf, map_cons, sum_cons]

private theorem sum_changed {entries : List (Sigma fun _ : K => V)} (hnd : entries.NodupKeys)
    {row : V} (hm : ⟨key, row⟩ ∈ entries) (change : V → V) :
    ((entries.map fun e => (⟨e.1, changed (fun candidate _ => candidate == key)
        (fun _ row => change row) e.1 e.2⟩ : Sigma fun _ : K => V)).map
          fun e => f e.1 e.2).sum =
      (entries.map fun e => f e.1 e.2).sum - f key row + f key (change row) := by
  induction entries with
  | nil => cases hm
  | cons e rest ih =>
    obtain ⟨h1, ht⟩ := nodupKeys_cons.mp hnd
    simp only [map_cons, sum_cons]
    rcases mem_cons.mp hm with rfl | hl
    · have hs : (rest.map fun e => (⟨e.1, changed (fun candidate _ => candidate == key)
          (fun _ row => change row) e.1 e.2⟩ : Sigma fun _ : K => V)) = rest := by
        refine (map_congr_left fun other ho => ?_).trans (map_id rest)
        have hn : other.1 ≠ key := fun he => h1 (mem_keys.mpr ⟨other.2, he ▸ ho⟩)
        simp [changed, hn]
      rw [hs]
      simp only [changed, beq_self_eq_true, if_true]
      abel
    · have hn : e.1 ≠ key := fun he => h1 (he ▸ mem_keys_of_mem hl)
      rw [ih ht hl]
      simp only [changed, beq_eq_false_iff_ne.mpr hn, Bool.false_eq_true, if_false]
      abel

theorem sum_update {table : Table K V} (hr : table.get key = some row) (change : V → V) :
    (table.update key change).sum f = table.sum f - f key row + f key (change row) := by
  have hm : (⟨key, row⟩ : Sigma fun _ : K => V) ∈ table.entries := AList.mem_lookup_iff.mp hr
  simp only [sum_eq_entries]
  exact sum_changed f table.nodupKeys hm change

omit [DecidableEq K] in
theorem sum_updateWhere_of_same (table : Table K V)
    (hs : ∀ key row, f key (change key row) = f key row) :
    (table.updateWhere condition change).sum f = table.sum f := by
  simp only [sum_eq_entries, updateWhere, map_map]
  refine congrArg List.sum (map_congr_left fun e _ => ?_)
  simp only [Function.comp_def, changed]
  split
  · exact hs e.1 e.2
  · rfl

end

section

variable [AddCommGroup M] [PartialOrder M] [IsOrderedAddMonoid M] {f : K → V → M}
  {table : Table K V}

theorem le_sum (hr : table.get key = some row)
    (hn : ∀ e ∈ table.rows, 0 ≤ f e.1 e.2) : f key row ≤ table.sum f := by
  refine single_le_sum ?_ _ ?_
  · intro share hs
    obtain ⟨e, he, rfl⟩ := mem_map.mp hs
    exact hn e he
  · exact mem_map.mpr ⟨(key, row), (mem_rows_iff table key row).mpr hr, rfl⟩

end

end Relational.Table
