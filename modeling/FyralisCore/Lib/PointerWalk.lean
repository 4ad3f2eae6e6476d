import Mathlib.Logic.Function.Iterate

/-! Following a pointer from row to row, in the two ways a program does it: a
loop that remembers the rows it has met and stops when one comes back, and WITH
RECURSIVE ... UNION ALL, whose rounds each read the rows of the round before. -/
namespace Relational

variable {α : Type}

/-- `steps` pointers followed. -/
def ascend (next : α → Option α) : Nat → α → Option α
  | 0, node => some node
  | steps + 1, node => (next node).bind (ascend next steps)

theorem ascend_succ (next : α → Option α) (steps : Nat) (node : α) :
    ascend next (steps + 1) node = (next node).bind (ascend next steps) := rfl

theorem ascend_succ' (next : α → Option α) (steps : Nat) (node : α) :
    ascend next (steps + 1) node = (ascend next steps node).bind next := by
  induction steps generalizing node with
  | zero => simp [ascend]
  | succ steps ih =>
    rw [ascend_succ, ascend_succ, Option.bind_assoc]
    congr 1
    funext target
    exact ih target

theorem ascend_mem {next : α → Option α} {kept : List α}
    (hc : ∀ x ∈ kept, ∀ y, next x = some y → y ∈ kept) {steps : Nat} {node : α}
    (hn : node ∈ kept) (htg : ascend next steps node = some target) : target ∈ kept := by
  induction steps generalizing node with
  | zero =>
    cases htg
    exact hn
  | succ steps ih =>
    obtain ⟨m, hm, ht⟩ := Option.bind_eq_some_iff.mp htg
    exact ih (hc node hn m hm) ht

section

variable [DecidableEq α]

/-- The nodes met on the way up, nearest first. The walk ends after `depth`
pointers, where there is no pointer, and at a node it has seen. -/
def walk (next : α → Option α) : Nat → List α → α → List α
  | 0, _, _ => []
  | depth + 1, seen, current =>
    match next current with
    | none => []
    | some target =>
      if target ∈ seen then [] else target :: walk next depth (target :: seen) target

theorem walk_sound {next : α → Option α} (hm : node ∈ walk next depth seen current) :
    node ∉ seen ∧ ∃ steps, 0 < steps ∧ steps ≤ depth ∧ ascend next steps current = some node := by
  induction depth generalizing seen current with
  | zero => simp [walk] at hm
  | succ depth ih =>
    rw [walk] at hm
    split at hm
    · simp at hm
    · next target htg =>
      split at hm
      · simp at hm
      · next hn =>
        cases List.mem_cons.mp hm with
        | inl he =>
          subst he
          exact ⟨hn, 1, by omega, by omega, by simp [ascend, htg]⟩
        | inr ht =>
          obtain ⟨hu, steps, -, hs, ha⟩ := ih ht
          have ho : node ∉ seen := fun hsn => hu (.tail _ hsn)
          exact ⟨ho, steps + 1, by omega, by omega, by simp [ascend, htg, ha]⟩

/-- What the walk has seen is closed under the pointers, but for the one it is
about to follow, so a walk that comes back to a seen node has met everything. -/
theorem walk_complete {next : α → Option α} {depth : Nat} {seen : List α} (hc : current ∈ seen)
    (hcl : ∀ x ∈ seen, x ≠ current → ∀ y, next x = some y → y ∈ seen)
    (hnd : node ∉ seen) {steps : Nat} (hs : steps ≤ depth)
    (ha : ascend next steps current = some node) : node ∈ walk next depth seen current := by
  induction depth generalizing seen current steps with
  | zero =>
    obtain rfl : steps = 0 := by omega
    cases ha
    exact absurd hc hnd
  | succ depth ih =>
    cases steps with
    | zero =>
      cases ha
      exact absurd hc hnd
    | succ steps =>
      obtain ⟨target, htg, ht⟩ := Option.bind_eq_some_iff.mp ha
      simp only [walk, htg]
      split
      · next hb =>
        have hk : ∀ x ∈ seen, ∀ y, next x = some y → y ∈ seen := by
          intro x hx y hy
          by_cases hl : x = current
          · subst hl
            rw [htg] at hy
            cases hy
            exact hb
          · exact hcl x hx hl y hy
        exact absurd (ascend_mem hk hb ht) hnd
      · next hn =>
        by_cases hf : node = target
        · exact List.mem_cons.mpr (.inl hf)
        · apply List.mem_cons_of_mem
          apply ih (.head _) _ _ (Nat.le_of_succ_le_succ hs) ht
          · intro x hx hne y hy
            have ho : x ∈ seen := (List.mem_cons.mp hx).resolve_left hne
            by_cases hl : x = current
            · subst hl
              rw [htg] at hy
              cases hy
              exact .head _
            · exact .tail _ (hcl x ho hl y hy)
          · exact fun hm => (List.mem_cons.mp hm).elim hf hnd

theorem mem_walk_iff (next : α → Option α) (depth : Nat) (start node : α) :
    node ∈ walk next depth [start] start ↔
      node ≠ start ∧ ∃ steps, 0 < steps ∧ steps ≤ depth ∧ ascend next steps start = some node := by
  constructor
  · intro hm
    obtain ⟨hu, hs⟩ := walk_sound hm
    exact ⟨by simpa using hu, hs⟩
  · rintro ⟨hn, steps, -, hs, ha⟩
    refine walk_complete (.head _) ?_ (by simpa using hn) hs ha
    exact fun x hx ho => absurd (List.mem_singleton.mp hx) ho

end

def recursiveUnionAll (step : List α → List α) : Nat → List α → List α
  | 0, _ => []
  | rounds + 1, working => working ++ recursiveUnionAll step rounds (step working)

theorem mem_recursiveUnionAll_iff (step : List α → List α) (rounds : Nat) (base : List α)
    (row : α) :
    row ∈ recursiveUnionAll step rounds base ↔ ∃ round < rounds, row ∈ step^[round] base := by
  induction rounds generalizing base with
  | zero => simp [recursiveUnionAll]
  | succ rounds ih =>
    rw [recursiveUnionAll, List.mem_append, ih]
    constructor
    · rintro (hb | ⟨round, hr, hm⟩)
      · exact ⟨0, by omega, hb⟩
      · exact ⟨round + 1, by omega, hm⟩
    · rintro ⟨round, hr, hm⟩
      cases round with
      | zero => exact .inl hm
      | succ round => exact .inr ⟨round, by omega, hm⟩

end Relational
