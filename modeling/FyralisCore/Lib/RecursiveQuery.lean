import Mathlib.Data.List.Dedup
import Mathlib.Logic.Relation

/-! WITH RECURSIVE ... UNION over an edge table. The query keeps a result and a
working table; a round follows the edges out of the working table, drops what
the result already holds and stops when nothing is left. The number of rounds
is bounded by the number of edges, so the evaluation is total, and what it
returns is exactly what the edges reach from the seed. -/
namespace Relational

open Relation List

variable {α : Type} [DecidableEq α]

/-- The recursive term: the targets of the edges that leave the working table. -/
def follow (edges : List (α × α)) (working : List α) : List α :=
  (edges.filter fun edge => edge.1 ∈ working).map Prod.snd

def recursiveUnion (edges : List (α × α)) : Nat → List α → List α → List α
  | 0, result, _ => result
  | rounds + 1, result, working =>
    let fresh := ((follow edges working).filter fun node => node ∉ result).dedup
    if fresh = [] then result else recursiveUnion edges rounds (result ++ fresh) fresh

def reachable (edges : List (α × α)) (seed : List α) : List α :=
  recursiveUnion edges (edges.length + 1) seed.dedup seed.dedup

def EdgeOf (edges : List (α × α)) (a b : α) : Prop :=
  (a, b) ∈ edges

omit [DecidableEq α] in
theorem edgeOf_iff (edges : List (α × α)) (a b : α) : EdgeOf edges a b ↔ (a, b) ∈ edges :=
  Iff.rfl

theorem mem_follow_iff (edges : List (α × α)) (working : List α) (node : α) :
    node ∈ follow edges working ↔ ∃ source ∈ working, (source, node) ∈ edges := by
  simp only [follow, mem_map, mem_filter, decide_eq_true_eq, Prod.exists, exists_eq_right]
  exact ⟨fun ⟨source, he, hm⟩ => ⟨source, hm, he⟩, fun ⟨source, hm, he⟩ => ⟨source, he, hm⟩⟩

private def missing (edges : List (α × α)) (result : List α) : List α :=
  (edges.map Prod.snd).filter fun node => node ∉ result

section

variable (edges : List (α × α))

private theorem missing_append_lt (r fresh : List α) (node : α) (hn : node ∈ fresh)
    (hm : node ∈ missing edges r) : (missing edges (r ++ fresh)).length <
    (missing edges r).length := by
  have hs : missing edges (r ++ fresh) =
      (missing edges r).filter fun candidate => candidate ∉ fresh := by
    unfold missing
    rw [filter_filter]
    apply filter_congr
    intro candidate _
    simp [Bool.and_comm]
  rw [hs]
  exact length_filter_lt_length_iff_exists.mpr ⟨node, hm, by simpa using hn⟩

theorem recursiveUnion_subset (rounds : Nat) (r working : List α) :
    r ⊆ recursiveUnion edges rounds r working := by
  induction rounds generalizing r working with
  | zero => exact fun _ hm => hm
  | succ rounds ih =>
    simp only [recursiveUnion]
    split
    · exact fun _ hm => hm
    · exact fun _ hm => ih _ _ (mem_append_left _ hm)

theorem recursiveUnion_sound (seed : List α) (rounds : Nat) (r working : List α)
    (hw : ∀ node ∈ working, node ∈ r) (hr : ∀ node ∈ r, ∃ start ∈ seed,
    ReflTransGen (EdgeOf edges) start node) : ∀ node ∈ recursiveUnion edges rounds r working,
    ∃ start ∈ seed, ReflTransGen (EdgeOf edges) start node := by
  induction rounds generalizing r working with
  | zero => exact hr
  | succ rounds ih =>
    simp only [recursiveUnion]
    split
    · exact hr
    · apply ih
      · exact fun node hm => mem_append_right _ hm
      · intro node hm
        rcases mem_append.mp hm with ho | hf
        · exact hr node ho
        · rw [mem_dedup, mem_filter, mem_follow_iff] at hf
          obtain ⟨⟨source, hs, he⟩, _⟩ := hf
          obtain ⟨start, hs0, hp⟩ := hr source (hw source hs)
          exact ⟨start, hs0, hp.tail he⟩

/-- With enough rounds the result is closed under the edges: a node of the
result is still in the working table or its successors are already found. -/
theorem recursiveUnion_closed (rounds : Nat) (result working : List α)
    (hr : (missing edges result).length < rounds) (hc : ∀ node ∈ result, node ∉ working → ∀ next,
    (node, next) ∈ edges → next ∈ result) : ∀ node ∈ recursiveUnion edges rounds result working,
    ∀ next, (node, next) ∈ edges → next ∈ recursiveUnion edges rounds result working := by
  induction rounds generalizing result working with
  | zero => omega
  | succ rounds ih =>
    have hf : ∀ node ∈ working, ∀ next, (node, next) ∈ edges → next ∉ result →
        next ∈ ((follow edges working).filter fun candidate => candidate ∉ result).dedup := by
      intro node hnd next he hn
      rw [mem_dedup, mem_filter, mem_follow_iff]
      exact ⟨⟨node, hnd, he⟩, by simpa using hn⟩
    simp only [recursiveUnion]
    split
    · next hem =>
      intro node hnd next he
      by_cases hw : node ∈ working
      · by_contra hn
        have hm := hf node hw next he hn
        rw [hem] at hm
        exact not_mem_nil hm
      · exact hc node hnd hw next he
    · next hne =>
      obtain ⟨first, h1⟩ := exists_mem_of_ne_nil _ hne
      apply ih
      · have hms : first ∈ missing edges result := by
          rw [mem_dedup, mem_filter, mem_follow_iff] at h1
          obtain ⟨⟨source, _, he⟩, hn⟩ := h1
          exact mem_filter.mpr ⟨mem_map.mpr ⟨_, he, rfl⟩, hn⟩
        have := missing_append_lt edges result _ first h1 hms
        omega
      · intro node hnd hs next he
        have ho : node ∈ result := (mem_append.mp hnd).resolve_right hs
        by_cases hn : next ∈ result
        · exact mem_append_left _ hn
        · apply mem_append_right
          by_cases hw : node ∈ working
          · exact hf node hw next he hn
          · exact absurd (hc node ho hw next he) hn

end

def freshRows (edges : List (α × α)) (result working : List α) : List α :=
  ((follow edges working).filter fun node => node ∉ result).dedup

/-- The evaluation as the rounds it takes: it ends with the first that adds nothing. -/
inductive Evaluates (edges : List (α × α)) : List α → List α → List α → Prop where
  | stop {result working : List α} (hnothing : freshRows edges result working = []) :
      Evaluates edges result working result
  | round {result working final : List α} (hfresh : freshRows edges result working ≠ [])
      (hrest : Evaluates edges (result ++ freshRows edges result working)
        (freshRows edges result working) final) :
      Evaluates edges result working final

section

variable (edges : List (α × α))

theorem recursiveUnion_evaluates (rounds : Nat) (result working : List α)
    (hr : (missing edges result).length < rounds) : Evaluates edges result working
    (recursiveUnion edges rounds result working) := by
  induction rounds generalizing result working with
  | zero => omega
  | succ rounds ih =>
    simp only [recursiveUnion]
    split
    · next hno => exact .stop hno
    · next hf =>
      refine .round hf (ih _ _ ?_)
      obtain ⟨first, h1⟩ := exists_mem_of_ne_nil _ hf
      have hms : first ∈ missing edges result := by
        have hm := h1
        simp only [mem_dedup, mem_filter, mem_follow_iff] at hm
        obtain ⟨⟨source, -, he⟩, hn⟩ := hm
        exact mem_filter.mpr ⟨mem_map.mpr ⟨_, he, rfl⟩, hn⟩
      exact Nat.lt_of_lt_of_le (missing_append_lt edges result _ first h1 hms)
        (Nat.le_of_lt_succ hr)

private theorem missing_length_le (r : List α) : (missing edges r).length ≤ edges.length := by
  have hl := length_filter_le (fun node => decide (node ∉ r)) (edges.map Prod.snd)
  rwa [length_map] at hl

theorem reachable_evaluates (seed : List α) : Evaluates edges seed.dedup seed.dedup
    (reachable edges seed) :=
  recursiveUnion_evaluates edges _ _ _ (Nat.lt_succ_of_le (missing_length_le edges _))

theorem mem_reachable_iff (seed : List α) (node : α) : node ∈ reachable edges seed ↔ ∃ start ∈ seed,
    ReflTransGen (EdgeOf edges) start node := by
  constructor
  · apply recursiveUnion_sound edges seed
    · exact fun _ hm => hm
    · exact fun start hs => ⟨start, mem_dedup.mp hs, .refl⟩
  · rintro ⟨start, hs, hp⟩
    induction hp with
    | refl => exact recursiveUnion_subset _ _ _ _ (mem_dedup.mpr hs)
    | tail _ he ih =>
      refine recursiveUnion_closed edges _ _ _ ?_ ?_ _ ih _ he
      · exact Nat.lt_succ_of_le (missing_length_le edges _)
      · exact fun node hm hsl => absurd hm hsl

end

end Relational
