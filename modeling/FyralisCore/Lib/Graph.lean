import Mathlib.Order.WellFoundedSet

/-! Directed graphs as edge relations. Acyclicity is stated on the transitive
closure, and every result about adding edges is read off one decomposition: a
path through two edge sets either stays in the first or crosses the second. -/
namespace Graph

open Relation TransGen

variable {α : Type}

def Acyclic (edge : α → α → Prop) : Prop :=
  ∀ node, ¬ TransGen edge node node

def withEdge (edge : α → α → Prop) (source target : α) : α → α → Prop :=
  fun a b => edge a b ∨ (a = source ∧ b = target)

theorem Acyclic.mono (ha : Acyclic larger)
    (hs : ∀ a b, smaller a b → larger a b) : Acyclic smaller :=
  fun node hc => ha node (TransGen.mono hs _ _ hc)

theorem acyclic_empty : Acyclic (fun _ _ : α => False) := by
  intro node hc
  obtain ⟨_, he, _⟩ := head'_iff.mp hc
  exact he

/-- Nodes with nothing but finite walks ahead lie on no cycle. -/
theorem acyclic_of_acc (ha : ∀ a b, edge a b → Acc (fun b a => edge a b) a) : Acyclic edge := by
  have hn : ∀ node, Acc (fun b a => edge a b) node → ¬ TransGen edge node node := by
    intro node hnd
    induction hnd with
    | intro node _ ih =>
      intro hc
      obtain ⟨next, hnx, hb⟩ := head'_iff.mp hc
      exact ih next hnx (.tail' hb hnx)
  intro node hc
  obtain ⟨_, he, _⟩ := head'_iff.mp hc
  exact hn node (ha node _ he) hc

/-- Finitely many nodes, of which each has an edge to another, hold a cycle. -/
theorem not_acyclic_of_stuck {edge : α → α → Prop} (hne : nodes ≠ [])
    (hs : ∀ a ∈ nodes, ∃ b ∈ nodes, edge a b) : ¬ Acyclic edge := by
  intro hac
  have : Std.Irrefl fun b a => TransGen edge a b := ⟨hac⟩
  have : IsStrictOrder α fun b a => TransGen edge a b := {}
  obtain ⟨first, h1⟩ := List.exists_mem_of_ne_nil nodes hne
  have hf := nodes.finite_toSet.wellFoundedOn (r := fun b a => TransGen edge a b)
  refine hf.induction (P := fun _ => False) h1 fun a ha hn => ?_
  obtain ⟨b, hb, he⟩ := hs a ha
  exact hn b hb (.single he)

variable {x : α}

/-- A path over two edge sets stays inside the first or crosses an edge of the
second. -/
theorem path_stays_or_crosses {second : α → α → Prop}
    (hp : ReflTransGen (fun a b => first a b ∨ second a b) x y) : ReflTransGen first x y ∨
      ∃ u v, second u v ∧ ReflTransGen (fun a b => first a b ∨ second a b) x u ∧
        ReflTransGen (fun a b => first a b ∨ second a b) v y := by
  induction hp with
  | refl => exact .inl .refl
  | @tail b c hpr he ih =>
    rcases ih with hs | ⟨u, v, hc, ht, hf⟩
    · rcases he with h1 | h2
      · exact .inl (hs.tail h1)
      · exact .inr ⟨b, c, h2, hpr, .refl⟩
    · exact .inr ⟨u, v, hc, ht, hf.tail he⟩

theorem cycle_stays_or_crosses {second : α → α → Prop}
    (hp : TransGen (fun a b => first a b ∨ second a b) x y) : TransGen first x y ∨
      ∃ u v, second u v ∧ ReflTransGen (fun a b => first a b ∨ second a b) x u ∧
        ReflTransGen (fun a b => first a b ∨ second a b) v y := by
  obtain ⟨b, hpr, hl⟩ := tail'_iff.mp hp
  rcases hl with h1 | h2
  · rcases path_stays_or_crosses hpr with hs | ⟨u, v, hc, ht, hf⟩
    · exact .inl (tail' hs h1)
    · exact .inr ⟨u, v, hc, ht, hf.tail (.inl h1)⟩
  · exact .inr ⟨b, y, h2, hpr, .refl⟩

theorem path_of_edges_to_start (hed : ∀ a b, larger a b → smaller a b ∨ b = start)
    (hp : ReflTransGen larger start x) : ReflTransGen smaller start x := by
  induction hp with
  | refl => exact .refl
  | tail _ he ih =>
    rcases hed _ _ he with hs | rfl
    · exact ih.tail hs
    · exact .refl

/-- Adding one edge keeps a graph acyclic exactly when its source is not
already reachable from its target. -/
theorem acyclic_withEdge_iff (hac : Acyclic edge) (source target : α) :
    Acyclic (withEdge edge source target) ↔ ¬ ReflTransGen edge target source := by
  constructor
  · intro ha hb
    have hl : ReflTransGen (withEdge edge source target) target source :=
      ReflTransGen.mono (fun _ _ => Or.inl) _ _ hb
    exact ha source (head' (.inr ⟨rfl, rfl⟩) hl)
  · intro hb node hc
    -- The cycle crosses the new edge, and between two crossings it stays in
    -- the old graph: descend on the part behind the last crossing.
    have hr : ∀ {x y : α}, ReflTransGen (withEdge edge source target) x y →
        ReflTransGen edge x y ∨ (ReflTransGen edge x source ∧ ReflTransGen edge target y) := by
      intro x y hp
      induction hp with
      | refl => exact .inl .refl
      | tail _ hs ih =>
        rcases hs with ho | ⟨rfl, rfl⟩
        · rcases ih with hd | ⟨ht, hf⟩
          · exact .inl (hd.tail ho)
          · exact .inr ⟨ht, hf.tail ho⟩
        · rcases ih with hd | ⟨ht, _⟩
          · exact .inr ⟨hd, .refl⟩
          · exact .inr ⟨ht, .refl⟩
    rcases cycle_stays_or_crosses hc with hst | ⟨u, v, ⟨rfl, rfl⟩, ht, hf⟩
    · exact hac node hst
    · rcases hr (hf.trans ht) with hd | ⟨ht', _⟩
      · exact hb hd
      · exact hb ht'

/-- Two acyclic graphs that agree on a common part: `current` holds everything
in `base`, and `own` is acyclic together with `base`. Their union is acyclic
exactly when no edge that `current` has over `base` lies on a path from the
target of an own edge back to its source. -/
theorem acyclic_union_iff {base own : α → α → Prop}
    (hbs : ∀ a b, base a b → current a b) (hcr : Acyclic current)
    (ho : Acyclic fun a b => base a b ∨ own a b) : Acyclic (fun a b => current a b ∨ own a b) ↔
      ∀ u v x y, own u v → current x y → ¬ base x y →
        ¬ (ReflTransGen (fun a b => current a b ∨ own a b) v x ∧
          ReflTransGen (fun a b => current a b ∨ own a b) y u) := by
  constructor
  · rintro ha u v x y he hn - ⟨hto, hb⟩
    exact ha u (head' (.inr he) ((hto.tail (.inl hn)).trans hb))
  · intro hfr node hc
    have hsp : ∀ a b, (current a b ∨ own a b) ↔
        ((base a b ∨ own a b) ∨ (current a b ∧ ¬ base a b)) := by
      intro a b
      tauto
    have hc' := mono (fun a b => (hsp a b).mp) _ _ hc
    rcases cycle_stays_or_crosses hc' with hs | ⟨x, y, ⟨hn, hnt⟩, hto, hf⟩
    · exact ho node hs
    · -- Rotate the cycle so that it starts behind the new edge.
      have ht : ReflTransGen (fun a b => current a b ∨ own a b) y x :=
        ReflTransGen.mono (fun a b => (hsp a b).mpr) _ _ (hf.trans hto)
      rcases path_stays_or_crosses ht with hs | ⟨u, v, he, hy, hv⟩
      · exact hcr x (head' hn hs)
      · exact hfr u v x y he hn hnt ⟨hv, hy⟩

end Graph
