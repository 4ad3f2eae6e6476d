import FyralisCore.Models.Insert
import Mathlib.Data.List.Sort
import Mathlib.Data.Prod.Lex
import Mathlib.Data.String.Basic

/-! The region key of a T1 trigger (`region_locks.py`): the entity that stands for the
region is the first of the mentioned ones after a stable sort. -/
namespace FyralisCore.Think.RegionLocks

open List Option

open Acts (Json)

variable (str : Json → String)

def entityTypePrecedence : String → Nat
  | "commitment" => 0
  | "goal" => 1
  | "decision" => 2
  | "resource" => 3
  | "customer" => 3
  | "customer_resource" => 3
  | "actor" => 4
  | _ => 99

/-- The texts of an entity that the filter keeps, its type and its id; `str` is the
builtin. -/
def mentionedEntity : Json → Option (String × String)
  | .object fields =>
    match fields.lookup "type", fields.lookup "id" with
    | some type, some id =>
      if Models.truthy type && Models.notNull id then some (str type, str id) else none
    | _, _ => none
  | _ => none

def sortKey (entity : String × String) : Nat ×ₗ String :=
  toLex (entityTypePrecedence entity.1, entity.2)

/-- `sorted` with the sort key, which keeps the order of the entities that tie. -/
def sortedEntities (entities : List (String × String)) : List (String × String) :=
  entities.insertionSort fun first second => sortKey first ≤ sortKey second

def computePrimaryEntity (entitiesMentioned : Option (List Json)) : Option (String × String) :=
  (sortedEntities ((entitiesMentioned.getD []).filterMap (mentionedEntity str))).head?

/-- What the key reads of a trigger; an absent attribute is `None`. -/
structure TriggerContext where
  tenantId : Option Nat := none
  actorId : Option Nat := none
  scopeActors : Option (List Nat) := none
  entitiesMentioned : Option (List Json) := none
  seedEntityIds : Option (List Json) := none

def TriggerContext.actor (trigger : TriggerContext) : Option Nat :=
  trigger.actorId.or ((trigger.scopeActors.getD []).head?)

def TriggerContext.entities (trigger : TriggerContext) : Option (List Json) :=
  trigger.entitiesMentioned.or trigger.seedEntityIds

inductive RegionKey where
  | entity (tenantId actorId : Option Nat) (primaryType primaryId : String)
  | noEntity (tenantId actorId : Option Nat)
  deriving DecidableEq

def computeRegionKeyT1 (trigger : TriggerContext) : RegionKey :=
  match computePrimaryEntity str trigger.entities with
  | none => .noEntity trigger.tenantId trigger.actor
  | some (type, id) => .entity trigger.tenantId trigger.actor type id

section

variable {entities : List (String × String)} {entity : String × String}

theorem sortedEntities_head (hh : (sortedEntities entities).head? = some entity) :
    entity ∈ entities ∧ ∀ other ∈ entities, sortKey entity ≤ sortKey other := by
  have hs := pairwise_insertionSort
    (fun first second : String × String => sortKey first ≤ sortKey second) entities
  have hp := perm_insertionSort
    (fun first second : String × String => sortKey first ≤ sortKey second) entities
  obtain ⟨rest, hc⟩ := List.head?_eq_some_iff.mp hh
  rw [sortedEntities] at hc
  rw [hc] at hs hp
  refine ⟨hp.mem_iff.mp (.head _), fun other ho => ?_⟩
  rcases mem_cons.mp (hp.mem_iff.mpr ho) with rfl | ht
  · exact le_refl _
  · exact (pairwise_cons.mp hs).1 other ht

/-- The sort is stable: a least entity that comes first stays first. -/
theorem head_sortedEntities_cons (hl : ∀ other ∈ entities, sortKey entity ≤ sortKey other) :
    (sortedEntities (entity :: entities)).head? = some entity := by
  rw [sortedEntities, insertionSort_cons_of_forall_rel _ hl, List.head?_cons]

end

/-- The entities are named, and none comes before this one. -/
def Least (entities : List Json) (entity : String × String) : Prop :=
  entity ∈ entities.filterMap (mentionedEntity str) ∧
    ∀ other ∈ entities.filterMap (mentionedEntity str), sortKey entity ≤ sortKey other

/-- The entities that come before all others share the text of their type. -/
def OneType (entities : List Json) : Prop :=
  ∀ first second, Least str entities first → Least str entities second → first.1 = second.1

variable {str} {entities other : List Json} {first second : String × String}

theorem Least.perm (hp : other.Perm entities) (hl : Least str other first) :
    Least str entities first := by
  have hs := hp.filterMap (mentionedEntity str)
  exact ⟨hs.mem_iff.mp hl.1, fun entity hm => hl.2 entity (hs.mem_iff.mpr hm)⟩

theorem Least.id_eq (h1 : Least str entities first) (h2 : Least str entities second) :
    first.2 = second.2 := by
  have hk := le_antisymm (h1.2 second h2.1) (h2.2 first h1.1)
  exact congrArg (fun key => (ofLex key).2) hk

theorem least_of_primary (hp : computePrimaryEntity str (some entities) = some first) :
    Least str entities first :=
  sortedEntities_head hp

/-- A least entity is the primary one when its dict is moved to the front. -/
theorem Least.exists_primary (hl : Least str entities first) :
    ∃ other : List Json, other.Perm entities ∧
      computePrimaryEntity str (some other) = some first := by
  obtain ⟨dict, hd, he⟩ := mem_filterMap.mp hl.1
  obtain ⟨before, t, rfl⟩ := append_of_mem hd
  have hp : (dict :: (before ++ t)).Perm (before ++ dict :: t) := perm_middle.symm
  refine ⟨_, hp, ?_⟩
  rw [computePrimaryEntity, getD_some, filterMap_cons_some he]
  refine head_sortedEntities_cons fun other ho => hl.2 other ?_
  refine (hp.filterMap _).mem_iff.mp ?_
  rw [filterMap_cons_some he]
  exact .tail _ ho

theorem computePrimaryEntity_perm (hon : OneType str entities) (hpr : other.Perm entities) :
    computePrimaryEntity str (some other) = computePrimaryEntity str (some entities) := by
  cases ho : computePrimaryEntity str (some other) with
  | none =>
    have hl := (hpr.filterMap (mentionedEntity str)).length_eq
    simp only [computePrimaryEntity, sortedEntities, getD_some, List.head?_eq_none_iff,
      ← length_eq_zero_iff, length_insertionSort] at ho
    rw [eq_comm, computePrimaryEntity, List.head?_eq_none_iff, ← length_eq_zero_iff,
      sortedEntities, length_insertionSort, getD_some, ← hl, ho]
  | some first =>
    have h1 := (least_of_primary ho).perm hpr
    cases hp : computePrimaryEntity str (some entities) with
    | none =>
      rw [computePrimaryEntity, List.head?_eq_none_iff, ← length_eq_zero_iff, sortedEntities,
        length_insertionSort, length_eq_zero_iff, getD_some] at hp
      rw [Least, hp] at h1
      cases h1.1
    | some second =>
      have h2 := least_of_primary hp
      rw [Prod.ext (hon _ _ h1 h2) (h1.id_eq h2)]

/-- The order of the mentioned entities is forgotten exactly when those that come before
all others share their type. -/
theorem region_key_order_free_iff (str : Json → String) (entities : List Json) :
    ((∀ other : List Json, other.Perm entities →
        computePrimaryEntity str (some other) = computePrimaryEntity str (some entities)) ↔
      OneType str entities) ∧ ((∀ first second : TriggerContext, first.tenantId = second.tenantId →
        first.actor = second.actor → first.entities = some entities →
        (∃ other, second.entities = some other ∧ other.Perm entities) →
        computeRegionKeyT1 str first = computeRegionKeyT1 str second) ↔ OneType str entities) := by
  have hprimary : (∀ other : List Json, other.Perm entities →
      computePrimaryEntity str (some other) = computePrimaryEntity str (some entities)) →
      OneType str entities := by
    intro hfree first second hfirst hsecond
    obtain ⟨other, hperm, hother⟩ := hfirst.exists_primary
    obtain ⟨other', hperm', hother'⟩ := hsecond.exists_primary
    have hsame := (hfree other hperm).trans (hfree other' hperm').symm
    rw [hother, hother'] at hsame
    exact congrArg Prod.fst (Option.some.inj hsame)
  refine ⟨⟨hprimary, fun hone other => computePrimaryEntity_perm hone⟩, ?_, ?_⟩
  · refine fun hfree => hprimary fun other hperm => ?_
    have hkey := hfree { entitiesMentioned := some entities } { entitiesMentioned := some other }
      rfl rfl rfl ⟨other, rfl, hperm⟩
    simp only [computeRegionKeyT1, TriggerContext.entities, some_or] at hkey
    cases hother : computePrimaryEntity str (some other) <;>
      cases hentities : computePrimaryEntity str (some entities) <;>
        simp_all [TriggerContext.actor, Prod.ext_iff]
  · rintro hone first second htenant hactor hfirst ⟨other, hsecond, hperm⟩
    rw [computeRegionKeyT1, computeRegionKeyT1, hfirst, hsecond,
      computePrimaryEntity_perm hone hperm, htenant, hactor]

def aliasedEntities : List Json :=
  [.object [("type", .string "customer"), ("id", .string "7")],
    .object [("type", .string "resource"), ("id", .string "7")]]

def textOf : Json → String
  | .string value => value
  | _ => ""

theorem aliases_swap_key :
    computePrimaryEntity textOf (some aliasedEntities) = some ("customer", "7") ∧
      computePrimaryEntity textOf (some aliasedEntities.reverse) = some ("resource", "7") ∧
      computeRegionKeyT1 textOf { entitiesMentioned := some aliasedEntities } ≠
        computeRegionKeyT1 textOf { entitiesMentioned := some aliasedEntities.reverse } := by
  decide +kernel

end FyralisCore.Think.RegionLocks
