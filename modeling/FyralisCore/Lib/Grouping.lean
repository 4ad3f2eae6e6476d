import Mathlib.Logic.Function.Basic

/-! Items that are gathered into groups and closed one by one. A group is an item
too; its members point at it and stand on its list. What is kept up is that no
open member points at a closed group. -/
namespace Grouping

variable {K : Type}

structure Item (K : Type) where
  closed : Bool
  parent : Option K
  isGroup : Bool
  members : List K

/-- Members stand on the list of their group, and groups are not grouped. -/
structure Listed (items : K → Option (Item K)) : Prop where
  member : ∀ {key item group}, items key = some item → item.parent = some group →
    ∃ entry, items group = some entry ∧ entry.isGroup ∧ key ∈ entry.members
  single : ∀ {key item}, items key = some item → item.isGroup → item.parent = none

def Covered (items : K → Option (Item K)) : Prop :=
  ∀ key item group, items key = some item → item.closed = false → item.parent = some group →
    ∃ entry, items group = some entry ∧ entry.closed = false

/-- No item comes or goes; items close and leave their group, and that is all. -/
structure Progress (items after : K → Option (Item K)) : Prop where
  kept : ∀ {key item}, items key = some item → ∃ item', after key = some item' ∧
    item'.isGroup = item.isGroup ∧ item'.members = item.members ∧
    (item'.parent = item.parent ∨ item'.parent = none) ∧
    (item.closed → item'.closed)
  back : ∀ {key item'}, after key = some item' → ∃ item, items key = some item

/-- Whatever closes is a member itself or leaves no open member behind. -/
def ClosesWithMembers (items after : K → Option (Item K)) : Prop :=
  ∀ group entry entry', items group = some entry → after group = some entry' →
    entry.closed = false → entry'.closed → entry.parent ≠ none ∨
      ∀ key item item', items key = some item → after key = some item' →
        item.parent = some group → item'.closed ∨ item'.parent = none

variable {items after : K → Option (Item K)}

theorem Progress.before (hp : Progress items after)
    (ha : after key = some item') : ∃ item, items key = some item ∧
      item'.isGroup = item.isGroup ∧ item'.members = item.members ∧
      (item'.parent = item.parent ∨ item'.parent = none) ∧
      (item.closed → item'.closed) := by
  obtain ⟨item, hi⟩ := hp.back ha
  obtain ⟨_, hs, hf⟩ := hp.kept hi
  cases ha.symm.trans hs
  exact ⟨item, hi, hf⟩

theorem Progress.trans (h1 : Progress items after)
    (h2 : Progress after last) : Progress items last where
  kept := by
    intro key item hi
    obtain ⟨m, hm, hg, hmb, hp, hc⟩ := h1.kept hi
    obtain ⟨item', hi', hg', hm', hp', hc'⟩ := h2.kept hm
    refine ⟨item', hi', hg'.trans hg, hm'.trans hmb, ?_, fun h => hc' (hc h)⟩
    rcases hp' with hs | hn
    · exact hs ▸ hp
    · exact .inr hn
  back := by
    intro key item' hl
    obtain ⟨m, hm⟩ := h2.back hl
    exact h1.back hm

theorem Listed.progress (hl : Listed items) (hp : Progress items after) : Listed after where
  member := by
    intro key item' group hi' hpr
    obtain ⟨item, hi, -, -, hk, -⟩ := hp.before hi'
    have hb : item.parent = some group := by
      rcases hk with hs | hn
      · rw [← hs, hpr]
      · rw [hpr] at hn
        cases hn
    obtain ⟨e, he, hg, hm⟩ := hl.member hi hb
    obtain ⟨entry', he', hg', hm', -⟩ := hp.kept he
    exact ⟨entry', he', hg'.trans hg, hm' ▸ hm⟩
  single := by
    intro key item' hi' hg
    obtain ⟨item, hi, hg', -, hk, -⟩ := hp.before hi'
    rcases hk with hs | hn
    · exact hs.trans (hl.single hi (hg'.symm.trans hg))
    · exact hn

theorem Covered.progress (hl : Listed items) (hcv : Covered items)
    (hp : Progress items after) (hc : ClosesWithMembers items after) : Covered after := by
  intro key item' group hi' ho hpr
  obtain ⟨item, hi, -, -, hk, hcl⟩ := hp.before hi'
  have hb : item.parent = some group := by
    rcases hk with hs | hn
    · rw [← hs, hpr]
    · rw [hpr] at hn
      cases hn
  have hop : item.closed = false := by
    rw [← Bool.not_eq_true]
    intro h
    rw [hcl h] at ho
    cases ho
  obtain ⟨e, he, hent⟩ := hcv key item group hi hop hb
  obtain ⟨entry', he', -⟩ := hp.kept he
  refine ⟨entry', he', ?_⟩
  rw [← Bool.not_eq_true]
  intro hen
  rcases hc group e entry' he he' hent hen with hm | hlf
  · obtain ⟨listed, hg, hgr, -⟩ := hl.member hi hb
    cases he.symm.trans hg
    exact hm (hl.single he hgr)
  · rcases hlf key item item' hi hi' hb with hsh | hf
    · rw [ho] at hsh
      cases hsh
    · rw [hpr] at hf
      cases hf

structure Added (items after : K → Option (Item K)) (added : K) : Prop where
  fresh : items added = none
  single : ∀ item, after added = some item → item.parent = none
  other : ∀ key, key ≠ added → after key = items key

theorem Added.ne (ha : Added items after added) (hi : items key = some item) : key ≠ added := by
  rintro rfl
  rw [ha.fresh] at hi
  cases hi

theorem Listed.added {added : K} (hl : Listed items) (ha : Added items after added) :
    Listed after where
  member := by
    intro key item group hi hp
    by_cases hk : key = added
    · subst hk
      rw [ha.single item hi] at hp
      cases hp
    · rw [ha.other key hk] at hi
      obtain ⟨e, he, hf⟩ := hl.member hi hp
      exact ⟨e, (ha.other group (ha.ne he)).trans he, hf⟩
  single := by
    intro key item hi hg
    by_cases hk : key = added
    · subst hk
      exact ha.single item hi
    · rw [ha.other key hk] at hi
      exact hl.single hi hg

theorem Covered.added {added : K} (hc : Covered items)
    (ha : Added items after added) : Covered after := by
  intro key item group hi ho hp
  by_cases hk : key = added
  · subst hk
    rw [ha.single item hi] at hp
    cases hp
  · rw [ha.other key hk] at hi
    obtain ⟨e, he, hen⟩ := hc key item group hi ho hp
    exact ⟨e, (ha.other group (ha.ne he)).trans he, hen⟩

/-- A new group over items that are no groups: the free ones on its list join. -/
structure Grouped (items after : K → Option (Item K)) (group : K) (entry : Item K) : Prop where
  fresh : items group = none
  get_group : after group = some entry
  isGroup : entry.isGroup
  opened : entry.closed = false
  single : entry.parent = none
  plain : ∀ key ∈ entry.members, ∀ item, items key = some item → item.isGroup = false
  other : ∀ key item, items key = some item → after key = some item ∨
    (key ∈ entry.members ∧ item.parent = none ∧ after key = some { item with parent := some group })
  back : ∀ key item', key ≠ group → after key = some item' → ∃ item, items key = some item

theorem Listed.grouped (hls : Listed items) (hgp : Grouped items after group e) : Listed after where
  member := by
    intro key item' parent hi' hpr
    by_cases hk : key = group
    · subst hk
      cases hi'.symm.trans hgp.get_group
      rw [hgp.single] at hpr
      cases hpr
    · obtain ⟨item, hi⟩ := hgp.back key item' hk hi'
      rcases hgp.other key item hi with hs | ⟨hm, -, hj⟩
      · cases hi'.symm.trans hs
        obtain ⟨old, ho, hg, hl⟩ := hls.member hi hpr
        rcases hgp.other parent old ho with holdSame | ⟨-, -, hol⟩
        · exact ⟨old, holdSame, hg, hl⟩
        · exact ⟨_, hol, hg, hl⟩
      · cases hi'.symm.trans hj
        cases hpr
        exact ⟨e, hgp.get_group, hgp.isGroup, hm⟩
  single := by
    intro key item' hi' hg
    by_cases hk : key = group
    · subst hk
      cases hi'.symm.trans hgp.get_group
      exact hgp.single
    · obtain ⟨item, hi⟩ := hgp.back key item' hk hi'
      rcases hgp.other key item hi with hs | ⟨hm, -, hj⟩
      · cases hi'.symm.trans hs
        exact hls.single hi hg
      · cases hi'.symm.trans hj
        have hp := hgp.plain key hm item hi
        rw [show item.isGroup from hg] at hp
        cases hp

theorem Covered.grouped (hc : Covered items)
    (hg : Grouped items after group e) : Covered after := by
  intro key item' parent hi' ho hp
  by_cases hk : key = group
  · subst hk
    cases hi'.symm.trans hg.get_group
    rw [hg.single] at hp
    cases hp
  · obtain ⟨item, hi⟩ := hg.back key item' hk hi'
    rcases hg.other key item hi with hs | ⟨-, -, hj⟩
    · cases hi'.symm.trans hs
      obtain ⟨old, hold, hol⟩ := hc key _ parent hi ho hp
      rcases hg.other parent old hold with holdSame | ⟨-, -, holdJoined⟩
      · exact ⟨old, holdSame, hol⟩
      · exact ⟨_, holdJoined, hol⟩
    · cases hi'.symm.trans hj
      cases hp
      exact ⟨e, hg.get_group, hg.opened⟩

end Grouping
