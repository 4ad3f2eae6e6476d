import FyralisCore.Think.Unblocking

/-! How the cascade recomputes the health of goals and customers. Nothing it
writes here is read by what it computes, so a health that is current stays so. -/
namespace FyralisCore.Think

open Relational Transaction Acts Tx Downstream

/-- The cached health of the goal is what `compute_worst_of_health` answers. -/
def HealthCurrent (db : Db) (goalId : Nat) : Prop :=
  ∀ goal, db.goals.get goalId = some goal →
    goal.cachedHealth = worstOfHealth (db.criticalPathStates goalId)

/-- Nothing but observations and the health of goals differs, and a health that
differs is current. -/
structure Settles (db s : Db) : Prop where
  frame : ∃ goals observations, s = { db with goals, observations }
  health : ∀ goalId, s.goals.get goalId = db.goals.get goalId ∨
    (HealthCurrent s goalId ∧ ∃ goal health now, db.goals.get goalId = some goal ∧
      s.goals.get goalId = some (goal.withHealth health now))

section

variable {db s t : Db}

section

variable (hs : Settles db s)

include hs

theorem Settles.commitments : s.commitments = db.commitments := by
  obtain ⟨_, _, hf⟩ := hs.frame
  rw [hf]

theorem Settles.contributesTo : s.contributesTo = db.contributesTo := by
  obtain ⟨_, _, hf⟩ := hs.frame
  rw [hf]

theorem Settles.tenants : s.tenants = db.tenants := by
  obtain ⟨_, _, hf⟩ := hs.frame
  rw [hf]

theorem Settles.criticalPathStates (goalId : Nat) : s.criticalPathStates goalId =
    db.criticalPathStates goalId := by
  unfold Db.criticalPathStates
  rw [hs.commitments, hs.contributesTo]

end

theorem Settles.current (hse : Settles db s)
    (hc : HealthCurrent db goalId) : HealthCurrent s goalId := by
  rcases hse.health goalId with hs | ⟨hn, -⟩
  · intro goal hg
    rw [hse.criticalPathStates]
    exact hc goal (hs.symm.trans hg)
  · exact hn

theorem Settles.of_observes (ho : OnlyObserves db s) : Settles db s := by
  obtain ⟨observations, rfl⟩ := ho
  exact ⟨⟨_, _, rfl⟩, fun _ => .inl rfl⟩

theorem Settles.refl (db : Db) : Settles db db :=
  .of_observes (.refl db)

theorem Settles.trans (hon : Settles db s) (ht : Settles s t) : Settles db t where
  frame := by
    obtain ⟨_, _, h1⟩ := hon.frame
    obtain ⟨_, _, h2⟩ := ht.frame
    exact ⟨_, _, by rw [h2, h1]⟩
  health := by
    intro goalId
    rcases ht.health goalId with hs | ⟨hc, goal, health, now, hg, ha⟩
    · rcases hon.health goalId with hb | ⟨hc, goal, health, now, hg, ha⟩
      · exact .inl (hs.trans hb)
      · exact .inr ⟨ht.current hc, goal, health, now, hg, hs.trans ha⟩
    · rcases hon.health goalId with hb | ⟨-, old, first, earlier, ho, hm⟩
      · exact .inr ⟨hc, goal, health, now, hb.symm.trans hg, ha⟩
      · cases hm.symm.trans hg
        exact .inr ⟨hc, old, health, now, ho, ha⟩

theorem Settles.tenantId (hse : Settles db s) (hg : s.goals.get goalId = some goal) :
    ∃ old, db.goals.get goalId = some old ∧ old.tenantId = goal.tenantId := by
  rcases hse.health goalId with hs | ⟨-, old, health, now, ho, ha⟩
  · exact ⟨goal, hs.symm.trans hg, rfl⟩
  · cases ha.symm.trans hg
    exact ⟨old, ho, rfl⟩

end

def IsIdle (event : CascadeEvent) : Prop :=
  event.kind = .goalHealthRecomputed ∨ event.kind = .customerHealthRecomputed

section Recompute

variable {db : Db} {supply : Nat} {E : ActError → Db → Nat → Prop}

variable {clock : Clock} {goalId left tenantId : Nat} {event : CascadeEvent}
  {arrUsd : Json → Option Amount}

theorem ends_recomputeCachedHealth : Tx.Ends Db.apply (recomputeCachedHealth clock goalId) db supply
      (fun _ s left => left = supply ∧ Settles db s ∧ HealthCurrent s goalId) E := by
  refine ⟨rfl, ?_⟩
  have hg : ∀ other, (db.apply (.setGoalHealth goalId
      (worstOfHealth (db.criticalPathStates goalId)) clock.transactionNow)).goals.get other =
      if other = goalId then (db.goals.get other).map fun goal =>
        goal.withHealth (worstOfHealth (db.criticalPathStates goalId)) clock.transactionNow
      else db.goals.get other :=
    fun other => apply_goals_get _ _ _
  have hc : HealthCurrent (db.apply (.setGoalHealth goalId
      (worstOfHealth (db.criticalPathStates goalId)) clock.transactionNow)) goalId := by
    intro goal hgl
    rw [hg, if_pos rfl] at hgl
    obtain ⟨old, -, rfl⟩ := Option.map_eq_some_iff.mp hgl
    rfl
  refine ⟨⟨⟨_, _, rfl⟩, fun other => ?_⟩, hc⟩
  simp only [List.foldl_cons, List.foldl_nil]
  by_cases ho : other = goalId
  · subst ho
    cases hgl : db.goals.get other with
    | none =>
      left
      rw [hg, hgl, if_pos rfl]
      rfl
    | some goal =>
      right
      refine ⟨hc, goal, worstOfHealth (db.criticalPathStates other), clock.transactionNow, rfl, ?_⟩
      rw [hg, hgl, if_pos rfl]
      rfl
  · left
    rw [hg, if_neg ho]

/-- The events of a loop that recomputes: idle, made in turn, one an item at most. -/
structure IdleEvents (supply : Nat) (count : Nat) (parts : List Downstream) (left : Nat) :
    Prop where
  minted : Minted supply left (parts.flatMap events)
  idle : ∀ event ∈ parts.flatMap events, IsIdle event
  short : (parts.flatMap events).length ≤ count
  accepted : parts.flatMap violations = []

theorem IdleEvents.begin (supply : Nat) : IdleEvents supply 0 [] supply where
  minted := .nil (Nat.le_refl _)
  idle := fun _ hm => absurd hm List.not_mem_nil
  short := Nat.le_refl _
  accepted := rfl

theorem IdleEvents.append
    (hp : IdleEvents supply count parts left) (hl : IdleEvents left more u rest) :
    IdleEvents supply (count + more) (parts ++ u) rest where
  minted := by
    rw [List.flatMap_append]
    exact hp.minted.append hl.minted
  idle := by
    intro event hm
    rw [List.flatMap_append] at hm
    exact (List.mem_append.mp hm).elim (hp.idle event) (hl.idle event)
  short := by
    rw [List.flatMap_append, List.length_append]
    exact Nat.add_le_add hp.short hl.short
  accepted := by rw [List.flatMap_append, hp.accepted, hl.accepted]; rfl

theorem IdleEvents.one (hi : IsIdle event) (hl : supply ≤ event.id) (hu : event.id < left) :
    IdleEvents supply 1 [{ events := [event] }] left where
  minted := .single hl hu
  idle := by
    intro other hm
    rwa [List.mem_singleton.mp hm]
  short := Nat.le_refl _
  accepted := rfl

theorem ends_recomputeGoal (ht : tenantId ∈ db.tenants) :
    Tx.Ends Db.apply (recomputeGoal clock event tenantId goal) db supply
      (fun part s left => Settles db s ∧ HealthCurrent s goal.1 ∧
        IdleEvents supply 1 [part] left) E := by
  refine Tx.Ends.seq ends_recomputeCachedHealth ?_
  rintro newHealth s left ⟨rfl, hs, hc⟩
  split
  · exact ⟨hs, hc, .nil (Nat.le_refl _), fun _ hm => absurd hm List.not_mem_nil, Nat.zero_le _,
      rfl⟩
  · rw [← hs.tenants] at ht
    refine (ends_emitStateChange ht).seq ?_
    rintro obsId t left' ⟨rfl, rfl, hob⟩
    have ho := Settles.of_observes hob
    exact ⟨hs.trans ho, ho.current hc,
      .one (.inl rfl) (by dsimp only; omega) (by dsimp only; omega)⟩

theorem mem_criticalGoals_iff : (goalId, health) ∈ criticalGoals commitmentId tenantId db ↔
      db.contributesTo.get (commitmentId, goalId) = some true ∧
        ∃ goal, db.goals.get goalId = some goal ∧ goal.tenantId = tenantId ∧
          goal.cachedHealth = health := by
  unfold criticalGoals
  simp only [List.mem_filterMap, Prod.exists, Table.mem_rows_iff]
  constructor
  · rintro ⟨contributor, other, critical, he, hs⟩
    split at hs
    · next goal hg =>
      split at hs
      · next ha =>
        obtain ⟨rfl, rfl, ht⟩ := ha
        obtain ⟨rfl, rfl⟩ := Prod.mk.inj (Option.some.inj hs)
        exact ⟨he, goal, hg, ht, rfl⟩
      · cases hs
    · cases hs
  · rintro ⟨he, goal, hg, rfl, rfl⟩
    exact ⟨commitmentId, goalId, true, he, by simp [hg]⟩

def OnCriticalPath (db : Db) (commitmentId tenantId goalId : Nat) : Prop :=
  db.contributesTo.get (commitmentId, goalId) = some true ∧
    ∃ goal, db.goals.get goalId = some goal ∧ goal.tenantId = tenantId

theorem Settles.onCriticalPath (hse : Settles db s)
    (hp : OnCriticalPath db commitmentId tenantId goalId) :
    OnCriticalPath s commitmentId tenantId goalId := by
  obtain ⟨he, goal, hg, ht⟩ := hp
  refine ⟨by rwa [hse.contributesTo], ?_⟩
  rcases hse.health goalId with hs | ⟨-, old, health, now, ho, ha⟩
  · exact ⟨goal, hs.trans hg, ht⟩
  · cases ho.symm.trans hg
    exact ⟨_, ha, ht⟩

theorem ends_recomputeGoals (ht : tenantId ∈ db.tenants) :
    Tx.Ends Db.apply (recomputeGoals clock event tenantId) db supply
      (fun part s left => Settles db s ∧
        (∀ goalId, OnCriticalPath db event.entityId tenantId goalId → HealthCurrent s goalId) ∧
        ∃ parts, part = concat parts ∧
          IdleEvents supply db.contributesTo.rows.length parts left) E := by
  rw [recomputeGoals, bind_eq_bind, ends_bind, ends_read]
  refine Tx.Ends.seq (ends_mapEach (fun before parts s left => Settles db s ∧
    (∀ goal ∈ before, HealthCurrent s goal.1) ∧ IdleEvents supply before.length parts left)
    ⟨.refl db, fun _ hm => absurd hm List.not_mem_nil, .begin supply⟩ ?_) ?_
  · rintro before goal after parts s left - ⟨hs, hc, hi⟩
    rw [← hs.tenants] at ht
    refine (ends_recomputeGoal ht).returned ?_
    rintro part t left' ⟨hn, hnw, hon⟩
    refine ⟨hs.trans hn, fun other hm => ?_, ?_⟩
    · rcases List.mem_append.mp hm with ho | hl
      · exact hn.current (hc other ho)
      · rwa [List.mem_singleton.mp hl]
    · rw [List.length_append]
      exact hi.append hon
  · rintro parts s left ⟨hs, hc, hi⟩
    refine ⟨hs, ?_, parts, rfl, hi.minted, hi.idle, ?_, hi.accepted⟩
    · rintro goalId ⟨he, goal, hg, ht⟩
      exact hc (goalId, goal.cachedHealth) (mem_criticalGoals_iff.mpr ⟨he, goal, hg, ht, rfl⟩)
    · exact Nat.le_trans hi.short (List.length_filterMap_le _ _)

theorem ends_revenueAtRisk : Tx.Ends Db.apply (revenueAtRiskForCustomer arrUsd customerId) db supply
      (fun _ s left => s = db ∧ left = supply) E := by
  rw [revenueAtRiskForCustomer, bind_eq_bind, ends_bind, ends_read]
  split
  · exact ⟨rfl, rfl⟩
  · split
    · exact ⟨rfl, rfl⟩
    · split
      · exact ⟨rfl, rfl⟩
      · split
        · exact ⟨rfl, rfl⟩
        · exact ⟨rfl, rfl⟩

theorem ends_recomputeCustomer (ht : tenantId ∈ db.tenants) :
    Tx.Ends Db.apply (recomputeCustomer arrUsd clock event tenantId newState customerId) db supply
      (fun part s left => OnlyObserves db s ∧ IdleEvents supply 1 [part] left) E := by
  refine Tx.Ends.seq ends_revenueAtRisk ?_
  rintro rar s left ⟨rfl, rfl⟩
  refine (ends_emitStateChange ht).seq ?_
  rintro obsId t left' ⟨rfl, rfl, ho⟩
  exact ⟨ho, .one (.inr rfl) (by dsimp only; omega) (by dsimp only; omega)⟩

theorem ends_recomputeCustomers (ht : tenantId ∈ db.tenants) :
    Tx.Ends Db.apply (recomputeCustomers arrUsd clock event tenantId newState) db supply
      (fun part s left => OnlyObserves db s ∧ ∃ parts, part = concat parts ∧
        IdleEvents supply db.customerCommitments.rows.length parts left) E := by
  rw [recomputeCustomers, bind_eq_bind, ends_bind, ends_read]
  refine Tx.Ends.seq (ends_mapEach (fun before parts s left => OnlyObserves db s ∧
    IdleEvents supply before.length parts left) ⟨.refl db, .begin supply⟩ ?_) ?_
  · rintro before customerId after parts s left - ⟨ho, hi⟩
    have ht' : tenantId ∈ s.tenants := by
      obtain ⟨_, rfl⟩ := ho
      exact ht
    refine (ends_recomputeCustomer ht').returned ?_
    rintro part t left' ⟨hn, hon⟩
    refine ⟨ho.trans hn, ?_⟩
    rw [List.length_append]
    exact hi.append hon
  · rintro parts s left ⟨ho, hi⟩
    refine ⟨ho, parts, rfl, hi.minted, hi.idle, ?_, hi.accepted⟩
    refine Nat.le_trans hi.short (Nat.le_trans (List.length_filterMap_le _ _) ?_)
    rw [Table.primaryKeys, List.length_map]

end Recompute

end FyralisCore.Think
