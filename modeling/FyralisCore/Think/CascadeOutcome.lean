import FyralisCore.Think.Recomputing
import Mathlib.Algebra.GroupWithZero.Nat

/-! The outcome of a cascade from a commitment that has become `doneverified`.
All changes of state happen while the trigger itself is processed; after that
the queue holds the unblocked dependents, whose goals are recomputed, and events
that nothing follows from. -/
namespace FyralisCore.Think

open Relational Transaction Acts List

section

theorem foldl_follow (events : List CascadeEvent) (st : CascadeState) (depth : Nat)
    (hnd : (events.map CascadeEvent.id).Nodup) (hf : ∀ event ∈ events, event.id ∉ st.visited) :
    events.foldl (fun current event => current.follow depth event) st = { st with
        queue := st.queue ++ events.map fun event => (event, depth + 1)
        visited := st.visited ++ events.map CascadeEvent.id
        steps := st.steps ++ events } := by
  induction events generalizing st with
  | nil => simp
  | cons event rest ih =>
    rw [map_cons, nodup_cons] at hnd
    rw [foldl_cons, CascadeState.follow, if_neg (hf event (.head _)), ih]
    · simp
    · exact hnd.2
    · intro other hm hv
      rcases mem_append.mp hv with ho | hn
      · exact hf other (.tail _ hm) ho
      · rw [← mem_singleton.mp hn] at hnd
        exact hnd.1 (mem_map_of_mem hm)

theorem advance_minted {st : CascadeState} (rest : List (CascadeEvent × Nat)) (depth : Nat)
    (hv : ∀ id ∈ st.visited, id < supply)
    (hmi : Minted supply left downstream.events) :
    st.advance rest depth downstream =
      { queue := rest ++ downstream.events.map fun event => (event, depth + 1)
        visited := st.visited ++ downstream.events.map CascadeEvent.id
        steps := st.steps ++ downstream.events
        depthReached := max st.depthReached depth
        invariantViolations := st.invariantViolations ++ downstream.violations } := by
  refine foldl_follow _ _ _ hmi.nodup fun event hm ho => ?_
  have hb := hv event.id ho
  have ha := (hmi.bounds event hm).1
  omega

end

theorem concat_events (parts : List Downstream) :
    (Downstream.concat parts).events = parts.flatMap Downstream.events := rfl

theorem concat_violations (parts : List Downstream) :
    (Downstream.concat parts).violations = parts.flatMap Downstream.violations := rfl

section

variable {arrUsd : Json → Option Amount} {clock : Clock} {event : CascadeEvent}
  {tenantId : Nat} {db : Db} {supply : Nat}

theorem ends_branch_unblocked (hu : IsUnblocked event) (ht : tenantId ∈ db.tenants) :
    Tx.Ends Db.apply (computeDownstream arrUsd clock event tenantId) db supply
      (fun part s left => Settles db s ∧
        (∀ goalId, OnCriticalPath db event.entityId tenantId goalId → HealthCurrent s goalId) ∧
        ∃ parts, part.events = parts.flatMap Downstream.events ∧ part.violations = [] ∧
          IdleEvents supply db.contributesTo.rows.length parts left) (fun _ _ _ => False) := by
  have ha : event.newState = .text "active" := hu.2
  rw [computeDownstream, hu.1]
  rw [branchCommitmentState, ha]
  refine (ends_recomputeGoals ht).seq ?_
  rintro part s left ⟨hs, hc, parts, rfl, hi⟩
  refine ⟨hs, hc, parts, by simp [concat_events], ?_, hi⟩
  simp [concat_violations, hi.accepted]

theorem ends_branch_idle (hi : IsIdle event) (hn : R {} db supply) :
    Tx.Ends Db.apply (computeDownstream arrUsd clock event tenantId) db supply R
      (fun _ _ _ => False) := by
  rw [computeDownstream]
  rcases hi with hk | hk
  · rw [hk]
    exact hn
  · rw [hk]
    exact hn

end

/-- The most entries that an entry can add to the queue, itself included. -/
def entryWeight (db : Db) (entry : CascadeEvent × Nat) : Nat :=
  if entry.1.kind = .commitmentStateChange then 1 + db.contributesTo.rows.length else 1

def queueWeight (db : Db) (queue : List (CascadeEvent × Nat)) : Nat :=
  (queue.map (entryWeight db)).sum

/-- The queue holds unblocked dependents one step from the trigger, and events
that nothing follows from. -/
structure Settling (state : CascadeState) (supply : Nat) : Prop where
  visited : ∀ id ∈ state.visited, id < supply
  queue : ∀ entry ∈ state.queue,
    (IsUnblocked entry.1 ∧ entry.2 = 1) ∨ (IsIdle entry.1 ∧ entry.2 ≤ 2)

variable {db s : Db} {arrUsd : Json → Option Amount} {clock : Clock} {tenantId supply : Nat}
  {trigger : CascadeEvent}

theorem entryWeight_idle (hi : IsIdle e.1) : entryWeight db e = 1 := by
  refine if_neg fun hk => ?_
  rcases hi with ho | ho <;> rw [hk] at ho <;> cases ho

theorem queueWeight_idle (db : Db) {events : List CascadeEvent} (depth : Nat)
    (hi : ∀ event ∈ events, IsIdle event) :
    queueWeight db (events.map fun event => (event, depth)) = events.length := by
  induction events with
  | nil => rfl
  | cons event rest ih =>
    have h1 : entryWeight db (event, depth) = 1 := entryWeight_idle (hi event (.head _))
    have ht := ih fun other hm => hi other (.tail _ hm)
    simp only [queueWeight, map_cons, sum_cons, length_cons] at ht ⊢
    omega

theorem queueWeight_append (db : Db) (q more : List (CascadeEvent × Nat)) :
    queueWeight db (q ++ more) = queueWeight db q + queueWeight db more := by
  simp [queueWeight]

theorem queueWeight_le (db : Db) (q : List (CascadeEvent × Nat)) :
    queueWeight db q ≤ q.length * (1 + db.contributesTo.rows.length) := by
  induction q with
  | nil => exact Nat.zero_le _
  | cons e rest ih =>
    have he : entryWeight db e ≤ 1 + db.contributesTo.rows.length := by
      unfold entryWeight
      split <;> omega
    simp only [queueWeight, map_cons, sum_cons, length_cons, Nat.add_mul] at ih ⊢
    omega

theorem Settles.queueWeight (hs : Settles db s)
    (queue : List (CascadeEvent × Nat)) : queueWeight s queue = queueWeight db queue := by
  unfold Think.queueWeight entryWeight
  rw [hs.contributesTo]

/-- What one entry of the queue leads to: idle events, fewer than its weight. -/
structure EntryStep (db : Db) (supply tenantId : Nat) (entry : CascadeEvent × Nat)
    (part : Downstream) (s : Db) (left : Nat) : Prop where
  settles : Settles db s
  current : IsUnblocked entry.1 → ∀ goalId,
    OnCriticalPath db entry.1.entityId tenantId goalId → HealthCurrent s goalId
  minted : Minted supply left part.events
  idle : ∀ event ∈ part.events, IsIdle event ∧ entry.2 = 1
  lighter : part.events.length < entryWeight db entry
  accepted : part.violations = []

theorem ends_entry (ht : tenantId ∈ db.tenants)
    (he : (IsUnblocked e.1 ∧ e.2 = 1) ∨ (IsIdle e.1 ∧ e.2 ≤ 2)) :
    Tx.Ends Db.apply (computeDownstream arrUsd clock e.1 tenantId) db supply
      (EntryStep db supply tenantId e) (fun _ _ _ => False) := by
  rcases he with ⟨hu, hd⟩ | ⟨hi, -⟩
  · refine (ends_branch_unblocked hu ht).returned ?_
    rintro part s left ⟨hse, hc, parts, hev, ha, hid⟩
    have hw : entryWeight db e = 1 + db.contributesTo.rows.length := if_pos hu.1
    refine ⟨hse, fun _ => hc, ?_, ?_, ?_, ha⟩
    · rw [hev]
      exact hid.minted
    · rw [hev]
      exact fun follow hm => ⟨hid.idle follow hm, hd⟩
    · rw [hev, hw]
      have hs := hid.short
      omega
  · refine ends_branch_idle hi ⟨.refl db, fun hu => ?_, .nil (Nat.le_refl _),
      fun _ hm => absurd hm not_mem_nil, ?_, rfl⟩
    · rcases hi with hk | hk <;> rw [hu.1] at hk <;> cases hk
    · rw [entryWeight_idle hi]
      exact Nat.zero_lt_one

theorem Settling.next {rest : List (CascadeEvent × Nat)} (hst : Settling st supply)
    (hq : st.queue = (event, depth) :: rest)
    (hs : EntryStep db supply tenantId (event, depth) part s left) :
    (st.advance rest depth part).queue = rest ++ part.events.map (fun event => (event, depth + 1)) ∧
      (st.advance rest depth part).invariantViolations = st.invariantViolations ∧
      Settling (st.advance rest depth part) left := by
  have he := hst.queue
  rw [hq, forall_mem_cons] at he
  rw [advance_minted rest depth hst.visited hs.minted]
  refine ⟨rfl, by rw [hs.accepted, append_nil], ?_, ?_⟩
  · intro id hm
    rcases mem_append.mp hm with ho | hn
    · exact Nat.lt_of_lt_of_le (hst.visited id ho) hs.minted.grows
    · obtain ⟨follow, hf, rfl⟩ := mem_map.mp hn
      exact (hs.minted.bounds follow hf).2
  · intro e hm
    rcases mem_append.mp hm with ho | hn
    · exact he.2 e ho
    · obtain ⟨follow, hf, rfl⟩ := mem_map.mp hn
      obtain ⟨hi, hd⟩ := hs.idle follow hf
      exact .inr ⟨hi, by dsimp only at *; omega⟩

/-- What the rest of the cascade does: it returns, it recomputes the goals of
every unblocked dependent in the queue, and it rejects nothing more. -/
def SettlesQueue (db : Db) (tenantId : Nat) (state : CascadeState)
    (found : Option CascadeResult) (s : Db) : Prop :=
  ∃ result, found = some result ∧ Settles db s ∧
    result.invariantViolations = state.invariantViolations ∧
    ∀ entry ∈ state.queue, IsUnblocked entry.1 → ∀ goalId,
      OnCriticalPath db entry.1.entityId tenantId goalId → HealthCurrent s goalId

theorem ends_cascadeLoop {fuel : Nat} (ht : tenantId ∈ db.tenants)
    (hst : Settling st supply) (hf : queueWeight db st.queue < fuel) :
    Tx.Ends Db.apply (cascadeLoop arrUsd clock trigger defaultMaxDepth tenantId fuel st) db
      supply (fun found s _ => SettlesQueue db tenantId st found s) (fun _ _ _ => False) := by
  induction fuel generalizing st db supply with
  | zero => exact absurd hf (Nat.not_lt_zero _)
  | succ fuel ih =>
    rw [cascadeLoop]
    cases hq : st.queue with
    | nil =>
      refine ⟨_, rfl, .refl db, rfl, ?_⟩
      rw [hq]
      exact fun _ hm => absurd hm not_mem_nil
    | cons e rest =>
      obtain ⟨event, depth⟩ := e
      have h1 := hst.queue (event, depth) (by rw [hq]; exact .head _)
      have hd : ¬ depth ≥ defaultMaxDepth := by
        unfold defaultMaxDepth
        rcases h1 with ⟨-, ho⟩ | ⟨-, htw⟩ <;> dsimp only at * <;> omega
      dsimp only
      rw [if_neg hd]
      refine (ends_entry ht h1).seq fun part s left hs => ?_
      obtain ⟨ha, hv, hn⟩ := hst.next hq hs
      have hl : queueWeight s (st.advance rest depth part).queue < fuel := by
        have hb : queueWeight db st.queue =
            entryWeight db (event, depth) + queueWeight db rest := by
          rw [hq]
          exact sum_cons
        have hlg := hs.lighter
        rw [hs.settles.queueWeight, ha, queueWeight_append,
          queueWeight_idle _ _ fun follow hm => (hs.idle follow hm).1]
        omega
      rw [← hs.settles.tenants] at ht
      refine (ih ht hn hl).returned ?_
      rintro found t _ ⟨r, rfl, hse, hr, hc⟩
      refine ⟨r, rfl, hs.settles.trans hse, hr.trans hv, ?_⟩
      rw [hq, forall_mem_cons]
      constructor
      · intro hu goalId hp
        exact hse.current (hs.current hu goalId hp)
      · intro e hm hu goalId hp
        refine hc e ?_ hu goalId (hs.settles.onCriticalPath hp)
        rw [ha]
        exact mem_append_left _ hm

/-- The trigger reports, by an observation, that its commitment has become
`doneverified`. -/
structure ReportsDoneverified (db : Db) (trigger : CascadeEvent) : Prop where
  kind : trigger.kind = .commitmentStateChange
  newState : trigger.newState = .text "doneverified"
  observation : trigger.observationId.isSome
  row : ∃ row, db.commitments.get trigger.entityId = some row ∧
    row.tenantId = trigger.tenantId ∧ row.state = .doneverified

structure TriggerStep (db : Db) (supply : Nat) (trigger : CascadeEvent) (part : Downstream)
    (s : Db) (left : Nat) (middle : Db) (supplied : Nat) (unblocked recomputed : List Downstream) :
    Prop where
  unblocking : UnblockProgress db supply
    (blockedDependents trigger.entityId trigger.tenantId db) unblocked middle supplied
  settles : Settles middle s
  current : ∀ goalId, OnCriticalPath middle trigger.entityId trigger.tenantId goalId →
    HealthCurrent s goalId
  idle : IdleEvents supplied
    (db.contributesTo.rows.length + db.customerCommitments.rows.length) recomputed left
  events : part.events =
    unblocked.flatMap Downstream.events ++ recomputed.flatMap Downstream.events
  violations : part.violations = unblocked.flatMap Downstream.violations

theorem ends_trigger (hrf : ReferencesHold db) (htr : ReportsDoneverified db trigger) :
    Tx.Ends Db.apply (computeDownstream arrUsd clock trigger trigger.tenantId) db supply
      (fun part s left => ∃ middle supplied unblocked recomputed,
        TriggerStep db supply trigger part s left middle supplied unblocked recomputed)
      (fun _ _ _ => False) := by
  obtain ⟨row, hr, ht, -⟩ := htr.row
  have htn : trigger.tenantId ∈ db.tenants := ht ▸ hrf.tenants _ row hr
  rw [computeDownstream, htr.kind]
  rw [branchCommitmentState, htr.newState]
  refine (ends_unblockDependents hrf htn).seq ?_
  rintro unblocking middle supplied ⟨unblocked, rfl, hpr⟩
  have hm : middle.tenants = db.tenants ∧ middle.contributesTo = db.contributesTo ∧
      middle.customerCommitments = db.customerCommitments := by
    obtain ⟨_, _, hf⟩ := hpr.frame
    rw [hf]
    exact ⟨rfl, rfl, rfl⟩
  have ht' : trigger.tenantId ∈ middle.tenants := by rwa [hm.1]
  refine (ends_recomputeGoals ht').seq ?_
  rintro goals s left ⟨hs, hcr, recomputed, rfl, hg⟩
  rw [← hs.tenants] at ht'
  refine (ends_recomputeCustomers ht').seq ?_
  rintro customers t last ⟨hob, served, rfl, hc⟩
  have hcs : s.customerCommitments = middle.customerCommitments := by
    obtain ⟨_, _, hf⟩ := hs.frame
    rw [hf]
  rw [hm.2.1] at hg
  rw [hcs, hm.2.2] at hc
  have ho := Settles.of_observes hob
  exact ⟨middle, supplied, unblocked, recomputed ++ served,
    { unblocking := hpr
      settles := hs.trans ho
      current := fun goalId hp => ho.current (hcr goalId hp)
      idle := hg.append hc
      events := by simp [concat_events]
      violations := by simp [concat_violations, hg.accepted, hc.accepted] }⟩

def stateOf (db : Db) (commitmentId : Nat) : Option CommitmentState :=
  (db.commitments.get commitmentId).map CommitmentRow.state

/-- The commitment is a blocked dependent of the trigger's, of its tenant, and
all its dependencies are `doneverified`. -/
structure Unblockable (db : Db) (trigger : CascadeEvent) (commitmentId : Nat) : Prop where
  depends : db.DependsOn commitmentId trigger.entityId
  tenant : (db.commitments.get commitmentId).map CommitmentRow.tenantId = some trigger.tenantId
  blocked : stateOf db commitmentId = some .blocked
  dependencies : ∀ dependencyId, db.DependsOn commitmentId dependencyId →
    stateOf db dependencyId = some .doneverified

theorem ready_of_unblockable
    (hu : Unblockable db trigger commitmentId) : Ready db commitmentId := by
  intro dependencyId he
  obtain ⟨row, hr, hs⟩ := Option.map_eq_some_iff.mp (hu.dependencies dependencyId he)
  exact Db.isUnsatisfied_eq_false_iff.mpr ⟨row, hr, hs⟩

structure CascadeSettled (db after : Db) (trigger : CascadeEvent) (result : CascadeResult) :
    Prop where
  /-- Every unblockable dependent is active now, or its rejection is listed. -/
  unblocked : ∀ commitmentId, Unblockable db trigger commitmentId →
    stateOf after commitmentId = some .active ∨
      ∃ violation ∈ result.invariantViolations, violation.entityId = commitmentId
  /-- No other commitment changed state. -/
  others : ∀ commitmentId, stateOf after commitmentId ≠ stateOf db commitmentId →
    Unblockable db trigger commitmentId ∧ stateOf after commitmentId = some .active
  /-- The health of the goals of the trigger's commitment and of the unblocked ones. -/
  health : ∀ commitmentId goalId goal,
    commitmentId = trigger.entityId ∨ stateOf after commitmentId ≠ stateOf db commitmentId →
    after.contributesTo.get (commitmentId, goalId) = some true →
    after.goals.get goalId = some goal → goal.tenantId = trigger.tenantId →
    goal.cachedHealth = worstOfHealth (after.criticalPathStates goalId)

theorem stateOf_becameActive (hac : BecameActive start s commitmentId) :
    stateOf start commitmentId = some .blocked ∧ stateOf s commitmentId = some .active := by
  obtain ⟨row, now, hr, hb, ha⟩ := hac
  unfold stateOf
  rw [hr, ha]
  exact ⟨congrArg some hb, rfl⟩

section

variable {db s middle after : Db} {supply left supplied : Nat} {trigger : CascadeEvent}
  {part : Downstream} {unblocked recomputed : List Downstream}

theorem TriggerStep.becameActive
    (hst : TriggerStep db supply trigger part s left middle supplied unblocked recomputed)
    (hc : stateOf middle commitmentId ≠ stateOf db commitmentId) :
    commitmentId ∈ blockedDependents trigger.entityId trigger.tenantId db ∧
      Ready db commitmentId ∧ BecameActive db middle commitmentId := by
  have hd : ¬ Unchanged db middle commitmentId := by
    intro hs
    exact hc (congrArg (Option.map CommitmentRow.state) hs)
  have hm : commitmentId ∈ blockedDependents trigger.entityId trigger.tenantId db := by
    by_contra hf
    exact hd (hst.unblocking.untouched commitmentId hf)
  exact ⟨hm, (hst.unblocking.moved commitmentId hm).resolve_left hd⟩

theorem unblockable_of_mem
    (hm : commitmentId ∈ blockedDependents trigger.entityId trigger.tenantId db)
    (hrd : Ready db commitmentId) : Unblockable db trigger commitmentId := by
  obtain ⟨he, row, hr, hb, ht⟩ := mem_blockedDependents_iff.mp hm
  refine ⟨he, by rw [hr, ← ht]; rfl, by rw [stateOf, hr, ← hb]; rfl, ?_⟩
  intro dependencyId hdp
  obtain ⟨other, ho, hd⟩ := Db.isUnsatisfied_eq_false_iff.mp (hrd dependencyId hdp)
  rw [stateOf, ho, ← hd]
  rfl

theorem cascadeSettled_of_steps
    (hstp : TriggerStep db supply trigger part s left middle supplied unblocked recomputed)
    (hq : ∀ event ∈ part.events, ∃ depth, (event, depth) ∈ st.queue)
    (hv : st.invariantViolations = part.violations)
    (hrs : SettlesQueue s trigger.tenantId st found after) (hf : found = some result) :
    CascadeSettled db after trigger result := by
  obtain ⟨other, ho, hse, hrj, hcr⟩ := hrs
  cases hf.symm.trans ho
  have hlt : Settles middle after := hstp.settles.trans hse
  have hst : ∀ commitmentId, stateOf after commitmentId = stateOf middle commitmentId := by
    intro commitmentId
    unfold stateOf
    rw [hlt.commitments]
  constructor
  case unblocked =>
    intro commitmentId hu
    obtain ⟨row, hr, ht⟩ := Option.map_eq_some_iff.mp hu.tenant
    have hb := hu.blocked
    rw [stateOf, hr] at hb
    have hm := mem_blockedDependents_iff.mpr ⟨hu.depends, row, hr, Option.some.inj hb, ht⟩
    rcases hstp.unblocking.reported commitmentId hm (ready_of_unblockable hu) with
      ha | hl
    · exact .inl ((hst commitmentId).trans (stateOf_becameActive ha).2)
    · rw [hrj, hv, hstp.violations]
      exact .inr hl
  case others =>
    intro commitmentId hch
    rw [hst] at hch
    obtain ⟨hm, hrd, ha⟩ := hstp.becameActive hch
    exact ⟨unblockable_of_mem hm hrd, (hst commitmentId).trans (stateOf_becameActive ha).2⟩
  case health =>
    intro commitmentId goalId goal hc he hg ht
    suffices hh : HealthCurrent after goalId from hh goal hg
    obtain ⟨old, hold, hs⟩ := hlt.tenantId hg
    have hp : OnCriticalPath middle commitmentId trigger.tenantId goalId :=
      ⟨by rwa [← hlt.contributesTo], old, hold, hs.trans ht⟩
    rcases hc with rfl | hch
    · exact hse.current (hstp.current goalId hp)
    · rw [hst] at hch
      obtain ⟨hm, -, ha⟩ := hstp.becameActive hch
      rcases hstp.unblocking.followed commitmentId hm ha with hfl | hn
      · -- Its event is in the q, which recomputes its goals.
        obtain ⟨follow, hi, rfl⟩ := hfl
        have hqd : follow ∈ part.events := by
          rw [hstp.events]
          exact mem_append_left _ hi
        obtain ⟨depth, hen⟩ := hq follow hqd
        exact hcr _ hen (hstp.unblocking.events follow hi) goalId (hstp.settles.onCriticalPath hp)
      · -- Its transition was rejected after the UPDATE, for want of any goal.
        have hsm : (db.contributesTo.get (commitmentId, goalId)).isSome := by
          obtain ⟨_, _, hfr⟩ := hstp.unblocking.frame
          have hct := hp.1
          rw [hfr] at hct
          exact Option.isSome_iff_exists.mpr ⟨true, hct⟩
        exact absurd hn ((Db.contributions_ne_zero_iff _ _).mpr ⟨goalId, hsm⟩)

end

/-- Enough fuel for the cascade: no loop of the code makes more events. -/
def cascadeFuel (db : Db) : Nat :=
  db.dependsOn.rows.length * (1 + db.contributesTo.rows.length) +
    db.contributesTo.rows.length + db.customerCommitments.rows.length + 2

theorem TriggerStep.queueWeight_lt {middle : Db}
    (hs : TriggerStep db supply trigger part s left middle supplied unblocked recomputed) :
    queueWeight s (part.events.map fun event => (event, 1)) + 1 < cascadeFuel db := by
  have hf : s.contributesTo = db.contributesTo := by
    obtain ⟨_, _, hf⟩ := hs.unblocking.frame
    rw [hs.settles.contributesTo, hf]
  have hd : (blockedDependents trigger.entityId trigger.tenantId db).length ≤
      db.dependsOn.rows.length := by
    refine Nat.le_trans (length_filterMap_le _ _) ?_
    rw [Table.primaryKeys, length_map]
  have hu := queueWeight_le s ((unblocked.flatMap Downstream.events).map fun event => (event, 1))
  have hi := queueWeight_idle s 1 hs.idle.idle
  have h1 := hs.unblocking.short
  have h2 := hs.idle.short
  rw [hs.events, map_append, queueWeight_append, hi]
  rw [length_map, hf] at hu
  have hm : (unblocked.flatMap Downstream.events).length * (1 + db.contributesTo.rows.length) ≤
      db.dependsOn.rows.length * (1 + db.contributesTo.rows.length) :=
    Nat.mul_le_mul_right _ (Nat.le_trans h1 hd)
  unfold cascadeFuel
  omega

/-- The cascade from a commitment that has become `doneverified` returns, and
leaves its dependents and the health of their goals settled. -/
theorem cascade_settles (arrUsd : Json → Option Amount) (clock : Clock) {db : Db}
    {trigger : CascadeEvent} {supply fuel : Nat} (hrefs : ReferencesHold db)
    (htrigger : ReportsDoneverified db trigger) (hid : trigger.id < supply)
    (hfuel : cascadeFuel db ≤ fuel) : ∃ result after left,
      Tx.Returns Db.apply (cascade arrUsd clock trigger defaultMaxDepth none fuel) db supply
        (some result) after left ∧ CascadeSettled db after trigger result := by
  obtain ⟨rest, rfl⟩ : ∃ rest, fuel = rest + 1 := ⟨fuel - 1, by unfold cascadeFuel at hfuel; omega⟩
  suffices hends : Tx.Ends Db.apply (cascade arrUsd clock trigger defaultMaxDepth none (rest + 1))
      db supply (fun found s _ => ∃ result, found = some result ∧
        CascadeSettled db s trigger result) (fun _ _ _ => False) by
    obtain ⟨_, after, left, hreturns, result, rfl, hsettled⟩ := hends.returns
    exact ⟨result, after, left, hreturns, hsettled⟩
  refine (ends_trigger hrefs htrigger).seq ?_
  rintro part s left ⟨middle, supplied, unblocked, recomputed, hstep⟩
  have hminted : Minted supply left part.events := by
    rw [hstep.events]
    exact hstep.unblocking.minted.append hstep.idle.minted
  rw [advance_minted [] 0 (fun id hmem => by rwa [mem_singleton.mp hmem]) hminted]
  have htenant : trigger.tenantId ∈ s.tenants := by
    obtain ⟨row, hrow, htenant, -⟩ := htrigger.row
    obtain ⟨_, _, hframe⟩ := hstep.unblocking.frame
    rw [hstep.settles.tenants, hframe, ← htenant]
    exact hrefs.tenants _ row hrow
  have hlighter : queueWeight s (part.events.map fun event => (event, 1)) < rest := by
    have hweight := hstep.queueWeight_lt
    omega
  refine (ends_cascadeLoop htenant ⟨?_, ?_⟩ hlighter).returned ?_
  · intro id hmem
    rcases mem_cons.mp hmem with rfl | hnew
    · exact Nat.lt_of_lt_of_le hid hminted.grows
    · obtain ⟨follow, hfollow, rfl⟩ := mem_map.mp hnew
      exact (hminted.bounds follow hfollow).2
  · intro entry hmem
    obtain ⟨follow, hfollow, rfl⟩ := mem_map.mp hmem
    rw [hstep.events] at hfollow
    rcases mem_append.mp hfollow with hunblocked | hidle
    · exact .inl ⟨hstep.unblocking.events follow hunblocked, rfl⟩
    · exact .inr ⟨hstep.idle.idle follow hidle, Nat.le_succ _⟩
  · intro found after _ hrest
    obtain ⟨result, hfound, _⟩ := id hrest
    refine ⟨result, hfound, cascadeSettled_of_steps hstep ?_ rfl hrest hfound⟩
    exact fun event hmem => ⟨1, mem_map_of_mem hmem⟩

/-! A commitment that another one, on the critical path of a goal, waits for. -/

def waitingDb : Db where
  tenants := [1]
  actors := Table.put ∅ 5 { tenantId := 1 }
  commitments :=
    (Table.put ∅ 2
      { tenantId := 1, title := "Migrate", state := .doneverified, createdAt := 0,
        lastStateChangeAt := 0, createdByEventId := 9 }).put 3
      { tenantId := 1, title := "Announce", state := .blocked, ownerId := some 5, createdAt := 0,
        lastStateChangeAt := 0, createdByEventId := 9 }
  goals := Table.put ∅ 4
    { tenantId := 1, title := "Launch", cachedHealth := .degraded, createdAt := 0,
      lastStateChangeAt := 0, createdByEventId := 9 }
  dependsOn := Table.put ∅ (3, 2) ()
  contributesTo := Table.put ∅ (3, 4) true

def migrated : CascadeEvent where
  id := 8
  kind := .commitmentStateChange
  entityKind := "commitment"
  entityId := 2
  tenantId := 1
  metadata := [("new_state", .text "doneverified")]
  observationId := some 7

theorem waitingDb_references : ReferencesHold waitingDb := by
  have hrs : ∀ id row, waitingDb.commitments.get id = some row →
      row.tenantId = 1 ∧ row.lastConfidenceBasis = none := by
    intro id row hr
    rw [waitingDb, Table.get_put, Table.get_put] at hr
    split at hr
    · cases hr
      exact ⟨rfl, rfl⟩
    · split at hr
      · cases hr
        exact ⟨rfl, rfl⟩
      · cases hr
  constructor
  · intro id row hr
    rw [(hrs id row hr).1]
    exact mem_singleton_self 1
  · intro id row hr
    rw [(hrs id row hr).2]
    rfl

theorem migrated_reports : ReportsDoneverified waitingDb migrated :=
  ⟨rfl, rfl, rfl, _, rfl, rfl, rfl⟩

theorem cascade_settles_waiting : ∃ result after left, Tx.Returns Db.apply
        (cascade (fun _ => none) ⟨20, 20⟩ migrated defaultMaxDepth none (cascadeFuel waitingDb))
        waitingDb 10 (some result) after left ∧ CascadeSettled waitingDb after migrated result ∧
      stateOf after 3 = some .active ∧
      (after.goals.get 4).map GoalRow.cachedHealth = some .healthy := by
  obtain ⟨result, after, left, hreturns, hsettled⟩ :=
    cascade_settles (fun _ => none) ⟨20, 20⟩ waitingDb_references migrated_reports
      (show migrated.id < 10 by decide) (Nat.le_refl (cascadeFuel waitingDb))
  have hstate : ((cascade (fun _ => none) ⟨20, 20⟩ migrated defaultMaxDepth none
      (cascadeFuel waitingDb)).exec Db.apply waitingDb 10).state = after := by
    rw [hreturns]
  refine ⟨result, after, left, hreturns, hsettled, ?_, ?_⟩
  · rw [← hstate]
    rfl
  · rw [← hstate]
    rfl

end FyralisCore.Think
