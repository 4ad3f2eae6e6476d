import FyralisCore.Acts.Views
import FyralisCore.Lib.TotalCorrectness
import FyralisCore.Think.Cascade

/-! How the cascade unblocks the dependents of a commitment. A transition either
goes through or is rejected by an invariant, which the cascade rescues; no
other error occurs in a database whose references hold. -/
namespace FyralisCore.Think

open Relational Transaction Acts List

/-- The foreign keys that the statements of the cascade meet. -/
structure ReferencesHold (db : Db) : Prop where
  tenants : ∀ id row, db.commitments.get id = some row → row.tenantId ∈ db.tenants
  bases : ∀ id row, db.commitments.get id = some row →
    referenceHolds (fun model => model ∈ db.models) row.lastConfidenceBasis

section

variable {db s t : Db}

def OnlyObserves (db s : Db) : Prop :=
  ∃ observations, s = { db with observations }

theorem OnlyObserves.refl (db : Db) : OnlyObserves db db :=
  ⟨db.observations, rfl⟩

theorem OnlyObserves.trans (ho : OnlyObserves db s) (ht : OnlyObserves s t) :
    OnlyObserves db t := by
  obtain ⟨_, rfl⟩ := ho
  obtain ⟨observations, rfl⟩ := ht
  exact ⟨observations, rfl⟩

variable {supply : Nat} {E : ActError → Db → Nat → Prop}

theorem ends_insertObservation {id : Nat} (ht : row.tenantId ∈ db.tenants) :
    Tx.Ends Db.apply (insertObservation id row) db supply
      (fun _ s left => OnlyObserves db s ∧ left = supply) E := by
  rw [insertObservation, Tx.ends_query]
  have ha : constrained
      [(decide (row.tenantId ∈ db.tenants), .foreignKey "observations" "tenant_id")]
      [.insertObservation id row] = .ok ([.insertObservation id row], ()) :=
    (constrained_eq_ok_iff _ _ _).mpr ⟨by simpa using ht, rfl⟩
  rw [ha]
  exact ⟨⟨_, rfl⟩, rfl⟩

theorem ends_emitStateChange {clock : Clock} (ht : a.tenantId ∈ db.tenants) :
    Tx.Ends Db.apply (Observations.emitStateChange clock a) db supply
      (fun id s left => id = supply ∧ left = supply + 1 ∧ OnlyObserves db s) E := by
  refine Tx.Ends.seq (R := fun id s left => id = supply ∧ left = supply + 1 ∧ s = db)
    ⟨rfl, rfl, rfl⟩ ?_
  rintro id s left ⟨rfl, rfl, rfl⟩
  refine (ends_insertObservation ht).seq ?_
  rintro _ s left ⟨ho, rfl⟩
  exact ⟨rfl, rfl, ho⟩

theorem ends_actsEmitStateChange {entityId : Nat} (ht : tenantId ∈ db.tenants) :
    Tx.Ends Db.apply (emitStateChange clock tenantId kind entityId fromState toState cause) db
      supply (fun _ s left => left = supply + 1 ∧ OnlyObserves db s) E := by
  refine Tx.Ends.seq (R := fun _ s left => left = supply + 1 ∧ s = db) ⟨rfl, rfl⟩ ?_
  rintro id s left ⟨rfl, rfl⟩
  refine (ends_insertObservation ht).seq ?_
  rintro _ s left ⟨ho, rfl⟩
  exact ⟨rfl, ho⟩

end

def Db.activate (db : Db) (id : Nat) (row : CommitmentRow) (now : Nat) : Db :=
  db.apply (.setCommitmentState id .active now row.resolvedByEventIds row.lastConfidenceBasis false)

def Activated (db s : Db) (id : Nat) (row : CommitmentRow) : Prop :=
  ∃ now, OnlyObserves (Db.activate db id row now) s

def IsRejection (error : ActError) : Prop :=
  ∃ invariant message context, error = .invariantViolation invariant message context

theorem refuseUnless_rejects
        (he : refuseUnless condition (.invariantViolation invariant message context) =
      .error error) : IsRejection error := by
  unfold refuseUnless at he
  split at he
  · cases he
  · cases he
    exact ⟨_, _, _, rfl⟩

theorem checkCommitmentMove_rejects {id : Nat}
    {newState : CommitmentState} {cause : Option Nat} {error : ActError}
    (he : checkCommitmentMove id row newState cause = .error error) : IsRejection error := by
  unfold checkCommitmentMove at he
  cases hl : refuseUnless (commitmentMachine.canTransition row.state newState).1
      (commitmentMoveError id row.state newState) with
  | error refused =>
    rw [hl] at he
    cases he
    exact refuseUnless_rejects hl
  | ok _ =>
    rw [hl] at he
    simp only [bind, Except.bind] at he
    split at he
    · next refused hc =>
      cases he
      exact refuseUnless_rejects hc
    · exact refuseUnless_rejects he

section Unblock

variable {db : Db} {supply : Nat}

theorem ends_requireActiveOwner (row : CommitmentRow) (newState : CommitmentState) :
    Tx.Ends Db.apply (requireActiveOwner row newState) db supply
      (fun _ s left => s = db ∧ left = supply)
      (fun error s left => IsRejection error ∧ s = db ∧ left = supply) := by
  unfold requireActiveOwner
  split
  · exact ⟨rfl, rfl⟩
  · next ownerId _ =>
    rw [Tx.ends_when]
    refine ⟨fun _ => ?_, fun _ => ⟨rfl, rfl⟩⟩
    rw [requireActiveActor, Tx.ends_require]
    cases (db.actors.get ownerId).bind ActorRow.status with
    | none => exact ⟨⟨_, _, _, rfl⟩, rfl, rfl⟩
    | some status =>
      cases status with
      | active => exact ⟨rfl, rfl⟩
      | inactive => exact ⟨⟨_, _, _, rfl⟩, rfl, rfl⟩
      | departed => exact ⟨⟨_, _, _, rfl⟩, rfl, rfl⟩

variable {E : ActError → Db → Nat → Prop} {clock : Clock} {commitmentId left : Nat}
  {row : CommitmentRow} {event : CascadeEvent}

theorem ends_checkC10 (commitmentId : Nat) :
    Tx.Ends Db.apply (checkC10ContributesOrMaintenance commitmentId) db supply
      (fun violations s left => s = db ∧ left = supply ∧ ∀ violation ∈ violations,
        IsRejection violation ∧ db.contributions commitmentId = 0) E := by
  rw [checkC10ContributesOrMaintenance, Tx.bind_eq_bind, Tx.ends_bind, Tx.ends_read]
  cases db.commitments.get commitmentId with
  | none => exact ⟨rfl, rfl, fun _ hm => absurd hm not_mem_nil⟩
  | some row =>
    dsimp only
    split
    · exact ⟨rfl, rfl, fun _ hm => absurd hm not_mem_nil⟩
    · split
      · exact ⟨rfl, rfl, fun _ hm => absurd hm not_mem_nil⟩
      · rw [Tx.bind_eq_bind, Tx.ends_bind, Tx.ends_read]
        split
        · next hn =>
          refine ⟨rfl, rfl, fun violation hm => ⟨?_, hn⟩⟩
          obtain rfl := mem_singleton.mp hm
          exact ⟨_, _, _, rfl⟩
        · exact ⟨rfl, rfl, fun _ hm => absurd hm not_mem_nil⟩

theorem ends_requireC10 (commitmentId : Nat) :
    Tx.Ends Db.apply (raiseFirst (checkC10ContributesOrMaintenance commitmentId)) db supply
      (fun _ s left => s = db ∧ left = supply)
      (fun error s left => IsRejection error ∧ s = db ∧ left = supply ∧
        db.contributions commitmentId = 0) := by
  refine (ends_checkC10 commitmentId).seq ?_
  rintro violations s left ⟨rfl, rfl, hv⟩
  cases violations with
  | nil => exact ⟨rfl, rfl⟩
  | cons violation _ =>
    obtain ⟨hr, hn⟩ := hv violation (.head _)
    exact ⟨hr, rfl, rfl, hn⟩

theorem ends_updateToActive (hrf : ReferencesHold db)
    (hr : db.commitments.get commitmentId = some row) :
    Tx.Ends Db.apply (updateCommitmentState clock commitmentId .active row.resolvedByEventIds
        row.lastConfidenceBasis) db supply (fun updated s left => updated.isSome ∧
        s = Db.activate db commitmentId row clock.transactionNow ∧ left = supply) E := by
  rw [updateCommitmentState, Tx.ends_query]
  rw [if_pos (hrf.bases commitmentId row hr)]
  refine ⟨?_, rfl, rfl⟩
  rw [apply_commitments_get, hr]
  exact Write.onCommitment_isSome _ rfl

theorem ends_transitionToActive (cause : Option Nat) (hrf : ReferencesHold db)
    (hr : db.commitments.get commitmentId = some row) : Tx.Ends Db.apply
      (transitionCommitment clock commitmentId .active { causeEventId := cause }) db supply
      (fun _ s left => supply ≤ left ∧ Activated db s commitmentId row)
      (fun error s left => IsRejection error ∧ supply ≤ left ∧
        (s = db ∨ (Activated db s commitmentId row ∧ db.contributions commitmentId = 0))) := by
  unfold transitionCommitment
  simp only [Tx.bind_eq_bind]
  rw [Tx.ends_bind, fetchCommitmentForUpdate, Tx.ends_readLocking, hr, Tx.orRaise, Tx.bind,
    Tx.ends_bind, Tx.ends_ofExcept]
  cases hc : checkCommitmentMove commitmentId row .active cause with
  | error error =>
    exact ⟨checkCommitmentMove_rejects hc, Nat.le_refl _, .inl rfl⟩
  | ok _ =>
    refine Tx.Ends.seq ((ends_requireActiveOwner row .active).raised ?_) ?_
    · rintro error s left ⟨hrj, rfl, rfl⟩
      exact ⟨hrj, Nat.le_refl _, .inl rfl⟩
    rintro _ s left ⟨rfl, rfl⟩
    -- Neither C3 nor C2 is asked of a move to `active`.
    rw [Tx.ends_bind, Tx.ends_ensure]
    refine ⟨fun _ => ?_, fun hre => absurd hre (by simp)⟩
    rw [Tx.ends_bind, Tx.ends_when]
    refine ⟨fun hb => absurd hb (by decide), fun _ => ?_⟩
    refine (ends_updateToActive hrf hr).seq ?_
    rintro updated t left ⟨hu, rfl, rfl⟩
    rw [Tx.ends_bind, Tx.ends_when]
    refine ⟨fun _ => ?_, fun hcl => absurd hcl (by decide)⟩
    refine ((ends_requireC10 commitmentId).raised ?_).returned ?_
    · rintro error t left ⟨hrj, rfl, rfl, hn⟩
      exact ⟨hrj, Nat.le_refl _, .inr ⟨⟨_, .refl _⟩, hn⟩⟩
    rintro _ t left ⟨rfl, rfl⟩
    have ht : row.tenantId ∈ (Db.activate s commitmentId row clock.transactionNow).tenants :=
      hrf.tenants commitmentId row hr
    refine (ends_actsEmitStateChange ht).seq ?_
    rintro _ t left ⟨rfl, ho⟩
    obtain ⟨changed, rfl⟩ := Option.isSome_iff_exists.mp hu
    exact ⟨Nat.le_succ _, _, ho⟩

structure Minted (supply left : Nat) (events : List CascadeEvent) : Prop where
  grows : supply ≤ left
  bounds : ∀ event ∈ events, supply ≤ event.id ∧ event.id < left
  nodup : (events.map CascadeEvent.id).Nodup

theorem Minted.nil (hg : supply ≤ left) : Minted supply left [] where
  grows := hg
  bounds := fun _ hm => absurd hm not_mem_nil
  nodup := nodup_nil

theorem Minted.single (hl : supply ≤ event.id)
    (hu : event.id < left) : Minted supply left [event] where
  grows := by omega
  bounds := by
    intro other hm
    obtain rfl := mem_singleton.mp hm
    exact ⟨hl, hu⟩
  nodup := nodup_singleton _

theorem Minted.append (he : Minted supply m events) (hl : Minted m left u) :
    Minted supply left (events ++ u) where
  grows := Nat.le_trans he.grows hl.grows
  bounds := by
    intro event hm
    have h1 := he.grows
    have h2 := hl.grows
    rcases mem_append.mp hm with ho | hn
    · have hbn := he.bounds event ho
      omega
    · have hbn := hl.bounds event hn
      omega
  nodup := by
    rw [map_append, nodup_append]
    refine ⟨he.nodup, hl.nodup, ?_⟩
    intro id ho other hn
    obtain ⟨event, hev, rfl⟩ := mem_map.mp ho
    obtain ⟨follow, hf, rfl⟩ := mem_map.mp hn
    have hb := he.bounds event hev
    have ha := hl.bounds follow hf
    omega

def IsUnblocked (event : CascadeEvent) : Prop :=
  event.kind = .commitmentStateChange ∧ event.newState = .text "active"

theorem ends_attemptUnblock (hrf : ReferencesHold db)
    (hr : db.commitments.get dependentId = some row) (ht : tenantId ∈ db.tenants) :
    Tx.Ends Db.apply (attemptUnblock clock event tenantId dependentId) db supply
      (fun part s left => Activated db s dependentId row ∧ Minted supply left part.events ∧
        part.violations = [] ∧
        ∃ follow, part.events = [follow] ∧ IsUnblocked follow ∧ follow.entityId = dependentId)
      (fun error s left => IsRejection error ∧ supply ≤ left ∧
        (s = db ∨ (Activated db s dependentId row ∧ db.contributions dependentId = 0))) := by
  refine Tx.Ends.seq (ends_transitionToActive event.observationId hrf hr) ?_
  rintro _ s left ⟨hg, now, ha⟩
  have ht' : tenantId ∈ s.tenants := by
    obtain ⟨_, rfl⟩ := ha
    exact ht
  refine (ends_emitStateChange ht').seq ?_
  rintro obsId t _ ⟨rfl, rfl, ho⟩
  exact ⟨⟨now, ha.trans ho⟩, .single hg (by dsimp only; omega), rfl, _, rfl, ⟨rfl, rfl⟩, rfl⟩

def Ready (db : Db) (commitmentId : Nat) : Prop :=
  ∀ dependencyId, db.DependsOn commitmentId dependencyId → db.isUnsatisfied dependencyId = false

theorem mem_dependenciesOf_iff :
    dependencyId ∈ dependenciesOf commitmentId db ↔ db.DependsOn commitmentId dependencyId := by
  unfold dependenciesOf Db.DependsOn
  simp only [mem_filterMap, Prod.exists, Table.mem_primaryKeys_iff]
  constructor
  · rintro ⟨dependentId, other, ⟨_, he⟩, hs⟩
    split at hs
    · next heq =>
      cases hs
      subst heq
      exact he
    · cases hs
  · exact fun he => ⟨commitmentId, dependencyId, ⟨(), he⟩, if_pos rfl⟩

theorem ends_anyUnsatisfied (dependencies : List Nat) :
    Tx.Ends Db.apply (anyUnsatisfied dependencies) db supply
      (fun unsatisfied s left => s = db ∧ left = supply ∧ (unsatisfied = false ↔
        ∀ dependencyId ∈ dependencies, db.isUnsatisfied dependencyId = false)) E := by
  induction dependencies with
  | nil => exact ⟨rfl, rfl, by simp⟩
  | cons dependencyId rest ih =>
    rw [anyUnsatisfied, Tx.bind_eq_bind, Tx.ends_bind, isUnsatisfiedDependency, Tx.ends_read]
    cases h1 : db.isUnsatisfied dependencyId with
    | true => exact ⟨rfl, rfl, by simp [h1]⟩
    | false =>
      refine ih.returned ?_
      rintro unsatisfied s left ⟨rfl, rfl, ht⟩
      exact ⟨rfl, rfl, by simp [ht, h1]⟩

/-- How the loop body leaves one dependent, whose row was this one. -/
structure UnblockStep (db : Db) (supply : Nat) (dependentId : Nat) (row : CommitmentRow)
    (part : Downstream) (s : Db) (left : Nat) : Prop where
  minted : Minted supply left part.events
  short : part.events.length ≤ 1
  events : ∀ follow ∈ part.events, IsUnblocked follow
  moved : s = db ∨ (Activated db s dependentId row ∧ Ready db dependentId)
  reported : Ready db dependentId →
    Activated db s dependentId row ∨ ∃ violation ∈ part.violations, violation.entityId = dependentId
  followed : Activated db s dependentId row →
    (∃ follow ∈ part.events, follow.entityId = dependentId) ∨ db.contributions dependentId = 0

theorem ends_unblockDependent (hrf : ReferencesHold db)
    (hr : db.commitments.get dependentId = some row) (hb : row.state = .blocked)
    (ht : tenantId ∈ db.tenants) :
    Tx.Ends Db.apply (unblockDependent clock event tenantId dependentId) db supply
      (UnblockStep db supply dependentId row) (fun _ _ _ => False) := by
  -- A dependent that is still blocked was not activated.
  have hsty : ¬ Activated db db dependentId row := by
    rintro ⟨now, observations, hs⟩
    have hg := congrArg (fun db => db.commitments.get dependentId) hs
    simp only [Db.activate, apply_commitments_get, hr, Write.onCommitment, if_true] at hg
    have hst := congrArg CommitmentRow.state (Option.some.inj hg)
    rw [hb] at hst
    cases hst
  refine (ends_anyUnsatisfied _).seq ?_
  rintro unsatisfied s left ⟨rfl, rfl, hrd⟩
  simp only [mem_dependenciesOf_iff] at hrd
  cases unsatisfied with
  | true =>
    have hw : ¬ Ready s dependentId := fun ha => Bool.noConfusion (hrd.mpr ha)
    exact ⟨.nil (Nat.le_refl _), Nat.zero_le _, fun _ hm => absurd hm not_mem_nil,
      .inl rfl, fun ha => absurd ha hw, fun hmv => absurd hmv hsty⟩
  | false =>
    have ha : Ready s dependentId := hrd.mp rfl
    refine Tx.ends_rescue.mpr ((ends_attemptUnblock hrf hr ht).mono ?_ ?_)
    · rintro part t left' ⟨hac, hmi, _, follow, he, hu, hen⟩
      refine ⟨hmi, by rw [he]; exact Nat.le_refl _, ?_, .inr ⟨hac, ha⟩,
        fun _ => .inl hac, fun _ => .inl ⟨follow, ?_, hen⟩⟩
      · intro other hm
        rw [he] at hm
        rwa [mem_singleton.mp hm]
      · rw [he]
        exact .head _
    · rintro error t left' ⟨⟨invariant, message, context, rfl⟩, hgr, hst⟩
      refine ⟨.nil hgr, Nat.zero_le _, fun _ hm => absurd hm not_mem_nil, ?_,
        fun _ => .inr ⟨_, .head _, rfl⟩, fun hmv => .inr ?_⟩
      · exact hst.imp_right fun hac => ⟨hac.1, ha⟩
      · rcases hst with rfl | hac
        · exact absurd hmv hsty
        · exact hac.2

end Unblock

variable {db : Db} {commitmentId : Nat}

theorem Db.isUnsatisfied_eq_false_iff : db.isUnsatisfied commitmentId = false ↔
      ∃ row, db.commitments.get commitmentId = some row ∧ row.state = .doneverified := by
  unfold Acts.Db.isUnsatisfied
  cases db.commitments.get commitmentId <;> simp

def CommitmentRow.activated (row : CommitmentRow) (now : Nat) : CommitmentRow :=
  row.withState .active now row.resolvedByEventIds row.lastConfidenceBasis false

def Unchanged (start s : Db) (commitmentId : Nat) : Prop :=
  s.commitments.get commitmentId = start.commitments.get commitmentId

def BecameActive (start s : Db) (commitmentId : Nat) : Prop :=
  ∃ row now, start.commitments.get commitmentId = some row ∧ row.state = .blocked ∧
    s.commitments.get commitmentId = some (CommitmentRow.activated row now)

theorem Activated.get (ha : Activated db s commitmentId row)
    (hr : db.commitments.get commitmentId = some row) :
    (∃ now, s.commitments.get commitmentId = some (CommitmentRow.activated row now)) ∧
      ∀ other, other ≠ commitmentId → s.commitments.get other = db.commitments.get other := by
  obtain ⟨now, observations, rfl⟩ := ha
  simp only [Db.activate]
  refine ⟨⟨now, ?_⟩, fun other ho => ?_⟩
  · rw [apply_commitments_get, hr, Write.onCommitment, if_pos rfl]
    rfl
  · rw [apply_commitments_get, Write.onCommitment, if_neg ho]

/-- What holds after some of the dependents have been through the loop. -/
structure UnblockProgress (start : Db) (supply : Nat) (processed : List Nat)
    (parts : List Downstream) (s : Db) (left : Nat) : Prop where
  frame : ∃ commitments observations, s = { start with commitments, observations }
  untouched : ∀ id, id ∉ processed → Unchanged start s id
  moved : ∀ id ∈ processed, Unchanged start s id ∨ (Ready start id ∧ BecameActive start s id)
  reported : ∀ id ∈ processed, Ready start id → BecameActive start s id ∨
    ∃ violation ∈ parts.flatMap Downstream.violations, violation.entityId = id
  followed : ∀ id ∈ processed, BecameActive start s id →
    (∃ follow ∈ parts.flatMap Downstream.events, follow.entityId = id) ∨ start.contributions id = 0
  events : ∀ follow ∈ parts.flatMap Downstream.events, IsUnblocked follow
  short : (parts.flatMap Downstream.events).length ≤ processed.length
  minted : Minted supply left (parts.flatMap Downstream.events)

section Progress

variable {start s : Db} {supply left : Nat} {processed : List Nat} {parts : List Downstream}

theorem UnblockProgress.begin (start : Db) (supply : Nat) :
    UnblockProgress start supply [] [] start supply where
  frame := ⟨_, _, rfl⟩
  untouched := fun _ _ => rfl
  moved := fun _ hm => absurd hm not_mem_nil
  reported := fun _ hm => absurd hm not_mem_nil
  followed := fun _ hm => absurd hm not_mem_nil
  events := fun _ hm => absurd hm not_mem_nil
  short := Nat.le_refl _
  minted := .nil (Nat.le_refl _)

section

variable (hp : UnblockProgress start supply processed parts s left)

include hp

theorem UnblockProgress.cases (id : Nat) : Unchanged start s id ∨ (Ready start id ∧
    BecameActive start s id) := by
  by_cases hm : id ∈ processed
  · exact hp.moved id hm
  · exact .inl (hp.untouched id hm)

theorem UnblockProgress.isUnsatisfied (id : Nat) : s.isUnsatisfied id = start.isUnsatisfied id := by
  rcases hp.cases id with hs | ⟨-, row, now, hr, hb, ha⟩
  · unfold Acts.Db.isUnsatisfied
    rw [hs]
  · unfold Acts.Db.isUnsatisfied
    rw [hr, ha]
    simp [CommitmentRow.activated, CommitmentRow.withState, hb]

theorem UnblockProgress.ready_iff (id : Nat) : Ready s id ↔ Ready start id := by
  obtain ⟨_, _, hf⟩ := hp.frame
  have he : ∀ a b, s.DependsOn a b ↔ start.DependsOn a b := by
    intro a b
    rw [hf]
    exact Iff.rfl
  simp [Ready, he, hp.isUnsatisfied]

theorem UnblockProgress.references (hrf : ReferencesHold start) : ReferencesHold s := by
  obtain ⟨_, _, hf⟩ := hp.frame
  have htn : s.tenants = start.tenants := by rw [hf]
  have hm : s.models = start.models := by rw [hf]
  have hor : ∀ id row, s.commitments.get id = some row → ∃ old,
      start.commitments.get id = some old ∧ row.tenantId = old.tenantId ∧
        row.lastConfidenceBasis = old.lastConfidenceBasis := by
    intro id row hr
    rcases hp.cases id with hs | ⟨-, old, now, ho, -, ha⟩
    · exact ⟨row, hs.symm.trans hr, rfl, rfl⟩
    · cases ha.symm.trans hr
      exact ⟨old, ho, rfl, rfl⟩
  constructor
  · intro id row hr
    obtain ⟨old, ho, ht, -⟩ := hor id row hr
    rw [htn, ht]
    exact hrf.tenants id old ho
  · intro id row hr
    obtain ⟨old, ho, -, hb⟩ := hor id row hr
    rw [hm, hb]
    exact hrf.bases id old ho

theorem UnblockProgress.next (hf : dependentId ∉ processed)
    (hr : start.commitments.get dependentId = some row) (hbl : row.state = .blocked)
    (hst : UnblockStep s left dependentId row part t rest) : UnblockProgress start supply
    (processed ++ [dependentId]) (parts ++ [part]) t rest := by
  have hsn : s.commitments.get dependentId = some row := (hp.untouched dependentId hf).trans hr
  have hother : ∀ id, id ≠ dependentId → t.commitments.get id = s.commitments.get id := by
    intro id ho
    rcases hst.moved with rfl | ⟨hac, -⟩
    · rfl
    · exact (hac.get hsn).2 id ho
  have hact : Activated s t dependentId row → BecameActive start t dependentId := by
    intro hac
    obtain ⟨now, hnw⟩ := (hac.get hsn).1
    exact ⟨row, now, hr, hbl, hnw⟩
  have hpr : ∀ id ∈ processed, id ≠ dependentId := by
    rintro id hm rfl
    exact hf hm
  have hc : s.contributions dependentId = start.contributions dependentId := by
    obtain ⟨_, _, hfr⟩ := hp.frame
    rw [hfr]
    rfl
  constructor
  case frame =>
    obtain ⟨_, _, hfr⟩ := hp.frame
    rcases hst.moved with rfl | ⟨⟨now, observations, ha⟩, -⟩
    · exact ⟨_, _, hfr⟩
    · exact ⟨t.commitments, observations, by rw [ha, hfr]; rfl⟩
  case untouched =>
    intro id hm
    have hn : id ≠ dependentId := fun he => hm (by simp [he])
    exact (hother id hn).trans (hp.untouched id fun hold => hm (by simp [hold]))
  case moved =>
    intro id hm
    rcases mem_append.mp hm with hold | hn
    · have hs := hother id (hpr id hold)
      rcases hp.moved id hold with hu | ⟨hrd, old, now, hs0, hw, hi⟩
      · exact .inl (hs.trans hu)
      · exact .inr ⟨hrd, old, now, hs0, hw, hs.trans hi⟩
    · obtain rfl := mem_singleton.mp hn
      rcases hst.moved with rfl | ⟨hac, hrd⟩
      · exact .inl (hp.untouched _ hf)
      · exact .inr ⟨(hp.ready_iff _).mp hrd, hact hac⟩
  case reported =>
    intro id hm hrd
    simp only [flatMap_append, mem_append]
    rcases mem_append.mp hm with hold | hn
    · rcases hp.reported id hold hrd with ⟨old, now, hs0, hw, hi⟩ | hl
      · exact .inl ⟨old, now, hs0, hw, (hother id (hpr id hold)).trans hi⟩
      · obtain ⟨violation, hin, hid⟩ := hl
        exact .inr ⟨violation, .inl hin, hid⟩
    · obtain rfl := mem_singleton.mp hn
      rcases hst.reported ((hp.ready_iff _).mpr hrd) with hac | hl
      · exact .inl (hact hac)
      · obtain ⟨violation, hin, hid⟩ := hl
        exact .inr ⟨violation, .inr (by simpa using hin), hid⟩
  case followed =>
    intro id hm hbc
    simp only [flatMap_append, mem_append]
    rcases mem_append.mp hm with hold | hn
    · obtain ⟨old, now, hs0, hw, hi⟩ := hbc
      have hb : BecameActive start s id :=
        ⟨old, now, hs0, hw, (hother id (hpr id hold)).symm.trans hi⟩
      refine (hp.followed id hold hb).imp_left ?_
      rintro ⟨follow, hin, hid⟩
      exact ⟨follow, .inl hin, hid⟩
    · obtain rfl := mem_singleton.mp hn
      rcases hst.moved with rfl | ⟨hac, -⟩
      · -- The row is still blocked.
        obtain ⟨old, now, hs0, hw, hi⟩ := hbc
        cases hsn.symm.trans hi
        cases hbl
      · rw [← hc]
        refine (hst.followed hac).imp_left ?_
        rintro ⟨follow, hin, hid⟩
        exact ⟨follow, .inr (by simpa using hin), hid⟩
  case events =>
    intro follow hm
    rw [flatMap_append] at hm
    rcases mem_append.mp hm with hold | hn
    · exact hp.events follow hold
    · exact hst.events follow (by simpa using hn)
  case short =>
    have hb := hp.short
    have hon := hst.short
    simp only [flatMap_append, flatMap_cons, flatMap_nil, append_nil,
      length_append, length_singleton]
    omega
  case minted =>
    simpa using hp.minted.append hst.minted

end

end Progress

theorem mem_blockedDependents_iff : dependentId ∈ blockedDependents commitmentId tenantId db ↔
      db.DependsOn dependentId commitmentId ∧ ∃ row, db.commitments.get dependentId = some row ∧
        row.state = .blocked ∧ row.tenantId = tenantId := by
  unfold blockedDependents Db.DependsOn
  simp only [mem_filterMap, Prod.exists, Table.mem_primaryKeys_iff]
  constructor
  · rintro ⟨other, dependencyId, ⟨_, he⟩, hs⟩
    split at hs
    · next row hr =>
      split at hs
      · next ha =>
        cases hs
        obtain ⟨rfl, hst, ht⟩ := ha
        exact ⟨he, row, hr, hst, ht⟩
      · cases hs
    · cases hs
  · rintro ⟨he, row, hr, hst, ht⟩
    exact ⟨dependentId, commitmentId, ⟨(), he⟩, by simp [hr, hst, ht]⟩

theorem nodup_blockedDependents (commitmentId tenantId : Nat) (db : Db) :
    (blockedDependents commitmentId tenantId db).Nodup := by
  refine List.Nodup.filterMap ?_ db.dependsOn.nodup_primaryKeys
  rintro ⟨a, b⟩ ⟨c, d⟩ dependentId ho ht
  simp only [Option.mem_def] at ho ht
  split at ho
  · split at ht
    · split at ho
      · next h1 =>
        split at ht
        · next h2 =>
          cases ho
          cases ht
          rw [h1.1, h2.1]
        · cases ht
      · cases ho
    · cases ht
  · cases ho

theorem ends_unblockDependents (hrf : ReferencesHold db) (ht : tenantId ∈ db.tenants) :
    Tx.Ends Db.apply (unblockDependents clock event tenantId) db supply
      (fun part s left => ∃ parts, part = Downstream.concat parts ∧
        UnblockProgress db supply (blockedDependents event.entityId tenantId db) parts s left)
      (fun _ _ _ => False) := by
  rw [unblockDependents, Tx.bind_eq_bind, Tx.ends_bind, Tx.ends_read]
  refine Tx.Ends.seq (Tx.ends_mapEach (UnblockProgress db supply) (.begin db supply) ?_)
    fun parts s left hp => ⟨parts, rfl, hp⟩
  intro before dependentId after parts s left hsp hp
  have hm : dependentId ∈ blockedDependents event.entityId tenantId db := by simp [hsp]
  have hf : dependentId ∉ before := by
    have hn := nodup_blockedDependents event.entityId tenantId db
    rw [hsp, nodup_append] at hn
    exact fun ho => hn.2.2 dependentId ho dependentId (.head _) rfl
  obtain ⟨-, row, hr, hb, -⟩ := mem_blockedDependents_iff.mp hm
  have ht' : tenantId ∈ s.tenants := by
    obtain ⟨_, _, hfr⟩ := hp.frame
    rw [hfr]
    exact ht
  have hsn := (hp.untouched dependentId hf).trans hr
  exact (ends_unblockDependent (hp.references hrf) hsn hb ht').returned
    fun _ _ _ hs => hp.next hf hr hb hs

end FyralisCore.Think
