import FyralisCore.Think.LateRefusals

/-! What a dropped operation leaves in the tables of the domain: no savepoint stands
around it, so what it has written before it is refused stays. -/
namespace FyralisCore.Think.Applier

open Relational Transaction Tx

def OpOutcome.isDropped : OpOutcome → Bool
  | .dropped _ _ => true
  | .applied | .skipped _ => false

/-- The operations that are refused after they have written, their placeholders
resolved. -/
inductive LateRefusal (ctx : ApplyContext) (pending : PendingIds) (db : ThinkDb) (supply : Nat) :
    DiffOp → Prop where
  | lifecycle (op : MemoryLifecycleOp) (hlate : LateLifecycle ctx db.domain op) :
    LateRefusal ctx pending db supply (.lifecycle op)
  | relationClaim (op : RelationClaimOp)
      (hlate : LateClaim ctx db.domain (op.resolvePending pending)) :
    LateRefusal ctx pending db supply (.relationClaim op)
  | act (op : ActOp)
      (hbasis : ∀ basis ∈ (op.resolvePending pending).confidenceBasis, modelIdExists ctx basis db)
      (hlate : LateAct ctx db.domain supply (op.resolvePending pending)) :
    LateRefusal ctx pending db supply (.act op)

def SameDomain (step : ThinkTx OpOutcome) : Prop :=
  ∀ db other supply, other.domain = db.domain → ∀ outcome after left,
    Tx.Returns change step db supply outcome after left →
      ∃ elsewhere, Tx.Returns change step other supply outcome elsewhere left ∧
        elsewhere.domain = after.domain

def Unchanged (step : ThinkTx OpOutcome) (db : ThinkDb) (supply : Nat) : Prop :=
  ∀ outcome after left, Tx.Returns change step db supply outcome after left →
    outcome.isDropped → after.domain = db.domain

namespace DomainCall

variable {ctx : ApplyContext} {db : ThinkDb} {supply : Nat}

theorem sameDomain_step (call : DomainCall) : SameDomain (call.step ctx) := by
  intro db other supply hd outcome after left hr
  unfold Tx.Returns at hr ⊢
  rw [exec_step] at hr
  rw [exec_step, hd]
  cases hrs : (call.body.exec change db.domain supply).result with
  | ok v =>
    rw [hrs] at hr
    cases hr
    refine ⟨_, by rw [leftSupply, hd]; rfl, ?_⟩
    simp [DomainCall.left, hd]
  | error error =>
    rw [hrs] at hr
    dsimp only at hr ⊢
    split at hr
    · next hh =>
      cases hr
      rw [if_pos hh]
      refine ⟨_, by rw [leftSupply, hd]; rfl, ?_⟩
      simp [recorded, DomainCall.left, ThinkDb.recordDrop, hd]
    · cases hr

theorem unchanged_step (call : DomainCall)
    (h1 : Tx.FailsFirstAt change (fun error => error.errorClass ∈ call.policy.handled) call.body
      db.domain supply) : Unchanged (call.step ctx) db supply := by
  intro outcome after left hr hd
  unfold Tx.Returns at hr
  rw [exec_step] at hr
  cases hrs : (call.body.exec change db.domain supply).result with
  | ok v =>
    rw [hrs] at hr
    cases hr
    cases hd
  | error error =>
    rw [hrs] at hr
    dsimp only at hr
    split at hr
    · next hh =>
      cases hr
      exact h1 error hrs hh
    · cases hr

end DomainCall

section

variable {ctx : ApplyContext} {pending : PendingIds} {db : ThinkDb} {supply : Nat}

variable {outcome : OpOutcome} {opType opKind reason message : String}

theorem sameDomain_done : SameDomain (.done outcome) := by
  intro db other supply hd v after left hr
  obtain ⟨rfl, rfl, rfl⟩ := hr.ended
  exact ⟨other, returns_done.mpr ⟨rfl, rfl, rfl⟩, hd⟩

theorem unchanged_done : Unchanged (.done outcome) db supply := by
  intro v after left hr _
  obtain ⟨-, rfl, -⟩ := hr.ended
  rfl

theorem returns_dropOp :
    Tx.Returns change (dropOp ctx opType opKind reason message) db supply outcome after left ↔
      outcome = .dropped reason message ∧
        after = db.recordDrop ctx opType opKind reason message ∧ left = supply := by
  constructor
  · rintro ⟨⟩
    exact ⟨rfl, rfl, rfl⟩
  · rintro ⟨rfl, rfl, rfl⟩
    rfl

theorem sameDomain_dropOp : SameDomain (dropOp ctx opType opKind reason message) := by
  intro db other supply hd outcome after left hr
  obtain ⟨rfl, rfl, rfl⟩ := returns_dropOp.mp hr
  exact ⟨_, returns_dropOp.mpr ⟨rfl, rfl, rfl⟩, hd⟩

theorem unchanged_dropOp : Unchanged (dropOp ctx opType opKind reason message) db supply := by
  intro outcome after left hr _
  obtain ⟨-, rfl, -⟩ := returns_dropOp.mp hr
  rfl

theorem sameDomain_other : SameDomain ((onDomain body).bind fun _ => .done .applied) := by
  intro db other supply hdm outcome after left hr
  obtain ⟨v, m, k, hb, hd⟩ := hr.parts
  obtain ⟨rfl, rfl, rfl⟩ := hd.ended
  have hi := (returns_onPart hb).1
  refine ⟨domainPart.put other m.domain, ?_, rfl⟩
  refine returns_bind.mpr ⟨v, _, _, Tx.Returns.onPart ?_, returns_done.mpr ⟨rfl, rfl, rfl⟩⟩
  have hv : domainPart.view other = domainPart.view db := hdm
  rw [hv]
  exact hi

theorem sameDomain_run (op : DiffOp) : SameDomain (op.run ctx pending) := by
  cases op with
  | lifecycle op =>
    exact DomainCall.sameDomain_step
      ⟨memoryLifecyclePolicy, op.action.text, applyLifecycleOp ctx op⟩
  | relationClaim given =>
    unfold DiffOp.run applyRelationClaimStep
    dsimp only
    split
    · exact sameDomain_done
    · exact DomainCall.sameDomain_step ⟨relationClaimPolicy, "upsert", _⟩
  | edge given =>
    unfold DiffOp.run applyEdgeStep
    dsimp only
    split
    · exact sameDomain_done
    · exact DomainCall.sameDomain_step ⟨edgePolicy, _, _⟩
  | act given =>
    intro db other supply hd
    unfold DiffOp.run applyActStep
    simp only [returns_read_bind, modelIdExists, hd]
    split
    · exact DomainCall.sameDomain_step ⟨actPolicy, _, _⟩ db other supply hd
    · exact sameDomain_dropOp db other supply hd
  | resource op =>
    exact DomainCall.sameDomain_step ⟨resourcePolicy, op.op, applyResourceOp ctx op⟩
  | other body => exact sameDomain_other

theorem unchanged_run (hl : ¬ LateRefusal ctx pending db supply op) :
    Unchanged (op.run ctx pending) db supply := by
  cases op with
  | lifecycle op =>
    refine DomainCall.unchanged_step
      ⟨memoryLifecyclePolicy, op.action.text, applyLifecycleOp ctx op⟩ ?_
    refine Tx.FailsFirstAt.mono
      (applyLifecycleOp_validatesFirst fun hlf => hl (.lifecycle op hlf)) ?_
    simp [memoryLifecyclePolicy]
  | relationClaim given =>
    unfold DiffOp.run applyRelationClaimStep
    dsimp only
    split
    · exact unchanged_done
    · refine DomainCall.unchanged_step ⟨relationClaimPolicy, "upsert", _⟩ ?_
      refine Tx.FailsFirstAt.mono
        (applyRelationClaimOp_refusesFirst fun hc => hl (.relationClaim given hc)) ?_
      intro error hh
      exact isRefusal_iff.mpr fun ho => by simp [relationClaimPolicy, ho] at hh
  | edge given =>
    unfold DiffOp.run applyEdgeStep
    dsimp only
    split
    · exact unchanged_done
    · refine DomainCall.unchanged_step ⟨edgePolicy, _, _⟩ ?_
      refine Tx.FailsFirstAt.mono (applyEdgeOp_refusesFirst _ _) ?_
      intro error hh
      exact isRefusal_iff.mpr fun ho => by simp [edgePolicy, ho] at hh
  | act given =>
    intro outcome after left hr
    unfold DiffOp.run applyActStep at hr
    simp only [returns_read_bind] at hr
    split at hr
    · next hb =>
      refine DomainCall.unchanged_step ⟨actPolicy, _, _⟩ ?_ outcome after left hr
      refine Tx.FailsFirstAt.mono (applyActOp_refusesFirst fun ha =>
        hl (.act given (fun basis hm => ?_) ha)) ?_
      · rw [Option.mem_def.mp hm] at hb
        exact hb
      · intro error hh
        exact isRefusal_iff.mpr fun ho => by simp [actPolicy, ho] at hh
    · exact unchanged_dropOp outcome after left hr
  | resource op =>
    refine DomainCall.unchanged_step ⟨resourcePolicy, op.op, applyResourceOp ctx op⟩ ?_
    refine Tx.FailsFirstAt.mono applyResourceOp_validatesFirst ?_
    simp [resourcePolicy]
  | other body =>
    intro outcome after left hr hdr
    obtain ⟨_, _, _, -, hd⟩ := hr.parts
    obtain ⟨rfl, -, -⟩ := hd.ended
    cases hdr

end

section

variable {ctx : ApplyContext} {pending : PendingIds}

/-- The operations that are not dropped when all are applied, each with the identifiers
that it finds. -/
def survivors (ctx : ApplyContext) (pending : PendingIds) :
    List DiffOp → ThinkDb → Nat → List (DiffOp × Nat)
  | [], _, _ => []
  | op :: later, db, supply =>
    match (op.run ctx pending).exec change db supply with
    | ⟨.ok outcome, after, left⟩ =>
      (if outcome.isDropped then [] else [(op, supply)]) ++ survivors ctx pending later after left
    | ⟨.error _, _, _⟩ => []

def replay (ctx : ApplyContext) (pending : PendingIds) :
    List (DiffOp × Nat) → ThinkDb → Option ThinkDb
  | [], db => some db
  | (op, supply) :: later, db =>
    match (op.run ctx pending).exec change db supply with
    | ⟨.ok _, after, _⟩ => replay ctx pending later after
    | ⟨.error _, _, _⟩ => none

variable {db after : ThinkDb} {supply left : Nat}

theorem survivors_of_returns
    (hr : Tx.Returns change (op.run ctx pending) db supply outcome after left) :
    survivors ctx pending (op :: u) db supply =
      (if outcome.isDropped then [] else [(op, supply)]) ++
        survivors ctx pending u after left := by
  rw [survivors, hr]

theorem replay_of_returns
    (hr : Tx.Returns change (op.run ctx pending) db supply outcome after left) :
    replay ctx pending ((op, supply) :: u) db = replay ctx pending u after := by
  rw [replay, hr]

theorem replay_survivors (hdm : other.domain = db.domain)
    (hlt : ∀ earlier op u done m k, ops = earlier ++ op :: u →
      Tx.Returns change (applyOps ctx pending earlier) db supply done m k →
        ¬ LateRefusal ctx pending m k op)
    (hr : Tx.Returns change (applyOps ctx pending ops) db supply outcomes after left) :
    (replay ctx pending (survivors ctx pending ops db supply) other).map ThinkDb.domain =
      some after.domain := by
  induction ops generalizing db other supply outcomes with
  | nil =>
    obtain ⟨-, rfl, -⟩ := hr.ended
    exact congrArg some hdm
  | cons op u ih =>
    obtain ⟨outcome, m, k, hop, hr⟩ := hr.parts
    obtain ⟨rest, _, _, ht, hd⟩ := hr.parts
    obtain ⟨-, rfl, rfl⟩ := hd.ended
    have hl : ∀ earlier other later' done s ids, u = earlier ++ other :: later' →
        Tx.Returns change (applyOps ctx pending earlier) m k done s ids →
          ¬ LateRefusal ctx pending s ids other := by
      intro earlier other later' done s ids hsp hp
      refine hlt (op :: earlier) other later' (outcome :: done) s ids (by rw [hsp]; rfl) ?_
      exact returns_bind.mpr ⟨outcome, m, k, hop, returns_bind.mpr
        ⟨done, s, ids, hp, returns_done.mpr ⟨rfl, rfl, rfl⟩⟩⟩
    rw [survivors_of_returns hop]
    cases hdr : outcome.isDropped with
    | true =>
      have h1 : ¬ LateRefusal ctx pending db supply op :=
        hlt [] op u [] db supply rfl (returns_done.mpr ⟨rfl, rfl, rfl⟩)
      have hs : m.domain = db.domain := unchanged_run h1 outcome m k hop hdr
      exact ih (hdm.trans hs.symm) hl ht
    | false =>
      obtain ⟨elsewhere, ho, hs⟩ := sameDomain_run op db other supply hdm outcome m k hop
      simp only [Bool.false_eq_true, if_false, List.singleton_append]
      rw [replay_of_returns ho]
      exact ih hs hl ht

end

namespace Application

/-- When the application commits, its dropped operations have left no trace: the tables
of the domain are those that the other operations make alone. -/
def LeavesNoTrace (run : Application) : Prop :=
  ∀ pending claimed remaining outcomes after left,
    Tx.Returns change (onDomain run.phases.claimOps) run.start run.supply pending claimed
        remaining →
    run.result = ⟨.ok outcomes, after, left⟩ → (replay run.ctx pending
        (survivors run.ctx pending (run.diff.ops run.phases pending) claimed remaining)
        claimed).map ThinkDb.domain = some after.domain

end Application

/-- Dropped operations leave no trace in the runs in which none is refused after it has
written. -/
theorem no_trace_of_not_late (run : Application) (hlate : ∀ point : Point, run.Reaches point →
      ¬ LateRefusal run.ctx point.pending point.db point.supply point.op) : run.LeavesNoTrace := by
  intro pending claimed remaining outcomes after left hclaims hresult
  have hops : Tx.Returns change (applyOps run.ctx pending (run.diff.ops run.phases pending)) claimed
      remaining outcomes after left := by
    unfold Application.result applyDiff at hresult
    rw [exec_bind, hclaims] at hresult
    exact hresult
  refine replay_survivors rfl ?_ hops
  intro earlier op later done middle left hsplit hearlier
  exact hlate ⟨pending, op, later, done, middle, left⟩
    ⟨earlier, claimed, remaining, hclaims, hsplit, hearlier⟩

def idleCommitment : Acts.CommitmentRow where
  tenantId := 0
  title := "idle"
  ownerId := some 7
  createdAt := 0
  lastStateChangeAt := 0
  createdByEventId := 3

def moveIdle (newState : Acts.CommitmentState) : ActOp where
  confidenceBasis := some 9
  entity := .transitionCommitment 5 newState [] none

def idleMoves (states : List Acts.CommitmentState) : Application where
  ctx := { clock := ⟨0, 0⟩, tenantId := 0, causeEventId := some 3, decimal := fun _ => "" }
  phases := ⟨.done ∅, fun _ => .done (), fun _ => .done (), .done ()⟩
  diff := { actOps := states.map moveIdle }
  start :=
    { domain :=
      { acts :=
          { tenants := [0]
            actors := (∅ : Table Nat Acts.ActorRow).put 7 { tenantId := 0 }
            commitments := (∅ : Table Nat Acts.CommitmentRow).put 5 idleCommitment }
        models :=
          { models := (∅ : Table Nat Models.ModelRow).put 9
              { tenantId := 0, proposition := .null, createdAt := 0 } } } }
  supply := 0

def idleState (db : DomainDb) : Option Acts.CommitmentState :=
  (db.acts.commitments.get 5).map (·.state)

/-- The second closing is refused by the state machine, before it writes. -/
theorem second_closing_leaves_no_trace :
    let run := idleMoves [.closed, .closed]
    run.result.result.toOption.map (List.map OpOutcome.isDropped) =
      some [false, false, false, true, false] ∧
    idleState run.result.state.domain = some .closed ∧ run.LeavesNoTrace := by
  refine ⟨by decide +kernel, by decide +kernel, no_trace_of_not_late _ ?_⟩
  rintro ⟨pending, op, later, outcomes, db, supply⟩ ⟨earlier, _, _, _, hops, _⟩ hlate
  have hmem : op ∈ (idleMoves [.closed, .closed]).diff.ops (idleMoves []).phases pending :=
    hops ▸ List.mem_append_right earlier (.head later)
  simp [idleMoves, moveIdle, ValidatedDiff.ops] at hmem
  rcases hmem with rfl | rfl | rfl
  · cases hlate
  · cases hlate with | act _ _ hlate =>
    cases hlate with | transitionCommitment _ _ _ _ _ _ hlate => cases hlate.opens
  · cases hlate

/-- C10 refuses the transition after the UPDATE, the operation is dropped, and the
commitment is active. -/
theorem not_leaves_no_trace : ¬ ∀ run : Application, run.LeavesNoTrace := by
  intro hall
  let activation := idleMoves [.active]
  have hresult : activation.result.result.toOption.map (List.map OpOutcome.isDropped) =
      some [false, false, true, false] := by decide +kernel
  have hactive : idleState activation.result.state.domain = some .active := by decide +kernel
  have hreplay : ((replay activation.ctx ∅ (survivors activation.ctx ∅
      (activation.diff.ops activation.phases ∅) activation.start 0)
      activation.start).map ThinkDb.domain).map idleState = some (some .proposed) := by
    decide +kernel
  rcases hrun : activation.result with ⟨error | outcomes, after, left⟩
  · rw [hrun] at hresult
    cases hresult
  · have htrace := hall activation ∅ activation.start 0 outcomes after left rfl hrun
    rw [htrace] at hreplay
    rw [hrun] at hactive
    cases (Option.some.inj hreplay).symm.trans hactive

end FyralisCore.Think.Applier
