import FyralisCore.Resources.Refusals
import FyralisCore.Think.ApplyLoops

/-! What becomes of an operation that the domain refuses: the loops of edges and acts
handle every refusal, that of resources no `InvariantViolation`. -/
namespace FyralisCore.Think.Applier

open Relational Transaction Tx ErrorClass

structure DomainCall where
  policy : DropPolicy
  opKind : String
  body : DomainTx Unit

namespace DomainCall

variable (ctx : ApplyContext) (call : DomainCall) (error : DomainError) (db : ThinkDb)
  (supply : Nat)

def step : ThinkTx OpOutcome := applyOrDrop ctx call.policy call.opKind call.body

def reason : String := call.policy.classify error (error.message ctx.decimal)

def dropped : OpOutcome := .dropped (call.reason ctx error) (error.message ctx.decimal)

def left : ThinkDb := { db with domain := (call.body.exec change db.domain supply).state }

def recorded : ThinkDb :=
  (call.left db supply).recordDrop ctx call.policy.opType call.opKind (call.reason ctx error)
    (error.message ctx.decimal)

def leftSupply : Nat := (call.body.exec change db.domain supply).supply

theorem exec_step : (call.step ctx).exec change db supply =
      match (call.body.exec change db.domain supply).result with
      | .ok () => ⟨.ok .applied, call.left db supply, call.leftSupply db supply⟩
      | .error error =>
        if error.errorClass ∈ call.policy.handled then
          ⟨.ok (call.dropped ctx error), call.recorded ctx error db supply,
            call.leftSupply db supply⟩
        else ⟨.error error, call.left db supply, call.leftSupply db supply⟩ := by
  unfold step applyOrDrop onDomain
  rw [exec_attempt_bind, exec_onPart]
  change _ = match (call.body.exec change (domainPart.view db) supply).result with
    | .ok () => _
    | .error error => _
  cases hr : (call.body.exec change (domainPart.view db) supply).result with
  | ok v =>
    rfl
  | error raised =>
    dsimp [Except.mapError, id]
    split <;> rfl

variable {ctx call error db supply}

section

variable (hr : Tx.Raises change call.body db.domain supply error)

include hr

theorem exec_step_of_handled (hh : error.errorClass ∈ call.policy.handled) :
    (call.step ctx).exec change db supply = ⟨.ok (call.dropped ctx error),
    call.recorded ctx error db supply, call.leftSupply db supply⟩ := by
  rw [exec_step, hr]
  exact if_pos hh

theorem raises_step_of_unhandled (hu : error.errorClass ∉ call.policy.handled) : Tx.Raises change
    (call.step ctx) db supply error := by
  unfold Tx.Raises
  rw [exec_step, hr]
  exact congrArg Tx.Outcome.result (if_neg hu)

end

end DomainCall

/-- The call that an edge, an act or a resource operation makes, once its placeholders
are resolved: none for an edge whose ends have become one model, and none for an act
whose basis is not there. -/
def DiffOp.call (ctx : ApplyContext) (pending : PendingIds) (db : ThinkDb) :
    DiffOp → Option DomainCall
  | .edge given =>
    let op := given.resolvePending pending
    if op.sourceModelId = op.targetModelId then none
    else some ⟨edgePolicy, op.op.text, applyEdgeOp ctx op⟩
  | .act given =>
    let op := given.resolvePending pending
    if op.confidenceBasis.all fun basis => modelIdExists ctx basis db then
      some ⟨actPolicy, op.entity.op, applyActOp ctx op⟩
    else none
  | .resource op => some ⟨resourcePolicy, op.op, applyResourceOp ctx op⟩
  | .lifecycle _ | .relationClaim _ | .other _ => none

theorem exec_run_of_call {ctx : ApplyContext} {pending : PendingIds} {db : ThinkDb} {op : DiffOp}
    {call : DomainCall} (hc : op.call ctx pending db = some call) (supply : Nat) :
    (op.run ctx pending).exec change db supply = (call.step ctx).exec change db supply := by
  cases op with
  | edge given =>
    simp only [DiffOp.call] at hc
    split at hc
    · cases hc
    · next hn =>
      cases hc
      simp [DiffOp.run, applyEdgeStep, if_neg hn, DomainCall.step]
  | act given =>
    simp only [DiffOp.call] at hc
    split at hc
    · next hb =>
      cases hc
      simp only [DiffOp.run, applyActStep]
      rw [exec_bind, exec_read]
      simp [hb, DomainCall.step]
    · cases hc
  | resource op =>
    cases hc
    rfl
  | lifecycle op => cases hc
  | relationClaim op => cases hc
  | other body => cases hc

abbrev Never {α : Type} (errorClass : ErrorClass) (body : DomainTx α) : Prop :=
  Tx.EachError change (fun error => error.errorClass ≠ errorClass) body

section

variable {ctx : ApplyContext}

variable {α : Type} {errorClass : ErrorClass}

theorem never_onActs : Never .edgeRegistryError (onActs body) :=
  .onPart fun _ _ error _ => by cases error <;> exact noConfusion

theorem never_onModels : Never .invariantViolation (onModels body) :=
  .onPart fun _ _ error _ => by cases error <;> exact noConfusion

theorem never_onResources : Never .edgeRegistryError (onResources body) :=
  .onPart fun _ _ error _ => by cases error <;> exact noConfusion

theorem never_execute : Never errorClass (execute w) :=
  .query fun _ _ ha => by cases ha

theorem never_constrained (ho : errorClass ≠ .other) :
    Never errorClass (constrained constraints w) := by
  refine .query fun db error ha => ?_
  split at ha <;> cases ha
  exact ho.symm

theorem never_malformed {error : DecodeError} :
    Never .edgeRegistryError (.raise error.raised : DomainTx α) :=
  .raise (by cases error <;> exact noConfusion)

theorem never_emitDecisionChange
    (ho : errorClass ≠ .other) : Never errorClass (emitDecisionChange observation) :=
  .bind .newId fun _ => never_constrained ho

theorem applyEdgeOp_never : Never .invariantViolation (applyEdgeOp ctx op) := by
  unfold applyEdgeOp
  cases op.op with
  | add => exact never_onModels
  | retire => exact never_onModels

theorem updateGoal_never : Never .edgeRegistryError (updateGoal ctx update) :=
  .bind (.orRaise noConfusion) fun _ => .bind (.ensure noConfusion) fun _ =>
    .bind never_execute fun _ => never_onActs

theorem createDecision_never : Never .edgeRegistryError (createDecision ctx a) :=
  .bind (.ensure noConfusion) fun _ => .bind (.ensure noConfusion) fun _ =>
    .bind .newId fun _ => .bind (never_constrained noConfusion) fun _ =>
      never_emitDecisionChange noConfusion

theorem transitionDecision_never :
    Never .edgeRegistryError (transitionDecision ctx decisionId newState) :=
  .bind .read fun _ => .bind (.orRaise noConfusion) fun _ =>
    .bind (.ensure noConfusion) fun _ => .bind never_execute fun _ =>
      never_emitDecisionChange noConfusion

theorem applyActOp_never : Never .edgeRegistryError (applyActOp ctx op) := by
  unfold applyActOp
  cases op.entity with
  | createGoal a => exact never_onActs
  | updateGoal update => exact updateGoal_never
  | transitionGoal goalId newState => exact never_onActs
  | createCommitment a => exact never_onActs
  | transitionCommitment commitmentId newState resolved cause => exact never_onActs
  | createDecision a => exact createDecision_never
  | transitionDecision decisionId newState => exact transitionDecision_never
  | addEdge a => exact never_onActs
  | malformed op error => exact never_malformed

theorem createResource_never (hv : errorClass ≠ .validationError)
    (ho : errorClass ≠ .other) (he : ∀ a, Never errorClass (emitStateChange ctx a)) :
    Never errorClass (createResource ctx a) :=
  .bind (.orRaise hv.symm) fun _ => .bind (.orRaise hv.symm) fun _ =>
    .bind (.ensure hv.symm) fun _ => .bind (.ensure hv.symm) fun _ =>
      .bind (.ensure hv.symm) fun _ => .bind (.orRaise hv.symm) fun _ =>
        .bind .newId fun _ => .bind (never_constrained ho) fun _ => he _

theorem updateAttributes_never : Never .edgeRegistryError (updateAttributes ctx update) :=
  .bind (.ensure noConfusion) fun _ => .bind .read fun _ =>
    .bind (.orRaise noConfusion) fun _ => .bind (.ensure noConfusion) fun _ =>
      .bind never_execute fun _ => never_onActs

theorem applyResourceOp_never : Never .edgeRegistryError (applyResourceOp ctx op) := by
  cases op with
  | create a =>
    exact createResource_never noConfusion noConfusion fun _ => never_onActs
  | update update => exact updateAttributes_never
  | transaction a => exact never_onResources
  | deploy a => exact never_onResources
  | release a => exact never_onResources
  | malformed op error => exact never_malformed

end

/-! ### Resource operations that an invariant refuses -/

/-- A resource operation that an invariant of the resource store refuses: R4 on an
archived resource, R1, R2, R3 and R5 as the calls of the store check them. -/
inductive InvariantRefusal (ctx : ApplyContext) (db : DomainDb) (supply : Nat) :
    ResourceOp → Prop where
  | update (update : ResourceUpdate) (row : Resources.ResourceRow)
      (hgiven : (update.patch.isSome || update.metadataPatch.isSome || update.description.isSome))
      (hrow : db.resources.resources.get update.resourceId = some row)
      (harchived : row.archivedAt.isSome) : InvariantRefusal ctx db supply (.update update)
  | transaction (args : Resources.RecordArgs)
      (hrefusal : Resources.RecordRefusal args (resourcesView db)) :
    InvariantRefusal ctx db supply (.transaction args)
  | deploy (args : Resources.DeployArgs)
      (hrefusal : Resources.DeployRefusal ctx.clock args (resourcesView db) supply) :
    InvariantRefusal ctx db supply (.deploy args)
  | release (args : Resources.ReleaseArgs)
      (hrefusal : Resources.ReleaseRefusal ctx.clock args (resourcesView db)) :
    InvariantRefusal ctx db supply (.release args)

def RaisesInvariant {α : Type} (body : DomainTx α) (db : DomainDb) (supply : Nat) : Prop :=
  ∃ error, Tx.Raises change body db supply error ∧ error.errorClass = .invariantViolation

section

variable {ctx : ApplyContext} {db : DomainDb} {supply : Nat}

theorem not_raisesInvariant
    (hn : Never .invariantViolation body) : ¬ RaisesInvariant body db supply := by
  rintro ⟨error, hr, hc⟩
  exact hn db supply error hr hc

theorem never_emitStateChange
    (ho : errorClass ≠ .other) : Never errorClass (emitStateChange ctx a) := by
  refine .onPart (.bind (.bind .newId fun _ => .bind (.query ?_) fun _ => .done) fun _ => .done)
  intro db error ha
  unfold Acts.constrained at ha
  split at ha <;> cases ha
  exact ho.symm

theorem errorClass_resource :
    (DomainError.resource error).errorClass = .invariantViolation ↔ error.isInvariant := by
  cases error <;> simp [DomainError.errorClass, errorClassOfResource, Resources.ResourceError.isInvariant]

theorem raisesInvariant_resourceCall {α : Type} {body : Resources.ResourceTx α} :
    RaisesInvariant (resourceCall body) db supply ↔
      Resources.Refuses body (resourcesView db) supply := by
  have hd : ∀ _ : α, Resources.NeverRefuses (.done () : Resources.ResourceTx Unit) := fun _ => .done
  rw [← Resources.refuses_bind_never hd]
  unfold RaisesInvariant resourceCall onResources Resources.Refuses
  simp only [raises_onPart]
  constructor
  · rintro ⟨_, ⟨error, hr, rfl⟩, hc⟩
    exact ⟨error, hr, errorClass_resource.mp hc⟩
  · rintro ⟨error, hr, hi⟩
    exact ⟨_, ⟨error, hr, rfl⟩, errorClass_resource.mpr hi⟩

theorem raisesInvariant_updateAttributes : RaisesInvariant (updateAttributes ctx update) db supply ↔
      (update.patch.isSome || update.metadataPatch.isSome || update.description.isSome) ∧
        ∃ row, db.resources.resources.get update.resourceId = some row ∧
          row.archivedAt.isSome := by
  unfold RaisesInvariant updateAttributes
  simp only [bind_eq_bind]
  constructor
  · rintro ⟨error, hrs, hc⟩
    rcases raises_bind.mp hrs with hrs | ⟨_, _, _, he, hrs⟩
    · obtain ⟨-, rfl⟩ := raises_ensure.mp hrs
      cases hc
    obtain ⟨hg, rfl, rfl⟩ := returns_ensure.mp he
    rw [raises_read_bind] at hrs
    rcases raises_bind.mp hrs with hrs | ⟨row, _, _, hf, hrs⟩
    · obtain ⟨-, rfl⟩ := raises_orRaise.mp hrs
      cases hc
    obtain ⟨hr, rfl, rfl⟩ := returns_orRaise.mp hf
    rcases raises_bind.mp hrs with hrs | ⟨_, _, _, -, hrs⟩
    · obtain ⟨ha, -⟩ := raises_ensure.mp hrs
      exact ⟨hg, row, hr, by simpa using ha⟩
    · rcases raises_bind.mp hrs with hrs | ⟨_, _, _, -, hrs⟩
      · exact absurd hc (never_execute _ _ error hrs)
      · exact absurd hc (never_emitStateChange noConfusion _ _ error hrs)
  · rintro ⟨hg, row, hr, ha⟩
    refine ⟨.invariantViolation "R4" "cannot update archived resource", ?_, rfl⟩
    refine raises_bind.mpr (.inr ⟨(), _, _, returns_ensure.mpr ⟨hg, rfl, rfl⟩, ?_⟩)
    rw [raises_read_bind]
    refine raises_bind.mpr (.inr ⟨row, _, _, returns_orRaise.mpr ⟨hr, rfl, rfl⟩, ?_⟩)
    exact raises_bind.mpr (.inl (raises_ensure.mpr ⟨by simpa using ha, rfl⟩))

theorem raisesInvariant_applyResourceOp (op : ResourceOp) :
    RaisesInvariant (applyResourceOp ctx op) db supply ↔ InvariantRefusal ctx db supply op := by
  cases op with
  | create a =>
    refine iff_of_false (not_raisesInvariant (createResource_never noConfusion
      noConfusion fun _ => never_emitStateChange noConfusion)) ?_
    rintro ⟨⟩
  | update update =>
    refine raisesInvariant_updateAttributes.trans ⟨?_, ?_⟩
    · rintro ⟨hg, row, hr, ha⟩
      exact .update update row hg hr ha
    · rintro ⟨_, row, hg, hr, ha⟩
      exact ⟨hg, row, hr, ha⟩
  | transaction a =>
    refine raisesInvariant_resourceCall.trans (Resources.refuses_recordTransaction_iff.trans ⟨?_, ?_⟩)
    · exact .transaction a
    · rintro ⟨⟩
      assumption
  | deploy a =>
    refine raisesInvariant_resourceCall.trans (Resources.refuses_deploy_iff.trans ⟨?_, ?_⟩)
    · exact .deploy a
    · rintro ⟨⟩
      assumption
  | release a =>
    refine raisesInvariant_resourceCall.trans (Resources.refuses_release_iff.trans ⟨?_, ?_⟩)
    · exact .release a
    · rintro ⟨⟩
      assumption
  | malformed op error =>
    refine iff_of_false ?_ ?_
    · rintro ⟨raised, hrs, hc⟩
      obtain rfl := raises_raise.mp hrs
      cases error <;> cases hc
    · rintro ⟨⟩

end

structure Application where
  ctx : ApplyContext
  phases : OtherPhases
  diff : ValidatedDiff
  start : ThinkDb
  supply : Nat

/-- Where an application has come to: the operation that is next and those after it,
what became of those before it, and the state that they left. -/
structure Point where
  pending : PendingIds
  op : DiffOp
  later : List DiffOp
  outcomes : List OpOutcome
  db : ThinkDb
  supply : Nat

namespace Application

variable (run : Application)

/-- `apply_diff` comes to the point. -/
def Reaches (point : Point) : Prop :=
  ∃ earlier middle remaining,
    Tx.Returns change (onDomain run.phases.claimOps) run.start run.supply point.pending middle
        remaining ∧
      run.diff.ops run.phases point.pending = earlier ++ point.op :: point.later ∧
      Tx.Returns change (applyOps run.ctx point.pending earlier) middle remaining point.outcomes
        point.db point.supply

def result : Tx.Outcome ThinkDb DomainError (List OpOutcome) :=
  (applyDiff run.ctx run.phases run.diff).exec change run.start run.supply

/-- The operations after the point are applied, in the state that its own left. -/
def goesOn (point : Point) (outcome : OpOutcome) (db : ThinkDb) (supply : Nat) :
    Tx.Outcome ThinkDb DomainError (List OpOutcome) :=
  ((applyOps run.ctx point.pending point.later).bind fun rest =>
    .done (point.outcomes ++ outcome :: rest)).exec change db supply

/-- An edge, an act or a resource operation that the domain refuses is dropped and
recorded, and the operations after it are applied. -/
def RefusalsDropped : Prop :=
  ∀ point call error, run.Reaches point → point.op.call run.ctx point.pending point.db = some call →
    Tx.Raises change call.body point.db.domain point.supply error → error.isRefusal →
      (point.op.run run.ctx point.pending).exec change point.db point.supply =
        ⟨.ok (call.dropped run.ctx error), call.recorded run.ctx error point.db point.supply,
          call.leftSupply point.db point.supply⟩ ∧
      run.result = run.goesOn point (call.dropped run.ctx error)
        (call.recorded run.ctx error point.db point.supply)
        (call.leftSupply point.db point.supply)

variable {run}

theorem Reaches.result_eq (hr : run.Reaches point) :
    run.result = ((point.op.run run.ctx point.pending).bind fun outcome =>
      (applyOps run.ctx point.pending point.later).bind fun rest =>
        .done (point.outcomes ++ outcome :: rest)).exec change point.db point.supply := by
  obtain ⟨earlier, middle, remaining, hc, ho, hp⟩ := hr
  unfold result applyDiff
  rw [exec_bind, hc]
  dsimp only
  rw [ho]
  exact exec_mapEach_at hp

/-- The refusals of the calls are of the classes that their loops handle, but for the
invariants of resources. -/
theorem handled_of_isRefusal {ctx : ApplyContext} {pending : PendingIds} {db : ThinkDb}
    {supply : Nat} {op : DiffOp} {call : DomainCall} {error : DomainError}
    (hc : op.call ctx pending db = some call)
    (hrs : Tx.Raises change call.body db.domain supply error) (hr : error.isRefusal)
    (hi : ∀ resourceOp, op = .resource resourceOp →
      ¬ InvariantRefusal ctx db.domain supply resourceOp) :
    error.errorClass ∈ call.policy.handled := by
  have ho : error.errorClass ≠ .other := by simpa [DomainError.isRefusal] using hr
  cases op with
  | edge given =>
    simp only [DiffOp.call] at hc
    split at hc
    · cases hc
    · cases hc
      have hcl := applyEdgeOp_never db.domain supply error hrs
      cases he : error.errorClass <;> simp_all [edgePolicy]
  | act given =>
    simp only [DiffOp.call] at hc
    split at hc
    · cases hc
      have hcl := applyActOp_never db.domain supply error hrs
      cases he : error.errorClass <;> simp_all [actPolicy]
    · cases hc
  | resource op =>
    cases hc
    have hcl := applyResourceOp_never db.domain supply error hrs
    have hrf : error.errorClass ≠ .invariantViolation := fun hv =>
      hi op rfl ((raisesInvariant_applyResourceOp op).mp ⟨error, hrs, hv⟩)
    cases he : error.errorClass <;> simp_all [resourcePolicy]
  | lifecycle op => cases hc
  | relationClaim op => cases hc
  | other body => cases hc

theorem Reaches.aborts {point : Point} (hr : run.Reaches point) (ho : point.op = .resource op)
    (hrf : InvariantRefusal run.ctx point.db.domain point.supply op) :
    ∃ error, run.result.result = .error error ∧ ¬ run.RefusalsDropped := by
  obtain ⟨error, hrs, hcl⟩ := (raisesInvariant_applyResourceOp op).mpr hrf
  let call : DomainCall := ⟨resourcePolicy, op.op, applyResourceOp run.ctx op⟩
  have hc : point.op.call run.ctx point.pending point.db = some call := by rw [ho]; rfl
  have hs : Tx.Raises change (point.op.run run.ctx point.pending) point.db point.supply error := by
    unfold Tx.Raises
    rw [exec_run_of_call hc]
    refine DomainCall.raises_step_of_unhandled hrs ?_
    rw [hcl]
    exact (by decide : invariantViolation ∉ resourcePolicy.handled)
  refine ⟨error, ?_, fun hd => ?_⟩
  · rw [hr.result_eq]
    exact raises_bind.mpr (.inl hs)
  · have hx := (hd point call error hr hc hrs (by simp [DomainError.isRefusal, hcl])).1
    unfold Tx.Raises at hs
    rw [hx] at hs
    cases hs

end Application

/-- Refused operations are dropped exactly as long as none is a resource operation
that an invariant of the resource store refuses. -/
theorem refusals_dropped_iff (run : Application) :
    run.RefusalsDropped ↔ ∀ point op, run.Reaches point → point.op = .resource op →
      ¬ InvariantRefusal run.ctx point.db.domain point.supply op := by
  constructor
  · intro hdropped point op hreaches hop hrefusal
    obtain ⟨-, -, hnot⟩ := hreaches.aborts hop hrefusal
    exact hnot hdropped
  · intro hnone point call error hreaches hcall hraises hrefusal
    have hhandled := Application.handled_of_isRefusal hcall hraises hrefusal fun op hop =>
      hnone point op hreaches hop
    have hstep := (exec_run_of_call hcall point.supply).trans
      (DomainCall.exec_step_of_handled hraises hhandled)
    refine ⟨hstep, ?_⟩
    rw [hreaches.result_eq, exec_bind, hstep]
    rfl

def fourUnits : Resources.ResourceRow where
  tenantId := 0
  kind := .capacity
  currentValue := [("total_units", .int 4), ("available_units", .int 4), ("deployed_units", .int 0)]
  lastUpdatedAt := 0

def deployFive : Resources.DeployArgs where
  resourceId := 1
  commitmentId := 2
  quantity := .object [("units", .int 5)]
  sourceEventId := 3

def acquireOne : Resources.RecordArgs where
  resourceId := 1
  kind := "acquire"
  delta := .object [("units", .int 1)]
  occurredAt := 0
  sourceEventId := 3

def overdrawn : Application where
  ctx := { clock := ⟨0, 0⟩, tenantId := 0, decimal := fun _ => "" }
  phases := ⟨.done ∅, fun _ => .done (), fun _ => .done (), .done ()⟩
  diff := { resourceOps := [.deploy deployFive, .transaction acquireOne] }
  start :=
    { domain :=
      { acts := { tenants := [0] }
        resources := { resources := (∅ : Table Nat Resources.ResourceRow).put 1 fourUnits } } }
  supply := 0

def beforeDeploy : Point where
  pending := ∅
  op := .resource (.deploy deployFive)
  later := [.resource (.transaction acquireOne), .other (.done ())]
  outcomes := [.applied, .applied]
  db := overdrawn.start
  supply := 0

theorem overdrawn_aborts :
    ∃ error, overdrawn.result.result = .error error ∧ ¬ overdrawn.RefusalsDropped := by
  have hr : overdrawn.Reaches beforeDeploy :=
    ⟨[.other (.done ()), .other (.done ())], overdrawn.start, 0, rfl, rfl, rfl⟩
  have ha : Resources.DeployAsked deployFive (resourcesView overdrawn.start.domain)
      [("units", .int 5)] fourUnits := ⟨rfl, by decide, rfl⟩
  exact hr.aborts rfl (.deploy deployFive (.moved _ _ ha rfl
    (.short (.int 5) ⟨4, 5, rfl, rfl, by decide⟩)))

theorem not_refusals_dropped : ¬ ∀ run : Application, run.RefusalsDropped := by
  intro hall
  obtain ⟨_, -, hnot⟩ := overdrawn_aborts
  exact hnot (hall overdrawn)

end FyralisCore.Think.Applier
