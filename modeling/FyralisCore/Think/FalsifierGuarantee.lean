import FyralisCore.Models.InsertEffects
import FyralisCore.Think.Beliefs
import FyralisCore.Think.MemoryRuns

/-! Which active models have a falsifier that is accepted: an insert above the threshold
is refused without one, while an update, a lifecycle operation and a merge look at no
falsifier. -/
namespace FyralisCore.Think.Applier

open Relational Transaction Transition Option Tx
open Acts (Json)

/-- Every active model above the threshold has a falsifier that is accepted. -/
def Guaranteed (rules : MemoryRules) (state : MemoryState) : Prop :=
  ∀ modelId confidence, state.db.domain.activeConfidence modelId = some confidence →
    Models.falsifierRequiredAbove < confidence →
      Models.Accepted rules.falsifier state.now (state.db.falsifier modelId)

def MemoryCall.given (ctx : ApplyContext) (db : DomainDb) : MemoryCall → Option (Nat × Rat)
  | .insert _ => none
  | .update modelId changes =>
    changes.confidence.map fun confidence => (modelId, clipConfidence confidence)
  | .lifecycle proposal =>
    (proposal.op.confidenceGiven ctx db).map fun confidence =>
      (proposal.op.modelId, clipConfidence confidence)
  | .merge given matchedId =>
    (matchedModel ctx matchedId db).map fun found =>
      (matchedId, clipConfidence (max given.confidence found.2.confidence))

/-- No deadline of an active model above the threshold passes, and no call lifts an active
model above it whose falsifier is not accepted. -/
def Covered (rules : MemoryRules) (state : MemoryState) : MemoryAction → Prop
  | .tick later =>
    ∀ modelId confidence, state.db.domain.activeConfidence modelId = some confidence →
      Models.falsifierRequiredAbove < confidence →
        ¬ Models.DeadlinePassed rules.falsifier later (state.db.falsifier modelId)
  | .call ctx call =>
    ∀ modelId confidence, call.given (ctx.at state.now) state.db.domain = some (modelId, confidence) →
      Models.falsifierRequiredAbove < confidence → state.db.domain.activeConfidence modelId ≠ none →
          Models.Accepted rules.falsifier state.now (state.db.falsifier modelId)

variable {rules : MemoryRules} {ctx : ApplyContext} {state after : MemoryState}
  {db left : MemoryDb} {supply k : Nat}

theorem clipConfidence_clipConfidence (confidence : Rat) :
    clipConfidence (clipConfidence confidence) = clipConfidence confidence := by
  unfold clipConfidence
  grind

theorem above_of_clipConfidence (ha : Models.falsifierRequiredAbove < clipConfidence confidence) :
    Models.falsifierRequiredAbove < confidence := by
  unfold clipConfidence Models.falsifierRequiredAbove at *
  split at ha
  · norm_num at ha
  · split at ha
    · next hl hh => exact lt_trans (by norm_num) hh
    · exact ha

structure Rewrites (call : MemoryCall) (ctx : ApplyContext) (db left : MemoryDb) : Prop where
  beliefs : BeliefsWithin (fun modelId confidence =>
    call.given ctx db.domain = some (modelId, confidence)) db.domain left.domain
  falsifiers : left.falsifiers = db.falsifiers

theorem Rewrites.guaranteed (hr : Rewrites call (ctx.at state.now) state.db left)
    (hg : Guaranteed rules state) (hc : Covered rules state (.call ctx call)) :
    Guaranteed rules { state with db := left, supply := k } := by
  intro modelId confidence hac ha
  have hf : left.falsifier modelId = state.db.falsifier modelId := by
    unfold MemoryDb.falsifier
    rw [hr.falsifiers]
  rw [hf]
  obtain ⟨before, hb, rfl | hgv⟩ := hr.beliefs modelId confidence hac
  · exact hg modelId confidence hb ha
  · exact hc modelId confidence hgv ha (by simp [hb])

theorem returns_onThink_onDomain
    (hr : Tx.Returns change (onThink (onDomain body)) db supply v left k) :
    Tx.Returns change body db.domain supply v left.domain k ∧ left.falsifiers = db.falsifiers := by
  obtain ⟨ht, hp⟩ := returns_onPart hr
  refine ⟨(returns_onPart ht).1, ?_⟩
  rw [hp]
  rfl

theorem rewrites_update
    (hr : Tx.Returns change ((MemoryCall.update modelId changes).body rules ctx) db supply ()
      left k) : Rewrites (.update modelId changes) ctx db left := by
  obtain ⟨validated, _, _, hc, hr⟩ := hr.parts
  obtain ⟨hv, rfl, rfl⟩ := returns_ofExcept.mp hc
  obtain ⟨ha, hf⟩ := returns_onThink_onDomain hr
  unfold ModelChanges.validate at hv
  split at hv
  · cases hv
  cases hv
  refine ⟨(beliefsWithin_applyClaimUpdate fun confidence hm => ?_).relates ha, hf⟩
  obtain ⟨given, hg, rfl⟩ := map_eq_some_iff.mp hm
  simp [MemoryCall.given, hg, clipConfidence_clipConfidence]

theorem rewrites_merge
    (hr : Tx.Returns change ((MemoryCall.merge given matchedId).body rules ctx) db supply ()
      left k) : Rewrites (.merge given matchedId) ctx db left := by
  obtain ⟨draft, _, _, hch, hr⟩ := hr.parts
  obtain ⟨hv, rfl, rfl⟩ := Tx.returns_ofExcept.mp hch
  simp only [Tx.bind_eq_bind] at hr
  rw [Tx.returns_read_bind] at hr
  obtain ⟨found, _, _, hrd, hr⟩ := hr.parts
  obtain ⟨hf, rfl, rfl⟩ := Tx.returns_orRaise.mp hrd
  obtain ⟨ha, hfl⟩ := returns_onThink_onDomain hr
  have hc : draft.confidence = given.confidence := by
    unfold ClaimInsert.validate at hv
    dsimp only at hv
    split at hv
    · cases hv
      rfl
    · cases hv
  refine ⟨(beliefsWithin_applyClaimUpdate fun confidence hm => ?_).relates ha, hfl⟩
  cases hm
  change (matchedModel ctx matchedId db.domain).map _ = _
  rw [hf, map_some, hc]

theorem domain_exec_step (ctx : ApplyContext) (call : DomainCall) (db : ThinkDb) (supply : Nat) :
    ((call.step ctx).exec change db supply).state.domain =
      (call.body.exec change db.domain supply).state := by
  rw [DomainCall.exec_step]
  split
  · rfl
  · split <;> rfl

theorem LifecycleProposal.validate_eq {proposal : LifecycleProposal}
    {op : MemoryLifecycleOp} (hv : proposal.validate ctx domain = .ok op) : op = proposal.op := by
  unfold LifecycleProposal.validate at hv
  grind

theorem rewrites_lifecycle {proposal : LifecycleProposal}
    (hr : Tx.Returns change ((MemoryCall.lifecycle proposal).body rules ctx) db supply ()
      left k) : Rewrites (.lifecycle proposal) ctx db left := by
  unfold MemoryCall.body at hr
  simp only [Tx.bind_eq_bind] at hr
  rw [Tx.returns_read_bind] at hr
  obtain ⟨op, _, _, hc, hr⟩ := hr.parts
  obtain ⟨hv, rfl, rfl⟩ := Tx.returns_ofExcept.mp hc
  obtain ⟨outcome, m, _, hs, hd⟩ := hr.parts
  obtain ⟨-, rfl, rfl⟩ := hd.ended
  obtain ⟨ht, hp⟩ := Tx.returns_onPart hs
  obtain rfl := LifecycleProposal.validate_eq hv
  refine ⟨?_, by rw [hp]; rfl⟩
  have hdm : m.domain =
      ((applyLifecycleOp ctx proposal.op).exec change db.domain supply).state := by
    refine Eq.trans ?_ (domain_exec_step ctx ⟨memoryLifecyclePolicy, proposal.op.action.text,
      applyLifecycleOp ctx proposal.op⟩ db.think supply)
    exact (congrArg (fun outcome => outcome.state.domain) ht).symm
  rw [hdm]
  refine beliefsWithin_applyLifecycleOp fun confidence hm => ?_
  rw [mem_def] at hm
  simp [MemoryCall.given, hm]

theorem accepted_of_checkFalsifier
    (hc : Models.checkFalsifier (rules.insertRules now) draft = .ok ())
    (hab : Models.falsifierRequiredAbove < draft.confidence) :
    Models.Accepted rules.falsifier now draft.falsifier := by
  have hs : (rules.insertRules now).isAdequateFalsifier draft.falsifier =
      rules.inadequacy now draft.falsifier := rfl
  unfold Models.checkFalsifier at hc
  rw [if_pos hab, hs] at hc
  unfold Models.Accepted
  unfold MemoryRules.inadequacy at hc
  cases ha : Models.isAdequateFalsifier rules.falsifier now draft.falsifier with
  | error error => simp [ha] at hc
  | ok reason => cases reason <;> simp_all

theorem guaranteed_applyClaimInsert
    (hrt : Tx.Returns change (applyClaimInsert rules (ctx.at state.now) given draft) state.db
      supply () left k) (hgu : Guaranteed rules state) :
    Guaranteed rules { state with db := left, supply := k } := by
  obtain ⟨newId, m, _, hi, hw⟩ := hrt.parts
  obtain ⟨_, hwr, hl, -⟩ := returns_query.mp hw
  cases hwr
  obtain ⟨ho, hf⟩ := returns_onThink_onDomain hi
  obtain ⟨hr, hp⟩ := returns_onPart ho
  have hm := Models.models_of_returns_insertConstructed hr
  change m.domain.models.models = state.db.domain.models.models.put newId _ at hm
  have hb : m.domain.beliefs = state.db.domain.beliefs := by
    rw [hp]
    rfl
  subst hl
  intro modelId confidence hac ha
  obtain ⟨row, belief, hg, hbe, hs, rfl⟩ := activeConfidence_eq_some.mp hac
  change m.domain.models.models.get modelId = some row at hg
  change (m.domain.beliefs.put newId _).get modelId = some belief at hbe
  change Models.Accepted _ _ ((m.falsifiers.put newId draft.falsifier).get modelId).join
  by_cases hn : modelId = newId
  · subst hn
    rw [Table.get_put_self] at hbe ⊢
    cases hbe
    exact accepted_of_checkFalsifier (Models.checkFalsifier_of_returns hr)
      (above_of_clipConfidence ha)
  · rw [hm, Table.get_put_ne _ _ hn] at hg
    rw [Table.get_put_ne _ _ hn, hb] at hbe
    rw [Table.get_put_ne _ _ hn, hf]
    exact hgu modelId belief.confidence
      (activeConfidence_eq_some.mpr ⟨row, belief, hg, hbe, hs, rfl⟩) ha

theorem guaranteed_tick (hg : Guaranteed rules state) (hc : Covered rules state (.tick u)) :
    Guaranteed rules { state with now := u } := fun modelId confidence hac ha =>
  (hg modelId confidence hac ha).stays (hc modelId confidence hac ha)

theorem guaranteed_step (hg : Guaranteed rules state)
    (hc : Covered rules state action) (hs : memoryStep rules state action = some after) :
    Guaranteed rules after := by
  cases action with
  | tick u =>
    obtain ⟨-, he⟩ := ite_none_right_eq_some.mp hs
    cases he
    exact guaranteed_tick hg hc
  | call ctx call =>
    unfold memoryStep at hs
    dsimp only at hs
    split at hs
    · next hrs =>
      cases hs
      have hr : Tx.Returns change (call.body rules (ctx.at state.now)) state.db state.supply ()
          _ _ := returns_of_result hrs
      cases call with
      | insert given =>
        obtain ⟨draft, _, _, hv, ha⟩ := hr.parts
        obtain ⟨-, rfl, rfl⟩ := returns_ofExcept.mp hv
        exact guaranteed_applyClaimInsert ha hg
      | update modelId changes => exact (rewrites_update hr).guaranteed hg hc
      | lifecycle proposal => exact (rewrites_lifecycle hr).guaranteed hg hc
      | merge given matchedId => exact (rewrites_merge hr).guaranteed hg hc
    · cases hs

theorem guaranteed_of_isEmpty (he : state.IsEmpty) : Guaranteed rules state := by
  intro modelId confidence ha
  obtain ⟨row, -, hr, -⟩ := activeConfidence_eq_some.mp ha
  rw [he] at hr
  cases hr

/-- In a run from an empty table whose steps are covered every active model above the
threshold has a falsifier that is accepted. -/
theorem guaranteed_of_covered {start : MemoryState} (hempty : start.IsEmpty)
    (hreach : Reach (memoryStep rules) (Covered rules) start state) : Guaranteed rules state :=
  hreach.invariant (guaranteed_of_isEmpty hempty) fun _ _ _ => guaranteed_step

def coversCall (rules : MemoryRules) (state : MemoryState) : MemoryAction → Bool
  | .tick _ => false
  | .call ctx call =>
    (call.given (ctx.at state.now) state.db.domain).all fun given =>
      decide (given.2 ≤ Models.falsifierRequiredAbove) ||
        decide (Models.Accepted rules.falsifier state.now (state.db.falsifier given.1))

theorem covered_of_coversCall
    (hc : coversCall rules state action) : Covered rules state action := by
  cases action with
  | tick u => cases hc
  | call ctx call =>
    intro modelId confidence hg ha _
    unfold coversCall at hc
    dsimp only at hc
    rw [hg] at hc
    simpa [Rat.not_le.mpr ha] using hc

def plainRules : MemoryRules where
  falsifier := Models.asciiRules
  str _ := ""
  parseUuid _ := none
  validateRecommendation _ _ _ := none

def oneTenant : MemoryState where
  db := { think := { domain := { acts := { tenants := [0] } } } }

def tenantContext : ApplyContext where
  clock := ⟨0, 0⟩
  tenantId := 0
  decimal value := if value = 9 / 10 then "0.9" else "0.7000000000000001"
  add current delta := if current = 13 / 20 then 7000000000000001 / 10000000000000000
    else current + delta

def insertBelieved (confidence : Rat) (falsifier : Option Json) : MemoryAction :=
  .call tenantContext (.insert
    { draft :=
        { tenantId := 0
          bornFromEventId := 3
          proposition := .object
            [("kind", .string "belief"), ("assertion", .string "The launch will slip.")]
          confidence
          falsifier } })

def updateConfidenceTo (modelId : Nat) (confidence : Rat) : MemoryAction :=
  .call tenantContext (.update modelId { confidence := some confidence })

def launchFalsifier : Json :=
  .object [("kind", .string "commitment_outcome"), ("commitment_ref", .string "launch"),
      ("contradicting_state", .string "doneverified")]

theorem isEmpty_oneTenant : oneTenant.IsEmpty := rfl

def confirm (modelId : Nat) : MemoryAction :=
  .call tenantContext (.lifecycle
    { op := { modelId, action := .confirm, evidenceEventIds := [1] }, rationale := "As before." })

/-- 0.65 + 0.05 is above the threshold, and the falsifier is there. -/
theorem guaranteed_insert_then_confirm : ∃ state confidence, 7 / 10 < confidence ∧
    state.db.domain.activeConfidence 0 = some confidence ∧ Guaranteed plainRules state := by
  have hrun : ((runChecked (memoryStep plainRules) (coversCall plainRules) oneTenant
      [insertBelieved (1 / 2) (some launchFalsifier), updateConfidenceTo 0 (13 / 20),
        confirm 0]).any fun state =>
        state.db.domain.activeConfidence 0 == some (7000000000000001 / 10000000000000000)) := by
    decide +kernel
  obtain ⟨state, hstate, hconfidence⟩ := (any_eq_true _ _).mp hrun
  exact ⟨state, _, by norm_num, beq_iff_eq.mp hconfidence, guaranteed_of_covered isEmpty_oneTenant
      (reach_of_runChecked (fun _ _ => covered_of_coversCall) hstate)⟩

/-- Without a falsifier the insert stays below the threshold, and the update lifts it. -/
theorem update_lifts_unguarded : ¬ ∀ (rules : MemoryRules) (start state : MemoryState),
    start.IsEmpty → Reach (memoryStep rules) anyStep start state → Guaranteed rules state := by
  have hrun : ((runAll (memoryStep plainRules) oneTenant
      [insertBelieved (13 / 20) none, updateConfidenceTo 0 (9 / 10)]).any fun state =>
        state.db.domain.activeConfidence 0 == some (9 / 10) && (state.db.falsifier 0).isNone) := by
    decide +kernel
  obtain ⟨state, hstate, hlifted⟩ := (any_eq_true _ _).mp hrun
  obtain ⟨hconfidence, hfalsifier⟩ := Bool.and_eq_true_iff.mp hlifted
  intro hguaranteed
  have haccepted := hguaranteed plainRules oneTenant state isEmpty_oneTenant
    (reach_of_run hstate) 0 (9 / 10) (beq_iff_eq.mp hconfidence)
    (by unfold Models.falsifierRequiredAbove; norm_num)
  rw [isNone_iff_eq_none.mp hfalsifier] at haccepted
  cases haccepted

end FyralisCore.Think.Applier
