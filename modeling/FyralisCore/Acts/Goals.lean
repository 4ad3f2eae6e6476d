import FyralisCore.Acts.Invariants

/-! Goals (`goals.py`): creation, transitions and the cached health. -/
namespace FyralisCore.Acts

open Relational Transaction CommitmentState

def isSpaceChar (char : Char) : Bool :=
  let code := char.toNat
  (0x09 ≤ code && code ≤ 0x0d) || (0x1c ≤ code && code ≤ 0x20) || code == 0x85 ||
    code == 0xa0 || code == 0x1680 || (0x2000 ≤ code && code ≤ 0x200a) || code == 0x2028 ||
    code == 0x2029 || code == 0x202f || code == 0x205f || code == 0x3000

def isBlank (title : String) : Bool :=
  title.toList.all isSpaceChar

def stripped (text : String) : List Char :=
  ((text.toList.dropWhile isSpaceChar).reverse.dropWhile isSpaceChar).reverse

def strip (text : String) : String := String.ofList (stripped text)

def quotedOrNone : Option String → String
  | none => "None"
  | some text => quoted text

def insertObservation (id : Nat) (row : ObservationRow) : ActTx Unit :=
  Tx.query (fun _ => none) fun db =>
    constrained [(decide (row.tenantId ∈ db.tenants), .foreignKey "observations" "tenant_id")]
      [.insertObservation id row]

def emitStateChange (clock : Clock) (tenantId : Nat) (entityKind : EntityKind)
    (entityId : Nat) (fromState : Option String) (toState : String)
    (causeEventId : Option Nat) : ActTx Nat := do
  let obsId ← Tx.newId
  insertObservation obsId
    { tenantId
      occurredAt := clock.processNow
      ingestedAt := clock.processNow
      content := .stateChange { entityKind, entityId, fromState, toState }
      contentText := entityKind.text ++ " " ++ toString entityId ++ " state changed " ++
        quotedOrNone fromState ++ " -> " ++ quoted toState
      causeId := causeEventId
      entitiesMentioned := [(entityKind, entityId)] }
  return obsId

structure GoalCreate where
  title : String
  description : Option String := none
  parentGoalId : Option Nat := none
  altitude : GoalAltitude := .operational
  successCriteria : Option Json := none
  targetDate : Option Nat := none
  createdByEventId : Nat
  tenantId : Nat

def parentGoalError (parentGoalId tenantId : Nat) : Option GoalRow → Option ActError
  | none =>
    some (.validationError "parent_goal_id does not exist"
      [("parent_goal_id", toString parentGoalId)])
  | some parent =>
    if parent.tenantId ≠ tenantId then
      some (.validationError "parent_goal_id belongs to a different tenant"
        [("parent_goal_id", toString parentGoalId)])
    else if parent.state ≠ .active then
      some (.validationError "parent goal must be in 'active' state"
        [("parent_goal_id", toString parentGoalId), ("parent_state", parent.state.text)])
    else none

def validateParentGoal (args : GoalCreate) : ActTx Unit :=
  match args.parentGoalId with
  | none => return ()
  | some parentGoalId =>
    Tx.require fun db =>
      parentGoalError parentGoalId args.tenantId (db.goals.get parentGoalId)

def GoalCreate.row (args : GoalCreate) (clock : Clock) : GoalRow where
  tenantId := args.tenantId
  title := args.title
  description := args.description
  state := .active
  targetDate := args.targetDate
  parentGoalId := args.parentGoalId
  altitude := args.altitude
  successCriteria := args.successCriteria
  cachedHealth := .healthy
  cachedHealthComputedAt := some clock.transactionNow
  createdAt := clock.transactionNow
  lastStateChangeAt := clock.transactionNow
  createdByEventId := args.createdByEventId

def insertGoal (id : Nat) (row : GoalRow) : ActTx Unit :=
  Tx.query (fun _ => none) fun db =>
    constrained [((db.goals.get id).isNone, .unique "goals"),
        (decide (row.tenantId ∈ db.tenants), .foreignKey "goals" "tenant_id"),
        (referenceHolds (fun parent => (db.goals.get parent).isSome) row.parentGoalId,
          .foreignKey "goals" "parent_goal_id")]
      [.insertGoal id row]

def createGoal (clock : Clock) (args : GoalCreate) : ActTx Nat := do
  Tx.ensure (!isBlank args.title) (.validationError "goal title is required" [("field", "title")])
  validateParentGoal args
  let goalId ← Tx.newId
  insertGoal goalId (args.row clock)
  let _ ← emitStateChange clock args.tenantId .goal goalId none GoalState.active.text
    (some args.createdByEventId)
  return goalId

def setGoalHealth (clock : Clock) (goalId : Nat) (health : GoalCachedHealth) : ActTx Unit :=
  Tx.query (Db.lockGoal goalId) fun _ =>
    .ok ([.setGoalHealth goalId health clock.transactionNow], ())

def recomputeCachedHealth (clock : Clock) (goalId : Nat) : ActTx GoalCachedHealth := do
  let newHealth ← computeWorstOfHealth goalId
  setGoalHealth clock goalId newHealth
  return newHealth

def fetchGoalForUpdate (goalId : Nat) : ActTx (Option GoalRow) :=
  Tx.readLocking (Db.lockGoal goalId) fun db => db.goals.get goalId

def goalMoveError (goalId : Nat) (currentState newState : GoalState) : ActError :=
  .invariantViolation .gState (goalMachine.canTransition currentState newState).2
    [("goal_id", toString goalId), ("from_state", currentState.text), ("to_state", newState.text)]

def requireCriticalPathDone (goalId : Nat) : ActTx Unit :=
  Tx.require fun db =>
    let bad := db.incompleteCriticalPath goalId
    if bad > 0 then
      some (.invariantViolation .g4 "achieved requires all critical-path commitments doneverified"
        [("goal_id", toString goalId), ("incomplete_count", toString bad)])
    else none

def updateGoalState (clock : Clock) (goalId : Nat) (newState : GoalState) :
    ActTx (Option GoalRow) :=
  Tx.query (Db.lockGoal goalId) fun db =>
    let write := Write.setGoalState goalId newState clock.transactionNow
      (newState ∈ [GoalState.achieved, .abandoned])
    .ok ([write], (db.apply write).goals.get goalId)

def transitionGoal (clock : Clock) (goalId : Nat) (newState : GoalState)
    (causeEventId : Option Nat) : ActTx GoalRow := do
  let found ← fetchGoalForUpdate goalId
  let row ← Tx.orRaise found (.validationError "goal not found" [("goal_id", toString goalId)])
  Tx.ensure (goalMachine.canTransition row.state newState).1
    (goalMoveError goalId row.state newState)
  Tx.when (newState = .achieved) (requireCriticalPathDone goalId)
  let updated ← updateGoalState clock goalId newState
  let _ ← emitStateChange clock row.tenantId .goal goalId (some row.state.text) newState.text
    causeEventId
  Tx.orRaise updated (.typeError "'NoneType' object is not iterable")

def GoalCachedHealth.rank : GoalCachedHealth → Nat
  | .healthy => 0
  | .warning => 1
  | .degraded => 2
  | .critical => 3

instance : LinearOrder GoalCachedHealth :=
  LinearOrder.lift' GoalCachedHealth.rank (by
    intro first second hsame
    cases first <;> cases second <;> first | rfl | cases hsame)

/-- A blocked commitment on one side, and on the other a closed one among none that
are blocked: the scan for `blocked` returns before the one for `closed`. -/
def Masks (blocked closed : List CommitmentState) : Prop :=
  .blocked ∈ blocked ∧ .closed ∈ closed ∧ .blocked ∉ closed

instance (blocked closed : List CommitmentState) : Decidable (Masks blocked closed) :=
  inferInstanceAs (Decidable (_ ∧ _ ∧ _))

/-- The sibling condition always holds: a closed commitment is itself not doneverified. -/
theorem worstOfHealth_eq (states : List CommitmentState) : worstOfHealth states =
      if .blocked ∈ states then .degraded else if .closed ∈ states then .critical else .healthy := by
  unfold worstOfHealth
  cases states with
  | nil => rfl
  | cons first rest => grind

theorem worstOfHealth_congr (hm : ∀ s, s ∈ xs ↔ s ∈ ys) : worstOfHealth xs = worstOfHealth ys := by
  simp [worstOfHealth_eq, hm]

theorem worstOfHealth_append_iff (xs ys : List CommitmentState) :
    worstOfHealth (xs ++ ys) = max (worstOfHealth xs) (worstOfHealth ys) ↔
      ¬ Masks xs ys ∧ ¬ Masks ys xs := by
  simp only [worstOfHealth_eq, Masks, List.mem_append]
  by_cases hx : blocked ∈ xs <;> by_cases hy : blocked ∈ ys <;>
    by_cases hx' : closed ∈ xs <;> by_cases hy' : closed ∈ ys <;>
      simp only [hx, hy, hx', hy', if_true, if_false, or_true, true_or, or_self, not_true, true_and,
        false_and, and_false, and_self] <;> decide

theorem worstOfHealth_le_cons_iff (s : CommitmentState) (states : List CommitmentState) :
    worstOfHealth states ≤ worstOfHealth (s :: states) ↔ ¬ Masks [s] states := by
  simp only [worstOfHealth_eq, Masks, List.mem_cons, List.not_mem_nil, or_false]
  by_cases hb : blocked ∈ states <;> by_cases hc : closed ∈ states <;>
      simp only [hb, hc, or_true, or_false] <;> cases s <;> decide

def Db.recomputedHealth (clock : Clock) (supply goalId : Nat) (db : Db) : Option GoalCachedHealth :=
  (((recomputeCachedHealth clock goalId).exec Db.apply db supply).state.goals.get goalId).map
    GoalRow.cachedHealth

theorem Db.recomputedHealth_eq {goal : GoalRow} {goalId : Nat} {db : Db} (clock : Clock)
    (n : Nat) (hg : db.goals.get goalId = some goal) :
    db.recomputedHealth clock n goalId = some (worstOfHealth (db.criticalPathStates goalId)) := by
  simp [recomputedHealth, recomputeCachedHealth, computeWorstOfHealth, setGoalHealth, Tx.exec_bind,
    Tx.exec_query, Tx.read, Db.apply, Table.get_update, hg, GoalRow.withHealth]

theorem Db.mem_criticalPathStates_insert {db : Db} (hr : db.commitments.get commitmentId = some row)
    (hfr : db.contributesTo.get (commitmentId, goalId) = none) (s : CommitmentState) :
    s ∈ (db.apply (.insertContributesTo commitmentId goalId true)).criticalPathStates goalId ↔
      s ∈ row.state :: db.criticalPathStates goalId := by
  simp only [Db.mem_criticalPathStates_iff, Db.apply, Table.get_insertNew, hfr, and_true,
    Prod.mk.injEq, List.mem_cons]
  constructor
  · rintro ⟨other, found, he, hf, rfl⟩
    split at he
    · next hs =>
      cases hs
      cases hr.symm.trans hf
      exact .inl rfl
    · exact .inr ⟨other, found, he, hf, rfl⟩
  · rintro (rfl | ⟨other, found, he, hf, rfl⟩)
    · exact ⟨commitmentId, row, by simp, hr, rfl⟩
    · refine ⟨other, found, ?_, hf, rfl⟩
      rw [if_neg, he]
      rintro rfl
      rw [hfr] at he
      cases he

/-- The health of two multisets of states together is the worse of theirs, and a new
critical-path commitment does not improve the cached health, exactly when no blocked
commitment stands beside closed ones. -/
theorem worst_of_iff (xs ys : List CommitmentState) : (∀ zs : List CommitmentState,
      zs.Perm (xs ++ ys) → (worstOfHealth zs = max (worstOfHealth xs) (worstOfHealth ys) ↔
        ¬ Masks xs ys ∧ ¬ Masks ys xs)) ∧
    ∀ (clock : Clock) (supply goalId commitmentId : Nat) (db : Db) (goal : GoalRow)
      (row : CommitmentRow), db.goals.get goalId = some goal →
      db.commitments.get commitmentId = some row →
      db.contributesTo.get (commitmentId, goalId) = none →
      ∃ before after, db.recomputedHealth clock supply goalId = some before ∧
        (db.apply (.insertContributesTo commitmentId goalId true)).recomputedHealth clock supply
          goalId = some after ∧
        (before ≤ after ↔ ¬ Masks [row.state] (db.criticalPathStates goalId)) := by
  constructor
  · intro zs hperm
    rw [worstOfHealth_congr fun state => hperm.mem_iff]
    exact worstOfHealth_append_iff xs ys
  · intro clock supply goalId commitmentId db goal row hgoal hrow hfree
    refine ⟨_, _, db.recomputedHealth_eq clock supply hgoal,
      @Db.recomputedHealth_eq goal goalId _ clock supply hgoal, ?_⟩
    rw [worstOfHealth_congr (Db.mem_criticalPathStates_insert hrow hfree)]
    exact worstOfHealth_le_cons_iff _ _

def criticalWork (state : CommitmentState) : CommitmentRow :=
  { tenantId := 1, title := "Ship", state, createdAt := 0, lastStateChangeAt := 0
    createdByEventId := 9 }

/-- A goal with one active commitment on its critical path, and a blocked one beside it. -/
def oneCriticalPath : Db where
  goals := Table.put ∅ 3
    { tenantId := 1, title := "Launch", createdAt := 0, lastStateChangeAt := 0
      createdByEventId := 9 }
  commitments := (Table.put ∅ 1 (criticalWork .active)).put 2 (criticalWork .blocked)
  contributesTo := Table.put ∅ (1, 3) true

theorem worst_of_iff_closed : worstOfHealth [.doneverified, .closed, .active] =
      max (worstOfHealth [.closed, .active]) (worstOfHealth [.doneverified]) ∧
    ∃ before after, oneCriticalPath.recomputedHealth ⟨5, 5⟩ 10 3 = some before ∧
      (oneCriticalPath.apply (.insertContributesTo 2 3 true)).recomputedHealth ⟨5, 5⟩ 10 3 =
        some after ∧ before ≤ after := by
  obtain ⟨hmultisets, hgoals⟩ := worst_of_iff [.closed, .active] [.doneverified]
  obtain ⟨before, after, hbefore, hafter, hle⟩ := hgoals ⟨5, 5⟩ 10 3 2 oneCriticalPath _ _ rfl rfl rfl
  exact ⟨(hmultisets _ (by decide)).mpr (by decide), before, after, hbefore, hafter,
    hle.mpr (by decide +kernel)⟩

/-- A closed commitment makes its goal critical; a blocked one beside it improves that. -/
theorem blocked_hides_closed :
    worstOfHealth [.closed, .blocked] ≠ max (worstOfHealth [.closed]) (worstOfHealth [.blocked]) ∧
      worstOfHealth [.blocked, .closed] < worstOfHealth [.closed] := by
  decide

end FyralisCore.Acts
