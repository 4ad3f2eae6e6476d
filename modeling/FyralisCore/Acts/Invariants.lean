import FyralisCore.Acts.Schema
import FyralisCore.Lib.Graph
import FyralisCore.Lib.RecursiveQuery

/-! The invariant checks of the act store (`invariants.py`): the audit of one
commitment or goal, which returns the violations it finds, and the guards and
counts that the write paths use. Every SELECT is a statement of its own. -/
namespace FyralisCore.Acts

open Relational Relation Transaction Table

/-- A row (a, b) of `depends_on`: `a` depends on `b`. -/
def Db.DependsOn (db : Db) (dependentId dependencyId : Nat) : Prop :=
  db.dependsOn.get (dependentId, dependencyId) = some ()

instance (db : Db) (dependentId dependencyId : Nat) :
    Decidable (db.DependsOn dependentId dependencyId) :=
  inferInstanceAs (Decidable (_ = _))

def Db.criticalPathStates (db : Db) (goalId : Nat) : List CommitmentState :=
  db.contributesTo.rows.filterMap fun edge =>
    if edge.1.2 = goalId ∧ edge.2 then
      (db.commitments.get edge.1.1).map CommitmentRow.state
    else none

def Db.incompleteCriticalPath (db : Db) (goalId : Nat) : Nat :=
  (db.criticalPathStates goalId).countP (· ≠ .doneverified)

def Db.dependencyClosure (db : Db) (dependencyId : Nat) : List Nat :=
  reachable db.dependsOn.primaryKeys (follow db.dependsOn.primaryKeys [dependencyId])

def Db.isUnsatisfied (db : Db) (dependencyId : Nat) : Bool :=
  match db.commitments.get dependencyId with
  | none => true
  | some row => row.state ≠ .doneverified

def isUnsatisfiedDependency (dependencyId : Nat) : ActTx Bool :=
  Tx.read fun db => db.isUnsatisfied dependencyId

def Db.unsatisfiedDependencies (db : Db) (commitmentId : Nat) : Nat :=
  db.dependsOn.count fun (dependentId, dependencyId) _ =>
    dependentId = commitmentId &&
      (db.commitments.get dependencyId).any fun row => row.state ≠ .doneverified

def countUnsatisfiedDependencies (commitmentId : Nat) : ActTx Nat :=
  Tx.read fun db => db.unsatisfiedDependencies commitmentId

def Db.revisitedConstrainingDecisions (db : Db) (commitmentId : Nat) : Nat :=
  db.constrainedBy.count fun (constrainedId, decisionId) _ =>
    constrainedId = commitmentId &&
      (db.decisions.get decisionId).any fun row => row.state = .revisited

def countRevisitedConstrainingDecisions (commitmentId : Nat) : ActTx Nat :=
  Tx.read fun db => db.revisitedConstrainingDecisions commitmentId

def Db.contributions (db : Db) (commitmentId : Nat) : Nat :=
  db.contributesTo.count fun (contributorId, _) _ => contributorId = commitmentId

def CommitmentState.isOpen (state : CommitmentState) : Bool :=
  state ∈ [.active, .blocked, .paused, .doneunverified]

def checkC1OwnerRequired (commitmentId : Nat) : ActTx (List ActError) :=
  Tx.read fun db =>
    match db.commitments.get commitmentId with
    | none => []
    | some row =>
      if row.state.isOpen ∧ row.ownerId = none then
        [.invariantViolation .c1
          ("commitment in state " ++ quoted row.state.text ++ " requires owner_id")
          [("commitment_id", toString commitmentId), ("state", row.state.text)]]
      else []

def checkC2BlockedReason (commitmentId : Nat) : ActTx (List ActError) := do
  let row ← Tx.read fun db => db.commitments.get commitmentId
  if row.map CommitmentRow.state ≠ some .blocked then
    return []
  else
    let nDeps ← countUnsatisfiedDependencies commitmentId
    let nRev ← countRevisitedConstrainingDecisions commitmentId
    return if nDeps = 0 ∧ nRev = 0 then
      [.invariantViolation .c2
        "blocked commitment has no unsatisfied dependency or revisited constraining decision"
        [("commitment_id", toString commitmentId)]]
    else []

def checkC3DoneverifiedResolved (commitmentId : Nat) : ActTx (List ActError) :=
  Tx.read fun db =>
    match db.commitments.get commitmentId with
    | none => []
    | some row =>
      if row.state = .doneverified ∧ row.resolvedByEventIds.length = 0 then
        [.invariantViolation .c3 "doneverified commitment requires >=1 resolved_by_event_id"
          [("commitment_id", toString commitmentId)]]
      else []

def checkC6DependsOnAcyclic (dependentId dependencyId : Nat) : ActTx (List ActError) :=
  if dependentId = dependencyId then
    return [.invariantViolation .c6 "self-dependency forbidden"
      [("dependent", toString dependentId), ("dependency", toString dependencyId)]]
  else do
    let cycle ← Tx.read fun db => decide (dependentId ∈ db.dependencyClosure dependencyId)
    return if cycle then
      [.invariantViolation .c6 "depends_on edge would create a cycle"
        [("dependent", toString dependentId), ("dependency", toString dependencyId)]]
    else []

/-- The maintenance flag of a row: the typed column, or the legacy one inside
`estimated_capacity`. -/
def CommitmentRow.countsAsMaintenance (row : CommitmentRow) : Bool :=
  row.isMaintenance || row.estimatedCapacity.any (Json.isTrueAt "maintenance")

def checkC10ContributesOrMaintenance (commitmentId : Nat) : ActTx (List ActError) := do
  let found ← Tx.read fun db => db.commitments.get commitmentId
  match found with
  | none => return []
  | some row =>
    if row.state ∈ [CommitmentState.proposed, .doneverified, .closed] then
      return []
    else if row.countsAsMaintenance then
      return []
    else
      let nEdges ← Tx.read fun db => db.contributions commitmentId
      return if nEdges = 0 then
        [.invariantViolation .c10 "commitment has no contributes_to edges and is not maintenance"
          [("commitment_id", toString commitmentId), ("state", row.state.text)]]
      else []

def worstOfHealth (states : List CommitmentState) : GoalCachedHealth :=
  if states = [] then .healthy
  else if states.any (· = .blocked) then .degraded
  else if states.any (· = .closed) && states.any (· ≠ .doneverified) then .critical
  else .healthy

def computeWorstOfHealth (goalId : Nat) : ActTx GoalCachedHealth :=
  Tx.read fun db => worstOfHealth (db.criticalPathStates goalId)

theorem Db.edgeOf_dependsOn (db : Db) (a b : Nat) :
    EdgeOf db.dependsOn.primaryKeys a b ↔ db.DependsOn a b := by
  unfold EdgeOf Db.DependsOn
  rw [mem_primaryKeys_iff]
  exact ⟨fun ⟨_, hg⟩ => hg, fun hg => ⟨(), hg⟩⟩

theorem Db.mem_dependencyClosure_iff (db : Db) (dependencyId node : Nat) :
    node ∈ db.dependencyClosure dependencyId ↔ TransGen db.DependsOn dependencyId node := by
  unfold Db.dependencyClosure
  have hed : EdgeOf db.dependsOn.primaryKeys = db.DependsOn := by
    funext a b
    exact propext (db.edgeOf_dependsOn a b)
  simp only [mem_reachable_iff, hed, TransGen.head'_iff, mem_follow_iff]
  constructor
  · rintro ⟨start, ⟨source, hs, he⟩, hp⟩
    obtain rfl := List.mem_singleton.mp hs
    exact ⟨start, (db.edgeOf_dependsOn _ _).mp he, hp⟩
  · rintro ⟨start, he, hp⟩
    exact ⟨start, ⟨dependencyId, List.mem_singleton_self _, (db.edgeOf_dependsOn _ _).mpr he⟩, hp⟩

def Db.acceptsDependency (db : Db) (dependentId dependencyId : Nat) : Prop :=
  ¬ ReflTransGen db.DependsOn dependencyId dependentId

section

variable (db : Db)

theorem Db.mem_criticalPathStates_iff (goalId : Nat) (state : CommitmentState) :
    state ∈ db.criticalPathStates goalId ↔ ∃ commitmentId row, db.contributesTo.get (commitmentId,
    goalId) = some true ∧ db.commitments.get commitmentId = some row ∧ row.state = state := by
  unfold Db.criticalPathStates
  simp only [List.mem_filterMap, Prod.exists, mem_rows_iff]
  constructor
  · rintro ⟨commitmentId, goal, critical, he, hst⟩
    split at hst
    · next hc =>
      obtain ⟨rfl, rfl⟩ := hc
      obtain ⟨row, hr, hs⟩ := Option.map_eq_some_iff.mp hst
      exact ⟨commitmentId, row, he, hr, hs⟩
    · cases hst
  · rintro ⟨commitmentId, row, he, hr, rfl⟩
    exact ⟨commitmentId, goalId, true, he, by simp [hr]⟩

theorem Db.incompleteCriticalPath_eq_zero_iff (goalId : Nat) : db.incompleteCriticalPath goalId =
    0 ↔ ∀ commitmentId row, db.contributesTo.get (commitmentId, goalId) = some true →
    db.commitments.get commitmentId = some row → row.state = .doneverified := by
  unfold Db.incompleteCriticalPath
  rw [List.countP_eq_zero]
  simp only [Db.mem_criticalPathStates_iff, decide_eq_true_eq, not_not]
  constructor
  · intro ha commitmentId row he hr
    exact ha row.state ⟨commitmentId, row, he, hr, rfl⟩
  · rintro ha s ⟨commitmentId, row, he, hr, rfl⟩
    exact ha commitmentId row he hr

theorem Db.unsatisfiedDependencies_ne_zero_iff (commitmentId : Nat) :
    db.unsatisfiedDependencies commitmentId ≠ 0 ↔ ∃ dependencyId row,
    db.DependsOn commitmentId dependencyId ∧ db.commitments.get dependencyId = some row ∧
    row.state ≠ .doneverified := by
  unfold Db.unsatisfiedDependencies Db.DependsOn
  rw [Ne, count_eq_zero_iff]
  push Not
  simp [Option.any_eq_true, Unique.exists_iff]

theorem Db.revisitedConstrainingDecisions_ne_zero_iff (commitmentId : Nat) :
    db.revisitedConstrainingDecisions commitmentId ≠ 0 ↔ ∃ decisionId row, db.constrainedBy.get
    (commitmentId, decisionId) = some () ∧ db.decisions.get decisionId = some row ∧ row.state =
    .revisited := by
  unfold Db.revisitedConstrainingDecisions
  rw [Ne, count_eq_zero_iff]
  push Not
  simp [Option.any_eq_true, Unique.exists_iff]

theorem Db.contributions_ne_zero_iff (commitmentId : Nat) : db.contributions commitmentId ≠ 0 ↔
    ∃ goalId, (db.contributesTo.get (commitmentId, goalId)).isSome := by
  unfold Db.contributions
  rw [Ne, count_eq_zero_iff]
  push Not
  simp [Option.isSome_iff_exists]

end

end FyralisCore.Acts
