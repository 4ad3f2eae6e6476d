import FyralisCore.Acts.Calls

/-! What a session sees of one row through its own writes. A write acts on
each row by itself, so the row a session sees is a function of the committed
row and of the writes, and a row that no write touches is the committed one. -/
namespace FyralisCore.Acts

open Relational Transaction ReadCommitted List Write

def Write.onGoal (write : Write) (goalId : Nat) (found : Option GoalRow) : Option GoalRow :=
  match write with
  | .insertGoal id row => if goalId = id then some (found.getD row) else found
  | .setGoalState id state now archive =>
    if goalId = id then found.map fun row => row.withState state now archive else found
  | .setGoalHealth id health now =>
    if goalId = id then found.map fun row => row.withHealth health now else found
  | _ => found

def Write.onCommitment (write : Write) (commitmentId : Nat) (found : Option CommitmentRow) :
    Option CommitmentRow :=
  match write with
  | .insertCommitment id row => if commitmentId = id then some (found.getD row) else found
  | .setCommitmentState id state now resolved basis terminal =>
    if commitmentId = id then
      found.map fun row => row.withState state now resolved basis terminal
    else found
  | _ => found

def Write.onContribution (write : Write) (key : Nat × Nat) (found : Option Bool) : Option Bool :=
  match write with
  | .insertContributesTo commitmentId goalId critical =>
    if key = (commitmentId, goalId) then some (found.getD critical) else found
  | _ => found

theorem get_insertNew_eq_getD [DecidableEq K] (table : Table K V) (key other : K) (row : V) :
    (table.insertNew key row).get other =
      if other = key then some ((table.get other).getD row) else table.get other := by
  rw [Table.get_insertNew]
  by_cases he : other = key
  · subst he
    cases table.get other <;> simp
  · simp [he]

section

variable (db : Db) (w : Write)

theorem apply_goals_get (goalId : Nat) : (db.apply w).goals.get goalId = w.onGoal goalId
    (db.goals.get goalId) := by
  cases w with
  | insertGoal id row => exact get_insertNew_eq_getD _ _ _ _
  | setGoalState id s now archive => exact Table.get_update _ _ _ _
  | setGoalHealth id health now => exact Table.get_update _ _ _ _
  | _ => rfl

theorem apply_commitments_get (commitmentId : Nat) : (db.apply w).commitments.get commitmentId =
    w.onCommitment commitmentId (db.commitments.get commitmentId) := by
  cases w with
  | insertCommitment id row => exact get_insertNew_eq_getD _ _ _ _
  | setCommitmentState id s now resolved basis terminal => exact Table.get_update _ _ _ _
  | _ => rfl

theorem apply_contributesTo_get (key : Nat × Nat) : (db.apply w).contributesTo.get key =
    w.onContribution key (db.contributesTo.get key) := by
  cases w with
  | insertContributesTo commitmentId goalId critical => exact get_insertNew_eq_getD _ _ _ _
  | _ => rfl

end

def goalSeen (writes : List Write) (goalId : Nat) (found : Option GoalRow) : Option GoalRow :=
  writes.foldl (fun row write => write.onGoal goalId row) found

def commitmentSeen (writes : List Write) (commitmentId : Nat) (found : Option CommitmentRow) :
    Option CommitmentRow :=
  writes.foldl (fun row write => write.onCommitment commitmentId row) found

def contributionSeen (writes : List Write) (key : Nat × Nat) (found : Option Bool) : Option Bool :=
  writes.foldl (fun row write => write.onContribution key row) found

section

variable (db : Db) (writes : List Write)

theorem view_goals_get (goalId : Nat) : (actSchema.view db writes).goals.get goalId =
    goalSeen writes goalId (db.goals.get goalId) :=
  (foldl_hom (fun db : Db => db.goals.get goalId) fun db w =>
    (apply_goals_get db w goalId).symm).symm

theorem view_commitments_get (commitmentId : Nat) :
    (actSchema.view db writes).commitments.get commitmentId = commitmentSeen writes commitmentId
    (db.commitments.get commitmentId) :=
  (foldl_hom (fun db : Db => db.commitments.get commitmentId) fun db w =>
    (apply_commitments_get db w commitmentId).symm).symm

theorem view_contributesTo_get (key : Nat × Nat) :
    (actSchema.view db writes).contributesTo.get key = contributionSeen writes key
    (db.contributesTo.get key) :=
  (foldl_hom (fun db : Db => db.contributesTo.get key) fun db w =>
    (apply_contributesTo_get db w key).symm).symm

end

def Write.TouchesGoal (goalId : Nat) : Write → Prop
  | .insertGoal id _ => id = goalId
  | .setGoalState id _ _ _ => id = goalId
  | .setGoalHealth id _ _ => id = goalId
  | _ => False

def Write.TouchesCommitment (commitmentId : Nat) : Write → Prop
  | .insertCommitment id _ => id = commitmentId
  | .setCommitmentState id _ _ _ _ _ => id = commitmentId
  | _ => False

variable {goalId commitmentId : Nat} {writes : List Write} {found : Option GoalRow}

theorem Write.onGoal_eq {w : Write} (hu : ¬ w.TouchesGoal goalId)
    (found : Option GoalRow) : w.onGoal goalId found = found := by
  cases w with
  | insertGoal id row => exact if_neg (Ne.symm hu)
  | setGoalState id s now archive => exact if_neg (Ne.symm hu)
  | setGoalHealth id health now => exact if_neg (Ne.symm hu)
  | _ => rfl

theorem Write.onCommitment_eq {w : Write} (hu : ¬ w.TouchesCommitment commitmentId)
    (found : Option CommitmentRow) : w.onCommitment commitmentId found = found := by
  cases w with
  | insertCommitment id row => exact if_neg (Ne.symm hu)
  | setCommitmentState id s now resolved basis terminal =>
    exact if_neg (Ne.symm hu)
  | _ => rfl

theorem goalSeen_untouched (hu : ∀ w ∈ writes, ¬ w.TouchesGoal goalId)
    (found : Option GoalRow) : goalSeen writes goalId found = found :=
  foldlRecOn (motive := (· = found)) writes _ rfl fun row he w hm =>
    (onGoal_eq (hu w hm) row).trans he

theorem commitmentSeen_untouched (hu : ∀ w ∈ writes, ¬ w.TouchesCommitment commitmentId)
    (found : Option CommitmentRow) : commitmentSeen writes commitmentId found = found :=
  foldlRecOn (motive := (· = found)) writes _ rfl fun row he w hm =>
    (onCommitment_eq (hu w hm) row).trans he

/-! ### Rows stay, and new rows are inserted -/

theorem Write.onGoal_isSome (w : Write) (hf : found.isSome) : (w.onGoal goalId found).isSome := by
  cases w <;> simp only [onGoal] <;> first | exact hf | (split <;> simp [hf])

theorem Write.onCommitment_isSome (w : Write) {found : Option CommitmentRow}
    (hf : found.isSome) : (w.onCommitment commitmentId found).isSome := by
  cases w <;> simp only [onCommitment] <;> first | exact hf | (split <;> simp [hf])

theorem goalSeen_isSome (hf : found.isSome) : (goalSeen writes goalId found).isSome :=
  foldlRecOn (motive := fun row => Option.isSome row) writes _ hf fun _ hs w _ =>
    w.onGoal_isSome hs

theorem commitmentSeen_isSome {found : Option CommitmentRow} (hf : found.isSome) :
    (commitmentSeen writes commitmentId found).isSome :=
  foldlRecOn (motive := fun row => Option.isSome row) writes _ hf fun _ hs w _ =>
    w.onCommitment_isSome hs

theorem isSome_mono {seen : Option R → Option R} (hk : ∀ {row}, row.isSome → (seen row).isSome)
    (hm : base.isSome → more.isSome) (hs : (seen base).isSome) :
    (seen more).isSome := by
  cases more with
  | some row => exact hk rfl
  | none =>
    cases base with
    | some row => cases hm rfl
    | none => exact hs

theorem goalSeen_isSome_mono (hm : found.isSome → more.isSome)
    (hs : (goalSeen writes goalId found).isSome) :
    (goalSeen writes goalId more).isSome :=
  isSome_mono goalSeen_isSome hm hs

theorem commitmentSeen_isSome_mono {found : Option CommitmentRow} (hm : found.isSome → more.isSome)
    (hs : (commitmentSeen writes commitmentId found).isSome) :
    (commitmentSeen writes commitmentId more).isSome :=
  isSome_mono commitmentSeen_isSome hm hs

theorem exists_of_foldl_isSome {act : Option R → Write → Option R}
    (hs : (writes.foldl act none).isSome) : ∃ w ∈ writes, act none w ≠ none := by
  by_contra hn
  push Not at hn
  rw [foldlRecOn (motive := (· = none)) writes act rfl fun row he w hm => he ▸ hn w hm] at hs
  cases hs

theorem goalSeen_inserted (hs : (goalSeen writes goalId none).isSome) :
    ∃ row, Write.insertGoal goalId row ∈ writes := by
  obtain ⟨w, hm, hn⟩ := exists_of_foldl_isSome hs
  cases w <;> simp [onGoal] at hn
  exact ⟨_, hn ▸ hm⟩

theorem commitmentSeen_inserted (hs : (commitmentSeen writes commitmentId none).isSome) :
    ∃ row, Write.insertCommitment commitmentId row ∈ writes := by
  obtain ⟨w, hm, hn⟩ := exists_of_foldl_isSome hs
  cases w <;> simp [onCommitment] at hn
  exact ⟨_, hn ▸ hm⟩

theorem contributionSeen_some (writes : List Write) (key : Nat × Nat) (critical : Bool) :
    contributionSeen writes key (some critical) = some critical :=
  foldl_fixed' (fun w => by cases w <;> simp [onContribution]) writes

theorem contributionSeen_inserted
    (hs : contributionSeen writes (commitmentId, goalId) none = some critical) :
    Write.insertContributesTo commitmentId goalId critical ∈ writes := by
  induction writes with
  | nil => cases hs
  | cons w rest ih =>
    by_cases hi : ∃ flag, w = .insertContributesTo commitmentId goalId flag
    · obtain ⟨flag, rfl⟩ := hi
      have h1 : (Write.insertContributesTo commitmentId goalId flag).onContribution
          (commitmentId, goalId) none = some flag := if_pos rfl
      rw [contributionSeen, foldl_cons, h1] at hs
      cases (contributionSeen_some rest _ flag).symm.trans hs
      exact .head _
    · have hn : w.onContribution (commitmentId, goalId) none = none := by
        cases w <;> simp only [onContribution]
        next id goal flag =>
          refine if_neg fun he => hi ⟨flag, ?_⟩
          obtain ⟨rfl, rfl⟩ := Prod.mk.inj he
          rfl
      rw [contributionSeen, foldl_cons, hn] at hs
      exact .tail _ (ih hs)

end FyralisCore.Acts
