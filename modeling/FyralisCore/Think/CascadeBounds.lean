import FyralisCore.Acts.Statements
import FyralisCore.Lib.Along
import FyralisCore.Think.CascadeOutcome

/-! What a cascade may do whatever the database holds and however the run ends: which
commitments its statements move, and how many events it can follow. -/
namespace FyralisCore.Think

open Relational Transaction Acts List Option Tx Db CascadeState

def IsSideWrite : Write → Prop
  | .insertObservation _ _ => True
  | .setGoalHealth _ _ _ => True
  | _ => False

/-- The statement moves no commitment but this one, which is blocked and whose dependencies
are all done, and that one to `active`. -/
inductive UnblocksOnly (commitmentId : Nat) (db : Db) : List Write → Prop where
  | side {writes : List Write} (hside : ∀ write ∈ writes, IsSideWrite write) :
    UnblocksOnly commitmentId db writes
  | move (now : Nat) (resolved : List Nat) (basis : Option Nat)
    (hblocked : stateOf db commitmentId = some .blocked) (hready : Ready db commitmentId) :
    UnblocksOnly commitmentId db [.setCommitmentState commitmentId .active now resolved basis false]

/-- The statement moves at most one commitment, and that one as `UnblocksOnly` says. -/
def UnblocksReady (db : Db) (writes : List Write) : Prop :=
  ∃ commitmentId, UnblocksOnly commitmentId db writes

theorem UnblocksOnly.nothing (commitmentId : Nat) (db : Db) : UnblocksOnly commitmentId db [] :=
  .side fun _ hm => absurd hm not_mem_nil

theorem unblocksOnly_reads (commitmentId : Nat) :
    AllowsReads fun db _ writes => UnblocksOnly commitmentId db writes where
  plain := .nothing commitmentId
  lockGoal := fun db _ => .nothing commitmentId db
  lockCommitment := fun db _ => .nothing commitmentId db

theorem reads_only : AllowsReads fun _ _ writes => writes = [] where
  plain := fun _ => rfl
  lockGoal := fun _ _ => rfl
  lockCommitment := fun _ _ => rfl

theorem UnblocksOnly.observation (commitmentId : Nat) (db : Db) (id : Nat) (row : ObservationRow) :
    UnblocksOnly commitmentId db [.insertObservation id row] := by
  refine .side fun w hm => ?_
  rw [mem_singleton.mp hm]
  trivial

section Along

variable {db : Db} {supply : Nat} {commitmentId : Nat}

/-- What only writes to the side is allowed wherever a commitment may be moved. -/
abbrev Sides (body : ActTx α) : Prop :=
  ∀ commitmentId, body.EachStatement fun db _ writes => UnblocksOnly commitmentId db writes

theorem actsEmitStateChange_sides (clock : Clock) (tenantId : Nat) (entityKind : EntityKind)
    (entityId : Nat) (fromState : Option String) (toState : String) (cause : Option Nat) :
    Sides (Acts.emitStateChange clock tenantId entityKind entityId fromState toState cause) :=
  fun commitmentId => emitStateChange_eachStatement (unblocksOnly_reads commitmentId)
    (UnblocksOnly.observation commitmentId) _ _ _ _ _ _ _

theorem emitStateChange_sides (clock : Clock) (a : Observations.StateChangeArgs) :
    Sides (Observations.emitStateChange clock a) :=
  fun commitmentId => Tx.EachStatement.bind .newId fun _ =>
    Tx.EachStatement.bind (constrained_eachStatement (unblocksOnly_reads commitmentId)
      fun db => .observation commitmentId db _ _) fun _ => trivial

variable {clock : Clock} {writes : List Write}

section

variable (hb : stateOf db commitmentId = some .blocked)

include hb

theorem along_transition (hr : Ready db commitmentId) :
    (transitionCommitment clock commitmentId .active a).Along apply
    (UnblocksOnly commitmentId) db supply := by
  have hn := UnblocksOnly.nothing commitmentId
  refine along_bind_of_reads (.readLocking fun _ => rfl) hn fun found _ _ => ?_
  refine along_bind_of_reads .orRaise hn fun row _ _ => ?_
  refine along_bind_of_reads .ofExcept hn fun _ _ _ => ?_
  refine along_bind_of_reads (requireActiveOwner_eachStatement reads_only _ _) hn
    fun _ _ _ => ?_
  refine along_bind_of_reads .ensure hn fun _ _ _ => ?_
  refine along_bind_of_reads (.when (requireBlockedReason_eachStatement reads_only _)) hn
    fun _ _ _ => ?_
  refine Tx.Along.bind ?_ fun updated t left _ => ?_
  · refine along_query (fun writes v ha => ?_) fun _ _ => hn db
    split at ha
    · cases ha
      exact .move _ _ _ hb hr
    · cases ha
  · refine Tx.EachStatement.along ?_ t left
    exact .bind (.when (raiseFirst_eachStatement (checkC10_eachStatement
      (unblocksOnly_reads commitmentId) _))) fun _ =>
        .bind (actsEmitStateChange_sides _ _ _ _ _ _ _ commitmentId) fun _ => .orRaise

theorem along_attemptUnblock (hr : Ready db commitmentId) :
    (attemptUnblock clock event tenantId commitmentId).Along apply
    (UnblocksOnly commitmentId) db supply := by
  refine (along_transition hb hr).bind fun _ t left _ => ?_
  refine Tx.EachStatement.along ?_ t left
  exact .bind .newId fun _ => .bind (emitStateChange_sides clock _ commitmentId) fun _ => trivial

theorem along_unblockDependent : (unblockDependent clock event tenantId commitmentId).Along apply
    (UnblocksOnly commitmentId) db supply := by
  have hn := UnblocksOnly.nothing commitmentId
  refine along_bind_of_reads (.read fun _ => rfl) hn fun k _ hrd => ?_
  refine along_bind_of_reads (anyUnsatisfied_eachStatement reads_only _) hn
    fun unsatisfied left ha => ?_
  obtain ⟨rfl, -, -⟩ := returns_read.mp hrd
  have hen := (ends_anyUnsatisfied (E := fun _ _ _ => True) _).holds ha
  cases unsatisfied with
  | true => trivial
  | false =>
    have hry : Ready db commitmentId := fun dependencyId he =>
      hen.2.2.mp rfl dependencyId (mem_dependenciesOf_iff.mpr he)
    refine (along_attemptUnblock hb hry).rescue fun error recovery hr => ?_
    cases error <;> cases hr
    exact fun _ _ => trivial

end

def OthersStay (commitmentId : Nat) (db s : Db) : Prop :=
  ∀ other, other ≠ commitmentId → stateOf s other = stateOf db other

instance (commitmentId : Nat) : IsPreorder Db (OthersStay commitmentId) where
  refl _ _ _ := rfl
  trans _ _ _ hfirst hsecond other hother := (hsecond other hother).trans (hfirst other hother)

structure OnlyUnblocks (db s : Db) : Prop where
  edges : s.dependsOn = db.dependsOn
  states : ∀ commitmentId, stateOf s commitmentId = stateOf db commitmentId ∨
    (stateOf db commitmentId = some .blocked ∧ stateOf s commitmentId = some .active ∧
      Ready db commitmentId)

theorem isUnsatisfied_eq_false_iff_stateOf :
    db.isUnsatisfied commitmentId = false ↔ stateOf db commitmentId = some .doneverified := by
  rw [isUnsatisfied_eq_false_iff, stateOf, map_eq_some_iff]

theorem OnlyUnblocks.done_iff (hm : OnlyUnblocks db s) (commitmentId : Nat) :
    stateOf s commitmentId = some .doneverified ↔ stateOf db commitmentId = some .doneverified := by
  rcases hm.states commitmentId with hs | ⟨hb, ha, -⟩
  · rw [hs]
  · simp [hb, ha]

theorem OnlyUnblocks.ready_iff (hm : OnlyUnblocks db s) (commitmentId : Nat) :
    Ready s commitmentId ↔ Ready db commitmentId := by
  simp [Ready, Db.DependsOn, hm.edges, isUnsatisfied_eq_false_iff_stateOf, hm.done_iff]

instance : IsPreorder Db OnlyUnblocks where
  refl _ := ⟨rfl, fun _ => Or.inl rfl⟩
  trans db s t hfirst hsecond := by
    refine ⟨hsecond.edges.trans hfirst.edges, fun commitmentId => ?_⟩
    rcases hsecond.states commitmentId with hsame | ⟨hblocked, hactive, hready⟩
    · rw [hsame]
      exact hfirst.states commitmentId
    · rcases hfirst.states commitmentId with hsame | ⟨-, hmoved, -⟩
      · exact Or.inr ⟨hsame ▸ hblocked, hactive, (hfirst.ready_iff commitmentId).mp hready⟩
      · rw [hmoved] at hblocked
        cases hblocked

theorem foldl_side (hs : ∀ w ∈ writes, IsSideWrite w)
    (db : Db) : (writes.foldl apply db).commitments = db.commitments ∧
      (writes.foldl apply db).dependsOn = db.dependsOn := by
  induction writes generalizing db with
  | nil => exact ⟨rfl, rfl⟩
  | cons w rest ih =>
    obtain ⟨h1, ht⟩ := forall_mem_cons.mp hs
    obtain ⟨hc, hd⟩ := ih ht (db.apply w)
    rw [foldl_cons, hc, hd]
    cases w <;> first | exact ⟨rfl, rfl⟩ | exact h1.elim

theorem stateOf_move (other : Nat) :
    stateOf (db.apply (.setCommitmentState commitmentId .active now resolved basis false)) other =
      if other = commitmentId then (stateOf db other).map fun _ => .active
      else stateOf db other := by
  unfold stateOf
  rw [apply_commitments_get, Write.onCommitment]
  split
  · rw [Option.map_map, Option.map_map]
    rfl
  · rfl

theorem UnblocksOnly.othersStay (h : UnblocksOnly commitmentId db writes) :
    OthersStay commitmentId db (writes.foldl apply db) := by
  intro other ho
  cases h with
  | side hs => rw [stateOf, (foldl_side hs db).1, stateOf]
  | move now resolved basis hb hr =>
    rw [foldl_cons, foldl_nil, stateOf_move, if_neg ho]

theorem UnblocksOnly.onlyUnblocks (h : UnblocksOnly commitmentId db writes) :
    OnlyUnblocks db (writes.foldl apply db) := by
  cases h with
  | side hs =>
    obtain ⟨hc, hd⟩ := foldl_side hs db
    exact ⟨hd, fun other => .inl (by rw [stateOf, hc, stateOf])⟩
  | move now resolved basis hb hr =>
    refine ⟨rfl, fun other => ?_⟩
    rw [foldl_cons, foldl_nil, stateOf_move]
    by_cases ho : other = commitmentId
    · subst ho
      simp [hb, hr]
    · simp [ho]

end Along

section Branches

variable {arrUsd : Json → Option Amount} {clock : Clock} {event : CascadeEvent} {tenantId : Nat}

theorem Sides.along (hs : Sides body) (db : Db) (supply : Nat) :
    body.Along apply UnblocksReady db supply :=
  ((hs 0).along db supply).mono fun _ _ ha => ⟨0, ha⟩

theorem recomputeGoal_sides (goal : Nat × GoalCachedHealth) :
    Sides (recomputeGoal clock event tenantId goal) := by
  intro commitmentId
  have hr := unblocksOnly_reads commitmentId
  have hs : ∀ health, (setGoalHealth clock goal.1 health).EachStatement
      fun db _ writes => UnblocksOnly commitmentId db writes := by
    refine fun health => .query (fun db writes v ha => ?_)
      fun db _ _ => .nothing commitmentId db
    cases ha
    refine .side fun w hm => ?_
    rw [mem_singleton.mp hm]
    trivial
  refine .bind (.bind (.read hr.plain) fun health => .bind (hs health) fun _ => trivial)
    fun newHealth => ?_
  split
  · trivial
  · exact .bind (emitStateChange_sides clock _ commitmentId) fun _ => .bind .newId fun _ => trivial

theorem recomputeGoals_sides : Sides (recomputeGoals clock event tenantId) :=
  fun commitmentId => .bind (.read (unblocksOnly_reads commitmentId).plain) fun _ =>
    .bind (.mapEach fun goal => recomputeGoal_sides goal commitmentId) fun _ => trivial

theorem revenueAtRisk_sides (customerId : Nat) :
    Sides (revenueAtRiskForCustomer arrUsd customerId) := by
  intro commitmentId
  have hp := (unblocksOnly_reads commitmentId).plain
  refine .bind (.read hp) fun found => ?_
  cases found with
  | none => trivial
  | some resource =>
    dsimp only
    split
    · trivial
    · split
      · trivial
      · split
        · trivial
        · exact .bind (.read hp) fun _ => trivial

theorem recomputeCustomers_sides (newState : Scalar) :
    Sides (recomputeCustomers arrUsd clock event tenantId newState) := by
  intro commitmentId
  refine .bind (.read (unblocksOnly_reads commitmentId).plain) fun _ =>
    .bind (.mapEach fun customerId => ?_) fun _ => trivial
  exact .bind (revenueAtRisk_sides customerId commitmentId) fun _ =>
    .bind (emitStateChange_sides clock _ commitmentId) fun _ => .bind .newId fun _ => trivial

theorem flagForReview_sides (metadata : List (String × Scalar)) (flagged : Nat) :
    Sides (flagForReview clock event tenantId metadata flagged) :=
  fun commitmentId => .bind (emitStateChange_sides clock _ commitmentId) fun _ =>
    .bind .newId fun _ => trivial

theorem branchDecisionRevisited_sides : Sides (branchDecisionRevisited clock event tenantId) :=
  fun commitmentId => .bind (.read (unblocksOnly_reads commitmentId).plain) fun _ =>
    .bind (.mapEach fun flagged => flagForReview_sides _ flagged commitmentId) fun _ => trivial

theorem branchResourceTerminal_sides : Sides (branchResourceTerminal clock event tenantId) :=
  fun commitmentId => .bind (.read (unblocksOnly_reads commitmentId).plain) fun _ =>
    .bind (.mapEach fun flagged => flagForReview_sides _ flagged commitmentId) fun _ => trivial

theorem along_unblockDependents (db : Db) (supply : Nat) :
    (unblockDependents clock event tenantId).Along apply UnblocksReady db supply := by
  refine along_bind_of_reads (.read fun _ => rfl) (fun db => ⟨0, .nothing 0 db⟩)
    fun dependents _ hrd => ?_
  obtain ⟨rfl, -, -⟩ := returns_read.mp hrd
  refine (along_mapEach (fun rest s => rest.Nodup ∧ ∀ id ∈ rest, stateOf s id = some .blocked)
    ⟨nodup_blockedDependents _ _ _, fun id hm => ?_⟩ ?_).bind fun _ _ _ _ => trivial
  · obtain ⟨-, row, hr, hb, -⟩ := mem_blockedDependents_iff.mp hm
    rw [stateOf, hr, ← hb]
    rfl
  · rintro dependentId rest s left ⟨hn, hb⟩
    obtain ⟨hf, ht⟩ := nodup_cons.mp hn
    have ha : (unblockDependent clock event tenantId dependentId).Along apply
        (UnblocksOnly dependentId) s left := along_unblockDependent (hb dependentId (.head _))
    refine ⟨ha.mono fun _ _ hal => ⟨dependentId, hal⟩, ?_⟩
    intro part after k hrt
    have hs : OthersStay dependentId s after := by
      have hrl := ha.relates fun _ _ hal => hal.othersStay
      rwa [hrt] at hrl
    refine ⟨ht, fun id hm => ?_⟩
    have ho : id ≠ dependentId := by
      rintro rfl
      exact hf hm
    rw [hs id ho]
    exact hb id (.tail _ hm)

variable {db : Db}

theorem along_downstreamWhen (hb : branch.Along apply UnblocksReady db supply) :
    (downstreamWhen condition branch).Along apply UnblocksReady db supply := by
  cases condition with
  | false => trivial
  | true => exact hb

theorem along_computeDownstream (db : Db) (supply : Nat) :
    (computeDownstream arrUsd clock event tenantId).Along apply UnblocksReady db supply := by
  unfold computeDownstream
  split
  · refine (along_downstreamWhen (along_unblockDependents db supply)).bind fun _ s left _ => ?_
    refine (recomputeGoals_sides.along s left).bind fun _ s left _ => ?_
    refine Tx.Along.bind (along_downstreamWhen ?_) fun _ _ _ _ => trivial
    exact (recomputeCustomers_sides _).along s left
  · exact branchDecisionRevisited_sides.along db supply
  · exact branchResourceTerminal_sides.along db supply
  · trivial

theorem along_cascadeLoop (state : CascadeState) (db : Db) (supply : Nat) :
    (cascadeLoop arrUsd clock trigger maxDepth tenantId fuel state).Along apply UnblocksReady
      db supply := by
  induction fuel generalizing state db supply with
  | zero => trivial
  | succ fuel ih =>
    rw [cascadeLoop]
    split
    · trivial
    · split
      · refine Tx.Along.bind ?_ fun _ _ _ _ => trivial
        exact (emitStateChange_sides clock _).along db supply
      · exact (along_computeDownstream db supply).bind fun _ s left _ => ih _ s left

def movesCommitment (commitmentId : Nat) : Write → Bool
  | .setCommitmentState id _ _ _ _ _ => id = commitmentId
  | _ => false

/-- How often the commitment can still be moved: a commitment that is not blocked is not. -/
def movable (commitmentId : Nat) (db : Db) : Nat :=
  if stateOf db commitmentId = some .blocked then 1 else 0

theorem movable_le_one (commitmentId : Nat) (db : Db) : movable commitmentId db ≤ 1 := by
  unfold movable
  split <;> omega

theorem UnblocksReady.onlyUnblocks (h : UnblocksReady db writes) :
    OnlyUnblocks db (writes.foldl apply db) := by
  obtain ⟨commitmentId, ho⟩ := h
  exact ho.onlyUnblocks

theorem UnblocksReady.pays (h : UnblocksReady db writes) (commitmentId : Nat) :
    writes.countP (movesCommitment commitmentId) +
        movable commitmentId (writes.foldl apply db) ≤ movable commitmentId db := by
  unfold movable
  obtain ⟨id, ho⟩ := h
  cases ho with
  | side hsd =>
    have hn : writes.countP (movesCommitment commitmentId) = 0 := by
      rw [countP_eq_zero]
      intro w hm
      have hw := hsd w hm
      cases w <;> first | exact Bool.false_ne_true | exact hw.elim
    rw [hn, stateOf, (foldl_side hsd db).1, ← stateOf]
    exact Nat.le_of_eq (Nat.zero_add _)
  | move now resolved basis hb hr =>
    rw [foldl_cons, foldl_nil, stateOf_move]
    by_cases hs : id = commitmentId
    · subst hs
      simp [movesCommitment, hb]
    · simp [movesCommitment, hs, Ne.symm hs]

end Branches

def IsLeaf (event : CascadeEvent) : Prop :=
  IsIdle event ∨ event.kind = .commitmentFlaggedForReview

theorem IsLeaf.kind_ne (hl : IsLeaf event) : event.kind ≠ .commitmentStateChange := by
  rcases hl with (hk | hk) | hk <;> rw [hk] <;> exact nofun

def Emits (P : CascadeEvent → Prop) (branch : ActTx Downstream) : Prop :=
  Tx.EachValue apply (fun part => ∀ follow ∈ part.events, P follow) branch

section

variable {P : CascadeEvent → Prop} {arrUsd : Json → Option Amount} {clock : Clock}
  {event : CascadeEvent} {tenantId : Nat}

theorem emits_nothing (violations : List InvariantViolationEvent) :
    Emits P (return { violations }) :=
  .done fun _ hm => absurd hm not_mem_nil

theorem emits_one {follow : CascadeEvent} (hf : P follow) :
    Emits P (return { events := [follow] }) := by
  refine .done fun other hm => ?_
  rwa [mem_singleton.mp hm]

theorem Emits.mono (hb : Emits P branch) (hi : ∀ follow, P follow → Q follow) : Emits Q branch :=
  Tx.EachValue.mono hb fun _ ha follow hm => hi follow (ha follow hm)

theorem forall_concat (hp : ∀ part ∈ parts, ∀ follow ∈ part.events, P follow) :
    ∀ follow ∈ (Downstream.concat parts).events, P follow := by
  intro follow hm
  obtain ⟨part, hpr, hf⟩ := mem_flatMap.mp hm
  exact hp part hpr follow hf

theorem emits_loop (hb : ∀ item, Emits P (body item)) : Emits P (do
      let items ← Tx.read answer
      let parts ← Tx.mapEach items body
      return .concat parts) :=
  .bind fun _ => (Tx.EachValue.mapEach hb).seq fun _ hp => .done (forall_concat hp)

theorem emits_downstreamWhen
    (hb : condition = true → Emits P branch) : Emits P (downstreamWhen condition branch) := by
  cases condition with
  | false => exact emits_nothing []
  | true => exact hb rfl

theorem emits_unblockDependents : Emits IsUnblocked (unblockDependents clock event tenantId) := by
  refine emits_loop fun dependentId => .bind fun _ => .bind fun unsatisfied => ?_
  cases unsatisfied with
  | true => exact emits_nothing []
  | false =>
    refine .rescue (.bind fun _ => .bind fun _ => .bind fun _ => emits_one ⟨rfl, rfl⟩) ?_
    intro error recovery hr
    cases error <;> cases hr
    exact emits_nothing _

theorem emits_recomputeGoals : Emits IsLeaf (recomputeGoals clock event tenantId) := by
  refine emits_loop fun goal => .bind fun newHealth => ?_
  split
  · exact emits_nothing []
  · exact .bind fun _ => .bind fun _ => emits_one (.inl (.inl rfl))

theorem emits_recomputeCustomers (newState : Scalar) :
    Emits IsLeaf (recomputeCustomers arrUsd clock event tenantId newState) :=
  emits_loop fun _ => .bind fun _ => .bind fun _ => .bind fun _ => emits_one (.inl (.inr rfl))

theorem emits_flagForReview (metadata : List (String × Scalar)) (commitmentId : Nat) :
    Emits IsLeaf (flagForReview clock event tenantId metadata commitmentId) :=
  .bind fun _ => .bind fun _ => emits_one (.inr rfl)

theorem emits_branchCommitmentState
    (hu : event.newState = .text "doneverified" → ∀ follow, IsUnblocked follow → P follow)
    (hl : ∀ follow, IsLeaf follow → P follow) :
    Emits P (branchCommitmentState arrUsd clock event tenantId) := by
  refine Tx.EachValue.seq (emits_downstreamWhen (P := P) fun hd =>
    emits_unblockDependents.mono (hu (of_decide_eq_true hd))) fun unblocked hun => ?_
  refine Tx.EachValue.seq (emits_recomputeGoals.mono hl) fun goals hg => ?_
  refine Tx.EachValue.seq (emits_downstreamWhen (P := P) fun _ =>
    (emits_recomputeCustomers _).mono hl) fun customers hc => .done ?_
  refine forall_concat fun part hm => ?_
  simp only [mem_cons, not_mem_nil, or_false] at hm
  rcases hm with rfl | rfl | rfl
  · exact hun
  · exact hg
  · exact hc

theorem emits_computeDownstream : Emits (fun follow => IsUnblocked follow ∨ IsLeaf follow)
      (computeDownstream arrUsd clock event tenantId) := by
  unfold computeDownstream
  split
  · exact emits_branchCommitmentState (fun _ _ => Or.inl) fun _ => Or.inr
  · exact (emits_loop fun _ => emits_flagForReview _ _).mono fun _ => Or.inr
  · exact (emits_loop fun _ => emits_flagForReview _ _).mono fun _ => Or.inr
  · exact emits_nothing []

theorem emits_unblocked (hu : IsUnblocked event) :
    Emits IsLeaf (computeDownstream arrUsd clock event tenantId) := by
  rw [computeDownstream, hu.1]
  refine emits_branchCommitmentState (fun hd => ?_) fun _ hl => hl
  rw [hu.2] at hd
  exact absurd hd (by decide)

theorem emits_leaf (hl : IsLeaf event) :
    Emits (fun _ => False) (computeDownstream arrUsd clock event tenantId) := by
  rw [computeDownstream]
  rcases hl with (hk | hk) | hk
  all_goals
    rw [hk]
    exact emits_nothing []

end

/-- Beyond the trigger the queue holds unblocked dependents, one step from it, and events
that nothing follows from, two steps from it at most. -/
structure Shallow (state : CascadeState) : Prop where
  queue : ∀ entry ∈ state.queue,
    (IsUnblocked entry.1 ∧ entry.2 = 1) ∨ (IsLeaf entry.1 ∧ entry.2 ≤ 2)
  depthReached : state.depthReached ≤ 2

theorem foldl_follow_queue (events : List CascadeEvent) (state : CascadeState) (depth : Nat) :
    ∃ queued : List CascadeEvent, (∀ follow ∈ queued, follow ∈ events) ∧
      (events.foldl (fun current event => current.follow depth event) state).queue =
        state.queue ++ queued.map (fun event => (event, depth + 1)) ∧
      (events.foldl (fun current event => current.follow depth event) state).depthReached =
        state.depthReached := by
  induction events generalizing state with
  | nil => exact ⟨[], by simp, by simp, rfl⟩
  | cons event rest ih =>
    obtain ⟨queued, hqd, hq, hd⟩ := ih (state.follow depth event)
    rw [foldl_cons, hq, hd, CascadeState.follow]
    split
    · exact ⟨queued, fun follow hm => .tail _ (hqd follow hm), rfl, rfl⟩
    · refine ⟨event :: queued, fun follow hm => ?_, by simp, rfl⟩
      rcases mem_cons.mp hm with rfl | ht
      · exact .head _
      · exact .tail _ (hqd follow ht)

section

variable {state : CascadeState} {event : CascadeEvent} {depth : Nat}
  {rest : List (CascadeEvent × Nat)} {part : Downstream}

theorem advance_queue (state : CascadeState) (rest : List (CascadeEvent × Nat)) (depth : Nat)
    (part : Downstream) : ∃ queued : List CascadeEvent, (∀ follow ∈ queued, follow ∈ part.events) ∧
      (state.advance rest depth part).queue = rest ++ queued.map (fun event => (event, depth + 1)) ∧
      (state.advance rest depth part).depthReached = max state.depthReached depth :=
  foldl_follow_queue part.events _ depth

theorem shallow_of_trigger (hp : ∀ follow ∈ part.events, IsUnblocked follow ∨ IsLeaf follow)
    (hd : state.depthReached = 0) : Shallow (state.advance [] 0 part) := by
  obtain ⟨queued, hqd, hq, hr⟩ := advance_queue state [] 0 part
  refine ⟨fun e hm => ?_, by omega⟩
  rw [hq, nil_append] at hm
  obtain ⟨follow, hf, rfl⟩ := mem_map.mp hm
  rcases hp follow (hqd follow hf) with hu | hl
  · exact .inl ⟨hu, rfl⟩
  · exact .inr ⟨hl, Nat.le_succ 1⟩

/-- What the entry of an unblocked dependent leads to, and what any other does. -/
structure EntryEmits (event : CascadeEvent) (part : Downstream) : Prop where
  unblocked : IsUnblocked event → ∀ follow ∈ part.events, IsLeaf follow
  leaf : IsLeaf event → part.events = []

theorem entryEmits :
    Tx.EachValue apply (EntryEmits event) (computeDownstream arrUsd clock event tenantId) := by
  intro db supply part s left hr
  refine ⟨fun hu => emits_unblocked hu _ _ _ _ _ hr, fun hl => ?_⟩
  exact eq_nil_iff_forall_not_mem.mpr (emits_leaf hl _ _ _ _ _ hr)

theorem Shallow.next (hs : Shallow state) (hq : state.queue = (event, depth) :: rest)
    (hp : EntryEmits event part) : Shallow (state.advance rest depth part) := by
  obtain ⟨queued, hqd, ha, hrc⟩ := advance_queue state rest depth part
  have he := hs.queue
  rw [hq, forall_mem_cons] at he
  have hr := hs.depthReached
  refine ⟨fun e hm => ?_, ?_⟩
  · rw [ha] at hm
    rcases mem_append.mp hm with ho | hn
    · exact he.2 e ho
    · obtain ⟨follow, hf, rfl⟩ := mem_map.mp hn
      have hi := hqd follow hf
      rcases he.1 with ⟨hu, hon⟩ | ⟨hl, -⟩
      · exact .inr ⟨hp.unblocked hu follow hi, by dsimp only at *; omega⟩
      · rw [hp.leaf hl] at hi
        exact absurd hi not_mem_nil
  · rcases he.1 with ⟨-, hon⟩ | ⟨-, ht⟩ <;> dsimp only at * <;> omega

def waiting (queue : List (CascadeEvent × Nat)) : Nat :=
  queue.countP fun entry => entry.1.kind = .commitmentStateChange

theorem waiting_leaves {events : List CascadeEvent} (hl : ∀ event ∈ events, IsLeaf event)
    (depth : Nat) : waiting (events.map fun event => (event, depth)) = 0 := by
  rw [waiting, countP_eq_zero]
  intro e hm
  obtain ⟨event, he, rfl⟩ := mem_map.mp hm
  simpa using (hl event he).kind_ne

theorem Shallow.shrinks (hs : Shallow state)
    (hq : state.queue = (event, depth) :: rest) (hp : EntryEmits event part) :
    waiting (state.advance rest depth part).queue < waiting state.queue ∨
      (waiting (state.advance rest depth part).queue = waiting state.queue ∧
        (state.advance rest depth part).queue.length < state.queue.length) := by
  obtain ⟨queued, hqd, ha, -⟩ := advance_queue state rest depth part
  have h1 := hs.queue (event, depth) (by rw [hq]; exact .head _)
  rcases h1 with ⟨hu, -⟩ | ⟨hl, -⟩
  · left
    have hn : waiting (queued.map fun event => (event, depth + 1)) = 0 :=
      waiting_leaves (fun follow hm => hp.unblocked hu follow (hqd follow hm)) _
    have hk : event.kind = .commitmentStateChange := hu.1
    unfold waiting at hn ⊢
    rw [ha, hq, countP_append, hn, countP_cons_of_pos (by simpa using hk)]
    omega
  · right
    have he : queued = [] := by
      rw [eq_nil_iff_forall_not_mem]
      intro follow hm
      have hi := hqd follow hm
      rw [hp.leaf hl] at hi
      exact not_mem_nil hi
    have hsk : event.kind ≠ .commitmentStateChange := hl.kind_ne
    rw [ha, he, hq]
    simp [waiting, hsk]

end

section

variable (arrUsd : Json → Option Amount) (clock : Clock) (trigger : CascadeEvent)
  (maxDepth tenantId : Nat)

/-- Some number of turns of the loop is enough, and more change nothing. -/
def LoopEnds (state : CascadeState) (db : Db) (supply : Nat) : Prop :=
  ∃ enough outcome, outcome.result ≠ .ok none ∧ ∀ fuel, enough ≤ fuel →
    (cascadeLoop arrUsd clock trigger maxDepth tenantId fuel state).exec apply db supply = outcome

variable {arrUsd clock trigger maxDepth tenantId} {state : CascadeState} {event : CascadeEvent}
  {depth : Nat} {rest : List (CascadeEvent × Nat)} {db : Db} {supply : Nat}

theorem loopEnds_of_last
    (ht : ∀ fuel, cascadeLoop arrUsd clock trigger maxDepth tenantId (fuel + 1) state =
      cascadeLoop arrUsd clock trigger maxDepth tenantId 1 state)
    (hs : Tx.EachValue apply (fun found => found ≠ none)
      (cascadeLoop arrUsd clock trigger maxDepth tenantId 1 state)) :
    LoopEnds arrUsd clock trigger maxDepth tenantId state db supply := by
  refine ⟨1, (cascadeLoop arrUsd clock trigger maxDepth tenantId 1 state).exec apply db supply,
    fun hn => ?_, fun fuel hf => ?_⟩
  · exact hs _ _ _ _ _ (returns_of_result hn) rfl
  · obtain ⟨fuel, rfl⟩ := Nat.exists_eq_add_of_le' hf
    rw [ht]

theorem loopEnds_of_next (hq : state.queue = (event, depth) :: rest) (hn : ∀ part s left,
      Tx.Returns apply (computeDownstream arrUsd clock event tenantId) db supply part s left →
        LoopEnds arrUsd clock trigger maxDepth tenantId (state.advance rest depth part) s left) :
    LoopEnds arrUsd clock trigger maxDepth tenantId state db supply := by
  by_cases hb : depth ≥ maxDepth
  · refine loopEnds_of_last (fun fuel => ?_) ?_
    · simp [cascadeLoop, hq, if_pos hb]
    · simp only [cascadeLoop, hq, if_pos hb]
      exact .bind fun _ => .done (some_ne_none _)
  · have ht : ∀ fuel, cascadeLoop arrUsd clock trigger maxDepth tenantId (fuel + 1) state =
        (computeDownstream arrUsd clock event tenantId).bind fun part =>
          cascadeLoop arrUsd clock trigger maxDepth tenantId fuel
            (state.advance rest depth part) := by
      intro fuel
      rw [cascadeLoop, hq]
      exact if_neg hb
    rcases hx : (computeDownstream arrUsd clock event tenantId).exec apply db supply with
      ⟨error | part, s, left⟩
    · refine ⟨1, ⟨.error error, s, left⟩, by simp, fun fuel hf => ?_⟩
      obtain ⟨fuel, rfl⟩ := Nat.exists_eq_add_of_le' hf
      rw [ht, exec_bind, hx]
    · obtain ⟨enough, outcome, hs, he⟩ := hn part s left hx
      refine ⟨enough + 1, outcome, hs, fun fuel hf => ?_⟩
      obtain ⟨fuel, rfl⟩ := Nat.exists_eq_add_of_le' (Nat.le_trans (Nat.le_add_left 1 _) hf)
      rw [ht, exec_bind, hx]
      exact he fuel (Nat.le_of_succ_le_succ hf)

theorem loopEnds_of_shallow (hsh : Shallow state) (db : Db) (supply : Nat) :
    LoopEnds arrUsd clock trigger maxDepth tenantId state db supply := by
  suffices he : ∀ dependents entries state db supply, Shallow state →
      waiting state.queue = dependents → state.queue.length = entries →
      LoopEnds arrUsd clock trigger maxDepth tenantId state db supply from
    he _ _ state db supply hsh rfl rfl
  intro dependents
  induction dependents using Nat.strong_induction_on with
  | _ dependents ihDependents =>
    intro entries
    induction entries using Nat.strong_induction_on with
    | _ entries ihEntries =>
      intro state db supply hsh hd hen
      cases hq : state.queue with
      | nil =>
        refine loopEnds_of_last (fun fuel => ?_) ?_
        · simp [cascadeLoop, hq]
        · simp only [cascadeLoop, hq]
          exact .done (some_ne_none _)
      | cons e rest =>
        refine loopEnds_of_next hq fun part s left hr => ?_
        have hp := entryEmits _ _ _ _ _ hr
        have ha := hsh.next hq hp
        rcases hsh.shrinks hq hp with hf | ⟨hs, hshr⟩
        · exact ihDependents _ (hd ▸ hf) _ _ s left ha rfl rfl
        · exact ihEntries _ (hen ▸ hshr) _ s left ha (hs.trans hd) rfl

theorem shallow_result (hd : 3 ≤ maxDepth) (hs : Shallow state) :
    Tx.EachValue apply (fun found => ∀ r, found = some r →
        r.boundViolated = false ∧ r.depthReached ≤ 2)
      (cascadeLoop arrUsd clock trigger maxDepth tenantId fuel state) := by
  induction fuel generalizing state with
  | zero => exact .done nofun
  | succ fuel ih =>
    rw [cascadeLoop]
    cases hq : state.queue with
    | nil =>
      refine .done fun r hr => ?_
      cases hr
      exact ⟨rfl, hs.depthReached⟩
    | cons e rest =>
      obtain ⟨event, depth⟩ := e
      have he := hs.queue (event, depth) (by rw [hq]; exact .head _)
      have hb : ¬ depth ≥ maxDepth := by
        rcases he with ⟨-, ho⟩ | ⟨-, ht⟩ <;> dsimp only at * <;> omega
      dsimp only
      rw [if_neg hb]
      exact entryEmits.seq fun part hp => ih (hs.next hq hp)

end

section

variable {arrUsd : Json → Option Amount} {clock : Clock} {event : CascadeEvent}
  {tenantId supply : Nat} {db : Db}

def SameTenants (db s : Db) : Prop :=
  s.tenants = db.tenants

variable {E : ActError → Db → Nat → Prop}

theorem ends_flagForReview (ht : tenantId ∈ db.tenants) :
    Tx.Ends apply (flagForReview clock event tenantId metadata commitmentId) db supply
      (fun _ s _ => SameTenants db s) E := by
  refine (ends_emitStateChange ht).seq ?_
  rintro obsId s left ⟨-, -, observations, rfl⟩
  exact rfl

theorem ends_flagLoop (ht : tenantId ∈ db.tenants) : Tx.Ends apply (do
        let commitments ← Tx.read answer
        let parts ← Tx.mapEach commitments (flagForReview clock event tenantId metadata)
        return Downstream.concat parts) db supply (fun _ s _ => SameTenants db s) E := by
  rw [Tx.bind_eq_bind, Tx.ends_bind, Tx.ends_read]
  refine Tx.Ends.seq (Tx.ends_mapEach (fun _ _ s _ => SameTenants db s) rfl ?_) fun _ _ _ hs => hs
  intro before commitmentId after parts s left _ hs
  refine (ends_flagForReview (by rwa [hs])).returned fun _ t _ hn => ?_
  exact Eq.trans hn hs

theorem ends_downstreamWhen
    (hb : Tx.Ends apply branch db supply (fun _ s _ => SameTenants db s) E) :
    Tx.Ends apply (downstreamWhen condition branch) db supply
      (fun _ s _ => SameTenants db s) E := by
  cases condition with
  | false => exact rfl
  | true => exact hb

theorem ends_computeDownstream (hr : ReferencesHold db) (ht : tenantId ∈ db.tenants) :
    Tx.Ends apply (computeDownstream arrUsd clock event tenantId) db supply
      (fun _ s _ => SameTenants db s) (fun _ _ _ => False) := by
  unfold computeDownstream
  split
  · refine (ends_downstreamWhen ((ends_unblockDependents hr ht).returned ?_)).seq ?_
    · rintro part s left ⟨parts, -, hp⟩
      obtain ⟨_, _, hf⟩ := hp.frame
      rw [hf]
      exact rfl
    intro unblocked s left hs
    refine ((ends_recomputeGoals (by rwa [hs])).returned fun part t left hg =>
      hg.1.tenants.trans hs).seq ?_
    intro goals t left hs
    refine (ends_downstreamWhen ((ends_recomputeCustomers (by rwa [hs])).returned ?_)).seq ?_
    · rintro part u left ⟨⟨observations, rfl⟩, -⟩
      exact rfl
    · intro customers u left hl
      exact Eq.trans hl hs
  · exact ends_flagLoop ht
  · exact ends_flagLoop ht
  · exact rfl

theorem ends_entryBranch (ht : tenantId ∈ db.tenants) (he : IsUnblocked event ∨ IsLeaf event) :
    Tx.Ends apply (computeDownstream arrUsd clock event tenantId) db supply
      (fun _ s _ => SameTenants db s) (fun _ _ _ => False) := by
  rcases he with hu | hl
  · exact (ends_branch_unblocked hu ht).returned fun _ _ _ hb =>
      hb.1.tenants
  · unfold computeDownstream
    rcases hl with (hk | hk) | hk
    all_goals
      rw [hk]
      exact rfl

variable {trigger : CascadeEvent} {maxDepth fuel : Nat} {state : CascadeState}

def LoopReturns (arrUsd : Json → Option Amount) (clock : Clock) (trigger : CascadeEvent)
    (maxDepth tenantId fuel : Nat) (state : CascadeState) (db : Db) (supply : Nat) : Prop :=
  Tx.Ends apply (cascadeLoop arrUsd clock trigger maxDepth tenantId fuel state) db supply
    (fun _ _ _ => True) (fun _ _ _ => False)

theorem loopReturns_turn (hq : state.queue = (event, depth) :: rest) (ht : tenantId ∈ db.tenants)
    (hb : Tx.Ends apply (computeDownstream arrUsd clock event tenantId) db supply
      (fun _ s _ => SameTenants db s) (fun _ _ _ => False))
    (hv : Tx.EachValue apply ok (computeDownstream arrUsd clock event tenantId))
    (hr : ∀ part s left, tenantId ∈ s.tenants → ok part →
      LoopReturns arrUsd clock trigger maxDepth tenantId fuel (state.advance rest depth part) s
        left) : LoopReturns arrUsd clock trigger maxDepth tenantId (fuel + 1) state db supply := by
  unfold LoopReturns
  simp only [cascadeLoop, hq]
  split
  · exact (ends_emitStateChange ht).seq fun _ _ _ _ => trivial
  · refine (hb.value hv).seq ?_
    rintro part s left ⟨hs, ho⟩
    exact hr part s left (by rwa [hs]) ho

theorem loopReturns_of_shallow (hsh : Shallow state) (ht : tenantId ∈ db.tenants) :
    LoopReturns arrUsd clock trigger maxDepth tenantId fuel state db supply := by
  induction fuel generalizing state db supply with
  | zero => exact trivial
  | succ fuel ih =>
    cases hq : state.queue with
    | nil =>
      unfold LoopReturns
      simp only [cascadeLoop, hq]
      exact trivial
    | cons e rest =>
      obtain ⟨event, depth⟩ := e
      have he := hsh.queue (event, depth) (by rw [hq]; exact .head _)
      exact loopReturns_turn hq ht (ends_entryBranch ht (he.imp And.left And.left)) entryEmits
        fun part s left hs hp => ih (hsh.next hq hp) hs

end

section

variable (arrUsd : Json → Option Amount) (clock : Clock) (trigger : CascadeEvent)
  (maxDepth : Nat) (tenantId : Option Nat) (db : Db) (supply : Nat)

def CascadeState.begin (trigger : CascadeEvent) : CascadeState where
  queue := [(trigger, 0)]
  visited := [trigger.id]
  steps := [trigger]

structure CascadeBounded : Prop where
  /-- Some number of turns of the loop is enough, and more change nothing. -/
  terminates : ∃ enough outcome, outcome.result ≠ .ok none ∧ ∀ fuel, enough ≤ fuel →
    (cascade arrUsd clock trigger maxDepth tenantId fuel).exec apply db supply = outcome
  /-- The run updates the state of each commitment once at most. -/
  once : ∀ fuel commitmentId,
    ((cascade arrUsd clock trigger maxDepth tenantId fuel).written apply db supply).countP
      (movesCommitment commitmentId) ≤ 1
  shallow : 3 ≤ maxDepth → ∀ fuel result,
    ((cascade arrUsd clock trigger maxDepth tenantId fuel).exec apply db supply).result =
      .ok (some result) → result.boundViolated = false ∧ result.depthReached ≤ 2
  /-- Where the foreign keys of the rows and of the tenant hold, nothing is raised. -/
  returns : ReferencesHold db → tenantId.getD trigger.tenantId ∈ db.tenants → ∀ fuel,
    ((cascade arrUsd clock trigger maxDepth tenantId fuel).exec apply db supply).result.isOk

variable {arrUsd clock trigger maxDepth tenantId db supply}

theorem cascade_shallow (hd : 3 ≤ maxDepth) : Tx.EachValue apply (fun found => ∀ r, found = some r →
        r.boundViolated = false ∧ r.depthReached ≤ 2)
      (cascade arrUsd clock trigger maxDepth tenantId fuel) := by
  cases fuel with
  | zero => exact .done nofun
  | succ fuel =>
    rw [cascade, cascadeLoop]
    dsimp only
    rw [if_neg (by omega)]
    exact Tx.EachValue.seq emits_computeDownstream fun part hp =>
      shallow_result hd (shallow_of_trigger hp rfl)

theorem cascade_returns (hr : ReferencesHold db) (ht : tenant ∈ db.tenants) :
    LoopReturns arrUsd clock trigger maxDepth tenant fuel (begin trigger) db
      supply := by
  cases fuel with
  | zero => exact trivial
  | succ fuel =>
    refine loopReturns_turn rfl ht (ends_computeDownstream hr ht)
      emits_computeDownstream fun part s left hs hp => ?_
    exact loopReturns_of_shallow (shallow_of_trigger hp rfl) hs

variable (arrUsd clock trigger maxDepth tenantId db supply)

theorem along_cascade (fuel : Nat) :
    (cascade arrUsd clock trigger maxDepth tenantId fuel).Along apply UnblocksReady db supply :=
  along_cascadeLoop (begin trigger) db supply

theorem cascade_bounded : CascadeBounded arrUsd clock trigger maxDepth tenantId db supply where
  terminates := by
    have hqueue : (begin trigger).queue = [(trigger, 0)] := rfl
    refine loopEnds_of_next hqueue fun part s left hreturns => ?_
    have hpart := emits_computeDownstream _ _ _ _ _ hreturns
    exact loopEnds_of_shallow (shallow_of_trigger hpart rfl) s left
  once := by
    intro fuel commitmentId
    have halong := along_cascade arrUsd clock trigger maxDepth tenantId db supply fuel
    have hpaid := halong.countP_written_le fun _ _ hallows => hallows.pays commitmentId
    exact Nat.le_trans hpaid (movable_le_one commitmentId db)
  shallow := by
    intro hdepth fuel result hresult
    refine cascade_shallow hdepth _ _ _ _ _ (returns_of_result hresult) result rfl
  returns := by
    intro hrefs htenant fuel
    have hends : LoopReturns arrUsd clock trigger maxDepth (tenantId.getD trigger.tenantId) fuel
        (begin trigger) db supply := cascade_returns hrefs htenant
    obtain ⟨found, after, left, hreturns, -⟩ := hends.returns
    exact congrArg (fun outcome => outcome.result.isOk) hreturns

/-- Every statement of a cascade that moves a commitment moves a blocked one to `active`,
whose dependencies are all `doneverified` then; at the end they still are. The decisions that
constrain the commitment are not asked. -/
theorem cascade_unblocks_ready (fuel : Nat) :
    (cascade arrUsd clock trigger maxDepth tenantId fuel).Along apply UnblocksReady db supply ∧
      ∀ commitmentId, stateOf db commitmentId = some .blocked →
        stateOf ((cascade arrUsd clock trigger maxDepth tenantId fuel).exec apply db
          supply).state commitmentId = some .active →
        ∀ dependencyId, db.DependsOn commitmentId dependencyId →
          stateOf db dependencyId = some .doneverified ∧
            stateOf ((cascade arrUsd clock trigger maxDepth tenantId fuel).exec apply db
              supply).state dependencyId = some .doneverified := by
  have halong := along_cascade arrUsd clock trigger maxDepth tenantId db supply fuel
  refine ⟨halong, fun commitmentId hblocked hactive dependencyId hedge => ?_⟩
  obtain hmoved : OnlyUnblocks db _ := halong.relates fun _ _ hallows => hallows.onlyUnblocks
  rw [hmoved.done_iff, and_self, ← isUnsatisfied_eq_false_iff_stateOf]
  rcases hmoved.states commitmentId with hsame | ⟨-, -, hready⟩
  · rw [hsame, hblocked] at hactive
    cases hactive
  · exact hready dependencyId hedge

end

def constrainedDb : Db :=
  { waitingDb with
    decisions := Table.put ∅ 6 { tenantId := 1, state := .revisited }
    constrainedBy := Table.put ∅ (3, 6) () }

theorem cascade_unblocks_constrained : ∃ result after left,
      Tx.Returns apply (cascade (fun _ => none) ⟨20, 20⟩ migrated defaultMaxDepth none 9)
        constrainedDb 10 (some result) after left ∧
      stateOf constrainedDb 3 = some .blocked ∧ stateOf after 3 = some .active ∧
      constrainedDb.revisitedConstrainingDecisions 3 = 1 ∧
      after.revisitedConstrainingDecisions 3 = 1 := by
  refine ⟨_, _, _, rfl, ?_, ?_, ?_, ?_⟩
  · rfl
  · rfl
  · decide
  · decide

end FyralisCore.Think
