import FyralisCore.Acts.Statements
import FyralisCore.Lib.Embedding

/-! Deactivation of an actor (`services/domain/actors/repo.py`) beside the
transactions of the act store, on the same tables. -/
namespace FyralisCore.Actors

open Relational Transaction ReadCommitted Acts

inductive ActorWrite where
  | act (write : Write)
  | deactivate (actorId : Nat) (reason : String) (now : Nat)

inductive ActorLock where
  | act (row : RowRef)
  | actor (id : Nat)
  deriving DecidableEq

structure Blocker where
  id : Nat
  state : CommitmentState
  title : String
  deriving DecidableEq, Repr

inductive ActorError where
  | act (error : ActError)
  | validationError (message : String) (context : List (String × String))
  | invariantViolation (invariant message : String) (actorId : String)
    (activeCommitments : List Blocker)
  | assertionError
  deriving DecidableEq

/-- The columns `last_seen_at` and `metadata`, which the write also sets, are
not among those kept of an actor. -/
def applyActor (db : Db) : ActorWrite → Db
  | .act write => db.apply write
  | .deactivate actorId _ _ =>
    { db with actors := db.actors.update actorId fun row => { row with status := some .inactive } }

abbrev ActorTx (α : Type) : Type := Tx Db ActorWrite ActorLock ActorError α

def lockActor (actorId : Nat) (db : Db) : Option ActorLock :=
  (db.actors.get actorId).map fun _ => .actor actorId

def CommitmentState.blocks (state : CommitmentState) : Bool :=
  state ∉ [CommitmentState.proposed, .doneverified, .closed]

def blockersOf (db : Db) (actorId : Nat) : List Blocker :=
  let owned := db.commitments.rows.filter fun row =>
    row.2.ownerId = some actorId ∧ CommitmentState.blocks row.2.state
  ((owned.mergeSort fun first second => first.1 ≤ second.1).take 5).map fun row =>
    ⟨row.1, row.2.state, row.2.title⟩

def deactivate (now actorId : Nat) (reason : String) : ActorTx ActorRow := do
  Tx.ensure (!isBlank reason)
    (.validationError "deactivation reason must be non-empty" [("field", "reason")])
  let existing ← Tx.readLocking (lockActor actorId) fun db => db.actors.get actorId
  let _ ← Tx.orRaise existing (.validationError ("actor " ++ toString actorId ++ " not found")
      [("actor_id", toString actorId)])
  let blockers ← Tx.read fun db => blockersOf db actorId
  Tx.ensure blockers.isEmpty (.invariantViolation "actor_deactivation_no_active_commitments"
      ("cannot deactivate actor " ++ toString actorId ++ ": " ++ toString blockers.length ++
        " active commitment(s) still owned")
      (toString actorId) blockers)
  let row ← Tx.query (lockActor actorId) fun db =>
    let write := ActorWrite.deactivate actorId reason now
    .ok ([write], (applyActor db write).actors.get actorId)
  Tx.orRaise row .assertionError

inductive ActorCall where
  | acts (calls : List ActCall)
  | deactivate (now actorId : Nat) (reason : String)

def ActorCall.run : ActorCall → ActorTx Unit
  | .acts calls => (actSchema.program calls).rename .act .act .act
  | .deactivate now actorId reason =>
    (Actors.deactivate now actorId reason).bind fun _ => .done ()

def actorSchema : ReadCommitted.Schema Db ActorWrite ActorLock ActorError ActorCall where
  apply := applyActor
  program := ActorCall.run

def actsEmbedding : Embedding actSchema actorSchema where
  write := .act
  row := .act
  error := .act
  apply_write _ _ := rfl
  row_injective := fun _ _ hsame => ActorLock.act.inj hsame

def ActorWrite.refersTo : ActorWrite → List ActorLock
  | .act (.insertCommitment _ row) => row.ownerId.toList.map .actor
  | .act (.insertContributor commitmentId actorId _) =>
    [.act (.commitment commitmentId), .actor actorId]
  | .act (.insertContributesTo commitmentId goalId _) =>
    [.act (.commitment commitmentId), .act (.goal goalId)]
  | .act (.insertDependsOn dependentId dependencyId) =>
    [.act (.commitment dependentId), .act (.commitment dependencyId)]
  | .act (.insertConstrainedBy commitmentId _) => [.act (.commitment commitmentId)]
  | .act (.insertGoal _ row) => row.parentGoalId.toList.map fun goalId => .act (.goal goalId)
  | _ => []

def actorStep : Config Db ActorWrite ActorLock ActorError → Action ActorCall →
    Option (Config Db ActorWrite ActorLock ActorError) :=
  Config.stepSharing actorSchema ActorWrite.refersTo

/-! Work in flight and the actors who own it. What a session leaves standing
until it ends: commitments only move forward and keep their owner, an inactive
actor stays inactive, and whoever owns the work a session opens was not
inactive when the session began. -/

open Table

def IsInactive (db : Db) (actorId : Nat) : Prop :=
  (db.actors.get actorId).bind ActorRow.status = some .inactive

def InFlight (db : Db) (commitmentId actorId : Nat) : Prop :=
  ∃ row, db.commitments.get commitmentId = some row ∧ row.ownerId = some actorId ∧
    row.state.isOpen

def OwnersStand (db : Db) : Prop :=
  ∀ commitmentId actorId, InFlight db commitmentId actorId → ¬ IsInactive db actorId

@[simp] theorem blocks_eq_isOpen (state : CommitmentState) :
    CommitmentState.blocks state = state.isOpen := by
  cases state <;> decide

theorem blockersOf_eq_nil_iff (db : Db) (actorId : Nat) :
    blockersOf db actorId = [] ↔ ∀ commitmentId, ¬ InFlight db commitmentId actorId := by
  have hl : blockersOf db actorId = [] ↔ db.commitments.rows.filter (fun row =>
      row.2.ownerId = some actorId ∧ CommitmentState.blocks row.2.state) = [] := by
    rw [← List.length_eq_zero_iff, ← List.length_eq_zero_iff, blockersOf, List.length_map,
      List.length_take, List.length_mergeSort]
    omega
  simp [hl, mem_rows_iff, blocks_eq_isOpen, InFlight]

/-- A later state of a commitment: its owner is the same, it is not proposed
again, and it has not left an end. -/
structure RowAdvances (row later : CommitmentRow) : Prop where
  owner : later.ownerId = row.ownerId
  started : row.state ≠ .proposed → later.state ≠ .proposed
  ended : row.state ∈ commitmentMachine.terminal → later.state = row.state

theorem RowAdvances.refl (row : CommitmentRow) : RowAdvances row row :=
  ⟨rfl, id, fun _ => rfl⟩

theorem RowAdvances.trans (h1 : RowAdvances row u)
    (h2 : RowAdvances u last) : RowAdvances row last where
  owner := h2.owner.trans h1.owner
  started := fun hr => h2.started (h1.started hr)
  ended := fun hr => (h2.ended (by rwa [h1.ended hr])).trans (h1.ended hr)

variable {state : CommitmentState}

theorem isOpen_of_started (hs : state ≠ .proposed)
    (ho : state ∉ commitmentMachine.terminal) : state.isOpen := by
  cases state <;> simp_all [commitmentMachine, CommitmentState.isOpen]

theorem not_isOpen_of_ended (he : state ∈ commitmentMachine.terminal) : state.isOpen = false := by
  cases state <;> simp_all [commitmentMachine, CommitmentState.isOpen]

theorem proposed_notMem_transitions
    (hm : moved ∈ commitmentMachine.transitions state) : moved ≠ .proposed := by
  rintro rfl
  cases state <;> simp [commitmentMachine] at hm

theorem not_proposed_of_isOpen (ho : state.isOpen) : state ≠ .proposed := by
  rintro rfl
  cases ho

theorem RowAdvances.between (h1 : RowAdvances row m) (h2 : RowAdvances m u) (hr : row.state.isOpen)
    (hl : u.state.isOpen) : m.state.isOpen := by
  apply isOpen_of_started (h1.started (not_proposed_of_isOpen hr))
  intro he
  rw [h2.ended he, not_isOpen_of_ended he] at hl
  cases hl

structure Advances (db later : Db) : Prop where
  present : ∀ actorId, (db.actors.get actorId).isSome →
    (later.actors.get actorId).isSome
  inactive : ∀ actorId, IsInactive db actorId → IsInactive later actorId
  rows : ∀ commitmentId row, db.commitments.get commitmentId = some row →
    ∃ moved, later.commitments.get commitmentId = some moved ∧ RowAdvances row moved

theorem Advances.refl (db : Db) : Advances db db :=
  ⟨fun _ => id, fun _ => id, fun _ row hg => ⟨row, hg, .refl row⟩⟩

theorem Advances.trans (h1 : Advances db u) (h2 : Advances u last) : Advances db last where
  present := fun actorId ha => h2.present actorId (h1.present actorId ha)
  inactive := fun actorId ha => h2.inactive actorId (h1.inactive actorId ha)
  rows := by
    intro commitmentId row hg
    obtain ⟨m, hm, he⟩ := h1.rows commitmentId row hg
    obtain ⟨moved, hmv, hl⟩ := h2.rows commitmentId m hm
    exact ⟨moved, hmv, he.trans hl⟩

theorem Advances.inFlight_between (h1 : Advances db m) (h2 : Advances m u)
    (hb : InFlight db commitmentId actorId) (ha : InFlight u commitmentId actorId) :
    InFlight m commitmentId actorId := by
  obtain ⟨row, hr, how, ho⟩ := hb
  obtain ⟨moved, hm, he⟩ := h1.rows commitmentId row hr
  obtain ⟨last, hl, hlt⟩ := h2.rows commitmentId moved hm
  obtain ⟨found, hf, -, hs⟩ := ha
  rw [hl] at hf
  cases hf
  exact ⟨moved, hm, he.owner.trans how, he.between hlt ho hs⟩

def ActorWrite.touches : ActorWrite → Option Nat
  | .act (.insertCommitment id _) => some id
  | .act (.setCommitmentState id _ _ _ _ _) => some id
  | _ => none

def ActorWrite.opens : ActorWrite → Option Nat
  | .act (.insertCommitment id row) => if row.state.isOpen then some id else none
  | .act (.setCommitmentState id state _ _ _ _) => if state.isOpen then some id else none
  | _ => none

theorem touches_of_opens {write : ActorWrite} {id : Nat} (ho : write.opens = some id) :
    write.touches = some id := by
  unfold ActorWrite.opens at ho
  split at ho
  · exact (Option.ite_none_right_eq_some.mp ho).2
  · exact (Option.ite_none_right_eq_some.mp ho).2
  · cases ho

section

variable (db : Db) (write : ActorWrite)

theorem commitments_applyActor (hq : write.touches = none) :
    (applyActor db write).commitments = db.commitments := by
  cases write with
  | deactivate actorId reason now => rfl
  | act write => cases write <;> first | rfl | cases hq

variable {id : Nat}

theorem get_applyActor_of_ne (ho : write.touches ≠ some id) :
    (applyActor db write).commitments.get id = db.commitments.get id := by
  cases write with
  | deactivate actorId reason now => rfl
  | act write =>
    cases write with
    | insertCommitment other row =>
      have hn : id ≠ other := fun hs => ho (congrArg some hs.symm)
      simp [applyActor, Db.apply, get_insertNew, hn]
    | setCommitmentState other state now resolved basis terminal =>
      have hn : id ≠ other := fun hs => ho (congrArg some hs.symm)
      simp [applyActor, Db.apply, get_update, hn]
    | _ => rfl

theorem get_applyActor_congr (hs : first.commitments.get id = second.commitments.get id) :
    (applyActor first write).commitments.get id = (applyActor second write).commitments.get id := by
  by_cases hi : write.touches = some id
  · cases write with
    | deactivate actorId reason now => cases hi
    | act write =>
      cases write with
      | insertCommitment other row =>
        cases hi
        simp [applyActor, Db.apply, get_insertNew, hs]
      | setCommitmentState other state now resolved basis terminal =>
        cases hi
        simp [applyActor, Db.apply, get_update, hs]
      | _ => cases hi
  · rw [get_applyActor_of_ne first write hi, get_applyActor_of_ne second write hi, hs]

theorem actors_act (write : Write) : (applyActor db (.act write)).actors = db.actors := by
  cases write <;> rfl

theorem isInactive_applyActor_iff (actorId : Nat) :
    IsInactive (applyActor db write) actorId ↔ IsInactive db actorId ∨
      (db.actors.get actorId).isSome ∧ ∃ reason now, write = .deactivate actorId reason now := by
  cases write with
  | act write => simp [IsInactive, actors_act]
  | deactivate other reason now =>
    simp only [IsInactive, applyActor, get_update]
    by_cases hs : actorId = other
    · subst hs
      cases hr : db.actors.get actorId <;> simp
    · have ho : ¬ other = actorId := fun h => hs h.symm
      simp [hs, ho]

theorem isSome_actors_applyActor (actorId : Nat) :
    ((applyActor db write).actors.get actorId).isSome = (db.actors.get actorId).isSome := by
  cases write with
  | act write => rw [actors_act]
  | deactivate other reason now =>
    simp only [applyActor, get_update]
    split <;> simp

theorem opens_or_inFlight (hf : InFlight (applyActor db write) id actorId) :
    write.opens = some id ∨ InFlight db id actorId := by
  by_cases hi : write.touches = some id
  · obtain ⟨row, hr, how, ho⟩ := hf
    cases write with
    | deactivate other reason now => cases hi
    | act write =>
      cases write with
      | insertCommitment other inserted =>
        cases hi
        simp only [applyActor, Db.apply, get_insertNew] at hr
        split at hr
        · cases hr
          exact .inl (if_pos ho)
        · exact .inr ⟨row, hr, how, ho⟩
      | setCommitmentState other state now resolved basis terminal =>
        cases hi
        simp only [applyActor, Db.apply, get_update, ↓reduceIte, Option.map_eq_some_iff] at hr
        obtain ⟨old, -, rfl⟩ := hr
        exact .inl (if_pos ho)
      | _ => cases hi
  · right
    simpa only [InFlight, get_applyActor_of_ne db write hi] using hf

end

section

variable (db : Db) (writes : List ActorWrite)

theorem view_cons (write : ActorWrite) :
    actorSchema.view db (write :: writes) = actorSchema.view (applyActor db write) writes := rfl

variable {id : Nat}

theorem get_view_of_ne (ho : ∀ write ∈ writes, write.touches ≠ some id) :
    (actorSchema.view db writes).commitments.get id = db.commitments.get id := by
  induction writes generalizing db with
  | nil => rfl
  | cons write rest ih =>
    rw [view_cons, ih _ fun w hw => ho w (.tail _ hw),
      get_applyActor_of_ne db write (ho write (.head _))]

theorem get_view_congr (hs : first.commitments.get id = second.commitments.get id) :
    (actorSchema.view first writes).commitments.get id =
      (actorSchema.view second writes).commitments.get id := by
  induction writes generalizing first second with
  | nil => exact hs
  | cons write rest ih => exact ih (get_applyActor_congr write hs)

theorem isSome_actors_view (actorId : Nat) :
    ((actorSchema.view db writes).actors.get actorId).isSome = (db.actors.get actorId).isSome := by
  induction writes generalizing db with
  | nil => rfl
  | cons write rest ih => rw [view_cons, ih, isSome_actors_applyActor]

theorem isInactive_view_iff (actorId : Nat) :
    IsInactive (actorSchema.view db writes) actorId ↔ IsInactive db actorId ∨
      (db.actors.get actorId).isSome ∧
        ∃ reason now, ActorWrite.deactivate actorId reason now ∈ writes := by
  induction writes generalizing db with
  | nil => simp
  | cons write rest ih =>
    rw [view_cons, ih, isInactive_applyActor_iff, isSome_actors_applyActor]
    simp only [List.mem_cons, exists_or, eq_comm (a := write)]
    rw [and_or_left, or_assoc]

theorem opened_or_inFlight (hf : InFlight (actorSchema.view db writes) id actorId) :
    (∃ write ∈ writes, write.opens = some id) ∨ InFlight db id actorId := by
  induction writes generalizing db with
  | nil => exact .inr hf
  | cons write rest ih =>
    rcases ih _ hf with ⟨w, hw, ho⟩ | hm
    · exact .inl ⟨w, List.mem_cons_of_mem _ hw, ho⟩
    · rcases opens_or_inFlight db write hm with ho | hb
      · exact .inl ⟨write, .head _, ho⟩
      · exact .inr hb

end

/-! The protocol of the sessions that open work and of those that deactivate
actors. It does not say that nobody interferes: a session knows of its owners,
or of the actor it deactivates, only what was so when it began. -/

def Holds (db : Db) (trail : Trail ActorWrite ActorLock) (commitmentId : Nat) : Prop :=
  .act (.commitment commitmentId) ∈ trail.locks ∧ (db.commitments.get commitmentId).isSome ∨
    commitmentId ∈ trail.minted

structure Deactivates (start db : Db) (writes : List ActorWrite) (actorId : Nat) : Prop where
  present : (db.actors.get actorId).isSome
  idle : ∀ commitmentId, InFlight db commitmentId actorId → ¬ InFlight start commitmentId actorId
  quiet : ∀ write ∈ writes, write.touches = none

def OwnerStood (start seen : Db) (commitmentId : Nat) : Prop :=
  ∃ row, seen.commitments.get commitmentId = some row ∧
    ∀ actorId, row.ownerId = some actorId → ¬ IsInactive start actorId

structure Own (start db : Db) (trail : Trail ActorWrite ActorLock) : Prop where
  began : Advances start db
  advances : Advances db (actorSchema.view db trail.writes)
  held : ∀ write ∈ trail.writes, ∀ id, write.touches = some id → Holds db trail id
  fresh : ∀ id ∈ trail.minted, db.commitments.get id = none
  owners : ∀ write ∈ trail.writes, ∀ id, write.opens = some id →
    OwnerStood start (actorSchema.view db trail.writes) id
  deactivates : ∀ actorId reason now, .deactivate actorId reason now ∈ trail.writes →
    Deactivates start db trail.writes actorId

structure Rely (trail : Trail ActorWrite ActorLock) (db later : Db) : Prop where
  advances : Advances db later
  held : ∀ id, Holds db trail id → later.commitments.get id = db.commitments.get id

section

variable {start db later : Db} {trail : Trail ActorWrite ActorLock}

theorem OwnerStood.of_advances (hs : OwnerStood start db commitmentId) (had : Advances db seen) :
    OwnerStood start seen commitmentId := by
  obtain ⟨row, hr, ho⟩ := hs
  obtain ⟨moved, hm, ha⟩ := had.rows commitmentId row hr
  exact ⟨moved, hm, fun actorId hac => ho actorId (ha.owner ▸ hac)⟩

variable {id : Nat}

theorem Holds.of_advances (hh : Holds db trail id) (ha : Advances db later) :
    Holds later trail id := by
  rcases hh with ⟨hl, hp⟩ | hm
  · obtain ⟨row, hr⟩ := Option.isSome_iff_exists.mp hp
    obtain ⟨moved, hmv, -⟩ := ha.rows id row hr
    exact .inl ⟨hl, Option.isSome_iff_exists.mpr ⟨moved, hmv⟩⟩
  · exact .inr hm

theorem Rely.trans (h1 : Rely trail db later) (h2 : Rely trail later last) :
    Rely trail db last where
  advances := h1.advances.trans h2.advances
  held := fun id hh =>
    (h2.held id (hh.of_advances h1.advances)).trans (h1.held id hh)

theorem Own.get_view (ho : Own start db trail) (hr : Rely trail db later)
    (ht : ∃ w ∈ trail.writes, w.touches = some id) :
    (actorSchema.view later trail.writes).commitments.get id =
      (actorSchema.view db trail.writes).commitments.get id := by
  obtain ⟨w, hw, hi⟩ := ht
  exact get_view_congr _ (hr.held id (ho.held w hw id hi))

theorem Own.advances_stable (how : Own start db trail) (hr : Rely trail db later) :
    Advances later (actorSchema.view later trail.writes) where
  present := fun actorId ha => by rwa [isSome_actors_view]
  inactive := fun actorId ha => (isInactive_view_iff _ _ _).mpr (.inl ha)
  rows := by
    intro id row hg
    by_cases ht : ∃ w ∈ trail.writes, w.touches = some id
    · obtain ⟨w, hw, hi⟩ := ht
      rw [how.get_view hr ⟨w, hw, hi⟩]
      rw [hr.held id (how.held w hw id hi)] at hg
      exact how.advances.rows id row hg
    · have ho : ∀ w ∈ trail.writes, w.touches ≠ some id :=
        fun w hw hi => ht ⟨w, hw, hi⟩
      exact ⟨row, by rw [get_view_of_ne _ _ ho, hg], .refl row⟩

theorem Own.stable (ho : Own start db trail) (hr : Rely trail db later) :
    Own start later trail where
  began := ho.began.trans hr.advances
  advances := ho.advances_stable hr
  held := fun w hw id hid => (ho.held w hw id hid).of_advances hr.advances
  fresh := fun id hid => (hr.held id (.inr hid)).trans (ho.fresh id hid)
  owners := by
    intro w hw id hop
    have ht := touches_of_opens hop
    unfold OwnerStood
    rw [ho.get_view hr ⟨w, hw, ht⟩]
    exact ho.owners w hw id hop
  deactivates := by
    intro actorId reason now hm
    have hi := ho.deactivates actorId reason now hm
    refine ⟨hr.advances.present actorId hi.present, fun id hl hs => ?_, hi.quiet⟩
    exact hi.idle id (ho.began.inFlight_between hr.advances hs hl) hs

theorem Own.not_holds
    (hm : Own start db mine) (hrival : Own other db theirs) (hd : mine.Disjoint theirs)
    (hh : Holds db mine id) : ¬ Holds db theirs id := by
  rcases hh with ⟨hl, hp⟩ | hmi
  · rintro (⟨ht, -⟩ | hmd)
    · exact hd.1 _ hl ht
    · rw [hrival.fresh id hmd] at hp
      cases hp
  · rintro (⟨-, hp⟩ | hmd)
    · rw [hm.fresh id hmi] at hp
      cases hp
    · exact hd.2 id hmi hmd

theorem Own.rely_commit
    (hm : Own start db mine) (ht : Own other db theirs) (hd : mine.Disjoint theirs) :
    Rely theirs db (actorSchema.view db mine.writes) where
  advances := hm.advances
  held := by
    intro id hh
    apply get_view_of_ne
    intro w hw hi
    exact hm.not_holds ht hd (hm.held w hw id hi) hh

theorem Own.unused_commit (how : Own start db trail) (hu : db.commitments.get id = none)
    (ho : id ∉ trail.minted) : (actorSchema.view db trail.writes).commitments.get id = none := by
  rw [get_view_of_ne _ _ fun w hw hi => ?_, hu]
  rcases how.held w hw id hi with ⟨-, hp⟩ | hm
  · rw [hu] at hp
    cases hp
  · exact ho hm

theorem Own.begin (db : Db) : Own db db {} where
  began := .refl db
  advances := .refl db
  held := fun _ hm => absurd hm List.not_mem_nil
  fresh := fun _ hm => absurd hm List.not_mem_nil
  owners := fun _ hm => absurd hm List.not_mem_nil
  deactivates := fun _ _ _ hm => absurd hm List.not_mem_nil

theorem Own.mint (how : Own start db trail) (hu : db.commitments.get id = none) :
    Own start db (trail.mint id) where
  began := how.began
  advances := how.advances
  held := fun w hw other hi =>
    (how.held w hw other hi).imp_right (List.mem_cons_of_mem id)
  fresh := by
    intro other hm
    rcases List.mem_cons.mp hm with rfl | ho
    · exact hu
    · exact how.fresh other ho
  owners := how.owners
  deactivates := how.deactivates

end

/-- Sessions keep what they open and what they deactivate to what they have seen. -/
def ownership : Protocol actorSchema where
  Good := OwnersStand
  Own := Own
  Rely := Rely
  Unused db id := db.commitments.get id = none
  rely_refl _ db := ⟨.refl db, fun _ _ => rfl⟩
  rely_trans := Rely.trans
  own_begin := fun _ => Own.begin _
  own_stable := fun hown hrely _ => hown.stable hrely
  rely_commit := fun _ hmine htheirs hdisjoint => hmine.rely_commit htheirs hdisjoint
  unused_commit := fun hown hunused hother => hown.unused_commit hunused hother

end FyralisCore.Actors
