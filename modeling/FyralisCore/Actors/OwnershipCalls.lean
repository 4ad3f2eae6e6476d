import FyralisCore.Actors.Ownership

/-! Every call keeps the protocol: the calls of the act store in their own
schema, and `deactivate`. -/
namespace FyralisCore.Actors

open Relational Transaction ReadCommitted Acts List ActorWrite Trail

def actOwnership : Protocol actSchema := actsEmbedding.restrict ownership

def Quiet (_ : Db) (_ : Option RowRef) (writes : List Write) : Prop :=
  ∀ write ∈ writes, (act write).touches = none

theorem quiet_nil (db : Db) (lock : Option RowRef) : Quiet db lock [] :=
  fun _ hm => absurd hm not_mem_nil

theorem quiet_single (hw : (act w).touches = none) : Quiet db lock [w] := by
  intro other hm
  obtain rfl := mem_singleton.mp hm
  exact hw

theorem quiet_reads : AllowsReads Quiet where
  plain := fun db => quiet_nil db _
  lockGoal := fun db _ => quiet_nil db _
  lockCommitment := fun db _ => quiet_nil db _

structure Keeps (start : Db) (rows : List (Nat × CommitmentRow)) (made : List Nat) (db : Db)
    (trail : Trail Write RowRef) : Prop where
  own : Own start db (actsEmbedding.trail trail)
  rows : ∀ entry ∈ rows, Holds db (actsEmbedding.trail trail) entry.1 ∧
    (actSchema.view db trail.writes).commitments.get entry.1 = some entry.2
  made : ∀ id ∈ made, id ∈ trail.minted

section Rules

variable {start db u : Db} {rows : List (Nat × CommitmentRow)} {made : List Nat}
  {trail : Trail Write RowRef}

@[simp] theorem view_map_act (writes : List Write) :
    actorSchema.view db (writes.map act) = actSchema.view db writes :=
  actsEmbedding.view_map db writes

@[simp] theorem actsEmbedding_write : actsEmbedding.write = act := rfl

@[simp] theorem actsEmbedding_row : actsEmbedding.row = ActorLock.act := rfl

variable {writes : List Write} {id : Nat} {lock : Option RowRef}

theorem deactivate_notMem_map :
    ActorWrite.deactivate actorId reason now ∉ writes.map ActorWrite.act := by
  simp

theorem Holds.extend (hh : Holds db (actsEmbedding.trail trail) id) (lock : Option RowRef)
    (writes : List Write) : Holds db (actsEmbedding.trail (trail.extend lock writes)) id := by
  simp only [Holds, Trail.extend, Embedding.trail_locks, Embedding.trail_minted, map_append,
    mem_append] at hh ⊢
  tauto

theorem own_extend (hw : Own start db (actsEmbedding.trail trail))
    (ha : Advances (actSchema.view db trail.writes) (actSchema.view db (trail.writes ++ writes)))
    (hh : ∀ w ∈ writes, ∀ id, (act w).touches = some id →
      Holds db (actsEmbedding.trail (trail.extend lock writes)) id)
    (how : ∀ w ∈ writes, ∀ id, (act w).opens = some id →
      OwnerStood start (actSchema.view db (trail.writes ++ writes)) id) :
    Own start db (actsEmbedding.trail (trail.extend lock writes)) := by
  have hb := hw.advances
  have hv : actorSchema.view db (actsEmbedding.trail (trail.extend lock writes)).writes =
      actSchema.view db (trail.writes ++ writes) := by
    simp only [Embedding.trail_writes, extend, actsEmbedding_write, view_map_act]
  simp only [Embedding.trail_writes, actsEmbedding_write, view_map_act] at hb
  constructor
  · exact hw.began
  · rw [hv]
    exact hb.trans ha
  · intro w hm id hid
    obtain ⟨inner, hi, rfl⟩ := mem_map.mp hm
    rcases mem_append.mp hi with ho | hn
    · exact (hw.held _ (mem_map_of_mem ho) id hid).extend lock writes
    · exact hh inner hn id hid
  · exact hw.fresh
  · intro w hm id hid
    rw [hv]
    obtain ⟨inner, hi, rfl⟩ := mem_map.mp hm
    rcases mem_append.mp hi with ho | hn
    · have hs := hw.owners _ (mem_map_of_mem ho) id hid
      simp only [Embedding.trail_writes, actsEmbedding_write, view_map_act] at hs
      exact hs.of_advances ha
    · exact how inner hn id hid
  · intro actorId reason now hm
    exact absurd hm deactivate_notMem_map

theorem view_quiet (seen : Db) (hq : Quiet seen lock writes) :
    (actSchema.view seen writes).commitments = seen.commitments ∧
      (actSchema.view seen writes).actors = seen.actors := by
  induction writes generalizing seen with
  | nil => exact ⟨rfl, rfl⟩
  | cons w rest ih =>
    obtain ⟨hc, ha⟩ := ih (seen.apply w) fun other hm => hq other (.tail _ hm)
    have hw := hq w (.head _)
    exact ⟨hc.trans (commitments_applyActor seen (.act w) hw), ha.trans (actors_act seen w)⟩

theorem advances_of_same (hc : t.commitments = seen.commitments)
    (ha : t.actors = seen.actors) : Advances seen t where
  present := fun actorId hac => by rwa [ha]
  inactive := fun actorId hac => by rwa [IsInactive, ha]
  rows := fun id row hg => ⟨row, by rw [hc, hg], .refl row⟩

section

variable (hk : Keeps start rows made db trail)

include hk

theorem Keeps.extend_quiet (hq : Quiet (actSchema.view db trail.writes) lock writes) :
    Keeps start rows made db (trail.extend lock writes) := by
  obtain ⟨hc, ha⟩ := view_quiet _ hq
  have hv : actSchema.view db (trail.writes ++ writes) =
      actSchema.view (actSchema.view db trail.writes) writes := Schema.view_append _ _ _ _
  constructor
  · apply own_extend hk.own
    · rw [hv]
      exact advances_of_same hc ha
    · intro w hm id hi
      rw [hq w hm] at hi
      cases hi
    · intro w hm id hi
      have ht := touches_of_opens hi
      rw [hq w hm] at ht
      cases ht
  · intro e he
    obtain ⟨hh, hr⟩ := hk.rows e he
    refine ⟨hh.extend lock writes, ?_⟩
    rw [extend, hv, hc, hr]
  · exact hk.made

theorem Keeps.stable (hrl : actOwnership.Rely trail db u) : Keeps start rows made u trail where
  own := hk.own.stable hrl
  rows := by
    intro e he
    obtain ⟨hh, hr⟩ := hk.rows e he
    refine ⟨hh.of_advances hrl.advances, ?_⟩
    rw [← hr, ← view_map_act, ← view_map_act]
    exact get_view_congr _ (hrl.held e.1 hh)
  made := hk.made

theorem Keeps.mint (hu : db.commitments.get id = none) : Keeps start rows (id :: made) db
    (trail.mint id) where
  own := hk.own.mint hu
  rows := fun e he =>
    ⟨(hk.rows e he).1.imp_right (mem_cons_of_mem id), (hk.rows e he).2⟩
  made := by
    intro other hm
    rcases mem_cons.mp hm with rfl | ho
    · exact .head _
    · exact .tail _ (hk.made other ho)

end

theorem Keeps.begin (db : Db) : Keeps db [] [] db {} where
  own := Own.begin db
  rows := fun _ hm => absurd hm not_mem_nil
  made := fun _ hm => absurd hm not_mem_nil

theorem wp_quiet (hb : body.EachStatement Quiet) :
    actOwnership.Preserves start (Keeps start rows made) body := by
  intro db trail hk
  refine wp_of_eachStatement (I := Keeps start rows made) hb ?_ ?_ ?_ hk
  · exact fun s t trail hi hr _ => hi.stable hr
  · intro t trail lock writes hi _ hq
    have hn := hi.extend_quiet hq
    exact ⟨hn.own, hn⟩
  · intro t trail id hi _ hu _
    have hn := hi.mint hu
    exact ⟨hn.own, ⟨hn.own, hn.rows, fun other hm => hn.made other (.tail _ hm)⟩⟩

theorem wp_requireActiveActor (role : String) (actorId : Nat)
    (hk : Keeps start rows made db trail) :
    actOwnership.wp start (fun _ s t => Keeps start rows made s t ∧ ¬ IsInactive start actorId)
      (requireActiveActor role actorId) db trail := by
  refine wp_query fun t hr hg => ?_
  have ht := hk.stable hr
  dsimp only
  cases hc : actorError role actorId
      (((actSchema.view t trail.writes).actors.get actorId).bind ActorRow.status) with
  | some error =>
    rw [extend_nothing]
    exact ht.own
  | none =>
    simp only [extend_nothing]
    refine ⟨ht.own, ht, fun hi => ?_⟩
    have hn := ht.own.advances.inactive actorId (ht.own.began.inactive actorId hi)
    simp only [Embedding.trail_writes, actsEmbedding_write, view_map_act, IsInactive] at hn
    rw [hn] at hc
    cases hc

theorem wp_insertCommitment (hmd : id ∈ made)
    (how : ∀ actorId, row.ownerId = some actorId → ¬ IsInactive start actorId)
    (hk : Keeps start rows made db trail) :
    actOwnership.wp start (fun _ => Keeps start [] []) (insertCommitment id row) db trail := by
  refine wp_query fun t hr hgd => ?_
  have ht := hk.stable hr
  split
  · next writes v ha =>
    obtain ⟨hc, hp⟩ := (constrained_eq_ok_iff _ _ _).mp ha
    cases hp
    have hn : (actSchema.view t trail.writes).commitments.get id = none := by
      simpa using hc _ (.head _)
    have hv : actSchema.view t (trail.writes ++ [.insertCommitment id row]) =
        (actSchema.view t trail.writes).apply (.insertCommitment id row) :=
      Schema.view_append _ _ _ _
    have hg : ((actSchema.view t trail.writes).apply (.insertCommitment id row)).commitments.get
        id = some row := by
      simp [Db.apply, Table.get_insertNew, hn]
    have hw : Own start t (actsEmbedding.trail (trail.extend none [.insertCommitment id row])) := by
      apply own_extend ht.own
      · rw [hv]
        refine ⟨fun _ hac => hac, fun _ hac => hac, fun other old ho => ⟨old, ?_, .refl old⟩⟩
        have hne : other ≠ id := by
          rintro rfl
          rw [hn] at ho
          cases ho
        simpa [Db.apply, Table.get_insertNew, hne] using ho
      · intro w hm other hi
        obtain rfl := mem_singleton.mp hm
        cases hi
        exact .inr (ht.made id hmd)
      · intro w hm other hi
        obtain rfl := mem_singleton.mp hm
        cases touches_of_opens hi
        rw [hv]
        exact ⟨row, hg, how⟩
    exact ⟨hw, hw, fun _ hm => absurd hm not_mem_nil, fun _ hm => absurd hm not_mem_nil⟩
  · rw [extend_nothing]
    exact ht.own

theorem wp_fetchCommitmentForUpdate (commitmentId : Nat) (hk : Keeps start [] made db trail) :
    actOwnership.wp start (fun found => Keeps start (found.toList.map (commitmentId, ·)) made)
      (fetchCommitmentForUpdate commitmentId) db trail := by
  unfold fetchCommitmentForUpdate Tx.readLocking
  refine wp_query fun t hrl hg => ?_
  have ht := hk.stable hrl
  have hrd := ht.extend_quiet (quiet_nil (actSchema.view t trail.writes)
    (Db.lockCommitment commitmentId (actSchema.view t trail.writes)))
  refine ⟨hrd.own, hrd.own, ?_, hrd.made⟩
  intro e he
  obtain ⟨row, hf, rfl⟩ := mem_map.mp he
  have hr : (actSchema.view t trail.writes).commitments.get commitmentId = some row :=
    Option.mem_toList.mp hf
  refine ⟨?_, by simpa [extend] using hr⟩
  by_cases htc : ∃ w ∈ trail.writes, (act w).touches = some commitmentId
  · obtain ⟨w, hw, hid⟩ := htc
    exact (ht.own.held _ (mem_map_of_mem hw) commitmentId hid).extend _ _
  · left
    have hs : (actorSchema.view t (trail.writes.map .act)).commitments.get commitmentId =
        t.commitments.get commitmentId := by
      apply get_view_of_ne
      intro w hm hid
      obtain ⟨inner, hi, rfl⟩ := mem_map.mp hm
      exact htc ⟨inner, hi, hid⟩
    simp [Embedding.trail, extend, Db.lockCommitment, hr, ← hs]

theorem wp_updateCommitmentState (clock : Clock) (merged : List Nat) (basis : Option Nat)
    (hl : (commitmentMachine.canTransition row.state newState).1)
    (how : newState.isOpen → ∀ actorId, row.ownerId = some actorId →
      ¬ IsInactive start actorId) (hk : Keeps start [(commitmentId, row)] made db trail) :
    actOwnership.wp start (fun _ => Keeps start [] [])
      (updateCommitmentState clock commitmentId newState merged basis) db trail := by
  refine wp_query fun t hrl hgd => ?_
  have ht := hk.stable hrl
  obtain ⟨hh, hr⟩ := ht.rows _ (.head _)
  split
  · next writes v ha =>
    split at ha
    · cases ha
      let move := Write.setCommitmentState commitmentId newState clock.transactionNow merged basis
        (commitmentMachine.isTerminal newState)
      have hv : actSchema.view t (trail.writes ++ [move]) =
          (actSchema.view t trail.writes).apply move := Schema.view_append _ _ _ _
      have hg : ((actSchema.view t trail.writes).apply move).commitments.get commitmentId =
          some (row.withState newState clock.transactionNow merged basis
            (commitmentMachine.isTerminal newState)) := by
        simp [move, Db.apply, Table.get_update, hr]
      obtain ⟨hon, -, hmv⟩ := (commitmentMachine.canTransition_iff _ _).mp hl
      have hw : Own start t (actsEmbedding.trail (trail.extend
          (Db.lockCommitment commitmentId (actSchema.view t trail.writes)) [move])) := by
        apply own_extend ht.own
        · rw [hv]
          refine ⟨fun _ hac => hac, fun _ hac => hac, fun other old ho => ?_⟩
          by_cases hs : other = commitmentId
          · subst hs
            rw [hr] at ho
            cases ho
            exact ⟨_, hg, rfl, fun _ => proposed_notMem_transitions hmv,
              fun he => absurd he hon⟩
          · exact ⟨old, by simpa [move, Db.apply, Table.get_update, hs] using ho, .refl old⟩
        · intro w hm other hi
          obtain rfl := mem_singleton.mp hm
          cases hi
          exact hh.extend _ _
        · intro w hm other hi
          obtain rfl := mem_singleton.mp hm
          cases touches_of_opens hi
          rw [hv]
          exact ⟨_, hg, how (Option.ite_none_right_eq_some.mp hi).1⟩
      exact ⟨hw, hw, fun _ hm => absurd hm not_mem_nil, fun _ hm => absurd hm not_mem_nil⟩
    · cases ha
  · exact (ht.extend_quiet (quiet_nil _ _)).own

end Rules

section

variable {start db : Db} {rows : List (Nat × CommitmentRow)} {made : List Nat}
  {trail : Trail Write RowRef}

private theorem emitStateChange_quiet (clock : Clock) (tenantId : Nat)
    (entityKind : EntityKind) (entityId : Nat) (fromState : Option String) (toState : String)
    (causeEventId : Option Nat) :
    (emitStateChange clock tenantId entityKind entityId fromState toState
      causeEventId).EachStatement Quiet :=
  emitStateChange_eachStatement quiet_reads (fun _ _ _ => quiet_single rfl) _ _ _ _ _ _ _

theorem wp_validateReferences (input : CommitmentCreateInput)
    (hk : Keeps start rows made db trail) :
    actOwnership.wp start (fun _ s t => Keeps start rows made s t ∧
        ∀ actorId, input.ownerId = some actorId → ¬ IsInactive start actorId)
      (validateCommitmentCreateReferences input) db trail := by
  have ho : actOwnership.wp start (fun _ s t => Keeps start rows made s t ∧
      ∀ actorId, input.ownerId = some actorId → ¬ IsInactive start actorId)
      (Tx.forEach input.ownerId.toList (requireActiveActor "owner")) db trail := by
    cases input.ownerId with
    | none => exact ⟨hk, nofun⟩
    | some ownerId =>
      refine wp_seq (wp_requireActiveActor "owner" ownerId hk) fun _ s t hc => ?_
      refine ⟨hc.1, fun actorId hs => ?_⟩
      cases hs
      exact hc.2
  refine wp_seq ho fun _ s t hc => ?_
  refine wp_seq (wp_quiet (.forEach fun _ => requireActiveActor_eachStatement quiet_reads _ _)
    hc.1) fun _ s t hk => ?_
  refine wp_seq (wp_quiet (.forEach fun _ => requireTenant_eachStatement quiet_reads _ _ _ _ _ _)
    hk) fun _ s t hk => ?_
  refine wp_seq (wp_quiet (.forEach (requireTenant_eachStatement quiet_reads _ _ _ _ _)) hk)
    fun _ s t hk => ?_
  exact wp_mono (wp_quiet (.forEach (requireTenant_eachStatement quiet_reads _ _ _ _ _)) hk)
    fun _ _ _ hk => ⟨hk, hc.2⟩

theorem wp_createCommitment (clock : Clock) (a : CommitmentCreate) :
    actOwnership.Preserves start (Keeps start [] []) (createCommitment clock a) := by
  intro db trail hk
  refine wp_seq (wp_ofExcept fun input _ => hk) fun input s t hk => ?_
  refine wp_seq (wp_validateReferences input hk) fun _ s t ⟨hk, ho⟩ => ?_
  refine wp_seq (wp_newId (Q := fun id => Keeps start [] [id]) fun t id hr _ hu _ => ?_)
    fun id s t hk => ?_
  · have hm := (hk.stable hr).mint hu
    exact ⟨hm.own, hm⟩
  refine wp_seq (wp_quiet (resolveEffectiveInitialState_eachStatement quiet_reads input) hk)
    fun effective s t hk => ?_
  refine wp_seq (wp_insertCommitment (.head _) ho hk) fun _ s t hk => ?_
  refine wp_seq (wp_quiet (.forEach fun contributor => insertContributor_eachStatement quiet_reads
    (fun _ _ _ _ => quiet_single rfl) _ _ _) hk) fun _ s t hk => ?_
  refine wp_seq (wp_quiet (.forEach fun item =>
    .bind (requireGoalCanAcceptCriticalPath_eachStatement quiet_reads _ _ _) fun _ =>
      insertContributesTo_eachStatement quiet_reads (fun _ _ _ _ => quiet_single rfl) _ _ _)
    hk) fun _ s t hk => ?_
  refine wp_seq (wp_quiet (.forEach fun dependencyId => insertDependsOnEdge_eachStatement
    quiet_reads (fun _ _ _ => quiet_single rfl) _ _) hk) fun _ s t hk => ?_
  refine wp_seq (wp_quiet (.forEach fun decisionId => insertConstrainedBy_eachStatement
    quiet_reads (fun _ _ _ => quiet_single rfl) _ _) hk) fun _ s t hk => ?_
  refine wp_seq (wp_quiet (emitStateChange_quiet _ _ _ _ _ _ _) hk) fun _ s t hk => ?_
  exact wp_quiet (.bind (.read quiet_reads.plain) fun _ => .bind .orRaise fun _ => .done) hk

theorem wp_requireActiveOwner (row : CommitmentRow) (newState : CommitmentState)
    (hk : Keeps start rows made db trail) :
    actOwnership.wp start (fun _ s t => Keeps start rows made s t ∧
        (newState.isOpen → ∀ actorId, row.ownerId = some actorId →
          ¬ IsInactive start actorId)) (requireActiveOwner row newState) db trail := by
  unfold requireActiveOwner
  split
  · next hn => exact ⟨hk, fun _ actorId hsm => by simp [hn] at hsm⟩
  · next ownerId hsm =>
    refine wp_when (fun _ => ?_) fun hsk => ?_
    · refine wp_mono (wp_requireActiveActor "owner" ownerId hk) fun _ s t hc => ?_
      refine ⟨hc.1, fun _ actorId hs => ?_⟩
      rw [hsm] at hs
      cases hs
      exact hc.2
    · refine ⟨hk, fun ho => ?_⟩
      have hcl : newState = .closed := by simpa using hsk
      rw [hcl] at ho
      cases ho

theorem wp_transitionCommitment (clock : Clock) (commitmentId : Nat) (newState : CommitmentState)
    (a : TransitionArgs) :
    actOwnership.Preserves start (Keeps start [] [])
      (transitionCommitment clock commitmentId newState a) := by
  intro db trail hk
  refine wp_seq (wp_fetchCommitmentForUpdate commitmentId hk) fun found s t hk => ?_
  refine wp_seq (wp_orRaise (Q := fun row => Keeps start [(commitmentId, row)] []) ?_)
    fun row s t hk => ?_
  · rintro row rfl
    exact hk
  refine wp_seq (wp_ofExcept (Q := fun _ s t => Keeps start [(commitmentId, row)] [] s t ∧
    (commitmentMachine.canTransition row.state newState).1) fun _ hm =>
      ⟨hk, (checkCommitmentMove_spec.mp hm).1⟩) fun _ s t ⟨hk, hl⟩ => ?_
  refine wp_seq (wp_requireActiveOwner row newState hk) fun _ s t ⟨hk, ho⟩ => ?_
  refine wp_seq (wp_quiet .ensure hk) fun _ s t hk => ?_
  refine wp_seq (wp_quiet (.when (requireBlockedReason_eachStatement quiet_reads _)) hk)
    fun _ s t hk => ?_
  refine wp_seq (wp_updateCommitmentState clock _ _ hl ho hk) fun updated s t hk => ?_
  refine wp_seq (wp_quiet (.when (raiseFirst_eachStatement (checkC10_eachStatement quiet_reads _)))
    hk) fun _ s t hk => ?_
  refine wp_seq (wp_quiet (emitStateChange_quiet _ _ _ _ _ _ _) hk) fun _ s t hk => ?_
  exact wp_quiet .orRaise hk

theorem wp_run (call : ActCall) : actOwnership.Preserves start (Keeps start [] []) call.run := by
  intro db trail hk
  cases call with
  | createGoal clock a =>
    exact wp_quiet ((createGoal_eachStatement quiet_reads (fun _ _ _ => quiet_single rfl)
      (fun _ _ _ => quiet_single rfl) clock a).bind fun _ => .done) hk
  | transitionGoal clock goalId newState causeEventId =>
    exact wp_quiet ((transitionGoal_eachStatement quiet_reads
      (fun _ _ _ _ _ => quiet_single rfl) (fun _ _ _ => quiet_single rfl) clock goalId newState
      causeEventId).bind fun _ => .done) hk
  | createCommitment clock a =>
    exact wp_seq (wp_createCommitment clock a hk) fun _ _ _ hk => hk
  | transitionCommitment clock commitmentId newState a =>
    exact wp_seq (wp_transitionCommitment clock commitmentId newState a hk) fun _ _ _ hk => hk
  | addEdge a =>
    exact wp_quiet ((addEdge_eachStatement quiet_reads (fun _ _ _ _ => quiet_single rfl)
      (fun _ _ _ => quiet_single rfl) (fun _ _ _ => quiet_single rfl) a).bind fun _ => .done) hk

end

section

variable {start db u : Db} {trail : Trail ActorWrite ActorLock} {actorId : Nat}

structure Inspects (start db : Db) (trail : Trail ActorWrite ActorLock) (actorId : Nat)
    (found looked : Bool) : Prop where
  own : Own start db trail
  none : trail.writes = []
  present : found → (db.actors.get actorId).isSome
  idle : looked → ∀ id, InFlight db id actorId → ¬ InFlight start id actorId

variable {found looked : Bool}

section

variable (hi : Inspects start db trail actorId found looked)

include hi

theorem Inspects.stable (hr : Rely trail db u) : Inspects start u trail actorId found looked where
  own := hi.own.stable hr
  none := hi.none
  present := fun hf => hr.advances.present actorId (hi.present hf)
  idle := by
    intro hlk id hl hs
    have hm := hi.own.began.inFlight_between hr.advances hs hl
    exact hi.idle hlk id hm hs

theorem Inspects.lock (lock : Option ActorLock) : Inspects start db
    (trail.extend lock []) actorId found looked := by
  have hw : (trail.extend lock []).writes = [] := by simp [extend, hi.none]
  refine ⟨⟨hi.own.began, ?_, ?_, hi.own.fresh, ?_, ?_⟩, hw, hi.present, hi.idle⟩
  all_goals rw [hw]
  · exact .refl db
  · exact fun _ hm => absurd hm not_mem_nil
  · exact fun _ hm => absurd hm not_mem_nil
  · exact fun _ _ _ hm => absurd hm not_mem_nil

end

theorem Inspects.own_deactivate (hi : Inspects start db trail actorId true true)
    (lock : Option ActorLock) (reason : String) (now : Nat) :
    Own start db (trail.extend lock [.deactivate actorId reason now]) := by
  have hw : (trail.extend lock [.deactivate actorId reason now]).writes =
      [.deactivate actorId reason now] := by
    simp [extend, hi.none]
  refine ⟨hi.own.began, ?_, ?_, hi.own.fresh, ?_, ?_⟩
  all_goals rw [hw]
  · exact
      { present := fun other ha => by rwa [isSome_actors_view]
        inactive := fun other ha => (isInactive_view_iff _ _ _).mpr (.inl ha)
        rows := fun id row hg => ⟨row, hg, .refl row⟩ }
  · intro w hm id hid
    obtain rfl := mem_singleton.mp hm
    cases hid
  · intro w hm id hid
    obtain rfl := mem_singleton.mp hm
    cases hid
  · intro other otherReason otherNow hm
    cases mem_singleton.mp hm
    refine ⟨hi.present rfl, hi.idle rfl, fun w hwr => ?_⟩
    obtain rfl := mem_singleton.mp hwr
    rfl

theorem wp_deactivate (now actorId : Nat) (reason : String) (db : Db) :
    ownership.wp db (fun _ _ _ => True) (deactivate now actorId reason) db {} := by
  have hbg : Inspects db db {} actorId false false := ⟨.begin db, rfl, nofun, nofun⟩
  refine wp_seq (wp_ensure (Q := fun _ s t => Inspects db s t actorId false false)
    fun _ => hbg) fun _ s t hin => ?_
  have hex : ownership.wp db (fun existing s t =>
      Inspects db s t actorId existing.isSome false)
      (Tx.readLocking (lockActor actorId) fun db => db.actors.get actorId) s t := by
    refine wp_query fun u hr _ => ?_
    have ht := (hin.stable hr).lock (lockActor actorId (actorSchema.view u t.writes))
    have hrd : Inspects db u _ actorId
        ((actorSchema.view u t.writes).actors.get actorId).isSome false :=
      { ht with present := fun hf => by rwa [isSome_actors_view] at hf }
    exact ⟨hrd.own, hrd⟩
  refine wp_seq hex fun existing s t hin => ?_
  refine wp_seq (wp_orRaise (Q := fun _ s t => Inspects db s t actorId true false) ?_)
    fun _ s t hin => ?_
  · rintro row rfl
    exact hin
  have hb : ownership.wp db (fun blockers s t =>
      Inspects db s t actorId true blockers.isEmpty)
      (Tx.read fun db => blockersOf db actorId) s t := by
    refine wp_read hin.own fun u hr _ _ => ?_
    have ht := hin.stable hr
    refine { ht with idle := fun hl id hfl => ?_ }
    have hi := (blockersOf_eq_nil_iff _ actorId).mp (isEmpty_iff.mp hl) id
    rw [ht.none, Schema.view_nil] at hi
    exact absurd hfl hi
  refine wp_seq hb fun blockers s t hin => ?_
  refine wp_seq (wp_ensure (Q := fun _ s t => Inspects db s t actorId true true) fun he => ?_)
    fun _ s t hin => ?_
  · rwa [he] at hin
  refine wp_seq (wp_query (Q := fun _ _ _ => True) fun u hr _ => ?_) fun row s t _ => ?_
  · exact ⟨(hin.stable hr).own_deactivate _ reason now, trivial⟩
  · exact wp_orRaise fun _ _ => trivial

end

theorem ownership_sound : ownership.Sound := by
  intro call db hg
  cases call with
  | acts calls =>
    have hk := Keeps.begin db
    have hc : actOwnership.wp db (fun _ => Keeps db [] []) (actSchema.program calls) db {} :=
      wp_forEach hk fun call _ _ _ hk => wp_run call hk
    exact actsEmbedding.wp_rename hc fun _ _ _ _ => trivial
  | deactivate now actorId reason =>
    exact wp_seq (wp_deactivate now actorId reason db) fun _ _ _ _ => trivial

/-! No inactive actor owns in-flight work. `deactivate` locks the actor and
reads its commitments; `transition` and `create` lock the commitment and read
the owner's status without a lock. Each may commit behind the other's back, and
that is the only way in which the rule is broken. -/

open Option Transition

/-- Since the session began nobody has deactivated an owner of the work it
leaves in flight, and no work of an actor it deactivates has come to be in
flight. -/
structure NotOvertaken (start db : Db) (writes : List ActorWrite) : Prop where
  owners : ∀ write ∈ writes, ∀ id actorId, write.opens = some id →
    InFlight (actorSchema.view db writes) id actorId → IsInactive db actorId →
      IsInactive start actorId
  blockers : ∀ actorId reason now, .deactivate actorId reason now ∈ writes →
    ∀ id, InFlight db id actorId → InFlight start id actorId

def CommitsNotOvertaken (config : Config Db ActorWrite ActorLock ActorError) :
    Action ActorCall → Prop
  | .commit sid => ∀ session, config.sessions.get sid = some session →
      NotOvertaken session.start config.committed session.trail.writes
  | _ => True

section

variable {start db : Db} {tr : Trail ActorWrite ActorLock}

theorem Own.owner_stood (ho : Own start db tr)
    (hw : w ∈ tr.writes) {id : Nat} (hop : w.opens = some id)
    (hfl : InFlight (actorSchema.view db tr.writes) id actorId) :
    ¬ IsInactive start actorId := by
  obtain ⟨row, hr, hs⟩ := ho.owners w hw id hop
  obtain ⟨found, hf, how, -⟩ := hfl
  rw [hr] at hf
  cases hf
  exact hs actorId how

theorem ownersStand_view_iff (hst : OwnersStand db) (how : Own start db tr) :
    OwnersStand (actorSchema.view db tr.writes) ↔ NotOvertaken start db tr.writes := by
  constructor
  · intro ha
    constructor
    · intro w hw id actorId hop hfl hi
      have hv := (isInactive_view_iff db tr.writes actorId).mpr (.inl hi)
      exact absurd hv (ha id actorId hfl)
    · intro actorId reason now hm id hfl
      have hf := how.deactivates actorId reason now hm
      have hv := (isInactive_view_iff db tr.writes actorId).mpr (.inr ⟨hf.present, reason, now, hm⟩)
      refine absurd hv (ha id actorId ?_)
      have hs : (actorSchema.view db tr.writes).commitments.get id = db.commitments.get id := by
        apply get_view_of_ne
        intro w hw hid
        rw [hf.quiet w hw] at hid
        cases hid
      rwa [InFlight, hs]
  · intro hfr id actorId hfl hi
    rcases (isInactive_view_iff db tr.writes actorId).mp hi with
      hb | ⟨-, reason, now, hm⟩
    · rcases opened_or_inFlight db tr.writes hfl with ⟨w, hw, hop⟩ | ho
      · exact how.owner_stood hw hop hfl (hfr.owners w hw id actorId hop hfl hb)
      · exact hst id actorId ho hb
    · have hf := how.deactivates actorId reason now hm
      rcases opened_or_inFlight db tr.writes hfl with ⟨w, hw, hop⟩ | ho
      · have ht := touches_of_opens hop
        rw [hf.quiet w hw] at ht
        cases ht
      · exact hf.idle id ho (hfr.blockers actorId reason now hm id ho)

end

/-- In every run in which nobody commits after being overtaken, no inactive
actor owns in-flight work; and a commit of an open session keeps it so exactly
when the session has not been overtaken. -/
theorem ownersStand_of_notOvertaken {start : Db} {supply : Nat}
    {config : Config Db ActorWrite ActorLock ActorError} (hstand : OwnersStand start)
    (hfresh : ∀ id, supply ≤ id → start.commitments.get id = none)
    (hreach : Transition.Reach actorStep CommitsNotOvertaken ⟨start, supply, ∅⟩ config) :
    OwnersStand config.committed ∧ ∀ sid session, config.sessions.get sid = some session →
        (OwnersStand (actorSchema.view config.committed session.trail.writes) ↔
          NotOvertaken session.start config.committed session.trail.writes) := by
  have hcommits : ownership.CommitsGood CommitsNotOvertaken :=
    fun current sid session hget hallowed hgood hown =>
      (ownersStand_view_iff hgood hown).mpr (hallowed session hget)
  have hcoherent := Protocol.coherent_of_reach ownership_sound hcommits hstand hfresh
    (reach_of_reachSharing hreach)
  exact ⟨hcoherent.good, fun sid session hget =>
    ownersStand_view_iff hcoherent.good (hcoherent.own sid session hget)⟩

/-! One actor and a proposed maintenance commitment of theirs. -/

def proposedWork : Db where
  tenants := [1]
  actors := Table.put ∅ 7 { tenantId := 1 }
  commitments := Table.put ∅ 1
    { tenantId := 1
      title := "Patch the routers"
      ownerId := some 7
      isMaintenance := true
      createdAt := 0
      lastStateChangeAt := 0
      createdByEventId := 9 }

/-- The same for a second actor. -/
def sharedWork : Db :=
  { proposedWork with
    actors := proposedWork.actors.put 8 { tenantId := 1 }
    commitments := proposedWork.commitments.put 2
      { tenantId := 1
        title := "Replace the switches"
        ownerId := some 8
        isMaintenance := true
        createdAt := 0
        lastStateChangeAt := 0
        createdByEventId := 9 } }

def activateCall (commitmentId : Nat) : ActorCall :=
  .acts [.transitionCommitment ⟨5, 5⟩ commitmentId .active { causeEventId := some 9 }]

def deactivateCall (actorId : Nat) : ActorCall := .deactivate 5 actorId "left the company"

def inFlightAt (db : Db) (id actorId : Nat) : Bool :=
  (db.commitments.get id).any fun row => row.ownerId = some actorId && row.state.isOpen

def inactiveAt (db : Db) (actorId : Nat) : Bool :=
  (db.actors.get actorId).bind ActorRow.status == some .inactive

theorem inFlightAt_iff {db : Db} {id : Nat} :
    inFlightAt db id actorId ↔ InFlight db id actorId := by
  simp [inFlightAt, InFlight, Option.any_eq_true]

theorem inactiveAt_iff : inactiveAt db actorId ↔ IsInactive db actorId := by
  simp [inactiveAt, IsInactive]

def notOvertakenIn (start db : Db) (writes : List ActorWrite) : Bool :=
  (writes.all fun write => write.opens.all fun id =>
    ((actorSchema.view db writes).commitments.get id).all fun row => row.ownerId.all fun actorId =>
      !inactiveAt db actorId || inactiveAt start actorId) &&
  writes.all fun
    | .deactivate actorId _ _ => db.commitments.rows.all fun pair =>
      !inFlightAt db pair.1 actorId || inFlightAt start pair.1 actorId
    | _ => true

theorem notOvertaken_of_check {start db : Db} {writes : List ActorWrite}
    (hcheck : notOvertakenIn start db writes) : NotOvertaken start db writes := by
  obtain ⟨howners, hblockers⟩ := Bool.and_eq_true_iff.mp hcheck
  constructor
  · rintro write hwrite id actorId hopens ⟨row, hrow, howner, -⟩ hinactive
    have hwrites := List.all_eq_true.mp howners write hwrite
    simp only [hopens, hrow, howner, all_some, inactiveAt_iff.mpr hinactive, Bool.not_true,
      Bool.false_or] at hwrites
    exact inactiveAt_iff.mp hwrites
  · rintro actorId reason now hwrite id ⟨row, hrow, hflight⟩
    have hrows := List.all_eq_true.mp (List.all_eq_true.mp hblockers _ hwrite) (id, row)
      ((Table.mem_rows_iff _ _ _).mpr hrow)
    rw [inFlightAt_iff.mpr ⟨row, hrow, hflight⟩] at hrows
    exact inFlightAt_iff.mp hrows

def commitsInTime (config : Config Db ActorWrite ActorLock ActorError) : Action ActorCall → Bool
  | .commit sid => (config.sessions.get sid).all fun session =>
    notOvertakenIn session.start config.committed session.trail.writes
  | _ => true

theorem commitsNotOvertaken_of_check (hc : commitsInTime c action) :
    CommitsNotOvertaken c action := by
  cases action with
  | commit sid =>
    intro session hget
    simp only [commitsInTime, hget, all_some] at hc
    exact notOvertaken_of_check hc
  | _ => trivial

theorem sharedWork_stands : OwnersStand sharedWork := by
  rintro id actorId ⟨row, hrow, -, hopen⟩ -
  have hclosed : ∀ pair ∈ sharedWork.commitments.rows, pair.2.state.isOpen = false := by
    decide +kernel
  rw [hclosed (id, row) ((Table.mem_rows_iff _ _ _).mpr hrow)] at hopen
  cases hopen

theorem sharedWork_fresh {id : Nat} (hi : 10 ≤ id) : sharedWork.commitments.get id = none := by
  have h1 : id ≠ 1 := by omega
  have h2 : id ≠ 2 := by omega
  simp [sharedWork, proposedWork, Table.get_put, h1, h2]

/-- Actor 8 is deactivated beside a transition of the other actor's commitment. The transition of
their own, which has read them as active before, is still open: it has been overtaken. -/
theorem ownersStand_of_notOvertaken_beside :
    ∃ config, Transition.Reach actorStep CommitsNotOvertaken ⟨sharedWork, 10, ∅⟩ config ∧
      InFlight config.committed 1 7 ∧ IsInactive config.committed 8 ∧
      OwnersStand config.committed ∧ ∃ session, config.sessions.get 2 = some session ∧
        ¬ NotOvertaken session.start config.committed session.trail.writes := by
  have hrun : (runChecked actorStep commitsInTime ⟨sharedWork, 10, ∅⟩
      ([.begin 0 (activateCall 1), .begin 2 (activateCall 2), .begin 1 (deactivateCall 8),
        .statement 2, .statement 2, .statement 0, .statement 0, .statement 1, .statement 1,
        .statement 1, .commit 1] ++ List.replicate 4 (.statement 0) ++ [.commit 0] ++
          List.replicate 4 (.statement 2))).any fun config =>
        inFlightAt config.committed 1 7 && inactiveAt config.committed 8 &&
          (config.sessions.get 2).any fun session =>
            inFlightAt (actorSchema.view config.committed session.trail.writes) 2 8 &&
              inactiveAt (actorSchema.view config.committed session.trail.writes) 8 := by
    decide +kernel
  obtain ⟨config, hconfig, hfinal⟩ := (any_eq_true _ _).mp hrun
  obtain ⟨hcommitted, hopen⟩ := Bool.and_eq_true_iff.mp hfinal
  obtain ⟨hflight, hinactive⟩ := Bool.and_eq_true_iff.mp hcommitted
  obtain ⟨session, hsession, hview⟩ := (any_eq_true _ _).mp hopen
  obtain ⟨hlate, hleft⟩ := Bool.and_eq_true_iff.mp hview
  have hreach := reach_of_runChecked (fun _ _ => commitsNotOvertaken_of_check) hconfig
  obtain ⟨hstand, hcommits⟩ :=
    ownersStand_of_notOvertaken sharedWork_stands (fun _ => sharedWork_fresh) hreach
  refine ⟨config, hreach, inFlightAt_iff.mp hflight, inactiveAt_iff.mp hinactive, hstand, session,
    hsession, fun hintime => ?_⟩
  exact (hcommits 2 session hsession).mpr hintime 2 8 (inFlightAt_iff.mp hlate)
    (inactiveAt_iff.mp hleft)

/-- The owner is deactivated between the check of a transition and its commit. -/
theorem inactive_owner_committed :
    ∃ config, Transition.Reach actorStep anyStep ⟨proposedWork, 10, ∅⟩ config ∧
      ¬ OwnersStand config.committed := by
  have hrun : (runAll actorStep ⟨proposedWork, 10, ∅⟩
      ([.begin 0 (activateCall 1), .statement 0, .statement 0, .begin 1 (deactivateCall 7),
        .statement 1,
        .statement 1, .statement 1, .commit 1] ++ List.replicate 4 (.statement 0) ++
          [.commit 0])).any
        (fun config => inFlightAt config.committed 1 7 && inactiveAt config.committed 7) := by
    decide +kernel
  obtain ⟨config, hconfig, hbroken⟩ := (any_eq_true _ _).mp hrun
  obtain ⟨hflight, hinactive⟩ := Bool.and_eq_true_iff.mp hbroken
  exact ⟨config, reach_of_run hconfig,
    fun hstand => hstand 1 7 (inFlightAt_iff.mp hflight) (inactiveAt_iff.mp hinactive)⟩

end FyralisCore.Actors
