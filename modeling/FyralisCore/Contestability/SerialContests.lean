import FyralisCore.Contestability.Contest
import FyralisCore.Lib.CommitDiscipline
import Mathlib.Data.List.Permutation

/-! Contestations under READ COMMITTED. The counter is updated in place, the
confidence and the readings are overwritten with what was computed from an
unlocked snapshot. As long as no call that overwrites a column has read it
before another contestation of the model committed, and none overrides a
confidence below the floor, the committed calls are serial in commit order. -/
namespace FyralisCore.Contestability

open Relational Transaction ReadCommitted List Option Discipline Tx Transition ModelRow
open Acts (Json)

section

variable {db : Db} {write : Write} {writes : List Write} {modelId : Nat}

def rowEffect (writes : List Write) (modelId : Nat) (row : ModelRow) : ModelRow :=
  writes.foldl (fun row write => if write.target = some modelId then write.onRow row else row) row

def inserted (writes : List Write) : List ObservationRow :=
  writes.filterMap fun
    | .insertObservation row => some row
    | _ => none

theorem get_apply : (db.apply write).models.get modelId = (db.models.get modelId).map fun row =>
      if write.target = some modelId then write.onRow row else row := by
  cases write with
  | incrementContestedCount id | setConfidence id _ | setSignalReadings id _ =>
    simp only [Db.apply, Db.updateModel, Table.get_update, Write.target, Option.some.injEq]
    by_cases hs : modelId = id
    · simp [hs]
    · simp [hs, Ne.symm hs]
  | _ => simp [Db.apply, Write.target]

theorem get_view : (contestSchema.view db writes).models.get modelId =
      (db.models.get modelId).map (rowEffect writes modelId) := by
  induction writes generalizing db with
  | nil =>
    have hn : rowEffect [] modelId = id := rfl
    simp [hn]
  | cons write rest ih =>
    rw [Schema.view, foldl_cons, ← Schema.view, ih]
    simp only [contestSchema, get_apply, Option.map_map]
    rfl

theorem observations_view :
    (contestSchema.view db writes).observations = db.observations ++ inserted writes := by
  induction writes generalizing db with
  | nil => simp [inserted]
  | cons write rest ih =>
    rw [Schema.view, foldl_cons, ← Schema.view, ih]
    cases write <;> simp [contestSchema, Db.apply, Db.updateModel, inserted]

theorem access_view : (contestSchema.view db writes).access = db.access := by
  induction writes generalizing db with
  | nil => rfl
  | cons write rest ih =>
    rw [Schema.view, foldl_cons, ← Schema.view, ih]
    cases write <;> rfl

end

def ModelRow.fixed (row : ModelRow) : Nat × List Nat × List Access.ScopeEntity :=
  (row.tenantId, row.scopeActors, row.scopeEntities)

structure SameScopes (s t : Db) : Prop where
  access : t.access = s.access
  fixed : ∀ id, (t.models.get id).map fixed = (s.models.get id).map fixed

variable {s t : Db} {call : ContestCall}

theorem SameScopes.trans (h1 : SameScopes s t) (h2 : SameScopes t u) : SameScopes s u :=
  ⟨h2.access.trans h1.access, fun id => (h2.fixed id).trans (h1.fixed id)⟩

structure Accepted (db : Db) (call : ContestCall) : Prop where
  valid : validateContestationInput call.input = .ok ()
  stands : (standing db call.input.contestorActorId call.input.modelId).isSome
  found : ∃ row, db.models.get call.input.modelId = some row ∧ row.tenantId = call.input.tenantId

theorem SameScopes.row (hs : SameScopes s t) {id : Nat} {row : ModelRow}
    (hr : s.models.get id = some row) :
    ∃ row', t.models.get id = some row' ∧ row'.fixed = row.fixed := by
  have hf := hs.fixed id
  rw [hr, map_some] at hf
  exact map_eq_some_iff.mp hf

theorem standing_congr (hsm : SameScopes s t) (actorId modelId : Nat) :
    standing t actorId modelId = standing s actorId modelId := by
  unfold standing
  have hf := hsm.fixed modelId
  cases hs : s.models.get modelId with
  | none =>
    rw [hs, map_none, map_eq_none_iff] at hf
    simp [hf]
  | some row =>
    obtain ⟨row', ht, he⟩ := hsm.row hs
    simp only [fixed, Prod.mk.injEq] at he
    rw [ht]
    simp [he, hsm.access]

theorem Accepted.congr (ha : Accepted s call) (hs : SameScopes s t) : Accepted t call where
  valid := ha.valid
  stands := by
    rw [standing_congr hs]
    exact ha.stands
  found := by
    obtain ⟨row, hr, ht⟩ := ha.found
    obtain ⟨row', hr', he⟩ := hs.row hr
    simp only [fixed, Prod.mk.injEq] at he
    exact ⟨row', hr', he.1.trans ht⟩

def overrideWrites (input : ContestationInput) (snapshot : ModelSnapshot) (note : NoteRow) :
    List Write :=
  if input.overrides snapshot.scopeActors then
    [.setConfidence input.modelId (overridden input snapshot), .insertNote note]
  else []

def readingWrites (call : ContestCall) (signalReadings : Option Json) (note : NoteRow) :
    List Write :=
  if call.input.contestationKind = .reading then
    [.setSignalReadings call.input.modelId
      (.array (markContested call (coerceSignalReadings signalReadings))), .insertNote note]
  else []

def callWrites (call : ContestCall) (snapshot : ModelSnapshot) (observationId : Nat)
    (overrideNote readingNote : NoteRow) (trigger : TriggerRow) : List Write :=
  [.took call.input snapshot, .insertObservation (observationOf call observationId),
    .incrementContestedCount call.input.modelId] ++
  overrideWrites call.input snapshot overrideNote ++
  readingWrites call snapshot.signalReadings readingNote ++
  [.insertTrigger trigger]

/-- The snapshot agrees with the row on what the call overwrites. -/
structure Current (input : ContestationInput) (snapshot : ModelSnapshot) (row : ModelRow) :
    Prop where
  scope : snapshot.scopeActors = row.scopeActors
  confidence : input.overrides row.scopeActors →
    snapshot.previousConfidence = row.confidence
  readings : input.contestationKind = .reading → snapshot.signalReadings = row.signalReadings

theorem current_snapshot (input : ContestationInput) (row : ModelRow) :
    Current input row.snapshot row :=
  ⟨rfl, fun _ => rfl, fun _ => rfl⟩

section

variable {call : ContestCall} {snapshot : ModelSnapshot} {observationId : Nat}
  {overrideNote readingNote : NoteRow} {trigger : TriggerRow}

theorem rowEffect_callWrites (hcr : Current call.input snapshot row) :
    rowEffect (callWrites call snapshot observationId overrideNote readingNote trigger)
      call.input.modelId row = contested call row := by
  obtain ⟨hs, hc, hrd⟩ := hcr
  unfold callWrites overrideWrites readingWrites rowEffect contested
  rw [hs]
  by_cases ho : call.input.overrides row.scopeActors
  · have hl : call.input.contestationKind ≠ .reading := by
      intro hr
      simp [ContestationInput.overrides, hr] at ho
    have hv : overridden call.input snapshot = overridden call.input row.snapshot := by
      simp [overridden, hs, hc ho, ModelRow.snapshot]
    simp [ho, hl, hv, Write.target, Write.onRow]
  · by_cases hr : call.input.contestationKind = .reading
    · simp [ho, hr, hrd hr, Write.target, Write.onRow]
    · simp [ho, hr, Write.target, Write.onRow]

theorem rowEffect_callWrites_ne (hn : modelId ≠ call.input.modelId) (row : ModelRow) :
    rowEffect (callWrites call snapshot observationId overrideNote readingNote trigger) modelId
      row = row := by
  have ho : call.input.modelId ≠ modelId := Ne.symm hn
  unfold callWrites overrideWrites readingWrites rowEffect
  split <;> split <;> simp [Write.target, ho]

theorem inserted_callWrites :
    inserted (callWrites call snapshot observationId overrideNote readingNote trigger) =
      [observationOf call observationId] := by
  unfold callWrites overrideWrites readingWrites inserted
  split <;> split <;> rfl

end

def serial (start : Db) (supply : Nat) (calls : List ContestCall) : Database Db :=
  calls.foldl (fun db call => db.run Db.apply (contest call)) ⟨start, supply⟩

theorem serial_append_one (start : Db) (supply : Nat) (calls : List ContestCall)
    (call : ContestCall) : serial start supply (calls ++ [call]) =
      (serial start supply calls).run Db.apply (contest call) := by
  simp [serial]

section

variable {db : Db} {supply : Nat} {call : ContestCall} {snapshot : ModelSnapshot}

variable (db supply snapshot) in
private theorem returns_override (input : ContestationInput) : ∃ r note left,
      Tx.Returns Db.apply (applyFirstPersonOverride input snapshot) db supply r
        (contestSchema.view db (overrideWrites input snapshot note)) left := by
  unfold applyFirstPersonOverride overrideWrites
  split
  · exact ⟨_, _, _, rfl⟩
  · exact ⟨_, ⟨0, 0, "", 0⟩, _, rfl⟩

variable (db supply call snapshot) in
private theorem returns_reading : ∃ note left,
      Tx.Returns Db.apply (Tx.when (call.input.contestationKind = .reading)
        (markReadingContested call snapshot.signalReadings)) db supply ()
        (contestSchema.view db (readingWrites call snapshot.signalReadings note)) left := by
  unfold readingWrites
  by_cases hr : call.input.contestationKind = .reading
  · simp only [hr, decide_true, Tx.when, ↓reduceIte]
    exact ⟨_, _, rfl⟩
  · simp only [hr, decide_false, Tx.when]
    exact ⟨⟨0, 0, "", 0⟩, _, rfl⟩

variable (supply) in
private theorem returns_snapshot (hr : db.models.get call.input.modelId = some row)
    (ht : row.tenantId = call.input.tenantId) :
    Tx.Returns Db.apply (loadModelSnapshot call.input) db supply row.snapshot
      (contestSchema.view db [.took call.input row.snapshot]) supply := by
  refine returns_query.mpr ⟨[.took call.input row.snapshot], ?_, rfl, rfl⟩
  simp [hr, ht]

end

variable {db start : Db} {supply : Nat}

theorem returns_contest (ha : Accepted db call)
    (hr : db.models.get call.input.modelId = some row) (supply : Nat) :
    ∃ observationId overrideNote readingNote trigger left,
      Tx.Returns Db.apply (contest call) db supply () (contestSchema.view db
          (callWrites call row.snapshot observationId overrideNote readingNote trigger)) left := by
  obtain ⟨row', hr', ht⟩ := ha.found
  rw [hr] at hr'
  cases hr'
  obtain ⟨basis, hb⟩ := isSome_iff_exists.mp ha.stands
  have hs := returns_snapshot supply hr ht
  let counted := contestSchema.view db [.took call.input row.snapshot,
    .insertObservation (observationOf call supply), .incrementContestedCount call.input.modelId]
  obtain ⟨override, overrideNote, afterOverride, ho⟩ :=
    returns_override counted (supply + 1) row.snapshot call.input
  obtain ⟨readingNote, afterReading, hrd⟩ :=
    returns_reading
      (contestSchema.view counted (overrideWrites call.input row.snapshot overrideNote))
      afterOverride call row.snapshot
  refine ⟨supply, overrideNote, readingNote, triggerOf call.input supply afterReading,
    afterReading + 1, ?_⟩
  rw [callWrites, contestSchema.view_append, contestSchema.view_append, contestSchema.view_append]
  let r : ContestationResult :=
    { observationId := supply
      triggerId := afterReading
      newConfidence := override.newConfidence
      previousConfidence := row.snapshot.previousConfidence
      standingBasis := basis
      overrideApplied := override.applied }
  refine returns_bind.mpr ⟨r, _, _, ?_, rfl⟩
  refine returns_bind.mpr ⟨(), db, supply, returns_ofExcept.mpr ⟨ha.valid, rfl, rfl⟩, ?_⟩
  refine returns_bind.mpr ⟨basis, db, supply,
    returns_read_bind.mpr (returns_orRaise.mpr ⟨hb, rfl, rfl⟩), ?_⟩
  refine returns_bind.mpr ⟨_, _, _, hs, ?_⟩
  refine returns_bind.mpr ⟨supply, _, supply + 1, rfl, ?_⟩
  refine returns_bind.mpr ⟨(), counted, _, rfl, ?_⟩
  refine returns_bind.mpr ⟨_, _, _, ho, ?_⟩
  refine returns_bind.mpr ⟨_, _, _, hrd, ?_⟩
  exact returns_bind.mpr ⟨afterReading, _, _, rfl, rfl⟩

theorem run_contest {db : Database Db} (ha : Accepted db.state call)
    (hr : db.state.models.get call.input.modelId = some row) :
    (db.run Db.apply (contest call)).state.access = db.state.access ∧ ∀ id,
      (db.run Db.apply (contest call)).state.models.get id =
        if id = call.input.modelId then some (contested call row) else db.state.models.get id := by
  obtain ⟨observationId, overrideNote, readingNote, trigger, left, hrt⟩ :=
    returns_contest ha hr db.supply
  rw [Database.run_of_returns hrt]
  refine ⟨access_view, fun id => ?_⟩
  rw [get_view]
  by_cases hs : id = call.input.modelId
  · rw [hs, hr, if_pos rfl, Option.map_some, rowEffect_callWrites (current_snapshot call.input row)]
  · have hn : rowEffect (callWrites call row.snapshot observationId overrideNote readingNote
        trigger) id = fun row => row := funext fun row => rowEffect_callWrites_ne hs row
    rw [if_neg hs, hn, Option.map_id']

def committedCalls (start db : Db) : List ContestCall :=
  (db.observations.drop start.observations.length).map ObservationRow.call

def NeverRaises (start : Db) (supply : Nat) (calls : List ContestCall) : Prop :=
  ∀ earlier call later, calls = earlier ++ call :: later → ∀ id before after,
    (serial start supply earlier).state.models.get id = some before →
    (serial start supply (earlier ++ [call])).state.models.get id = some after →
    after.confidence ≤ before.confidence

/-- The committed models are those of running the committed calls one after the
other in some order, along which no confidence increases. -/
def Serializable (start : Db) (supply : Nat) (db : Db) : Prop :=
  ∃ order, order.Perm (committedCalls start db) ∧ NeverRaises start supply order ∧
    ∀ id, db.models.get id = (serial start supply order).state.models.get id

structure InOrder (start : Db) (supply : Nat) (db : Db) : Prop where
  observed : start.observations <+: db.observations
  lowers : NeverRaises start supply (committedCalls start db)
  access : (serial start supply (committedCalls start db)).state.access = db.access
  models : ∀ id, db.models.get id =
    (serial start supply (committedCalls start db)).state.models.get id

theorem InOrder.serializable (hi : InOrder start supply db) : Serializable start supply db :=
  ⟨_, List.Perm.refl _, hi.lowers, hi.models⟩

structure Contested (db : Db) (trail : Trail Write RowRef) (call : ContestCall)
    (row : ModelRow) : Prop where
  accepted : Accepted db call
  held : RowRef.model call.input.modelId ∈ trail.locks
  found : db.models.get call.input.modelId = some row
  observed : ∃ id, inserted trail.writes = [observationOf call id]
  effect : rowEffect trail.writes call.input.modelId row = contested call row
  others : ∀ id, id ≠ call.input.modelId → rowEffect trail.writes id = fun row => row
  lowers : (contested call row).confidence ≤ row.confidence

/-- What a session relies on: nobody changes a fixed column, or a row it holds. -/
structure Steady (trail : Trail Write RowRef) (s t : Db) : Prop where
  scopes : SameScopes s t
  held : ∀ id, RowRef.model id ∈ trail.locks → t.models.get id = s.models.get id

section

variable {db other : Db} {trail : Trail Write RowRef} {call : ContestCall} {row : ModelRow}

section

variable (hc : Contested db trail call row)

include hc

theorem Contested.stable (hs : Steady trail db other) : Contested other trail call row where
  accepted := hc.accepted.congr hs.scopes
  held := hc.held
  found := by
    rw [hs.held _ hc.held]
    exact hc.found
  observed := hc.observed
  effect := hc.effect
  others := hc.others
  lowers := hc.lowers

theorem Contested.get (id : Nat) : (contestSchema.view db trail.writes).models.get id =
      if id = call.input.modelId then some (contested call row) else db.models.get id := by
  rw [get_view]
  by_cases hs : id = call.input.modelId
  · rw [hs, hc.found, if_pos rfl, Option.map_some, hc.effect]
  · rw [if_neg hs, hc.others id hs, Option.map_id']

theorem Contested.sameScopes : SameScopes db (contestSchema.view db trail.writes) where
  access := access_view
  fixed := by
    intro id
    rw [hc.get]
    split
    · next hs =>
      subst hs
      rw [hc.found]
      rfl
    · rfl

end

end

variable {trail : Trail Write RowRef}

theorem committedCalls_view (hc : Contested db trail call row)
    (he : start.observations <+: db.observations) :
    committedCalls start (contestSchema.view db trail.writes) = committedCalls start db ++ [call] := by
  obtain ⟨id, hi⟩ := hc.observed
  unfold committedCalls
  rw [observations_view, hi, drop_append_of_le_length he.length_le, map_append]
  rfl

theorem neverRaises_append_one (hc : NeverRaises start supply calls)
    (hl : ∀ id before after, (serial start supply calls).state.models.get id = some before →
      (serial start supply (calls ++ [call])).state.models.get id = some after →
      after.confidence ≤ before.confidence) : NeverRaises start supply (calls ++ [call]) := by
  intro earlier other u he
  rcases eq_nil_or_concat u with rfl | ⟨rest, last, rfl⟩
  · obtain ⟨rfl, ho⟩ := append_inj' he rfl
    cases ho
    exact hl
  · have hs : calls ++ [call] = (earlier ++ other :: rest) ++ [last] := by
      rw [he]
      simp
    obtain ⟨hi, -⟩ := append_inj' hs rfl
    exact hc earlier other rest hi

theorem InOrder.commit {row : ModelRow} (hi : InOrder start supply db)
    (hct : Contested db trail call row) :
    InOrder start supply (contestSchema.view db trail.writes) := by
  have hc := committedCalls_view hct hi.observed
  have hs : SameScopes db (serial start supply (committedCalls start db)).state :=
    ⟨hi.access, fun id => by rw [hi.models]⟩
  have hr : (serial start supply (committedCalls start db)).state.models.get call.input.modelId =
      some row := by
    rw [← hi.models]
    exact hct.found
  obtain ⟨hac, hm⟩ := run_contest (hct.accepted.congr hs) hr
  have hg : ∀ id, (serial start supply
      (committedCalls start (contestSchema.view db trail.writes))).state.models.get id =
        if id = call.input.modelId then some (contested call row) else db.models.get id := by
    intro id
    rw [hc, serial_append_one, hm, hi.models]
  exact
    { observed := by
        rw [observations_view]
        exact hi.observed.trans (prefix_append _ _)
      lowers := by
        rw [hc]
        refine neverRaises_append_one hi.lowers fun id before after hb ha => ?_
        rw [← hi.models] at hb
        rw [← hc, hg] at ha
        split at ha
        · next hid =>
          rw [hid, hct.found] at hb
          cases hb
          cases ha
          exact hct.lowers
        · rw [hb] at ha
          cases ha
          exact le_rfl
      access := by
        rw [hc, serial_append_one, hac, hi.access, access_view]
      models := by
        intro id
        rw [hg, hct.get] }

/-- The row still has what the call read of the columns it overwrites, and an
override does not start below the floor. -/
def Untouched (input : ContestationInput) (snapshot : ModelSnapshot) (row : ModelRow) : Prop :=
  (input.overrides row.scopeActors →
    snapshot.previousConfidence = row.confidence ∧ overrideFloor ≤ row.confidence) ∧
  (input.contestationKind = .reading → snapshot.signalReadings = row.signalReadings)

/-- Asked of a session when it is about to update the row: it has read its
snapshot and inserted its observation, and holds no row yet. -/
def Promised (db : Db) (trail : Trail Write RowRef) : Prop :=
  trail.locks = [] → inserted trail.writes ≠ [] → ∀ input snapshot,
    trail.writes.head? = some (.took input snapshot) → ∀ row,
    db.models.get input.modelId = some row → Untouched input snapshot row

theorem Steady.refl (trail : Trail Write RowRef) (db : Db) : Steady trail db db :=
  ⟨⟨rfl, fun _ => rfl⟩, fun _ _ => rfl⟩

theorem Steady.trans (h1 : Steady trail s t) (h2 : Steady trail t u) : Steady trail s u :=
  ⟨h1.scopes.trans h2.scopes, fun id hh => (h2.held id hh).trans (h1.held id hh)⟩

def contestDiscipline (start : Db) (supply : Nat) : Discipline contestSchema where
  Good := InOrder start supply
  Rely := Steady
  Final db trail := ∃ call row, Contested db trail call row
  Unused _ _ := True
  Admits := Promised
  rely_refl := Steady.refl
  rely_trans := Steady.trans
  final_stable := by
    rintro s t trail - ⟨call, row, hcontested⟩ hsteady -
    exact ⟨call, row, hcontested.stable hsteady⟩
  good_commit := by
    rintro s trail hgood ⟨call, row, hcontested⟩
    exact hgood.commit hcontested
  rely_commit := by
    rintro s mine theirs - ⟨call, row, hcontested⟩ hdisjoint
    refine ⟨hcontested.sameScopes, fun id hheld => ?_⟩
    rw [hcontested.get, if_neg]
    rintro rfl
    exact hdisjoint.1 _ hheld hcontested.held
  unused_commit _ _ _ _ := trivial

section Session

variable {start : Db} {supply : Nat} {call : ContestCall} {snapshot : ModelSnapshot}
  {row : ModelRow} {s t : Db} {trail : Trail Write RowRef}

structure Holding (call : ContestCall) (snapshot : ModelSnapshot) (row : ModelRow) (db : Db)
    (trail : Trail Write RowRef) : Prop where
  accepted : Accepted db call
  held : RowRef.model call.input.modelId ∈ trail.locks
  found : db.models.get call.input.modelId = some row
  current : Current call.input snapshot row
  lowers : (contested call row).confidence ≤ row.confidence

section

variable (hh : Holding call snapshot row s trail)

include hh

theorem Holding.steady (hs : Steady trail s t) : Holding call snapshot row t trail where
  accepted := hh.accepted.congr hs.scopes
  held := hh.held
  found := by
    rw [hs.held _ hh.held]
    exact hh.found
  current := hh.current
  lowers := hh.lowers

theorem Holding.extend (lock : Option RowRef) (writes : List Write) : Holding call snapshot row s
    (trail.extend lock writes) :=
  { hh with held := mem_append_right _ hh.held }

theorem Holding.mint (id : Nat) : Holding call snapshot row s (trail.mint id) :=
  ⟨hh.accepted, hh.held, hh.found, hh.current, hh.lowers⟩

end

variable {Q : Unit → Db → Trail Write RowRef → Prop} {write : Write}

section

variable (hh : Holding call snapshot row s trail)

include hh

section

variable (hQ : ∀ t u, Holding call snapshot row t u → u.writes = trail.writes ++ [write] → Q () t u)

include hQ

theorem wp_insert_held : (contestDiscipline start supply).wp Q (insert write) s trail := by
  refine wp_query fun t hs _ _ writes v ha => ?_
  cases ha
  exact hQ _ _ ((hh.steady hs).extend _ _) rfl

theorem wp_updateModel_held : (contestDiscipline start supply).wp Q
    (updateModel modelId write) s trail := by
  refine wp_query fun t hs _ _ writes v ha => ?_
  cases ha
  exact hQ _ _ ((hh.steady hs).extend _ _) rfl

end

theorem wp_addNote_held (hQ : ∀ note t later, Holding call snapshot row t later → later.writes =
    trail.writes ++ [.insertNote note] → Q () t later) : (contestDiscipline start supply).wp Q
    (addNote modelId text authoredBy) s trail := by
  refine wp_bind.mpr (wp_newId fun t id hs _ _ _ => ?_)
  exact wp_insert_held ((hh.steady hs).mint id) fun u later hl hw =>
    hQ _ u later hl hw

theorem wp_override_held {Q : OverrideResult → Db → Trail Write RowRef → Prop}
    (hQ : ∀ r note t later, Holding call snapshot row t later → later.writes =
    trail.writes ++ overrideWrites call.input snapshot note → Q r t later) :
    (contestDiscipline start supply).wp Q
    (applyFirstPersonOverride call.input snapshot) s trail := by
  unfold overrideWrites at hQ
  unfold applyFirstPersonOverride
  split
  · next ho =>
    simp only [ho, ↓reduceIte] at hQ
    refine wp_bind.mpr (wp_updateModel_held hh fun t later hlt hw => ?_)
    refine wp_bind.mpr (wp_addNote_held hlt fun note u last hl hn => ?_)
    exact hQ _ note u last hl (by rw [hn, hw, append_assoc]; rfl)
  · next ho =>
    simp only [ho] at hQ
    exact hQ _ ⟨0, 0, "", 0⟩ s trail hh (by simp)

theorem wp_reading_held (hQ : ∀ note t later, Holding call snapshot row t later → later.writes =
    trail.writes ++ readingWrites call snapshot.signalReadings note → Q () t later) :
    (contestDiscipline start supply).wp Q (Tx.when (call.input.contestationKind =
    .reading) (markReadingContested call snapshot.signalReadings)) s trail := by
  unfold readingWrites at hQ
  refine wp_when (fun hr => ?_) fun hs => ?_
  · simp only [of_decide_eq_true hr, ↓reduceIte] at hQ
    refine wp_bind.mpr (wp_updateModel_held hh fun t later hlt hw => ?_)
    refine wp_addNote_held hlt fun note u last hl hn => ?_
    exact hQ note u last hl (by rw [hn, hw, append_assoc]; rfl)
  · simp only [of_decide_eq_false hs] at hQ
    exact hQ ⟨0, 0, "", 0⟩ s trail hh (by simp)

end

variable {observationId : Nat}

theorem wp_counted (hh : Holding call snapshot row s trail)
    (hw : trail.writes = [.took call.input snapshot,
      .insertObservation (observationOf call observationId),
      .incrementContestedCount call.input.modelId]) :
    (contestDiscipline start supply).wp
      (fun _ db u => ∃ overrideNote readingNote trigger, Holding call snapshot row db u ∧
        u.writes = callWrites call snapshot observationId overrideNote readingNote trigger)
      ((applyFirstPersonOverride call.input snapshot).bind fun override =>
        (Tx.when (call.input.contestationKind = .reading)
          (markReadingContested call snapshot.signalReadings)).bind fun _ =>
        (enqueueContestationTrigger call.input observationId).bind fun triggerId =>
        Tx.done
          ({ observationId
             triggerId
             newConfidence := override.newConfidence
             previousConfidence := snapshot.previousConfidence
             standingBasis := basis
             overrideApplied := override.applied } : ContestationResult)) s trail := by
  refine wp_bind.mpr (wp_override_held hh fun _ overrideNote t₁ trail₁ h₁ hw₁ => ?_)
  refine wp_bind.mpr (wp_reading_held h₁ fun readingNote t₂ trail₂ h₂ hw₂ => ?_)
  refine wp_bind.mpr (wp_bind.mpr (wp_newId fun t₃ id hs _ _ _ => ?_))
  refine wp_bind.mpr (wp_insert_held ((h₂.steady hs).mint id)
    fun t₄ trail₄ h₄ hw₄ => ?_)
  refine ⟨overrideNote, readingNote, triggerOf call.input observationId id, h₄, ?_⟩
  have hm : (trail₂.mint id).writes = trail₂.writes := rfl
  rw [hw₄, hm, hw₂, hw₁, hw]
  rfl

theorem Holding.contested (hh : Holding call snapshot row s trail) (hw : trail.writes =
      callWrites call snapshot observationId overrideNote readingNote trigger) :
    Contested s trail call row where
  accepted := hh.accepted
  held := hh.held
  found := hh.found
  observed := ⟨observationId, by rw [hw, inserted_callWrites]⟩
  effect := by rw [hw, rowEffect_callWrites hh.current]
  others := by
    intro id hn
    funext other
    rw [hw, rowEffect_callWrites_ne hn]
  lowers := hh.lowers

structure Waiting (call : ContestCall) (snapshot : ModelSnapshot) (db : Db) : Prop where
  accepted : Accepted db call
  scope : ∃ row, db.models.get call.input.modelId = some row ∧
    snapshot.scopeActors = row.scopeActors

theorem Waiting.congr (hw : Waiting call snapshot s) (hs : SameScopes s t) :
    Waiting call snapshot t where
  accepted := hw.accepted.congr hs
  scope := by
    obtain ⟨row, hr, hsc⟩ := hw.scope
    obtain ⟨row', hr', he⟩ := hs.row hr
    simp only [fixed, Prod.mk.injEq] at he
    exact ⟨row', hr', hsc.trans he.2.1.symm⟩

theorem wp_counter (hw : Waiting call snapshot s) (hQ : ∀ row t u, Holding call snapshot row t u →
      u.writes = [.took call.input snapshot, .insertObservation (observationOf call observationId),
        .incrementContestedCount call.input.modelId] → Q () t u) :
    (contestDiscipline start supply).wp Q
      (updateModel call.input.modelId (.incrementContestedCount call.input.modelId)) s
      ⟨[.took call.input snapshot, .insertObservation (observationOf call observationId)], [],
        minted⟩ := by
  refine wp_query fun t hst _ hp writes v ha => ?_
  cases ha
  have ht := hw.congr hst.scopes
  obtain ⟨row, hr, hs⟩ := ht.scope
  have hu : Untouched call.input snapshot row :=
    hp rfl (cons_ne_nil _ _) _ _ rfl row hr
  refine hQ row _ _ ?_ rfl
  exact
    { accepted := ht.accepted
      held := by
        refine mem_append_left _ (mem_toList.mpr ?_)
        rw [get_view, hr]
        rfl
      found := hr
      current := ⟨hs, fun ho => (hu.1 ho).1, hu.2⟩
      lowers := (contested_confidence_le_iff call row).mpr
        fun ho => (hu.1 ho).2 }

end Session

theorem contestDiscipline_sound (start : Db) (supply : Nat) :
    (contestDiscipline start supply).Sound := by
  intro call s _ _
  refine wp_seq (R := fun _ => (contestDiscipline start supply).Final) ?_
    fun _ _ _ hf => hf
  refine wp_bind.mpr (wp_ofExcept fun _ hv => ?_)
  refine wp_bind.mpr (wp_bind.mpr (wp_read fun t₁ _ _ _ => ?_))
  refine wp_orRaise fun basis hb => ?_
  refine wp_bind.mpr (wp_query fun t₂ hstd _ _ writes snapshot ha => ?_)
  have hwt : Waiting call snapshot t₂ ∧ writes = [.took call.input snapshot] := by
    split at ha
    · cases ha
    · next row hr =>
      split at ha
      · cases ha
      · next ht =>
        cases ha
        have hsd : (standing t₂ call.input.contestorActorId call.input.modelId).isSome := by
          rw [standing_congr hstd.scopes]
          exact isSome_iff_exists.mpr ⟨basis, hb⟩
        exact ⟨⟨⟨hv, hsd, row, hr, not_not.mp ht⟩, row, hr, rfl⟩, rfl⟩
  obtain ⟨hwt, rfl⟩ := hwt
  refine wp_bind.mpr (wp_bind.mpr (wp_newId fun t₃ id hs _ _ _ => ?_))
  refine wp_bind.mpr (wp_query fun t₄ hst _ _ writes _ hi => ?_)
  cases hi
  refine wp_bind.mpr (wp_counter ((hwt.congr hs.scopes).congr hst.scopes) fun row t₅ u hh hw => ?_)
  refine wp_mono (wp_counted hh hw) ?_
  rintro _ t₆ last ⟨overrideNote, readingNote, trigger, hl, hls⟩
  exact ⟨call, row, hl.contested hls⟩

/-- The steps that keep the promise: a session updates the row only while its
snapshot is current. -/
def Undisturbed (config : Config Db Write RowRef ContestationError) : Action ContestCall → Prop
  | .statement sid => ∀ session, config.sessions.get sid = some session →
      Promised config.committed session.trail
  | _ => True

/-- In every such run the committed models are those of the committed calls one
after the other, and none of these raises a confidence. -/
theorem contestations_serializable {start : Db} {supply : Nat}
    {config : Config Db Write RowRef ContestationError}
    (hreach : Transition.Reach (Config.step contestSchema) Undisturbed ⟨start, supply, ∅⟩ config) :
    Serializable start supply config.committed := by
  have hadmitted : ∀ config action, Undisturbed config action →
      (contestDiscipline start supply).Admitted config action := by
    intro config action hundisturbed
    cases action with
    | begin sid call => trivial
    | statement sid => exact hundisturbed
    | commit sid => trivial
    | rollback sid => trivial
  have hgood : InOrder start supply start :=
    { observed := prefix_rfl
      lowers := by
        intro earlier call later heq
        simp [committedCalls] at heq
      access := by simp [committedCalls, serial]
      models := by simp [committedCalls, serial] }
  exact (coherent_of_reach (contestDiscipline_sound start supply) hadmitted hgood
    (fun _ _ => trivial) hreach).good.serializable

private def sharedModel : Db where
  models := Table.put ∅ 1
    { tenantId := 0, scopeActors := [7, 8], confidence := 1 / 2, contestedCount := 0 }

private def contestBy (actorId : Nat) (kind : ContestationKind) : ContestCall where
  input :=
    { modelId := 1, contestorActorId := actorId, tenantId := 0, contestationKind := kind
      rationale := "not so" }
  now := "2026-01-01T00:00:00+00:00"

private def steps (sid count : Nat) : List (Action ContestCall) :=
  List.replicate count (.statement sid) ++ [.commit sid]

private def undisturbed (config : Config Db Write RowRef ContestationError) :
    Action ContestCall → Bool
  | .statement sid =>
    (config.sessions.get sid).all fun session =>
      !session.trail.locks.isEmpty || (inserted session.trail.writes).isEmpty ||
        match session.trail.writes.head? with
        | some (.took input snapshot) =>
          (config.committed.models.get input.modelId).all fun row =>
            input.contestationKind ≠ .reading && (!input.overrides row.scopeActors ||
              (snapshot.previousConfidence = row.confidence && overrideFloor ≤ row.confidence))
        | _ => true
  | _ => true

private theorem undisturbed_of_check (c : Config Db Write RowRef ContestationError)
    (action : Action ContestCall) (hc : undisturbed c action) :
    Undisturbed c action := by
  cases action with
  | statement sid =>
    intro session hs hl hi input snapshot hh row hr
    simp only [undisturbed, hs, hl, hh, hr, all_some] at hc
    simp only [List.isEmpty_nil, Bool.not_true, Bool.false_or, Bool.or_eq_true,
      List.isEmpty_iff, hi, false_or, Bool.and_eq_true, decide_eq_true_eq,
      Bool.not_eq_true'] at hc
    obtain ⟨hk, ho⟩ := hc
    refine ⟨fun hov => ?_, fun hrd => absurd hrd hk⟩
    exact ho.resolve_left (by simp [hov])
  | _ => trivial

private def columns (db : Db) : Option (Nat × Rat) :=
  (db.models.get 1).map fun row => (row.contestedCount, row.confidence)

/-- Actor 9 is the manager of the first subject. -/
private def managedModel : Db :=
  { sharedModel with
    access := { actors := Table.put ∅ 7 { tenantId := 0, managerId := some 9 } } }

/-- A subject overrides the model's confidence while their manager contests it: both have taken
their snapshot before either updates the row. -/
theorem contestations_serializable_two : ∃ config : Config Db Write RowRef ContestationError,
    columns config.committed = some (2, 15 / 100) ∧
      Serializable managedModel 0 config.committed := by
  let actions := .begin 0 (contestBy 7 .belief) :: .begin 1 (contestBy 9 .belief) ::
    List.replicate 2 (.statement 0) ++ List.replicate 2 (.statement 1) ++ steps 0 8 ++ steps 1 5
  have hsome : (runChecked (Config.step contestSchema) undisturbed
      ⟨managedModel, 0, ∅⟩ actions).isSome := by decide +kernel
  obtain ⟨config, hrun⟩ := isSome_iff_exists.mp hsome
  have hcolumns : (runChecked (Config.step contestSchema) undisturbed
      ⟨managedModel, 0, ∅⟩ actions).map (fun config => columns config.committed) =
      some (some (2, 15 / 100)) := by decide +kernel
  rw [hrun, map_some, Option.some.injEq] at hcolumns
  exact ⟨config, hcolumns, contestations_serializable
    (reach_of_runChecked undisturbed_of_check hrun)⟩

private def readings (db : Db) : Nat :=
  match (db.models.get 1).bind signalReadings with
  | some (.array entries) => entries.length
  | _ => 0

/-- Two actors contest readings; both have taken their snapshot before either
updates the row. -/
theorem contested_reading_lost :
    ¬ ∀ (start : Db) (supply : Nat) (config : Config Db Write RowRef ContestationError),
      Transition.Reach (Config.step contestSchema) anyStep ⟨start, supply, ∅⟩ config →
      Serializable start supply config.committed := by
  intro hall
  let actions := .begin 0 (contestBy 7 .reading) :: .begin 1 (contestBy 8 .reading) ::
    List.replicate 2 (.statement 0) ++ List.replicate 2 (.statement 1) ++ steps 0 8 ++ steps 1 8
  have hrun : ∃ config, runAll (Config.step contestSchema) ⟨sharedModel, 0, ∅⟩ actions =
      some config ∧ readings config.committed = 1 ∧ committedCalls sharedModel config.committed =
        [contestBy 7 .reading, contestBy 8 .reading] := ⟨_, rfl, by decide +kernel, rfl⟩
  obtain ⟨config, hrun, hone, hcalls⟩ := hrun
  obtain ⟨order, hperm, -, hmodels⟩ := hall _ _ _ (reach_of_run hrun)
  rw [hcalls] at hperm
  have htwo : readings (serial sharedModel 0 order).state = 2 := by
    rcases perm_pair.mp hperm with rfl | rfl <;> decide +kernel
  have hsame : readings config.committed = readings (serial sharedModel 0 order).state := by
    simp [readings, hmodels]
  omega

end FyralisCore.Contestability
