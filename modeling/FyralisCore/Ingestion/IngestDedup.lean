import FyralisCore.Lib.CommitDiscipline
import FyralisCore.Ingestion.Ingest

/-! One observation an external event. The unique index would let the same event
in under another `occurred_at`; what keeps it out is the advisory lock, which is
held from before the first look until the transaction ends. -/
namespace FyralisCore.Ingestion

open Relational Transaction Transition ReadCommitted List Discipline Table IngestAnswer

variable {J V : Type} {db s t : IngestDb J V} {digest : String → Nat} {key : DedupKey} {id : Nat}
  {row : Observation J V} {call : IngestCall J V}

def RowOf (db : IngestDb J V) (key : DedupKey) (id : Nat) : Prop :=
  ∃ row, db.observations.get id = some row ∧ row.dedupKey = some key

def Stored (db : IngestDb J V) (key : DedupKey) : Prop :=
  ∃ id, RowOf db key id

def IngestAnswer.inserts (answer : IngestAnswer) (id : Nat) : Bool :=
  decide (answer.result.observationId = id) && !answer.result.deduped

def eventArrivals (db : IngestDb J V) (id : Nat) : Nat :=
  db.triggers.count fun _ trigger => decide (trigger.observationId = some id) &&
    decide (trigger.triggerKind = .t1) && decide (trigger.triggerSubkind = some .eventArrival)

/-- What every committed state satisfies: a row a key, one inserting answer a
row, and the trigger that this answer calls for. -/
structure Deduplicated (db : IngestDb J V) : Prop where
  unique : ∀ key id id', RowOf db key id → RowOf db key id' → id = id'
  refers : ∀ id trigger, db.triggers.get id = some trigger →
    ∃ rowId row, trigger.observationId = some rowId ∧ db.observations.get rowId = some row
  answered : ∀ answer ∈ db.answers, ∃ row,
    db.observations.get answer.result.observationId = some row ∧ row.dedupKey = answer.key
  inserted : ∀ id row, db.observations.get id = some row →
    (db.answers.countP fun answer => answer.inserts id) = 1
  triggered : ∀ answer ∈ db.answers, answer.result.deduped = false →
    eventArrivals db answer.result.observationId = if answer.triggersEnabled then 1 else 0

theorem mem_rowsOfKey : e ∈ rowsOfKey db key ↔
    db.observations.get e.1 = some e.2 ∧ e.2.dedupKey = some key := by
  rw [rowsOfKey, mem_filter, decide_eq_true_eq, ← mem_rows_iff]

theorem isSome_head_iff : (((rowsOfKey db key).head?).map Prod.fst).isSome ↔ Stored db key := by
  rw [Option.isSome_map, isSome_head?]
  constructor
  · intro hn
    obtain ⟨e, he⟩ := exists_mem_of_ne_nil _ hn
    obtain ⟨hg, hk⟩ := mem_rowsOfKey.mp he
    exact ⟨e.1, e.2, hg, hk⟩
  · rintro ⟨id, row, hg, hk⟩
    exact ne_nil_of_mem (mem_rowsOfKey.mpr ⟨hg, hk⟩ : (id, row) ∈ rowsOfKey db key)

theorem latestOfKey_of_stored (hs : Stored db key) :
    ∃ id row, latestOfKey db key = some (id, row) ∧ db.observations.get id = some row ∧
      row.dedupKey = some key := by
  obtain ⟨id, row, hg, hk⟩ := hs
  have hm : (id, row) ∈ rowsOfKey db key := mem_rowsOfKey.mpr ⟨hg, hk⟩
  have hn : latestOfKey db key ≠ none := by
    rw [latestOfKey, ne_eq, argmax_eq_none]
    exact ne_nil_of_mem hm
  obtain ⟨latest, hl⟩ := Option.ne_none_iff_exists'.mp hn
  have hf := mem_rowsOfKey.mp (argmax_mem hl)
  exact ⟨latest.1, latest.2, hl, hf⟩

theorem latestOfKey_of_not_stored (hf : ¬ Stored db key) : latestOfKey db key = none := by
  cases hl : latestOfKey db key with
  | none => rfl
  | some e =>
    obtain ⟨hg, hk⟩ := mem_rowsOfKey.mp (argmax_mem hl)
    exact absurd ⟨e.1, e.2, hg, hk⟩ hf

theorem rowOfEntry_of_not_stored (hfr : ¬ Stored db key) (occurredAt : Int) :
    rowOfEntry db key occurredAt = none := by
  cases hf : rowOfEntry db key occurredAt with
  | none => rfl
  | some e =>
    obtain ⟨hg, hk⟩ := mem_rowsOfKey.mp (mem_of_find?_eq_some hf)
    exact absurd ⟨e.1, e.2, hg, hk⟩ hfr

structure IngestRely (digest : String → Nat) (trail : Trail (IngestWrite J V) IngestLock)
    (s t : IngestDb J V) : Prop where
  kept : ∀ id row, s.observations.get id = some row → t.observations.get id = some row
  absent : ∀ key, .advisory (dedupLockKey digest key) ∈ trail.locks → ¬ Stored s key →
    ¬ Stored t key
  fresh : ∀ id ∈ trail.minted, s.observations.get id = none ∧ s.triggers.get id = none →
    t.observations.get id = none ∧ t.triggers.get id = none

def insertingWrites (id : Nat) (call : IngestCall J V) (trigger : Option Nat) :
    List (IngestWrite J V) :=
  .observation id call.observation ::
    (trigger.map fun triggerId => .trigger triggerId (eventArrivalTrigger call id call.observation)).toList

def answerOf (call : IngestCall J V) (result : IngestResult) : IngestAnswer :=
  ⟨call.observation.dedupKey, call.triggersEnabled, result⟩

/-- No row of the call's event is stored, and none can be while the lock is held. -/
def Protected (digest : String → Nat) (call : IngestCall J V) (s : IngestDb J V)
    (trail : Trail (IngestWrite J V) IngestLock) : Prop :=
  ∀ key, call.observation.dedupKey = some key →
    .advisory (dedupLockKey digest key) ∈ trail.locks ∧ ¬ Stored s key

def OwnFresh (id : Nat) (s : IngestDb J V) (trail : Trail (IngestWrite J V) IngestLock) : Prop :=
  id ∈ trail.minted ∧ s.observations.get id = none ∧ s.triggers.get id = none

inductive IngestFinal (digest : String → Nat) (s : IngestDb J V)
    (trail : Trail (IngestWrite J V) IngestLock) : Prop where
  | deduped (call : IngestCall J V) (key : DedupKey) (id : Nat)
      (hkey : call.observation.dedupKey = some key) (hrow : RowOf s key id)
      (hwrites : trail.writes = [.answer (answerOf call ⟨id, true, none⟩)])
  | inserted (call : IngestCall J V) (id : Nat) (trigger : Option Nat)
      (hprotected : Protected digest call s trail) (hid : OwnFresh id s trail)
      (htrigger : ∀ triggerId ∈ trigger, OwnFresh triggerId s trail)
      (henabled : trigger.isSome = call.triggersEnabled)
      (hwrites : trail.writes =
        insertingWrites id call trigger ++ [.answer (answerOf call ⟨id, false, trigger⟩)])

section Commit

variable {trail : Trail (IngestWrite J V) IngestLock}

theorem RowOf.of_rely (hr : RowOf s key id) (hrl : IngestRely digest trail s t) :
    RowOf t key id := by
  obtain ⟨row, hg, hk⟩ := hr
  exact ⟨row, hrl.kept id row hg, hk⟩

theorem Protected.of_rely (hp : Protected digest call s trail)
    (hr : IngestRely digest trail s t) : Protected digest call t trail := by
  intro key hk
  obtain ⟨hl, hf⟩ := hp key hk
  exact ⟨hl, hr.absent key hl hf⟩

theorem OwnFresh.of_rely (hf : OwnFresh id s trail) (hr : IngestRely digest trail s t) :
    OwnFresh id t trail :=
  ⟨hf.1, hr.fresh id hf.1 hf.2⟩

def afterInserting (s : IngestDb J V) (id : Nat) (call : IngestCall J V) (trigger : Option Nat) :
    IngestDb J V :=
  (insertingWrites id call trigger ++
    [IngestWrite.answer (answerOf call ⟨id, false, trigger⟩)]).foldl IngestDb.apply s

section

variable {trigger : Option Nat} {other : Nat}

theorem get_observations_afterInserting :
    (afterInserting s id call trigger).observations.get other =
      if other = id then some call.observation else s.observations.get other := by
  cases trigger <;> simp [afterInserting, insertingWrites, IngestDb.apply, get_put]

theorem triggers_afterInserting : (afterInserting s id call trigger).triggers = match trigger with
      | none => s.triggers
      | some triggerId =>
        s.triggers.put triggerId (eventArrivalTrigger call id call.observation) := by
  cases trigger <;> rfl

theorem answers_afterInserting : (afterInserting s id call trigger).answers =
      answerOf call ⟨id, false, trigger⟩ :: s.answers := by
  cases trigger <;> rfl

end

variable {trigger : Option Nat}

theorem rowOf_afterInserting (hf : s.observations.get id = none) :
    RowOf (afterInserting s id call trigger) key other ↔
      (other = id ∧ call.observation.dedupKey = some key) ∨ RowOf s key other := by
  unfold RowOf
  rw [get_observations_afterInserting]
  by_cases ho : other = id
  · subst ho
    simp [hf]
  · simp [ho]

theorem eventArrivals_afterInserting (hf : ∀ triggerId ∈ trigger, s.triggers.get triggerId = none) :
    eventArrivals (afterInserting s id call trigger) other =
      eventArrivals s other + if other = id ∧ trigger.isSome then 1 else 0 := by
  unfold eventArrivals
  rw [triggers_afterInserting]
  cases trigger with
  | none => simp
  | some triggerId =>
    rw [count_put_of_none _ (hf triggerId rfl)]
    simp [eventArrivalTrigger, eq_comm]

theorem Deduplicated.inserting (hgd : Deduplicated s)
    (hfr : ∀ key, call.observation.dedupKey = some key → ¬ Stored s key)
    (hid : s.observations.get id = none)
    (ht : ∀ triggerId ∈ trigger, s.triggers.get triggerId = none)
    (hen : trigger.isSome = call.triggersEnabled) :
    Deduplicated (afterInserting s id call trigger) where
  unique := by
    intro key first second h1 h2
    rw [rowOf_afterInserting hid] at h1 h2
    rcases h1 with ⟨rfl, hk⟩ | h1 <;> rcases h2 with ⟨rfl, hk'⟩ | h2
    · rfl
    · exact absurd ⟨second, h2⟩ (hfr key hk)
    · exact absurd ⟨first, h1⟩ (hfr key hk')
    · exact hgd.unique key first second h1 h2
  refers := by
    intro other row hg
    have hcs : s.triggers.get other = some row ∨ row.observationId = some id := by
      rw [triggers_afterInserting] at hg
      cases trigger with
      | none => exact .inl hg
      | some triggerId =>
        rw [get_put] at hg
        split at hg
        · cases hg
          exact .inr rfl
        · exact .inl hg
    rcases hcs with ho | hnw
    · obtain ⟨rowId, stored, hr, hs⟩ := hgd.refers other row ho
      refine ⟨rowId, stored, hr, ?_⟩
      rw [get_observations_afterInserting, if_neg, hs]
      rintro rfl
      rw [hid] at hs
      cases hs
    · exact ⟨id, call.observation, hnw, by rw [get_observations_afterInserting, if_pos rfl]⟩
  answered := by
    intro answer ha
    rw [answers_afterInserting] at ha
    rcases mem_cons.mp ha with rfl | ho
    · exact ⟨call.observation, by rw [get_observations_afterInserting]; exact if_pos rfl, rfl⟩
    · obtain ⟨stored, hs, hk⟩ := hgd.answered answer ho
      refine ⟨stored, ?_, hk⟩
      rw [get_observations_afterInserting, if_neg, hs]
      intro he
      rw [he, hid] at hs
      cases hs
  inserted := by
    intro other row hg
    rw [answers_afterInserting, countP_cons]
    rw [get_observations_afterInserting] at hg
    split at hg
    · next he =>
      subst he
      have hn : (s.answers.countP fun answer => answer.inserts other) = 0 := by
        rw [countP_eq_zero]
        intro answer ha hi
        obtain ⟨stored, hs, -⟩ := hgd.answered answer ha
        rw [inserts, Bool.and_eq_true, decide_eq_true_eq] at hi
        rw [hi.1, hid] at hs
        cases hs
      rw [hn]
      simp [answerOf, inserts]
    · next hne =>
      rw [hgd.inserted other row hg]
      simp [answerOf, inserts, Ne.symm hne]
  triggered := by
    intro answer ha hf
    rw [eventArrivals_afterInserting ht]
    rw [answers_afterInserting] at ha
    rcases mem_cons.mp ha with rfl | ho
    · have hn : eventArrivals s id = 0 := by
        rw [eventArrivals, count_eq_zero_iff]
        intro triggerId row hg hc
        obtain ⟨rowId, stored, hr, hs⟩ := hgd.refers triggerId row hg
        rw [hr] at hc
        simp only [Option.some.injEq, Bool.and_eq_true, decide_eq_true_eq] at hc
        rw [hc.1.1, hid] at hs
        cases hs
      change eventArrivals s id + (if id = id ∧ trigger.isSome then 1 else 0) =
        if call.triggersEnabled then 1 else 0
      simp [hn, hen]
    · obtain ⟨stored, hs, -⟩ := hgd.answered answer ho
      have hne : answer.result.observationId ≠ id := by
        intro he
        rw [he, hid] at hs
        cases hs
      simp [hgd.triggered answer ho hf, hne]

theorem Deduplicated.answering (hgd : Deduplicated s)
    (hk : call.observation.dedupKey = some key) (hr : RowOf s key id) :
    Deduplicated (s.apply (.answer (answerOf call ⟨id, true, none⟩))) where
  unique := hgd.unique
  refers := hgd.refers
  answered := by
    intro answer ha
    rcases mem_cons.mp ha with rfl | ho
    · obtain ⟨stored, hst, hs⟩ := hr
      exact ⟨stored, hst, hs.trans hk.symm⟩
    · exact hgd.answered answer ho
  inserted := by
    intro other row hg
    have ho := hgd.inserted other row hg
    simpa [IngestDb.apply, countP_cons, answerOf, inserts] using ho
  triggered := by
    intro answer ha hf
    rcases mem_cons.mp ha with rfl | ho
    · cases hf
    · exact hgd.triggered answer ho hf

theorem IngestFinal.rely (hfn : IngestFinal digest s trail) (hd : theirs.Disjoint trail) :
    IngestRely digest theirs s ((ingestSchema digest).view s trail.writes) := by
  cases hfn with
  | deduped call key id _ _ hw =>
    rw [hw]
    exact ⟨fun _ _ hg => hg, fun _ _ hf => hf, fun _ _ hu => hu⟩
  | inserted call id trigger hp hi ht _ hw =>
    rw [hw]
    change IngestRely digest theirs s (afterInserting s id call trigger)
    refine ⟨fun other row hg => ?_, fun key hl hf => ?_, fun other hm hu => ?_⟩
    · rw [get_observations_afterInserting, if_neg, hg]
      rintro rfl
      rw [hi.2.1] at hg
      cases hg
    · rintro ⟨other, hr⟩
      rcases (rowOf_afterInserting hi.2.1).mp hr with ⟨-, hk⟩ | hold
      · exact hd.1 _ hl (hp key hk).1
      · exact hf ⟨other, hold⟩
    · have ho : other ∉ trail.minted := hd.2 other hm
      have hn : other ≠ id := by
        rintro rfl
        exact ho hi.1
      rw [get_observations_afterInserting, if_neg hn]
      refine ⟨hu.1, ?_⟩
      rw [triggers_afterInserting]
      cases trigger with
      | none => exact hu.2
      | some triggerId =>
        rw [get_put, if_neg, hu.2]
        rintro rfl
        exact ho (ht _ rfl).1

def ingestDiscipline (digest : String → Nat) :
    Discipline (ingestSchema digest : ReadCommitted.Schema (IngestDb J V) _ _ _ _) where
  Good := Deduplicated
  Rely := IngestRely digest
  Final := IngestFinal digest
  Unused db id := db.observations.get id = none ∧ db.triggers.get id = none
  rely_refl _ _ :=
    ⟨fun _ _ hget => hget, fun _ _ hfree => hfree, fun _ _ hunused => hunused⟩
  rely_trans hfirst hsecond :=
    { kept := fun id row hget => hsecond.kept id row (hfirst.kept id row hget)
      absent := fun key hlock hfree => hsecond.absent key hlock (hfirst.absent key hlock hfree)
      fresh := fun id hminted hunused => hsecond.fresh id hminted (hfirst.fresh id hminted hunused) }
  final_stable := by
    intro s t trail _ hfinal hrely _
    cases hfinal with
    | deduped call key id hkey hrow hwrites =>
      exact .deduped call key id hkey (hrow.of_rely hrely) hwrites
    | inserted call id trigger hprotected hid htrigger henabled hwrites =>
      exact .inserted call id trigger (hprotected.of_rely hrely) (hid.of_rely hrely)
        (fun triggerId hmem => (htrigger triggerId hmem).of_rely hrely) henabled hwrites
  good_commit := by
    intro s trail hgood hfinal
    cases hfinal with
    | deduped call key id hkey hrow hwrites =>
      rw [hwrites]
      exact hgood.answering hkey hrow
    | inserted call id trigger hprotected hid htrigger henabled hwrites =>
      rw [hwrites]
      exact hgood.inserting (fun key hkey => (hprotected key hkey).2) hid.2.1
        (fun triggerId hmem => (htrigger triggerId hmem).2.2) henabled
  rely_commit _ hfinal hdisjoint := hfinal.rely hdisjoint
  unused_commit := by
    intro s trail id _ hfinal hunused hother
    -- another session, with no lock and this identifier only, could rely on it
    let bystander : Trail (IngestWrite J V) IngestLock := { minted := [id] }
    have hdisjoint : bystander.Disjoint trail :=
      ⟨fun _ hlock => absurd hlock List.not_mem_nil,
        fun other hmem => List.mem_singleton.mp hmem ▸ hother⟩
    exact (hfinal.rely hdisjoint).fresh id List.mem_cons_self hunused

end Commit

section Programs

variable {trail : Trail (IngestWrite J V) IngestLock} {obsId : Nat}

def Opened (obsId : Nat) (s : IngestDb J V) (trail : Trail (IngestWrite J V) IngestLock) : Prop :=
  trail.writes = [] ∧ OwnFresh obsId s trail

theorem Opened.of_rely (ho : Opened obsId s trail) (hr : IngestRely digest trail s t) :
    Opened obsId t trail :=
  ⟨ho.1, ho.2.of_rely hr⟩

theorem Opened.view (ho : Opened obsId s trail) :
    (ingestSchema digest).view t trail.writes = t := by
  rw [ho.1]
  rfl

theorem wp_lockAndFind (hop : Opened obsId s trail) : (ingestDiscipline digest).wp
      (fun existing s trail => Opened obsId s trail ∧ if existing.isSome
        then ∃ key, call.observation.dedupKey = some key ∧ Stored s key
        else Protected digest call s trail)
      (lockAndFindExistingObservation digest call.observation) s trail := by
  unfold lockAndFindExistingObservation
  cases hk : call.observation.dedupKey with
  | none => exact ⟨hop, fun key hs => by rw [hk] at hs; cases hs⟩
  | some key =>
    refine wp_seq (R := fun _ s trail => Opened obsId s trail ∧
      .advisory (dedupLockKey digest key) ∈ trail.locks) ?_ ?_
    · refine wp_readLocking fun t hr _ _ => ?_
      have hlt := hop.of_rely hr
      exact ⟨⟨append_eq_nil_iff.mpr ⟨hlt.1, rfl⟩, hlt.2⟩, .head _⟩
    · rintro _ s trail ⟨hop, hl⟩
      refine wp_read fun t hr _ _ => ⟨hop.of_rely hr, ?_⟩
      rw [hop.view]
      split
      · next hf => exact ⟨key, rfl, isSome_head_iff.mp hf⟩
      · next hn =>
        intro other ho
        cases ho.symm.trans hk
        exact ⟨hl, isSome_head_iff.not.mp hn⟩

theorem wp_repoInsert_of_stored (ho : Opened obsId s trail)
    (hk : call.observation.dedupKey = some key) (hs : Stored s key) : (ingestDiscipline digest).wp
      (fun row s trail => Opened obsId s trail ∧ RowOf s key row.1)
      (repoInsert obsId call.observation) s trail := by
  refine wp_seq (R := fun _ s trail => Opened obsId s trail ∧ Stored s key)
    (wp_ensure fun _ => ⟨ho, hs⟩) ?_
  rintro _ s trail ⟨ho, hs⟩
  refine wp_seq (R := fun existing s trail => Opened obsId s trail ∧
    ∃ found, existing = some found ∧ RowOf s key found.1) ?_ ?_
  · rw [fetchLatest, hk]
    refine wp_read fun t hrl _ _ => ?_
    rw [ho.view]
    obtain ⟨id, hr⟩ := hs
    obtain ⟨found, row, hl, hg, hrw⟩ := latestOfKey_of_stored ⟨id, hr.of_rely hrl⟩
    exact ⟨ho.of_rely hrl, (found, row), hl, row, hg, hrw⟩
  · rintro existing s trail ⟨ho, found, rfl, hr⟩
    exact ⟨ho, hr⟩

theorem wp_repoInsert_of_protected (ho : Opened obsId s trail)
    (hp : Protected digest call s trail) : (ingestDiscipline digest).wp
      (fun row s trail => row = (obsId, call.observation) ∧ Protected digest call s trail ∧
        OwnFresh obsId s trail ∧ trail.writes = [.observation obsId call.observation])
      (repoInsert obsId call.observation) s trail := by
  refine wp_seq (R := fun _ s trail => Opened obsId s trail ∧
    Protected digest call s trail) (wp_ensure fun _ => ⟨ho, hp⟩) ?_
  rintro _ s trail ⟨ho, hp⟩
  refine wp_seq (R := fun existing s trail => existing = none ∧
    Opened obsId s trail ∧ Protected digest call s trail) ?_ ?_
  · unfold fetchLatest
    cases hk : call.observation.dedupKey with
    | none => exact ⟨rfl, ho, hp⟩
    | some key =>
      refine wp_read fun t hr _ _ => ?_
      have hl := hp.of_rely hr
      refine ⟨?_, ho.of_rely hr, hl⟩
      rw [ho.view]
      exact latestOfKey_of_not_stored (hl key hk).2
  · rintro _ s trail ⟨rfl, ho, hp⟩
    refine wp_seq (R := fun inserted s trail =>
      inserted = some (obsId, call.observation) ∧ Protected digest call s trail ∧
        OwnFresh obsId s trail ∧ trail.writes = [.observation obsId call.observation]) ?_ ?_
    · refine wp_query fun t hr _ _ ws inserted ha => ?_
      have hl := hp.of_rely hr
      have hf := ho.2.of_rely hr
      rw [ho.view] at ha ⊢
      have hn : (call.observation.dedupKey.bind fun key =>
          rowOfEntry t key call.observation.occurredAt) = none := by
        cases hk : call.observation.dedupKey with
        | none => rfl
        | some key => exact rowOfEntry_of_not_stored (hl key hk).2 _
      rw [hn] at ha
      cases ha
      refine ⟨rfl, ?_, hf, by rw [Trail.extend, ho.1]; rfl⟩
      exact fun key hk =>
        ⟨mem_append_right _ (hl key hk).1, (hl key hk).2⟩
    · rintro _ s trail ⟨rfl, ht⟩
      exact ⟨rfl, ht⟩

theorem wp_insertObservationAndMaybeEnqueueTrigger (hop : Opened obsId s trail) :
    (ingestDiscipline digest).wp (fun r s trail =>
        (∃ key id, call.observation.dedupKey = some key ∧ RowOf s key id ∧ trail.writes = [] ∧
          r = ⟨id, true, none⟩) ∨
        ∃ trigger, Protected digest call s trail ∧ OwnFresh obsId s trail ∧
          (∀ triggerId ∈ trigger, OwnFresh triggerId s trail) ∧
          trigger.isSome = call.triggersEnabled ∧
          trail.writes = insertingWrites obsId call trigger ∧ r = ⟨obsId, false, trigger⟩)
      (insertObservationAndMaybeEnqueueTrigger digest call obsId) s trail := by
  refine wp_seq (wp_lockAndFind hop) ?_
  rintro existing s trail ⟨hop, hf⟩
  cases existing with
  | some id =>
    obtain ⟨key, hk, hs⟩ := hf
    refine wp_seq (wp_repoInsert_of_stored hop hk hs) ?_
    rintro row s trail ⟨hop, hr⟩
    exact .inl ⟨key, row.1, hk, hr, hop.1, rfl⟩
  | none =>
    refine wp_seq (wp_repoInsert_of_protected hop hf) ?_
    rintro _ s trail ⟨rfl, hp, hfr, hw⟩
    have ho : (call.observation.externalId.isSome && obsId != obsId) = false := by simp
    simp only [ho]
    refine wp_seq (R := fun _ s trail => Protected digest call s trail ∧
      OwnFresh obsId s trail ∧ trail.writes = [.observation obsId call.observation])
      (wp_ensure fun _ => ⟨hp, hfr, hw⟩) ?_
    rintro _ s trail ⟨hp, hfr, hw⟩
    cases he : call.triggersEnabled with
    | false =>
      exact .inr ⟨none, hp, hfr, (fun _ hm => by cases hm), rfl, hw, rfl⟩
    | true =>
      refine wp_seq (R := fun triggerId s trail => Protected digest call s trail ∧
        OwnFresh obsId s trail ∧ OwnFresh triggerId s trail ∧
          trail.writes = insertingWrites obsId call (some triggerId)) ?_ ?_
      · refine wp_seq (R := fun triggerId s trail => Protected digest call s trail ∧
          OwnFresh obsId s trail ∧ OwnFresh triggerId s trail ∧
            trail.writes = [.observation obsId call.observation]) ?_ ?_
        · refine wp_newId fun t triggerId hrl _ hu _ => ?_
          obtain ⟨hmi, hob, htr⟩ := hfr.of_rely hrl
          exact ⟨hp.of_rely hrl, ⟨mem_cons_of_mem _ hmi, hob, htr⟩, ⟨.head _, hu⟩, hw⟩
        · rintro triggerId s trail ⟨hp, hfr, ht, hw⟩
          refine wp_query fun t hrl _ _ ws v ha => ?_
          cases ha
          exact ⟨hp.of_rely hrl, hfr.of_rely hrl, ht.of_rely hrl, by rw [Trail.extend, hw]; rfl⟩
      · rintro triggerId s trail ⟨hp, hfr, ht, hw⟩
        refine .inr ⟨some triggerId, hp, hfr, ?_, rfl, hw, rfl⟩
        intro _ hm
        cases hm
        exact ht

theorem sound_ingest (digest : String → Nat) :
    (ingestDiscipline digest : Discipline (ingestSchema digest :
      ReadCommitted.Schema (IngestDb J V) _ _ _ _)).Sound := by
  intro call s _ _
  refine wp_seq (R := Opened) ?_ fun obsId s trail ho => ?_
  · refine wp_newId fun t obsId _ _ hu _ => ?_
    exact ⟨rfl, .head _, hu⟩
  refine wp_seq (wp_insertObservationAndMaybeEnqueueTrigger ho) ?_
  intro r s trail hrs
  refine wp_query fun t hrl _ _ ws v ha => ?_
  cases ha
  rcases hrs with ⟨key, id, hk, hr, hw, rfl⟩ | ⟨trigger, hp, hf, ht, he, hw, rfl⟩
  · refine .deduped call key id hk (hr.of_rely hrl) ?_
    rw [Trail.extend, hw]
    rfl
  · refine .inserted call obsId trigger (hp.of_rely hrl) (hf.of_rely hrl)
      (fun triggerId hm => (ht triggerId hm).of_rely hrl) he ?_
    rw [Trail.extend, hw]
    rfl

end Programs

def newAnswers (db : IngestDb J V) (key : DedupKey) : Nat :=
  db.answers.countP fun answer => decide (answer.key = some key) && !answer.result.deduped

theorem Deduplicated.newAnswers_eq (hgd : Deduplicated s) (hr : RowOf s key id) :
    newAnswers s key = s.answers.countP fun answer => answer.inserts id := by
  rw [newAnswers, countP_eq_length_filter, countP_eq_length_filter]
  congr 1
  apply filter_congr
  intro answer ha
  obtain ⟨row, hg, hk⟩ := hgd.answered answer ha
  have hs : answer.key = some key ↔ answer.result.observationId = id := by
    constructor
    · intro han
      exact hgd.unique key _ _ ⟨row, hg, hk.trans han⟩ hr
    · rintro rfl
      obtain ⟨stored, hsto, hst⟩ := hr
      rw [hg] at hsto
      cases hsto
      exact hk.symm.trans hst
  rw [inserts, decide_eq_decide.mpr hs]

/-- Whatever calls run, in whatever order, and whichever of them abort: an event
has at most one row, and once a call for it has committed one row, one answer
that is not deduplicated, and the trigger that the inserting call asked for. -/
theorem ingest_deduplicates {digest : String → Nat} {supply : Nat}
    {config : Config (IngestDb J V) (IngestWrite J V) IngestLock IngestError}
    (hreach : Reach (Config.step (ingestSchema digest)) anyStep ⟨{}, supply, ∅⟩ config) :
    (∀ key id id', RowOf config.committed key id → RowOf config.committed key id' → id = id') ∧
    ∀ key, (∃ answer ∈ config.committed.answers, answer.key = some key) →
      newAnswers config.committed key = 1 ∧
      ∃ id, RowOf config.committed key id ∧ ∃ answer ∈ config.committed.answers,
        answer.key = some key ∧ answer.result.deduped = false ∧
        answer.result.observationId = id ∧
        eventArrivals config.committed id = if answer.triggersEnabled then 1 else 0 := by
  have hstart : Deduplicated ({} : IngestDb J V) :=
    { unique := fun _ _ _ ⟨_, hget, _⟩ => by cases hget
      refers := fun _ _ hget => by cases hget
      answered := fun _ hanswer => by cases hanswer
      inserted := fun _ _ hget => by cases hget
      triggered := fun _ hanswer => by cases hanswer }
  have hcoherent := Discipline.coherent_of_reach (sound_ingest digest)
    (fun _ action _ => by cases action <;> simp [Discipline.Admitted, ingestDiscipline])
    hstart (fun _ _ => ⟨rfl, rfl⟩) hreach
  have hgood : Deduplicated config.committed := hcoherent.good
  refine ⟨hgood.unique, ?_⟩
  rintro key ⟨answer, hanswer, hkey⟩
  obtain ⟨row, hget, hrowKey⟩ := hgood.answered answer hanswer
  have hrow : RowOf config.committed key answer.result.observationId :=
    ⟨row, hget, hrowKey.trans hkey⟩
  have hone := hgood.inserted _ row hget
  rw [← hgood.newAnswers_eq hrow] at hone
  have hpos : 0 < newAnswers config.committed key := by omega
  obtain ⟨inserting, hinserting, htest⟩ := countP_pos_iff.mp hpos
  simp only [Bool.and_eq_true, decide_eq_true_eq, Bool.not_eq_true'] at htest
  obtain ⟨insertedRow, hinserted, hinsertedKey⟩ := hgood.answered inserting hinserting
  exact ⟨hone, _, ⟨insertedRow, hinserted, hinsertedKey.trans htest.1⟩, inserting, hinserting,
    htest.1, htest.2, rfl, hgood.triggered inserting hinserting htest.2⟩

private def webhookCall (occurredAt : Int) : IngestCall Unit Unit where
  observation :=
    { tenantId := 1, occurredAt, kind := "message", sourceChannel := "slack"
      sourceActorRef := none, actorId := some 7, content := (), contentText := "the launch slips"
      embedding := none, embeddingPending := true, trustTier := "attested_agent"
      externalId := some "C1:17", causeId := none, entitiesMentioned := [] }
  unresolvedActorRef := none
  enqueueTrigger := true
  summaryPending := false
  clarificationFails := false

/-- The first call takes the lock and is rolled back after its INSERT; the
second waits for it, inserts, and the third finds the row of another moment. -/
private def redelivery : List (Action (IngestCall Unit Unit)) :=
  [.begin 0 (webhookCall 10), .begin 1 (webhookCall 20), .statement 0, .statement 0,
    .statement 1, .statement 0, .statement 0, .statement 0, .rollback 0, .statement 1,
    .statement 1, .statement 1, .statement 1, .statement 1, .statement 1, .statement 1,
    .commit 1, .begin 2 (webhookCall 10), .statement 2, .statement 2, .statement 2,
    .statement 2, .statement 2, .commit 2]

private def redeliveredKey : DedupKey := ⟨1, "slack", "C1:17"⟩

theorem ingest_deduplicates_redelivery : ∃ config : Config (IngestDb Unit Unit)
      (IngestWrite Unit Unit) IngestLock IngestError,
    runAll (Config.step (ingestSchema String.length)) ⟨{}, 0, ∅⟩ redelivery = some config ∧
      config.committed.answers.map result = [⟨1, true, none⟩, ⟨1, false, some 2⟩] ∧
      newAnswers config.committed redeliveredKey = 1 := by
  have hrun : ((runAll (Config.step (ingestSchema (J := Unit) (V := Unit) String.length))
      ⟨{}, 0, ∅⟩ redelivery).map fun config => config.committed.answers.map fun answer =>
        (answer.key, answer.result)) =
      some [(some redeliveredKey, ⟨1, true, none⟩), (some redeliveredKey, ⟨1, false, some 2⟩)] := by
    decide +kernel
  obtain ⟨config, hconfig, hanswers⟩ := Option.map_eq_some_iff.mp hrun
  have hreach : Reach (Config.step (ingestSchema String.length)) anyStep ⟨{}, 0, ∅⟩ config :=
    reach_of_run hconfig
  have hresults : config.committed.answers.map result = [⟨1, true, none⟩, ⟨1, false, some 2⟩] := by
    simpa [Function.comp_def] using congrArg (List.map Prod.snd) hanswers
  have hmem : (some redeliveredKey, (⟨1, true, none⟩ : IngestResult)) ∈
      config.committed.answers.map fun answer => (answer.key, answer.result) := by
    rw [hanswers]
    exact .head _
  obtain ⟨answer, hanswer, heq⟩ := mem_map.mp hmem
  have hkey : answer.key = some redeliveredKey := congrArg Prod.fst heq
  exact ⟨config, hconfig, hresults,
    ((ingest_deduplicates hreach).2 redeliveredKey ⟨answer, hanswer, hkey⟩).1⟩

end FyralisCore.Ingestion
