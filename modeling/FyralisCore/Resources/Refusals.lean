import FyralisCore.Lib.Raises
import FyralisCore.Resources.Deployments

/-! The calls of the resource store raise their `ValidationError` before they write. -/
namespace FyralisCore.Resources

open Relational Transaction
open Acts (Clock)

def ResourceError.isValidation : ResourceError → Bool
  | .validationError _ _ => true
  | _ => false

abbrev ValidatesFirst {α : Type} (body : ResourceTx α) : Prop :=
  Tx.FailsFirst ResourceDb.apply (fun error => error.isValidation) body

abbrev NeverInvalid {α : Type} (body : ResourceTx α) : Prop :=
  Tx.EachError ResourceDb.apply (fun error => ¬ error.isValidation) body

variable {clock : Clock}

theorem neverInvalid_constrained : NeverInvalid (constrained lock constraints w) := by
  refine .query fun db error ha => ?_
  split at ha
  · obtain rfl := Except.error.inj ha
    exact Bool.false_ne_true
  · cases ha

theorem neverInvalid_emitStateChange : NeverInvalid (emitStateChange clock args) :=
  .bind .newId fun _ => .bind neverInvalid_constrained fun _ => .done

theorem neverInvalid_writeTransaction :
    NeverInvalid (writeTransaction clock args row kind delta newCv newUtil) :=
  .bind .newId fun _ => .bind neverInvalid_constrained fun _ => .bind neverInvalid_constrained
    fun _ => .bind neverInvalid_emitStateChange fun _ => .bind .read fun _ =>
      .orRaise Bool.false_ne_true

theorem recordTransaction_validatesFirst : ValidatesFirst (recordTransaction clock args) := by
  unfold recordTransaction
  cases TransactionType.ofText args.kind with
  | none => exact Tx.Reads.raise.failsFirst
  | some kind =>
    cases args.delta with
    | object delta =>
      exact Tx.Reads.readLocking.bind_failsFirst fun _ => Tx.Reads.orRaise.bind_failsFirst fun _ =>
        Tx.Reads.ensure.bind_failsFirst fun _ => Tx.Reads.ofExcept.bind_failsFirst fun _ =>
          .of_never neverInvalid_writeTransaction
    | _ => exact Tx.Reads.raise.failsFirst

theorem deploy_validatesFirst : ValidatesFirst (deploy clock args) := by
  unfold deploy
  cases args.quantity with
  | object quantity =>
    refine Tx.Reads.ensure.bind_failsFirst fun _ => ?_
    refine Tx.Reads.read.bind_failsFirst fun _ => Tx.Reads.orRaise.bind_failsFirst fun peeked => ?_
    -- The counters are moved before the row is inserted, and R5 is no `ValidationError`.
    refine (Tx.FailsFirst.when ?_).bind_never fun _ => ?_
    · exact Tx.Reads.orRaise.bind_failsFirst fun _ => Tx.Reads.ofExcept.bind_failsFirst fun _ =>
        recordTransaction_validatesFirst.bind_never fun _ => .done
    · exact .bind .read fun _ => .bind (.ensure Bool.false_ne_true) fun _ =>
        .bind neverInvalid_constrained fun _ => .done
  | _ => exact Tx.Reads.raise.failsFirst

theorem release_validatesFirst : ValidatesFirst (release clock args) := by
  refine Tx.Reads.readLocking.bind_failsFirst fun _ =>
    Tx.Reads.orRaise.bind_failsFirst fun (row, kind) => ?_
  dsimp only
  split
  · exact Tx.Reads.done.failsFirst
  · refine Tx.Reads.ofExcept.bind_failsFirst fun _ => (Tx.FailsFirst.forSome fun _ => ?_).bind_never
      fun _ => .query fun _ _ ha => by cases ha
    exact Tx.Reads.ofExcept.bind_failsFirst fun _ =>
      recordTransaction_validatesFirst.bind_never fun _ => .done

end FyralisCore.Resources

/-! When the resource store refuses a call by one of its invariants, said of the
state before the call. -/
namespace FyralisCore.Resources

open Relational Transaction
open Acts (Clock)

def ResourceError.isInvariant : ResourceError → Bool
  | .invariantViolation _ _ _ => true
  | _ => false

variable {α : Type}

def Refuses (body : ResourceTx α) (db : ResourceDb) (supply : Nat) : Prop :=
  ∃ error, Tx.Raises ResourceDb.apply body db supply error ∧ error.isInvariant

abbrev NeverRefuses {α : Type} (body : ResourceTx α) : Prop :=
  Tx.EachError ResourceDb.apply (fun error => error.isInvariant = false) body

section

variable {α β : Type} {db t : ResourceDb} {supply left : Nat}

theorem NeverRefuses.not_refuses (hn : NeverRefuses body) : ¬ Refuses body db supply := by
  rintro ⟨error, hr, hi⟩
  rw [hn db supply error hr] at hi
  cases hi

variable {rest : α → ResourceTx β} {error : ResourceError}

theorem refuses_bind : Refuses (first.bind rest) db supply ↔ Refuses first db supply ∨
      ∃ v m remaining, Tx.Returns ResourceDb.apply first db supply v m remaining ∧
          Refuses (rest v) m remaining := by
  simp only [Refuses, Tx.raises_bind]
  constructor
  · rintro ⟨error, h1 | ⟨v, m, remaining, hr, ht⟩, hi⟩
    · exact .inl ⟨error, h1, hi⟩
    · exact .inr ⟨v, m, remaining, hr, error, ht, hi⟩
  · rintro (⟨error, h1, hi⟩ | ⟨v, m, remaining, hr, error, ht, hi⟩)
    · exact ⟨error, .inl h1, hi⟩
    · exact ⟨error, .inr ⟨v, m, remaining, hr, ht⟩, hi⟩

theorem refuses_bind_never (hn : ∀ v, NeverRefuses (rest v)) :
    Refuses (first.bind rest) db supply ↔ Refuses first db supply := by
  refine refuses_bind.trans (or_iff_left ?_)
  rintro ⟨v, m, k, -, hr⟩
  exact (hn v).not_refuses hr

@[simp] theorem refuses_read_bind :
    Refuses ((Tx.read answer).bind rest) db supply ↔ Refuses (rest (answer db)) db supply :=
  Iff.rfl

@[simp] theorem refuses_readLocking_bind :
    Refuses ((Tx.readLocking lock answer).bind rest) db supply ↔
      Refuses (rest (answer db)) db supply :=
  Iff.rfl

@[simp] theorem refuses_done : ¬ Refuses (.done v : ResourceTx α) db supply := by
  simp [Refuses]

theorem refuses_forSome : Refuses (Tx.forSome v body) db supply ↔
      ∃ item, v = some item ∧ Refuses (body item) db supply := by
  cases v <;> simp [Tx.forSome]

@[simp] theorem refuses_raise :
    Refuses (.raise error : ResourceTx α) db supply ↔ error.isInvariant := by
  simp [Refuses]

@[simp] theorem refuses_ensure : Refuses (Tx.ensure condition error) db supply ↔
      condition = false ∧ error.isInvariant := by
  simp [Refuses, and_assoc]

@[simp] theorem refuses_ofExcept : Refuses (Tx.ofExcept computed) db supply ↔
      ∃ error, computed = .error error ∧ error.isInvariant := by
  simp [Refuses]

theorem refuses_orRaise_bind (he : error.isInvariant = false) :
    Refuses ((Tx.orRaise found error).bind rest) db supply ↔
      ∃ v, found = some v ∧ Refuses (rest v) db supply := by
  cases found with
  | none => simp [Tx.orRaise, Tx.bind, he]
  | some v => simp [Tx.orRaise, Tx.bind]

theorem refuses_ensure_bind {condition : Bool} {rest : Unit → ResourceTx β}
    (he : error.isInvariant) : Refuses ((Tx.ensure condition error).bind rest) db supply ↔
      condition = false ∨ Refuses (rest ()) db supply ∧ condition := by
  cases condition with
  | false => simp [Tx.ensure, Tx.bind, he]
  | true => simp [Tx.ensure, Tx.bind]

theorem never_constrained : NeverRefuses (constrained lock constraints w) := by
  refine .query fun db error ha => ?_
  split at ha <;> cases ha
  rfl

theorem never_emitStateChange : NeverRefuses (emitStateChange clock args) :=
  .bind .newId fun _ => .bind never_constrained fun _ => .done

end

/-! ### `record_transaction` -/

structure RecordAsked (args : RecordArgs) (db : ResourceDb) (kind : TransactionType)
    (delta : Dict) (row : ResourceRow) : Prop where
  kind_eq : TransactionType.ofText args.kind = some kind
  delta_eq : args.delta = .object delta
  found : db.resources.get args.resourceId = some row

def goesNegative (row : ResourceRow) (kind : TransactionType) (delta : Dict) : Prop :=
  row.kind = .capacity ∧ ∃ newCv, applyDelta row.currentValue delta row.kind kind = .ok newCv ∧
    (newCv.getD "available_units" (.int 0)).isNegative = .ok true

/-- The resource is archived, R4, or the delta takes more than is available, R1. -/
def RecordRefusal (args : RecordArgs) (db : ResourceDb) : Prop :=
  ∃ kind delta row, RecordAsked args db kind delta row ∧
    (row.archivedAt.isSome ∨ goesNegative row kind delta)

theorem lifted_eq_error_iff :
    lifted computed = .error error ↔ ∃ raised, computed = .error raised ∧ error = .python raised := by
  cases computed <;> simp [lifted, eq_comm]

theorem lifted_not_invariant (he : lifted computed = .error error) : error.isInvariant = false := by
  obtain ⟨raised, -, rfl⟩ := lifted_eq_error_iff.mp he
  rfl

variable {row : ResourceRow} {delta newCv : Dict} {kind : TransactionType} {clock : Clock}
  {args : RecordArgs} {db : ResourceDb} {supply : Nat}

theorem checkR1_refused_iff (hr : requestedUnits delta = .ok requested)
    (ha : row.currentValue.units "available_units" = .ok available) :
    (∃ error, checkR1 resourceId row delta newCv = .error error ∧ error.isInvariant) ↔
      row.kind = .capacity ∧ (newCv.getD "available_units" (.int 0)).isNegative = .ok true := by
  unfold checkR1
  cases row.kind with
  | capacity =>
    cases (newCv.getD "available_units" (.int 0)).isNegative with
    | error raised => simp [lifted, bind, Except.bind, ResourceError.isInvariant]
    | ok negative =>
      cases negative <;>
        simp [lifted, bind, Except.bind, pure, Except.pure, hr, ha, throw,
          throwThe, MonadExceptOf.throw, ResourceError.isInvariant]
  | _ => simp

theorem newValues_refused_iff :
    (∃ error, newValues resourceId row kind delta = .error error ∧ error.isInvariant) ↔
      goesNegative row kind delta := by
  constructor
  · rintro ⟨error, he, hi⟩
    rcases bind_eq_error_iff.mp he with hdl | ⟨newCv, hdl, he⟩
    · rw [lifted_not_invariant hdl] at hi
      cases hi
    · rcases bind_eq_error_iff.mp he with hc | ⟨_, -, he⟩
      · have hk : row.kind = .capacity := by
          unfold checkR1 at hc
          split at hc
          · assumption
          · cases hc
        have ha := lifted_eq_ok_iff.mp hdl
        obtain ⟨requested, _, available, hrq, -, hav, -⟩ :=
          applyCapacity_eq_ok (by simpa [applyDelta, hk] using ha)
        exact ⟨hk, newCv, ha, ((checkR1_refused_iff hrq hav).mp ⟨error, hc, hi⟩).2⟩
      · rcases bind_eq_error_iff.mp he with hu | ⟨_, -, hd⟩
        · rw [lifted_not_invariant hu] at hi
          cases hi
        · cases hd
  · rintro ⟨hk, newCv, ha, hn⟩
    obtain ⟨requested, _, available, hrq, -, hav, -⟩ :=
      applyCapacity_eq_ok (by simpa [applyDelta, hk] using ha)
    have hr : ∃ error, checkR1 resourceId row delta newCv = .error error ∧
        error.isInvariant := (checkR1_refused_iff hrq hav).mpr ⟨hk, hn⟩
    obtain ⟨error, hc, hi⟩ := hr
    exact ⟨error, bind_eq_error_iff.mpr (.inr ⟨newCv, lifted_eq_ok_iff.mpr ha,
      bind_eq_error_iff.mpr (.inl hc)⟩), hi⟩

theorem never_writeTransaction :
    NeverRefuses (writeTransaction clock args row kind delta newCv newUtil) :=
  .bind .newId fun _ => .bind never_constrained fun _ => .bind never_constrained fun _ =>
    .bind never_emitStateChange fun _ => .bind .read fun _ => .orRaise rfl

theorem refuses_recordLocked_iff : Refuses (recordLocked clock args kind delta) db supply ↔
      ∃ row, db.resources.get args.resourceId = some row ∧
        (row.archivedAt.isSome ∨ goesNegative row kind delta) := by
  unfold recordLocked
  simp only [Tx.bind_eq_bind]
  rw [refuses_readLocking_bind, refuses_orRaise_bind rfl]
  refine exists_congr fun row => and_congr_right fun _ => ?_
  rw [refuses_ensure_bind rfl, refuses_bind_never fun _ => never_writeTransaction,
    refuses_ofExcept, newValues_refused_iff]
  cases row.archivedAt <;> simp

theorem refuses_recordTransaction_iff :
    Refuses (recordTransaction clock args) db supply ↔ RecordRefusal args db := by
  unfold recordTransaction
  constructor
  · intro hrf
    cases hk : TransactionType.ofText args.kind with
    | none => simp [hk, ResourceError.isInvariant] at hrf
    | some kind =>
      cases hd : args.delta with
      | object delta =>
        simp only [hk, hd] at hrf
        obtain ⟨row, hr, hc⟩ := refuses_recordLocked_iff.mp hrf
        exact ⟨kind, delta, row, ⟨hk, hd, hr⟩, hc⟩
      | _ => simp [hk, hd, ResourceError.isInvariant] at hrf
  · rintro ⟨kind, delta, row, ha, hc⟩
    simp only [ha.kind_eq, ha.delta_eq]
    exact refuses_recordLocked_iff.mpr ⟨row, ha.found, hc⟩

/-- What a transaction needs to be recorded, under the id it is handed. -/
def RecordAccepted (args : RecordArgs) (db : ResourceDb) (txId : Nat) : Prop :=
  ∃ kind delta row, RecordAsked args db kind delta row ∧ row.archivedAt = none ∧
    (∃ values, newValues args.resourceId row kind delta = .ok values) ∧
    db.transactions.get (txId, args.occurredAt) = none ∧ row.tenantId ∈ db.tenants

theorem emitStateChange_returns (clock : Clock) (args : Observations.StateChangeArgs)
    (db : ResourceDb) (supply : Nat) (ht : args.tenantId ∈ db.tenants) :
    Tx.Returns ResourceDb.apply (emitStateChange clock args) db supply supply
      (db.apply (.insertObservation supply (args.row clock))) (supply + 1) := by
  unfold emitStateChange
  simp only [Tx.bind_eq_bind]
  rw [Tx.returns_newId_bind]
  exact Tx.returns_bind.mpr ⟨(), _, _, returns_constrained.mpr ⟨by simpa using ht, rfl, rfl⟩, rfl⟩

theorem returns_writeTransaction_iff (hr : db.resources.get args.resourceId = some row) :
    (∃ v t left, Tx.Returns ResourceDb.apply
      (writeTransaction clock args row kind delta newCv newUtil) db supply v t left) ↔
      db.transactions.get (supply, args.occurredAt) = none ∧ row.tenantId ∈ db.tenants := by
  unfold writeTransaction
  simp only [Tx.bind_eq_bind, Tx.returns_newId_bind]
  constructor
  · rintro ⟨v, t, left, hrt⟩
    obtain ⟨_, _, _, hi, -⟩ := hrt.parts
    obtain ⟨hc, -, -⟩ := returns_constrained.mp hi
    exact ⟨by simpa using hc _ (.head _), by simpa using hc _ (.tail _ (List.mem_cons_of_mem _
        List.mem_cons_self))⟩
  · rintro ⟨hf, ht⟩
    have hi : ∀ constraint ∈ [(!(db.transactions.get (supply, args.occurredAt)).isSome,
          Acts.ConstraintViolation.unique "resource_transactions"),
        ((db.resources.get args.resourceId).isSome,
          .foreignKey "resource_transactions" "resource_id"),
        (decide (row.tenantId ∈ db.tenants), .foreignKey "resource_transactions" "tenant_id")],
        constraint.1 := by
      simp [hf, hr, ht]
    let stored := transactionRow clock args row kind delta
    let moved := (db.apply (.insertTransaction supply args.occurredAt stored)).apply
      (.setValue args.resourceId newCv newUtil clock.transactionNow args.sourceEventId)
    let observation := transactionObservation args row kind newUtil supply
    let emitted := moved.apply (.insertObservation (supply + 1) (observation.row clock))
    have he := emitStateChange_returns clock observation moved (supply + 1) ht
    refine ⟨stored, emitted, supply + 1 + 1, Tx.returns_bind.mpr ⟨(), _, _,
      returns_constrained.mpr ⟨hi, rfl, rfl⟩, Tx.returns_bind.mpr ⟨(), moved, _,
        returns_constrained.mpr ⟨by simp, rfl, rfl⟩, Tx.returns_bind.mpr ⟨_, _, _, he, ?_⟩⟩⟩⟩
    refine Tx.returns_orRaise.mpr ⟨?_, rfl, rfl⟩
    simp [moved, stored, ResourceDb.apply, Table.insertNew, hf]

theorem returns_recordLocked_iff :
    (∃ v t left, Tx.Returns ResourceDb.apply (recordLocked clock args kind delta) db supply
      v t left) ↔
      ∃ row, db.resources.get args.resourceId = some row ∧ row.archivedAt = none ∧
        (∃ values, newValues args.resourceId row kind delta = .ok values) ∧
        db.transactions.get (supply, args.occurredAt) = none ∧ row.tenantId ∈ db.tenants := by
  unfold recordLocked
  simp only [Tx.bind_eq_bind, Tx.returns_readLocking_bind]
  constructor
  · rintro ⟨v, t, left, hrt⟩
    obtain ⟨row, _, _, hf, hrt⟩ := hrt.parts
    obtain ⟨hr, rfl, rfl⟩ := Tx.returns_orRaise.mp hf
    obtain ⟨_, _, _, ha, hrt⟩ := hrt.parts
    obtain ⟨hn, rfl, rfl⟩ := Tx.returns_ensure.mp ha
    obtain ⟨values, _, _, hv, hrt⟩ := hrt.parts
    obtain ⟨hnw, rfl, rfl⟩ := Tx.returns_ofExcept.mp hv
    exact ⟨row, hr, by simpa using hn, ⟨values, hnw⟩,
      (returns_writeTransaction_iff hr).mp ⟨v, t, left, hrt⟩⟩
  · rintro ⟨row, hr, ha, ⟨values, hv⟩, hro⟩
    have hw : ∃ v t left, Tx.Returns ResourceDb.apply
        (writeTransaction clock args row kind delta values.1 values.2) db supply v t left :=
      (returns_writeTransaction_iff hr).mpr hro
    obtain ⟨v, t, left, hrt⟩ := hw
    exact ⟨v, t, left, Tx.returns_bind.mpr ⟨row, _, _, Tx.returns_orRaise.mpr ⟨hr, rfl, rfl⟩,
      Tx.returns_bind.mpr ⟨(), _, _, Tx.returns_ensure.mpr ⟨by simp [ha], rfl, rfl⟩,
        Tx.returns_bind.mpr ⟨values, _, _, Tx.returns_ofExcept.mpr ⟨hv, rfl, rfl⟩, hrt⟩⟩⟩⟩

theorem returns_recordTransaction_iff :
    (∃ v t left, Tx.Returns ResourceDb.apply (recordTransaction clock args) db supply v
      t left) ↔ RecordAccepted args db supply := by
  unfold recordTransaction
  constructor
  · rintro ⟨v, t, left, hrt⟩
    cases hk : TransactionType.ofText args.kind with
    | none => simp [hk] at hrt
    | some kind =>
      cases hd : args.delta with
      | object delta =>
        simp only [hk, hd] at hrt
        obtain ⟨row, hr, ha⟩ := returns_recordLocked_iff.mp ⟨v, t, left, hrt⟩
        exact ⟨kind, delta, row, ⟨hk, hd, hr⟩, ha⟩
      | _ => simp [hk, hd] at hrt
  · rintro ⟨kind, delta, row, hak, ha⟩
    simp only [hak.kind_eq, hak.delta_eq]
    exact returns_recordLocked_iff.mpr ⟨row, hak.found, ha⟩

/-! ### `deploy` and `release` -/

def fallsShort (row : ResourceRow) (units : Value) : Prop :=
  ∃ available requested, row.currentValue.units "available_units" = .ok available ∧
    units.toInt = .ok requested ∧ available < requested

theorem preflight_refused_iff {args : DeployArgs} :
    (∃ error, preflight args row.currentValue units = .error error ∧ error.isInvariant) ↔
      fallsShort row units := by
  unfold preflight fallsShort
  constructor
  · rintro ⟨error, he, hi⟩
    rcases bind_eq_error_iff.mp he with ha | ⟨available, ha, he⟩
    · rw [lifted_not_invariant ha] at hi
      cases hi
    · rcases bind_eq_error_iff.mp he with hr | ⟨requested, hr, he⟩
      · rw [lifted_not_invariant hr] at hi
        cases hi
      · refine ⟨available, requested, lifted_eq_ok_iff.mp ha, lifted_eq_ok_iff.mp hr, ?_⟩
        by_contra hro
        simp only [hro, if_false] at he
        cases he
  · rintro ⟨available, requested, ha, hr, hs⟩
    simp only [ha, hr, lifted, bind, Except.bind, hs, if_true]
    exact ⟨_, rfl, rfl⟩

inductive MoveRefusal (args : DeployArgs) (startedAt : Nat) (row : ResourceRow)
    (db : ResourceDb) : Option Value → Prop where
  | missing : MoveRefusal args startedAt row db none
  | short (units : Value) (hshort : fallsShort row units) :
    MoveRefusal args startedAt row db (some units)
  | record (units : Value) (requested : Int)
      (hpreflight : preflight args row.currentValue units = .ok requested)
      (hrefusal : RecordRefusal (args.transaction startedAt requested) db) :
    MoveRefusal args startedAt row db (some units)

def MoveAccepted (args : DeployArgs) (startedAt : Nat) (row : ResourceRow) (db : ResourceDb)
    (txId : Nat) (units : Option Value) : Prop :=
  ∃ given requested, units = some given ∧ preflight args row.currentValue given = .ok requested ∧
    RecordAccepted (args.transaction startedAt requested) db txId

section

variable {clock : Clock} {args : DeployArgs} {startedAt : Nat} {row : ResourceRow}
  {db : ResourceDb} {supply : Nat} {units : Option Value}

theorem refuses_deployCapacity_iff :
    Refuses (deployCapacity clock args startedAt row.currentValue units) db supply ↔
      MoveRefusal args startedAt row db units := by
  unfold deployCapacity
  cases units with
  | none =>
    simp only [Tx.orRaise, Tx.bind_eq_bind, Tx.bind, refuses_raise, ResourceError.isInvariant,
      true_iff]
    exact .missing
  | some given =>
    simp only [Tx.orRaise, Tx.bind_eq_bind, Tx.bind, Tx.pure_eq_done]
    rw [refuses_bind, refuses_ofExcept, preflight_refused_iff]
    constructor
    · rintro (hs | ⟨requested, _, _, hc, hr⟩)
      · exact .short given hs
      · obtain ⟨hp, rfl, rfl⟩ := Tx.returns_ofExcept.mp hc
        rw [refuses_bind_never fun _ => .done, refuses_recordTransaction_iff] at hr
        exact .record given requested hp hr
    · rintro (_ | ⟨_, hs⟩ | ⟨_, requested, hp, hrf⟩)
      · exact .inl hs
      · refine .inr ⟨requested, _, _, Tx.returns_ofExcept.mpr ⟨hp, rfl, rfl⟩, ?_⟩
        rw [refuses_bind_never fun _ => .done, refuses_recordTransaction_iff]
        exact hrf

theorem returns_deployCapacity_iff : (∃ t left, Tx.Returns ResourceDb.apply
      (deployCapacity clock args startedAt row.currentValue units) db supply () t left) ↔
      MoveAccepted args startedAt row db supply units := by
  constructor
  · rintro ⟨t, left, hrt⟩
    obtain ⟨given, _, _, hg, hrt⟩ := hrt.parts
    obtain ⟨hu, rfl, rfl⟩ := Tx.returns_orRaise.mp hg
    obtain ⟨requested, _, _, hc, hrt⟩ := hrt.parts
    obtain ⟨hp, rfl, rfl⟩ := Tx.returns_ofExcept.mp hc
    obtain ⟨v, m, k, hrc, -⟩ := hrt.parts
    exact ⟨given, requested, hu, hp, returns_recordTransaction_iff.mp ⟨v, m, k, hrc⟩⟩
  · rintro ⟨given, requested, hu, hp, ha⟩
    have hr : ∃ v t left, Tx.Returns ResourceDb.apply
        (recordTransaction clock (args.transaction startedAt requested)) db supply v t
          left := returns_recordTransaction_iff.mpr ha
    obtain ⟨v, t, left, hrc⟩ := hr
    exact ⟨t, left, Tx.returns_bind.mpr ⟨given, _, _, Tx.returns_orRaise.mpr ⟨hu, rfl, rfl⟩,
      Tx.returns_bind.mpr ⟨requested, _, _, Tx.returns_ofExcept.mpr ⟨hp, rfl, rfl⟩,
        Tx.returns_bind.mpr ⟨v, _, _, hrc, rfl⟩⟩⟩⟩

end

structure DeployAsked (args : DeployArgs) (db : ResourceDb) (quantity : Dict)
    (row : ResourceRow) : Prop where
  quantity_eq : args.quantity = .object quantity
  positive : (quantity.given "units").all Value.isPositive
  found : db.resources.get args.resourceId = some row

def ReleasedBefore (resourceId commitmentId : Nat) (db : ResourceDb) : Prop :=
  ∃ row, db.deployments.get (resourceId, commitmentId) = some row ∧ row.releasedAt.isSome

/-- The invariants that refuse a deployment: R2 on its units, those of the move of
the counters, and R5 on a pair whose deployment was released. -/
inductive DeployRefusal (clock : Clock) (args : DeployArgs) (db : ResourceDb)
    (supply : Nat) : Prop where
  | nonpositive (quantity : Dict) (hquantity : args.quantity = .object quantity)
      (hunits : (quantity.given "units").all Value.isPositive = false)
  | moved (quantity : Dict) (row : ResourceRow) (hasked : DeployAsked args db quantity row)
      (hkind : row.kind = .capacity)
      (hrefusal : MoveRefusal args (args.startedAt.getD clock.processNow) row db
        (quantity.given "units"))
  | again (quantity : Dict) (row : ResourceRow) (hasked : DeployAsked args db quantity row)
      (haccepted : row.kind = .capacity → MoveAccepted args
        (args.startedAt.getD clock.processNow) row db supply (quantity.given "units"))
      (hreleased : ReleasedBefore args.resourceId args.commitmentId db)

section

variable {clock : Clock} {args : DeployArgs} {quantity : Dict} {startedAt : Nat}
  {row : ResourceRow} {db : ResourceDb} {supply : Nat}

theorem refuses_insertDeployment_iff :
    Refuses (insertDeployment args quantity startedAt) db supply ↔
      ReleasedBefore args.resourceId args.commitmentId db := by
  unfold insertDeployment ReleasedBefore
  simp only [Tx.bind_eq_bind, Tx.pure_eq_done]
  rw [refuses_read_bind,
    refuses_bind_never fun _ => .bind never_constrained fun _ => .done, refuses_ensure]
  cases db.deployments.get (args.resourceId, args.commitmentId) with
  | none => simp
  | some deployment =>
    cases hr : deployment.releasedAt <;> simp [hr, ResourceError.isInvariant]

theorem refuses_moveThenInsert_iff (hr : db.resources.get args.resourceId = some row) :
    Refuses ((Tx.when (row.kind = .capacity) (deployCapacity clock args startedAt row.currentValue
      (quantity.given "units"))).bind fun _ => insertDeployment args quantity startedAt) db supply ↔
      (row.kind = .capacity ∧ MoveRefusal args startedAt row db (quantity.given "units")) ∨
        ((row.kind = .capacity →
          MoveAccepted args startedAt row db supply (quantity.given "units")) ∧
            ReleasedBefore args.resourceId args.commitmentId db) := by
  by_cases hk : row.kind = .capacity
  · simp only [hk, Tx.when, decide_true, if_true, true_and, forall_const]
    rw [refuses_bind, refuses_deployCapacity_iff]
    refine or_congr_right ?_
    constructor
    · rintro ⟨⟨⟩, m, k, hmv, hrf⟩
      have hm := returns_deployCapacity hr hk hmv
      have hrl := refuses_insertDeployment_iff.mp hrf
      rw [ReleasedBefore, hm.deployments] at hrl
      exact ⟨returns_deployCapacity_iff.mp ⟨m, k, hmv⟩, hrl⟩
    · rintro ⟨ha, hrl⟩
      have hrt : ∃ t left, Tx.Returns ResourceDb.apply
          (deployCapacity clock args startedAt row.currentValue (quantity.given "units")) db
            supply () t left := returns_deployCapacity_iff.mpr ha
      obtain ⟨m, k, hmv⟩ := hrt
      refine ⟨(), m, k, hmv, refuses_insertDeployment_iff.mpr ?_⟩
      rw [ReleasedBefore, (returns_deployCapacity hr hk hmv).deployments]
      exact hrl
  · simp only [hk, Tx.when, decide_false, Bool.false_eq_true, if_false, false_and, false_or,
      false_implies, true_and]
    exact refuses_insertDeployment_iff

theorem refuses_deploy_iff :
    Refuses (deploy clock args) db supply ↔ DeployRefusal clock args db supply := by
  unfold deploy checkR2 deployChecked
  constructor
  · intro hrf
    cases hq : args.quantity with
    | object quantity =>
      simp only [hq, Tx.bind_eq_bind] at hrf
      rw [refuses_ensure_bind rfl, refuses_read_bind, refuses_orRaise_bind rfl] at hrf
      rcases hrf with hu | ⟨⟨row, hr, hrf⟩, hp⟩
      · exact .nonpositive quantity hq hu
      · have hak : DeployAsked args db quantity row := ⟨hq, hp, hr⟩
        rcases (refuses_moveThenInsert_iff hr).mp hrf with
          ⟨hk, hre⟩ | ⟨ha, hrl⟩
        · exact .moved quantity row hak hk hre
        · exact .again quantity row hak ha hrl
    | _ => simp [hq, ResourceError.isInvariant] at hrf
  · have hc : ∀ quantity row, DeployAsked args db quantity row →
        ((row.kind = .capacity ∧ MoveRefusal args (args.startedAt.getD clock.processNow) row db
          (quantity.given "units")) ∨
        ((row.kind = .capacity → MoveAccepted args (args.startedAt.getD clock.processNow) row db
          supply (quantity.given "units")) ∧ ReleasedBefore args.resourceId args.commitmentId db)) →
        Refuses (deploy clock args) db supply := by
      intro quantity row hak hcs
      unfold deploy checkR2 deployChecked
      simp only [hak.quantity_eq, Tx.bind_eq_bind]
      rw [refuses_ensure_bind rfl, refuses_read_bind, refuses_orRaise_bind rfl]
      exact .inr ⟨⟨row, hak.found, (refuses_moveThenInsert_iff hak.found).mpr hcs⟩, hak.positive⟩
    intro hre
    cases hre with
    | nonpositive quantity hq hu =>
      simp only [hq, Tx.bind_eq_bind]
      rw [refuses_ensure_bind rfl]
      exact .inl hu
    | moved quantity row hak hk hre =>
      exact hc quantity row hak (.inl ⟨hk, hre⟩)
    | again quantity row hak ha hrl =>
      exact hc quantity row hak (.inr ⟨ha, hrl⟩)

end

structure ReleaseAsked (args : ReleaseArgs) (db : ResourceDb) (row : DeploymentRow)
    (resource : ResourceRow) : Prop where
  found : db.deployments.get (args.resourceId, args.commitmentId) = some row
  resource_found : db.resources.get args.resourceId = some resource
  active : row.releasedAt = none

def exceedsDeployed (deployed released : Dict) : Prop :=
  ∃ releasedUnits deployedUnits, released.get "units" = some releasedUnits ∧
    deployed.get "units" = some deployedUnits ∧ releasedUnits.exceeds deployedUnits = .ok true

inductive ReleaseRefusal (clock : Clock) (args : ReleaseArgs) (db : ResourceDb) : Prop where
  | exceeds (row : DeploymentRow) (resource : ResourceRow) (released : Dict)
      (hasked : ReleaseAsked args db row resource) (hkind : resource.kind = .capacity)
      (hactual : args.actualQuantity = some released)
      (hexceeds : exceedsDeployed (row.deployedQuantity.getD []) released)
  | record (row : DeploymentRow) (resource : ResourceRow) (quantity : Dict) (units : Value)
      (returned : Int) (hasked : ReleaseAsked args db row resource)
      (hkind : resource.kind = .capacity)
      (hquantity : releaseQuantity args .capacity (row.deployedQuantity.getD []) = .ok quantity)
      (hunits : quantity.get "units" = some units) (hreturned : units.toInt = .ok returned)
      (hrefusal : RecordRefusal
        (args.transaction (args.releasedAt.getD clock.processNow) returned) db)

section Releases

variable {clock : Clock} {args : ReleaseArgs} {db : ResourceDb} {supply : Nat}

variable {kind : Acts.ResourceKind}

theorem checkR3_refused_iff (args : ReleaseArgs) :
    (∃ error, checkR3 args kind deployed released = .error error ∧ error.isInvariant) ↔
      kind = .capacity ∧ exceedsDeployed deployed released := by
  unfold checkR3 exceedsDeployed
  split
  · next releasedUnits deployedUnits hr hd =>
    simp only [hr, hd, Option.some.injEq, true_and]
    cases he : releasedUnits.exceeds deployedUnits with
    | error raised =>
      simp [lifted, bind, Except.bind, ResourceError.isInvariant, he]
    | ok exceeds =>
      cases exceeds <;>
        simp [lifted, bind, Except.bind, pure, Except.pure, throw, throwThe,
          MonadExceptOf.throw, ResourceError.isInvariant, he]
  · next hn =>
    simp only [reduceCtorEq, false_and, exists_false, false_iff, not_and, not_exists]
    intro hk releasedUnits deployedUnits hr hd
    exact absurd hd (hn releasedUnits deployedUnits hk hr)

theorem releaseQuantity_refused_iff :
    (∃ error, releaseQuantity args kind deployed = .error error ∧ error.isInvariant) ↔
      ∃ released, args.actualQuantity = some released ∧ kind = .capacity ∧
        exceedsDeployed deployed released := by
  unfold releaseQuantity
  cases args.actualQuantity with
  | none => simp
  | some released =>
    simp only [Option.some.injEq, exists_eq_left']
    rw [← checkR3_refused_iff args]
    constructor
    · rintro ⟨error, he, hi⟩
      rcases bind_eq_error_iff.mp he with hc | ⟨_, -, hd⟩
      · exact ⟨error, hc, hi⟩
      · cases hd
    · rintro ⟨error, hc, hi⟩
      exact ⟨error, bind_eq_error_iff.mpr (.inl hc), hi⟩

theorem refuses_releaseCapacity_iff :
    Refuses (releaseCapacity clock args releasedAt units) db supply ↔
      ∃ returned, units.toInt = .ok returned ∧
        RecordRefusal (args.transaction releasedAt returned) db := by
  unfold releaseCapacity
  simp only [Tx.bind_eq_bind, Tx.pure_eq_done]
  rw [refuses_bind, refuses_ofExcept]
  constructor
  · rintro (⟨error, he, hi⟩ | ⟨returned, _, _, hc, hr⟩)
    · rw [lifted_not_invariant he] at hi
      cases hi
    · obtain ⟨hrt, rfl, rfl⟩ := Tx.returns_ofExcept.mp hc
      rw [refuses_bind_never fun _ => .done, refuses_recordTransaction_iff] at hr
      exact ⟨returned, lifted_eq_ok_iff.mp hrt, hr⟩
  · rintro ⟨returned, hrt, hrf⟩
    refine .inr ⟨returned, _, _, Tx.returns_ofExcept.mpr ⟨lifted_eq_ok_iff.mpr hrt, rfl, rfl⟩, ?_⟩
    rw [refuses_bind_never fun _ => .done, refuses_recordTransaction_iff]
    exact hrf

theorem joined_eq_some_iff {row : DeploymentRow} :
    ((db.deployments.get (args.resourceId, args.commitmentId)).bind fun row =>
      (db.resources.get args.resourceId).map fun resource => (row, resource.kind)) =
        some (row, kind) ↔
      ∃ resource, db.deployments.get (args.resourceId, args.commitmentId) = some row ∧
        db.resources.get args.resourceId = some resource ∧ resource.kind = kind := by
  cases db.deployments.get (args.resourceId, args.commitmentId) <;>
    cases db.resources.get args.resourceId <;> simp

theorem refuses_releaseActive_iff {row : DeploymentRow} (hak : ReleaseAsked args db row resource) :
    Refuses ((Tx.ofExcept (releaseQuantity args resource.kind (row.deployedQuantity.getD []))).bind
      fun quantity => (Tx.forSome (if resource.kind = .capacity then quantity.get "units" else none)
        (releaseCapacity clock args (args.releasedAt.getD clock.processNow))).bind fun _ =>
          .query (fun _ => some (.deployment args.resourceId args.commitmentId)) fun _ =>
            .ok ([.setReleased args.resourceId args.commitmentId
              (args.releasedAt.getD clock.processNow)],
              row.released (args.releasedAt.getD clock.processNow))) db supply ↔
      ReleaseRefusal clock args db := by
  have hw : ∀ _ : Unit, NeverRefuses (.query
      (fun _ => some (.deployment args.resourceId args.commitmentId)) fun _ =>
        .ok ([.setReleased args.resourceId args.commitmentId
          (args.releasedAt.getD clock.processNow)],
          row.released (args.releasedAt.getD clock.processNow))) :=
    fun _ => .query fun _ _ ha => by cases ha
  rw [refuses_bind, refuses_ofExcept, releaseQuantity_refused_iff]
  constructor
  · rintro (⟨released, hac, hk, he⟩ | ⟨quantity, _, _, hc, hr⟩)
    · exact .exceeds row resource released hak hk hac he
    · obtain ⟨hq, rfl, rfl⟩ := Tx.returns_ofExcept.mp hc
      rw [refuses_bind_never hw, refuses_forSome] at hr
      obtain ⟨units, hu, hr⟩ := hr
      obtain ⟨returned, hrt, hrf⟩ := refuses_releaseCapacity_iff.mp hr
      by_cases hk : resource.kind = .capacity
      · rw [if_pos hk] at hu
        rw [hk] at hq
        exact .record row resource quantity units returned hak hk hq hu hrt hrf
      · rw [if_neg hk] at hu
        cases hu
  · rintro (⟨row', resource', released, hak', hk, hac, he⟩ |
      ⟨row', resource', quantity, units, returned, hak', hk, hq, hu, hrt, hrf⟩)
    · cases hak.found.symm.trans hak'.found
      cases hak.resource_found.symm.trans hak'.resource_found
      exact .inl ⟨released, hac, hk, he⟩
    · cases hak.found.symm.trans hak'.found
      cases hak.resource_found.symm.trans hak'.resource_found
      rw [hk]
      refine .inr ⟨quantity, _, _, Tx.returns_ofExcept.mpr ⟨hq, rfl, rfl⟩, ?_⟩
      rw [refuses_bind_never hw, refuses_forSome]
      exact ⟨units, by rw [if_pos rfl, hu], refuses_releaseCapacity_iff.mpr ⟨returned, hrt, hrf⟩⟩

theorem refuses_release_iff :
    Refuses (release clock args) db supply ↔ ReleaseRefusal clock args db := by
  unfold release
  simp only [Tx.bind_eq_bind, Tx.pure_eq_done]
  rw [refuses_readLocking_bind, refuses_orRaise_bind rfl]
  constructor
  · rintro ⟨⟨row, kind⟩, hj, hr⟩
    obtain ⟨resource, hf, hrs, rfl⟩ := joined_eq_some_iff.mp hj
    cases hrl : row.releasedAt with
    | none =>
      simp only [hrl, Option.isSome_none, Bool.false_eq_true, if_false] at hr
      exact (refuses_releaseActive_iff ⟨hf, hrs, hrl⟩).mp hr
    | some releasedAt =>
      simp only [hrl, Option.isSome_some, if_true] at hr
      exact absurd hr refuses_done
  · intro hrf
    have ha : ∃ row resource, ReleaseAsked args db row resource := by
      cases hrf with
      | exceeds row resource _ ha => exact ⟨row, resource, ha⟩
      | record row resource _ _ _ ha => exact ⟨row, resource, ha⟩
    obtain ⟨row, resource, ha⟩ := ha
    refine ⟨(row, resource.kind), joined_eq_some_iff.mpr
      ⟨resource, ha.found, ha.resource_found, rfl⟩, ?_⟩
    simp only [ha.active, Option.isSome_none, Bool.false_eq_true, if_false]
    exact (refuses_releaseActive_iff ha).mpr hrf

end Releases

end FyralisCore.Resources
