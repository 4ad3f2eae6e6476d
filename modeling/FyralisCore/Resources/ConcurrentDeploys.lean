import FyralisCore.Lib.RelyGuarantee
import FyralisCore.Resources.DeployedUnits

/-! Concurrent deployments of one capacity. The availability is peeked without a
lock and read again under the row lock; a session that holds the lock is the
only one that moves the counters or adds deployments of the resource, so what
R1 has checked still stands when it commits. -/
namespace FyralisCore.Resources

open Relational Transaction Transition ReadCommitted Table ResourceDb
open Acts (Clock)

structure DeployCall where
  clock : Clock
  args : DeployArgs

def deploySchema : Schema ResourceDb Write RowRef ResourceError DeployCall where
  apply := apply
  program call := (deploy call.clock call.args).bind fun _ => .done ()

def takenShare (resourceId : Nat) (key : Nat × Nat) (row : DeploymentRow) : Int :=
  if key.1 = resourceId then row.units else 0

def takenUnits (resourceId : Nat) (db : ResourceDb) : Int :=
  db.deployments.sum (takenShare resourceId)

def Write.touches (resourceId : Nat) : Write → Bool
  | .setValue id _ _ _ _ => id == resourceId
  | .insertDeployment id _ _ => id == resourceId
  | .setReleased id _ _ => id == resourceId
  | .insertTransaction _ _ _ => false
  | .insertObservation _ _ => false

structure SameAt (resourceId : Nat) (first second : ResourceDb) : Prop where
  resource : first.resources.get resourceId = second.resources.get resourceId
  deployments : ∀ commitmentId, first.deployments.get (resourceId, commitmentId) =
    second.deployments.get (resourceId, commitmentId)
  taken : takenUnits resourceId first = takenUnits resourceId second

/-- Something is available, and with the units of all deployments it is within
the bound. -/
structure Within (resourceId : Nat) (bound : Int) (db : ResourceDb) : Prop where
  intro ::
  room : ∃ row available, db.resources.get resourceId = some row ∧ row.kind = .capacity ∧
    (row.currentValue.getD "available_units" (.int 0)).isNegative = .ok false ∧
    row.currentValue.units "available_units" = .ok available ∧
    available + takenUnits resourceId db ≤ bound

variable {resourceId : Nat} {bound : Int} {first second third db : ResourceDb}

theorem SameAt.refl (db : ResourceDb) : SameAt resourceId db db :=
  ⟨rfl, fun _ => rfl, rfl⟩

theorem SameAt.trans (h1 : SameAt resourceId first second)
    (h2 : SameAt resourceId second third) : SameAt resourceId first third :=
  ⟨h1.resource.trans h2.resource,
    fun commitmentId => (h1.deployments commitmentId).trans (h2.deployments commitmentId),
    h1.taken.trans h2.taken⟩

theorem Within.of_same (hw : Within resourceId bound first)
    (hs : SameAt resourceId first second) : Within resourceId bound second := by
  obtain ⟨row, available, hr, hk, hn, ha, hl⟩ := hw.room
  exact ⟨row, available, hs.resource ▸ hr, hk, hn, ha, hs.taken ▸ hl⟩

theorem taken_insertDeployment (resourceId : Nat) (db : ResourceDb) (key : Nat × Nat)
    (row : DeploymentRow) :
    takenUnits resourceId (db.apply (.insertDeployment key.1 key.2 row)) =
      (if db.deployments.get key = none then takenShare resourceId key row else 0) +
        takenUnits resourceId db := by
  cases hk : db.deployments.get key with
  | none =>
    exact sum_deployments_put _ hk
  | some existing =>
    simp [takenUnits, apply, Table.insertNew, hk]

theorem taken_setReleased (db : ResourceDb) (id commitmentId releasedAt : Nat) :
    takenUnits resourceId (db.apply (.setReleased id commitmentId releasedAt)) =
      takenUnits resourceId db :=
  sum_updateWhere_of_same _ _ fun _ _ => rfl

theorem SameAt.apply (hs : SameAt resourceId first second) (write : Write) :
    SameAt resourceId (first.apply write) (second.apply write) := by
  cases write with
  | insertTransaction => exact ⟨hs.resource, hs.deployments, hs.taken⟩
  | insertObservation => exact ⟨hs.resource, hs.deployments, hs.taken⟩
  | setValue id v utilization now eventId =>
    refine ⟨?_, hs.deployments, hs.taken⟩
    simp [ResourceDb.apply, get_update, hs.resource]
  | insertDeployment id commitmentId row =>
    refine ⟨hs.resource, ?_, ?_⟩
    · intro other
      simp only [ResourceDb.apply, get_insertNew]
      by_cases hk : (resourceId, other) = (id, commitmentId)
      · obtain ⟨rfl, rfl⟩ := Prod.mk.inj hk
        simp [hs.deployments]
      · simp [hk, false_and, hs.deployments]
    · rw [taken_insertDeployment resourceId first (id, commitmentId),
        taken_insertDeployment resourceId second (id, commitmentId), hs.taken]
      by_cases hi : id = resourceId
      · subst hi
        rw [hs.deployments]
      · simp [takenShare, hi]
  | setReleased id commitmentId releasedAt =>
    refine ⟨hs.resource, ?_, ?_⟩
    · intro other
      simp [ResourceDb.apply, get_update, hs.deployments]
    · rw [taken_setReleased, taken_setReleased, hs.taken]

variable {write : Write} {writes : List Write}

theorem sameAt_of_untouched (hu : write.touches resourceId = false) :
    SameAt resourceId db (db.apply write) := by
  cases write with
  | insertTransaction => exact ⟨rfl, fun _ => rfl, rfl⟩
  | insertObservation => exact ⟨rfl, fun _ => rfl, rfl⟩
  | setValue id v utilization now eventId =>
    have hn : resourceId ≠ id := Ne.symm (by simpa [Write.touches] using hu)
    refine ⟨?_, fun _ => rfl, rfl⟩
    simp [apply, get_update, hn]
  | insertDeployment id commitmentId row =>
    have hn : id ≠ resourceId := by simpa [Write.touches] using hu
    refine ⟨rfl, ?_, ?_⟩
    · intro other
      simp [apply, get_insertNew, Ne.symm hn]
    · rw [taken_insertDeployment resourceId db (id, commitmentId)]
      simp [takenShare, hn]
  | setReleased id commitmentId releasedAt =>
    have hn : id ≠ resourceId := by simpa [Write.touches] using hu
    refine ⟨rfl, ?_, (taken_setReleased db id commitmentId releasedAt).symm⟩
    intro other
    simp [apply, get_update, Ne.symm hn]

theorem SameAt.view (hs : SameAt resourceId first second) (writes : List Write) :
    SameAt resourceId (deploySchema.view first writes) (deploySchema.view second writes) := by
  induction writes generalizing first second with
  | nil => exact hs
  | cons write rest ih => exact ih (hs.apply write)

theorem sameAt_view_of_untouched (hu : ∀ write ∈ writes, write.touches resourceId = false) :
    SameAt resourceId db (deploySchema.view db writes) := by
  induction writes generalizing db with
  | nil => exact SameAt.refl db
  | cons write rest ih =>
    exact (sameAt_of_untouched (hu write (.head _))).trans
      (ih fun other ho => hu other (.tail _ ho))

def LockedWrites (resourceId : Nat) (trail : Trail Write RowRef) : Prop :=
  ∀ write ∈ trail.writes, write.touches resourceId → .resource resourceId ∈ trail.locks

/-- Whoever holds the row finds it, and its deployments, as it left them. -/
def deployProtocol (resourceId : Nat) (bound : Int) : Protocol deploySchema where
  Good := Within resourceId bound
  Own _ db trail := LockedWrites resourceId trail ∧
    Within resourceId bound (deploySchema.view db trail.writes)
  Rely trail db later := .resource resourceId ∈ trail.locks → SameAt resourceId db later
  Unused _ _ := True
  rely_refl := fun _ db _ => SameAt.refl db
  rely_trans := fun hfirst hsecond hheld => (hfirst hheld).trans (hsecond hheld)
  own_begin := by
    intro db hgood
    refine ⟨?_, hgood⟩
    intro write hwrite
    cases hwrite
  own_stable := by
    rintro start db later trail ⟨hlocked, hwithin⟩ hrely hgood
    refine ⟨hlocked, ?_⟩
    by_cases hheld : RowRef.resource resourceId ∈ trail.locks
    · exact hwithin.of_same ((hrely hheld).view trail.writes)
    · refine hgood.of_same (sameAt_view_of_untouched fun write hwrite => ?_)
      exact Bool.eq_false_iff.mpr fun htouches => hheld (hlocked write hwrite htouches)
  rely_commit := by
    rintro start other db mine theirs - ⟨hlocked, -⟩ - hdisjoint hheld
    refine sameAt_view_of_untouched fun write hwrite => ?_
    exact Bool.eq_false_iff.mpr fun htouches =>
      hdisjoint.1 _ (hlocked write hwrite htouches) hheld
  unused_commit := fun _ _ _ => trivial

def Untouched (resourceId : Nat) (_ : ResourceDb) (_ : Option RowRef) (writes : List Write) :
    Prop :=
  ∀ write ∈ writes, write.touches resourceId = false

/-- What the session knows while it holds the row: a fact about the resource and
its deployments, as the session sees them. -/
structure Holding (resourceId : Nat) (bound : Int) (P : ResourceDb → Prop) (db : ResourceDb)
    (trail : Trail Write RowRef) : Prop where
  locked : LockedWrites resourceId trail
  within : Within resourceId bound (deploySchema.view db trail.writes)
  held : RowRef.resource resourceId ∈ trail.locks
  fact : P (deploySchema.view db trail.writes)

def Local (resourceId : Nat) (P : ResourceDb → Prop) : Prop :=
  ∀ first second, P first → SameAt resourceId first second → P second

variable {start : ResourceDb} {P : ResourceDb → Prop} {trail : Trail Write RowRef}

variable {lock : Option RowRef} {clock : Clock} {args : DeployArgs}

theorem LockedWrites.extend (hl : LockedWrites resourceId trail)
    (hu : ∀ write ∈ writes, write.touches resourceId = false) :
    LockedWrites resourceId (trail.extend lock writes) := by
  intro write hw ht
  rcases List.mem_append.mp hw with ho | hn
  · exact List.mem_append_right _ (hl write ho ht)
  · rw [hu write hn] at ht
    cases ht

theorem sameAt_extend (db : ResourceDb) (trail : Trail Write RowRef) (lock : Option RowRef)
    (hu : ∀ write ∈ writes, write.touches resourceId = false) :
    SameAt resourceId (deploySchema.view db trail.writes)
      (deploySchema.view db (trail.extend lock writes).writes) := by
  rw [Trail.extend, Schema.view_append]
  exact sameAt_view_of_untouched hu

theorem wp_untouched (hb : body.EachStatement (Untouched resourceId))
    (ho : (deployProtocol resourceId bound).Own start db trail) :
    (deployProtocol resourceId bound).wp start
      (fun _ db trail => (deployProtocol resourceId bound).Own start db trail) body db trail := by
  refine wp_of_eachStatement (I := (deployProtocol resourceId bound).Own start) hb ?_ ?_ ?_ ho
  · exact fun s t trail hi hr hg =>
      (deployProtocol resourceId bound).own_stable hi hr hg
  · rintro t trail lock writes ⟨hl, hw⟩ - hu
    have hn : (deployProtocol resourceId bound).Own start t (trail.extend lock writes) :=
      ⟨hl.extend hu, hw.of_same (sameAt_extend t trail lock hu)⟩
    exact ⟨hn, hn⟩
  · exact fun t trail id hi _ _ _ => ⟨hi, hi⟩

theorem wp_holding (hb : body.EachStatement (Untouched resourceId)) (hl : Local resourceId P)
    (hh : Holding resourceId bound P db trail) :
    (deployProtocol resourceId bound).wp start (fun _ => Holding resourceId bound P) body db
      trail := by
  refine wp_of_eachStatement (I := Holding resourceId bound P) hb ?_ ?_ ?_ hh
  · intro s t trail hi hr _
    have hs := (hr hi.held).view trail.writes
    exact ⟨hi.locked, hi.within.of_same hs, hi.held, hl _ _ hi.fact hs⟩
  · intro t trail lock writes hi _ hu
    have hs := sameAt_extend t trail lock hu
    have hn : Holding resourceId bound P t (trail.extend lock writes) :=
      ⟨hi.locked.extend hu, hi.within.of_same hs,
        List.mem_append_right _ hi.held, hl _ _ hi.fact hs⟩
    exact ⟨⟨hn.locked, hn.within⟩, hn⟩
  · exact fun t trail id hi _ _ _ =>
      ⟨⟨hi.locked, hi.within⟩, hi.locked, hi.within, hi.held, hi.fact⟩

theorem constrained_untouched (hu : write.touches resourceId = false) :
    (constrained lock constraints write).EachStatement (Untouched resourceId) := by
  refine .query (fun db writes v ha => ?_) fun db error _ write hw => by cases hw
  split at ha
  · cases ha
  · cases ha
    intro other ho
    rw [List.mem_singleton.mp ho]
    exact hu

theorem emitStateChange_untouched (clock : Clock) (args : Observations.StateChangeArgs) :
    (emitStateChange clock args).EachStatement (Untouched resourceId) :=
  .bind .newId fun _ => .bind (constrained_untouched rfl) fun _ => .done

theorem nothing_untouched (db : ResourceDb) (lock : Option RowRef) :
    Untouched resourceId db lock [] := by
  intro write hw
  cases hw

theorem writeTransaction_untouched {args : RecordArgs}
    {delta : Dict} {newUtil : UtilizationState} (ho : args.resourceId ≠ resourceId) :
    (writeTransaction clock args row kind delta newCv newUtil).EachStatement
      (Untouched resourceId) :=
  .bind .newId fun _ => .bind (constrained_untouched rfl) fun _ =>
    .bind (constrained_untouched (by simpa [Write.touches] using ho)) fun _ =>
      .bind (emitStateChange_untouched _ _) fun _ =>
        .bind (.read fun db => nothing_untouched db none) fun _ => .orRaise

theorem recordTransaction_untouched {args : RecordArgs} (ho : args.resourceId ≠ resourceId) :
    (recordTransaction clock args).EachStatement (Untouched resourceId) := by
  unfold recordTransaction
  split
  · trivial
  · split
    · exact .bind (.readLocking fun db => nothing_untouched db _) fun _ => .bind .orRaise fun _ =>
        .bind .ensure fun _ => .bind .ofExcept fun _ => writeTransaction_untouched ho
    · trivial

theorem deploy_untouched (ho : args.resourceId ≠ resourceId) :
    (deploy clock args).EachStatement (Untouched resourceId) := by
  have hi : ∀ quantity startedAt,
      (insertDeployment args quantity startedAt).EachStatement (Untouched resourceId) :=
    fun quantity startedAt => .bind (.read fun db => nothing_untouched db none) fun _ =>
      .bind .ensure fun _ =>
        .bind (constrained_untouched (by simpa [Write.touches] using ho)) fun _ => .done
  unfold deploy
  split
  · exact .bind .ensure fun _ => .bind (.read fun db => nothing_untouched db none) fun _ =>
      .bind .orRaise fun _ =>
        .bind (.when (.bind .orRaise fun _ => .bind .ofExcept fun _ =>
          .bind (recordTransaction_untouched ho) fun _ => .done)) fun _ => hi _ _
  · trivial

theorem local_within (bound : Int) : Local resourceId (Within resourceId bound) :=
  fun _ _ hw hs => hw.of_same hs

theorem local_row (row : ResourceRow) :
    Local resourceId fun db => db.resources.get resourceId = some row :=
  fun _ _ hr hs => hs.resource.symm.trans hr

theorem Holding.stable (hh : Holding resourceId bound P db trail)
    (hl : Local resourceId P) (hr : (deployProtocol resourceId bound).Rely trail db u) :
    Holding resourceId bound P u trail := by
  have hs := (hr hh.held).view trail.writes
  exact ⟨hh.locked, hh.within.of_same hs, hh.held, hl _ _ hh.fact hs⟩

theorem wp_constrained_holding (hhl : Holding resourceId bound P db trail)
    (hl : Local resourceId P) (hw : ∀ seen, P seen → Within resourceId bound seen →
      (∀ constraint ∈ constraints seen, constraint.1) →
      Within resourceId bound (seen.apply write) ∧ Q (seen.apply write)) :
    (deployProtocol resourceId bound).wp start (fun _ => Holding resourceId bound Q)
      (constrained lock constraints write) db trail := by
  refine wp_query fun u hr _ => ?_
  have hlt := hhl.stable hl hr
  cases hf : (constraints (deploySchema.view u trail.writes)).find?
      fun constraint => !constraint.1 with
  | some constraint =>
    simp only
    refine ⟨hlt.locked.extend (nothing_untouched u none), ?_⟩
    exact hlt.within.of_same (sameAt_extend u trail lock (nothing_untouched u none))
  | none =>
    simp only
    have ha : ∀ constraint ∈ constraints (deploySchema.view u trail.writes),
        constraint.1 := by
      intro constraint hm
      simpa using List.find?_eq_none.mp hf constraint hm
    obtain ⟨hwn, hfc⟩ := hw _ hlt.fact hlt.within ha
    have hv : deploySchema.view u (trail.extend lock [write]).writes =
        (deploySchema.view u trail.writes).apply write := by
      rw [Trail.extend, Schema.view_append]
      rfl
    have hh : RowRef.resource resourceId ∈ (trail.extend lock [write]).locks :=
      List.mem_append_right _ hlt.held
    have hlk : LockedWrites resourceId (trail.extend lock [write]) := fun _ _ _ => hh
    exact ⟨⟨hlk, hv ▸ hwn⟩, hlk, hv ▸ hwn, hh, hv ▸ hfc⟩

theorem wp_lockResource (ho : (deployProtocol resourceId bound).Own start db trail) :
    (deployProtocol resourceId bound).wp start
      (fun row? db trail => ∃ row, row? = some row ∧ row.kind = .capacity ∧
        Holding resourceId bound (fun db => db.resources.get resourceId = some row) db trail)
      (Tx.readLocking (lockResource resourceId)
        fun db => db.resources.get resourceId) db trail := by
  refine wp_query fun u hrl hg => ?_
  obtain ⟨hlk, hw⟩ := (deployProtocol resourceId bound).own_stable ho hrl hg
  obtain ⟨row, available, hr, hk, ht⟩ := hw.room
  have hl : lockResource resourceId (deploySchema.view u trail.writes) =
      some (.resource resourceId) := by
    simp [lockResource, hr]
  simp only [hl]
  have hs : SameAt resourceId _ _ := sameAt_extend u trail (some (.resource resourceId))
    (nothing_untouched u none)
  have hl' : LockedWrites resourceId (trail.extend (some (.resource resourceId)) []) :=
    hlk.extend (nothing_untouched u none)
  refine ⟨⟨hl', hw.of_same hs⟩, row, hr, hk, ?_⟩
  exact ⟨hl', hw.of_same hs, .head _, hs.resource ▸ hr⟩

/-- The new value of a deployment leaves room for the row that is still to be
inserted. -/
theorem within_setValue
        (hv : newValues resourceId row .deploy [("deployed_units", .int requested)] =
      .ok (newCv, newUtil'))
    (hr : db.resources.get resourceId = some row) (hw : Within resourceId bound db) :
    Within resourceId (bound - requested)
      (db.apply (.setValue resourceId newCv newUtil now eventId)) := by
  obtain ⟨row', available, hr', hk, -, hav, hl⟩ := hw.room
  cases hr.symm.trans hr'
  obtain ⟨ha, hR1⟩ := newValues_eq_ok hv
  rw [hk] at ha
  have hc : applyCapacity row.currentValue [("deployed_units", .int requested)] .deploy =
      .ok newCv := ha
  obtain ⟨units, deployed, available', hu, -, hav', hs⟩ := applyCapacity_eq_ok hc
  obtain rfl := Except.ok.inj ((requestedUnits_single requested).symm.trans hu)
  obtain rfl := Except.ok.inj (hav.symm.trans hav')
  refine ⟨row.withValue newCv newUtil now eventId, available - requested, ?_, hk, hR1 hk, ?_, ?_⟩
  · simp [apply, get_update, hr]
  · change newCv.units "available_units" = _
    rw [show newCv = _ from hs, Dict.units_set_self]
  · have ht : takenUnits resourceId
        (db.apply (.setValue resourceId newCv newUtil now eventId)) = takenUnits resourceId db := rfl
    linarith

theorem Within.mono (hw : Within resourceId less db) (hl : less ≤ bound) :
    Within resourceId bound db := by
  obtain ⟨row, available, hr, hk, hn, ha, hro⟩ := hw.room
  exact ⟨row, available, hr, hk, hn, ha, hro.trans hl⟩

theorem wp_recordTransaction (hrs : args.resourceId = resourceId) (hrq : 0 ≤ requested)
    (ho : (deployProtocol resourceId bound).Own start db trail) :
    (deployProtocol resourceId bound).wp start
      (fun _ => Holding resourceId bound (Within resourceId (bound - requested)))
      (recordTransaction clock (args.transaction startedAt requested)) db trail := by
  subst hrs
  refine wp_seq (wp_lockResource ho) ?_
  rintro _ _ _ ⟨row, rfl, -, hh⟩
  refine wp_bind.mpr (wp_orRaise fun found hf => ?_)
  cases hf
  refine wp_bind.mpr (wp_ensure fun _ => ?_)
  refine wp_bind.mpr (wp_ofExcept fun values hv => ?_)
  obtain ⟨newCv, newUtil⟩ := values
  refine wp_seq (wp_holding .newId (local_row row) hh) fun _ _ _ hh => ?_
  refine wp_seq (wp_holding (constrained_untouched rfl) (local_row row) hh) fun _ _ _ hh => ?_
  refine wp_seq (wp_constrained_holding (Q := Within args.resourceId (bound - requested)) hh
    (local_row row) ?_) fun _ _ _ hh => ?_
  · intro seen hr hw _
    have hro : Within args.resourceId (bound - requested) (seen.apply (.setValue args.resourceId
        newCv newUtil clock.transactionNow args.sourceEventId)) := within_setValue hv hr hw
    exact ⟨hro.mono (by linarith), hro⟩
  refine wp_holding ?_ (local_within _) hh
  exact .bind (emitStateChange_untouched _ _) fun _ =>
    .bind (.read fun db => nothing_untouched db none) fun _ => .orRaise

theorem wp_deployChecked (hrs : args.resourceId = resourceId)
    (hp : (quantity.given "units").all Value.isPositive)
    (hw : (deployProtocol resourceId bound).Own start db trail) :
    (deployProtocol resourceId bound).wp start (fun _ _ _ => True)
      (deployChecked clock args quantity startedAt) db trail := by
  subst hrs
  -- What is peeked without a lock is only good for the kind of the resource.
  refine wp_seq (wp_read hw (Q := fun row? db trail =>
    (deployProtocol args.resourceId bound).Own start db trail ∧
      ∃ row, row? = some row ∧ row.kind = .capacity) ?_) ?_
  · intro u hrl hg hs
    obtain ⟨row, _, hr, hk, -⟩ := hs.2.room
    exact ⟨hs, row, hr, hk⟩
  rintro _ _ _ ⟨hw, peeked, rfl, hk⟩
  refine wp_bind.mpr (wp_orRaise fun found hf => ?_)
  cases hf
  refine wp_seq (R := fun _ db trail => ∃ units requested, quantity.get "units" = some units ∧
    units.toInt = .ok requested ∧ Holding args.resourceId bound
      (Within args.resourceId (bound - requested)) db trail) (wp_when (fun _ => ?_) fun ho => ?_) ?_
  · unfold deployCapacity
    refine wp_bind.mpr (wp_orRaise fun units hgv => ?_)
    refine wp_bind.mpr (wp_ofExcept fun requested hpf => ?_)
    have hrq := preflight_eq_ok hpf
    have hnn : 0 ≤ requested := by
      rw [hgv] at hp
      obtain ⟨number, hn, hl⟩ := Value.number_of_isPositive hp
      obtain rfl := Except.ok.inj (hrq.symm.trans (Value.toInt_of_number hn))
      exact truncate_nonneg hl.le
    refine wp_seq (wp_recordTransaction rfl hnn hw) fun _ _ _ hh => ?_
    exact ⟨units, requested, Dict.get_of_given hgv, hrq, hh⟩
  · simp [hk] at ho
  rintro _ _ _ ⟨units, requested, hu, hrq, hh⟩
  refine wp_seq (wp_holding (.read fun db => nothing_untouched db none) (local_within _) hh)
    fun _ _ _ hh => ?_
  refine wp_bind.mpr (wp_ensure fun _ => ?_)
  refine wp_seq (wp_constrained_holding (Q := fun _ => True) hh (local_within _) ?_)
    fun _ _ _ _ => trivial
  intro seen hro _ hc
  refine ⟨?_, trivial⟩
  have ha : seen.deployments.get (args.resourceId, args.commitmentId) = none := by
    simpa using hc _ (.head _)
  have htk : (deploymentRow quantity startedAt).units = requested := unitsOrZero_of_get hu hrq
  have ht := taken_insertDeployment args.resourceId seen
    (args.resourceId, args.commitmentId) (deploymentRow quantity startedAt)
  rw [if_pos ha, takenShare, if_pos rfl, htk] at ht
  obtain ⟨row, available, hr, hk, hnn, hav, hle⟩ := hro.room
  refine ⟨row, available, hr, hk, hnn, hav, ?_⟩
  linarith

theorem deployProtocol_sound (resourceId : Nat) (bound : Int) :
    (deployProtocol resourceId bound).Sound := by
  intro call db hg
  have ho := (deployProtocol resourceId bound).own_begin hg
  refine wp_seq (R := fun _ _ _ => True) ?_ fun _ _ _ _ => trivial
  by_cases hr : call.args.resourceId = resourceId
  · unfold deploy
    split
    · exact wp_bind.mpr (wp_ensure fun hp => wp_deployChecked hr hp ho)
    · trivial
  · exact wp_mono (wp_untouched (deploy_untouched hr) ho) fun _ _ _ _ => trivial

def Available (resourceId : Nat) (available : Int) (db : ResourceDb) : Prop :=
  ∃ row, db.resources.get resourceId = some row ∧ row.kind = .capacity ∧
    (row.currentValue.getD "available_units" (.int 0)).isNegative = .ok false ∧
    row.currentValue.units "available_units" = .ok available

theorem Available.nonneg (ha : Available resourceId available db) : 0 ≤ available := by
  obtain ⟨row, -, -, hnn, hu⟩ := ha
  unfold Value.isNegative at hnn
  cases hn : (row.currentValue.getD "available_units" (.int 0)).number with
  | none => simp [hn] at hnn
  | some number =>
    rw [hn] at hnn
    have hl : 0 ≤ number := by simpa using hnn
    obtain rfl := Except.ok.inj (hu.symm.trans (Value.toInt_of_number hn))
    exact truncate_nonneg hl

def RefusedR1 (session : Session ResourceDb Write RowRef ResourceError) : Prop :=
  ∃ error, session.rest = .raise error ∧ error.Violates .r1

/-- The call is for `requested` whole units of the resource. -/
structure DeployCall.Requests (call : DeployCall) (resourceId : Nat) (quantity : Dict)
    (requested : Int) : Prop where
  resource : call.args.resourceId = resourceId
  object : call.args.quantity = .object quantity
  units : ∃ units : Value, quantity.given "units" = some units ∧ units.isPositive ∧
    units.toInt = .ok requested

/-- What a deployment still has to run when its preflight has let it through. -/
def DeployCall.afterPreflight (call : DeployCall) (quantity : Dict) (requested : Int) :
    Tx ResourceDb Write RowRef ResourceError Unit :=
  let startedAt := call.args.startedAt.getD call.clock.processNow
  (((recordTransaction call.clock (call.args.transaction startedAt requested)).bind
    fun _ => .done ()).bind fun _ => insertDeployment call.args quantity startedAt).bind
      fun _ => .done ()

def RefusedIn (config : Config ResourceDb Write RowRef ResourceError) (sid : Nat) : Prop :=
  ∃ session, config.sessions.get sid = some session ∧ RefusedR1 session

section

variable {config next : Config ResourceDb Write RowRef ResourceError} {sid : Nat}
  {session : Session ResourceDb Write RowRef ResourceError} {call : DeployCall} {quantity : Dict}
  {requested left : Int}

theorem preflight_eq (args : DeployArgs) {peeked : Dict} {units : Value}
    (hav : peeked.units "available_units" = .ok left) (hu : units.toInt = .ok requested) :
    preflight args peeked units = if left < requested then
      .error (.invariantViolation .r1 "insufficient capacity"
        [("resource_id", idValue args.resourceId), ("available", .int left),
          ("requested", .int requested)])
      else .ok requested := by
  unfold preflight
  rw [hav, hu]
  by_cases hl : left < requested <;> simp [lifted, bind, Except.bind, hl] <;> rfl

theorem program_of_requests (hr : call.Requests resourceId quantity requested) :
    ∃ units next, units.toInt = .ok requested ∧
      deploySchema.program call = .statement (fun _ => none) (fun _ => []) next ∧
      ∀ seen row, seen.resources.get resourceId = some row → row.kind = .capacity →
        next seen = match preflight call.args row.currentValue units with
          | .ok requested => call.afterPreflight quantity requested
          | .error error => .raise error := by
  obtain ⟨rfl, hq, units, hg, hpos, hu⟩ := hr
  have hprogram : deploySchema.program call = (deployChecked call.clock call.args quantity
      (call.args.startedAt.getD call.clock.processNow)).bind fun _ => .done () := by
    simp only [deploySchema, deploy, hq, checkR2, hg, hpos, Option.all_some, Tx.ensure, if_true]
    rfl
  refine ⟨units, _, hu, hprogram.trans rfl, fun seen row hrow hk => ?_⟩
  simp only [hrow, hg]
  change ((Tx.when (decide (row.kind = .capacity)) _).bind _).bind _ = _
  rw [decide_eq_true hk, Tx.when, if_pos rfl]
  change (((Tx.ofExcept (preflight call.args row.currentValue units)).bind _).bind _).bind _ = _
  cases preflight call.args row.currentValue units <;> rfl

theorem peek_statement (hr : call.Requests resourceId quantity requested)
    (ha : Available resourceId left config.committed)
    (hs : config.sessions.get sid = some session) (ht : session.trail = {})
    (hp : session.rest = deploySchema.program call) :
    ∃ next after, config.step deploySchema (.statement sid) = some next ∧
      next.sessions.get sid = some after ∧
      if left < requested then RefusedR1 after
      else after.trail = {} ∧ after.rest = call.afterPreflight quantity requested := by
  obtain ⟨units, rest, hu, hpr, hrest⟩ := program_of_requests hr
  obtain ⟨row, hrow, hk, -, hav⟩ := ha
  have hafter := hrest config.committed row hrow hk
  rw [preflight_eq call.args hav hu] at hafter
  have hstep : config.step deploySchema (.statement sid) = some { config with
      sessions := config.sessions.put sid { session with rest := rest config.committed } } := by
    simp [Config.step, hs, Config.sendStatement, hp, hpr, ht, Config.heldByOther]
  refine ⟨_, _, hstep, Table.get_put_self _ _ _, ?_⟩
  split
  · next hl => exact ⟨.invariantViolation .r1 _ _, hafter.trans (by rw [if_pos hl]), rfl⟩
  · next hl => exact ⟨ht, hafter.trans (by rw [if_neg hl])⟩

theorem newValues_refused (resourceId : Nat) (hk : row.kind = .capacity)
    (hav : row.currentValue.units "available_units" = .ok left)
    (hdp : row.currentValue.units "deployed_units" = .ok deployed) (hl : left < requested) :
    ∃ error, newValues resourceId row .deploy [("deployed_units", .int requested)] =
      .error error ∧ error.Violates .r1 := by
  have hc : applyDelta row.currentValue [("deployed_units", .int requested)] .capacity .deploy =
      .ok ((row.currentValue.set "deployed_units" (.int (deployed + requested))).set
        "available_units" (.int (left - requested))) := by
    rw [applyDelta, applyCapacity, requestedUnits_single, hdp, hav]
    rfl
  have hneg : ((row.currentValue.set "deployed_units" (.int (deployed + requested))).set
      "available_units" (.int (left - requested))).getD "available_units" (.int 0) =
        .int (left - requested) := by
    simp [Dict.getD, Dict.get_set]
  have hless : (Value.int (left - requested)).isNegative = .ok true := by
    simpa [Value.isNegative, Value.number] using hl
  simp only [newValues, hc, checkR1, hk, hneg, hless, requestedUnits_single, hav, lifted,
    Except.bind, bind, if_true]
  exact ⟨.invariantViolation .r1 _ _, rfl, rfl⟩

theorem afterPreflight_refused (call : DeployCall) (quantity : Dict) (requested : Int) :
    ∃ next, call.afterPreflight quantity requested =
        .statement (lockResource call.args.resourceId) (fun _ => []) next ∧
      ∀ seen row error, seen.resources.get call.args.resourceId = some row → row.archivedAt = none →
        newValues call.args.resourceId row .deploy [("deployed_units", .int requested)] =
          .error error → next seen = .raise error := by
  refine ⟨_, rfl, fun seen row error hrow hn he => ?_⟩
  simp only [DeployArgs.transaction, hrow]
  change (((((Tx.ensure row.archivedAt.isNone _).bind fun _ => (Tx.ofExcept (newValues _ _ _ _)).bind
    _).bind _).bind _).bind _) = _
  rw [hn, he]
  rfl

theorem lock_statement (hr : call.Requests resourceId quantity requested)
    (hrow : config.committed.resources.get resourceId = some row) (hk : row.kind = .capacity)
    (hav : row.currentValue.units "available_units" = .ok left) (hn : row.archivedAt = none)
    (hdp : row.currentValue.units "deployed_units" = .ok deployed) (hl : left < requested)
    (hs : config.sessions.get sid = some session) (ht : session.trail = {})
    (hp : session.rest = call.afterPreflight quantity requested)
    (hstep : config.step deploySchema (.statement sid) = some next) : RefusedIn next sid := by
  obtain ⟨rfl, -⟩ := hr
  obtain ⟨error, hnew, hviolates⟩ := newValues_refused call.args.resourceId hk hav hdp hl
  obtain ⟨rest, hrest, hraise⟩ := afterPreflight_refused call quantity requested
  simp only [Config.step, hs, Option.bind_some, Config.sendStatement, hp, hrest, ht,
    Schema.view_nil] at hstep
  split at hstep
  · cases hstep
  · cases hstep
    exact ⟨_, Table.get_put_self _ _ _, error, hraise _ row error hrow hn hnew, hviolates⟩

end

/-- A deployment whose units are not available is refused: by the unlocked preflight, which is
its first statement, and where they were available then, by the statement that locks the row. -/
def R1Enforced (resourceId : Nat) (config : Config ResourceDb Write RowRef ResourceError) : Prop :=
  ∀ sid session call quantity requested left, config.sessions.get sid = some session →
    session.trail = {} → DeployCall.Requests call resourceId quantity requested →
    Available resourceId left config.committed →
    (session.rest = deploySchema.program call → ∃ next after,
      config.step deploySchema (.statement sid) = some next ∧
      next.sessions.get sid = some after ∧
      if left < requested then RefusedR1 after
      else after.trail = {} ∧ after.rest = call.afterPreflight quantity requested) ∧
    (session.rest = call.afterPreflight quantity requested → left < requested →
      ∀ row deployed next, config.committed.resources.get resourceId = some row →
        row.archivedAt = none → row.currentValue.units "deployed_units" = .ok deployed →
        config.step deploySchema (.statement sid) = some next → RefusedIn next sid)

theorem r1Enforced (resourceId : Nat) (config : Config ResourceDb Write RowRef ResourceError) :
    R1Enforced resourceId config := by
  intro sid session call quantity requested left hs ht hr ha
  refine ⟨peek_statement hr ha hs ht, fun hp hl row deployed next hrow hn hdp hstep => ?_⟩
  obtain ⟨_, hrow', hk, -, hav⟩ := ha
  cases hrow.symm.trans hrow'
  exact lock_statement hr hrow hk hav hn hdp hl hs ht hp hstep


/-- In every committed state of every interleaving of deployments the resource
has no negative availability, and what it has left and what they took (whole units)
is within what it had; R1 refuses what is not available, and what it refuses
changes nothing. -/
theorem deploys_within_capacity {supply : Nat} {available : Int}
    {config : Config ResourceDb Write RowRef ResourceError}
    (hstart : Available resourceId available start)
    (hreach : Reach (Config.step deploySchema) anyStep ⟨start, supply, ∅⟩ config) :
    (∃ left, Available resourceId left config.committed ∧ 0 ≤ left ∧
      takenUnits resourceId config.committed - takenUnits resourceId start + left ≤ available) ∧
    (∀ sid session, config.sessions.get sid = some session → RefusedR1 session →
      ∀ action ∈ [Action.statement sid, .commit sid, .rollback sid], ∀ next,
        config.step deploySchema action = some next → next.committed = config.committed) ∧
    R1Enforced resourceId config := by
  refine ⟨?_, ?_, r1Enforced resourceId config⟩
  · obtain ⟨row, hrow, hkind, hnonneg, havailable⟩ := hstart
    have hgood : Within resourceId (available + takenUnits resourceId start) start :=
      ⟨row, available, hrow, hkind, hnonneg, havailable, le_rfl⟩
    have hcommits : (deployProtocol resourceId (available + takenUnits resourceId start)).CommitsGood
        anyStep := fun _ _ _ _ _ _ hown => hown.2
    have hcoherent := Protocol.coherent_of_reach (deployProtocol_sound _ _) hcommits hgood
      (fun _ _ => trivial) hreach
    obtain ⟨row', left, hrow', hkind', hnonneg', hleft, hle⟩ := hcoherent.good.room
    have hleftover : Available resourceId left config.committed :=
      ⟨row', hrow', hkind', hnonneg', hleft⟩
    exact ⟨left, hleftover, hleftover.nonneg, by linarith⟩
  · rintro sid session hsession ⟨error, hraised, -⟩ action haction next hstep
    simp only [List.mem_cons, List.not_mem_nil, or_false] at haction
    rcases haction with rfl | rfl | rfl
    · simp [Config.step, hsession, Config.sendStatement, hraised] at hstep
    · simp [Config.step, hsession, hraised] at hstep
    · simp only [Config.step, hsession, Option.map_some, Option.some.injEq] at hstep
      rw [← hstep]

/-! ### Four units, and a quantity with a fraction -/

def fourUnits : ResourceDb where
  tenants := [0]
  commitments := [4]
  resources := Table.put ∅ 1
    { tenantId := 0
      kind := .capacity
      currentValue := [("available_units", .int 4), ("deployed_units", .int 0),
        ("total_units", .int 4)]
      lastUpdatedAt := 0 }

def nineHalves : Rat := ⟨9, 2, by decide, by decide⟩

def deployFraction : DeployCall :=
  ⟨⟨5, 5⟩, ⟨1, 4, .object [("units", .float nineHalves)], none, 7⟩⟩

theorem available_fourUnits : Available 1 4 fourUnits :=
  ⟨_, rfl, rfl, rfl, rfl⟩

theorem reach_deployFraction : ∃ t left, Reach (Config.step deploySchema) anyStep
      (⟨fourUnits, 0, ∅⟩ : Config ResourceDb Write RowRef ResourceError) ⟨t, left, ∅⟩ ∧
    takenUnits 1 t = 4 ∧ (t.deployments.get (1, 4)).bind (·.deployedQuantity) =
      some [("units", .float nineHalves)] := by
  have hrt : ∃ t left, Tx.Returns apply (deploySchema.program deployFraction)
      fourUnits 0 () t left ∧ takenUnits 1 t = 4 ∧
      (t.deployments.get (1, 4)).bind (·.deployedQuantity) =
        some [("units", .float nineHalves)] := ⟨_, _, rfl, by decide +kernel, rfl⟩
  obtain ⟨t, left, hx, ht, hr⟩ := hrt
  exact ⟨t, left, reach_of_returns deploySchema deployFraction fourUnits t 0 left hx, ht, hr⟩

/-- The four units go, and the next deployment of as many is refused. -/
theorem deploys_within_capacity_four : ∃ config next, Reach (Config.step deploySchema) anyStep
      (⟨fourUnits, 0, ∅⟩ : Config ResourceDb Write RowRef ResourceError) config ∧
    takenUnits 1 config.committed = 4 ∧ (∃ left, Available 1 left config.committed ∧ 0 ≤ left ∧
      takenUnits 1 config.committed - takenUnits 1 fourUnits + left ≤ 4) ∧
    config.step deploySchema (.statement 5) = some next ∧ RefusedIn next 5 := by
  obtain ⟨after, supply, hdeployed, htaken, -⟩ := reach_deployFraction
  have hreach := hdeployed.next (a := .begin 5 deployFraction) trivial rfl
  obtain ⟨⟨left, hleft, hnonneg, hbound⟩, -, hr1⟩ :=
    deploys_within_capacity available_fourUnits hreach
  have hnone : takenUnits 1 fourUnits = 0 := rfl
  obtain ⟨next, session, hstep, hsession, hrefused⟩ := (hr1 5 _ deployFraction _ 4 left
    (Table.get_put_self _ _ _) rfl ⟨rfl, rfl, _, rfl, rfl, rfl⟩ hleft).1 rfl
  simp only [htaken, hnone] at hbound
  rw [if_pos (by linarith)] at hrefused
  exact ⟨_, next, hreach, htaken, ⟨left, hleft, hnonneg, by simp only [htaken, hnone]; linarith⟩,
    hstep, session, hsession, hrefused⟩

/-- Of four available units a deployment of four and a half is committed. -/
theorem deployed_fraction_exceeds :
    Available 1 4 fourUnits ∧ fourUnits.deployments.get (1, 4) = none ∧ ∃ after left,
      Reach (Config.step deploySchema) anyStep
        (⟨fourUnits, 0, ∅⟩ : Config ResourceDb Write RowRef ResourceError) ⟨after, left, ∅⟩ ∧
      ∃ row quantity number, after.deployments.get (1, 4) = some row ∧
        row.deployedQuantity = some quantity ∧
        (quantity.getD "units" .null).number = some number ∧ 4 < number := by
  obtain ⟨after, left, hreach, -, hquantity⟩ := reach_deployFraction
  obtain ⟨row, hrow, hrowQuantity⟩ := Option.bind_eq_some_iff.mp hquantity
  exact ⟨available_fourUnits, rfl, after, left, hreach, row, _, nineHalves, hrow, hrowQuantity, rfl,
    by decide +kernel⟩

end FyralisCore.Resources
