import FyralisCore.Resources.Capacity

/-! `deploy` and `release` (`resources/deployments.py`). A deployment is a row
for a resource and a commitment next to the transaction that moves the
resource's counters. -/
namespace FyralisCore.Resources

open Relational Transaction Tx ResourceDb
open Acts (ResourceKind Clock)

structure DeployArgs where
  resourceId : Nat
  commitmentId : Nat
  quantity : Value
  startedAt : Option Nat := none
  sourceEventId : Nat

def Dict.given (dict : Dict) (key : String) : Option Value :=
  (dict.get key).filter fun value => match value with
    | .null => false
    | _ => true

def DeployArgs.context (args : DeployArgs) : Dict :=
  [("resource_id", idValue args.resourceId), ("commitment_id", idValue args.commitmentId)]

def preflight (args : DeployArgs) (peeked : Dict) (units : Value) :
    Except ResourceError Int := do
  let available ← lifted (peeked.units "available_units")
  let requested ← lifted units.toInt
  if available < requested then
    throw (.invariantViolation .r1 "insufficient capacity"
      [("resource_id", idValue args.resourceId), ("available", .int available),
        ("requested", .int requested)])
  return requested

def DeployArgs.transaction (args : DeployArgs) (startedAt : Nat) (units : Int) : RecordArgs where
  resourceId := args.resourceId
  kind := "deploy"
  delta := .object [("deployed_units", .int units)]
  occurredAt := startedAt
  sourceEventId := args.sourceEventId

def deployCapacity (clock : Clock) (args : DeployArgs) (startedAt : Nat) (peeked : Dict)
    (units : Option Value) : ResourceTx Unit := do
  let units ← Tx.orRaise units (.invariantViolation .r2 "capacity deploy requires quantity.units"
      [("resource_id", idValue args.resourceId)])
  let requested ← Tx.ofExcept (preflight args peeked units)
  let _ ← recordTransaction clock (args.transaction startedAt requested)
  return ()

def deploymentRow (quantity : Dict) (startedAt : Nat) : DeploymentRow where
  deployedQuantity := some quantity
  deployedAt := startedAt

def insertDeployment (args : DeployArgs) (quantity : Dict) (startedAt : Nat) :
    ResourceTx DeploymentRow := do
  let existing ← Tx.read fun db =>
    (db.deployments.get (args.resourceId, args.commitmentId)).bind (·.releasedAt)
  Tx.ensure existing.isNone
    (.invariantViolation .r5 "deployment for (resource_id, commitment_id) already exists"
      args.context)
  constrained (some (.deployment args.resourceId args.commitmentId)) (fun db => [
      (!(db.deployments.get (args.resourceId, args.commitmentId)).isSome,
        .unique "resource_deployments"),
      ((db.resources.get args.resourceId).isSome, .foreignKey "resource_deployments" "resource_id"),
      (decide (args.commitmentId ∈ db.commitments),
        .foreignKey "resource_deployments" "commitment_id")])
    (.insertDeployment args.resourceId args.commitmentId (deploymentRow quantity startedAt))
  return deploymentRow quantity startedAt

def deployChecked (clock : Clock) (args : DeployArgs) (quantity : Dict) (startedAt : Nat) :
    ResourceTx DeploymentRow := do
  let peeked ← Tx.read fun db => db.resources.get args.resourceId
  let peeked ← Tx.orRaise peeked
    (.validationError "resource not found" [("resource_id", idValue args.resourceId)])
  Tx.when (peeked.kind = .capacity)
    (deployCapacity clock args startedAt peeked.currentValue (quantity.given "units"))
  insertDeployment args quantity startedAt

def checkR2 (args : DeployArgs) (quantity : Dict) : ResourceTx Unit :=
  Tx.ensure ((quantity.given "units").all Value.isPositive)
    (.invariantViolation .r2 "deploy quantity.units must be > 0"
      (args.context ++ [("units", quantity.getD "units" .null)]))

def deploy (clock : Clock) (args : DeployArgs) : ResourceTx DeploymentRow :=
  match args.quantity with
  | .object quantity => do
    checkR2 args quantity
    deployChecked clock args quantity (args.startedAt.getD clock.processNow)
  | _ => .raise (.validationError "quantity must be a dict" [("field", .text "quantity")])

structure ReleaseArgs where
  resourceId : Nat
  commitmentId : Nat
  releasedAt : Option Nat := none
  actualQuantity : Option Dict := none
  sourceEventId : Nat

def ResourceDb.lockDeployment (resourceId commitmentId : Nat) (db : ResourceDb) : Option RowRef :=
  (db.deployments.get (resourceId, commitmentId)).bind fun _ =>
    (db.resources.get resourceId).map fun _ => .deployment resourceId commitmentId

def checkR3 (args : ReleaseArgs) (kind : ResourceKind) (deployed released : Dict) :
    Except ResourceError Unit :=
  match kind, released.get "units", deployed.get "units" with
  | .capacity, some releasedUnits, some deployedUnits => do
    let exceeds ← lifted (releasedUnits.exceeds deployedUnits)
    if exceeds then
      throw (.invariantViolation .r3 "release cannot exceed deployed quantity"
        [("resource_id", idValue args.resourceId), ("deployed_units", deployedUnits),
          ("release_units", releasedUnits)])
  | _, _, _ => .ok ()

/-- The quantity to release: the actual one, or the deployed one by default. -/
def releaseQuantity (args : ReleaseArgs) (kind : ResourceKind) (deployed : Dict) :
    Except ResourceError Dict :=
  match args.actualQuantity with
  | none => .ok deployed
  | some released => do
    checkR3 args kind deployed released
    return released

def ReleaseArgs.transaction (args : ReleaseArgs) (releasedAt : Nat) (units : Int) : RecordArgs where
  resourceId := args.resourceId
  kind := "release"
  delta := .object [("deployed_units", .int units)]
  occurredAt := releasedAt
  sourceEventId := args.sourceEventId

def releaseCapacity (clock : Clock) (args : ReleaseArgs) (releasedAt : Nat) (units : Value) :
    ResourceTx Unit := do
  let units ← Tx.ofExcept (lifted units.toInt)
  let _ ← recordTransaction clock (args.transaction releasedAt units)
  return ()

def release (clock : Clock) (args : ReleaseArgs) : ResourceTx DeploymentRow := do
  let found ← Tx.readLocking (lockDeployment args.resourceId args.commitmentId)
    fun db => (db.deployments.get (args.resourceId, args.commitmentId)).bind fun row =>
      (db.resources.get args.resourceId).map fun resource => (row, resource.kind)
  let (row, kind) ← Tx.orRaise found
    (.validationError "deployment not found" [("resource_id", idValue args.resourceId),
      ("commitment_id", idValue args.commitmentId)])
  if row.releasedAt.isSome then
    -- Idempotent: already released.
    return row
  else do
    let releasedAt := args.releasedAt.getD clock.processNow
    let quantity ← Tx.ofExcept (releaseQuantity args kind (row.deployedQuantity.getD []))
    Tx.forSome (if kind = .capacity then quantity.get "units" else none)
      (releaseCapacity clock args releasedAt)
    .query (fun _ => some (.deployment args.resourceId args.commitmentId)) fun _ =>
      .ok ([.setReleased args.resourceId args.commitmentId releasedAt], row.released releasedAt)

variable {clock : Clock} {db after : ResourceDb} {n left : Nat} {args : DeployArgs}

theorem returns_recordTransaction_of_units {args : RecordArgs}
    (kind : TransactionType) {delta : Dict} (hk : TransactionType.ofText args.kind = some kind)
    (hd : args.delta = .object delta)
    (hrt : Tx.Returns apply (recordTransaction clock args) db n v after left) :
    ∃ row newCv, Recorded clock args db after kind delta row newCv := by
  obtain ⟨found, delta', row, newCv, hr⟩ := returns_recordTransaction hrt
  cases hk.symm.trans hr.kind_eq
  obtain rfl := Value.object.inj (hd.symm.trans hr.delta_eq)
  exact ⟨row, newCv, hr⟩

/-- What a deployment does to the counters of its resource: `middle` is the
state before its row is inserted. -/
inductive DeployMoves (clock : Clock) (args : DeployArgs) (quantity : Dict) (startedAt : Nat)
    (db middle : ResourceDb) : Prop where
  | untracked (row : ResourceRow) (hrow : db.resources.get args.resourceId = some row)
      (hkind : row.kind ≠ .capacity) (hmiddle : middle = db)
  | tracked (row : ResourceRow) (units : Value) (requested : Int) (newCv : Dict)
      (hkind : row.kind = .capacity) (hunits : quantity.get "units" = some units)
      (hrequested : units.toInt = .ok requested)
      (hrecorded : Recorded clock (args.transaction startedAt requested) db middle .deploy
        [("deployed_units", .int requested)] row newCv)

structure Deployed (clock : Clock) (args : DeployArgs) (quantity : Dict) (startedAt : Nat)
    (db middle after : ResourceDb) : Prop where
  positive : ∀ units, quantity.given "units" = some units → units.isPositive
  moves : DeployMoves clock args quantity startedAt db middle
  absent : db.deployments.get (args.resourceId, args.commitmentId) = none
  after_eq : after = middle.apply
    (.insertDeployment args.resourceId args.commitmentId (deploymentRow quantity startedAt))

theorem DeployMoves.deployments (hm : DeployMoves clock args quantity startedAt db m) :
    m.deployments = db.deployments := by
  cases hm with
  | untracked _ _ _ hmd => rw [hmd]
  | tracked _ _ _ _ _ _ _ hr => exact hr.deployments

theorem Dict.get_of_given {dict : Dict}
    (hg : dict.given key = some value) : dict.get key = some value :=
  (Option.filter_eq_some_iff.mp hg).1

theorem preflight_eq_ok (hp : preflight args peeked units = .ok requested) :
    units.toInt = .ok requested := by
  obtain ⟨available, -, hp⟩ := bind_eq_ok_iff.mp hp
  obtain ⟨asked, ha, hp⟩ := bind_eq_ok_iff.mp hp
  rw [lifted_eq_ok_iff] at ha
  by_cases hs : available < asked
  · simp only [hs, if_true] at hp
    cases hp
  · simp only [hs, if_false] at hp
    cases hp
    exact ha

theorem returns_deployCapacity {quantity : Dict}
    {middle : ResourceDb} (hr : db.resources.get args.resourceId = some row)
    (hk : row.kind = .capacity)
    (hrt : Tx.Returns apply (deployCapacity clock args startedAt row.currentValue
      (quantity.given "units")) db n () middle left) :
    DeployMoves clock args quantity startedAt db middle := by
  obtain ⟨units, _, _, hu, hrt⟩ := hrt.parts
  obtain ⟨hg, rfl, rfl⟩ := returns_orRaise.mp hu
  obtain ⟨requested, _, _, hp, hrt⟩ := hrt.parts
  obtain ⟨hc, rfl, rfl⟩ := returns_ofExcept.mp hp
  obtain ⟨_, _, _, hrcd, hd⟩ := hrt.parts
  obtain ⟨-, rfl, -⟩ := hd.ended
  obtain ⟨found, newCv, hrc⟩ := returns_recordTransaction_of_units .deploy rfl rfl hrcd
  obtain rfl : row = found := Option.some.inj (hr.symm.trans hrc.found)
  exact .tracked row units requested newCv hk (Dict.get_of_given hg) (preflight_eq_ok hc) hrc

theorem returns_deploy_object {quantity : Dict} (hq : args.quantity = .object quantity)
    (hrt : Tx.Returns apply (deploy clock args) db n v after left) :
    ∃ startedAt middle, Deployed clock args quantity startedAt db middle after := by
  unfold deploy at hrt
  rw [hq] at hrt
  obtain ⟨_, _, _, hps, hrt⟩ := hrt.parts
  obtain ⟨hR2, rfl, rfl⟩ := returns_ensure.mp hps
  unfold deployChecked at hrt
  simp only [bind_eq_bind] at hrt
  rw [returns_read_bind] at hrt
  obtain ⟨row, _, _, hp, hrt⟩ := hrt.parts
  obtain ⟨hr, rfl, rfl⟩ := returns_orRaise.mp hp
  obtain ⟨_, middle, _, hmv, hrt⟩ := hrt.parts
  have hm : DeployMoves clock args quantity (args.startedAt.getD clock.processNow) db
      middle := by
    rcases returns_when.mp hmv with ⟨hk, hc⟩ | ⟨hk, rfl, rfl⟩
    · exact returns_deployCapacity hr (of_decide_eq_true hk) hc
    · exact .untracked row hr (of_decide_eq_false hk) rfl
  unfold insertDeployment at hrt
  simp only [bind_eq_bind] at hrt
  rw [returns_read_bind] at hrt
  obtain ⟨_, _, _, hn, hrt⟩ := hrt.parts
  obtain ⟨-, rfl, rfl⟩ := returns_ensure.mp hn
  obtain ⟨_, _, _, hi, hd⟩ := hrt.parts
  obtain ⟨hcs, rfl, rfl⟩ := returns_constrained.mp hi
  obtain ⟨-, rfl, -⟩ := hd.ended
  refine ⟨_, middle, ?_, hm, ?_, rfl⟩
  · intro units hu
    simpa [hu] using hR2
  · rw [← hm.deployments]
    simpa using hcs _ (.head _)

theorem returns_deploy (hr : Tx.Returns apply (deploy clock args) db n v after left) :
    ∃ quantity startedAt middle, Deployed clock args quantity startedAt db middle after := by
  cases hq : args.quantity with
  | object quantity => exact ⟨quantity, returns_deploy_object hq hr⟩
  | _ => simp [deploy, hq] at hr

inductive Released (clock : Clock) (args : ReleaseArgs) (db after : ResourceDb) : Prop where
  | already (row : DeploymentRow)
      (hrow : db.deployments.get (args.resourceId, args.commitmentId) = some row)
      (hreleased : row.releasedAt.isSome) (hafter : after = db)
  | untracked (row : DeploymentRow) (resource : ResourceRow) (quantity : Dict) (releasedAt : Nat)
      (hrow : db.deployments.get (args.resourceId, args.commitmentId) = some row)
      (hactive : row.releasedAt = none)
      (hresource : db.resources.get args.resourceId = some resource)
      (hquantity : releaseQuantity args resource.kind (row.deployedQuantity.getD []) = .ok quantity)
      (hnone : resource.kind ≠ .capacity ∨ quantity.get "units" = none)
      (hafter : after = db.apply (.setReleased args.resourceId args.commitmentId releasedAt))
  | tracked (row : DeploymentRow) (resource : ResourceRow) (quantity : Dict) (releasedAt : Nat)
      (units : Value) (returned : Int) (newCv : Dict) (middle : ResourceDb)
      (hrow : db.deployments.get (args.resourceId, args.commitmentId) = some row)
      (hactive : row.releasedAt = none) (hkind : resource.kind = .capacity)
      (hquantity : releaseQuantity args resource.kind (row.deployedQuantity.getD []) = .ok quantity)
      (hunits : quantity.get "units" = some units) (hreturned : units.toInt = .ok returned)
      (hrecorded : Recorded clock (args.transaction releasedAt returned) db middle .release
        [("deployed_units", .int returned)] resource newCv)
      (hafter : after = middle.apply (.setReleased args.resourceId args.commitmentId releasedAt))

theorem returns_release {args : ReleaseArgs} {v : DeploymentRow}
    (hre : Tx.Returns apply (release clock args) db n v after left) :
    Released clock args db after := by
  unfold release at hre
  simp only [bind_eq_bind] at hre
  rw [returns_readLocking_bind] at hre
  obtain ⟨⟨row, kind⟩, _, _, hf, hre⟩ := hre.parts
  obtain ⟨hj, rfl, rfl⟩ := returns_orRaise.mp hf
  obtain ⟨row', hr, hj⟩ := Option.bind_eq_some_iff.mp hj
  obtain ⟨resource, hrs, hp⟩ := Option.map_eq_some_iff.mp hj
  obtain ⟨rfl, rfl⟩ := Prod.mk.inj hp
  by_cases hrl : row'.releasedAt.isSome
  · simp only [hrl, if_true] at hre
    obtain ⟨-, rfl, -⟩ := hre.ended
    exact .already row' hr hrl rfl
  · have hac : row'.releasedAt = none := by simpa using hrl
    simp only [hrl, Bool.false_eq_true, if_false] at hre
    obtain ⟨quantity, _, _, hq, hre⟩ := hre.parts
    obtain ⟨hch, rfl, rfl⟩ := returns_ofExcept.mp hq
    obtain ⟨_, m, _, hm, hre⟩ := hre.parts
    obtain ⟨ws, ha, rfl, -⟩ := returns_query.mp hre
    cases ha
    rcases returns_forSome.mp hm with ⟨hn, rfl, rfl⟩ | ⟨units, hs, hcp⟩
    · refine .untracked row' resource quantity _ hr hac hrs hch ?_ rfl
      by_cases hk : resource.kind = .capacity
      · exact .inr (by simpa [hk] using hn)
      · exact .inl hk
    · by_cases hk : resource.kind = .capacity
      · simp only [hk, if_true] at hs
        obtain ⟨returned, _, _, hc, hcp⟩ := hcp.parts
        obtain ⟨hrt, rfl, rfl⟩ := returns_ofExcept.mp hc
        obtain ⟨_, _, _, hrcd, hd⟩ := hcp.parts
        obtain ⟨-, rfl, -⟩ := hd.ended
        obtain ⟨found, newCv, hrc⟩ := returns_recordTransaction_of_units .release rfl rfl hrcd
        obtain rfl : resource = found := Option.some.inj (hrs.symm.trans hrc.found)
        exact .tracked row' resource quantity _ units returned newCv _ hr hac hk hch
          hs (lifted_eq_ok_iff.mp hrt) hrc rfl
      · simp [hk] at hs

end FyralisCore.Resources
