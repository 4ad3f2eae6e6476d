import Mathlib.Data.List.ReduceOption
import FyralisCore.Resources.DeployedUnits
import FyralisCore.Resources.Refusals

/-! `feasibility_check` (`resources/bridge.py`) and `commitment_feasibility`
(`bridge/queries.py`) against the deployments that they answer for. Each entry is checked
against the state as it is, whatever the entries before it take. -/
namespace FyralisCore.Resources

open Relational Transaction Tx ResourceDb
open Acts (Clock)

/-- What an entry names as its resource. -/
inductive ResourceRef where
  | missing
  | invalid
  | id (id : Nat)

/-- An entry of `estimated_capacity.deploys`: its resource, and the fields with the units. -/
structure DeployEntry where
  resource : ResourceRef
  quantity : Dict

structure ProposedCommitment where
  ownerId : Option Nat
  deploys : List DeployEntry
  constrainedByDecisionIds : List Nat

/-- What the checks read of acts: the active commitments of an owner, the state of a decision. -/
structure ActsRead where
  owned : Nat → Nat
  decisionState : Nat → Option String

structure FeasibilityReport where
  feasible : Bool
  reasons : List String
  warnings : List String

def ownerCommitmentWarnThreshold : Nat := 5

def feasibilityWarnings (acts : ActsRead) (proposed : ProposedCommitment) : List String :=
  ((proposed.ownerId.map acts.owned).filter (ownerCommitmentWarnThreshold < ·)).toList.map
      (fun owned => "owner already owns " ++ toString owned ++ " active commitments (> 5)") ++
    proposed.constrainedByDecisionIds.filterMap fun id =>
      match acts.decisionState id with
      | none => some ("constrained_by decision " ++ toString id ++ " not found")
      | some "revisited" => some ("decision " ++ toString id ++
        " is in state 'revisited' — review before proceeding")
      | some _ => none

/-- `int(... or 0)` -/
def Dict.unitsOr (dict : Dict) (key : String) : Except PyError Int :=
  (dict.getD key (.int 0)).orZero.toInt

section

variable (db : ResourceDb)

/-- Why the resource cannot give the units; only one of the checks is given a tenant. -/
def resourceReason (tenantId : Option Nat) (id : Nat) (units : Int) :
    Except PyError (Option String) :=
  let resource := "resource " ++ toString id
  match db.resources.get id with
  | none => .ok (some (resource ++ " does not exist"))
  | some row =>
    if tenantId.any (· != row.tenantId) then
      .ok (some (resource ++ " belongs to a different tenant"))
    else if row.archivedAt.isSome then .ok (some (resource ++ " is archived"))
    else match row.kind with
      | .capacity => do
        let available ← row.currentValue.unitsOr "available_units"
        return if available < units then some (resource ++ " has " ++ toString available ++
          " available units, need " ++ toString units) else none
      | _ => .ok none

def deployReason (entry : DeployEntry) : Except PyError (Option String) := do
  let units ← entry.quantity.unitsOr "units"
  match entry.resource with
  | .missing => return some "deploy entry missing resource_id"
  | .invalid => throw .valueError
  | .id id => resourceReason db none id units

def commitmentReason (tenantId : Nat) (entry : DeployEntry) : Except PyError (Option String) :=
  match entry.resource with
  | .missing => .ok (some "deploy entry missing resource_id")
  | .invalid => .ok (some "deploy entry has invalid resource_id")
  | .id id =>
    match entry.quantity.unitsOr "units" with
    | .error _ => .ok (some ("resource " ++ toString id ++ " has non-integer units"))
    | .ok units => resourceReason db (some tenantId) id units

def reportOf (reasonOf : DeployEntry → Except PyError (Option String)) (acts : ActsRead)
    (proposed : ProposedCommitment) : Except PyError FeasibilityReport := do
  let reasons ← proposed.deploys.mapM reasonOf
  return {
    feasible := reasons.reduceOption.isEmpty
    reasons := reasons.reduceOption
    warnings := feasibilityWarnings acts proposed }

def feasibilityCheck : ActsRead → ProposedCommitment → Except PyError FeasibilityReport :=
  reportOf (deployReason db)

def commitmentFeasibility (tenantId : Nat) : ActsRead → ProposedCommitment → Except PyError
    FeasibilityReport :=
  reportOf (commitmentReason db tenantId)

/-- One of the checks returns a report that says so. -/
def ReportedFeasible (tenantId : Nat) (acts : ActsRead) (proposed : ProposedCommitment) : Prop :=
  ∃ report, report.feasible ∧ (feasibilityCheck db acts proposed = .ok report ∨
    commitmentFeasibility db tenantId acts proposed = .ok report)

end

/-- On which commitment, when and why an entry is deployed. -/
structure Occasion where
  clock : Clock
  commitmentId : Nat
  startedAt : Option Nat := none
  sourceEventId : Nat

def deployEntry (item : DeployEntry × Occasion) : ResourceTx Unit :=
  match item.1.resource with
  | .id id => do
    let _ ← deploy item.2.clock { item.2 with resourceId := id, quantity := .object item.1.quantity }
    return ()
  | _ => .done ()

section

variable (plan : List (DeployEntry × Occasion))

def deployAll : ResourceTx Unit :=
  Tx.forEach plan deployEntry

/-- What the entries take of a resource. -/
def drawn (id : Nat) : Int :=
  (plan.map fun item => match item.1.resource with
    | .id other => if other = id then item.1.quantity.unitsOrZero "units" else 0
    | _ => 0).sum

def NeverR1 (db : ResourceDb) (supply : Nat) : Prop :=
  ∀ error, Raises apply (deployAll plan) db supply error → ¬ error.Violates .r1

/-- The entries before one are deployed, and together with it they ask for more units of its
capacity than there are. -/
def Overdraws (db : ResourceDb) (supply : Nat) : Prop :=
  ∃ before item rest id row units available requested after left, plan = before ++ item :: rest ∧
    Returns apply (deployAll before) db supply () after left ∧
    item.1.resource = .id id ∧ db.resources.get id = some row ∧ row.kind = .capacity ∧
    item.1.quantity.given "units" = some units ∧ units.isPositive ∧
    row.currentValue.units "available_units" = .ok available ∧ units.toInt = .ok requested ∧
    available < drawn before id + requested

end

variable {db middle after : ResourceDb} {clock : Clock} {args : DeployArgs} {supply left : Nat}
  {plan : List (DeployEntry × Occasion)} {acts : ActsRead} {proposed : ProposedCommitment}

def Unarchived (db : ResourceDb) (entry : DeployEntry) : Prop :=
  ∃ id row, entry.resource = .id id ∧ db.resources.get id = some row ∧ row.archivedAt = none

theorem unarchived_of_resourceReason {id : Nat} (hrs : entry.resource = .id id)
    (h : resourceReason db tenantId id units = .ok none) : Unarchived db entry := by
  unfold resourceReason at h
  cases hr : db.resources.get id with
  | none => simp [hr] at h
  | some row =>
    simp only [hr] at h
    split at h
    · cases h
    split at h
    · cases h
    next ha => exact ⟨id, row, hrs, hr, by simpa using ha⟩

theorem unarchived_of_reportOf (ho : ∀ entry, reasonOf entry = .ok none → Unarchived db entry)
    (hr : reportOf reasonOf acts proposed = .ok report) (hy : report.feasible) :
    ∀ entry ∈ proposed.deploys, Unarchived db entry := by
  obtain ⟨reasons, hrs, hen⟩ := bind_eq_ok_iff.mp hr
  cases hen
  have ha := mapM_eq_ok_iff.mp hrs
  clear hrs hr
  generalize proposed.deploys = entries at ha ⊢
  induction ha with
  | nil => simp
  | @cons entry reason entries reasons he _ ih =>
    cases reason with
    | none => exact List.forall_mem_cons.mpr ⟨ho entry he, ih hy⟩
    | some reason => simp at hy

theorem unarchived_of_feasible (hf : ReportedFeasible db tenantId acts proposed) :
    ∀ entry ∈ proposed.deploys, Unarchived db entry := by
  obtain ⟨report, hy, hrp | hrp⟩ := hf
  · refine unarchived_of_reportOf (fun entry he => ?_) hrp hy
    obtain ⟨units, -, he⟩ := bind_eq_ok_iff.mp he
    cases hr : entry.resource with
    | id => exact unarchived_of_resourceReason hr (by simpa [hr] using he)
    | _ => simp [hr] at he <;> cases he
  · refine unarchived_of_reportOf (fun entry he => ?_) hrp hy
    unfold commitmentReason at he
    cases hr : entry.resource with
    | id =>
      simp only [hr] at he
      split at he
      · cases he
      · exact unarchived_of_resourceReason hr he
    | _ => simp [hr] at he

theorem available_of_preflight (hp : preflight args cv units = .ok requested) :
    ∃ available, cv.units "available_units" = .ok available ∧ requested ≤ available := by
  obtain ⟨available, ha, hp⟩ := bind_eq_ok_iff.mp hp
  obtain ⟨asked, -, hp⟩ := bind_eq_ok_iff.mp hp
  refine ⟨available, lifted_eq_ok_iff.mp ha, ?_⟩
  split at hp
  · cases hp
  · next hl =>
    cases hp
    omega

theorem not_recordRefusal_r1 (hp : preflight args row.currentValue units = .ok requested)
    (hr : db.resources.get args.resourceId = some row) (ha : row.archivedAt = none)
    (hk : row.kind = .capacity) :
    ¬ RecordRefusal (args.transaction startedAt requested) db := by
  rintro ⟨kind, delta, found, ⟨hkn, hd, hf⟩, hc⟩
  cases hkn
  cases hd
  obtain rfl := Option.some.inj (hr.symm.trans hf)
  rcases hc with har | ⟨-, newCv, hap, hn⟩
  · simp [ha] at har
  obtain ⟨asked, hask, hl⟩ := available_of_preflight hp
  rw [hk, applyDelta] at hap
  obtain ⟨units, _, available, hu, -, hav, hs⟩ := applyCapacity_eq_ok hap
  obtain rfl := Except.ok.inj ((requestedUnits_single _).symm.trans hu)
  obtain rfl := Except.ok.inj (hask.symm.trans hav)
  rw [show newCv = _ from hs] at hn
  simp [Dict.getD, Dict.get_set, Value.isNegative, Value.number] at hn
  omega

theorem isInvariant_of_violates {error : ResourceError} (hv : error.Violates invariant) :
    error.isInvariant := by
  cases error <;> first | rfl | cases hv

theorem raises_r1 (hun : ∀ row, db.resources.get args.resourceId = some row → row.archivedAt = none)
    (hrs : Raises apply (deploy clock args) db supply error)
    (hv : error.Violates .r1) : ∃ quantity row units, DeployAsked args db quantity row ∧
      row.kind = .capacity ∧ quantity.given "units" = some units ∧ fallsShort row units := by
  unfold deploy at hrs
  cases hq : args.quantity with
  | object quantity =>
    simp only [hq, checkR2, deployChecked, bind_eq_bind] at hrs
    rcases raises_bind.mp hrs with h | ⟨_, _, _, hr2, hrs⟩
    · obtain ⟨-, rfl⟩ := raises_ensure.mp h
      cases hv
    obtain ⟨hps, rfl, rfl⟩ := returns_ensure.mp hr2
    rw [raises_read_bind] at hrs
    rcases raises_bind.mp hrs with h | ⟨row, _, _, hf, hrs⟩
    · obtain ⟨-, rfl⟩ := raises_orRaise.mp h
      cases hv
    obtain ⟨hr, rfl, rfl⟩ := returns_orRaise.mp hf
    rcases raises_bind.mp hrs with h | ⟨_, _, _, -, hrs⟩
    · obtain ⟨hk, h⟩ := raises_when.mp h
      have hk := of_decide_eq_true hk
      rcases raises_bind.mp h with h | ⟨units, _, _, hu, h⟩
      · obtain ⟨-, rfl⟩ := raises_orRaise.mp h
        cases hv
      obtain ⟨hg, rfl, rfl⟩ := returns_orRaise.mp hu
      rcases raises_bind.mp h with h | ⟨requested, _, _, hp, h⟩
      · exact ⟨quantity, row, units, ⟨hq, hps, hr⟩, hk, hg, preflight_refused_iff.mp
          ⟨error, raises_ofExcept.mp h, isInvariant_of_violates hv⟩⟩
      · obtain ⟨hpr, rfl, rfl⟩ := returns_ofExcept.mp hp
        have hrf := refuses_recordTransaction_iff.mp
          ⟨error, raises_bind_done.mp h, isInvariant_of_violates hv⟩
        exact absurd hrf (not_recordRefusal_r1 hpr hr (hun row hr) hk)
    · unfold insertDeployment at hrs
      simp only [bind_eq_bind] at hrs
      rw [raises_read_bind] at hrs
      rcases raises_bind.mp hrs with h | ⟨_, _, _, -, hrs⟩
      · obtain ⟨-, rfl⟩ := raises_ensure.mp h
        cases hv
      rcases raises_bind.mp hrs with h | ⟨_, _, _, -, h⟩
      · cases (never_constrained _ _ _ h).symm.trans (isInvariant_of_violates hv)
      · exact absurd h raises_done
  | _ =>
    simp only [hq] at hrs
    obtain rfl := raises_raise.mp hrs
    cases hv

theorem raises_of_short {quantity : Dict} (ha : DeployAsked args db quantity row)
    (hk : row.kind = .capacity)
    (hg : quantity.given "units" = some units) (hs : fallsShort row units) :
    ∃ error, Raises apply (deploy clock args) db supply error ∧ error.Violates .r1 := by
  obtain ⟨available, requested, hav, hr, hl⟩ := hs
  refine ⟨.invariantViolation .r1 "insufficient capacity" [("resource_id", idValue args.resourceId),
    ("available", .int available), ("requested", .int requested)], ?_, rfl⟩
  unfold deploy
  simp only [ha.quantity_eq, checkR2, deployChecked, bind_eq_bind]
  refine raises_bind.mpr (.inr ⟨(), db, supply, returns_ensure.mpr ⟨ha.positive, rfl, rfl⟩, ?_⟩)
  rw [raises_read_bind]
  refine raises_bind.mpr (.inr ⟨row, db, supply, returns_orRaise.mpr ⟨ha.found, rfl, rfl⟩, ?_⟩)
  refine raises_bind.mpr (.inl (raises_when.mpr ⟨decide_eq_true hk, ?_⟩))
  refine raises_bind.mpr (.inr ⟨units, db, supply, returns_orRaise.mpr ⟨hg, rfl, rfl⟩, ?_⟩)
  refine raises_bind.mpr (.inl (raises_ofExcept.mpr ?_))
  simp [preflight, hav, hr, lifted, Bind.bind, Except.bind, hl, throw, throwThe, MonadExceptOf.throw]

/-! ### What is left after the entries before -/

/-- The row of a resource after `taken` units of it. -/
def Kept (row : ResourceRow) (taken : Int) (current : ResourceRow) : Prop :=
  current.kind = row.kind ∧ current.archivedAt = row.archivedAt ∧
  (row.kind = .capacity → current.currentValue.units "available_units" =
    (row.currentValue.units "available_units").map (· - taken))

theorem Kept.refl (row : ResourceRow) : Kept row 0 row := by
  refine ⟨rfl, rfl, fun _ => ?_⟩
  cases row.currentValue.units "available_units" <;> simp [Except.map]

theorem Kept.trans {middle : ResourceRow} (h1 : Kept row taken middle) (h2 : Kept middle more current) :
    Kept row (taken + more) current := by
  refine ⟨h2.1.trans h1.1, h2.2.1.trans h1.2.1, fun hk => ?_⟩
  rw [h2.2.2 (h1.1.trans hk), h1.2.2 hk]
  cases row.currentValue.units "available_units" with
  | error => rfl
  | ok available => exact congrArg Except.ok (by dsimp only; omega)

theorem Deployed.kept {id : Nat} (hd : Deployed clock args quantity startedAt db middle after)
    (hr : db.resources.get id = some row) : ∃ current, after.resources.get id = some current ∧
      Kept row (if args.resourceId = id then quantity.unitsOrZero "units" else 0) current := by
  have haf : after.resources = middle.resources := by rw [hd.after_eq]; rfl
  rw [haf]
  by_cases hi : args.resourceId = id
  · subst hi
    rw [if_pos rfl]
    cases hd.moves with
    | untracked found hf hk hm =>
      obtain rfl := Option.some.inj (hr.symm.trans hf)
      exact ⟨row, hm ▸ hr, rfl, rfl, fun hc => absurd hc hk⟩
    | tracked found units requested newCv hk hu hrq hrc =>
      obtain rfl := Option.some.inj (hr.symm.trans hrc.found)
      obtain ⟨newUtil, hv, hg⟩ := hrc.get_resource
      refine ⟨_, hg, rfl, rfl, fun _ => ?_⟩
      have hap := (newValues_eq_ok hv).1
      rw [hk, applyDelta] at hap
      obtain ⟨asked, _, available, ha, -, hav, hs⟩ := applyCapacity_eq_ok hap
      obtain rfl := Except.ok.inj ((requestedUnits_single _).symm.trans ha)
      rw [unitsOrZero_of_get hu hrq, hav, show newCv = _ from hs]
      exact Dict.units_set_self _ _ _
  · rw [if_neg hi]
    refine ⟨row, ?_, .refl row⟩
    cases hd.moves with
    | untracked _ _ _ hm => exact hm ▸ hr
    | tracked _ _ _ _ _ _ _ hrc => exact (hrc.get_resource_ne (Ne.symm hi)).trans hr

theorem returns_deployAll {id : Nat} (hrt : Returns apply (deployAll plan) db supply () after left)
    (hr : db.resources.get id = some row) :
    ∃ current, after.resources.get id = some current ∧ Kept row (drawn plan id) current := by
  induction plan generalizing db supply row with
  | nil =>
    obtain ⟨rfl, -⟩ := returns_forEach_nil.mp hrt
    exact ⟨row, hr, .refl row⟩
  | cons item rest ih =>
    obtain ⟨middle, k, hd, hrt⟩ := returns_forEach_cons.mp hrt
    unfold drawn at ih ⊢
    rw [List.map_cons, List.sum_cons]
    unfold deployEntry at hd
    cases hrs : item.1.resource with
    | id other =>
      simp only [hrs] at hd
      obtain ⟨_, _, _, hdp, he⟩ := hd.parts
      obtain ⟨-, rfl, rfl⟩ := he.ended
      obtain ⟨startedAt, between, hde⟩ := returns_deploy_object rfl hdp
      obtain ⟨current, hc, hk⟩ := hde.kept hr
      obtain ⟨last, hl, hre⟩ := ih hrt hc
      exact ⟨last, hl, hk.trans hre⟩
    | _ =>
      simp only [hrs] at hd
      obtain ⟨-, rfl, rfl⟩ := hd.ended
      simpa using ih hrt hr

/-- A plan raises what an entry raises after those before it. -/
theorem raises_deployAll_iff : Raises apply (deployAll plan) db supply error ↔
    ∃ before item rest after left, plan = before ++ item :: rest ∧
      Returns apply (deployAll before) db supply () after left ∧
      Raises apply (deployEntry item) after left error := by
  unfold deployAll
  induction plan generalizing db supply with
  | nil => simp [forEach]
  | cons item rest ih =>
    rw [forEach, raises_bind]
    constructor
    · rintro (h | ⟨⟨⟩, middle, k, hr, h⟩)
      · exact ⟨[], item, rest, db, supply, rfl, rfl, h⟩
      · obtain ⟨before, other, others, after, left, rfl, hb, h⟩ := ih.mp h
        exact ⟨item :: before, other, others, after, left, rfl,
          returns_forEach_cons.mpr ⟨middle, k, hr, hb⟩, h⟩
    · rintro ⟨_ | ⟨first, before⟩, other, others, after, left, he, hb, h⟩
      · obtain ⟨rfl, rfl⟩ := returns_forEach_nil.mp hb
        cases he
        exact .inl h
      · obtain ⟨middle, k, hr, hbf⟩ := returns_forEach_cons.mp hb
        cases he
        exact .inr ⟨(), middle, k, hr, ih.mpr ⟨before, other, others, after, left, rfl, hbf, h⟩⟩

theorem raises_deployEntry_iff {item : DeployEntry × Occasion} {id : Nat}
    (hr : item.1.resource = .id id) :
    Raises apply (deployEntry item) db supply error ↔ Raises apply (deploy item.2.clock
        { item.2 with resourceId := id, quantity := .object item.1.quantity }) db supply error := by
  simp [deployEntry, hr]

/-- A list that is reported feasible is deployed without R1 exactly when no entry of it overdraws
its resource together with the entries before it. -/
theorem feasible_never_r1_iff (db : ResourceDb) (tenantId : Nat) (acts : ActsRead)
    (proposed : ProposedCommitment) (plan : List (DeployEntry × Occasion)) (supply : Nat) :
    (ReportedFeasible db tenantId acts { proposed with deploys := plan.map (·.1) } →
      NeverR1 plan db supply) ↔
    (ReportedFeasible db tenantId acts { proposed with deploys := plan.map (·.1) } →
      ¬ Overdraws plan db supply) := by
  refine forall_congr' fun hf => ?_
  have hun := unarchived_of_feasible hf
  constructor
  · rintro hn ⟨before, item, rest, id, row, units, available, requested, after, left, rfl, hb, hres,
      hr, hk, hgiv, hpos, hav, hrq, hlt⟩
    obtain ⟨current, hc, hkind, -, hleft⟩ := returns_deployAll hb hr
    have hs : fallsShort current units :=
      ⟨available - drawn before id, requested, by rw [hleft hk, hav]; rfl, hrq, by omega⟩
    have hak : DeployAsked { item.2 with resourceId := id, quantity := .object item.1.quantity }
        after item.1.quantity current := ⟨rfl, by simp [hgiv, hpos], hc⟩
    obtain ⟨error, hrs, hv⟩ := raises_of_short hak (hkind.trans hk) hgiv hs
    exact hn error (raises_deployAll_iff.mpr ⟨before, item, rest, after, left, rfl, hb,
      (raises_deployEntry_iff hres).mpr hrs⟩) hv
  · intro hno error hrs hv
    obtain ⟨before, item, rest, after, left, rfl, hb, hrs⟩ := raises_deployAll_iff.mp hrs
    obtain ⟨id, row, hres, hr, ha⟩ := hun item.1 (by simp)
    obtain ⟨current, hc, hkind, harch, hleft⟩ := returns_deployAll hb hr
    have hun : ∀ found, after.resources.get id = some found → found.archivedAt = none := by
      intro found hf
      obtain rfl := Option.some.inj (hc.symm.trans hf)
      exact harch.trans ha
    obtain ⟨quantity, found, units, hak, hk, hgiv, asked, requested, hav, hrq, hlt⟩ :=
      raises_r1 hun ((raises_deployEntry_iff hres).mp hrs) hv
    cases hak.quantity_eq
    obtain rfl := Option.some.inj (hc.symm.trans hak.found)
    have hcap := hkind.symm.trans hk
    have hleft := hleft hcap
    rw [hav] at hleft
    cases hcv : row.currentValue.units "available_units" with
    | error => simp [hcv, Except.map] at hleft
    | ok available =>
      rw [hcv] at hleft
      obtain rfl := Except.ok.inj hleft
      dsimp only at hlt
      exact hno ⟨before, item, rest, id, row, units, available, requested, after, left, rfl, hb,
        hres, hr, hcap, hgiv, by simpa [hgiv] using hak.positive, hcv, hrq, by omega⟩

def tenAvailable : ResourceDb where
  tenants := [1]
  commitments := [5]
  resources := (∅ : Table Nat ResourceRow).put 3 {
    tenantId := 1, kind := .capacity, lastUpdatedAt := 0
    currentValue := [("available_units", .int 10), ("total_units", .int 10)] }

/-- Two entries of six units on one resource. -/
def sixTwice : List (DeployEntry × Occasion) :=
  List.replicate 2 (⟨.id 3, [("units", .int 6)]⟩, ⟨⟨0, 0⟩, 5, none, 9⟩)

theorem feasible_but_r1 :
    ReportedFeasible tenAvailable 1 ⟨fun _ => 0, fun _ => none⟩ ⟨none, sixTwice.map (·.1), []⟩ ∧
      ¬ NeverR1 sixTwice tenAvailable 0 := by
  refine ⟨⟨⟨true, [], []⟩, rfl, .inl rfl⟩, fun hn => ?_⟩
  exact hn (.invariantViolation .r1 "insufficient capacity" [("resource_id", idValue 3),
    ("available", .int 4), ("requested", .int 6)]) rfl rfl

end FyralisCore.Resources
