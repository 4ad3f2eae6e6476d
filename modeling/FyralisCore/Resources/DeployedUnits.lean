import FyralisCore.Lib.TableSum
import FyralisCore.Resources.Deployments

/-! The counter of deployed units against the deployment rows. A release may give
back fewer units than its deployment took; the transactions remember how many,
and the difference stays in the counter. -/
namespace FyralisCore.Resources

open Relational Transaction Transition Table ResourceDb Value
open Acts (Clock)

inductive DeploymentCall where
  | deploy (clock : Clock) (args : DeployArgs)
  | release (clock : Clock) (args : ReleaseArgs)

def DeploymentCall.program : DeploymentCall → ResourceTx DeploymentRow
  | .deploy clock args => Resources.deploy clock args
  | .release clock args => Resources.release clock args

def Dict.unitsOrZero (dict : Dict) (key : String) : Int :=
  match dict.units key with
  | .ok value => value
  | .error _ => 0

def DeploymentRow.units (row : DeploymentRow) : Int :=
  (row.deployedQuantity.getD []).unitsOrZero "units"

section

variable (resourceId : Nat)

def deployedUnits (db : ResourceDb) : Option Int :=
  (db.resources.get resourceId).bind fun row =>
    match row.currentValue.units "deployed_units" with
    | .ok value => some value
    | .error _ => none

def heldShare (key : Nat × Nat) (row : DeploymentRow) : Int :=
  if key.1 = resourceId ∧ row.releasedAt = none then row.units else 0

def releasedShare (key : Nat × Nat) (row : DeploymentRow) : Int :=
  if key.1 = resourceId ∧ row.releasedAt ≠ none then row.units else 0

def returnedShare (_ : Nat × Nat) (row : TransactionRow) : Int :=
  if row.resourceId = resourceId ∧ row.transactionType = .release then
    row.delta.unitsOrZero "deployed_units"
  else 0

def heldUnits (db : ResourceDb) : Int :=
  db.deployments.sum (heldShare resourceId)

/-- What released deployments took and no release transaction gave back. -/
def unreturnedUnits (db : ResourceDb) : Int :=
  db.deployments.sum (releasedShare resourceId) - db.transactions.sum (returnedShare resourceId)

end

structure Idle (resourceId : Nat) (db : ResourceDb) : Prop where
  resource : ∃ row, db.resources.get resourceId = some row ∧ row.kind = .capacity
  counter : deployedUnits resourceId db = some 0
  rows : ∀ commitmentId row, db.deployments.get (resourceId, commitmentId) = some row →
    row.releasedAt ≠ none

/-- The counter is what is held and, since a start at which `before` units were
unreturned, what was not given back. -/
structure Accounted (resourceId : Nat) (before : Int) (db : ResourceDb) : Prop where
  resource : ∃ row, db.resources.get resourceId = some row ∧ row.kind = .capacity ∧
    row.currentValue.units "deployed_units" =
      .ok (heldUnits resourceId db + (unreturnedUnits resourceId db - before))
  unreturned : before ≤ unreturnedUnits resourceId db
  rows : ∀ commitmentId row, db.deployments.get (resourceId, commitmentId) = some row →
    row.releasedAt = none → ∃ units, (row.deployedQuantity.getD []).get "units" = some units ∧
      units.isPositive

variable {resourceId : Nat} {before : Int} {clock : Clock} {db middle after : ResourceDb}

/-! ### What a transaction does to the counter and to the sums -/

theorem requestedUnits_single (units : Int) :
    requestedUnits [("deployed_units", .int units)] = .ok units := by
  by_cases hz : units = 0
  · subst hz
    rfl
  · simp [requestedUnits, Dict.getD, Dict.get, orZero, truthy, hz, toInt]

theorem unitsOrZero_single (units : Int) :
    Dict.unitsOrZero [("deployed_units", .int units)] "deployed_units" = units := by
  simp [Dict.unitsOrZero, Dict.units, Dict.getD, Dict.get, toInt]

variable {units : Int} {newCv : Dict} {kind : TransactionType} {key : Nat × Nat}
  {row : DeploymentRow} {releasedAt : Nat}

theorem unitsOrZero_of_get {dict : Dict} {key : String}
    (hg : dict.get key = some v) (hu : v.toInt = .ok units) :
    dict.unitsOrZero key = units := by
  simp [Dict.unitsOrZero, Dict.units, Dict.getD, hg, hu]

theorem units_deployed_of_applyDelta (hd : cv.units "deployed_units" = .ok deployed)
    (ha : applyDelta cv [("deployed_units", .int units)] .capacity kind = .ok newCv) :
    (kind = .deploy → newCv.units "deployed_units" = .ok (deployed + units)) ∧
      (kind = .release → newCv.units "deployed_units" = .ok (max 0 (deployed - units))) := by
  obtain ⟨requested, deployed', available, hr, hd', -, hs⟩ := applyCapacity_eq_ok ha
  obtain rfl := Except.ok.inj ((requestedUnits_single units).symm.trans hr)
  obtain rfl := Except.ok.inj (hd.symm.trans hd')
  constructor
  · rintro rfl
    rw [show newCv = _ from hs, Dict.units_set_ne _ _ _ _ (by decide), Dict.units_set_self]
  · rintro rfl
    rw [show newCv = _ from hs, Dict.units_set_ne _ _ _ _ (by decide), Dict.units_set_self]

theorem Recorded.sum_returned {a : RecordArgs} {delta : Dict} {row : ResourceRow}
    (hr : Recorded clock a db middle kind delta row newCv) (resourceId : Nat) :
    middle.transactions.sum (returnedShare resourceId) =
      (if a.resourceId = resourceId ∧ kind = .release then delta.unitsOrZero "deployed_units"
        else 0) + db.transactions.sum (returnedShare resourceId) := by
  obtain ⟨txId, hf, hi⟩ := hr.inserted
  rw [hi, sum_put_of_none _ _ hf]
  rfl

theorem Recorded.deployed {a : RecordArgs} {row : ResourceRow} {deployed : Int}
    (hr : Recorded clock a db middle kind [("deployed_units", .int units)] row newCv)
    (hk : row.kind = .capacity) (hd : row.currentValue.units "deployed_units" = .ok deployed) :
    ∃ row', middle.resources.get a.resourceId = some row' ∧ row'.kind = .capacity ∧
      (kind = .deploy → row'.currentValue.units "deployed_units" = .ok (deployed + units)) ∧
      (kind = .release →
        row'.currentValue.units "deployed_units" = .ok (max 0 (deployed - units))) := by
  obtain ⟨newUtil, hv, ha⟩ := hr.get_resource
  obtain ⟨hap, -⟩ := newValues_eq_ok hv
  rw [hk] at hap
  exact ⟨_, ha, hk, units_deployed_of_applyDelta hd hap⟩

theorem sum_deployments_put (f : Nat × Nat → DeploymentRow → Int)
    (ha : db.deployments.get key = none) :
    (db.apply (.insertDeployment key.1 key.2 row)).deployments.sum f =
      f key row + db.deployments.sum f := by
  have hp : (db.apply (.insertDeployment key.1 key.2 row)).deployments =
      db.deployments.put key row := by
    simp [apply, Table.insertNew, ha]
  rw [hp, sum_put_of_none f row ha]

theorem sum_deployments_released (f : Nat × Nat → DeploymentRow → Int)
    (hr : db.deployments.get key = some row) :
    (db.apply (.setReleased key.1 key.2 releasedAt)).deployments.sum f =
      db.deployments.sum f - f key row + f key (row.released releasedAt) :=
  sum_update f hr fun row => row.released releasedAt

theorem Accounted.units_nonneg (ha : Accounted resourceId before db) {commitmentId : Nat}
    (hr : db.deployments.get (resourceId, commitmentId) = some row)
    (hac : row.releasedAt = none) : 0 ≤ row.units := by
  obtain ⟨units, hu, hp⟩ := ha.rows commitmentId row hr hac
  obtain ⟨number, hn, hl⟩ := number_of_isPositive hp
  rw [show row.units = truncate number from
    unitsOrZero_of_get hu (toInt_of_number hn)]
  exact truncate_nonneg hl.le

theorem accounted_deploy {args : DeployArgs} {quantity : Dict} {startedAt : Nat}
    (hac : Accounted resourceId before db)
    (hdp : Deployed clock args quantity startedAt db middle after) :
    Accounted resourceId before after := by
  obtain ⟨row, hr, hk, hc⟩ := hac.resource
  have ha : middle.deployments.get (args.resourceId, args.commitmentId) = none := by
    rw [hdp.moves.deployments]
    exact hdp.absent
  have hh : heldUnits resourceId after =
      (if args.resourceId = resourceId then (deploymentRow quantity startedAt).units else 0) +
        heldUnits resourceId db := by
    unfold heldUnits
    rw [hdp.after_eq, sum_deployments_put _ ha, hdp.moves.deployments]
    simp [heldShare, deploymentRow]
  have hrl : after.deployments.sum (releasedShare resourceId) =
      db.deployments.sum (releasedShare resourceId) := by
    rw [hdp.after_eq, sum_deployments_put _ ha, hdp.moves.deployments]
    simp [releasedShare, deploymentRow]
  have hrs : ∀ commitmentId row, after.deployments.get (resourceId, commitmentId) = some row →
      db.deployments.get (resourceId, commitmentId) = some row ∨
        args.resourceId = resourceId ∧ row = deploymentRow quantity startedAt := by
    intro commitmentId row hg
    rw [hdp.after_eq, apply, get_insertNew, hdp.moves.deployments] at hg
    split at hg
    · next hky => exact .inr ⟨(congrArg Prod.fst hky.1).symm, (Option.some.inj hg).symm⟩
    · exact .inl hg
  cases hdp.moves with
  | untracked found hf ho hm =>
    -- Only another resource can be of a kind that is not tracked.
    have hn : args.resourceId ≠ resourceId := by
      rintro rfl
      exact ho (Option.some.inj (hf.symm.trans hr) ▸ hk)
    have hun : unreturnedUnits resourceId after = unreturnedUnits resourceId db := by
      unfold unreturnedUnits
      rw [hrl, hdp.after_eq, hm]
      rfl
    refine ⟨⟨row, ?_, hk, ?_⟩, hun ▸ hac.unreturned, ?_⟩
    · rw [hdp.after_eq, hm]
      exact hr
    · rw [hh, if_neg hn, zero_add, hun]
      exact hc
    · intro commitmentId row hg
      rcases hrs commitmentId row hg with hold | ⟨hs, -⟩
      · exact hac.rows commitmentId row hold
      · exact absurd hs hn
  | tracked found units requested newCv hk' hu hrq hrc =>
    have hun : unreturnedUnits resourceId after = unreturnedUnits resourceId db := by
      unfold unreturnedUnits
      rw [hrl, hdp.after_eq]
      exact congrArg _ ((hrc.sum_returned resourceId).trans (by simp))
    have hp : units.isPositive := by
      have hgv : quantity.given "units" = some units := by
        refine Option.filter_eq_some_iff.mpr ⟨hu, ?_⟩
        cases units with
        | null => cases hrq
        | _ => rfl
      exact hdp.positive units hgv
    by_cases hs : args.resourceId = resourceId
    · subst hs
      obtain rfl : row = found := Option.some.inj (hr.symm.trans hrc.found)
      obtain ⟨row', hr', hk'', hd, -⟩ := hrc.deployed hk hc
      refine ⟨⟨row', ?_, hk'', ?_⟩, hun ▸ hac.unreturned, ?_⟩
      · rw [hdp.after_eq]
        exact hr'
      · rw [hd rfl, hh, if_pos rfl, hun]
        have ht : (deploymentRow quantity startedAt).units = requested :=
          unitsOrZero_of_get hu hrq
        rw [ht]
        congr 1
        ring
      · intro commitmentId other hg hact
        rcases hrs commitmentId other hg with hold | ⟨-, rfl⟩
        · exact hac.rows commitmentId other hold hact
        · exact ⟨units, hu, hp⟩
    · refine ⟨⟨row, ?_, hk, ?_⟩, hun ▸ hac.unreturned, ?_⟩
      · rw [hdp.after_eq]
        exact (hrc.get_resource_ne (Ne.symm hs)).trans hr
      · rw [hh, if_neg hs, zero_add, hun]
        exact hc
      · intro commitmentId other hg
        rcases hrs commitmentId other hg with hold | ⟨hs', -⟩
        · exact hac.rows commitmentId other hold
        · exact absurd hs' hs

theorem returned_le {a : ReleaseArgs} {quantity : Dict} {units : Value}
    (hh : (row.deployedQuantity.getD []).get "units" = some held) (hp : held.isPositive)
    (hq : releaseQuantity a .capacity (row.deployedQuantity.getD []) = .ok quantity)
    (hu : quantity.get "units" = some units) (hr : units.toInt = .ok returned) :
    returned ≤ row.units := by
  obtain ⟨number, hn, -⟩ := number_of_isPositive hp
  have ht : row.units = truncate number := unitsOrZero_of_get hh (toInt_of_number hn)
  unfold releaseQuantity at hq
  cases ha : a.actualQuantity with
  | none =>
    rw [ha] at hq
    obtain rfl := Except.ok.inj hq
    cases hh.symm.trans hu
    rw [ht]
    exact (Except.ok.inj (hr.symm.trans (toInt_of_number hn))).le
  | some released =>
    rw [ha] at hq
    obtain ⟨_, hR3, hq⟩ := bind_eq_ok_iff.mp hq
    obtain rfl := Except.ok.inj hq
    simp only [checkR3, hu, hh] at hR3
    obtain ⟨exceeds, he, hR3⟩ := bind_eq_ok_iff.mp hR3
    rw [lifted_eq_ok_iff] at he
    cases exceeds with
    | true => cases hR3
    | false =>
      obtain ⟨other, ho, hl⟩ := exceeds_eq_false hn he
      obtain rfl := Except.ok.inj (hr.symm.trans (toInt_of_number ho))
      rw [ht]
      exact truncate_mono hl

theorem sums_setReleased (resourceId : Nat) (hr : db.deployments.get key = some row)
    (hac : row.releasedAt = none) (ha : after = db.apply (.setReleased key.1 key.2 releasedAt)) :
    heldUnits resourceId after =
        heldUnits resourceId db - (if key.1 = resourceId then row.units else 0) ∧
      after.deployments.sum (releasedShare resourceId) =
        db.deployments.sum (releasedShare resourceId) +
          (if key.1 = resourceId then row.units else 0) := by
  have hu : (row.released releasedAt).units = row.units := rfl
  have hs : (row.released releasedAt).releasedAt = some releasedAt := rfl
  unfold heldUnits
  rw [ha, sum_deployments_released _ hr, sum_deployments_released _ hr]
  simp [heldShare, releasedShare, hac, hu, hs]

theorem rows_setReleased (key : Nat × Nat) (ha : row.releasedAt = none)
    (hg : (db.apply (.setReleased key.1 key.2 releasedAt)).deployments.get other = some row) :
    db.deployments.get other = some row := by
  rw [apply, get_update] at hg
  split at hg
  · obtain ⟨old, -, rfl⟩ := Option.map_eq_some_iff.mp hg
    cases ha
  · exact hg

theorem accounted_release {a : ReleaseArgs} (hac : Accounted resourceId before db)
    (hrel : Released clock a db after) : Accounted resourceId before after := by
  obtain ⟨resource, hre, hk, hc⟩ := hac.resource
  cases hrel with
  | already row hr hd ha => exact ha ▸ hac
  | untracked row found quantity releasedAt hr hact hf hq hn ha =>
    obtain ⟨hh, hsh⟩ := sums_setReleased resourceId hr hact ha
    have hun : unreturnedUnits resourceId after = unreturnedUnits resourceId db +
        (if a.resourceId = resourceId then row.units else 0) := by
      have ht : after.transactions = db.transactions := by rw [ha]; rfl
      unfold unreturnedUnits
      rw [hsh, ht]
      ring
    have hnn : 0 ≤ if a.resourceId = resourceId then row.units else 0 := by
      split
      · next hs => exact hac.units_nonneg (hs ▸ hr) hact
      · exact le_rfl
    refine ⟨⟨resource, ?_, hk, ?_⟩, ?_, ?_⟩
    · rw [ha]
      exact hre
    · rw [hc, hh, hun]
      congr 1
      ring
    · have hb := hac.unreturned
      linarith
    · intro commitmentId other hg ho
      rw [ha] at hg
      exact hac.rows commitmentId other (rows_setReleased (a.resourceId, a.commitmentId) ho hg) ho
  | tracked row found quantity releasedAt units returned newCv middle hr hact hk' hq
      hu hrt hrc ha =>
    have hr' : middle.deployments.get (a.resourceId, a.commitmentId) = some row := by
      rw [hrc.deployments]
      exact hr
    obtain ⟨hh, hsh⟩ := sums_setReleased resourceId hr' hact ha
    have hhl : heldUnits resourceId middle = heldUnits resourceId db := by
      unfold heldUnits
      rw [hrc.deployments]
    rw [hhl] at hh
    rw [hrc.deployments] at hsh
    have hun : unreturnedUnits resourceId after = unreturnedUnits resourceId db +
        (if a.resourceId = resourceId then row.units - returned else 0) := by
      have ht : after.transactions = middle.transactions := by rw [ha]; rfl
      unfold unreturnedUnits
      rw [hsh, ht, hrc.sum_returned, unitsOrZero_single]
      by_cases hs : a.resourceId = resourceId
      · simp only [ReleaseArgs.transaction, hs, and_self, if_true]
        ring
      · simp [ReleaseArgs.transaction, hs]
    have hrs : ∀ commitmentId other, after.deployments.get (resourceId, commitmentId) =
        some other → other.releasedAt = none →
        ∃ units, (other.deployedQuantity.getD []).get "units" = some units ∧
          units.isPositive := by
      intro commitmentId other hg ho
      rw [ha] at hg
      have hold := rows_setReleased (a.resourceId, a.commitmentId) ho hg
      rw [hrc.deployments] at hold
      exact hac.rows commitmentId other hold ho
    by_cases hs : a.resourceId = resourceId
    · subst hs
      obtain rfl : resource = found := Option.some.inj (hre.symm.trans hrc.found)
      obtain ⟨held, hhe, hp⟩ := hac.rows a.commitmentId row hr hact
      have hl : returned ≤ row.units := returned_le hhe hp (hk ▸ hq) hu hrt
      obtain ⟨resource', hrs', hk'', -, hrl⟩ := hrc.deployed hk hc
      simp only [if_true] at hh hun
      refine ⟨⟨resource', ?_, hk'', ?_⟩, ?_, hrs⟩
      · rw [ha]
        exact hrs'
      · -- The clamp at zero does nothing: this deployment's own units are in the counter.
        have hsha : row.units ≤ heldUnits a.resourceId db := by
          have hshr : heldShare a.resourceId (a.resourceId, a.commitmentId) row =
              row.units := by simp [heldShare, hact]
          rw [← hshr]
          refine le_sum hr fun e he => ?_
          unfold heldShare
          split
          · next hky =>
            obtain ⟨⟨resourceId, commitmentId⟩, other⟩ := e
            obtain ⟨rfl, ho⟩ := hky
            exact hac.units_nonneg ((mem_rows_iff _ _ _).mp he) ho
          · exact le_rfl
        have hb := hac.unreturned
        rw [hrl rfl, hh, hun, max_eq_right (by linarith)]
        congr 1
        ring
      · have hb := hac.unreturned
        linarith
    · simp only [hs, if_false, sub_zero, add_zero] at hh hun
      refine ⟨⟨resource, ?_, hk, ?_⟩, hun ▸ hac.unreturned, hrs⟩
      · rw [ha]
        exact (hrc.get_resource_ne (Ne.symm hs)).trans hre
      · rw [hh, hun]
        exact hc

theorem Accounted.counter (ha : Accounted resourceId before db) : deployedUnits resourceId db =
      some (heldUnits resourceId db + (unreturnedUnits resourceId db - before)) := by
  obtain ⟨row, hr, -, hc⟩ := ha.resource
  simp [deployedUnits, hr, hc]

theorem accounted_of_idle (hi : Idle resourceId db) :
    Accounted resourceId (unreturnedUnits resourceId db) db := by
  obtain ⟨row, hr, hk⟩ := hi.resource
  have hh : heldUnits resourceId db = 0 := by
    refine List.sum_eq_zero fun share hs => ?_
    obtain ⟨⟨⟨resourceId', commitmentId⟩, other⟩, he, rfl⟩ := List.mem_map.mp hs
    refine if_neg ?_
    rintro ⟨rfl, ha⟩
    exact hi.rows commitmentId other ((mem_rows_iff _ _ _).mp he) ha
  refine ⟨⟨row, hr, hk, ?_⟩, le_rfl, ?_⟩
  · have hc := hi.counter
    simp only [deployedUnits, hr, Option.bind_some] at hc
    rw [hh, sub_self, add_zero]
    split at hc
    · next v hv =>
      cases hc
      exact hv
    · cases hc
  · intro commitmentId other hg ha
    exact absurd ha (hi.rows commitmentId other hg)

/-- In every state that deployments and releases reach, the counter is what the
active deployments took and what releases since the start have not given back. -/
theorem deployedUnits_eq {start final : Database ResourceDb} (hidle : Idle resourceId start.state)
    (hreach : Reach (Database.step apply DeploymentCall.program) anyStep start final) :
    deployedUnits resourceId final.state = some (heldUnits resourceId final.state +
      (unreturnedUnits resourceId final.state - unreturnedUnits resourceId start.state)) := by
  refine Accounted.counter (Database.invariant_of_returns (P := Accounted resourceId _) hreach
    (accounted_of_idle hidle) ?_)
  rintro db (⟨clock, args⟩ | ⟨clock, args⟩) value after left haccounted - hreturns
  · obtain ⟨quantity, startedAt, middle, hdeployed⟩ := returns_deploy hreturns
    exact accounted_deploy haccounted hdeployed
  · exact accounted_release haccounted (returns_release hreturns)

/-! ### Five of ten units deployed, two given back -/

def tenIdle : Database ResourceDb where
  state := {
    tenants := [0]
    commitments := [4]
    resources := Table.put ∅ 1
      { tenantId := 0
        kind := .capacity
        currentValue := [("available_units", .int 10), ("deployed_units", .int 0),
          ("total_units", .int 10)]
        lastUpdatedAt := 0 } }
  supply := 0

def deployFive : DeploymentCall :=
  .deploy ⟨5, 5⟩ ⟨1, 4, .object [("units", .int 5)], none, 7⟩

def releaseTwo : DeploymentCall :=
  .release ⟨6, 6⟩ ⟨1, 4, none, some [("units", .int 2)], 7⟩

def afterReleaseTwo : Database ResourceDb :=
  (tenIdle.run apply deployFive.program).run apply releaseTwo.program

theorem idle_tenIdle : Idle 1 tenIdle.state where
  resource := ⟨_, rfl, rfl⟩
  counter := rfl
  rows := by
    intro commitmentId row hg
    cases hg

theorem reach_afterReleaseTwo :
    Reach (Database.step apply DeploymentCall.program) anyStep tenIdle afterReleaseTwo :=
  (Reach.start.next (a := deployFive) trivial rfl).next (a := releaseTwo) trivial rfl

theorem deployedUnits_eq_releaseTwo :
    deployedUnits 1 afterReleaseTwo.state = some (heldUnits 1 afterReleaseTwo.state +
      (unreturnedUnits 1 afterReleaseTwo.state - unreturnedUnits 1 tenIdle.state)) :=
  deployedUnits_eq idle_tenIdle reach_afterReleaseTwo

/-- Nothing is deployed any more, and the counter says three. -/
theorem deployedUnits_ne_heldUnits : Idle 1 tenIdle.state ∧
      Reach (Database.step apply DeploymentCall.program) anyStep tenIdle
        afterReleaseTwo ∧ heldUnits 1 afterReleaseTwo.state = 0 ∧
      deployedUnits 1 afterReleaseTwo.state = some 3 :=
  ⟨idle_tenIdle, reach_afterReleaseTwo, by decide +kernel, by decide +kernel⟩

end FyralisCore.Resources
