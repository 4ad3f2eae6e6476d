import FyralisCore.Lib.RelyGuarantee
import FyralisCore.Think.ApplyOnce

/-! The effects of a trigger are committed at most once. The claim of the trigger
in applied_triggers is held, as a lock, from its INSERT to the end of the
transaction, and every effect of the diff comes after it. -/
namespace FyralisCore.Think.ApplyOnce

open Relational Transaction Transition ReadCommitted List Table Tx Config LedgerDb

variable {E R ε : Type} {db later start : LedgerDb E} {trail : Trail (Write E) (Lock R)}
  {regionLockKey : Nat → List (String × Nat) → Int × Int} {attempt : Attempt E R ε}

def Claims (trail : Trail (Write E) (Lock R)) (triggerId : Nat) : Prop :=
  ∃ row, .claim triggerId row ∈ trail.writes

def Affects (trail : Trail (Write E) (Lock R)) (triggerId thinkRunId : Nat) : Prop :=
  ∃ effect : Effect E, .effect effect ∈ trail.writes ∧ effect.attempt = some (triggerId, thinkRunId)

def Committed (db : LedgerDb E) (triggerId thinkRunId : Nat) : Prop :=
  ∃ effect ∈ db.effects, effect.attempt = some (triggerId, thinkRunId)

def viewOf (db : LedgerDb E) (writes : List (Write E)) : LedgerDb E :=
  writes.foldl apply db

variable {writes : List (Write E)} {triggerId run : Nat}

theorem mem_effects_viewOf :
    effect ∈ (viewOf db writes).effects ↔ effect ∈ db.effects ∨ .effect effect ∈ writes := by
  induction writes generalizing db with
  | nil => simp [viewOf]
  | cons w rest ih =>
    have ht : effect ∈ (viewOf (db.apply w) rest).effects ↔ _ := ih
    refine ht.trans ?_
    cases w <;> simp [apply, or_assoc]

theorem isSome_applied_viewOf : ((viewOf db writes).applied.get triggerId).isSome ↔
      (db.applied.get triggerId).isSome ∨ ∃ row, .claim triggerId row ∈ writes := by
  induction writes generalizing db with
  | nil => simp [viewOf]
  | cons w rest ih =>
    have ht : ((viewOf (db.apply w) rest).applied.get triggerId).isSome ↔ _ := ih
    refine ht.trans ?_
    cases w with
    | claim other row =>
      by_cases he : triggerId = other
      · subst he
        simp [apply]
      · simp [apply, get_put, he]
    | outcome other outcome =>
      by_cases he : triggerId = other
      · subst he
        simp [apply, get_update]
      · simp [apply, get_update, he]
    | effect effect => simp [apply]

def Write.onTrigger (triggerId : Nat) : Write E → Prop
  | .claim other _ => other = triggerId
  | .outcome other _ => other = triggerId
  | .effect _ => False

theorem applied_viewOf_of_untouched (hu : ∀ w ∈ writes, ¬ w.onTrigger triggerId) :
    (viewOf db writes).applied.get triggerId = db.applied.get triggerId := by
  induction writes generalizing db with
  | nil => rfl
  | cons w rest ih =>
    have ht : (viewOf (db.apply w) rest).applied.get triggerId = _ :=
      ih fun other ho => hu other (.tail _ ho)
    refine ht.trans ?_
    have hw := hu w (.head _)
    cases w with
    | claim other row =>
      have hn : triggerId ≠ other := fun he => hw he.symm
      simp [apply, get_put, hn]
    | outcome other outcome =>
      have hn : triggerId ≠ other := fun he => hw he.symm
      simp [apply, get_update, hn]
    | effect effect => rfl

/-- The committed effects of a trigger come from one run, and the trigger is in
the ledger. -/
structure AppliedOnce (db : LedgerDb E) : Prop where
  ledger : ∀ triggerId run, Committed db triggerId run → (db.applied.get triggerId).isSome
  single : ∀ triggerId run other, Committed db triggerId run → Committed db triggerId other →
    run = other

/-- What a transaction has done to the ledger, it has done under the key of its
trigger, which nobody had claimed; and its effects are those of one run that has
made the claim. -/
structure OwnClaims (db : LedgerDb E) (trail : Trail (Write E) (Lock R)) : Prop where
  locked : ∀ triggerId, Claims trail triggerId → .applied triggerId ∈ trail.locks
  absent : ∀ triggerId, Claims trail triggerId → db.applied.get triggerId = none
  finished : ∀ triggerId outcome, .outcome triggerId outcome ∈ trail.writes →
    Claims trail triggerId
  dominated : ∀ triggerId run, Affects trail triggerId run → Claims trail triggerId
  single : ∀ triggerId run other, Affects trail triggerId run → Affects trail triggerId other →
    run = other

/-- Whoever holds the key of a trigger finds its ledger row as it was. -/
def LedgerKept (trail : Trail (Write E) (Lock R)) (db later : LedgerDb E) : Prop :=
  ∀ triggerId, .applied triggerId ∈ trail.locks →
    later.applied.get triggerId = db.applied.get triggerId

section

variable (ho : OwnClaims db trail)

include ho

theorem OwnClaims.onTrigger (hw : w ∈ trail.writes) (hon : w.onTrigger triggerId) :
    Claims trail triggerId := by
  cases w with
  | claim other row =>
    obtain rfl : other = triggerId := hon
    exact ⟨row, hw⟩
  | outcome other outcome =>
    obtain rfl : other = triggerId := hon
    exact ho.finished _ _ hw
  | effect effect => exact hon.elim

theorem OwnClaims.stable (hk : LedgerKept trail db later) : OwnClaims later trail :=
  { ho with
    absent := fun triggerId hc =>
      (hk triggerId (ho.locked triggerId hc)).trans (ho.absent triggerId hc) }

theorem OwnClaims.mint (id : Nat) : OwnClaims db (trail.mint id) :=
  ⟨ho.locked, ho.absent, ho.finished, ho.dominated, ho.single⟩

end

theorem committed_viewOf : Committed (viewOf db trail.writes) triggerId run ↔
      Committed db triggerId run ∨ Affects trail triggerId run := by
  unfold Committed Affects
  simp [mem_effects_viewOf, or_and_right, exists_or]

theorem AppliedOnce.commit (hg : AppliedOnce db) (hw : OwnClaims db trail) :
    AppliedOnce (viewOf db trail.writes) := by
  have hc : ∀ triggerId run other, Committed db triggerId run →
      ¬ Affects trail triggerId other := by
    intro triggerId run other hcm ha
    have hs := hg.ledger triggerId run hcm
    rw [hw.absent triggerId (hw.dominated triggerId other ha)] at hs
    cases hs
  constructor
  · intro triggerId run hcm
    rw [isSome_applied_viewOf]
    exact (committed_viewOf.mp hcm).imp (hg.ledger triggerId run) (hw.dominated triggerId run)
  · intro triggerId run other hr ho
    rcases committed_viewOf.mp hr with hr | hr <;> rcases committed_viewOf.mp ho with ho | ho
    · exact hg.single triggerId run other hr ho
    · exact absurd ho (hc triggerId run other hr)
    · exact absurd hr (hc triggerId other run ho)
    · exact hw.single triggerId run other hr ho

def applyProtocol (regionLockKey : Nat → List (String × Nat) → Int × Int) (E R ε : Type) :
    Protocol (applySchema regionLockKey E R ε) where
  Good := AppliedOnce
  Own _ db trail := OwnClaims db trail
  Rely := LedgerKept
  Unused _ _ := True
  rely_refl := fun _ _ _ _ => rfl
  rely_trans := fun hfirst hsecond triggerId hheld =>
    (hsecond triggerId hheld).trans (hfirst triggerId hheld)
  own_begin := by
    intro db _
    constructor <;> simp [Claims, Affects]
  own_stable := fun hown hrely _ => hown.stable hrely
  rely_commit := by
    intro start other db mine theirs _ hmine _ hdisjoint triggerId hheld
    refine applied_viewOf_of_untouched fun write hwrite honTrigger => ?_
    exact hdisjoint.1 _ (hmine.locked _ (hmine.onTrigger hwrite honTrigger)) hheld
  unused_commit := fun _ _ _ => trivial

def EffectsOf (origin : Option (Nat × Nat)) (_ : LedgerDb E) (_ : Option (Lock R))
    (writes : List (Write E)) : Prop :=
  ∀ write ∈ writes, ∃ effect : Effect E, write = .effect effect ∧ effect.attempt = origin

/-- The transaction may write effects of this origin: it has claimed the trigger
and no other run in it has affected that. -/
def MayAffect (origin : Option (Nat × Nat)) (trail : Trail (Write E) (Lock R)) : Prop :=
  ∀ triggerId run, origin = some (triggerId, run) →
    Claims trail triggerId ∧ ∀ other, Affects trail triggerId other → other = run

section

variable {origin : Option (Nat × Nat)} {lock : Option (Lock R)} {writes : List (Write E)}

theorem claims_extend (he : EffectsOf origin db lock writes) (triggerId : Nat) :
    Claims (trail.extend lock writes) triggerId ↔ Claims trail triggerId := by
  constructor
  · rintro ⟨row, hc⟩
    rcases mem_append.mp hc with ho | hn
    · exact ⟨row, ho⟩
    · obtain ⟨_, heq, -⟩ := he _ hn
      cases heq
  · rintro ⟨row, hc⟩
    exact ⟨row, mem_append_left _ hc⟩

theorem affects_extend (he : EffectsOf origin db lock writes)
    (haf : Affects (trail.extend lock writes) triggerId run) :
    Affects trail triggerId run ∨ origin = some (triggerId, run) := by
  obtain ⟨effect, hm, ha⟩ := haf
  rcases mem_append.mp hm with ho | hn
  · exact .inl ⟨effect, ho, ha⟩
  · obtain ⟨other, heq, hor⟩ := he _ hn
    cases heq
    exact .inr (hor.symm.trans ha)

theorem MayAffect.extend (hm : MayAffect origin trail) (he : EffectsOf origin db lock writes) :
    MayAffect origin (trail.extend lock writes) := by
  intro triggerId run hor
  obtain ⟨hc, hon⟩ := hm triggerId run hor
  refine ⟨(claims_extend he triggerId).mpr hc, fun other ha => ?_⟩
  rcases affects_extend he ha with ho | hn
  · exact hon other ho
  · rw [hor] at hn
    exact (congrArg Prod.snd (Option.some.inj hn)).symm

theorem OwnClaims.extend (hw : OwnClaims db trail) (hmy : MayAffect origin trail)
    (he : EffectsOf origin db lock writes) : OwnClaims db (trail.extend lock writes) := by
  have hcl : ∀ triggerId, Claims (trail.extend lock writes) triggerId ↔ Claims trail triggerId :=
    claims_extend he
  have hon : ∀ triggerId run other, Affects (trail.extend lock writes) triggerId run →
      origin = some (triggerId, other) → run = other := by
    intro triggerId run other ha hor
    exact ((hmy.extend he) triggerId other hor).2 run ha
  constructor
  · exact fun triggerId hc =>
      mem_append_right _ (hw.locked triggerId ((hcl triggerId).mp hc))
  · exact fun triggerId hc => hw.absent triggerId ((hcl triggerId).mp hc)
  · intro triggerId outcome hm
    rcases mem_append.mp hm with hold | hn
    · exact (hcl triggerId).mpr (hw.finished triggerId outcome hold)
    · obtain ⟨_, heq, -⟩ := he _ hn
      cases heq
  · intro triggerId run ha
    rw [hcl]
    rcases affects_extend he ha with hold | hn
    · exact hw.dominated triggerId run hold
    · exact (hmy triggerId run hn).1
  · intro triggerId run other hr ho
    rcases affects_extend he hr with holdRun | hne
    · rcases affects_extend he ho with hol | hnw
      · exact hw.single triggerId run other holdRun hol
      · exact hon triggerId run other hr hnw
    · exact (hon triggerId other run ho hne).symm

end

theorem wp_effectsOf (hb : body.EachStatement (EffectsOf origin)) (ho : OwnClaims db trail)
    (hm : MayAffect origin trail) : (applyProtocol regionLockKey E R ε).wp start
      (fun _ later trail => OwnClaims later trail ∧ MayAffect origin trail) body db trail := by
  refine wp_of_eachStatement (I := fun later trail => OwnClaims later trail ∧ MayAffect origin trail)
    hb ?_ ?_ ?_ ⟨ho, hm⟩
  · exact fun s t trail hi hr _ => ⟨hi.1.stable hr, hi.2⟩
  · intro t trail lock writes hi _ he
    have hn : OwnClaims _ (trail.extend lock writes) := hi.1.extend hi.2 he
    exact ⟨hn, hn, hi.2.extend he⟩
  · exact fun t trail id hi _ _ _ => ⟨hi.1.mint id, hi.1.mint id, hi.2⟩

theorem mayAffect_none (trail : Trail (Write E) (Lock R)) : MayAffect none trail := by
  intro triggerId run ho
  cases ho

theorem ofAttempt_effects (triggerRef thinkRunId : Nat) (body : OtherTx E R ε) :
    (ofAttempt triggerRef thinkRunId body).EachStatement
      (EffectsOf (some (triggerRef, thinkRunId))) := by
  refine .embed (fun s lock writes w hw => ?_) body
  obtain ⟨original, -, rfl⟩ := mem_map.mp hw
  exact ⟨_, rfl, rfl⟩

theorem ofCaller_effects (body : OtherTx E R ε) :
    (ofCaller body).EachStatement (EffectsOf none) := by
  refine .embed (fun s lock writes w hw => ?_) body
  obtain ⟨original, -, rfl⟩ := mem_map.mp hw
  exact ⟨_, rfl, rfl⟩

theorem wp_ofCaller (body : OtherTx E R ε) :
    (applyProtocol regionLockKey E R ε).Preserves start OwnClaims (ofCaller body) :=
  fun ho => wp_mono (wp_effectsOf (ofCaller_effects body) ho (mayAffect_none _))
    fun _ _ _ => And.left

theorem acquireRegionLock_effects (tenantId : Nat) (entities : List (String × Nat)) :
    (acquireRegionLock regionLockKey tenantId entities : ApplyTx E R ε Unit).EachStatement
      (EffectsOf none) :=
  .readLocking fun _ _ hw => absurd hw not_mem_nil

theorem wp_acquireRegionLock (tenantId : Nat) (entities : List (String × Nat)) :
    (applyProtocol regionLockKey E R ε).Preserves start OwnClaims
      (acquireRegionLock regionLockKey tenantId entities) :=
  fun ho => wp_mono (wp_effectsOf (acquireRegionLock_effects tenantId entities) ho
    (mayAffect_none _)) fun _ _ _ => And.left

def Trail.claimed (trail : Trail (Write E) (Lock R)) (triggerId : Nat) (row : AppliedRow) :
    Trail (Write E) (Lock R) :=
  trail.extend (some (.applied triggerId)) [.claim triggerId row]

section

variable {triggerId : Nat} {row : AppliedRow}

theorem claims_claimed (other : Nat) :
    Claims (Trail.claimed trail triggerId row) other ↔ Claims trail other ∨ other = triggerId := by
  simp [Claims, Trail.claimed, Trail.extend, exists_or]

theorem affects_claimed (other run : Nat) :
    Affects (Trail.claimed trail triggerId row) other run ↔ Affects trail other run := by
  simp [Affects, Trail.claimed, Trail.extend]

/-- A trigger that the transaction does not see is claimed neither in the ledger
nor by itself. -/
theorem unclaimed_of_view (ha : (viewOf db trail.writes).applied.get triggerId = none) :
    db.applied.get triggerId = none ∧ ¬ Claims trail triggerId := by
  have hn : ((viewOf db trail.writes).applied.get triggerId).isSome ↔ _ := isSome_applied_viewOf
  rw [ha] at hn
  simpa [Claims] using hn

theorem OwnClaims.claim (hw : OwnClaims db trail)
    (ha : (viewOf db trail.writes).applied.get triggerId = none) :
    OwnClaims db (Trail.claimed trail triggerId row) := by
  obtain ⟨hl, -⟩ := unclaimed_of_view ha
  constructor
  · intro other hc
    rcases (claims_claimed other).mp hc with ho | rfl
    · exact mem_append_right _ (hw.locked other ho)
    · exact mem_append_left _ (mem_singleton_self _)
  · intro other hc
    rcases (claims_claimed other).mp hc with ho | rfl
    · exact hw.absent other ho
    · exact hl
  · intro other outcome hm
    rcases mem_append.mp hm with ho | hn
    · exact (claims_claimed other).mpr (.inl (hw.finished other outcome ho))
    · cases mem_singleton.mp hn
  · intro other run haf
    exact (claims_claimed other).mpr
      (.inl (hw.dominated other run ((affects_claimed other run).mp haf)))
  · intro other run rival hr hrv
    exact hw.single other run rival ((affects_claimed other run).mp hr)
      ((affects_claimed other rival).mp hrv)

theorem mayAffect_claimed (run : Nat) (hw : OwnClaims db trail)
    (ha : (viewOf db trail.writes).applied.get triggerId = none) :
    MayAffect (some (triggerId, run)) (Trail.claimed trail triggerId row) := by
  rintro _ _ ⟨⟩
  refine ⟨(claims_claimed triggerId).mpr (.inr rfl), fun other haf => ?_⟩
  have ho := hw.dominated triggerId other ((affects_claimed triggerId other).mp haf)
  exact absurd ho (unclaimed_of_view ha).2

end

theorem wp_insertApplied (run : Nat) (ho : OwnClaims db trail) :
    (applyProtocol regionLockKey E R ε).wp start
      (fun inserted later trail => OwnClaims later trail ∧
        (inserted = true → MayAffect (some (attempt.header.triggerRef, run)) trail))
      (insertApplied attempt) db trail := by
  refine wp_query fun t hr _ => ?_
  have hs := ho.stable hr
  cases hsn : ((viewOf t trail.writes).applied.get attempt.header.triggerRef).isSome with
  | true =>
    have hv : (((applySchema regionLockKey E R ε).view t trail.writes).applied.get
        attempt.header.triggerRef).isSome := hsn
    simp only [hv, if_true, Trail.extend_nothing]
    exact ⟨hs, hs, fun hf => absurd hf Bool.false_ne_true⟩
  | false =>
    have hv : (((applySchema regionLockKey E R ε).view t trail.writes).applied.get
        attempt.header.triggerRef).isSome = false := hsn
    have ha : (viewOf t trail.writes).applied.get attempt.header.triggerRef = none :=
      Option.not_isSome_iff_eq_none.mp (ne_true_of_eq_false hsn)
    simp only [hv, Bool.false_eq_true, if_false]
    exact ⟨hs.claim ha, hs.claim ha, fun _ => mayAffect_claimed run hs ha⟩

theorem wp_prepareApplyTransaction (run : Nat) (ho : OwnClaims db trail) :
    (applyProtocol regionLockKey E R ε).wp start
      (fun prepared later trail => OwnClaims later trail ∧
        (prepared = .ok () → MayAffect (some (attempt.header.triggerRef, run)) trail))
      (prepareApplyTransaction regionLockKey attempt) db trail := by
  refine wp_seq (wp_acquireRegionLock _ _ ho) fun _ _ _ ho => ?_
  refine wp_seq (wp_when (fun _ => wp_acquireRegionLock _ _ ho) fun _ => ho) fun _ _ _ ho => ?_
  refine wp_seq (wp_insertApplied run ho) fun inserted _ _ hi => ?_
  cases inserted with
  | true => exact ⟨hi.1, fun _ => hi.2 rfl⟩
  | false =>
    refine wp_seq (R := fun _ => OwnClaims) (wp_read hi.1 fun t _ _ ho => ho) fun prior _ _ ho => ?_
    exact ⟨ho, fun hok => by cases hok⟩

section

variable {triggerId : Nat} {lock : Option (Lock R)} {outcome : ApplyOutcome}

theorem claims_finished (other : Nat) :
    Claims (trail.extend lock [.outcome triggerId outcome]) other ↔ Claims trail other := by
  simp [Claims, Trail.extend]

theorem affects_finished (other run : Nat) :
    Affects (trail.extend lock [.outcome triggerId outcome]) other run ↔
      Affects trail other run := by
  simp [Affects, Trail.extend]

theorem OwnClaims.finish (hw : OwnClaims db trail) (hcl : Claims trail triggerId) :
    OwnClaims db (trail.extend lock [.outcome triggerId outcome]) := by
  constructor
  · exact fun other hc =>
      mem_append_right _ (hw.locked other ((claims_finished other).mp hc))
  · exact fun other hc => hw.absent other ((claims_finished other).mp hc)
  · intro other r hm
    rw [claims_finished]
    rcases mem_append.mp hm with ho | hn
    · exact hw.finished other r ho
    · cases mem_singleton.mp hn
      exact hcl
  · exact fun other run ha =>
      (claims_finished other).mpr (hw.dominated other run ((affects_finished other run).mp ha))
  · exact fun other run rival hr hrv => hw.single other run rival
      ((affects_finished other run).mp hr) ((affects_finished other rival).mp hrv)

theorem MayAffect.finish (hm : MayAffect (some (triggerId, run)) trail) :
    MayAffect (some (triggerId, run)) (trail.extend lock [.outcome triggerId outcome]) := by
  intro other rival hor
  obtain ⟨hc, ho⟩ := hm other rival hor
  exact ⟨(claims_finished other).mpr hc, fun found ha =>
    ho found ((affects_finished other found).mp ha)⟩

end

theorem wp_markSuccess (ho : OwnClaims db trail) (hm : MayAffect (some (triggerId, run)) trail) :
    (applyProtocol regionLockKey E R ε).wp start
      (fun _ later trail => OwnClaims later trail ∧ MayAffect (some (triggerId, run)) trail)
      (markSuccess triggerId) db trail := by
  refine wp_query fun t hr _ => ?_
  have hn : OwnClaims _ (trail.extend (some (.applied triggerId)) [.outcome triggerId .success]) :=
    (ho.stable hr).finish (hm triggerId run rfl).1
  exact ⟨hn, hn, hm.finish⟩

theorem wp_ofAttempt (body : OtherTx E R ε) (ho : OwnClaims db trail)
    (hm : MayAffect (some (triggerId, run)) trail) : (applyProtocol regionLockKey E R ε).wp start
      (fun _ later trail => OwnClaims later trail ∧ MayAffect (some (triggerId, run)) trail)
      (ofAttempt triggerId run body) db trail :=
  wp_effectsOf (ofAttempt_effects triggerId run body) ho hm

theorem wp_applyDiff (run : Nat) : (applyProtocol regionLockKey E R ε).Preserves start OwnClaims
      (applyDiff regionLockKey attempt run) := by
  intro db trail ho
  refine wp_seq (wp_prepareApplyTransaction run ho) fun prepared _ _ hp => ?_
  cases prepared with
  | error error => exact hp.1
  | ok _ =>
    refine wp_seq (wp_ofAttempt (attempt.ops run) hp.1 (hp.2 rfl)) fun _ _ _ hop => ?_
    refine wp_seq (wp_markSuccess hop.1 hop.2) fun _ _ _ hm => ?_
    refine wp_seq (wp_ofAttempt (attempt.outcomeEvents run) hm.1 hm.2) fun _ _ _ he => ?_
    exact he.1

theorem wp_thinkRun : (applyProtocol regionLockKey E R ε).Preserves start OwnClaims
      (thinkRun regionLockKey attempt) := by
  intro db trail ho
  refine wp_seq (R := fun _ => OwnClaims) (wp_newId fun t id hr _ _ _ =>
    ⟨(ho.stable hr).mint id, (ho.stable hr).mint id⟩) fun run _ _ ho => ?_
  refine wp_seq (wp_ofCaller (attempt.prologue run) ho) fun _ _ _ ho => ?_
  refine wp_seq (wp_applyDiff run ho) fun applied _ _ ho => ?_
  cases applied with
  | error error => exact wp_ofCaller (attempt.skipped run) ho
  | ok _ => exact wp_ofCaller (attempt.epilogue run) ho

theorem applyProtocol_sound : (applyProtocol regionLockKey E R ε).Sound := by
  intro attempts db hg
  refine wp_mono (wp_forEach (I := OwnClaims)
    ((applyProtocol regionLockKey E R ε).own_begin hg) fun attempt _ t later ho => ?_)
    fun _ _ _ _ => trivial
  exact wp_thinkRun ho

variable {supply : Nat}

theorem coherent_of_reach [DecidableEq R]
    (hr : Reach (step (applySchema regionLockKey E R ε)) anyStep
      ⟨{ applied := ledger }, supply, ∅⟩ config) :
    (applyProtocol regionLockKey E R ε).Coherent config := by
  have hs : AppliedOnce ({ applied := ledger } : LedgerDb E) := by
    constructor <;> simp [Committed]
  have hc : (applyProtocol regionLockKey E R ε).CommitsGood anyStep :=
    fun _ _ _ _ _ hg ho => hg.commit ho
  exact Protocol.coherent_of_reach applyProtocol_sound hc hs (fun _ _ => trivial) hr

def afterClaim (attempt : Attempt E R ε) (thinkRunId : Nat) :
    Bool → ApplyTx E R ε (Except AlreadyAppliedError Unit)
  | false => do
    let prior ← checkAlreadyApplied attempt.header.triggerRef
    return .error
      { triggerId := attempt.header.triggerRef
        priorOutcome := prior.elim "unknown" ApplyOutcome.text }
  | true => do
    ofAttempt attempt.header.triggerRef thinkRunId (attempt.ops thinkRunId)
    markSuccess attempt.header.triggerRef
    ofAttempt attempt.header.triggerRef thinkRunId (attempt.outcomeEvents thinkRunId)
    return .ok ()

theorem applyDiff_eq (regionLockKey : Nat → List (String × Nat) → Int × Int)
    (attempt : Attempt E R ε) (run : Nat) : applyDiff regionLockKey attempt run =
      (acquireRegionLock regionLockKey attempt.header.tenantId
        [("tenant_model_write", attempt.header.tenantId)]).bind fun _ =>
          (Tx.when (!attempt.header.entities.isEmpty)
            (acquireRegionLock regionLockKey attempt.header.tenantId
              attempt.header.entities)).bind fun _ =>
            (insertApplied attempt).bind (afterClaim attempt run) := by
  unfold applyDiff prepareApplyTransaction
  simp only [bind_eq_bind, bind_assoc]
  congr 1
  funext _
  congr 1
  funext _
  congr 1
  funext inserted
  cases inserted with
  | true => rfl
  | false => rfl

section

variable [DecidableEq R] {config next : Config (LedgerDb E) (Write E) (Lock R) ε} {sid run : Nat}
  {session : Session (LedgerDb E) (Write E) (Lock R) ε}
  {rest : Except AlreadyAppliedError Unit → ApplyTx E R ε Unit}

/-- The session sends the INSERT of the attempt next; `rest` is what its caller
does with the result of `apply_diff`. -/
def AtClaim (session : Session (LedgerDb E) (Write E) (Lock R) ε) (attempt : Attempt E R ε)
    (run : Nat) (rest : Except AlreadyAppliedError Unit → ApplyTx E R ε Unit) : Prop :=
  session.rest = ((insertApplied attempt).bind (afterClaim attempt run)).bind rest

section

variable (hg : config.sessions.get sid = some session) (hc : AtClaim session attempt run rest)

include hg hc

theorem claim_refused (hs : ((viewOf config.committed session.trail.writes).applied.get
      attempt.header.triggerRef).isSome) :
    config.step (applySchema regionLockKey E R ε) (.statement sid) = some { config with
        sessions := config.sessions.put sid
          { session with rest := (afterClaim attempt run false).bind rest } } := by
  have hv : (((applySchema regionLockKey E R ε).view config.committed
      session.trail.writes).applied.get attempt.header.triggerRef).isSome := hs
  unfold AtClaim at hc
  simp only [step, hg, Option.bind_some, sendStatement, hc,
    insertApplied, Tx.query, Tx.bind, hv, if_true, Trail.extend_nothing]
  rfl

variable (ha : (viewOf config.committed session.trail.writes).applied.get
  attempt.header.triggerRef = none)

include ha

theorem claim_waits (hh : config.heldByOther sid (some (.applied attempt.header.triggerRef))) :
    config.step (applySchema regionLockKey E R ε) (.statement sid) = none := by
  have hv : (((applySchema regionLockKey E R ε).view config.committed
      session.trail.writes).applied.get attempt.header.triggerRef).isSome = false :=
    congrArg Option.isSome ha
  unfold AtClaim at hc
  simp [step, hg, Option.bind_some, sendStatement, hc,
    insertApplied, Tx.query, Tx.bind, hv, Bool.false_eq_true, hh]

theorem claim_taken (hf : config.heldByOther sid (some (.applied attempt.header.triggerRef)) = false) :
    config.step (applySchema regionLockKey E R ε) (.statement sid) = some { config with
        sessions := config.sessions.put sid { session with
          trail := Trail.claimed session.trail attempt.header.triggerRef attempt.pendingRow
          rest := (afterClaim attempt run true).bind rest } } := by
  have hv : (((applySchema regionLockKey E R ε).view config.committed
      session.trail.writes).applied.get attempt.header.triggerRef).isSome = false :=
    congrArg Option.isSome ha
  unfold AtClaim at hc
  simp only [step, hg, Option.bind_some, sendStatement, hc,
    insertApplied, Tx.query, Tx.bind, hv, Bool.false_eq_true, if_false, hf]
  rfl

end

/-- After an INSERT that found the trigger, `apply_diff` writes nothing more and
raises AlreadyAppliedError. -/
theorem already_applied (hg : config.sessions.get sid = some session)
    (ht : session.rest = (afterClaim attempt run false).bind rest) :
    ∃ error : AlreadyAppliedError, error.triggerId = attempt.header.triggerRef ∧
      config.step (applySchema regionLockKey E R ε) (.statement sid) = some { config with
          sessions := config.sessions.put sid { session with rest := rest (.error error) } } := by
  refine ⟨⟨attempt.header.triggerRef, (((viewOf config.committed session.trail.writes).applied.get
    attempt.header.triggerRef).map AppliedRow.outcome).elim "unknown" ApplyOutcome.text⟩, rfl, ?_⟩
  simp only [step, hg, Option.bind_some, sendStatement, ht, afterClaim,
    checkAlreadyApplied, bind_eq_bind, Tx.read, Tx.query, Tx.bind, heldByOther,
    Bool.false_eq_true, if_false, Trail.extend_nothing]
  rfl

end

variable {after : LedgerDb E} {left : Nat} {v : Unit}

theorem ledger_of_effects (hb : body.EachStatement (EffectsOf origin))
    (hr : Tx.Returns apply body db supply v after left) :
    after.applied = db.applied := by
  refine hb.of_returns (P := fun s => s.applied = db.applied) ?_ rfl hr
  intro s lock writes hs he
  rw [← hs]
  clear hr hb hs
  induction writes generalizing s with
  | nil => rfl
  | cons w rest ih =>
    obtain ⟨effect, rfl, -⟩ := he w (.head _)
    exact ih (s.apply (.effect effect)) fun other ho =>
      he other (.tail _ ho)

theorem returns_acquireRegionLock :
    Tx.Returns apply (acquireRegionLock regionLockKey tenantId entities : ApplyTx E R ε Unit)
      db supply v after left ↔ db = after ∧ supply = left := by
  unfold acquireRegionLock
  simp

theorem returns_insertApplied (hab : db.applied.get attempt.header.triggerRef = none)
    (hr : Tx.Returns apply (insertApplied attempt : ApplyTx E R ε Bool) db supply
      inserted after left) : inserted ∧
      after = db.apply (.claim attempt.header.triggerRef attempt.pendingRow) := by
  obtain ⟨writes, ha, rfl, -⟩ := returns_query.mp hr
  rw [hab] at ha
  cases ha
  exact ⟨rfl, rfl⟩

/-- An application of a trigger that is not in the ledger, when it returns, leaves
it there as a success. -/
theorem success_of_returns (hab : db.applied.get attempt.header.triggerRef = none)
    (hr : Tx.Returns apply
      (applyDiff regionLockKey attempt run : ApplyTx E R ε _) db supply r after left) :
    r = .ok () ∧ ∃ row, after.applied.get attempt.header.triggerRef = some row ∧
      row.outcome = .success := by
  rw [applyDiff_eq] at hr
  obtain ⟨_, _, _, hl, hr⟩ := hr.parts
  obtain ⟨rfl, -⟩ := returns_acquireRegionLock.mp hl
  obtain ⟨_, unlocked, _, hen, hr⟩ := hr.parts
  obtain rfl : db = unlocked := by
    rcases returns_when.mp hen with ⟨-, hl⟩ | ⟨-, rfl, -⟩
    · exact (returns_acquireRegionLock.mp hl).1
    · rfl
  obtain ⟨inserted, _, _, hi, hr⟩ := hr.parts
  obtain ⟨rfl, rfl⟩ := returns_insertApplied hab hi
  obtain ⟨_, operated, _, ho, hr⟩ := hr.parts
  obtain ⟨_, marked, _, hm, hr⟩ := hr.parts
  obtain ⟨_, emitted, _, he, hr⟩ := hr.parts
  obtain ⟨rfl, rfl, -⟩ := hr.ended
  obtain ⟨_, ha, rfl, -⟩ := returns_query.mp hm
  cases ha
  refine ⟨rfl, { attempt.pendingRow with outcome := .success }, ?_, rfl⟩
  rw [ledger_of_effects (ofAttempt_effects _ _ _) he]
  simp [foldl_cons, foldl_nil, apply, get_update,
    ledger_of_effects (ofAttempt_effects _ _ _) ho, get_put_self, Option.map_some]

theorem thinkRun_succeeds (ha : db.applied.get attempt.header.triggerRef = none)
    (hrt : Tx.Returns apply
      (thinkRun regionLockKey attempt : ApplyTx E R ε _) db supply v after left) :
    ∃ row, after.applied.get attempt.header.triggerRef = some row ∧ row.outcome = .success := by
  unfold thinkRun at hrt
  simp only [bind_eq_bind, returns_newId_bind] at hrt
  obtain ⟨_, prepared, _, hp, hrt⟩ := hrt.parts
  obtain ⟨r, applied, _, hap, hrt⟩ := hrt.parts
  rw [← ledger_of_effects (ofCaller_effects _) hp] at ha
  obtain ⟨rfl, hr⟩ := success_of_returns ha hap
  rw [ledger_of_effects (ofCaller_effects _) hrt]
  exact hr

/-- What a configuration owes to the triggers: see `exactly_once`. -/
structure ExactlyOnce [DecidableEq R] (regionLockKey : Nat → List (String × Nat) → Int × Int)
    (config : Config (LedgerDb E) (Write E) (Lock R) ε) : Prop where
  /-- The committed effects of a trigger are those of one run. -/
  committed : AppliedOnce config.committed
  /-- Every effect comes after the claim of its trigger. -/
  dominated : ∀ sid session triggerId run, config.sessions.get sid = some session →
    Affects session.trail triggerId run → Claims session.trail triggerId
  /-- A claim excludes every other one, committed or open. -/
  exclusive : ∀ sid session triggerId, config.sessions.get sid = some session →
    Claims session.trail triggerId → config.committed.applied.get triggerId = none ∧
      ∀ other rival, config.sessions.get other = some rival → Claims rival.trail triggerId →
        other = sid
  /-- Another attempt waits for an open claim at its INSERT. -/
  waits : ∀ sid session attempt run rest other rival, config.sessions.get sid = some session →
    AtClaim session attempt run rest → config.sessions.get other = some rival → other ≠ sid →
      Claims rival.trail attempt.header.triggerRef →
        config.step (applySchema regionLockKey E R ε) (.statement sid) = none
  /-- Another attempt that sees the trigger applied inserts nothing, and goes on to
  raise AlreadyAppliedError. -/
  refused : ∀ sid session attempt run rest, config.sessions.get sid = some session →
    AtClaim session attempt run rest →
      (config.committed.applied.get attempt.header.triggerRef).isSome ∨
        Claims session.trail attempt.header.triggerRef →
      config.step (applySchema regionLockKey E R ε) (.statement sid) = some { config with
          sessions := config.sessions.put sid
            { session with rest := (afterClaim attempt run false).bind rest } }
  raises : ∀ sid session attempt run rest, config.sessions.get sid = some session →
    session.rest = (afterClaim attempt run false).bind rest →
      ∃ error : AlreadyAppliedError, error.triggerId = attempt.header.triggerRef ∧
        config.step (applySchema regionLockKey E R ε) (.statement sid) = some { config with
            sessions := config.sessions.put sid { session with rest := rest (.error error) } }
  /-- A rollback changes no table, and the next attempt in line makes the claim. -/
  freed : ∀ sid session triggerId next, config.sessions.get sid = some session →
    Claims session.trail triggerId →
      config.step (applySchema regionLockKey E R ε) (.rollback sid) = some next →
        next.committed = config.committed ∧
          ∀ other rival attempt run rest, next.sessions.get other = some rival →
            AtClaim rival attempt run rest → attempt.header.triggerRef = triggerId →
              next.step (applySchema regionLockKey E R ε) (.statement other) =
                some { next with
                  sessions := next.sessions.put other { rival with
                    trail := Trail.claimed rival.trail triggerId attempt.pendingRow
                    rest := (afterClaim attempt run true).bind rest } }
  /-- An attempt whose statements succeed can apply a trigger that is not applied. -/
  retried : ∀ (attempt : Attempt E R ε) after left, config.sessions = ∅ →
    config.committed.applied.get attempt.header.triggerRef = none →
      Tx.Returns apply ((applySchema regionLockKey E R ε).program [attempt])
        config.committed config.supply () after left →
        Reach (step (applySchema regionLockKey E R ε)) anyStep config ⟨after, left, ∅⟩ ∧
          ∃ row, after.applied.get attempt.header.triggerRef = some row ∧ row.outcome = .success

/-- From any ledger, in every configuration that transactions reach in any
interleaving, with crashes and rollbacks at any statement. -/
theorem exactly_once [DecidableEq R] {ledger : Table Nat AppliedRow} {supply : Nat}
    {config : Config (LedgerDb E) (Write E) (Lock R) ε}
    (hreach : Reach (step (applySchema regionLockKey E R ε)) anyStep
      ⟨{ applied := ledger }, supply, ∅⟩ config) : ExactlyOnce regionLockKey config := by
  have hcoherent := coherent_of_reach hreach
  have hclash : ∀ sid session other rival triggerId, config.sessions.get sid = some session →
      config.sessions.get other = some rival → Claims session.trail triggerId →
        .applied triggerId ∈ rival.trail.locks → other = sid := by
    intro sid session other rival triggerId hsession hrival hclaims hlocked
    by_contra hne
    exact (hcoherent.disjoint sid other session rival hsession hrival (Ne.symm hne)).1 _
      ((hcoherent.own sid session hsession).locked triggerId hclaims) hlocked
  have hexclusive : ∀ sid session other rival triggerId, config.sessions.get sid = some session →
      config.sessions.get other = some rival → Claims session.trail triggerId →
        Claims rival.trail triggerId → other = sid :=
    fun sid session other rival triggerId hsession hrival hclaims hrivalClaims =>
      hclash sid session other rival triggerId hsession hrival hclaims
        ((hcoherent.own other rival hrival).locked triggerId hrivalClaims)
  -- what a session sees of a trigger that another one has claimed
  have hunseen : ∀ sid session other rival triggerId, config.sessions.get sid = some session →
      config.sessions.get other = some rival → other ≠ sid → Claims session.trail triggerId →
        (viewOf config.committed rival.trail.writes).applied.get triggerId = none := by
    intro sid session other rival triggerId hsession hrival hne hclaims
    rw [← Option.not_isSome_iff_eq_none, isSome_applied_viewOf,
      (hcoherent.own sid session hsession).absent triggerId hclaims]
    rintro (hledger | hrivalClaims)
    · cases hledger
    · exact hne (hexclusive sid session other rival triggerId hsession hrival hclaims hrivalClaims)
  refine
    { committed := hcoherent.good
      dominated := fun sid session triggerId run hsession =>
        (hcoherent.own sid session hsession).dominated triggerId run
      exclusive := ?_, waits := ?_, refused := ?_, raises := ?_, freed := ?_, retried := ?_ }
  · intro sid session triggerId hsession hclaims
    exact ⟨(hcoherent.own sid session hsession).absent triggerId hclaims,
      fun other rival hrival => hexclusive sid session other rival triggerId hsession hrival hclaims⟩
  · intro sid session attempt run rest other rival hsession hclaim hrival hne hclaims
    refine claim_waits hsession hclaim
      (hunseen other rival sid session _ hrival hsession (Ne.symm hne) hclaims) ?_
    rw [heldByOther, any_iff]
    have hlocked := (hcoherent.own other rival hrival).locked _ hclaims
    exact ⟨other, rival, hrival, by simp [hne, hlocked]⟩
  · intro sid session attempt run rest hsession hclaim hseen
    exact claim_refused hsession hclaim (isSome_applied_viewOf.mpr hseen)
  · exact fun sid session attempt run rest hsession hrest => already_applied hsession hrest
  · intro sid session triggerId next hsession hclaims hstep
    simp only [step, hsession, Option.map_some, Option.some.injEq] at hstep
    subst hstep
    refine ⟨rfl, ?_⟩
    rintro other rival attempt run rest hrival hclaim rfl
    have hkept : other ≠ sid ∧ config.sessions.get other = some rival := by
      rw [get_remove] at hrival
      split at hrival
      · cases hrival
      · next hne => exact ⟨hne, hrival⟩
    refine claim_taken hrival hclaim
      (hunseen sid session other rival _ hsession hkept.2 hkept.1 hclaims) ?_
    rw [heldByOther, Bool.eq_false_iff, ne_eq, any_iff]
    rintro ⟨holder, held, hholder, hlock⟩
    rw [get_remove] at hholder
    split at hholder
    · cases hholder
    · next hne =>
      simp only [Bool.and_eq_true, decide_eq_true_eq] at hlock
      exact hne (hclash sid session holder held _ hsession hholder hclaims hlock.2)
  · intro attempt after left hempty habsent hreturns
    obtain ⟨committed, remaining, sessions⟩ := config
    obtain rfl : sessions = ∅ := hempty
    refine ⟨reach_of_returns (applySchema regionLockKey E R ε) [attempt] committed after remaining
      left hreturns, ?_⟩
    obtain ⟨middle, _, hrun, hrest⟩ := returns_forEach_cons.mp hreturns
    obtain ⟨rfl, -⟩ := returns_forEach_nil.mp hrest
    exact thinkRun_succeeds habsent hrun

def oneWrite : Attempt Unit Unit Unit where
  now := 0
  header := { triggerRef := 7, tenantId := 0, diffHash := "", entities := [("model", 1)] }
  triggerKind := "manual"
  prologue := fun _ => Tx.done ()
  ops := fun _ => .query (fun _ => none) fun _ => .ok ([()], ())
  outcomeEvents := fun _ => Tx.done ()
  epilogue := fun _ => Tx.done ()
  skipped := fun _ => Tx.done ()

def oneKey (_ : Nat) (_ : List (String × Nat)) : Int × Int := (0, 0)

/-- The first session claims the trigger, writes and crashes; the second one, which
began before the crash, applies it. -/
def crashedAttempt : List (Action (List (Attempt Unit Unit Unit))) :=
  [.begin 1 [oneWrite], .statement 1, .statement 1, .statement 1, .statement 1, .statement 1,
    .begin 2 [oneWrite], .statement 2, .rollback 1, .statement 2, .statement 2, .statement 2,
    .statement 2, .statement 2, .commit 2]

theorem exactly_once_crashed : ∃ config : Config (LedgerDb Unit) (Write Unit) (Lock Unit) Unit,
    config.committed.effects.map Effect.attempt = [some (7, 1)] ∧ ExactlyOnce oneKey config := by
  have hrun : ∃ config : Config (LedgerDb Unit) (Write Unit) (Lock Unit) Unit,
      runAll (step (applySchema oneKey Unit Unit Unit)) ⟨{}, 0, ∅⟩ crashedAttempt =
        some config ∧ config.committed.effects.map Effect.attempt = [some (7, 1)] := ⟨_, rfl, rfl⟩
  obtain ⟨config, hrun, heffects⟩ := hrun
  exact ⟨config, heffects, exactly_once (reach_of_run hrun)⟩

end FyralisCore.Think.ApplyOnce
