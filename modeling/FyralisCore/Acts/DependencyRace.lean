import FyralisCore.Acts.Statements

/-! The cycle guard of `depends_on` under READ COMMITTED. The guard reads the
graph and the row is written by a later statement, with no lock on either
endpoint: two transactions can each insert one half of a cycle. A session
alone keeps its own rows acyclic over the graph it started from, and the
committed graph stays acyclic as long as no session commits a row whose cycle
is closed by rows that others committed since it began. -/
namespace FyralisCore.Acts

open Relational Relation Transaction ReadCommitted List Transition

def InsertsDependency (writes : List Write) (dependentId dependencyId : Nat) : Prop :=
  Write.insertDependsOn dependentId dependencyId ∈ writes

def Db.withDependencies (db : Db) (writes : List Write) (a b : Nat) : Prop :=
  db.DependsOn a b ∨ InsertsDependency writes a b

theorem apply_dependsOn_iff (db : Db) (w : Write) (a b : Nat) :
    (db.apply w).DependsOn a b ↔ db.DependsOn a b ∨ w = .insertDependsOn a b := by
  cases w with
  | insertDependsOn dependentId dependencyId =>
    simp only [Db.DependsOn, Db.apply, Table.get_insertNew, Write.insertDependsOn.injEq]
    by_cases he : (a, b) = (dependentId, dependencyId)
    · obtain ⟨rfl, rfl⟩ := Prod.mk.inj he
      simp [Option.eq_none_iff_forall_ne_some, Unique.forall_iff]
    · have hn : ¬ (dependentId = a ∧ dependencyId = b) := by
        rintro ⟨rfl, rfl⟩
        exact he rfl
      simp [he, hn]
  | _ => simp [Db.DependsOn, Db.apply]

theorem view_dependsOn_iff (db : Db) (ws : List Write) (a b : Nat) :
    (actSchema.view db ws).DependsOn a b ↔ db.withDependencies ws a b := by
  unfold Db.withDependencies InsertsDependency
  induction ws generalizing db with
  | nil => simp
  | cons w rest ih =>
    rw [Schema.view, foldl_cons, ← Schema.view, ih]
    simp only [actSchema, apply_dependsOn_iff, mem_cons]
    constructor
    · rintro ((ho | hn) | ht)
      · exact .inl ho
      · exact .inr (.inl hn.symm)
      · exact .inr (.inr ht)
    · rintro (ho | hn | ht)
      · exact .inl (.inl ho)
      · exact .inl (.inr hn.symm)
      · exact .inr ht

/-- Sessions rely on rows staying, and keep their own rows acyclic over the
graph they started from. -/
def dependencyProtocol : Protocol actSchema where
  Good db := Graph.Acyclic db.DependsOn
  Own start db trail :=
    (∀ a b, start.DependsOn a b → db.DependsOn a b) ∧
      Graph.Acyclic (start.withDependencies trail.writes)
  Rely _ db later := ∀ a b, db.DependsOn a b → later.DependsOn a b
  Unused _ _ := True
  rely_refl := fun _ _ _ _ => id
  rely_trans := fun hfirst hsecond a b hedge => hsecond a b (hfirst a b hedge)
  own_begin := by
    intro db hgood
    refine ⟨fun _ _ => id, hgood.mono ?_⟩
    rintro a b (hedge | hnone)
    · exact hedge
    · cases hnone
  own_stable := by
    rintro start db later trail ⟨hkept, hacyclic⟩ hrely -
    exact ⟨fun a b hedge => hrely a b (hkept a b hedge), hacyclic⟩
  rely_commit := by
    intro start other db mine theirs _ _ _ _ a b hedge
    exact (view_dependsOn_iff _ _ _ _).mpr (Or.inl hedge)
  unused_commit := fun _ _ _ => trivial

variable {start : Db}

def WritesNoDependency (_ : Db) (_ : Option RowRef) (writes : List Write) : Prop :=
  ∀ a b, ¬ InsertsDependency writes a b

theorem writesNoDependency_reads : AllowsReads WritesNoDependency where
  plain := fun _ _ _ hm => by cases hm
  lockGoal := fun _ _ _ _ hm => by cases hm
  lockCommitment := fun _ _ _ _ hm => by cases hm

variable {db : Db} {trail : Trail Write RowRef}

private theorem own_extend_neutral (hw : dependencyProtocol.Own start db trail)
    (hnt : ∀ a b, ¬ InsertsDependency ws a b) :
    dependencyProtocol.Own start db (trail.extend lock ws) := by
  refine ⟨hw.1, hw.2.mono ?_⟩
  rintro a b (he | hm)
  · exact .inl he
  · rcases mem_append.mp hm with ho | hn
    · exact .inr ho
    · exact absurd hn (hnt a b)

theorem wp_neutral (hb : body.EachStatement WritesNoDependency) :
    dependencyProtocol.Preserves start (dependencyProtocol.Own start) body := by
  intro db trail ho
  refine wp_of_eachStatement (I := dependencyProtocol.Own start) hb ?_ ?_ ?_ ho
  · exact fun s t trail hi hr hg => dependencyProtocol.own_stable hi hr hg
  · exact fun t trail lock ws hi _ hn =>
      ⟨own_extend_neutral hi hn, own_extend_neutral hi hn⟩
  · exact fun t trail id hi _ _ _ => ⟨hi, hi⟩

/-- What the guard has seen covers the session's own graph: the rows the
session started from and its own. -/
theorem wp_dependencyGuard (ho : dependencyProtocol.Own start db trail) :
    dependencyProtocol.wp start (fun _ db trail => dependencyProtocol.Own start db trail ∧
        ¬ ReflTransGen (start.withDependencies trail.writes) dependencyId dependentId)
      (raiseFirst (checkC6DependsOnAcyclic dependentId dependencyId)) db trail := by
  rw [raiseFirst, Tx.bind_eq_bind, wp_bind]
  unfold checkC6DependsOnAcyclic
  split
  · trivial
  · next hd =>
    refine wp_read ho fun t hr hg hs => ?_
    by_cases hc : dependentId ∈ (actSchema.view t trail.writes).dependencyClosure dependencyId
    · simp only [hc, decide_true, if_true]
      trivial
    · simp only [hc, decide_false, Bool.false_eq_true, if_false]
      refine ⟨hs, fun hp => hc ((Db.mem_dependencyClosure_iff _ _ _).mpr ?_)⟩
      have hl : ReflTransGen (actSchema.view t trail.writes).DependsOn dependencyId
          dependentId := by
        refine ReflTransGen.mono (fun a b he => (view_dependsOn_iff _ _ _ _).mpr ?_) _ _ hp
        exact he.imp_left (hs.1 a b)
      exact (reflTransGen_iff_eq_or_transGen.mp hl).resolve_left hd

/-- The row is written by a later statement than the guard's, but nothing the
others commit in between changes the session's own graph. -/
theorem wp_insertDependsOnEdge : dependencyProtocol.Preserves start (dependencyProtocol.Own start)
      (insertDependsOnEdge dependentId dependencyId) := by
  intro db trail hw
  rw [insertDependsOnEdge, Tx.bind_eq_bind, wp_bind]
  refine wp_mono (wp_dependencyGuard hw) ?_
  rintro _ t later ⟨how, hf⟩
  refine wp_query fun u hr hg => ?_
  have hs := dependencyProtocol.own_stable how hr hg
  have hwr : dependencyProtocol.Own start u
      (later.extend none [.insertDependsOn dependentId dependencyId]) := by
    refine ⟨hs.1, ((Graph.acyclic_withEdge_iff hs.2 dependentId dependencyId).mpr hf).mono ?_⟩
    rintro a b (he | hm)
    · exact .inl (.inl he)
    · rcases mem_append.mp hm with ho | hn
      · exact .inl (.inr ho)
      · cases mem_singleton.mp hn
        exact .inr ⟨rfl, rfl⟩
  split
  · next ws v ha =>
    split at ha
    · cases ha
      rw [Trail.extend_nothing]
      exact ⟨hs, hs⟩
    · obtain ⟨-, hp⟩ := (constrained_eq_ok_iff _ _ _).mp ha
      cases hp
      exact ⟨hwr, hwr⟩
  · rw [Trail.extend_nothing]
    exact hs

theorem writesNoDependency_single
    (ho : ∀ a b, w ≠ .insertDependsOn a b) : WritesNoDependency db lock [w] := by
  intro a b hm
  exact ho a b (mem_singleton.mp hm).symm

theorem emitStateChange_neutral (clock : Clock) (tenantId : Nat)
    (entityKind : EntityKind) (entityId : Nat) (fromState : Option String) (toState : String)
    (causeEventId : Option Nat) :
    (emitStateChange clock tenantId entityKind entityId fromState toState
      causeEventId).EachStatement WritesNoDependency :=
  emitStateChange_eachStatement writesNoDependency_reads
    (fun _ _ _ => writesNoDependency_single nofun) _ _ _ _ _ _ _

theorem transitionCommitment_neutral (clock : Clock) (commitmentId : Nat)
    (newState : CommitmentState) (a : TransitionArgs) :
    (transitionCommitment clock commitmentId newState a).EachStatement WritesNoDependency := by
  have hr := writesNoDependency_reads
  have hu : ∀ merged basis,
      (updateCommitmentState clock commitmentId newState merged basis).EachStatement
        WritesNoDependency := by
    intro merged basis
    refine .query (fun db ws v ha => ?_) fun db _ _ => hr.lockCommitment db commitmentId
    split at ha
    · cases ha
      exact writesNoDependency_single fun _ _ hs => Write.noConfusion hs
    · cases ha
  exact .bind (.readLocking fun db => hr.lockCommitment db commitmentId) fun _ =>
    .bind .orRaise fun _ => .bind .ofExcept fun _ =>
      .bind (requireActiveOwner_eachStatement hr _ _) fun _ => .bind .ensure fun _ =>
        .bind (.when (requireBlockedReason_eachStatement hr _)) fun _ =>
          .bind (hu _ _) fun _ =>
            .bind (.when (raiseFirst_eachStatement (checkC10_eachStatement hr _))) fun _ =>
              .bind (emitStateChange_neutral _ _ _ _ _ _ _) fun _ => .orRaise

private theorem wp_createCommitment_guarded (clock : Clock) (a : CommitmentCreate) :
    dependencyProtocol.Preserves start (dependencyProtocol.Own start) (createCommitment clock a)
      := by
  intro db trail ho
  have hr := writesNoDependency_reads
  refine wp_seq (wp_ofExcept fun input _ => ho) fun input s₀ t₀ ho => ?_
  refine wp_seq (wp_neutral (validateReferences_eachStatement hr input) ho) fun _ s₁ t₁ ho => ?_
  refine wp_seq (wp_neutral .newId ho) fun id s₂ t₂ ho => ?_
  refine wp_seq (wp_neutral (resolveEffectiveInitialState_eachStatement hr input) ho)
    fun effective s₃ t₃ ho => ?_
  have hi : (insertCommitment id (input.row clock effective)).EachStatement WritesNoDependency :=
    constrained_eachStatement hr fun _ => writesNoDependency_single nofun
  refine wp_seq (wp_neutral hi ho) fun _ s₄ t₄ ho => ?_
  refine wp_seq (wp_neutral (.forEach fun contributor =>
    insertContributor_eachStatement hr (fun _ _ _ _ => writesNoDependency_single nofun) _ _ _)
    ho) fun _ s₅ t₅ ho => ?_
  refine wp_seq (wp_neutral (.forEach fun item =>
    .bind (requireGoalCanAcceptCriticalPath_eachStatement hr _ _ _) fun _ =>
      insertContributesTo_eachStatement hr (fun _ _ _ _ => writesNoDependency_single nofun)
        _ _ _) ho) fun _ s₆ t₆ ho => ?_
  refine wp_seq (wp_forEach ho fun dependencyId _ _ _ hin => wp_insertDependsOnEdge hin)
    fun _ s₇ t₇ ho => ?_
  refine wp_seq (wp_neutral (.forEach fun decisionId =>
    insertConstrainedBy_eachStatement hr (fun _ _ _ => writesNoDependency_single nofun) _ _)
    ho) fun _ s₈ t₈ ho => ?_
  refine wp_seq (wp_neutral (emitStateChange_neutral _ _ _ _ _ _ _) ho) fun _ s₉ t₉ ho => ?_
  exact wp_neutral (.bind (.read hr.plain) fun _ => .bind .orRaise fun _ => .done) ho

private theorem wp_addEdge_guarded (a : EdgeArgs) :
    dependencyProtocol.Preserves start (dependencyProtocol.Own start) (addEdge a) := by
  intro db trail ho
  unfold addEdge
  split
  · split
    · exact wp_neutral (addContributesTo_eachStatement writesNoDependency_reads
        (fun _ _ _ _ => writesNoDependency_single nofun) _ _ _) ho
    · trivial
  · split
    · refine wp_seq (wp_insertDependsOnEdge ho) fun _ _ _ ho => ?_
      exact wp_neutral (.bind (.read writesNoDependency_reads.plain) fun _ =>
        .bind .orRaise fun _ => .done) ho
    · trivial
  · split
    · exact wp_neutral (addConstrainedBy_eachStatement writesNoDependency_reads
        (fun _ _ _ => writesNoDependency_single nofun) _ _) ho
    · trivial

theorem wp_run (call : ActCall) :
    dependencyProtocol.Preserves start (dependencyProtocol.Own start) call.run := by
  intro db trail ho
  cases call with
  | createGoal clock a =>
    exact wp_neutral ((createGoal_eachStatement writesNoDependency_reads
      (fun _ _ _ => writesNoDependency_single nofun)
      (fun _ _ _ => writesNoDependency_single nofun) clock a).bind fun _ => .done) ho
  | transitionGoal clock goalId newState causeEventId =>
    exact wp_neutral ((transitionGoal_eachStatement writesNoDependency_reads
      (fun _ _ _ _ _ => writesNoDependency_single nofun)
      (fun _ _ _ => writesNoDependency_single nofun) clock goalId newState causeEventId).bind
      fun _ => .done) ho
  | createCommitment clock a =>
    exact wp_seq (wp_createCommitment_guarded clock a ho) fun _ _ _ ho => ho
  | transitionCommitment clock commitmentId newState a =>
    exact wp_neutral ((transitionCommitment_neutral clock commitmentId newState a).bind
      fun _ => .done) ho
  | addEdge a =>
    exact wp_seq (wp_addEdge_guarded a ho) fun _ _ _ ho => ho

theorem dependencyProtocol_sound : dependencyProtocol.Sound := by
  intro calls db hg
  refine wp_mono (wp_forEach (I := dependencyProtocol.Own db)
    (dependencyProtocol.own_begin hg) ?_) fun _ _ _ _ => trivial
  exact fun call _ _ _ ho => wp_run call ho

/-- No row that others have committed since the session began lies on a path
from the dependency of one of the session's rows back to its dependent. -/
def RaceFree (start db : Db) (writes : List Write) : Prop :=
  ∀ dependentId dependencyId a b, InsertsDependency writes dependentId dependencyId →
    db.DependsOn a b → ¬ start.DependsOn a b →
    ¬ (ReflTransGen (db.withDependencies writes) dependencyId a ∧
      ReflTransGen (db.withDependencies writes) b dependentId)

/-- A session that commits while the graph is the one it started from races
with nobody. -/
theorem raceFree_of_unchanged
    (hs : ∀ a b, db.DependsOn a b → start.DependsOn a b) : RaceFree start db writes :=
  fun _ _ a b _ he hn _ => hn (hs a b he)

def CommitsRaceFree (config : Config Db Write RowRef ActError) : Action (List ActCall) → Prop
  | .commit sid => ∀ session, config.sessions.get sid = some session →
      RaceFree session.start config.committed session.trail.writes
  | _ => True

theorem commit_raceFree (hf : ∀ session, c.sessions.get sid = some session →
      RaceFree session.start c.committed session.trail.writes) :
    CommitsRaceFree c (.commit sid) :=
  hf

theorem acyclic_view_iff (ha : Graph.Acyclic db.DependsOn)
    (ho : dependencyProtocol.Own start db trail) :
    Graph.Acyclic (actSchema.view db trail.writes).DependsOn ↔ RaceFree start db trail.writes := by
  have hv : (actSchema.view db trail.writes).DependsOn = db.withDependencies trail.writes := by
    funext a b
    exact propext (view_dependsOn_iff _ _ _ _)
  rw [hv]
  exact Graph.acyclic_union_iff ho.1 ha ho.2

/-- In every run whose commits are free of races every committed graph is
acyclic; and a commit of any open session would keep it so exactly when it is
free of races. -/
theorem acyclic_of_raceFree {start : Db} {supply : Nat}
    {config : Config Db Write RowRef ActError} (hacyclic : Graph.Acyclic start.DependsOn)
    (hreach : Transition.Reach (Config.step actSchema) CommitsRaceFree ⟨start, supply, ∅⟩ config) :
    Graph.Acyclic config.committed.DependsOn ∧
      ∀ sid session, config.sessions.get sid = some session →
        (Graph.Acyclic (actSchema.view config.committed session.trail.writes).DependsOn ↔
          RaceFree session.start config.committed session.trail.writes) := by
  have hcommits : dependencyProtocol.CommitsGood CommitsRaceFree :=
    fun current sid session hget hallowed hgood hown =>
      (acyclic_view_iff hgood hown).mpr (hallowed session hget)
  have hcoherent := Protocol.coherent_of_reach dependencyProtocol_sound hcommits hacyclic
    (fun _ _ => trivial) hreach
  exact ⟨hcoherent.good, fun sid session hget =>
    acyclic_view_iff hcoherent.good (hcoherent.own sid session hget)⟩

/-! Two commitments of one tenant without edges. -/

def proposedCommitment (title : String) : CommitmentRow where
  tenantId := 1
  title
  createdAt := 0
  lastStateChangeAt := 0
  createdByEventId := 9

def twoCommitments : Db where
  tenants := [1]
  commitments := (Table.put ∅ 1 (proposedCommitment "Design")).put 2 (proposedCommitment "Build")

def dependsOnCall (dependentId dependencyId : Nat) : ActCall :=
  .addEdge
    { kind := .dependsOn
      dependentCommitmentId := some dependentId
      dependencyCommitmentId := some dependencyId }

theorem twoCommitments_acyclic : Graph.Acyclic twoCommitments.DependsOn := by
  intro node hc
  obtain ⟨_, he, _⟩ := TransGen.head'_iff.mp hc
  cases he

/-- Two transactions beside each other, of which the first has committed. -/
theorem acyclic_of_raceFree_beside :
    ∃ config, Transition.Reach (Config.step actSchema) CommitsRaceFree
      ⟨twoCommitments, 10, ∅⟩ config ∧ config.committed.DependsOn 1 2 ∧
        Graph.Acyclic config.committed.DependsOn ∧ ∃ session, config.sessions.get 1 = some session ∧
          ¬ RaceFree session.start config.committed session.trail.writes := by
  have hallowed : ∀ action ∈ [Action.begin 0 [dependsOnCall 1 2], .begin 1 [dependsOnCall 2 1],
      .statement 0, .statement 1, .statement 0, .statement 1, .statement 0, .statement 1], ∀ config,
      CommitsRaceFree config action := by
    intro action hmem config
    cases action with
    | commit sid => simp at hmem
    | _ => trivial
  have hstart : Transition.Reach (Config.step actSchema) CommitsRaceFree
      ⟨twoCommitments, 10, ∅⟩ ⟨twoCommitments, 10, ∅⟩ := .start
  have hopen := reach_of_runAll hstart hallowed rfl
  have hcommitted := hopen.next (a := .commit 0) (commit_raceFree fun session hget => by
    cases hget
    exact raceFree_of_unchanged fun _ _ => id) rfl
  obtain ⟨hacyclic, hcommits⟩ := acyclic_of_raceFree twoCommitments_acyclic hcommitted
  refine ⟨_, hcommitted, rfl, hacyclic, _, rfl, fun hfree => ?_⟩
  exact (hcommits 1 _ rfl).mpr hfree 1 (.head (b := 2) rfl (.single rfl))

/-- Two transactions, each adding one half: both guards run before either
commits. -/
theorem dependsOn_cycle_committed : ∃ config, Transition.Reach (Config.step actSchema) anyStep
      ⟨twoCommitments, 10, ∅⟩ config ∧ ¬ Graph.Acyclic config.committed.DependsOn := by
  have hrun : runAll (Config.step actSchema) ⟨twoCommitments, 10, ∅⟩
      [.begin 0 [dependsOnCall 1 2], .begin 1 [dependsOnCall 2 1], .statement 0, .statement 1,
        .statement 0, .statement 1, .statement 0, .statement 1, .commit 0, .commit 1] =
      some _ := rfl
  refine ⟨_, reach_of_run hrun, fun hacyclic => ?_⟩
  exact hacyclic 1 (.head (b := 2) rfl (.single rfl))

end FyralisCore.Acts
