import FyralisCore.Lib.Along
import FyralisCore.Relationships.Adjudication

/-! What a decision on a candidate is worth. `mark_decided` writes the row it has
locked, whatever its status has become since the caller read it. Where it never
meets a row that is decided, a decision stays, and no edge is made for a
candidate that was refused. -/
namespace FyralisCore.Relationships

open Relational Transaction ReadCommitted Option Discipline Config CandidateRow
open Models (ModelDb ModelTx)

def RelationWrite.candidate : RelationWrite → Option Nat
  | .edge _ _ => none
  | .retire candidateId _ => some candidateId
  | .decide candidateId _ _ => some candidateId

def RelationWrite.edgeFor : RelationWrite → Option Nat
  | .edge candidateId _ => some candidateId
  | .retire _ _ => none
  | .decide _ _ _ => none

def HasTenant (db : RelationDb) (candidateId tenantId : Nat) : Prop :=
  ∃ row, db.candidates.get candidateId = some row ∧ row.tenantId = tenantId

def Undecided (db : RelationDb) (candidateId : Nat) : Prop :=
  ∃ row, db.candidates.get candidateId = some row ∧ row.reviewStatus.isUndecided

section

variable {rules : RelationRules} {db : RelationDb} {ws : List RelationWrite}
  {candidateId tenantId : Nat}

theorem get_apply_of_ne (hn : w.candidate ≠ some candidateId) :
    (db.apply w).candidates.get candidateId = db.candidates.get candidateId := by
  cases w with
  | edge other change => rfl
  | retire other now =>
    have ho : candidateId ≠ other := fun h => hn (congrArg some h.symm)
    simp [RelationDb.apply, Table.get_update, ho, ↓reduceIte]
  | decide other now decision =>
    have ho : candidateId ≠ other := fun h => hn (congrArg some h.symm)
    simp [RelationDb.apply, Table.get_update, ho, ↓reduceIte]

theorem hasTenant_apply (w : RelationWrite) :
    HasTenant (db.apply w) candidateId tenantId ↔ HasTenant db candidateId tenantId := by
  unfold HasTenant
  cases w with
  | edge other change => rfl
  | retire other now | decide other now decision =>
    simp only [RelationDb.apply, Table.get_update]
    split
    · cases db.candidates.get candidateId with
      | none => simp
      | some row => simp [retired, decided]
    · rfl

theorem get_view_of_unwritten (hu : ∀ w ∈ ws, w.candidate ≠ some candidateId) :
    ((relationSchema rules).view db ws).candidates.get candidateId =
      db.candidates.get candidateId := by
  induction ws generalizing db with
  | nil => rfl
  | cons w rest ih =>
    obtain ⟨hw, ht⟩ := List.forall_mem_cons.mp hu
    rw [Schema.view, List.foldl_cons, ← Schema.view, ih ht]
    exact get_apply_of_ne hw

theorem hasTenant_view : HasTenant ((relationSchema rules).view db ws) candidateId tenantId ↔
      HasTenant db candidateId tenantId := by
  induction ws generalizing db with
  | nil => rfl
  | cons w rest ih =>
    rw [Schema.view, List.foldl_cons, ← Schema.view, ih]
    exact hasTenant_apply w

end

/-- No row has gone, and the decided ones are as they were. -/
structure RowsKept (s t : RelationDb) : Prop where
  tenants : ∀ candidateId tenantId, HasTenant s candidateId tenantId →
    HasTenant t candidateId tenantId
  decided : ∀ candidateId row, s.candidates.get candidateId = some row →
    row.reviewStatus.isUndecided = false → t.candidates.get candidateId = some row

theorem RowsKept.refl (s : RelationDb) : RowsKept s s :=
  ⟨fun _ _ h => h, fun _ _ h _ => h⟩

theorem RowsKept.trans (h1 : RowsKept s t) (h2 : RowsKept t u) : RowsKept s u where
  tenants candidateId tenantId ht :=
    h2.tenants _ _ (h1.tenants candidateId tenantId ht)
  decided candidateId row hr hdc :=
    h2.decided candidateId row (h1.decided candidateId row hr hdc) hdc

structure RowsHeld (trail : Trail RelationWrite Nat) (s t : RelationDb) : Prop where
  kept : RowsKept s t
  held : ∀ candidateId ∈ trail.locks,
    t.candidates.get candidateId = s.candidates.get candidateId

theorem Undecided.of_get (hu : Undecided s candidateId)
    (hs : t.candidates.get candidateId = s.candidates.get candidateId) :
    Undecided t candidateId := by
  unfold Undecided
  rwa [hs]

/-- A session has written undecided rows that it holds, and has decided every
candidate it has made an edge for, up to the pending one. -/
structure Going (pending : Option Nat) (s : RelationDb) (trail : Trail RelationWrite Nat) :
    Prop where
  written : ∀ write ∈ trail.writes, ∀ candidateId, write.candidate = some candidateId →
    candidateId ∈ trail.locks ∧ Undecided s candidateId
  edges : ∀ write ∈ trail.writes, ∀ candidateId, write.edgeFor = some candidateId →
    pending = some candidateId ∨ ∃ other ∈ trail.writes, other.candidate = some candidateId

/-- A row that the session has locked for its UPDATE and not yet written is
undecided. -/
def LocksUndecided (db : RelationDb) (trail : Trail RelationWrite Nat) : Prop :=
  ∀ candidateId ∈ trail.locks, (∀ write ∈ trail.writes, write.candidate ≠ some candidateId) →
    Undecided db candidateId

section

variable {rules : RelationRules} {pending : Option Nat} {s t : RelationDb}
  {trail : Trail RelationWrite Nat}

theorem going_empty (s : RelationDb) : Going none s {} :=
  ⟨fun _ hw => absurd hw List.not_mem_nil, fun _ hw => absurd hw List.not_mem_nil⟩

theorem Going.stable (hg : Going pending s trail) (hh : RowsHeld trail s t) :
    Going pending t trail where
  written w hw candidateId hc := by
    obtain ⟨hl, hu⟩ := hg.written w hw candidateId hc
    exact ⟨hl, hu.of_get (hh.held candidateId hl)⟩
  edges := hg.edges

theorem Going.view (hg : Going pending s trail) :
    RowsKept s ((relationSchema rules).view s trail.writes) where
  tenants _ _ ht := hasTenant_view.mpr ht
  decided candidateId row hr hd := by
    rw [get_view_of_unwritten, hr]
    intro w hw hc
    obtain ⟨other, ho, hu⟩ := (hg.written w hw candidateId hc).2
    rw [hr, Option.some.injEq] at ho
    rw [ho, hu] at hd
    cases hd

end

def decisionDiscipline (rules : RelationRules) : Discipline (relationSchema rules) where
  Good _ := True
  Rely := RowsHeld
  Final := Going none
  Unused _ _ := True
  Admits := LocksUndecided
  rely_refl _ s := ⟨.refl s, fun _ _ => rfl⟩
  rely_trans hfirst hsecond :=
    ⟨hfirst.kept.trans hsecond.kept,
      fun candidateId hlocked =>
        (hsecond.held candidateId hlocked).trans (hfirst.held candidateId hlocked)⟩
  final_stable _ hgoing hheld _ := hgoing.stable hheld
  good_commit _ _ := trivial
  rely_commit := by
    intro s mine theirs _ hgoing hdisjoint
    refine ⟨hgoing.view, fun candidateId hlocked => ?_⟩
    apply get_view_of_unwritten
    intro write hwrite hcandidate
    exact hdisjoint.1 candidateId hlocked (hgoing.written write hwrite candidateId hcandidate).1
  unused_commit _ _ _ _ := trivial

section Programs

variable {rules : RelationRules} {pending : Option Nat} {s t : RelationDb}
  {trail : Trail RelationWrite Nat} {candidateId tenantId now : Nat}

theorem Going.lock (hg : Going pending s trail) (lock : Option Nat) :
    Going pending s (trail.extend lock []) where
  written w hw other ho := by
    rw [Trail.extend, List.append_nil] at hw
    obtain ⟨hl, hu⟩ := hg.written w hw other ho
    exact ⟨List.mem_append_right _ hl, hu⟩
  edges w hw other ho := by
    rw [Trail.extend, List.append_nil] at hw ⊢
    exact hg.edges w hw other ho

theorem Going.write (hg : Going pending s trail) {lock : Option Nat} {w : RelationWrite}
    (hc : w.candidate = some candidateId) (he : w.edgeFor = none)
    (hl : candidateId ∈ lock.toList ++ trail.locks) (hu : Undecided s candidateId) :
    Going (pending.filter (· ≠ candidateId)) s (trail.extend lock [w]) where
  written other ho id hi := by
    rcases List.mem_append.mp ho with hpr | hn
    · obtain ⟨hh, hop⟩ := hg.written other hpr id hi
      exact ⟨List.mem_append_right _ hh, hop⟩
    · rw [List.mem_singleton.mp hn, hc, Option.some.injEq] at hi
      rw [← hi]
      exact ⟨hl, hu⟩
  edges other ho id hi := by
    rcases List.mem_append.mp ho with hpr | hn
    · rcases hg.edges other hpr id hi with hp | ⟨decision, hd, hf⟩
      · by_cases hs : id = candidateId
        · exact .inr ⟨w, List.mem_append_right _ (.head _), by rw [hc, hs]⟩
        · left
          rw [hp]
          simp [Option.filter, hs]
      · exact .inr ⟨decision, List.mem_append_left _ hd, hf⟩
    · rw [List.mem_singleton.mp hn, he] at hi
      cases hi

theorem Going.edge (hg : Going (some candidateId) s trail) (changes : List (ModelDb → ModelDb)) :
    Going (some candidateId) s (trail.extend none (changes.map (.edge candidateId))) where
  written w hw other ho := by
    rcases List.mem_append.mp hw with hpr | hn
    · exact hg.written w hpr other ho
    · obtain ⟨change, -, rfl⟩ := List.mem_map.mp hn
      cases ho
  edges w hw other ho := by
    rcases List.mem_append.mp hw with hpr | hn
    · rcases hg.edges w hpr other ho with hp | ⟨decision, hd, hf⟩
      · exact .inl hp
      · exact .inr ⟨decision, List.mem_append_left _ hd, hf⟩
    · obtain ⟨change, -, rfl⟩ := List.mem_map.mp hn
      exact .inl ho

theorem Going.pend (hg : Going none s trail) (candidateId : Nat) :
    Going (some candidateId) s trail where
  written := hg.written
  edges w hw other ho := by
    rcases hg.edges w hw other ho with hp | hd
    · cases hp
    · exact .inr hd

theorem wp_forCandidate (body : ModelTx α) (hg : Going (some candidateId) s trail) :
    (decisionDiscipline rules).wp (fun _ => Going (some candidateId))
      (forCandidate candidateId body).attempt s trail := by
  induction body generalizing s trail with
  | done v => exact hg
  | raise error => exact hg
  | statement lock ws next ih =>
    intro t hh _ _
    exact ih _ ((hg.stable hh).edge _)
  | mint next ih =>
    intro t id hh _ _ _
    have ht := hg.stable hh
    exact ih id ⟨ht.written, ht.edges⟩

/-- What `mark_decided` leaves: the candidate is not pending any more, unless the
row was not found or the status is none it may set. -/
def AfterDecision (pending : Option Nat) (candidateId tenantId : Nat) (decision : Decision) :
    Except RelationError (Option CandidateRow) → RelationDb → Trail RelationWrite Nat → Prop
  | .ok (some _), s, trail => Going (pending.filter (· ≠ candidateId)) s trail
  | .ok none, s, trail => Going pending s trail ∧ ¬ HasTenant s candidateId tenantId
  | .error _, _, _ => decision.reviewStatus = .candidate

def FoundRow (pending : Option Nat) (candidateId tenantId : Nat) :
    Except RelationError (Option CandidateRow) → RelationDb → Trail RelationWrite Nat → Prop
  | .ok (some _), s, trail => Going pending s trail ∧ candidateId ∈ trail.locks
  | .ok none, s, trail => Going pending s trail ∧ ¬ HasTenant s candidateId tenantId
  | .error _, _, _ => False

theorem wp_findRow (hopen : Going pending s trail) :
    (decisionDiscipline rules).wp (FoundRow pending candidateId tenantId)
      (Tx.attempt (Tx.readLocking
        (fun db => ((db.candidates.get candidateId).filter (·.tenantId = tenantId)).map
          fun _ => candidateId)
        fun db => (db.candidates.get candidateId).filter (·.tenantId = tenantId))) s trail := by
  apply wp_attempt_query
  · intro t hh _ _ ws found ha
    have hthen := hopen.stable hh
    simp only [Except.ok.injEq, Prod.mk.injEq] at ha
    obtain ⟨rfl, hf⟩ := ha
    rw [hf]
    cases found with
    | none =>
      refine ⟨hthen.lock _, fun ht => ?_⟩
      obtain ⟨row, hg, hs⟩ := hasTenant_view.mpr ht
      rw [hg] at hf
      simp [Option.filter, hs] at hf
    | some row => exact ⟨hthen.lock _, List.mem_append_left _ (by simp)⟩
  · intro t _ _ error ha
    cases ha

theorem wp_markDecided {decision : Decision} (hg : Going pending s trail) :
    (decisionDiscipline rules).wp (AfterDecision pending candidateId tenantId decision)
      (markDecided now candidateId tenantId decision).attempt s trail := by
  unfold markDecided
  by_cases hs : decision.reviewStatus = .candidate
  · simp only [hs, ne_eq, not_true_eq_false, decide_false]
    exact hs
  simp only [hs, ne_eq, not_false_eq_true, decide_true]
  apply wp_attempt_seq (wp_findRow hg)
  · intro found t later hf
    cases found with
    | none => exact hf
    | some row =>
      obtain ⟨hg, hl⟩ := hf
      apply wp_attempt_query
      · intro u hh _ had ws written ha
        have ht := hg.stable hh
        cases ha
        -- a row that this session has written already was undecided before
        have hun : Undecided u candidateId := by
          by_cases hu : ∀ w ∈ later.writes, w.candidate ≠ some candidateId
          · exact had candidateId hl hu
          · simp only [not_forall, not_not] at hu
            obtain ⟨w, hw, hc⟩ := hu
            exact (ht.written w hw candidateId hc).2
        exact ht.write rfl rfl (List.mem_append_right _ hl) hun
      · intro u _ _ error ha
        cases ha
  · intro error t later hf
    exact hf.elim

theorem Going.undecided_of_view (hg : Going pending s trail)
    (hr : ((relationSchema rules).view s trail.writes).candidates.get candidateId = some row)
    (hun : row.reviewStatus.isUndecided) : Undecided s candidateId := by
  by_cases hu : ∀ w ∈ trail.writes, w.candidate ≠ some candidateId
  · rw [get_view_of_unwritten hu] at hr
    exact ⟨row, hr, hun⟩
  · simp only [not_forall, not_not] at hu
    obtain ⟨w, hw, hc⟩ := hu
    exact (hg.written w hw candidateId hc).2

theorem wp_retireEach (candidateIds : List Nat) (hg : Going none s trail) :
    (decisionDiscipline rules).wp (fun _ => Going none) (retireEach tenantId now candidateIds)
      s trail := by
  induction candidateIds generalizing s trail with
  | nil => exact hg
  | cons candidateId rest ih =>
    apply Discipline.wp_seq (R := fun _ => Going none)
    · apply Discipline.wp_query
      intro t hh _ _ ws count ha
      have ht := hg.stable hh
      split at ha
      · next he =>
        cases ha
        obtain ⟨row, hr, hm⟩ := (any_eq_true _ _).mp he
        simp only [isExpired, decide_eq_true_eq] at hm
        rw [if_pos he]
        exact ht.write rfl rfl (by simp) (ht.undecided_of_view hr hm.2.1)
      · next hf =>
        cases ha
        rw [if_neg hf]
        exact ht.lock none
    · intro count t u hc
      exact wp_seq (ih hc) fun _ _ _ ho => ho

/-- Where the attempt to promote a candidate has failed, its edges may be there. -/
def AfterPromotion (candidateId : Nat) :
    Except RelationError (Option (List Nat)) → RelationDb → Trail RelationWrite Nat → Prop
  | .ok _ => Going none
  | .error _ => Going (some candidateId)

theorem filter_ne_self (candidateId : Nat) :
    (some candidateId).filter (fun other => decide (other ≠ candidateId)) = none := by
  simp [Option.filter]

theorem RowsHeld.hasTenant (hh : RowsHeld trail s t)
    (ht : HasTenant s candidateId tenantId) : HasTenant t candidateId tenantId :=
  hh.kept.tenants candidateId tenantId ht

theorem wp_promoteCandidate (hg : Going none s trail) (ht : HasTenant s candidateId a.tenantId) :
    (decisionDiscipline rules).wp (AfterPromotion candidateId)
      (promoteCandidate rules a now candidateId row).attempt s trail := by
  refine wp_attempt_bind.mpr (wp_attempt_ofExcept ?_)
  cases passesPromotionGate rules a row with
  | error error => exact hg.pend candidateId
  | ok passes =>
    simp only [wpAttempt]
    split
    · split
      · apply wp_attempt_seq (wp_frame
          (P := fun t => HasTenant t candidateId a.tenantId) RowsHeld.hasTenant ht
          (wp_forCandidate _ (hg.pend candidateId)))
        · rintro spec t u ⟨ht, hg⟩
          apply wp_attempt_seq (wp_frame
            (P := fun t => HasTenant t candidateId a.tenantId) RowsHeld.hasTenant ht
            (wp_forCandidate _ hg))
          · rintro edgeIds t u ⟨ht, hg⟩
            apply wp_attempt_seq (wp_frame
              (P := fun t => HasTenant t candidateId a.tenantId) RowsHeld.hasTenant ht
              (wp_markDecided hg))
            · rintro (_ | row) t u ⟨ht, hd⟩
              · exact absurd ht hd.2
              · rwa [AfterDecision, filter_ne_self] at hd
            · rintro error t u ⟨-, hs⟩
              cases hs
          · rintro error t u ⟨-, hg⟩
            exact hg
        · rintro error t u ⟨-, hg⟩
          exact hg
      · exact hg
    · exact hg

theorem wp_promoteEach (rows : List (Nat × CandidateRow))
    (report : PromotionReport) (hg : Going none s trail)
    (htn : ∀ e ∈ rows, HasTenant s e.1 a.tenantId) :
    (decisionDiscipline rules).wp (fun _ => Going none) (promoteEach rules a now report rows)
      s trail := by
  induction rows generalizing report s trail with
  | nil => exact hg
  | cons e rest ih =>
    obtain ⟨candidateId, row⟩ := e
    have hs : ∀ {trail : Trail RelationWrite Nat} {s t : RelationDb},
        (decisionDiscipline rules).Rely trail s t →
        (∀ e ∈ (candidateId, row) :: rest, HasTenant s e.1 a.tenantId) →
        ∀ e ∈ (candidateId, row) :: rest, HasTenant t e.1 a.tenantId :=
      fun hh ha e he => RowsHeld.hasTenant hh (ha e he)
    apply wp_seq (wp_frame hs htn (wp_promoteCandidate hg (htn _ (.head _))))
    rintro (error | outcome) t u ⟨htn, hat⟩
    · apply wp_seq (wp_frame hs htn (wp_of_attempt (wp_markDecided hat) fun _ _ _ hd => hd))
      rintro (_ | decided) t u ⟨htn, hd⟩
      · exact absurd (htn _ (.head _)) hd.2
      · rw [AfterDecision, filter_ne_self] at hd
        exact ih _ hd fun e he => htn e (.tail _ he)
    · have ht : ∀ e ∈ rest, HasTenant t e.1 a.tenantId :=
        fun e he => htn e (.tail _ he)
      cases outcome with
      | none => exact ih _ hat ht
      | some edgeIds => exact ih _ hat ht

theorem wp_promoteHighConfidenceEdges (a : PromotionArgs) (hg : Going none s trail) :
    (decisionDiscipline rules).wp (fun _ => Going none)
      (promoteHighConfidenceEdges rules a now) s trail := by
  apply Discipline.wp_seq (R := fun _ => Going none)
  · exact wp_seq (wp_read fun t hh _ _ => hg.stable hh)
      fun candidateIds _ _ ht => wp_retireEach candidateIds ht
  · intro retired t later hr
    refine wp_bind.mpr (wp_read fun u hh _ _ => ?_)
    apply wp_promoteEach _ _ (hr.stable hh)
    intro e he
    have hp := List.mem_of_mem_take he
    rw [List.mem_mergeSort, List.mem_filter] at hp
    obtain ⟨hm, hmt⟩ := hp
    simp only [isPromotable, decide_eq_true_eq] at hmt
    have hv : HasTenant ((relationSchema rules).view u later.writes) e.1 a.tenantId :=
      ⟨e.2, (Table.mem_rows_iff _ _ _).mp hm, hmt.1⟩
    exact hasTenant_view.mp hv

theorem wp_adjudicateCandidates (candidateIds : List Nat) (hg : Going none s trail) :
    (decisionDiscipline rules).wp (fun _ => Going none)
      (adjudicateCandidates rules now tenantId diff applied candidateIds) s trail := by
  induction candidateIds generalizing s trail with
  | nil => exact hg
  | cons candidateId rest ih =>
    refine wp_bind.mpr (wp_read fun t hh _ _ => ?_)
    have ht := hg.stable hh
    split
    · exact ih ht
    · refine wp_bind.mpr (wp_ofExcept fun adjudication _ => ?_)
      apply Discipline.wp_seq (R := fun _ => Going none)
      · apply wp_of_attempt (wp_markDecided ht)
        rintro (_ | row) t u hd
        · exact hd.1
        · exact hd
      · intro _ t u hd
        exact wp_seq (ih hd) fun _ _ _ ho => ho

theorem decisionDiscipline_sound (rules : RelationRules) : (decisionDiscipline rules).Sound := by
  intro call s _ _
  cases call with
  | promote now a =>
    exact wp_seq (wp_promoteHighConfidenceEdges a (going_empty s)) fun _ _ _ hp => hp
  | adjudicate now tenantId candidateIds diff applied =>
    exact wp_seq (wp_adjudicateCandidates candidateIds.eraseDups (going_empty s))
      fun _ _ _ ha => ha

end Programs

abbrev RelationConfig := Config RelationDb RelationWrite Nat RelationError

/-- An UPDATE of `mark_decided` that goes on to write the row it has locked finds
it undecided. -/
def FindsUndecided (config : RelationConfig) : Action RelationCall → Prop
  | .statement sid => ∀ session, config.sessions.get sid = some session →
      LocksUndecided config.committed session.trail
  | .begin _ _ => True
  | .commit _ => True
  | .rollback _ => True

def MakesEdge (config : RelationConfig) (action : Action RelationCall) (candidateId : Nat) : Prop :=
  ∃ sid session, action = .commit sid ∧ config.sessions.get sid = some session ∧
    ∃ write ∈ session.trail.writes, write.edgeFor = some candidateId

def Refused (config : RelationConfig) (candidateId : Nat) : Prop :=
  ∃ row, config.committed.candidates.get candidateId = some row ∧
    (row.reviewStatus = .rejected ∨ row.reviewStatus = .retired)

structure DecisionsStand (rules : RelationRules) (before after : RelationConfig) : Prop where
  refused : ∀ candidateId, Refused before candidateId → Refused after candidateId
  noEdge : ∀ candidateId, Refused before candidateId → ∀ action next,
    after.step (relationSchema rules) action = some next → ¬ MakesEdge after action candidateId
  accepted : ∀ candidateId row, before.committed.candidates.get candidateId = some row →
    row.reviewStatus = .accepted →
    ∃ row', after.committed.candidates.get candidateId = some row' ∧
      row'.reviewStatus = .accepted ∧ row'.acceptedEdgeIds = row.acceptedEdgeIds

section

variable {rules : RelationRules} {start : RelationDb} {supply : Nat}
  {before after config : RelationConfig}

theorem coherent_of_reach (hr : Transition.Reach (step (relationSchema rules)) FindsUndecided
      ⟨start, supply, ∅⟩ config) : (decisionDiscipline rules).Coherent config := by
  refine Discipline.coherent_of_reach (decisionDiscipline_sound rules) ?_ trivial
    (fun _ _ => trivial) hr
  intro config action ha
  cases action with
  | begin sid call => trivial
  | statement sid => exact ha
  | commit sid => trivial
  | rollback sid => trivial

theorem rowsKept_step (hc : (decisionDiscipline rules).Coherent before)
    (hst : before.step (relationSchema rules) action = some after) :
    RowsKept before.committed after.committed := by
  rcases committed_of_step hst with hs | ⟨sid, session, -, hg, hd, hcm⟩
  · rw [hs]
    exact .refl _
  · rw [hcm]
    exact (hc.final hg hd).view

theorem rowsKept_reach (hb : Transition.Reach (step (relationSchema rules)) FindsUndecided
      ⟨start, supply, ∅⟩ before)
    (ha : Transition.Reach (step (relationSchema rules)) FindsUndecided before after) :
    RowsKept before.committed after.committed := by
  apply ha.invariant_of (P := fun config => RowsKept before.committed config.committed)
    (Q := (decisionDiscipline rules).Coherent) _ (.refl _)
  · intro m action next hk hc _ hs
    exact hk.trans (rowsKept_step hc hs)
  · intro m hm
    exact coherent_of_reach (hb.trans hm)

theorem Refused.not_undecided (hrf : Refused config candidateId) :
    ¬ Undecided config.committed candidateId := by
  obtain ⟨row, hr, hs⟩ := hrf
  rintro ⟨other, ho, hu⟩
  rw [hr, Option.some.injEq] at ho
  subst ho
  rcases hs with hs | hs <;> simp [hs, CandidateStatus.isUndecided] at hu

theorem Refused.kept (hrf : Refused before candidateId)
    (hk : RowsKept before.committed after.committed) : Refused after candidateId := by
  obtain ⟨row, hr, hs⟩ := hrf
  refine ⟨row, hk.decided candidateId row hr ?_, hs⟩
  rcases hs with hs | hs <;> simp [hs, CandidateStatus.isUndecided]

/-- In every run in which `mark_decided` meets undecided rows only, a decision
stands from the commit that makes it. -/
theorem decisions_stand (rules : RelationRules)
    (hbefore : Transition.Reach (step (relationSchema rules)) FindsUndecided
      ⟨start, supply, ∅⟩ before)
    (hafter : Transition.Reach (step (relationSchema rules)) FindsUndecided before after) :
    DecisionsStand rules before after := by
  have hkept := rowsKept_reach hbefore hafter
  have hcoherent := coherent_of_reach (hbefore.trans hafter)
  refine ⟨fun candidateId hrefused => hrefused.kept hkept, ?_, ?_⟩
  · rintro candidateId hrefused action next hstep ⟨sid, session, rfl, hget, write, hwrite, hedge⟩
    obtain ⟨other, hother, hends⟩ := bind_eq_some_iff.mp hstep
    rw [hget, Option.some.injEq] at hother
    subst hother
    split at hends
    · next hdone =>
      have hgoing : Going none after.committed session.trail := hcoherent.final hget hdone
      rcases hgoing.edges write hwrite candidateId hedge with hpending | ⟨decision, hdecision, hfor⟩
      · cases hpending
      · exact (hrefused.kept hkept).not_undecided
          (hgoing.written decision hdecision candidateId hfor).2
    · cases hends
  · intro candidateId row hrow haccepted
    refine ⟨row, hkept.decided candidateId row hrow ?_, haccepted, rfl⟩
    rw [haccepted]
    rfl

end

private def bareRules : RelationRules where
  int _ := none
  uuid _ := none
  describe _ := ""

private def strongCandidate : CandidateRow where
  tenantId := 0
  candidateKind := .edge
  basis := .observed
  sourceModelId := some 1
  targetModelId := some 2
  edgeKind := some (.registry .explains)
  explanation := "one explains the other"
  confidenceScore := 9 / 10
  judgmentLeverageScore := 9 / 10
  createdAt := 0

private def oneCandidate : RelationDb where
  candidates := Table.put ∅ 0 strongCandidate

private def actionsOf (sid statements : Nat) (call : RelationCall) : List (Action RelationCall) :=
  .begin sid call :: List.replicate statements (.statement sid) ++ [.commit sid]

private def rejection : RelationCall := .adjudicate 0 0 [0] {} {}

private def atStart : RelationConfig := ⟨oneCandidate, 0, ∅⟩

private def statusOf (config : RelationConfig) : Option CandidateStatus :=
  (config.committed.candidates.get 0).map reviewStatus

private def hasEdge (config : RelationConfig) : Bool :=
  (config.committed.models.edges.get ⟨0, 1, 2, .registry .explains⟩).isSome

private theorem refused_of_status (hs : statusOf config = some .rejected) : Refused config 0 := by
  obtain ⟨row, hr, hrj⟩ := map_eq_some_iff.mp hs
  exact ⟨row, hr, .inl hrj⟩

private def findsUndecided (config : RelationConfig) : Action RelationCall → Bool
  | .statement sid => (config.sessions.get sid).all fun session =>
      session.trail.locks.all fun candidateId =>
        session.trail.writes.any (fun write => write.candidate = some candidateId) ||
          (config.committed.candidates.get candidateId).any fun row => row.reviewStatus.isUndecided
  | _ => true

private theorem findsUndecided_of_test (config : RelationConfig) (action : Action RelationCall)
    (ht : findsUndecided config action) : FindsUndecided config action := by
  cases action with
  | statement sid =>
    intro session hg candidateId hl hu
    simp only [findsUndecided, hg, all_some, List.all_eq_true] at ht
    rcases Bool.or_eq_true_iff.mp (ht candidateId hl) with hwr | hun
    · obtain ⟨w, hw, hc⟩ := List.any_eq_true.mp hwr
      exact absurd (by simpa using hc) (hu w hw)
    · exact (any_eq_true _ _).mp hun
  | begin sid call => trivial
  | commit sid => trivial
  | rollback sid => trivial

private def checkedFrom (config : RelationConfig) (actions : List (Action RelationCall)) :
    Option RelationConfig :=
  Transition.runChecked (step (relationSchema bareRules)) findsUndecided config actions

private theorem reach_of_checkedFrom (hr : checkedFrom config actions = some after) :
    Transition.Reach (step (relationSchema bareRules)) FindsUndecided config after :=
  Transition.reach_of_runChecked findsUndecided_of_test hr

private def promotion : RelationCall := .promote 0 { tenantId := 0 }

/-- A housekeeper who has begun before the rejection finds it, and one who accepts the candidate
first is not overruled. -/
theorem decisions_stand_beside : (∃ before after,
      checkedFrom atStart (.begin 1 promotion :: actionsOf 0 3 rejection) = some before ∧
      checkedFrom before [.statement 1, .statement 1, .commit 1] = some after ∧
      Refused before 0 ∧ Refused after 0) ∧
    ∃ before after,
      checkedFrom atStart (.begin 0 rejection :: actionsOf 1 9 promotion) = some before ∧
      checkedFrom before [.statement 0, .statement 0, .rollback 0] = some after ∧
      hasEdge before ∧ statusOf after = some .accepted := by
  constructor
  · have hruns : (checkedFrom atStart (.begin 1 promotion :: actionsOf 0 3 rejection)).any
        fun before => (checkedFrom before [.statement 1, .statement 1, .commit 1]).isSome &&
          statusOf before == some .rejected := by decide +kernel
    obtain ⟨before, hbefore, hcheck⟩ := (any_eq_true _ _).mp hruns
    obtain ⟨hsome, hstatus⟩ := Bool.and_eq_true_iff.mp hcheck
    obtain ⟨after, hafter⟩ := isSome_iff_exists.mp hsome
    have hrefused := refused_of_status (beq_iff_eq.mp hstatus)
    exact ⟨before, after, hbefore, hafter, hrefused,
      (decisions_stand bareRules (reach_of_checkedFrom hbefore)
        (reach_of_checkedFrom hafter)).refused 0 hrefused⟩
  · have hruns : (checkedFrom atStart (.begin 0 rejection :: actionsOf 1 9 promotion)).any
        fun before => (checkedFrom before [.statement 0, .statement 0, .rollback 0]).isSome &&
          (statusOf before == some .accepted && hasEdge before) := by decide +kernel
    obtain ⟨before, hbefore, hcheck⟩ := (any_eq_true _ _).mp hruns
    obtain ⟨hsome, haccepted⟩ := Bool.and_eq_true_iff.mp hcheck
    obtain ⟨hstatus, hedge⟩ := Bool.and_eq_true_iff.mp haccepted
    obtain ⟨after, hafter⟩ := isSome_iff_exists.mp hsome
    obtain ⟨row, hrow, hreview⟩ := map_eq_some_iff.mp (beq_iff_eq.mp hstatus)
    obtain ⟨later, hlater, hstands, -⟩ :=
      (decisions_stand bareRules (reach_of_checkedFrom hbefore)
        (reach_of_checkedFrom hafter)).accepted 0 row hrow hreview
    exact ⟨before, after, hbefore, hafter, hedge, by rw [statusOf, hlater, map_some, hstands]⟩

private def runFrom (config : RelationConfig) (actions : List (Action RelationCall)) :
    Option RelationConfig :=
  Transition.runAll (step (relationSchema bareRules)) config actions

private def untilRejected : List (Action RelationCall) :=
  [.begin 0 promotion, .statement 0, .statement 0] ++ actionsOf 1 3 rejection

private def untilPromoted : List (Action RelationCall) :=
  List.replicate 7 (.statement 0) ++ [.commit 0]

/-- The promotion goes on from what it has read: the candidate that was rejected
is accepted, and has its edge. -/
theorem rejected_candidate_accepted : ∃ before after,
    runFrom atStart untilRejected = some before ∧ runFrom before untilPromoted = some after ∧
    statusOf before = some .rejected ∧ hasEdge before = false ∧
    statusOf after = some .accepted ∧ hasEdge after := by
  obtain ⟨before, hbefore⟩ := isSome_iff_exists.mp
    (show (runFrom atStart untilRejected).isSome by decide +kernel)
  have hrejected : (runFrom atStart untilRejected).map (fun before =>
      (statusOf before, hasEdge before)) = some (some .rejected, false) := by decide +kernel
  have hpromoted : ((runFrom atStart untilRejected).bind fun before =>
      runFrom before untilPromoted).map (fun after => (statusOf after, hasEdge after)) =
        some (some .accepted, true) := by decide +kernel
  rw [hbefore] at hrejected hpromoted
  obtain ⟨after, hafter, hends⟩ := map_eq_some_iff.mp hpromoted
  simp only [map_some, Option.some.injEq, Prod.mk.injEq] at hrejected hends
  exact ⟨before, after, hbefore, hafter, hrejected.1, hrejected.2, hends.1, hends.2⟩

end FyralisCore.Relationships
