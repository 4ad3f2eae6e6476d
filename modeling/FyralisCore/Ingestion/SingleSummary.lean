import FyralisCore.Ingestion.Summaries
import FyralisCore.Lib.CommitDiscipline

/-! At most one summary of an observation is written. Every attempt ends with an
UPDATE that holds the row only if its stored status is not `complete`, so what
an attempt has loaded before, however stale, never reaches a completed row. -/
namespace FyralisCore.Ingestion.Summaries

open Relational Transaction ReadCommitted Discipline Transition
open Acts (Json)

section Law

variable {V : Type} {start db other : SummaryDb V} {trail : Trail SummaryWrite SummaryLock}

def isComplete (db : SummaryDb V) (observationId : Nat) : Bool :=
  (db.observations.get observationId).any ObservationRow.isComplete

def writtenSince (start db : SummaryDb V) : List Nat :=
  db.summaries.drop start.summaries.length

def triggeredSince (start db : SummaryDb V) : List Nat :=
  (db.triggers.drop start.triggers.length).map SummarizedTrigger.observationId

/-- Summaries and triggers come in pairs, one for each observation at most, and
an observation is complete if it was so from the start or has got its summary. -/
structure Single (start db : SummaryDb V) : Prop where
  summaries : start.summaries <+: db.summaries
  triggers : start.triggers <+: db.triggers
  paired : triggeredSince start db = writtenSince start db
  once : (writtenSince start db).Nodup
  complete_iff : ∀ id, isComplete db id ↔
    isComplete start id ∨ id ∈ writtenSince start db
  fresh : ∀ id ∈ writtenSince start db, isComplete start id = false

theorem openRow_eq_some_iff : openRow db observationId = some row ↔
      db.observations.get observationId = some row ∧ row.isComplete = false := by
  simp [openRow, Option.filter_eq_some_iff]

theorem isComplete_of_openRow
    (ho : openRow db observationId = some row) : isComplete db observationId = false := by
  obtain ⟨hg, hr⟩ := openRow_eq_some_iff.mp ho
  simp [isComplete, hg, hr]

inductive Attempted (db : SummaryDb V) (trail : Trail SummaryWrite SummaryLock) : Prop where
  | nothing (hwrites : trail.writes = [])
  | failed (id : Nat) (contentText : String) (content : Json) (row : ObservationRow V)
      (hwrites : trail.writes = [.markFailed id contentText content])
      (hstatus : summaryStatus content ≠ some "complete")
      (hheld : SummaryLock.observation id ∈ trail.locks) (hopen : openRow db id = some row)
  | summarized (id : Nat) (contentText : String) (content : Json) (trigger : SummarizedTrigger)
      (row : ObservationRow V)
      (hwrites : trail.writes = [.writeSummary id contentText content, .insertTrigger trigger])
      (htrigger : trigger.observationId = id)
      (hstatus : summaryStatus content = some "complete")
      (hheld : SummaryLock.observation id ∈ trail.locks) (hopen : openRow db id = some row)

def RowsHeld (trail : Trail SummaryWrite SummaryLock) (s t : SummaryDb V) : Prop :=
  ∀ id, SummaryLock.observation id ∈ trail.locks → t.observations.get id = s.observations.get id

variable {id : Nat}

theorem openRow_congr (hs : other.observations.get id = db.observations.get id) :
    openRow other id = openRow db id := by
  unfold openRow
  rw [hs]

theorem Attempted.stable (ha : Attempted db trail) (hh : RowsHeld trail db other) :
    Attempted other trail := by
  cases ha with
  | nothing hw => exact .nothing hw
  | failed id contentText content row hw hs hl ho =>
    rw [← openRow_congr (hh id hl)] at ho
    exact .failed id contentText content row hw hs hl ho
  | summarized id contentText content trigger row hw ht hs hl ho =>
    rw [← openRow_congr (hh id hl)] at ho
    exact .summarized id contentText content trigger row hw ht hs hl ho

theorem get_writeSummary (id other : Nat) (contentText : String) (content : Json) :
    (db.apply (.writeSummary id contentText content)).observations.get other =
      if other = id then
        (db.observations.get id).map fun row => row.summarized contentText content
      else db.observations.get other := by
  simp only [SummaryDb.apply, Table.get_update]
  split
  · next hs => rw [hs]
  · rfl

theorem get_markFailed (id other : Nat) (contentText : String) (content : Json) :
    (db.apply (.markFailed id contentText content)).observations.get other =
      if other = id then (db.observations.get id).map fun row => row.failed contentText content
      else db.observations.get other := by
  simp only [SummaryDb.apply, Table.get_update]
  split
  · next hs => rw [hs]
  · rfl

/-- What one commit does: a failure record, or a summary and its trigger, on a
row that was not complete. -/
inductive Committed (s t : SummaryDb V) : Prop where
  | nothing (hsame : t = s)
  | failed (id : Nat) (hsummaries : t.summaries = s.summaries) (htriggers : t.triggers = s.triggers)
      (hbefore : isComplete s id = false) (hafter : isComplete t id = false)
      (hothers : ∀ other, other ≠ id → t.observations.get other = s.observations.get other)
  | summarized (id : Nat) (trigger : SummarizedTrigger) (htrigger : trigger.observationId = id)
      (hsummaries : t.summaries = s.summaries ++ [id])
      (htriggers : t.triggers = s.triggers ++ [trigger])
      (hbefore : isComplete s id = false) (hafter : isComplete t id)
      (hothers : ∀ other, other ≠ id → t.observations.get other = s.observations.get other)

theorem Attempted.committed (ha : Attempted db trail) :
    Committed db ((summarySchema V).view db trail.writes) := by
  cases ha with
  | nothing hw =>
    rw [hw]
    exact .nothing rfl
  | failed id contentText content row hw hs hl ho =>
    rw [hw]
    have hg := (openRow_eq_some_iff.mp ho).1
    refine .failed id rfl rfl (isComplete_of_openRow ho) ?_ fun other hn => ?_
    · change isComplete (db.apply (.markFailed id contentText content)) id = false
      simp [isComplete, get_markFailed, hg, ObservationRow.isComplete, ObservationRow.failed, hs]
    · change (db.apply (.markFailed id contentText content)).observations.get other = _
      rw [get_markFailed, if_neg hn]
  | summarized id contentText content trigger row hw ht hs hl ho =>
    rw [hw]
    have hg := (openRow_eq_some_iff.mp ho).1
    refine .summarized id trigger ht rfl rfl (isComplete_of_openRow ho) ?_ fun other hn => ?_
    · change isComplete (db.apply (.writeSummary id contentText content)) id
      simp [isComplete, get_writeSummary, hg, ObservationRow.isComplete,
        ObservationRow.summarized, hs]
    · change (db.apply (.writeSummary id contentText content)).observations.get other = _
      rw [get_writeSummary, if_neg hn]

theorem Committed.get_of_complete (hc : Committed s t)
    (hcp : isComplete s id) : t.observations.get id = s.observations.get id := by
  cases hc with
  | nothing hs => rw [hs]
  | failed written _ _ hb _ ho | summarized written _ _ _ _ hb _ ho =>
    refine ho id ?_
    rintro rfl
    rw [hcp] at hb
    cases hb

theorem isComplete_congr (hs : t.observations.get id = s.observations.get id) :
    isComplete t id = isComplete s id := by
  unfold isComplete
  rw [hs]

theorem Single.commit (hsi : Single start db) (hc : Committed db other) : Single start other := by
  cases hc with
  | nothing hs =>
    rw [hs]
    exact hsi
  | failed id hsm htr hb ha hother =>
    have hw : writtenSince start other = writtenSince start db := by
      unfold writtenSince
      rw [hsm]
    have htrg : triggeredSince start other = triggeredSince start db := by
      unfold triggeredSince
      rw [htr]
    refine ⟨hsm ▸ hsi.summaries, htr ▸ hsi.triggers, ?_, ?_, ?_, ?_⟩
    · rw [hw, htrg]
      exact hsi.paired
    · rw [hw]
      exact hsi.once
    · intro candidate
      rw [hw, ← hsi.complete_iff]
      by_cases hs : candidate = id
      · rw [hs, hb, ha]
      · rw [isComplete_congr (hother candidate hs)]
    · rw [hw]
      exact hsi.fresh
  | summarized id trigger ht hsm htr hb ha hother =>
    have hw : writtenSince start other = writtenSince start db ++ [id] := by
      unfold writtenSince
      rw [hsm, List.drop_append_of_le_length hsi.summaries.length_le]
    have htrg : triggeredSince start other = triggeredSince start db ++ [id] := by
      unfold triggeredSince
      rw [htr, List.drop_append_of_le_length hsi.triggers.length_le, List.map_append,
        List.map_singleton, ht]
    have ho : isComplete start id = false ∧ id ∉ writtenSince start db := by
      have hn := (hsi.complete_iff id).not
      rw [hb] at hn
      simpa using hn
    refine ⟨?_, ?_, ?_, ?_, ?_, ?_⟩
    · rw [hsm]
      exact hsi.summaries.trans (List.prefix_append _ _)
    · rw [htr]
      exact hsi.triggers.trans (List.prefix_append _ _)
    · rw [hw, htrg, hsi.paired]
    · rw [hw]
      exact List.Nodup.append hsi.once (List.nodup_singleton id) (List.disjoint_singleton.mpr ho.2)
    · intro candidate
      rw [hw, List.mem_append, List.mem_singleton, ← or_assoc, ← hsi.complete_iff]
      by_cases hs : candidate = id
      · simp [hs, ha]
      · simp [hs, isComplete_congr (hother candidate hs)]
    · intro candidate hm
      rw [hw, List.mem_append, List.mem_singleton] at hm
      rcases hm with hold | rfl
      · exact hsi.fresh candidate hold
      · exact ho.1

def summaryDiscipline (start : SummaryDb V) : Discipline (summarySchema V) where
  Good := Single start
  Rely := RowsHeld
  Final := Attempted
  Unused _ _ := True
  rely_refl _ _ _ _ := rfl
  rely_trans hfirst hsecond id hlock := (hsecond id hlock).trans (hfirst id hlock)
  final_stable _ hattempted hheld _ := hattempted.stable hheld
  good_commit hsingle hattempted := hsingle.commit hattempted.committed
  rely_commit := by
    intro s mine theirs _ hattempted hdisjoint id hlock
    cases hattempted with
    | nothing hwrites =>
      rw [hwrites]
      rfl
    | failed written contentText content row hwrites hstatus hheld hopen =>
      have hne : id ≠ written := fun hsame => hdisjoint.1 _ (hsame ▸ hlock) hheld
      rw [hwrites]
      change (s.apply (.markFailed written contentText content)).observations.get id = _
      rw [get_markFailed, if_neg hne]
    | summarized written contentText content trigger row hwrites htrigger hstatus hheld hopen =>
      have hne : id ≠ written := fun hsame => hdisjoint.1 _ (hsame ▸ hlock) hheld
      rw [hwrites]
      change (s.apply (.writeSummary written contentText content)).observations.get id = _
      rw [get_writeSummary, if_neg hne]
  unused_commit _ _ _ _ := trivial

section

variable {α : Type}

variable {s : SummaryDb V}

theorem wp_updateGuarded (hn : ∀ t, Q none t {}) (hs : ∀ t row, openRow t observationId = some row →
      Q (some (after row)) t ⟨[w], [.observation observationId], []⟩) :
    (summaryDiscipline start).wp Q (updateGuarded observationId w after) s {} := by
  refine wp_query fun t _ _ _ ws v ha => ?_
  simp only [Schema.view_nil] at ha ⊢
  cases ho : openRow t observationId with
  | none =>
    rw [ho] at ha
    cases ha
    exact hn t
  | some row =>
    rw [ho] at ha
    cases ha
    exact hs t row ho

theorem wp_writeSummaryAndEnqueue (env : SummarizationEnvelope) (existing : ObservationRow V)
    (r : SummaryResult) (sourceChars : Nat) (now : String) :
    (summaryDiscipline start).wp (fun _ => Attempted)
      (writeSummaryAndEnqueue env existing r sourceChars now) s {} := by
  refine wp_bind.mpr (wp_orRaise fun summary _ => ?_)
  refine wp_bind.mpr (wp_updateGuarded (fun t => .nothing rfl) fun t row ho => ?_)
  refine wp_bind.mpr (wp_newId fun t₁ id hh _ _ _ => ?_)
  refine wp_bind.mpr (wp_query fun t₂ hhl _ _ ws _ ha => ?_)
  cases ha
  have hl : SummaryLock.observation env.observationId ∈ [SummaryLock.observation env.observationId] :=
    List.mem_singleton_self _
  have hs := (hhl env.observationId hl).trans (hh env.observationId hl)
  rw [← openRow_congr hs] at ho
  exact .summarized env.observationId r.summaryText _ _ row rfl rfl
    (summaryStatus_completedContent _ _ _ _ _) hl ho

theorem wp_markSummaryFailed (env : SummarizationEnvelope) (existing : ObservationRow V)
    (errorType error : String) (rawS3Key : Option String) (now : String) :
    (summaryDiscipline start).wp (fun _ => Attempted)
      (markSummaryFailed env existing errorType error rawS3Key now) s {} := by
  refine wp_bind.mpr (wp_orRaise fun summary _ => ?_)
  refine wp_bind.mpr (wp_updateGuarded (fun t => .nothing rfl) fun t row ho => ?_)
  refine .failed env.observationId _ _ row rfl ?_ (List.mem_singleton_self _) ho
  rw [summaryStatus_failedContent]
  decide

theorem summaryDiscipline_sound (start : SummaryDb V) : (summaryDiscipline start).Sound := by
  intro call s _ _
  cases call with
  | batch line =>
    refine wp_seq (R := fun _ => Attempted) ?_ fun _ _ _ ha => ha
    refine wp_bind.mpr (wp_read fun t _ _ _ => ?_)
    split
    · exact .nothing rfl
    · exact wp_writeSummaryAndEnqueue _ _ _ _ _
  | live attempt =>
    refine wp_seq (R := fun _ => Attempted) ?_ fun _ _ _ ha => ha
    refine wp_bind.mpr (wp_read fun t _ _ _ => ?_)
    split
    · exact .nothing rfl
    · dsimp only
      split
      · exact .nothing rfl
      · split
        · exact wp_seq (wp_markSummaryFailed _ _ _ _ _ _) fun _ _ _ ha => ha
        · split
          · exact wp_seq (wp_markSummaryFailed _ _ _ _ _ _) fun _ _ _ ha => ha
          · exact wp_writeSummaryAndEnqueue _ _ _ _ _

end

/-- In every interleaving of attempts: each observation gets at most one summary
and as many triggers, a step of the database commits them together, and leaves
a completed row as it is. -/
theorem single_summary {supply : Nat} {config : Config (SummaryDb V) SummaryWrite SummaryLock SummaryError}
    (hreach : Transition.Reach (Config.step (summarySchema V)) anyStep ⟨start, supply, ∅⟩ config) :
    (∀ id, (writtenSince start config.committed).count id ≤ 1 ∧
      (triggeredSince start config.committed).count id =
        (writtenSince start config.committed).count id) ∧
    ∀ action next, config.step (summarySchema V) action = some next →
      Committed config.committed next.committed ∧
      ∀ id, isComplete config.committed id →
        next.committed.observations.get id = config.committed.observations.get id := by
  have hgood : Single start start :=
    { summaries := List.prefix_rfl
      triggers := List.prefix_rfl
      paired := by simp [triggeredSince, writtenSince]
      once := by simp [writtenSince]
      complete_iff := by simp [writtenSince]
      fresh := by simp [writtenSince] }
  have hadmitted : ∀ (config : Config (SummaryDb V) SummaryWrite SummaryLock SummaryError) action,
      anyStep config action → (summaryDiscipline start).Admitted config action := by
    intro config action _
    cases action <;> simp [Discipline.Admitted, summaryDiscipline]
  have hcoherent := Discipline.coherent_of_reach (summaryDiscipline_sound start) hadmitted
    hgood (fun _ _ => trivial) hreach
  refine ⟨fun id => ⟨List.nodup_iff_count_le_one.mp hcoherent.good.once id, ?_⟩, ?_⟩
  · rw [hcoherent.good.paired]
  · intro action next hstep
    have hcommitted : Committed config.committed next.committed := by
      rcases Config.committed_of_step hstep with hsame | ⟨sid, session, -, hget, hdone, hnext⟩
      · exact .nothing hsame
      · rw [hnext]
        exact (hcoherent.final hget hdone).committed
    exact ⟨hcommitted, fun id hcomplete => hcommitted.get_of_complete hcomplete⟩

end Law

private def pendingObservation : SummaryDb Unit where
  observations := Table.put ∅ 5
    { sourceChannel := "drive:document"
      content := .object [("title", .string "Plan"),
        ("summarization", .object [("status", .string "pending")])]
      contentText := "Document 'Plan' queued for summarization"
      occurredAt := "2026-01-01T00:00:00+00:00"
      kind := "document"
      trustTier := "reported"
      actorId := some 3
      embedding := none
      embeddingPending := false }

private def lineOf (text : String) : SummaryCall :=
  .batch ⟨⟨0, 5, none⟩, ⟨text, "m"⟩, 100, "2026-01-02T00:00:00+00:00"⟩

/-- Both lines load the pending row; one of them writes. -/
theorem single_summary_of_two_lines :
    ∃ config : Config (SummaryDb Unit) SummaryWrite SummaryLock SummaryError,
      config.committed.summaries = [5] ∧ isComplete config.committed 5 ∧
      (triggeredSince pendingObservation config.committed).count 5 =
        (writtenSince pendingObservation config.committed).count 5 := by
  let actions : List (Action SummaryCall) :=
    [.begin 0 (lineOf "first"), .begin 1 (lineOf "second"), .statement 0, .statement 1,
      .statement 0, .statement 0, .statement 0, .commit 0, .statement 1, .commit 1]
  have hrun : ∃ config, runAll (Config.step (summarySchema Unit))
      ⟨pendingObservation, 0, ∅⟩ actions = some config ∧ config.committed.summaries = [5] ∧
      isComplete config.committed 5 := ⟨_, rfl, rfl, by decide +kernel⟩
  obtain ⟨config, hrun, hwritten, hcomplete⟩ := hrun
  exact ⟨config, hwritten, hcomplete, ((single_summary (reach_of_run hrun)).1 5).2⟩

end FyralisCore.Ingestion.Summaries
