import FyralisCore.Ingestion.Normalizer

/-! At-least-once through the normalizer. A message is committed once it has been
handed to the producer's queue, which is not yet the broker; nothing is lost in
the runs in which a commit finds the queue empty and no delivery failed. -/
namespace FyralisCore.Ingestion

open Transition Option Function NormalizerState

variable {Partition Bytes Draft : Type} {decoder : Decoder Bytes}
  {state after : NormalizerState Partition Bytes Draft} {origin : Partition × Nat}

section

variable (decoder : Decoder Bytes)

def Identifiable (bytes : Bytes) : Prop :=
  (extractDlqFieldsBestEffort decoder bytes).tenantId.isSome ∧
    (extractDlqFieldsBestEffort decoder bytes).source.isSome

def Unsupported (bytes : Bytes) : Prop :=
  ∃ envelope, decoder.validate bytes = .ok envelope ∧
    resolveChannel envelope.source envelope.ingressKind = none

/-- The broker has acknowledged an envelope of the message, if it is owed one. -/
def Settled (state : NormalizerState Partition Bytes Draft) (origin : Partition × Nat) : Prop :=
  ∀ message, state.messageAt origin = some message → Identifiable decoder message.value →
    Unsupported decoder message.value ∨ ∃ record ∈ state.acked, record.origin = origin

def DeliveredAtLeastOnce (state : NormalizerState Partition Bytes Draft) : Prop :=
  ∀ partition offset, offset < state.committed partition → Settled decoder state (partition, offset)

end

/-- A commit finds the producer's queue empty, and no record of its batch lost. -/
def CommitsFlushed (state : NormalizerState Partition Bytes Draft) :
    NormalizerAction Partition Bytes Draft → Prop
  | .commit => state.queue = [] ∧ state.lost = []
  | _ => True

def Underway (state : NormalizerState Partition Bytes Draft) (origin : Partition × Nat) : Prop :=
  origin ∈ state.batch ∨ (∃ record ∈ state.queue, record.origin = origin) ∨ origin ∈ state.lost

structure Accounted (decoder : Decoder Bytes)
    (state : NormalizerState Partition Bytes Draft) : Prop where
  committed_le : ∀ partition, state.committed partition ≤ state.position partition
  position_le : ∀ partition, state.position partition ≤ (state.raw partition).length
  accounted : ∀ partition offset, offset < state.position partition →
    Settled decoder state (partition, offset) ∨
      state.committed partition ≤ offset ∧ Underway state (partition, offset)

section

variable {bytes : Bytes} {run : TransformRun Draft}

theorem isSome_dlqEnvelope (failure : TransformFailure) (hi : Identifiable decoder bytes) :
    (failure.dlqEnvelope decoder bytes).isSome := by
  obtain ⟨ht, hs⟩ := hi
  obtain ⟨tenantId, ht⟩ := isSome_iff_exists.mp ht
  obtain ⟨source, hs⟩ := isSome_iff_exists.mp hs
  cases failure <;> simp [TransformFailure.dlqEnvelope, dlqEnvelope, ht, hs]

theorem unsupported_of_normalizeOne (hn : normalizeOneWithEnvelope decoder bytes run = .ok none) :
    Unsupported decoder bytes := by
  unfold normalizeOneWithEnvelope at hn
  split at hn
  · cases hn
  · next envelope hv =>
    split at hn
    · cases hn
    · split at hn
      · next hc => exact ⟨envelope, hv, hc⟩
      · split at hn <;> cases hn

theorem processMessage_of_identifiable (run : TransformRun Draft)
    (hi : Identifiable decoder bytes) :
    Unsupported decoder bytes ∨ (∃ outbound, processMessage decoder bytes run = .enqueued outbound) ∨
      processMessage decoder bytes run = .dlqFailed := by
  unfold processMessage
  split
  · exact .inr (.inl ⟨_, rfl⟩)
  · next hn => exact .inl (unsupported_of_normalizeOne hn)
  · next failure _ =>
    obtain ⟨envelope, hb⟩ :=
      isSome_iff_exists.mp (isSome_dlqEnvelope failure hi)
    cases hf : run.dlqProduceFails <;> simp [publishDlq, hb, hf]

end

theorem Settled.mono (hs : Settled decoder state origin)
    (hr : after.messageAt origin = state.messageAt origin)
    (ha : ∀ record ∈ state.acked, record ∈ after.acked) : Settled decoder after origin := by
  intro message hm hi
  rw [hr] at hm
  rcases hs message hm hi with hu | ⟨record, hrc, ho⟩
  · exact .inl hu
  · exact .inr ⟨record, ha record hrc, ho⟩

theorem Accounted.of_same_offsets (hacc : Accounted decoder state)
    (hr : after.raw = state.raw) (hp : after.position = state.position)
    (hcm : after.committed = state.committed)
    (hac : ∀ record ∈ state.acked, record ∈ after.acked)
    (hu : ∀ origin, Underway state origin →
      Settled decoder after origin ∨ Underway after origin) : Accounted decoder after := by
  obtain ⟨hc, hps, ha⟩ := hacc
  refine ⟨?_, ?_, ?_⟩
  · rw [hcm, hp]
    exact hc
  · rw [hp, hr]
    exact hps
  · rw [hcm, hp]
    intro partition offset hl
    rcases ha partition offset hl with hs | ⟨hle, hw⟩
    · exact .inl (hs.mono (by simp [messageAt, hr]) hac)
    · exact (hu _ hw).imp id fun hw => ⟨hle, hw⟩

theorem Underway.settle
    (hw : Underway state origin) : Underway (state.settle other disposition) origin := by
  unfold Underway at hw ⊢
  cases disposition <;> grind [settle]

theorem settled_or_underway_of_process (decoder : Decoder Bytes) (run : TransformRun Draft)
    (hm : state.messageAt origin = some message) :
    Settled decoder (state.settle origin (processMessage decoder message.value run)) origin ∨
      Underway (state.settle origin (processMessage decoder message.value run)) origin := by
  by_cases ho : Identifiable decoder message.value ∧ ¬ Unsupported decoder message.value
  · right
    rcases processMessage_of_identifiable run ho.1 with hu | ⟨outbound, he⟩ |
      hfl
    · exact absurd hu ho.2
    · rw [he]
      exact .inr (.inl ⟨_, List.mem_append_right _ (.head _), rfl⟩)
    · rw [hfl]
      exact .inr (.inr (.head _))
  · left
    intro found hf hi
    have hk : (state.settle origin (processMessage decoder message.value run)).messageAt origin =
        some message := by
      rw [messageAt, raw_settle]
      exact hm
    cases hf.symm.trans hk
    exact .inl (not_not.mp fun hs => ho ⟨hi, hs⟩)

theorem Accounted.process (run : TransformRun Draft)
    (ha : Accounted decoder state) (hg : state.batch[index]? = some origin)
    (hm : state.messageAt origin = some message) :
    Accounted decoder ({ state with mode := .processing, batch := state.batch.eraseIdx index }.settle
      origin (processMessage decoder message.value run)) := by
  have ht : ({ state with mode := .processing, batch := state.batch.eraseIdx index } :
      NormalizerState Partition Bytes Draft).messageAt origin = some message := hm
  have hp := settled_or_underway_of_process decoder run ht
  apply ha.of_same_offsets <;> try simp
  intro partition offset hw
  rcases hw with hb | hq | hls
  · rcases mem_eraseIdx_of_mem hg hb with rfl | hl
    · exact hp
    · exact .inr (Underway.settle (.inl hl))
  · exact .inr (Underway.settle (.inr (.inl hq)))
  · exact .inr (Underway.settle (.inr (.inr hls)))

theorem Accounted.committed (ha : Accounted decoder state) :
    DeliveredAtLeastOnce decoder state := by
  intro partition offset hl
  have hp := Nat.lt_of_lt_of_le hl (ha.committed_le partition)
  rcases ha.accounted partition offset hp with hs | ⟨hle, -⟩
  · exact hs
  · omega

section

variable [DecidableEq Partition]

theorem accounted_step (hac : Accounted decoder state) (hf : CommitsFlushed state action)
    (hs : normalizerStep decoder state action = some after) : Accounted decoder after := by
  cases action with
  | publishRaw partition message =>
    cases hs
    obtain ⟨hc, hp, ha⟩ := hac
    refine ⟨hc, fun other => ?_, fun other offset hlt => ?_⟩
    · have hle := hp other
      change state.position other ≤
        (Function.update state.raw partition (state.raw partition ++ [message]) other).length
      by_cases ho : other = partition
      · subst ho
        rw [update_self, List.length_append]
        omega
      · rwa [update_of_ne ho]
    · have hi : offset < (state.raw other).length := Nat.lt_of_lt_of_le hlt (hp other)
      refine (ha other offset hlt).imp (fun hse => hse.mono ?_ fun _ => id) id
      by_cases ho : other = partition
      · subst ho
        simp [messageAt, List.getElem?_append_left hi]
      · simp [messageAt, update_of_ne ho]
  | receive partition =>
    obtain ⟨⟨-, hn⟩, he⟩ := ite_none_right_eq_some.mp hs
    cases he
    obtain ⟨hc, hp, ha⟩ := hac
    refine ⟨fun other => ?_, fun other => ?_, fun other offset hlt => ?_⟩
    · have hle := hc other
      grind [update_apply]
    · have hle := hp other
      grind [update_apply]
    · have hmr : ∀ origin, Underway state origin → Underway
          { state with
            batch := state.batch ++ [(partition, state.position partition)]
            position := Function.update state.position partition (state.position partition + 1) }
          origin :=
        fun origin hw => hw.imp (List.mem_append_left _) id
      by_cases hnw : other = partition ∧ offset = state.position partition
      · obtain ⟨rfl, rfl⟩ := hnw
        exact .inr ⟨hc other, .inl (List.mem_append_right _ (.head _))⟩
      · have hold : offset < state.position other := by grind [update_apply]
        refine (ha other offset hold).imp (fun hse => hse.mono rfl fun _ => id) ?_
        exact fun hu => ⟨hu.1, hmr _ hu.2⟩
  | process index run =>
    simp only [normalizerStep] at hs
    split at hs
    · cases hs
    · next origin hg =>
      split at hs
      · cases hs
      · next message hm =>
        obtain ⟨-, he⟩ := ite_none_right_eq_some.mp hs
        cases he
        exact hac.process run hg hm
  | commit =>
    obtain ⟨⟨-, hb⟩, he⟩ := ite_none_right_eq_some.mp hs
    cases he
    obtain ⟨hq, hls⟩ := hf
    refine ⟨fun _ => Nat.le_refl _, hac.position_le, fun partition offset hlt => ?_⟩
    rcases hac.accounted partition offset hlt with hse | ⟨-, hw⟩
    · exact .inl hse
    · simp [Underway, hb, hq, hls] at hw
  | acknowledge index =>
    obtain ⟨record, hg, he⟩ := map_eq_some_iff.mp hs
    subst he
    refine hac.of_same_offsets rfl rfl rfl (fun _ => List.mem_cons_of_mem _) ?_
    rintro origin (hb | ⟨queued, hqd, hor⟩ | hls)
    · exact .inr (.inl hb)
    · rcases mem_eraseIdx_of_mem hg hqd with rfl | hl
      · exact .inl fun _ _ _ => .inr ⟨queued, .head _, hor⟩
      · exact .inr (.inr (.inl ⟨queued, hl, hor⟩))
    · exact .inr (.inr (.inr hls))
  | deliveryFails index =>
    obtain ⟨record, hg, he⟩ := map_eq_some_iff.mp hs
    subst he
    refine hac.of_same_offsets rfl rfl rfl (fun _ => id) ?_
    rintro origin (hb | ⟨queued, hqd, rfl⟩ | hls)
    · exact .inr (.inl hb)
    · rcases mem_eraseIdx_of_mem hg hqd with rfl | hl
      · exact .inr (.inr (.inr (.head _)))
      · exact .inr (.inr (.inl ⟨queued, hl, rfl⟩))
    · exact .inr (.inr (.inr (.tail _ hls)))
  | crash =>
    cases hs
    exact
      { committed_le := fun _ => Nat.le_refl _
        position_le := fun partition =>
          Nat.le_trans (hac.committed_le partition) (hac.position_le partition)
        accounted := fun partition offset hlt => .inl (hac.committed partition offset hlt) }

/-- Whatever the broker does and wherever the worker crashes, nothing that is
owed an envelope is lost while commits find everything delivered. -/
theorem delivered_of_commitsFlushed (hreach : Reach (normalizerStep decoder) CommitsFlushed
      ({} : NormalizerState Partition Bytes Draft) state) : DeliveredAtLeastOnce decoder state := by
  have haccounted : Accounted decoder state := by
    apply hreach.invariant
    · exact ⟨fun _ => Nat.le_refl _, fun _ => Nat.le_refl _,
        fun _ _ hlt => absurd hlt (Nat.not_lt_zero _)⟩
    · exact fun s action t haccounted hflushed hstep => accounted_step haccounted hflushed hstep
  exact haccounted.committed

end

private def slackEnvelope : IngressEnvelope where
  source := "slack"
  tenantId := 7
  rawS3Key := "dev/slack/00000000-0000-0000-0000-000000000007/1970-01/00/" ++
    "0000000000000000000000000000000000000000.json.zst"
  contentHash := "0000000000000000000000000000000000000000"
  ingestedAt := 0
  ingressKind := "webhook"
  ingressMetadata := []
  idemHints := []

private def slackDecoder : Decoder Unit where
  loads _ := some (.object [("tenant_id", .string "7"), ("source", .string "slack")])
  validate _ := .ok slackEnvelope
  uuid _ := some 7
  explain _ _ := "content_hash must be 40 lower-hex chars"

private def slackRun : TransformRun Unit where
  now := 0
  transform _ _ := .ok ()
  produceFails := none
  dlqProduceFails := false

private def oneMessage : List (NormalizerAction Unit Unit Unit) :=
  [.publishRaw () ⟨(), none⟩, .receive (), .process 0 slackRun]

private def flushes (state : NormalizerState Unit Unit Unit) :
    NormalizerAction Unit Unit Unit → Bool
  | .commit => state.queue.isEmpty && state.lost.isEmpty
  | _ => true

theorem delivered_one_message : ∃ state : NormalizerState Unit Unit Unit,
    Reach (normalizerStep slackDecoder) CommitsFlushed {} state ∧ state.committed () = 1 ∧
      DeliveredAtLeastOnce slackDecoder state := by
  have hcheck : ∀ state action, flushes state action → CommitsFlushed state action := by
    intro state action hflushes
    cases action with
    | commit => simpa [flushes, CommitsFlushed] using hflushes
    | publishRaw | receive | process | acknowledge | deliveryFails | crash => trivial
  have hrun : (runChecked (normalizerStep slackDecoder) flushes {}
      (oneMessage ++ [.acknowledge 0, .commit])).map (fun state => state.committed ()) = some 1 := by
    decide +kernel
  obtain ⟨state, hchecked, hcommitted⟩ := map_eq_some_iff.mp hrun
  have hreach : Reach (normalizerStep slackDecoder) CommitsFlushed {} state :=
    reach_of_runChecked hcheck hchecked
  exact ⟨state, hreach, hcommitted, delivered_of_commitsFlushed hreach⟩

/-- The worker commits what only its own queue holds, and dies. -/
theorem lost_after_commit : ¬ ∀ state : NormalizerState Unit Unit Unit,
    Reach (normalizerStep slackDecoder) anyStep {} state →
      DeliveredAtLeastOnce slackDecoder state := by
  intro hdelivered
  have hrun : (runAll (normalizerStep slackDecoder) {} (oneMessage ++ [.commit, .crash])).map
      (fun state => (state.committed (), (state.raw ()).length, state.acked.length)) =
        some (1, 1, 0) := by
    decide +kernel
  obtain ⟨state, hstate, hcounts⟩ := map_eq_some_iff.mp hrun
  simp only [Prod.mk.injEq, List.length_eq_zero_iff] at hcounts
  obtain ⟨hcommitted, hraw, hacked⟩ := hcounts
  obtain ⟨message, hmessage⟩ := List.length_eq_one_iff.mp hraw
  have hreach : Reach (normalizerStep slackDecoder) anyStep {} state :=
    reach_of_run hstate
  have hidentifiable : Identifiable slackDecoder () := ⟨by decide, by decide⟩
  have hsettled := hdelivered state hreach () 0 (by rw [hcommitted]; decide) message
    (by rw [messageAt, hmessage]; rfl) hidentifiable
  rcases hsettled with ⟨envelope, hvalid, hchannel⟩ | ⟨record, hrecord, -⟩
  · cases hvalid
    revert hchannel
    decide
  · rw [hacked] at hrecord
    cases hrecord

end FyralisCore.Ingestion
