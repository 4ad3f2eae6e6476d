import FyralisCore.EdgeIntelligence.PairEvidence
import FyralisCore.Relationships.Candidates
import Mathlib.Data.String.Basic
import Mathlib.Tactic.Linarith

/-! The compiler from the evidence on a pair to an edge candidate
(`edge_intelligence/compiler.py`). -/
namespace FyralisCore.EdgeIntelligence

open Relational Models Relationships

structure EdgeCompilerConfig where
  minConfidence : ℚ := 60 / 100
  minPositiveSignals : Int := 2
  minDirectionVotesForDirected : Int := 1
  maxRejectsWithoutAccept : Int := 0
  retrievalOnlyAllowed : Bool := false

/-- The order of `_max_vote`: most votes first, then by name. -/
def voteKey (entry : String × Int) : Int ×ₗ String := toLex (-entry.2, entry.1)

def maxVote (votes : Votes) : Option String :=
  match votes.rows.mergeSort fun l r => voteKey l ≤ voteKey r with
  | [] => none
  | (vote, n) :: _ => if 0 < n then some vote else none

def primitiveEdgeKindDefault : String → Option String
  | "DEPENDENCY" | "BLOCKER" => some "blocks"
  | "ENABLEMENT" => some "enables"
  | "COUNTEREVIDENCE" => some "weakens"
  | "RECURRENCE" => some "same_issue_as"
  | "GOAL_IMPACT" => some "supports"
  | "PREDICTION" | "TEMPORAL" => some "early_warning_for"
  | "CAUSAL" => some "causes"
  | "EXPLANATION" => some "explains"
  | "RESOLUTION" => some "contributes_to_resolution"
  | _ => none

def chooseEdgeKind (evidence : ModelPairEvidence) : Option String :=
  ((maxVote evidence.edgeKindVotes).filter (· ≠ "")).or
    (primitiveEdgeKindDefault evidence.key.primitive)

def strongestDirection (votes : Votes) : String :=
  ((maxVote votes).filter (· ∈ ["a_to_b", "b_to_a", "symmetric", "unknown"])).getD "unknown"

def orientedPair (evidence : ModelPairEvidence) (directed : Bool) (minVotes : Int) :
    Option (Nat × Nat) :=
  let direction := strongestDirection evidence.directionVotes
  if !directed then some (evidence.key.modelAId, evidence.key.modelBId)
  else if (evidence.directionVotes.get direction).getD 0 < minVotes then none
  else if direction = "a_to_b" then some (evidence.key.modelAId, evidence.key.modelBId)
  else if direction = "b_to_a" then some (evidence.key.modelBId, evidence.key.modelAId)
  else none

section

variable (counts : Counts)

def positiveSignalCount : Int :=
  counts .explicitRelation + counts .coUsedValidDiff + counts .thinkEdgeOp + counts .t4Accept
    + counts .positiveOutcome

def isRetrievalOnly : Bool :=
  positiveSignalCount counts = 0 ∧ 0 < counts .coRetrieved

def isNegativeMemoryDominant (config : EdgeCompilerConfig) : Bool :=
  ¬ 0 < counts .t4Accept ∧ config.maxRejectsWithoutAccept < counts .t4Reject

structure JudgmentScores where
  impact : ℚ
  uncertainty : ℚ
  urgency : ℚ := 1 / 2
  actionability : ℚ
  authorityRequired : ℚ := 45 / 100
  novelty : ℚ := 35 / 100
  confidence : ℚ

structure RelationshipCandidate where
  tenantId : Nat
  sourceModelId : Nat
  targetModelId : Nat
  edgeKind : String
  basis : Basis
  scores : JudgmentScores
  evidenceModelIds : List Nat

def scores (confidence : ℚ) : JudgmentScores where
  impact := clampScore
    (42 / 100 + 8 / 100 * positiveSignalCount counts + 5 / 100 * counts .t4Accept)
  uncertainty := clampScore
    (45 / 100 - 8 / 100 * counts .t4Accept + 12 / 100 * counts .t4Reject)
  actionability := clampScore (45 / 100 + 7 / 100 * counts .coUsedValidDiff)
  confidence

def candidateBasis (edgeKind : String) : Basis :=
  if 0 < counts .t4Accept ∨ 0 < counts .thinkEdgeOp then
    if edgeKind ∈ ["blocks", "causes", "explains", "enables", "contributes_to_resolution"] then
      .causalConfirmed
    else .observed
  else if counts .explicitRelation ≠ 0 then .observed
  else .inferred

end

/-- The gates on the counts. -/
def isHeldBack (config : EdgeCompilerConfig) (counts : Counts) : Bool :=
  confidenceFromPairEvidence counts < config.minConfidence ∨
    isNegativeMemoryDominant counts config ∨
    ¬ config.retrievalOnlyAllowed ∧ isRetrievalOnly counts ∨
    positiveSignalCount counts < config.minPositiveSignals

/-- The kind, source and target, where the votes give them. -/
def votedEdge (config : EdgeCompilerConfig) (evidence : ModelPairEvidence) :
    Option (String × Nat × Nat) :=
  (chooseEdgeKind evidence).bind fun edgeKind =>
    ((RegistryKind.all.find? (·.text = edgeKind)).filter
      fun kind => (edgeRegistry kind).enabledForWrites).bind fun kind =>
        (orientedPair evidence (edgeRegistry kind).isDirected
          config.minDirectionVotesForDirected).map (edgeKind, ·)

def candidateOf (evidence : ModelPairEvidence) (edgeKind : String)
    (sourceModelId targetModelId : Nat) : RelationshipCandidate where
  tenantId := evidence.key.tenantId
  sourceModelId
  targetModelId
  edgeKind
  basis := candidateBasis evidence.counts edgeKind
  scores := scores evidence.counts (confidenceFromPairEvidence evidence.counts)
  evidenceModelIds := [evidence.key.modelAId, evidence.key.modelBId]

/-- `make_edge_candidate` at the end refuses a self-edge; the mechanism it asks of a causal basis is
never blank. -/
def compilePairEvidenceCandidate (config : EdgeCompilerConfig) (evidence : ModelPairEvidence) :
    Except PairError (Option RelationshipCandidate) :=
  if isHeldBack config evidence.counts then .ok none
  else match votedEdge config evidence with
  | none => .ok none
  | some (edgeKind, source, target) =>
    if source = target then .error (.value "relationship candidate cannot be a self-edge")
    else .ok (some (candidateOf evidence edgeKind source target))

theorem compile_eq_none_iff : compilePairEvidenceCandidate config evidence = .ok none ↔
    isHeldBack config evidence.counts ∨ votedEdge config evidence = none := by
  unfold compilePairEvidenceCandidate
  by_cases hh : isHeldBack config evidence.counts
  · simp [hh]
  · cases votedEdge config evidence with
    | none => simp
    | some edge =>
      simp only [hh]
      split_ifs <;> simp [*]

theorem compile_eq_some_iff : compilePairEvidenceCandidate config evidence = .ok (some candidate) ↔
    ¬ isHeldBack config evidence.counts ∧ ∃ edgeKind source target,
      votedEdge config evidence = some (edgeKind, source, target) ∧ source ≠ target ∧
      candidateOf evidence edgeKind source target = candidate := by
  unfold compilePairEvidenceCandidate
  by_cases hh : isHeldBack config evidence.counts
  · simp [hh]
  · rcases votedEdge config evidence with _ | ⟨kind, source, target⟩
    · simp
    · by_cases he : source = target <;> simp [hh, he]

theorem voteKey_le : voteKey (vote, n) ≤ voteKey (other, m) ↔ m < n ∨ n = m ∧ vote ≤ other := by
  rw [voteKey, voteKey, Prod.Lex.toLex_le_toLex, neg_lt_neg_iff, neg_inj]

/-- The first row of the order decides. -/
theorem maxVote_spec (votes : Votes) : (∀ vote, votes.get vote = none) ∧ maxVote votes = none ∨
    ∃ top most, votes.get top = some most ∧
      (∀ other m, votes.get other = some m → voteKey (top, most) ≤ voteKey (other, m)) ∧
      maxVote votes = if 0 < most then some top else none := by
  have hp : (votes.rows.mergeSort fun l r => voteKey l ≤ voteKey r).Pairwise
      fun l r => decide (voteKey l ≤ voteKey r) :=
    List.pairwise_mergeSort (by simpa using fun _ _ _ _ _ _ => le_trans)
      (by simpa using fun _ _ _ _ => le_total _ _) _
  have hm : ∀ entry, entry ∈ votes.rows.mergeSort (fun l r => voteKey l ≤ voteKey r) ↔
      votes.get entry.1 = some entry.2 :=
    fun entry => List.mem_mergeSort.trans (Table.mem_rows_iff votes entry.1 entry.2)
  unfold maxVote
  cases hl : votes.rows.mergeSort fun l r => voteKey l ≤ voteKey r with
  | nil =>
    rw [hl] at hm
    refine .inl ⟨fun vote => ?_, rfl⟩
    exact Option.eq_none_iff_forall_ne_some.mpr fun n hg => nomatch (hm (vote, n)).mpr hg
  | cons top rest =>
    rw [hl] at hp hm
    refine .inr ⟨top.1, top.2, (hm top).mp (.head _), fun other m hg => ?_, rfl⟩
    rcases List.mem_cons.mp ((hm (other, m)).mpr hg) with rfl | hi
    · exact le_rfl
    · exact of_decide_eq_true ((List.pairwise_cons.mp hp).1 _ hi)

theorem maxVote_eq_none_iff : maxVote votes = none ↔ ∀ vote n, votes.get vote = some n → n ≤ 0 := by
  rcases maxVote_spec votes with ⟨hn, hv⟩ | ⟨top, most, hg, hb, hv⟩
  · simp [hv, hn]
  · rw [hv]
    constructor
    · intro h vote n hgn
      have hmost : ¬ 0 < most := fun hpos => by simp [hpos] at h
      rcases voteKey_le.mp (hb _ _ hgn) with hlt | ⟨rfl, -⟩ <;> omega
    · intro h
      rw [if_neg (h _ _ hg).not_gt]

theorem maxVote_eq_some_iff : maxVote votes = some vote ↔ ∃ n, 0 < n ∧
    votes.get vote = some n ∧ ∀ other m, votes.get other = some m →
      m < n ∨ n = m ∧ vote ≤ other := by
  rcases maxVote_spec votes with ⟨hn, hv⟩ | ⟨top, most, hg, hb, hv⟩
  · simp [hv, hn]
  · rw [hv]
    constructor
    · intro h
      obtain ⟨hpos, ⟨⟩⟩ := Option.ite_none_right_eq_some.mp h
      exact ⟨most, hpos, hg, fun other m ho => voteKey_le.mp (hb other m ho)⟩
    · rintro ⟨n, hpos, hgn, hbn⟩
      have he := le_antisymm (voteKey_le.mpr (hbn _ _ hg)) (hb _ _ hgn)
      obtain ⟨h2, rfl⟩ := Prod.mk.inj (toLex_inj.mp he)
      obtain rfl := neg_inj.mp h2
      exact if_pos hpos

/-- More votes for `chosen`, and for no other. -/
def Raised (votes : Votes) (chosen : String) (after : Votes) : Prop :=
  (∀ other ≠ chosen, after.get other = votes.get other) ∧
    (votes.get chosen).getD 0 ≤ (after.get chosen).getD 0

theorem Raised.maxVote (hr : Raised votes chosen after) :
    maxVote after = some chosen ∨ maxVote after = maxVote votes := by
  obtain ⟨hk, hc⟩ := hr
  by_cases ha : EdgeIntelligence.maxVote after = some chosen
  · exact .inl ha
  right
  cases hv : EdgeIntelligence.maxVote after with
  | none =>
    refine (maxVote_eq_none_iff.mpr fun vote n hg => ?_).symm
    rw [maxVote_eq_none_iff] at hv
    by_cases he : vote = chosen
    · subst he
      rw [hg] at hc
      cases hga : after.get vote with
      | none => simpa [hga] using hc
      | some m => exact (by simpa [hga] using hc : n ≤ m).trans (hv _ _ hga)
    · exact hv vote n ((hk vote he).trans hg)
  | some vote =>
    have he : vote ≠ chosen := fun h => ha (h ▸ hv)
    obtain ⟨n, hpos, hg, hb⟩ := maxVote_eq_some_iff.mp hv
    refine (maxVote_eq_some_iff.mpr ⟨n, hpos, hk vote he ▸ hg, fun other m ho => ?_⟩).symm
    by_cases hoc : other = chosen
    · subst hoc
      rw [ho] at hc
      cases hga : after.get other with
      | none => exact .inl ((by simpa [hga] using hc : m ≤ 0).trans_lt hpos)
      | some k =>
        have hmk : m ≤ k := by simpa [hga] using hc
        rcases hb _ _ hga with hlt | ⟨rfl, hle⟩
        · exact .inl (hmk.trans_lt hlt)
        · exact hmk.lt_or_eq.imp_right fun h => ⟨h.symm, hle⟩
    · exact hb other m ((hk other hoc).trans ho)

theorem primitiveEdgeKindDefault_ne (hd : primitiveEdgeKindDefault primitive = some edgeKind) :
    edgeKind ≠ "" := by
  unfold primitiveEdgeKindDefault at hd
  split at hd <;> cases hd <;> decide

def negatives : List Signal := [.t4Reject, .noEdge, .negativeOutcome]

/-- Counts that speak no less for the pair: no positive count is lower, no negative one higher. -/
structure Favours (lower upper : Counts) : Prop where
  positive : ∀ signal ∉ negatives, lower signal ≤ upper signal
  negative : ∀ signal ∈ negatives, upper signal ≤ lower signal

/-- Positive counts are raised, and votes added for the kind and the direction chosen. -/
structure Strengthened (evidence : ModelPairEvidence) (edgeKind : String)
    (after : ModelPairEvidence) : Prop where
  key : after.key = evidence.key
  raised : ∀ signal ∉ negatives, evidence.counts signal ≤ after.counts signal
  kept : ∀ signal ∈ negatives, after.counts signal = evidence.counts signal
  directions : Raised evidence.directionVotes (strongestDirection evidence.directionVotes)
    after.directionVotes
  kinds : Raised evidence.edgeKindVotes edgeKind after.edgeKindVotes

/-- Only negative counts are raised. -/
structure Weakened (evidence after : ModelPairEvidence) : Prop where
  key : after.key = evidence.key
  raised : ∀ signal ∈ negatives, evidence.counts signal ≤ after.counts signal
  kept : ∀ signal ∉ negatives, after.counts signal = evidence.counts signal
  directions : after.directionVotes = evidence.directionVotes
  kinds : after.edgeKindVotes = evidence.edgeKindVotes

theorem Strengthened.chooseEdgeKind (hs : Strengthened evidence edgeKind after)
    (hc : chooseEdgeKind evidence = some edgeKind) : chooseEdgeKind after = some edgeKind := by
  have hne : edgeKind ≠ "" := by
    rcases Option.or_eq_some_iff.mp hc with hf | ⟨-, hd⟩
    · simpa using (Option.filter_eq_some_iff.mp hf).2
    · exact primitiveEdgeKindDefault_ne hd
  rw [EdgeIntelligence.chooseEdgeKind, hs.key]
  rcases hs.kinds.maxVote with h | h <;> rw [h]
  · simp [hne]
  · exact hc

theorem strongestDirection_raised (hr : Raised votes (strongestDirection votes) after)
    (hd : strongestDirection votes ≠ "unknown") :
    strongestDirection after = strongestDirection votes := by
  have hv : maxVote votes = some (strongestDirection votes) := by
    unfold strongestDirection at hd ⊢
    cases hf : (maxVote votes).filter (· ∈ ["a_to_b", "b_to_a", "symmetric", "unknown"]) with
    | none => exact absurd (by rw [hf]; rfl) hd
    | some direction => exact (Option.filter_eq_some_iff.mp hf).1
  have ha : maxVote after = maxVote votes := hr.maxVote.elim (·.trans hv.symm) id
  rw [strongestDirection, ha, ← strongestDirection]

theorem Strengthened.orientedPair (hs : Strengthened evidence edgeKind after)
    (ho : orientedPair evidence directed minVotes = some pair) :
    orientedPair after directed minVotes = some pair := by
  unfold EdgeIntelligence.orientedPair at ho ⊢
  rw [hs.key]
  cases directed with
  | false => exact ho
  | true =>
    by_cases hu : strongestDirection evidence.directionVotes = "unknown"
    · simp [hu] at ho
    · rw [strongestDirection_raised hs.directions hu]
      simp only [Bool.not_true, Bool.false_eq_true, if_false] at ho ⊢
      obtain ⟨hm, ho⟩ := Option.ite_none_left_eq_some.mp ho
      rw [if_neg fun h => hm (hs.directions.2.trans_lt h)]
      exact ho

theorem Strengthened.votedEdge (hs : Strengthened evidence edgeKind after)
    (hv : votedEdge config evidence = some (edgeKind, pair)) :
    votedEdge config after = some (edgeKind, pair) := by
  obtain ⟨_, hc, hv⟩ := Option.bind_eq_some_iff.mp hv
  obtain ⟨kind, hk, hv⟩ := Option.bind_eq_some_iff.mp hv
  obtain ⟨_, ho, he⟩ := Option.map_eq_some_iff.mp hv
  cases he
  rw [EdgeIntelligence.votedEdge, hs.chooseEdgeKind hc, Option.bind_some, hk, Option.bind_some,
    hs.orientedPair ho, Option.map_some]

theorem ratio_mono {p q m n : ℚ} (hp : p ≤ q) (hm : m ≤ n) (h0 : 0 ≤ m) :
    (if p ≤ 0 then 0 else clampScore (p / (p + n + 3))) ≤
      if q ≤ 0 then 0 else clampScore (q / (q + m + 3)) := by
  by_cases hz : p ≤ 0
  · rw [if_pos hz]
    split
    · exact le_rfl
    · exact le_max_left _ _
  · rw [not_le] at hz
    have hq := hz.trans_le hp
    rw [if_neg hz.not_ge, if_neg hq.not_ge]
    refine max_le_max_left _ (min_le_min_left _ ?_)
    rw [div_le_div_iff₀ (by linarith) (by linarith)]
    have hc : p * m ≤ q * n := mul_le_mul hp hm h0 hq.le
    linarith [mul_comm p q]

section

variable (hf : Favours lower upper) (hu : ∀ signal, 0 ≤ upper signal)

include hf hu

theorem confidence_mono : confidenceFromPairEvidence lower ≤ confidenceFromPairEvidence upper := by
  refine ratio_mono ?_ ?_ ?_
  · gcongr <;> exact hf.positive _ (by decide)
  · gcongr <;> exact hf.negative _ (by decide)
  · have h := fun signal => Int.cast_nonneg (R := ℚ) (hu signal)
    linarith [h .t4Reject, h .noEdge, h .negativeOutcome]

theorem isHeldBack_anti (hm : 1 ≤ config.minPositiveSignals) (hh : isHeldBack config upper) :
    isHeldBack config lower := by
  have hc := confidence_mono hf hu
  have hp : positiveSignalCount lower ≤ positiveSignalCount upper := by
    have h := fun signal => hf.positive signal
    unfold positiveSignalCount
    gcongr <;> exact hf.positive _ (by decide)
  have ha := hf.positive .t4Accept (by decide)
  have hr := hf.negative .t4Reject (by decide)
  simp only [isHeldBack, isNegativeMemoryDominant, isRetrievalOnly, decide_eq_true_eq] at hh ⊢
  rcases hh with h | ⟨h1, h2⟩ | ⟨-, h, -⟩ | h
  · exact .inl (hc.trans_lt h)
  · exact .inr (.inl ⟨by omega, by omega⟩)
  · exact .inr (.inr (.inr (by omega)))
  · exact .inr (.inr (.inr (by omega)))

end

/-- Evidence for the pair keeps its candidate, with no less confidence, and evidence against it
makes none. -/
theorem compile_monotone (config : EdgeCompilerConfig) (evidence : ModelPairEvidence)
    (hn : ∀ signal, 0 ≤ evidence.counts signal) (hm : 1 ≤ config.minPositiveSignals) :
    (∀ candidate after, compilePairEvidenceCandidate config evidence = .ok (some candidate) →
      Strengthened evidence candidate.edgeKind after →
      ∃ candidate', compilePairEvidenceCandidate config after = .ok (some candidate') ∧
        candidate'.sourceModelId = candidate.sourceModelId ∧
        candidate'.targetModelId = candidate.targetModelId ∧
        candidate'.edgeKind = candidate.edgeKind ∧
        candidate.scores.confidence ≤ candidate'.scores.confidence) ∧
    (compilePairEvidenceCandidate config evidence = .ok none → ∀ after, Weakened evidence after →
        compilePairEvidenceCandidate config after = .ok none) := by
  constructor
  · intro candidate after hc hs
    obtain ⟨hh, edgeKind, source, target, hv, hne, rfl⟩ := compile_eq_some_iff.mp hc
    have hu : ∀ signal, 0 ≤ after.counts signal := fun signal => by
      by_cases h : signal ∈ negatives
      · rw [hs.kept signal h]
        exact hn signal
      · exact (hn signal).trans (hs.raised signal h)
    have hf : Favours evidence.counts after.counts := ⟨hs.raised, fun s h => (hs.kept s h).le⟩
    exact ⟨_, compile_eq_some_iff.mpr ⟨fun h => hh (isHeldBack_anti hf hu hm h), edgeKind,
      source, target, hs.votedEdge hv, hne, rfl⟩, rfl, rfl, rfl, confidence_mono hf hu⟩
  · intro hc after hw
    have hf : Favours after.counts evidence.counts := ⟨fun s h => (hw.kept s h).le, hw.raised⟩
    rcases compile_eq_none_iff.mp hc with hh | hv
    · exact compile_eq_none_iff.mpr (.inl (isHeldBack_anti hf hn hm hh))
    · refine compile_eq_none_iff.mpr (.inr ?_)
      simp only [votedEdge, chooseEdgeKind, orientedPair, hw.key, hw.directions, hw.kinds] at hv ⊢
      exact hv

/-- Two Models that are related twice, with accepted and rejected proposals. -/
def relatedPair (accepts rejects : Int) : ModelPairEvidence where
  id := 0
  counts
    | .explicitRelation => 2
    | .t4Accept => accepts
    | .t4Reject => rejects
    | _ => 0
  directionVotes := Table.put ∅ "a_to_b" 1
  edgeKindVotes := Table.put ∅ "causes" 1
  key := ⟨0, 1, 2, "CAUSAL"⟩

theorem compile_monotone_related :
    (∃ candidate, compilePairEvidenceCandidate {} (relatedPair 4 0) = .ok (some candidate) ∧
      candidate.edgeKind = "causes" ∧ candidate.sourceModelId = 1) ∧
    compilePairEvidenceCandidate {} (relatedPair 1 10) = .ok none := by
  constructor
  · have hstronger : Strengthened (relatedPair 1 0) "causes" (relatedPair 4 0) :=
      ⟨rfl, by rintro ⟨⟩ <;> decide, by rintro ⟨⟩ <;> decide, ⟨fun _ _ => rfl, le_rfl⟩,
        fun _ _ => rfl, le_rfl⟩
    obtain ⟨candidate, hcompile, hsource, -, hkind, -⟩ :=
      (compile_monotone {} (relatedPair 1 0) (by rintro ⟨⟩ <;> decide) (by decide)).1 _ _
        (compile_eq_some_iff.mpr ⟨by decide +kernel, "causes", 1, 2, by decide +kernel, by decide,
          rfl⟩) hstronger
    exact ⟨candidate, hcompile, hkind, hsource⟩
  · refine (compile_monotone {} (relatedPair 1 9) (by rintro ⟨⟩ <;> decide) (by decide)).2
      (compile_eq_none_iff.mpr (.inl (by decide +kernel))) _ ⟨rfl, ?_, ?_, rfl, rfl⟩ <;>
      rintro ⟨⟩ <;> decide

end FyralisCore.EdgeIntelligence
