import Mathlib.Data.List.Induction
import Mathlib.Data.List.Pairwise
import FyralisCore.Ingestion.RawEnvelope
import FyralisCore.Lib.Reach

/-! The dead letters: the rows of `ingestion_failures`, which the DLQ writer upserts and
an operator replays or quarantines. -/
namespace FyralisCore.Ingestion.DeadLetters

open List Option Transition

variable {Json : Type}

inductive WireFailureKind where
  | normalizerParseFailure
  | normalizerInvariantFailure
  | writerInvariantFailure
  | embeddingOllamaFailure
  | summarizationLlmFailure
  deriving DecidableEq

def WireFailureKind.toDb : WireFailureKind → String
  | .normalizerParseFailure | .normalizerInvariantFailure => "normalizer_parse_error"
  | .writerInvariantFailure | .summarizationLlmFailure => "observation_insert_error"
  | .embeddingOllamaFailure => "embedding_ollama_failure"

structure DLQEnvelope (Json : Type) where
  tenantId : Nat
  source : String
  failureKind : WireFailureKind
  rawS3Key : Option String
  errorSummary : String
  errorContext : Json
  failedAt : Nat

structure FailureRow (Json : Type) where
  id : Nat
  tenantId : Nat
  source : String
  failureKind : String
  rawS3Key : Option String
  errorSummary : String
  errorContext : Json
  attemptCount : Nat := 1
  firstSeenAt : Nat
  lastSeenAt : Nat
  resolvedAt : Option Nat := none
  resolutionKind : Option String := none
  resolvedBy : Option String := none
  quarantinedAt : Option Nat := none
  quarantinedBy : Option Nat := none
  quarantineReason : Option String := none
  deriving DecidableEq

/-- The columns of the unique index. It tells two rows without a `raw_s3_key` apart. -/
structure FailureKey where
  tenantId : Nat
  source : String
  rawS3Key : String
  failureKind : String
  deriving DecidableEq

def DLQEnvelope.key (env : DLQEnvelope Json) : Option FailureKey :=
  env.rawS3Key.map fun raw => ⟨env.tenantId, env.source, raw, env.failureKind.toDb⟩

def FailureRow.key (row : FailureRow Json) : Option FailureKey :=
  row.rawS3Key.map fun raw => ⟨row.tenantId, row.source, raw, row.failureKind⟩

abbrev Failures (Json : Type) := List (FailureRow Json)

def Failures.update (rows : Failures Json) (condition : FailureRow Json → Bool)
    (change : FailureRow Json → FailureRow Json) : Failures Json :=
  rows.map fun row => if condition row then change row else row

def FailureRow.conflicts (env : DLQEnvelope Json) (row : FailureRow Json) : Bool :=
  env.key.isSome && row.key == env.key

def DLQEnvelope.toRow (id : Nat) (env : DLQEnvelope Json) : FailureRow Json :=
  { id, tenantId := env.tenantId, source := env.source, failureKind := env.failureKind.toDb
    rawS3Key := env.rawS3Key, errorSummary := env.errorSummary, errorContext := env.errorContext
    firstSeenAt := env.failedAt, lastSeenAt := env.failedAt }

def FailureRow.recur (env : DLQEnvelope Json) (row : FailureRow Json) : FailureRow Json :=
  { row with
    attemptCount := row.attemptCount + 1
    lastSeenAt := env.failedAt
    errorSummary := env.errorSummary
    errorContext := env.errorContext }

/-- `upsert_failure`; `none` where PostgreSQL refuses the statement: the count is an INTEGER
and the id a primary key. -/
def upsertFailure (id : Nat) (env : DLQEnvelope Json) (rows : Failures Json) :
    Option (Failures Json) :=
  if rows.any (·.conflicts env) then
    if rows.any fun row => row.conflicts env && row.attemptCount + 1 ≥ 2147483648 then none
    else some (rows.update (·.conflicts env) (·.recur env))
  else if rows.any (·.id == id) then none
  else some (rows ++ [env.toRow id])

/-- `_select_ingress_kind`; `inContext` reads the text under `ingress_kind`. -/
def selectIngressKind (supplied : Option String) (inContext : Option String) :
    Except String String :=
  match supplied.filter (· ≠ "") with
  | some supplied => if supplied ∈ ingressKinds then .ok supplied else .error "invalid ingress_kind"
  | none =>
    match inContext.filter (· ∈ ingressKinds) with
    | some value => .ok value
    | none => .error "ingress kind is required for replay; pass --ingress-kind"

/-- `^[0-9a-f]{40}$`: the end of the pattern stands before a final newline as well. -/
def matchesHash (text : List Char) : Bool :=
  let body := if text.getLast? = some '\n' then text.dropLast else text
  body.length == 40 && body.all fun char => char.isDigit || ('a' ≤ char && char ≤ 'f')

def removeSuffix (text suffix : List Char) : List Char :=
  text.take (text.length - suffix.length)

def contentHashFromRawS3Key (rawS3Key : String) : Except String String := do
  let parts := rawS3Key.toList.splitOn '/'
  let leaf := parts.getLast?.getD []
  let contentHash ←
    if ".json.zst".toList.isSuffixOf leaf then .ok (removeSuffix leaf ".json.zst".toList)
    else if ".json".toList.isSuffixOf leaf then .ok (removeSuffix leaf ".json".toList)
    else .error "raw_s3_key must end with .json or .json.zst"
  unless matchesHash contentHash do
    .error "raw_s3_key does not contain a 40-character lowercase content hash"
  unless parts.dropLast.getLast?.getD [] = contentHash.take 2 do
    .error "raw_s3_key hash prefix does not match content hash"
  return String.ofList contentHash

/-- The first half of `replay_failure`, up to the publication of the raw envelope: the
source, the key, the hash and the ingress kind that it carries. -/
def publishReplay (ingressKindIn : Json → Option String) (tenantId failureId : Nat)
    (ingressKind : Option String) (rows : Failures Json) :
    Except String (String × String × String × String) := do
  let some row := rows.find? fun row => row.tenantId == tenantId && row.id == failureId
    | .error "failure not found"
  if row.resolvedAt.isSome then .error "failure is already resolved"
  if row.quarantinedAt.isSome then .error "failure is quarantined"
  let some rawS3Key := row.rawS3Key.filter (· ≠ "")
    | .error "failure has no raw_s3_key and cannot be replayed"
  let selected ← selectIngressKind ingressKind (ingressKindIn row.errorContext)
  let contentHash ← contentHashFromRawS3Key rawS3Key
  return (row.source, rawS3Key, contentHash, selected)

def markReplayed (tenantId actorId failureId now : Nat) (rows : Failures Json) : Failures Json :=
  rows.update
    (fun row => row.tenantId == tenantId && row.id == failureId && row.resolvedAt.isNone &&
      row.quarantinedAt.isNone)
    fun row =>
      { row with
        resolvedAt := some now
        resolutionKind := some "replayed"
        resolvedBy := some ("operator:" ++ toString actorId) }

def quarantineFailure (tenantId actorId failureId now : Nat) (reason : String)
    (rows : Failures Json) : Failures Json :=
  rows.update (fun row => row.tenantId == tenantId && row.id == failureId && row.resolvedAt.isNone)
    fun row =>
      { row with
        quarantinedAt := row.quarantinedAt.or (some now)
        quarantinedBy := some actorId
        quarantineReason := some reason }

/-- `replaying` are the failures that have been published and wait for their mark. -/
structure Dlq (Json : Type) where
  rows : Failures Json := []
  replaying : List Nat := []
  deriving DecidableEq

inductive DlqCall (Json : Type) where
  | upsert (id : Nat) (env : DLQEnvelope Json)
  | publish (tenantId failureId : Nat) (ingressKind : Option String)
  | mark (tenantId actorId failureId now : Nat)
  | abandon (failureId : Nat)
  | quarantine (tenantId actorId failureId now : Nat) (reason : String)

/-- One step of a call, `none` where it is refused. An update that meets no row raises and
leaves the rows as they are. The advisory lock of a replay is held from
its publication to its mark or to the end of its connection. -/
def Dlq.step (ingressKindIn : Json → Option String) (dlq : Dlq Json) :
    DlqCall Json → Option (Dlq Json)
  | .upsert id env => (upsertFailure id env dlq.rows).map fun rows => { dlq with rows }
  | .publish tenantId failureId ingressKind =>
    if failureId ∈ dlq.replaying then none
    else (publishReplay ingressKindIn tenantId failureId ingressKind dlq.rows).toOption.map
      fun _ => { dlq with replaying := failureId :: dlq.replaying }
  | .mark tenantId actorId failureId now =>
    if failureId ∈ dlq.replaying then
      some ⟨markReplayed tenantId actorId failureId now dlq.rows, dlq.replaying.erase failureId⟩
    else none
  | .abandon failureId => some { dlq with replaying := dlq.replaying.erase failureId }
  | .quarantine tenantId actorId failureId now reason =>
    if reason = "" then none
    else some
      { dlq with rows := quarantineFailure tenantId actorId failureId now reason dlq.rows }

/-! ### What the upserts of a key leave behind -/

def DlqCall.upserts (key : FailureKey) : DlqCall Json → Bool
  | .upsert _ env => env.key == some key
  | _ => false

/-- The rows after `history`: no key is there twice, and each row counts its upserts. -/
structure Counted (history : List (DlqCall Json)) (rows : Failures Json) : Prop where
  keys : (rows.filterMap FailureRow.key).Nodup
  row : ∀ row ∈ rows, ∀ key, row.key = some key →
    row.attemptCount = history.countP (·.upserts key)
  present : ∀ key, 0 < history.countP (·.upserts key) → ∃ row ∈ rows, row.key = some key

variable {rows after : Failures Json} {history : List (DlqCall Json)} {call : DlqCall Json}
  {condition : FailureRow Json → Bool} {change : FailureRow Json → FailureRow Json}
  {env : DLQEnvelope Json} {key : FailureKey} {dlq later : Dlq Json}
  {ingressKindIn : Json → Option String}

theorem conflicts_iff {row : FailureRow Json} (hk : env.key = some key) :
    row.conflicts env ↔ row.key = some key := by
  simp [FailureRow.conflicts, hk]

@[simp] theorem key_toRow (id : Nat) : (env.toRow id).key = env.key := rfl

@[simp] theorem key_recur (row : FailureRow Json) : (row.recur env).key = row.key := rfl

theorem keys_update (hk : ∀ row, (change row).key = row.key) :
    (rows.update condition change).filterMap FailureRow.key = rows.filterMap FailureRow.key := by
  rw [Failures.update, filterMap_map]
  congr 1
  funext row
  simp only [Function.comp_apply]
  split
  · exact hk row
  · rfl

theorem present_update (hk : ∀ row, (change row).key = row.key)
    (hr : ∃ row ∈ rows, row.key = some key) :
    ∃ row ∈ rows.update condition change, row.key = some key := by
  obtain ⟨row, hm, hr⟩ := hr
  refine ⟨_, mem_map_of_mem hm, ?_⟩
  split
  · exact (hk row).trans hr
  · exact hr

section

variable (hc : Counted history rows) (hq : ∀ key, call.upserts key = false)

include hc hq

/-- A call that is no upsert, and an update that changes neither keys nor counts. -/
theorem Counted.update (hk : ∀ row, (change row).key = row.key) (hn : ∀ row,
    (change row).attemptCount = row.attemptCount) : Counted (history ++ [call])
    (rows.update condition change) := by
  constructor
  · rw [keys_update hk]
    exact hc.keys
  · intro row hr key hky
    obtain ⟨old, hold, rfl⟩ := mem_map.mp hr
    have hs : (if condition old then change old else old).key = old.key ∧
        (if condition old then change old else old).attemptCount = old.attemptCount := by
      split
      · exact ⟨hk old, hn old⟩
      · exact ⟨rfl, rfl⟩
    rw [hs.1] at hky
    rw [hs.2, hc.row old hold key hky]
    simp [countP_append, hq]
  · intro key hp
    exact present_update hk (hc.present key (by simpa [hq] using hp))

theorem Counted.same : Counted (history ++ [call]) rows := by
  have hc' : Counted (history ++ [call]) (rows.update (fun _ => false) id) :=
    hc.update hq (fun _ => rfl) fun _ => rfl
  simpa [Failures.update] using hc'

end

theorem countP_upsert (id : Nat) : (history ++ [DlqCall.upsert id env]).countP (·.upserts key) =
      history.countP (·.upserts key) + if env.key = some key then 1 else 0 := by
  simp [countP_append, countP_singleton, DlqCall.upserts]

theorem Counted.upsert {id : Nat} (hcnt : Counted history rows)
    (hu : upsertFailure id env rows = some after) :
    Counted (history ++ [.upsert id env]) after := by
  unfold upsertFailure at hu
  split at hu
  · next ha =>
    split at hu
    · cases hu
    cases hu
    obtain ⟨hi, hh, hcn⟩ := any_eq_true.mp ha
    obtain ⟨key, he⟩ : ∃ key, env.key = some key := by
      simpa [FailureRow.conflicts, isSome_iff_exists] using (Bool.and_eq_true_iff.mp hcn).1
    constructor
    · rw [keys_update key_recur]
      exact hcnt.keys
    · intro row hrw other hky
      obtain ⟨old, hold, rfl⟩ := mem_map.mp hrw
      rw [countP_upsert, he]
      by_cases hc : old.conflicts env
      · rw [if_pos hc] at hky ⊢
        rw [if_pos (((conflicts_iff he).mp hc).symm.trans hky), ← hcnt.row old hold other hky]
        rfl
      · rw [if_neg hc] at hky ⊢
        rw [conflicts_iff he] at hc
        rw [if_neg fun heq => hc (hky.trans heq.symm)]
        exact hcnt.row old hold other hky
    · intro other hp
      apply present_update key_recur
      rw [countP_upsert, he] at hp
      split at hp
      · next heq => exact ⟨hi, hh, ((conflicts_iff he).mp hcn).trans heq⟩
      · exact hcnt.present other hp
  · next ha =>
    split at hu
    · cases hu
    cases hu
    have hf : ∀ key, env.key = some key → ∀ row ∈ rows, row.key ≠ some key := by
      intro key he row hrw hky
      exact ha (any_eq_true.mpr ⟨row, hrw, (conflicts_iff he).mpr hky⟩)
    constructor
    · rw [filterMap_append, nodup_append]
      refine ⟨hcnt.keys, ?_, ?_⟩
      · cases hky : env.key <;> simp [hky]
      · intro key hky other ho heq
        obtain ⟨row, hrw, hr⟩ := mem_filterMap.mp hky
        have he : env.key = some other := by simpa using ho
        exact hf other he row hrw (heq ▸ hr)
    · intro row hrw key hky
      rw [countP_upsert]
      rcases mem_append.mp hrw with hrw | hrw
      · rw [if_neg fun he => hf key he row hrw hky]
        exact hcnt.row row hrw key hky
      · cases mem_singleton.mp hrw
        rw [key_toRow] at hky
        have hz : history.countP (·.upserts key) = 0 := by
          by_contra hp
          obtain ⟨old, hold, hk⟩ := hcnt.present key (Nat.pos_of_ne_zero hp)
          exact hf key hky old hold hk
        simp [hz, hky, DLQEnvelope.toRow]
    · intro key hp
      rw [countP_upsert] at hp
      split at hp
      · next he => exact ⟨_, mem_append_right _ (.head _), he⟩
      · obtain ⟨row, hrw, hky⟩ := hcnt.present key hp
        exact ⟨row, mem_append_left _ hrw, hky⟩

theorem Counted.step (hc : Counted history dlq.rows)
    (hs : dlq.step ingressKindIn call = some later) :
    Counted (history ++ [call]) later.rows := by
  cases call with
  | upsert id env =>
    obtain ⟨rows, hu, rfl⟩ := map_eq_some_iff.mp hs
    exact hc.upsert hu
  | publish tenantId failureId ingressKind =>
    rw [Dlq.step] at hs
    split at hs
    · cases hs
    obtain ⟨_, -, rfl⟩ := map_eq_some_iff.mp hs
    exact hc.same fun _ => rfl
  | mark tenantId actorId failureId now =>
    rw [Dlq.step] at hs
    split at hs
    · cases hs
      exact hc.update (fun _ => rfl) (fun _ => rfl) fun _ => rfl
    · cases hs
  | abandon failureId =>
    cases hs
    exact hc.same fun _ => rfl
  | quarantine tenantId actorId failureId now reason =>
    rw [Dlq.step] at hs
    split at hs
    · cases hs
    · cases hs
      exact hc.update (fun _ => rfl) (fun _ => rfl) fun _ => rfl

variable (ingressKindIn)

section

variable (history : List (DlqCall Json))

/-- The state after `history`, where none of its calls is refused. -/
def dlqAfter : Option (Dlq Json) :=
  Transition.runAll (Dlq.step ingressKindIn) {} history

/-- Every upsert of `history` that meets a resolved row of its key leaves an unresolved one. -/
def RecursVisibly : Prop :=
  ∀ before id env rest dlq later key, history = before ++ .upsert id env :: rest →
    dlqAfter ingressKindIn before = some dlq →
    dlq.step ingressKindIn (.upsert id env) = some later → env.key = some key →
    (∃ row ∈ dlq.rows, row.key = some key ∧ row.resolvedAt ≠ none) →
    ∃ row ∈ later.rows, row.key = some key ∧ row.resolvedAt = none

/-- In every state of `history` a row counts the upserts of its key. -/
def CountsUpserts : Prop :=
  ∀ before rest dlq key, history = before ++ rest → dlqAfter ingressKindIn before = some dlq →
    ∀ row ∈ dlq.rows, row.key = some key → row.attemptCount = before.countP (·.upserts key)

/-- No envelope of `history` is upserted while the row of its key is resolved. -/
def NeverRecurs : Prop :=
  ∀ before id env rest dlq key, history = before ++ .upsert id env :: rest →
    dlqAfter ingressKindIn before = some dlq → env.key = some key →
    ∀ row ∈ dlq.rows, row.key = some key → row.resolvedAt = none

end

variable {ingressKindIn}

theorem counted_of_run (hr : dlqAfter ingressKindIn history = some dlq) :
    Counted history dlq.rows := by
  induction history using List.reverseRecOn generalizing dlq with
  | nil =>
    cases hr
    exact ⟨.nil, by simp, by simp⟩
  | append_singleton history call ih =>
    obtain ⟨before, hb, hs⟩ := runAll_concat.mp hr
    exact (ih hb).step hs

/-- The upsert of a key whose only row is resolved leaves every row of the key resolved. -/
theorem resolved_of_upsert {id : Nat} {hi : FailureRow Json} (hcn : Counted history rows)
    (he : env.key = some key) (hh : hi ∈ rows) (hky : hi.key = some key)
    (hd : hi.resolvedAt ≠ none) (hu : upsertFailure id env rows = some after) :
    ∀ row ∈ after, row.key = some key → row.resolvedAt ≠ none := by
  have ho : ∀ row ∈ rows, row.key = some key → row = hi := by
    intro row hrw hr
    by_contra hn
    have : Std.Symm fun a b : FailureRow Json =>
        ∀ k, a.key = some k → ∀ k', b.key = some k' → k ≠ k' :=
      ⟨fun _ _ h k hk k' hk' => (h k' hk' k hk).symm⟩
    exact (pairwise_filterMap.mp hcn.keys).forall hrw hh hn _ hr _ hky rfl
  unfold upsertFailure at hu
  rw [if_pos (any_eq_true.mpr ⟨hi, hh, (conflicts_iff he).mpr hky⟩)] at hu
  split at hu
  · cases hu
  cases hu
  intro row hrw hr
  obtain ⟨old, hold, rfl⟩ := mem_map.mp hrw
  by_cases hc : old.conflicts env
  · rw [if_pos hc] at hr ⊢
    rwa [ho old hold ((conflicts_iff he).mp hc)]
  · rw [if_neg hc] at hr
    exact absurd ((conflicts_iff he).mpr hr) hc

/-- Attempts are counted in every history. A failure that recurs after a replay is visible
again exactly in those in which none does: the row stays resolved. -/
theorem recurs_visibly_iff {final : Dlq Json} (hrun : dlqAfter ingressKindIn history = some final) :
    RecursVisibly ingressKindIn history ∧ CountsUpserts ingressKindIn history ↔
      NeverRecurs ingressKindIn history := by
  constructor
  · rintro ⟨hvisible, -⟩ before id env rest dlq key rfl hbefore henv row hrow hkey
    by_contra hdone
    rw [dlqAfter, runAll_append, ← dlqAfter, hbefore] at hrun
    obtain ⟨later, hstep, -⟩ := bind_eq_some_iff.mp (bind_some .. ▸ hrun)
    obtain ⟨other, hother, hk, hopen⟩ :=
      hvisible before id env rest dlq later key rfl hbefore hstep henv ⟨row, hrow, hkey, hdone⟩
    obtain ⟨rows, hupsert, rfl⟩ := map_eq_some_iff.mp hstep
    exact resolved_of_upsert (counted_of_run hbefore) henv hrow hkey hdone hupsert other hother hk
      hopen
  · intro hnever
    constructor
    · rintro before id env rest dlq later key rfl hbefore - henv ⟨row, hrow, hkey, hdone⟩
      exact absurd (hnever before id env rest dlq key rfl hbefore henv row hrow hkey) hdone
    · rintro before rest dlq key - hbefore row hrow hkey
      exact (counted_of_run hbefore).row row hrow key hkey

def parseFailure : DLQEnvelope Unit where
  tenantId := 1
  source := "slack"
  failureKind := .normalizerParseFailure
  rawS3Key := some "raw/slack/aa/aaaaaaaaaaaaaaaaaaaaaaaaaaaaaaaaaaaaaaaa.json"
  errorSummary := "invalid JSON"
  errorContext := ()
  failedAt := 10

def replayedInVain : List (DlqCall Unit) :=
  [.upsert 1 parseFailure, .publish 1 1 (some "webhook"), .mark 1 7 1 20, .upsert 2 parseFailure]

/-- The first message is replayed, and another one fails twice. -/
def replayedWell : List (DlqCall Unit) :=
  let other := { parseFailure with source := "github" }
  replayedInVain.take 3 ++ [.upsert 2 other, .upsert 3 other]

theorem recurs_visibly_iff_replayed :
    (dlqAfter (fun _ => none) replayedWell).map (fun dlq => dlq.rows.map fun row =>
        (row.source, row.resolvedAt, row.attemptCount)) =
      some [("slack", some 20, 1), ("github", none, 2)] ∧
    (RecursVisibly (fun _ => none) replayedWell ∧ CountsUpserts (fun _ => none) replayedWell) ∧
    ¬ (RecursVisibly (fun _ => none) replayedInVain ∧
      CountsUpserts (fun _ => none) replayedInVain) := by
  have hwell : ∃ final, dlqAfter (fun _ => none) replayedWell = some final := ⟨_, rfl⟩
  have hvain : ∃ final, dlqAfter (fun _ => none) replayedInVain = some final := ⟨_, rfl⟩
  refine ⟨by decide +kernel, (recurs_visibly_iff hwell.choose_spec).mpr ?_,
    fun hboth => ?_⟩
  · -- The upserts of the other message come fourth and fifth, where only its own row has its key.
    rintro (_ | ⟨_, _ | ⟨_, _ | ⟨_, _ | ⟨_, _ | ⟨_, before⟩⟩⟩⟩⟩) id env rest dlq key heq hrun henv
      row hrow hkey
    all_goals first
      | cases heq
      | exact absurd (congrArg length heq) (by simp [replayedWell, replayedInVain])
    all_goals cases hrun
    · cases hrow
    · obtain rfl := mem_singleton.mp hrow
      exact absurd (henv.trans hkey.symm) (by decide)
    · rcases mem_cons.mp hrow with rfl | hother
      · exact absurd (henv.trans hkey.symm) (by decide)
      · cases mem_singleton.mp hother
        rfl
  · have hnever := (recurs_visibly_iff hvain.choose_spec).mp hboth
    have hopen := hnever (replayedInVain.take 3) 2 parseFailure [] _ _ rfl rfl rfl _ (.head _) rfl
    cases hopen

/-- The same message fails, is replayed, and fails again: its row stays resolved. -/
theorem replayed_in_vain_hidden : ¬ RecursVisibly (fun _ => none) replayedInVain := by
  intro hvisible
  let replayed : FailureRow Unit := { parseFailure.toRow 1 with
      resolvedAt := some 20, resolutionKind := some "replayed", resolvedBy := some "operator:7" }
  have hbefore : dlqAfter (fun _ => none) (replayedInVain.take 3) = some ⟨[replayed], []⟩ := by
    decide +kernel
  obtain ⟨row, hrow, -, hopen⟩ := hvisible _ 2 parseFailure [] _
    ⟨[replayed.recur parseFailure], []⟩ _ rfl hbefore rfl rfl
    ⟨replayed, .head _, rfl, some_ne_none 20⟩
  cases mem_singleton.mp hrow
  cases hopen

end FyralisCore.Ingestion.DeadLetters
