import FyralisCore.Lib.Dict
import FyralisCore.Models.EdgeCalls
import FyralisCore.Models.Relations

/-! What the relations of a model leave: each kind it converges, and the array
columns. -/
namespace FyralisCore.Models

open Relational Transaction List Table Tx ModelDb

variable {db m after : ModelDb} {n left : Nat}

def ActiveAt (db : ModelDb) (key : EdgeKey) : Prop :=
  ∃ row, db.edges.get key = some row ∧ row.status = .active

/-- The key holds an edge that is not active; a link will not revive it. -/
def StaleAt (db : ModelDb) (key : EdgeKey) : Prop :=
  ∃ row, db.edges.get key = some row ∧ row.status ≠ .active

def RelationArgs.newRow (args : RelationArgs) (detectedBy : EdgeDetectedBy) (now id : Nat) :
    EdgeRow where
  id := id
  detectedBy := detectedBy
  createdAt := now
  createdByEventId := args.createdByEventId
  lastConfirmedAt := some now
  confirmedCount := 1

def EdgesOnly (db after : ModelDb) : Prop :=
  ∃ edges, after = { db with edges }

theorem EdgesOnly.refl (db : ModelDb) : EdgesOnly db db :=
  ⟨db.edges, rfl⟩

theorem EdgesOnly.trans (h1 : EdgesOnly db m) (h2 : EdgesOnly m after) :
    EdgesOnly db after := by
  obtain ⟨_, rfl⟩ := h1
  obtain ⟨edges, rfl⟩ := h2
  exact ⟨edges, rfl⟩

theorem EdgesOnly.models (he : EdgesOnly db after) : after.models = db.models := by
  obtain ⟨_, rfl⟩ := he
  rfl

variable {key : EdgeKey}

theorem activeAt_congr (hg : after.edges.get key = db.edges.get key) :
    ActiveAt after key ↔ ActiveAt db key := by
  unfold ActiveAt
  rw [hg]

theorem staleAt_congr (hg : after.edges.get key = db.edges.get key) :
    StaleAt after key ↔ StaleAt db key := by
  unfold StaleAt
  rw [hg]

theorem absent_of_not_active_not_stale (ha : ¬ ActiveAt db key)
    (hsl : ¬ StaleAt db key) : db.edges.get key = none := by
  cases hg : db.edges.get key with
  | none => rfl
  | some row =>
    by_cases hs : row.status = .active
    · exact absurd ⟨row, hg, hs⟩ ha
    · exact absurd ⟨row, hg, hs⟩ hsl

theorem edgesOnly_linkedDb (db : ModelDb) (now : Nat) (spec : EdgeKindSpec) (key : EdgeKey)
    (excluded : Nat → EdgeRow) (n : Nat) :
    EdgesOnly db (linkedDb db now spec key excluded n) := by
  unfold linkedDb
  split
  · exact ⟨_, rfl⟩
  · have h1 : EdgesOnly db (upsertEdge db key (excluded n) now) := ⟨_, rfl⟩
    exact h1.trans ⟨_, rfl⟩

theorem betweenPair_of_directed (hd : spec.isDirected)
    (pair key : EdgeKey) : betweenPair spec pair key = decide (key = pair) := by
  rw [Bool.eq_iff_iff, betweenPair_iff, hd]
  simp

theorem returns_edgeLink {now : Nat} {args : RelationArgs}
    {source : Nat} {r : Unit} (hd : (edgeRegistry kind).isDirected)
    (hr : Tx.Returns apply
      ((link now (args.edgeLink kind source target)).bind fun _ => .done ()) db n r
      after left) : EdgesOnly db after ∧ source ≠ target ∧ ∃ detectedBy id,
      EdgeDetectedBy.ofText args.detectedBy = some detectedBy ∧ ∀ key, after.edges.get key =
          if key = ⟨args.tenantId, source, target, kind⟩ then
            some (linkedRow (db.edges.get key) now (args.newRow detectedBy now id))
          else db.edges.get key := by
  obtain ⟨ids, hl⟩ := returns_ignore.mp hr
  obtain ⟨spec, reviewStatus, detectedBy, hp, rfl⟩ := returns_link_iff.mp ⟨ids, left, hl⟩
  have hs : (args.edgeLink kind source target).key.source ≠
      (args.edgeLink kind source target).key.target := hp.notSelf
  obtain rfl : edgeRegistry kind = spec :=
    Except.ok.inj ((resolveEdgeKindSpec_registry db args.tenantId kind).symm.trans hp.resolved)
  obtain rfl : ReviewStatus.accepted = reviewStatus := Option.some.inj hp.reviewStatus
  refine ⟨edgesOnly_linkedDb _ _ _ _ _ _, hp.notSelf, detectedBy, n, hp.detectedBy, fun key => ?_⟩
  rw [get_linkedDb _ _ _ _ _ hs, betweenPair_of_directed hd]
  by_cases hk : key = (args.edgeLink kind source target).key
  · rw [if_pos (by simpa using hk), if_pos hk]
    exact (if_pos hk).symm
  · rw [if_neg (by simpa using hk)]
    exact (if_neg hk).symm

theorem returns_edgeUnlink (hd : (edgeRegistry kind).isDirected) (hr : Tx.Returns apply
      ((unlink source target kind tenantId).bind fun _ => .done ()) db n r after left) :
    EdgesOnly db after ∧ ∀ key, after.edges.get key =
      if key = ⟨tenantId, source, target, kind⟩ then none else db.edges.get key := by
  obtain ⟨count, hu⟩ := returns_ignore.mp hr
  obtain ⟨spec, hrs, rfl⟩ := returns_unlink hu
  obtain rfl := Except.ok.inj ((resolveEdgeKindSpec_registry db tenantId kind).symm.trans hrs)
  refine ⟨⟨_, rfl⟩, fun key => ?_⟩
  simp only [deleteEdges, get_deleteWhere, betweenPair_of_directed hd]
  cases db.edges.get key with
  | none => simp
  | some row =>
    by_cases hk : key = ⟨tenantId, source, target, kind⟩
    · simp [hk, Option.filter]
    · simp [hk, Option.filter]

section Converging

variable {now : Nat} {args : RelationArgs} {kind : RegistryKind} {pair : Nat → Nat × Nat}

def edgeTo (args : RelationArgs) (kind : RegistryKind) (pair : Nat → Nat × Nat)
    (item : Nat) : EdgeKey :=
  ⟨args.tenantId, (pair item).1, (pair item).2, kind⟩

theorem edgeTo_injective (hp : Function.Injective pair) :
    Function.Injective (edgeTo args kind pair) := by
  intro item other he
  obtain ⟨-, hs, ht, -⟩ := EdgeKey.mk.inj he
  exact hp (Prod.ext hs ht)

variable {r : Unit}

theorem returns_edgeLinks {items : List Nat} (hdr : (edgeRegistry kind).isDirected)
    (hp : Function.Injective pair) (hnd : items.Nodup) (hr : Tx.Returns apply
      (Tx.forEach items fun item =>
        (link now (args.edgeLink kind (pair item).1 (pair item).2)).bind fun _ => .done ())
      db n r after left) :
    EdgesOnly db after ∧ (∀ key, (∀ item ∈ items, edgeTo args kind pair item ≠ key) →
        after.edges.get key = db.edges.get key) ∧
      ∀ item ∈ items, ∃ detectedBy id, EdgeDetectedBy.ofText args.detectedBy = some detectedBy ∧
        after.edges.get (edgeTo args kind pair item) =
          some (linkedRow (db.edges.get (edgeTo args kind pair item)) now
            (args.newRow detectedBy now id)) := by
  induction items generalizing db n with
  | nil =>
    obtain ⟨rfl, rfl⟩ := returns_forEach_nil.mp hr
    exact ⟨.refl _, fun _ _ => rfl, fun _ hm => absurd hm not_mem_nil⟩
  | cons item rest ih =>
    obtain ⟨m, k, hi, ht⟩ := returns_forEach_cons.mp hr
    obtain ⟨hnt, hn⟩ := nodup_cons.mp hnd
    obtain ⟨he, -, detectedBy, id, hd, hg⟩ := returns_edgeLink hdr hi
    obtain ⟨hed, hf, hl⟩ := ih hn ht
    have hin : Function.Injective (edgeTo args kind pair) := edgeTo_injective hp
    refine ⟨he.trans hed, fun key ho => ?_, fun other hm => ?_⟩
    · rw [hf key fun candidate hc => ho candidate (.tail _ hc),
        hg key, if_neg fun heq => ho item (.head _) heq.symm]
    · rcases mem_cons.mp hm with rfl | hmm
      · refine ⟨detectedBy, id, hd, ?_⟩
        rw [hf _ fun candidate hc heq => hnt ((hin heq).subst hc), hg]
        exact if_pos rfl
      · obtain ⟨otherDetectedBy, otherId, hother, hoth⟩ := hl other hmm
        refine ⟨otherDetectedBy, otherId, hother, ?_⟩
        have hne : edgeTo args kind pair other ≠ edgeTo args kind pair item :=
          fun heq => hnt ((hin heq).subst hmm)
        rw [hoth, hg]
        exact congrArg (fun row => some (linkedRow row now _)) (if_neg hne)

theorem returns_edgeUnlinks (hd : (edgeRegistry kind).isDirected)
    (hr : Tx.Returns apply (Tx.forEach items fun item =>
        (unlink (pair item).1 (pair item).2 kind args.tenantId).bind fun _ => .done ())
      db n r after left) :
    EdgesOnly db after ∧ ∀ key, after.edges.get key =
      if ∃ item ∈ items, edgeTo args kind pair item = key then none else db.edges.get key := by
  induction items generalizing db n with
  | nil =>
    obtain ⟨rfl, rfl⟩ := returns_forEach_nil.mp hr
    exact ⟨.refl _, fun _ => by simp⟩
  | cons item rest ih =>
    obtain ⟨m, k, hi, ht⟩ := returns_forEach_cons.mp hr
    obtain ⟨he, hg⟩ := returns_edgeUnlink hd hi
    obtain ⟨hed, hgt⟩ := ih ht
    refine ⟨he.trans hed, fun key => ?_⟩
    rw [hgt, hg]
    by_cases hl : ∃ other ∈ rest, edgeTo args kind pair other = key
    · obtain ⟨other, hm, heq⟩ := hl
      rw [if_pos ⟨other, hm, heq⟩, if_pos ⟨other, mem_cons_of_mem _ hm, heq⟩]
    · rw [if_neg hl]
      change (if key = edgeTo args kind pair item then none else _) = _
      by_cases hn : edgeTo args kind pair item = key
      · rw [if_pos hn.symm, if_pos ⟨item, .head _, hn⟩]
      · rw [if_neg fun heq => hn heq.symm, if_neg]
        rintro ⟨other, hm, heq⟩
        rcases mem_cons.mp hm with rfl | hmm
        · exact hn heq
        · exact hl ⟨other, hmm, heq⟩

/-- The edges under `keyOf` have converged to the desired endpoints, and nothing
else has changed. -/
structure Converged (db after : ModelDb) (now : Nat) (args : RelationArgs)
    (keyOf : Nat → EdgeKey) (desired : List Nat) : Prop where
  edgesOnly : EdgesOnly db after
  frame : ∀ key, (∀ item, keyOf item ≠ key) → after.edges.get key = db.edges.get key
  kept : ∀ item ∈ desired, ActiveAt db (keyOf item) →
    after.edges.get (keyOf item) = db.edges.get (keyOf item)
  added : ∀ item ∈ desired, ¬ ActiveAt db (keyOf item) →
    ∃ detectedBy id, EdgeDetectedBy.ofText args.detectedBy = some detectedBy ∧
      after.edges.get (keyOf item) =
        some (linkedRow (db.edges.get (keyOf item)) now (args.newRow detectedBy now id))
  removed : ∀ item ∉ desired, ActiveAt db (keyOf item) → after.edges.get (keyOf item) = none
  untouched : ∀ item ∉ desired, ¬ ActiveAt db (keyOf item) →
    after.edges.get (keyOf item) = db.edges.get (keyOf item)

theorem Converged.only (hc : Converged db after now args keyOf desired)
    (hk : after.edges.get key ≠ none) :
    db.edges.get key ≠ none ∨ ∃ item ∈ desired, keyOf item = key := by
  by_cases ha : ∃ item, keyOf item = key
  · obtain ⟨item, rfl⟩ := ha
    by_cases hm : item ∈ desired
    · exact .inr ⟨item, hm, rfl⟩
    · by_cases hac : ActiveAt db (keyOf item)
      · exact absurd (hc.removed item hm hac) hk
      · exact .inl (hc.untouched item hm hac ▸ hk)
  · exact .inl (hc.frame key (fun item he => ha ⟨item, he⟩) ▸ hk)

theorem returns_syncKind (hdr : (edgeRegistry kind).isDirected)
    (hp : Function.Injective pair) (ho : ∀ item, other (edgeTo args kind pair item) = item)
    (hex : ∀ e, e ∈ existing db ↔
      (∃ item, e.1 = edgeTo args kind pair item) ∧ db.edges.get e.1 = some e.2 ∧
        e.2.status = .active) (hrt : Tx.Returns apply
      (syncKind now kind args (.read existing) other pair desired) db n r after left) :
    Converged db after now args (edgeTo args kind pair) desired := by
  have ha : ∀ item, item ∈ (existing db).map (fun e => other e.1) ↔
      ActiveAt db (edgeTo args kind pair item) := by
    intro item
    rw [mem_map]
    constructor
    · rintro ⟨⟨key, row⟩, hen, rfl⟩
      obtain ⟨⟨found, rfl⟩, hg, hst⟩ := (hex _).mp hen
      rw [ho]
      exact ⟨row, hg, hst⟩
    · rintro ⟨row, hg, hst⟩
      exact ⟨(edgeTo args kind pair item, row), (hex _).mpr ⟨⟨item, rfl⟩, hg, hst⟩, ho item⟩
  unfold syncKind at hrt
  simp only [bind_eq_bind, returns_read_bind] at hrt
  obtain ⟨_, m, k, hl, hu⟩ := hrt.parts
  have hn : (desired.eraseDups.filter (· ∉ (existing db).map fun e => other e.1)).Nodup :=
    (nodup_eraseDups _).filter _
  obtain ⟨he, hfr, hln⟩ := returns_edgeLinks hdr hp hn hl
  obtain ⟨hed, hg⟩ := returns_edgeUnlinks hdr hu
  simp only [mem_filter, mem_eraseDups, decide_eq_true_eq, ha] at hfr hln
  have hre : ∀ item, item ∈ ((existing db).map fun e => other e.1).filter
      (fun item => decide (item ∉ desired.eraseDups)) ↔
        ActiveAt db (edgeTo args kind pair item) ∧ item ∉ desired := by
    simp [mem_filter, mem_eraseDups, ha, implies_true]
  have hin : Function.Injective (edgeTo args kind pair) := edgeTo_injective hp
  have hdl : ∀ item, ActiveAt db (edgeTo args kind pair item) → item ∉ desired →
      after.edges.get (edgeTo args kind pair item) = none := by
    intro item hi hds
    rw [hg, if_pos ⟨item, (hre item).mpr ⟨hi, hds⟩, rfl⟩]
  have hs : ∀ item, ¬ (ActiveAt db (edgeTo args kind pair item) ∧ item ∉ desired) →
      after.edges.get (edgeTo args kind pair item) = m.edges.get (edgeTo args kind pair item) := by
    intro item hi
    rw [hg, if_neg]
    rintro ⟨found, hf, heq⟩
    obtain rfl := hin heq
    exact hi ((hre _).mp hf)
  have hun : ∀ item, ¬ (item ∈ desired ∧ ¬ ActiveAt db (edgeTo args kind pair item)) →
      m.edges.get (edgeTo args kind pair item) = db.edges.get (edgeTo args kind pair item) := by
    intro item hi
    refine hfr _ fun found hf heq => hi ?_
    obtain rfl := hin heq
    exact hf
  constructor
  · exact he.trans hed
  · intro key hk
    rw [hg, if_neg fun ⟨found, _, heq⟩ => hk found heq, hfr key fun found _ => hk found]
  · intro item hds hi
    rw [hs item fun hrm => hrm.2 hds, hun item fun had => had.2 hi]
  · intro item hds hi
    obtain ⟨detectedBy, id, hd, hr⟩ := hln item ⟨hds, hi⟩
    refine ⟨detectedBy, id, hd, ?_⟩
    rw [hs item fun hrm => hi hrm.1, hr]
  · exact fun item hds hi => hdl item hi hds
  · intro item hds hi
    rw [hs item fun hrm => hi hrm.1, hun item fun had => hds had.1]

end Converging

def supportsKey (args : RelationArgs) : Nat → EdgeKey :=
  edgeTo args .supports fun source => (source, args.modelId)

def contributesKey (args : RelationArgs) : Nat → EdgeKey :=
  edgeTo args .contributesToResolution fun source => (source, args.modelId)

def instanceKey (args : RelationArgs) : Nat → EdgeKey :=
  edgeTo args .instanceOf fun target => (args.modelId, target)

section Relations

variable {now : Nat} {args : RelationArgs} {r : Unit}

variable {kind : RegistryKind} {keyOf : Nat → EdgeKey} {supplied : Option (List Nat)}
  {modelId : Nat}

theorem returns_syncIncomingKind (hd : (edgeRegistry kind).isDirected)
    (hr : Tx.Returns apply (syncIncomingKind now kind args desired) db n r after left) :
    Converged db after now args (edgeTo args kind fun source => (source, args.modelId))
      desired := by
  refine returns_syncKind hd (fun item other he => (Prod.mk.inj he).1) (fun item => rfl)
    (fun ⟨key, row⟩ => ?_) hr
  simp only [mem_filter, mem_rows_iff, mem_singleton, decide_eq_true_eq]
  constructor
  · rintro ⟨hg, ht, htg, hk, ha⟩
    exact ⟨⟨key.source, by simp [edgeTo, ← ht, ← htg, ← hk]⟩, hg, ha⟩
  · rintro ⟨⟨item, rfl⟩, hg, ha⟩
    exact ⟨hg, rfl, rfl, rfl, ha⟩

theorem returns_syncOutgoingKind (hd : (edgeRegistry kind).isDirected)
    (hr : Tx.Returns apply (syncOutgoingKind now kind args desired) db n r after left) :
    Converged db after now args (edgeTo args kind fun target => (args.modelId, target))
      desired := by
  refine returns_syncKind hd (fun item other he => (Prod.mk.inj he).2) (fun item => rfl)
    (fun ⟨key, row⟩ => ?_) hr
  simp only [mem_filter, mem_rows_iff, mem_singleton, decide_eq_true_eq]
  constructor
  · rintro ⟨hg, ht, hs, hk, ha⟩
    exact ⟨⟨key.target, by simp [edgeTo, ← ht, ← hs, ← hk]⟩, hg, ha⟩
  · rintro ⟨⟨item, rfl⟩, hg, ha⟩
    exact ⟨hg, rfl, rfl, rfl, ha⟩

/-- A kind that the call leaves alone when it supplies no list for it. -/
def ConvergedIfGiven (db after : ModelDb) (now : Nat) (args : RelationArgs)
    (keyOf : Nat → EdgeKey) : Option (List Nat) → Prop
  | none => after = db
  | some desired => Converged db after now args keyOf desired

def Desired (db : ModelDb) (keyOf : Nat → EdgeKey) (supplied : Option (List Nat))
    (item : Nat) : Prop :=
  match supplied with
  | none => ActiveAt db (keyOf item)
  | some items => item ∈ items

section

variable (hc : ConvergedIfGiven db after now args keyOf supplied)

include hc

theorem ConvergedIfGiven.edgesOnly : EdgesOnly db after := by
  cases supplied with
  | none =>
    obtain rfl : after = db := hc
    exact .refl _
  | some desired => exact Converged.edgesOnly hc

theorem ConvergedIfGiven.frame (hk : ∀ item, keyOf item ≠ key) : after.edges.get key =
    db.edges.get key := by
  cases supplied with
  | none =>
    obtain rfl : after = db := hc
    rfl
  | some desired => exact Converged.frame hc key hk

end

theorem linkedRow_newRow_status (existing : Option EdgeRow) (detectedBy : EdgeDetectedBy)
    (id : Nat) : (linkedRow existing now (args.newRow detectedBy now id)).status =
      (existing.map EdgeRow.status).getD .active := by
  cases existing <;> rfl

/-- After convergence the active edges are the desired ones, except those that
an edge no longer active stands in for. -/
theorem ConvergedIfGiven.activeAt_iff
    (hc : ConvergedIfGiven db after now args keyOf supplied) (item : Nat) :
    ActiveAt after (keyOf item) ↔ Desired db keyOf supplied item ∧ ¬ StaleAt db (keyOf item) := by
  have hex : ActiveAt db (keyOf item) → ¬ StaleAt db (keyOf item) := by
    rintro ⟨row, hg, hac⟩ ⟨other, ho, hs⟩
    rw [hg] at ho
    exact hs (Option.some.inj ho ▸ hac)
  cases supplied with
  | none =>
    obtain rfl : after = db := hc
    exact ⟨fun hac => ⟨hac, hex hac⟩, fun hd => hd.1⟩
  | some desired =>
    have hc : Converged db after now args keyOf desired := hc
    by_cases hd : item ∈ desired
    · by_cases hac : ActiveAt db (keyOf item)
      · rw [activeAt_congr (hc.kept item hd hac)]
        exact ⟨fun _ => ⟨hd, hex hac⟩, fun _ => hac⟩
      · obtain ⟨detectedBy, id, -, hr⟩ := hc.added item hd hac
        constructor
        · rintro ⟨row, hg, hst⟩
          refine ⟨hd, fun ⟨old, hold, hs⟩ => hs ?_⟩
          rw [hr, hold] at hg
          rw [← hst, ← Option.some.inj hg]
          rfl
        · rintro ⟨-, hs⟩
          refine ⟨_, hr, ?_⟩
          rw [linkedRow_newRow_status, absent_of_not_active_not_stale hac hs]
          rfl
    · refine ⟨fun hac => ?_, fun ha => absurd ha.1 hd⟩
      by_cases hb : ActiveAt db (keyOf item)
      · obtain ⟨row, hg, -⟩ := hac
        rw [hc.removed item hd hb] at hg
        cases hg
      · exact absurd ((activeAt_congr (hc.untouched item hd hb)).mp hac) hb

theorem returns_forSome_converged
    (hs : ∀ desired, Tx.Returns apply (sync desired) db n r after left →
      Converged db after now args keyOf desired)
    (hr : Tx.Returns apply (Tx.forSome supplied sync) db n r after left) :
    ConvergedIfGiven db after now args keyOf supplied := by
  rcases returns_forSome.mp hr with ⟨rfl, rfl, -⟩ | ⟨desired, rfl, hb⟩
  · exact rfl
  · exact hs desired hb

/-- What a dimension of the array holds: what is supplied, or the other
endpoints of the edges there are, in whatever tenant. -/
def InPart (db : ModelDb) (modelId : Nat) (kind : RegistryKind) (supplied : Option (List Nat))
    (item : Nat) : Prop :=
  match supplied with
  | some items => item ∈ items
  | none =>
    ∃ tenantId, ActiveAt db (if kind = .supports then ⟨tenantId, item, modelId, kind⟩
      else ⟨tenantId, modelId, item, kind⟩)

theorem returns_arrayPart
    (hr : Tx.Returns apply (arrayPart supplied modelId kind) db n items after left) :
    db = after ∧ n = left ∧ ∀ item, item ∈ items ↔ InPart db modelId kind supplied item := by
  cases supplied with
  | some given =>
    obtain ⟨rfl, rfl, rfl⟩ := hr.ended
    exact ⟨rfl, rfl, fun _ => Iff.rfl⟩
  | none =>
    obtain ⟨rfl, rfl, rfl⟩ := returns_read.mp hr
    refine ⟨rfl, rfl, fun item => ?_⟩
    unfold InPart ActiveAt
    by_cases hk : kind = .supports <;>
    · simp only [hk, if_true, if_false, mem_map, mem_filter, mem_rows_iff, decide_eq_true_eq,
        Prod.exists]
      constructor
      · rintro ⟨⟨tenantId, source, target, _⟩, row, ⟨hg, rfl, rfl, ha⟩, rfl⟩
        exact ⟨tenantId, row, hg, ha⟩
      · rintro ⟨tenantId, row, hg, ha⟩
        exact ⟨_, row, ⟨hg, rfl, rfl, ha⟩, rfl⟩

/-- The array columns of the model mirror what the call desires; nothing else has
changed. -/
structure ArraysMirror (db after : ModelDb) (args : RelationArgs) : Prop where
  modelsOnly : ∃ models, after = { db with models }
  frame : ∀ id ≠ args.modelId, after.models.get id = db.models.get id
  absent : db.models.get args.modelId = none → after.models.get args.modelId = none
  arrays : ∀ row, db.models.get args.modelId = some row → ∃ supporting,
    after.models.get args.modelId = some { row with
      supportingModelIds := supporting
      contributingModels := args.contributesTo.getD row.contributingModels } ∧
    ((args.supports.isSome ∨ args.instanceOf.isSome) →
      ∀ item, item ∈ supporting ↔ InPart db args.modelId .supports args.supports item ∨
        InPart db args.modelId .instanceOf args.instanceOf item) ∧
    (¬ (args.supports.isSome ∨ args.instanceOf.isSome) → supporting = row.supportingModelIds)

@[simp] theorem returns_change :
    Tx.Returns apply (change w) db n v after left ↔ after = w db ∧ n = left := by
  unfold change
  rw [returns_query]
  simp [apply]

theorem returns_setSupporting (hr : db.models.get modelId = some row) (hrt : Tx.Returns apply
      (Tx.when (merged ≠ row.supportingModelIds) (setSupporting modelId merged)) db n r
      after left) : (∃ models, after = { db with models }) ∧ ∀ id, after.models.get id =
        if id = modelId then some { row with supportingModelIds := merged }
        else db.models.get id := by
  rcases returns_when.mp hrt with ⟨-, hse⟩ | ⟨hs, rfl, -⟩
  · obtain ⟨rfl, -⟩ := returns_change.mp hse
    refine ⟨⟨_, rfl⟩, fun id => ?_⟩
    rw [get_update]
    by_cases hi : id = modelId
    · rw [if_pos hi, if_pos hi, hi, hr]
      rfl
    · rw [if_neg hi, if_neg hi]
  · obtain rfl : merged = row.supportingModelIds := by simpa using hs
    refine ⟨⟨_, rfl⟩, fun id => ?_⟩
    split
    · next hi => rw [hi, hr]
    · rfl

theorem returns_setContributing
    (hr : Tx.Returns apply (Tx.forSome supplied (setContributing modelId)) db n
      r after left) : (∃ models, after = { db with models }) ∧ ∀ id, after.models.get id =
        if id = modelId then
          (db.models.get id).map fun row =>
            { row with contributingModels := supplied.getD row.contributingModels }
        else db.models.get id := by
  rcases returns_forSome.mp hr with ⟨rfl, rfl, -⟩ | ⟨contributesTo, rfl, hs⟩
  · refine ⟨⟨_, rfl⟩, fun id => ?_⟩
    cases db.models.get id <;> simp
  · obtain ⟨rfl, -⟩ := returns_change.mp hs
    refine ⟨⟨_, rfl⟩, fun id => ?_⟩
    rw [get_update]
    rfl

theorem returns_syncArrayColumns
    (hrt : Tx.Returns apply (syncArrayColumns args) db n r after left) :
    ArraysMirror db after args := by
  unfold syncArrayColumns at hrt
  by_cases hg : args.supports.isSome ∨ args.instanceOf.isSome
  · rw [if_pos hg] at hrt
    simp only [bind_eq_bind, returns_read_bind] at hrt
    cases hc : db.models.get args.modelId with
    | none =>
      rw [hc] at hrt
      obtain ⟨-, rfl, -⟩ := hrt.ended
      exact ⟨⟨_, rfl⟩, fun _ _ => rfl, id, fun row hr => by
        rw [hc] at hr
        cases hr⟩
    | some row =>
      rw [hc] at hrt
      obtain ⟨supPart, _, _, hsu, hrt⟩ := hrt.parts
      obtain ⟨rfl, rfl, hsp⟩ := returns_arrayPart hsu
      obtain ⟨instPart, _, _, hin, hrt⟩ := hrt.parts
      obtain ⟨rfl, rfl, hi⟩ := returns_arrayPart hin
      obtain ⟨_, m, _, hm, hrt⟩ := hrt.parts
      obtain ⟨⟨_, rfl⟩, hmd⟩ := returns_setSupporting hc hm
      obtain ⟨⟨_, rfl⟩, ha⟩ := returns_setContributing hrt
      refine ⟨⟨_, rfl⟩, fun id hid => ?_, fun hn => ?_, fun found hf => ?_⟩
      · rw [ha, if_neg hid, hmd, if_neg hid]
      · rw [hc] at hn
        cases hn
      · cases hc.symm.trans hf
        refine ⟨(supPart ++ instPart).eraseDups, ?_, fun _ item => ?_, fun hnt => absurd hg hnt⟩
        · rw [ha, if_pos rfl, hmd, if_pos rfl]
          rfl
        · rw [mem_eraseDups, mem_append, hsp, hi]
  · rw [if_neg hg] at hrt
    obtain ⟨⟨_, rfl⟩, ha⟩ := returns_setContributing hrt
    refine ⟨⟨_, rfl⟩, fun id hid => ?_, fun hn => ?_, fun row hr =>
      ⟨row.supportingModelIds, ?_, fun hs => absurd hs hg, fun _ => rfl⟩⟩
    · rw [ha, if_neg hid]
    · rw [ha, if_pos rfl, hn]
      rfl
    · rw [ha, if_pos rfl, hr]
      rfl

/-- The singleton edge to a replacement, if one is supplied. -/
structure SupersededLinked (db after : ModelDb) (args : RelationArgs) : Prop where
  edgesOnly : EdgesOnly db after
  frame : ∀ key : EdgeKey, key.kind ≠ .registry .supersededBy →
    after.edges.get key = db.edges.get key
  unchanged : args.supersededBy = none → after = db

theorem returns_setModelRelations
    (hr : Tx.Returns apply (setModelRelations now args) db n r after left) :
    ∃ supported contributed instanced superseded,
      ConvergedIfGiven db supported now args (supportsKey args) args.supports ∧
      ConvergedIfGiven supported contributed now args (contributesKey args) args.contributesTo ∧
      ConvergedIfGiven contributed instanced now args (instanceKey args) args.instanceOf ∧
      SupersededLinked instanced superseded args ∧
      ((args.updateArrays ∧ ArraysMirror superseded after args) ∨
        (args.updateArrays = false ∧ after = superseded)) := by
  obtain ⟨_, supported, _, hsp, hr⟩ := hr.parts
  obtain ⟨_, contributed, _, hc, hr⟩ := hr.parts
  obtain ⟨_, instanced, _, hi, hr⟩ := hr.parts
  obtain ⟨_, superseded, _, hs, hr⟩ := hr.parts
  refine ⟨supported, contributed, instanced, superseded,
    returns_forSome_converged (fun _ => returns_syncIncomingKind rfl) hsp,
    returns_forSome_converged (fun _ => returns_syncIncomingKind rfl) hc,
    returns_forSome_converged (fun _ => returns_syncOutgoingKind rfl) hi, ?_, ?_⟩
  · rcases returns_forSome.mp hs with ⟨-, rfl, -⟩ | ⟨target, hgv, hl⟩
    · exact ⟨.refl _, fun _ _ => rfl, fun _ => rfl⟩
    · obtain ⟨he, -, _, _, -, hg⟩ := returns_edgeLink rfl hl
      refine ⟨he, fun key hk => ?_, fun hn => ?_⟩
      · rw [hg, if_neg]
        rintro rfl
        exact hk rfl
      · rw [hn] at hgv
        cases hgv
  · rcases returns_when.mp hr with ⟨hu, ha⟩ | ⟨hu, rfl, -⟩
    · exact .inl ⟨hu, returns_syncArrayColumns ha⟩
    · exact .inr ⟨hu, rfl⟩

end Relations

end FyralisCore.Models
