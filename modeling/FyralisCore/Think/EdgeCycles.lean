import FyralisCore.Think.Placeholders
import FyralisCore.Think.PredictionSchedule

/-! The two cycle checks of edge operations: the search of the validator over the active edges
and the additions it has kept, and the query of `link` while these are applied in order. -/
namespace FyralisCore.Think.Validator

open Relation Relational Transaction PartialAccept List Models
open Models (EdgeKind EdgeKindSpec ModelDb EdgeCall EdgeEffect scopeGraph)
open Applier (EdgeOp ApplyContext DomainDb PendingIds)

inductive Walk (edge : Nat → Nat → Prop) : Nat → Nat → Nat → Prop where
  | here (a : Nat) : Walk edge 0 a a
  | step {n a b c : Nat} (hedge : edge a b) (hwalk : Walk edge n b c) : Walk edge (n + 1) a c

theorem exists_walk_iff : (∃ n, Walk edge n a c) ↔ ReflTransGen edge a c := by
  constructor
  · rintro ⟨n, hw⟩
    induction hw with
    | here a => exact .refl
    | step he _ ih => exact ih.head he
  · intro hrch
    induction hrch using ReflTransGen.head_induction_on with
    | refl => exact ⟨0, .here c⟩
    | head he _ ih =>
      obtain ⟨n, hw⟩ := ih
      exact ⟨n + 1, .step he hw⟩

/-- A walk ends inside or leaves over the border. -/
theorem Walk.exits {inside border : List Nat}
    (hcls : ∀ a ∈ inside, ∀ b, edge a b → b ∈ inside ∨ b ∈ border)
    (hw : Walk edge n a c) (ha : a ∈ inside) :
    c ∈ inside ∨ ∃ b ∈ border, ∃ m < n, Walk edge m b c := by
  induction hw with
  | here a => exact .inl ha
  | @step n a b c he hw ih =>
    rcases hcls a ha b he with hin | hb
    · refine (ih hin).imp_right ?_
      rintro ⟨d, hd, m, hm, ht⟩
      exact ⟨d, hd, m, Nat.lt_succ_of_lt hm, ht⟩
    · exact .inr ⟨b, hb, n, Nat.lt_succ_self n, hw⟩

def Follows (targets : List Nat → List Nat) (edge : Nat → Nat → Prop) : Prop :=
  ∀ frontier b, b ∈ targets frontier ↔ ∃ a ∈ frontier, edge a b

/-- What the loop has seen leads to what it has seen or to the frontier. -/
def Expanded (edge : Nat → Nat → Prop) (seen frontier : List Nat) : Prop :=
  ∀ a ∈ seen, ∀ b, edge a b → b ∈ seen ∨ b ∈ frontier

theorem mem_fresh {seen frontier : List Nat} (hm : a ∈ frontier) :
    a ∈ frontier.filter (· ∉ seen) ++ seen := by
  by_cases hs : a ∈ seen <;> simp [hm, hs]

section

variable {targets : List Nat → List Nat}

theorem Expanded.next {frontier : List Nat} (hfo : Follows targets edge)
    (hex : Expanded edge seen frontier) : Expanded edge (frontier.filter (· ∉ seen) ++ seen)
    (targets (frontier.filter (· ∉ seen))) := by
  intro a ha b he
  rcases mem_append.mp ha with hf | hs
  · exact .inr ((hfo _ b).mpr ⟨a, hf, he⟩)
  · rcases hex a hs b he with ho | hfr
    · exact .inl (mem_append_right _ ho)
    · exact .inl (mem_fresh hfr)

theorem reaches_spec (hfo : Follows targets edge) {frontier : List Nat} {source fuel : Nat}
    (hex : Expanded edge seen frontier) (hs : source ∉ seen) {found : Bool}
    (hen : reaches targets source fuel seen frontier = some found) : found ↔ ∃ a ∈ frontier, ∃ n,
    Walk edge n a source := by
  induction fuel generalizing seen frontier with
  | zero => cases hen
  | succ fuel ih =>
    have hnx := hex.next hfo
    rw [reaches] at hen
    split at hen
    · next hnl =>
      cases hen
      rw [hnl, nil_append] at hnx
      have hsn : ∀ a ∈ frontier, a ∈ seen := by simpa [filter_eq_nil_iff] using hnl
      refine iff_of_false Bool.false_ne_true ?_
      rintro ⟨a, ha, n, hw⟩
      have hn : targets [] = [] :=
        eq_nil_iff_forall_not_mem.mpr fun b hb => by simpa using (hfo [] b).mp hb
      rcases hw.exits hnx (hsn a ha) with hi | ⟨b, hb, -⟩
      · exact hs hi
      · rw [hn] at hb
        cases hb
    · split at hen
      · next hf =>
        cases hen
        exact iff_of_true rfl ⟨source, (mem_filter.mp hf).1, 0, .here source⟩
      · next hf =>
        have ho : source ∉ frontier.filter (· ∉ seen) ++ seen := by
          simpa [hs] using hf
        rw [ih hnx ho hen]
        constructor
        · rintro ⟨b, hb, n, hw⟩
          obtain ⟨a, ha, he⟩ := (hfo _ b).mp hb
          exact ⟨a, (mem_filter.mp ha).1, n + 1, .step he hw⟩
        · rintro ⟨a, ha, n, hw⟩
          obtain ⟨b, hb, m, -, ht⟩ := (hw.exits hnx (mem_fresh ha)).resolve_left ho
          exact ⟨b, hb, m, ht⟩

/-- The guard lets a search end that reaches all it reaches in fewer steps. -/
theorem reaches_ends (hf : Follows targets edge) {frontier : List Nat} {source fuel : Nat}
    (hex : Expanded edge seen frontier) (hnr : ∀ b, (∃ a ∈ frontier, ∃ n, Walk edge n a b) →
    b ∈ seen ∨ ∃ a ∈ frontier, ∃ n < fuel, Walk edge n a b) : reaches targets source
    (fuel + 1) seen frontier ≠ none := by
  induction fuel generalizing seen frontier with
  | zero =>
    have hnl : frontier.filter (· ∉ seen) = [] := by
      rw [filter_eq_nil_iff]
      intro a ha
      rcases hnr a ⟨a, ha, 0, .here a⟩ with hs | ⟨_, _, _, hl, _⟩
      · simpa using hs
      · cases hl
    rw [reaches, if_pos hnl]
    simp
  | succ fuel ih =>
    have hn := hex.next hf
    rw [reaches]
    split
    · simp
    · split
      · simp
      · refine ih hn fun b hr => ?_
        obtain ⟨c, hc, n, hw⟩ := hr
        obtain ⟨a, ha, hed⟩ := (hf _ c).mp hc
        rcases hnr b ⟨a, (mem_filter.mp ha).1, n + 1, .step hed hw⟩ with
          hs | ⟨d, hd, m, hm, hnr⟩
        · exact .inl (mem_append_right _ hs)
        · refine (hnr.exits hn (mem_fresh hd)).imp_right ?_
          rintro ⟨e, he, k, hk, ht⟩
          exact ⟨e, he, k, by omega, ht⟩

end

section

variable (db : DomainDb) (tenantId : Nat)

/-- The active edges of the scope, and the additions kept before. -/
def proposedGraph (scope : List EdgeKind) (earlier : List EdgeOp) (a b : Nat) : Prop :=
  scopeGraph db.models tenantId scope a b ∨ ∃ op ∈ earlier, op.op = .add ∧ op.edgeKind ∈ scope ∧
    op.sourceModelId = a ∧ op.targetModelId = b

/-- The edge lies on a cycle of the scope of its kind. -/
def ClosesCycle (earlier : List EdgeOp) (op : EdgeOp) : Prop :=
  ∃ spec scope, resolveEdgeKindSpec db.models tenantId op.edgeKind = .ok spec ∧
    spec.cycleScope = some scope ∧
      ReflTransGen (proposedGraph db tenantId scope earlier) op.targetModelId op.sourceModelId

/-- Whatever the search reaches it reaches in at most 510 steps. -/
def WithinGuard (earlier : List EdgeOp) (op : EdgeOp) : Prop :=
  ∀ spec scope, resolveEdgeKindSpec db.models tenantId op.edgeKind = .ok spec →
    spec.cycleScope = some scope → ∀ b n,
      Walk (proposedGraph db tenantId scope earlier) n op.targetModelId b →
        ∃ m ≤ 510, Walk (proposedGraph db tenantId scope earlier) m op.targetModelId b

end

theorem scopeTargets_follows (db : DomainDb) (tenantId : Nat) (scope : List EdgeKind)
    (earlier : List EdgeOp) : Follows (scopeTargets db tenantId scope earlier)
      (proposedGraph db tenantId scope earlier) := by
  intro frontier b
  simp only [scopeTargets, proposedGraph, scopeGraph_iff, mem_append, mem_map,
    mem_filter, decide_eq_true_eq]
  constructor
  · rintro (⟨⟨⟨tenant, source, target, kind⟩, row⟩, ⟨hr, ht, hs, hk, hac⟩, rfl⟩ |
      ⟨op, ⟨hm, had, hk, hs⟩, rfl⟩)
    · cases ht
      exact ⟨source, hs, .inl ⟨kind, hk, row, (Table.mem_rows_iff ..).mp hr, hac⟩⟩
    · exact ⟨_, hs, .inr ⟨op, hm, had, hk, rfl, rfl⟩⟩
  · rintro ⟨a, ha, ⟨kind, hk, row, hg, hac⟩ | ⟨op, hm, had, hk, rfl, rfl⟩⟩
    · exact .inl ⟨(_, row), ⟨(Table.mem_rows_iff ..).mpr hg, rfl, ha, hk, hac⟩, rfl⟩
    · exact .inr ⟨op, ⟨hm, had, hk, ha⟩, rfl⟩

theorem edgeWouldCreateCycle_spec {db : DomainDb} {earlier : List EdgeOp} {op : EdgeOp}
    {cycle : Bool} (hc : edgeWouldCreateCycle db tenantId earlier op = .ok cycle) :
    cycle ↔ ClosesCycle db tenantId earlier op := by
  obtain ⟨spec, hsp, hc⟩ := bind_eq_ok_iff.mp hc
  have hr : resolveEdgeKindSpec db.models tenantId op.edgeKind = .ok spec := by
    cases hm : resolveEdgeKindSpec db.models tenantId op.edgeKind <;> simp_all [ofModelError]
  unfold ClosesCycle
  rw [hr]
  cases hs : spec.cycleScope with
  | none =>
    simp only [hs] at hc
    cases hc
    simp [hs]
  | some scope =>
    simp only [hs] at hc
    split at hc
    · next found he =>
      cases hc
      rw [reaches_spec (scopeTargets_follows db tenantId scope earlier) (by simp [Expanded])
        (by simp) he]
      simp [hs, exists_walk_iff]
    · cases hc

theorem edgeWouldCreateCycle_decides {db : DomainDb} {earlier : List EdgeOp} {op : EdgeOp}
    {spec : EdgeKindSpec}
    (hr : resolveEdgeKindSpec db.models tenantId op.edgeKind = .ok spec)
    (hg : WithinGuard db tenantId earlier op) :
    ∃ cycle, edgeWouldCreateCycle db tenantId earlier op = .ok cycle := by
  simp only [edgeWouldCreateCycle, hr, ofModelError, bind, Except.bind]
  cases hs : spec.cycleScope with
  | none => exact ⟨false, rfl⟩
  | some scope =>
    have he : reaches (scopeTargets db tenantId scope earlier) op.sourceModelId (511 + 1) []
        [op.targetModelId] ≠ none := by
      apply reaches_ends (scopeTargets_follows db tenantId scope earlier) (by simp [Expanded])
      rintro b ⟨a, ha, n, hw⟩
      rw [mem_singleton] at ha
      subst ha
      obtain ⟨m, hm, hsh⟩ := hg spec scope hr hs b n hw
      exact .inr ⟨_, .head _, m, by omega, hsh⟩
    obtain ⟨found, hf⟩ := Option.ne_none_iff_exists'.mp he
    refine ⟨found, ?_⟩
    dsimp only
    rw [show depthGuard = 511 + 1 from rfl, hf]
    rfl

/-- The addition between the same models. -/
def SameEdge (kept op : EdgeOp) : Prop :=
  kept.op = op.op ∧ kept.sourceModelId = op.sourceModelId ∧
    kept.targetModelId = op.targetModelId ∧ kept.edgeKind = op.edgeKind

theorem sameEdge_normalized (op : EdgeOp) (verified : Bool) :
    SameEdge (normalizeEdgeReviewStatus op verified) op := by
  unfold normalizeEdgeReviewStatus
  split <;> exact ⟨rfl, rfl, rfl, rfl⟩

theorem sameEdge_enforced (rules : ValidatorRules) (db : DomainDb) (op : EdgeOp) :
    SameEdge (enforceEdgeSpecificity rules db op) op := by
  unfold enforceEdgeSpecificity
  dsimp only
  split <;> exact ⟨rfl, rfl, rfl, rfl⟩

theorem SameEdge.trans (h1 : SameEdge kept middle) (h2 : SameEdge middle op) : SameEdge kept op :=
  ⟨h1.1.trans h2.1, h1.2.1.trans h2.2.1, h1.2.2.1.trans h2.2.2.1, h1.2.2.2.trans h2.2.2.2⟩

theorem SameEdge.closesCycle_iff (hs : SameEdge kept op) :
    ClosesCycle db tenantId earlier kept ↔ ClosesCycle db tenantId earlier op := by
  obtain ⟨-, hsr, ht, hk⟩ := hs
  rw [ClosesCycle, ClosesCycle, hsr, ht, hk]

theorem canonicalizeEdgeSemantics_op (rules : ValidatorRules) (db : DomainDb) (op : EdgeOp) :
    (canonicalizeEdgeSemantics rules db op).op = op.op := by
  unfold canonicalizeEdgeSemantics refined
  split
  · rfl
  · split
    · rfl
    · split <;> rfl

/-- An operation that passes all else is let go where it closes a cycle, and kept elsewhere. -/
theorem validateEdgeOp_spec {rules : ValidatorRules} {db : DomainDb} {given : EdgeOp}
    {r : Option EdgeOp}
    (hv : validateEdgeOp rules db tenantId pending earlier given = .ok r) :
    (r = none ↔ given.op = .add ∧
        ClosesCycle db tenantId earlier (canonicalizeEdgeSemantics rules db given)) ∧
      ∀ kept, r = some kept → SameEdge kept (canonicalizeEdgeSemantics rules db given) := by
  have ha := canonicalizeEdgeSemantics_op rules db given
  generalize hcn : canonicalizeEdgeSemantics rules db given = canonical at ha
  unfold validateEdgeOp at hv
  rw [hcn] at hv
  obtain ⟨-, -, hv⟩ := bind_eq_ok_iff.mp hv
  obtain ⟨-, -, hv⟩ := bind_eq_ok_iff.mp hv
  obtain ⟨-, -, hv⟩ := bind_eq_ok_iff.mp hv
  rw [← ha]
  have hkn : SameEdge (EdgeOp.withKnownSource canonical) canonical := ⟨rfl, rfl, rfl, rfl⟩
  cases ho : canonical.op with
  | retire =>
    simp only [hkn.1, ho] at hv
    cases hv
    exact ⟨by simp, fun kept hk => Option.some.inj hk ▸ hkn⟩
  | add =>
    simp only [hkn.1, ho] at hv
    obtain ⟨-, -, hv⟩ := bind_eq_ok_iff.mp hv
    obtain ⟨cycle, hc, hv⟩ := bind_eq_ok_iff.mp hv
    have hs : ∀ verified, SameEdge (enforceEdgeSpecificity rules db
        (normalizeEdgeReviewStatus (EdgeOp.withKnownSource canonical) verified)) canonical :=
      fun verified => (sameEdge_enforced rules db _).trans
        ((sameEdge_normalized _ verified).trans hkn)
    have hsp := (edgeWouldCreateCycle_spec hc).trans (hs _).closesCycle_iff
    cases cycle with
    | true =>
      cases hv
      simpa using hsp
    | false =>
      cases hv
      simp only [Bool.false_eq_true, false_iff] at hsp
      simpa [hsp] using hs _

def edgeCall (ctx : ApplyContext) (op : EdgeOp) : EdgeCall :=
  match op.op with
  | .add => .link ctx.clock.transactionNow (op.link ctx)
  | .retire =>
    .retire ctx.clock.transactionNow op.sourceModelId op.targetModelId op.edgeKind ctx.tenantId
      (Applier.textOr op.reason "edge_op_retire")

/-- The operations one after another; one that is refused or skipped is passed over. -/
inductive Applied (ctx : ApplyContext) (pending : PendingIds) (db : ModelDb) :
    List EdgeOp → ModelDb → Prop where
  | start : Applied ctx pending db [] db
  | next {ops : List EdgeOp} {op : EdgeOp} {middle after : ModelDb} {supply left : Nat}
    (hbefore : Applied ctx pending db ops middle)
    (hreturns : Tx.Returns ModelDb.apply (edgeCall ctx (op.resolvePending pending)).run middle
      supply () after left) : Applied ctx pending db (ops ++ [op]) after
  | passedOver {ops : List EdgeOp} {op : EdgeOp} {middle : ModelDb}
    (hbefore : Applied ctx pending db ops middle) : Applied ctx pending db (ops ++ [op]) middle

/-- The models that the additions or the active edges of the tenant name. -/
def Named (db : ModelDb) (tenantId : Nat) (ops : List EdgeOp) (id : Nat) : Prop :=
  (∃ op ∈ ops, op.op = .add ∧ (op.sourceModelId = id ∨ op.targetModelId = id)) ∨
    ∃ key row, db.edges.get key = some row ∧ key.tenantId = tenantId ∧ row.status = .active ∧
      (key.source = id ∨ key.target = id)

/-- The additions of the kinds that have a scope are of directed kinds, none is turned around,
and placeholders stand for models of their own, without edges. -/
structure AppliedAsChecked (db : ModelDb) (tenantId : Nat) (pending : PendingIds)
    (ops : List EdgeOp) : Prop where
  directed : ∀ op ∈ ops, op.op = .add → ∀ spec,
    resolveEdgeKindSpec db tenantId op.edgeKind = .ok spec → spec.cycleScope ≠ none →
      spec.isDirected
  unturned : ∀ op ∈ ops, op.op = .add → (Applier.DiffOp.edge op).isTurned pending = false
  own : Set.InjOn pending.resolve {id | Named db tenantId ops id}
  fresh : ∀ key row, db.edges.get key = some row → key.tenantId = tenantId →
    row.status = .active → pending.resolve key.source = key.source ∧
      pending.resolve key.target = key.target

variable {ctx : ApplyContext} {pending : PendingIds} {start middle after : ModelDb}

theorem proposals_of_effect (he : EdgeEffect db call after) : after.proposals = db.proposals := by
  cases he with
  | link => exact linkedDb_proposals ..
  | unlink | retire | markInert => rfl

theorem Applied.proposals_eq (ha : Applied ctx pending start ops after) :
    after.proposals = start.proposals := by
  induction ha with
  | start => rfl
  | next _ hr ih => exact (proposals_of_effect (EdgeCall.effect hr)).trans ih
  | passedOver _ ih => exact ih

/-- Each kind of a scope has a scope. -/
theorem cycleScope_ne_none {spec member : EdgeKindSpec} {other : EdgeKind}
    (hsp : resolveEdgeKindSpec db tenantId kind = .ok spec)
    (hs : spec.cycleScope = some scope) (ho : other ∈ scope)
    (hm : resolveEdgeKindSpec db tenantId other = .ok member) :
    member.cycleScope ≠ none := by
  have hr : ∀ base : Models.RegistryKind, ∀ kinds,
      (edgeRegistry base).cycleScope = some kinds → other ∈ kinds → member.cycleScope ≠ none := by
    intro base kinds hk hi
    obtain ⟨shared, rfl, hsh⟩ := cycleScope_shared hk hi
    rw [resolveEdgeKindSpec_registry] at hm
    cases hm
    simp [hsh]
  cases kind with
  | registry kind =>
    rw [resolveEdgeKindSpec_registry] at hsp
    cases hsp
    exact hr kind scope hs ho
  | dynamic text =>
    cases hp : loadAcceptedProposal db tenantId (.dynamic text) with
    | none => simp [resolveEdgeKindSpec, assertWritable, hp] at hsp
    | some proposal =>
      obtain rfl : specFromProposal (.dynamic text) proposal = spec := by
        simpa [resolveEdgeKindSpec, assertWritable, hp] using hsp
      obtain ⟨kinds, hk, rfl⟩ := Option.map_eq_some_iff.mp hs
      rcases mem_cons.mp ho with rfl | hi
      · rw [hsp] at hm
        cases hm
        simp [hs]
      · exact hr _ kinds hk hi

theorem resolvePending_of_unturned (hu : (Applier.DiffOp.edge op).isTurned pending = false) :
    op.resolvePending pending = { op with
      sourceModelId := pending.resolve op.sourceModelId
      targetModelId := pending.resolve op.targetModelId } := by
  unfold Applier.DiffOp.isTurned at hu
  unfold EdgeOp.resolvePending
  rw [if_neg (by simpa using hu)]

/-- An edge that the calls have left was there, or is one that was kept before. -/
theorem Applied.scopeGraph_lifts {db : DomainDb}
    (hch : AppliedAsChecked db.models ctx.tenantId pending kept)
    (hsp : resolveEdgeKindSpec db.models ctx.tenantId kind = .ok spec)
    (hsc : spec.cycleScope = some scope)
    (hap : Applied ctx pending db.models ops after) (hops : ∀ op ∈ ops, op ∈ kept)
    (he : scopeGraph after ctx.tenantId scope x y) :
    ∃ a b, proposedGraph db ctx.tenantId scope ops a b ∧ pending.resolve a = x ∧
      pending.resolve b = y := by
  have hgr : ∀ {ops op a b}, proposedGraph db ctx.tenantId scope ops a b →
      proposedGraph db ctx.tenantId scope (ops ++ [op]) a b := by
    rintro ops op a b (hst | ⟨other, hm, ho⟩)
    · exact .inl hst
    · exact .inr ⟨other, mem_append_left _ hm, ho⟩
  induction hap generalizing x y with
  | start =>
    obtain ⟨member, hmb, row, hg, hac⟩ := (scopeGraph_iff ..).mp he
    obtain ⟨hsr, ht⟩ := hch.fresh _ row hg rfl hac
    exact ⟨x, y, .inl he, hsr, ht⟩
  | passedOver _ ih =>
    obtain ⟨a, b, hp, hen⟩ := ih (fun op hop => hops op (mem_append_left _ hop)) he
    exact ⟨a, b, hgr hp, hen⟩
  | @next ops op middle after n left hb hrt ih =>
    obtain ⟨member, hmb, row, hg, hac⟩ := (scopeGraph_iff ..).mp he
    rcases (EdgeCall.effect hrt).row_cases hg with
      hkp | ⟨now, args, own, _, _, hc, hn⟩
    · obtain ⟨old, hold, hw, -⟩ := hkp
      obtain ⟨a, b, hp, hen⟩ := ih (fun op hop => hops op (mem_append_left _ hop))
        ((scopeGraph_iff ..).mpr ⟨member, hmb, old, hold, hw hac⟩)
      exact ⟨a, b, hgr hp, hen⟩
    · have hop : op ∈ kept := hops op (by simp)
      cases ha : op.op with
      | retire =>
        have hs : (op.resolvePending pending).op = op.op := by
          unfold EdgeOp.resolvePending
          dsimp only
          split <;> rfl
        rw [edgeCall, hs, ha] at hc
        cases hc
      | add =>
        rw [resolvePending_of_unturned (hch.unturned op hop ha), edgeCall] at hc
        simp only [ha] at hc
        cases hc
        have hr := hn.passes.resolved
        rw [resolveEdgeKindSpec_congr _ _ hb.proposals_eq] at hr
        have hk : op.edgeKind = member := by
          rcases (betweenPair_iff ..).mp hn.between with heq | ⟨-, heq⟩
          · exact (congrArg Models.EdgeKey.kind heq).symm
          · exact (congrArg Models.EdgeKey.kind heq).symm
        have hd := hch.directed op hop ha own hr (cycleScope_ne_none hsp hsc (hk ▸ hmb) hr)
        rcases (betweenPair_iff ..).mp hn.between with heq | ⟨hsy, -⟩
        · obtain ⟨-, rfl, rfl, -⟩ := Models.EdgeKey.mk.inj heq
          exact ⟨_, _, .inr ⟨op, by simp, ha, hk ▸ hmb, rfl, rfl⟩, rfl, rfl⟩
        · rw [hd] at hsy
          cases hsy

/-- Where placeholders are models of their own, a path between their models is a path between
them. -/
theorem reflTransGen_of_renamed {edge image : Nat → Nat → Prop} {rename : Nat → Nat}
    (hi : Set.InjOn rename named) (hn : ∀ a b, edge a b → a ∈ named ∧ b ∈ named)
    (hl : ∀ x y, image x y → ∃ a b, edge a b ∧ rename a = x ∧ rename b = y) (ha : a ∈ named)
    (hr : ReflTransGen image (rename a) x) :
    ∃ b ∈ named, rename b = x ∧ ReflTransGen edge a b := by
  induction hr with
  | refl => exact ⟨a, ha, rfl, .refl⟩
  | tail _ hs ih =>
    obtain ⟨b, hb, rfl, hp⟩ := ih
    obtain ⟨c, d, he, heq, rfl⟩ := hl _ _ hs
    obtain ⟨hc, hd⟩ := hn c d he
    obtain rfl := hi hc hb heq
    exact ⟨d, hd, rfl, hp.tail he⟩

theorem named_of_proposed {db : DomainDb} (ho : ∀ op ∈ ops, op ∈ kept)
    (he : proposedGraph db tenantId scope ops a b) :
    Named db.models tenantId kept a ∧ Named db.models tenantId kept b := by
  rcases he with hs | ⟨op, hm, ha, -, hsr, ht⟩
  · obtain ⟨_, _, row, hg, hac⟩ := (scopeGraph_iff ..).mp hs
    exact ⟨.inr ⟨_, row, hg, rfl, hac, .inl rfl⟩, .inr ⟨_, row, hg, rfl, hac, .inr rfl⟩⟩
  · exact ⟨.inl ⟨op, ho op hm, ha, .inl hsr⟩, .inl ⟨op, ho op hm, ha, .inr ht⟩⟩

theorem never_refused_for_cycle {db : DomainDb}
    (hc : AppliedAsChecked db.models ctx.tenantId pending (before ++ op :: later))
    (hap : Applied ctx pending db.models before middle) (ha : op.op = .add)
    (hopn : ¬ ClosesCycle db ctx.tenantId before op)
    (hr : resolveEdgeKindSpec middle ctx.tenantId op.edgeKind = .ok spec) :
    ¬ Tx.Raises ModelDb.apply (checkNoCycle op.edgeKind
      (op.resolvePending pending).sourceModelId [(op.resolvePending pending).targetModelId]
        ctx.tenantId spec.cycleScope) middle n error := by
  have hm : ∀ other ∈ before, other ∈ before ++ op :: later :=
    fun other ho => mem_append_left _ ho
  have hop : op ∈ before ++ op :: later := by simp
  rw [resolvePending_of_unturned (hc.unturned op hop ha), raises_checkNoCycle]
  rw [resolveEdgeKindSpec_congr _ _ hap.proposals_eq] at hr
  cases hs : spec.cycleScope with
  | none => simp
  | some scope =>
    dsimp [Option.bind_some]
    by_cases hsf : pending.resolve op.sourceModelId = pending.resolve op.targetModelId
    · simp [cycleError, hsf]
    · rw [(cycleError_eq_none_iff hsf).mpr]
      · simp
      · intro hp
        have ht : Named db.models ctx.tenantId (before ++ op :: later) op.targetModelId :=
          .inl ⟨op, hop, ha, .inr rfl⟩
        obtain ⟨b, hb, heq, hrc⟩ := reflTransGen_of_renamed hc.own
          (fun _ _ he => named_of_proposed hm he)
          (fun _ _ he => hap.scopeGraph_lifts hc hr hs hm he) ht hp
        obtain rfl := hc.own hb (.inl ⟨op, hop, ha, .inl rfl⟩) heq
        exact hopn ⟨spec, scope, hr, hs, hrc⟩

/-- An addition is let go exactly where it would close a cycle with the active edges and the
additions kept before it, and the guard stops no search of fewer steps. Applied in order the
survivors are never refused for a cycle, as long as those of a kind with a scope are directed
and their placeholders are models of their own. -/
theorem survivors_close_no_cycle {vctx : ValidationContext} {diff : RawDiff} {pass : OpPass EdgeOp}
    (hpass : validateEdgeOps rules vctx diff placeholders = .ok pass) :
    (∀ before given rest earlier, diff.edgeOps = before ++ given :: rest →
      acceptEach (edgePolicy vctx.ctx.decimal)
          (validateEdgeOp rules vctx.db diff.tenantId placeholders) before = .ok earlier →
        (∀ result, validateEdgeOp rules vctx.db diff.tenantId placeholders earlier.kept given =
            .ok result →
          (result = none ↔ given.op = .add ∧ ClosesCycle vctx.db diff.tenantId earlier.kept
            (canonicalizeEdgeSemantics rules vctx.db given))) ∧
        ∀ op spec, resolveEdgeKindSpec vctx.db.models diff.tenantId op.edgeKind = .ok spec →
          WithinGuard vctx.db diff.tenantId earlier.kept op →
            ∃ cycle, edgeWouldCreateCycle vctx.db diff.tenantId earlier.kept op = .ok cycle) ∧
    ∀ (ctx : ApplyContext) (pending : PendingIds), ctx.tenantId = diff.tenantId →
      AppliedAsChecked vctx.db.models diff.tenantId pending pass.kept →
        ∀ before op later middle, pass.kept = before ++ op :: later → op.op = .add →
          Applied ctx pending vctx.db.models before middle → ∀ spec supply error,
            resolveEdgeKindSpec middle diff.tenantId op.edgeKind = .ok spec →
              ¬ Tx.Raises ModelDb.apply (checkNoCycle op.edgeKind
                (op.resolvePending pending).sourceModelId
                [(op.resolvePending pending).targetModelId] diff.tenantId spec.cycleScope) middle
                  supply error := by
  constructor
  · intro before given rest earlier _ _
    exact ⟨fun result hvalid => (validateEdgeOp_spec hvalid).1,
      fun op spec hresolved hguard => edgeWouldCreateCycle_decides hresolved hguard⟩
  · intro ctx pending htenant hchecked before op later middle hkept hadd happlied spec supply error
      hresolved
    rw [← htenant] at hchecked hresolved ⊢
    rw [hkept] at hchecked
    refine never_refused_for_cycle hchecked happlied hadd ?_ hresolved
    obtain ⟨given, -, hvalid⟩ := checked_of_kept hpass hkept
    obtain ⟨hdropped, hsame⟩ := validateEdgeOp_spec hvalid
    have hsame := hsame op rfl
    rw [htenant, hsame.closesCycle_iff]
    intro hcloses
    have haction : given.op = .add := by
      rw [← canonicalizeEdgeSemantics_op rules vctx.db given, ← hsame.1, hadd]
    exact Option.some_ne_none op (hdropped.mpr ⟨haction, hcloses⟩)

def mutualKind : EdgeKind := .dynamic ⟨"depends_mutually_on", by decide +kernel⟩

def plainEdge (edgeKind : EdgeKind) (source target : Nat) : EdgeOp where
  op := .add
  sourceModelId := source
  targetModelId := target
  edgeKind := edgeKind

def keptEdge (edgeKind : EdgeKind) (source target : Nat) : EdgeOp :=
  { plainEdge edgeKind source target with
    metadata := [("edge_specificity_score", .number "0.6")] }

def threeModels : DomainDb where
  models :=
    { models := (((∅ : Table Nat Models.ModelRow).put 1 Applier.plainModel).put 2
        Applier.plainModel).put 3 Applier.plainModel
      proposals := (∅ : Table (Nat × EdgeKind) Models.ProposalRow).put (0, mutualKind)
        { status := .accepted, directionality := .symmetric } }

def edgeDiff (edgeOps : List EdgeOp) : RawDiff where
  triggerRef := 7
  tenantId := 0
  edgeOps := edgeOps

open PostCommit (plainValidator plainContext)

theorem appliedAsChecked_support :
    AppliedAsChecked threeModels.models 0 ∅ [keptEdge (.registry .supports) 1 2] where
  directed := by
    intro op ho _ spec hr _
    obtain rfl := mem_singleton.mp ho
    cases hr
    rfl
  unturned := by
    intro op ho _
    obtain rfl := mem_singleton.mp ho
    rfl
  own := fun _ _ _ _ he => he
  fresh := by
    intro key row hg
    cases hg

theorem survivors_close_no_cycle_support :
    ClosesCycle threeModels 0 [keptEdge (.registry .supports) 1 2]
        (plainEdge (.registry .supports) 2 1) ∧
      ∀ spec supply error, resolveEdgeKindSpec threeModels.models 0 (.registry .supports) =
        .ok spec → ¬ Tx.Raises ModelDb.apply
          (checkNoCycle (.registry .supports) 1 [2] 0 spec.cycleScope) threeModels.models
            supply error := by
  have hpass : validateEdgeOps plainValidator ⟨plainContext, threeModels⟩
      (edgeDiff [plainEdge (.registry .supports) 1 2, plainEdge (.registry .supports) 2 1]) [] =
        .ok ⟨[keptEdge (.registry .supports) 1 2], 1, []⟩ := rfl
  constructor
  · exact ((((survivors_close_no_cycle hpass).1 [plainEdge (.registry .supports) 1 2]
      (plainEdge (.registry .supports) 2 1) []
        ⟨[keptEdge (.registry .supports) 1 2], 0, []⟩ rfl rfl).1 none rfl).mp rfl).2
  · exact (survivors_close_no_cycle hpass).2 plainContext ∅ rfl appliedAsChecked_support []
      (keptEdge (.registry .supports) 1 2) [] _ rfl rfl .start

def appliedOnce : Database ModelDb :=
  (⟨threeModels.models, 0⟩ : Database ModelDb).run ModelDb.apply
    (edgeCall plainContext (keptEdge mutualKind 1 2)).run

def appliedTwice : Database ModelDb :=
  appliedOnce.run ModelDb.apply (edgeCall plainContext (keptEdge mutualKind 1 3)).run

theorem applied_twice : Applied plainContext ∅ threeModels.models
      [keptEdge mutualKind 1 2, keptEdge mutualKind 1 3] appliedTwice.state := by
  have h1 : Applied plainContext ∅ threeModels.models ([] ++ [keptEdge mutualKind 1 2])
      appliedOnce.state :=
    @Applied.next _ _ _ [] (keptEdge mutualKind 1 2) _ _ 0 appliedOnce.supply .start rfl
  exact @Applied.next _ _ _ _ (keptEdge mutualKind 1 3) _ _ appliedOnce.supply
    appliedTwice.supply h1 rfl

/-- Three models that depend on each other mutually, two by two: the validator keeps the three
edges, and the third is refused for a cycle. -/
theorem mutual_triangle_refused :
    ∃ pass spec error, validateEdgeOps plainValidator ⟨plainContext, threeModels⟩ (edgeDiff
          [plainEdge mutualKind 1 2, plainEdge mutualKind 1 3, plainEdge mutualKind 2 3]) [] =
            .ok pass ∧
      pass.kept = [keptEdge mutualKind 1 2, keptEdge mutualKind 1 3, keptEdge mutualKind 2 3] ∧
      Applied plainContext ∅ threeModels.models [keptEdge mutualKind 1 2, keptEdge mutualKind 1 3]
        appliedTwice.state ∧ resolveEdgeKindSpec appliedTwice.state 0 mutualKind = .ok spec ∧
      Tx.Raises ModelDb.apply (checkNoCycle mutualKind
        ((keptEdge mutualKind 2 3).resolvePending ∅).sourceModelId
        [((keptEdge mutualKind 2 3).resolvePending ∅).targetModelId] 0 spec.cycleScope)
          appliedTwice.state 0 error := by
  refine ⟨⟨[keptEdge mutualKind 1 2, keptEdge mutualKind 1 3, keptEdge mutualKind 2 3], 0, []⟩,
    specFromProposal mutualKind { status := .accepted, directionality := .symmetric },
    .cycle mutualKind 2 [3] [mutualKind, .registry .supports, .registry .instanceOf], rfl, rfl,
    applied_twice, rfl, ?_⟩
  rfl

end FyralisCore.Think.Validator
