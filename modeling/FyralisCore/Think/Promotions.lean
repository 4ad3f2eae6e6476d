import FyralisCore.Think.RowsKept

/-! The promotion of re-evaluation rows: whatever the workers do, at most one
trigger of each row is uncompleted. What carries the check from its statement to
the commit is the row lock, which no two promotions hold. -/
namespace FyralisCore.Think

open Relational Transition List Table

variable {rowId : Nat} {t triggers : TriggerQueue} {promotion : Promotion}

theorem isPromoted_iff : isPromoted rowId row ↔
    row.triggerKind = .t4 ∧ row.payload.reevalRowId = some rowId ∧ row.completedAt = none := by
  simp [isPromoted, and_assoc]

@[simp] theorem isPromoted_promotedRow (now : Rat) (rowId other : Nat) (reeval : ReevalRow) :
    isPromoted other (promotedRow now rowId reeval) ↔ rowId = other := by
  simp [isPromoted, promotedRow, newTriggerRow]

def OpenFor (triggers : TriggerQueue) (rowId id : Nat) : Prop :=
  ∃ row, triggers.get id = some row ∧ isPromoted rowId row

def SingleTriggers (triggers : TriggerQueue) : Prop :=
  ∀ rowId id id', OpenFor triggers rowId id → OpenFor triggers rowId id' → id = id'

theorem RowsKept.openFor (hkp : RowsKept q t) {id : Nat}
    (ho : OpenFor t rowId id) : OpenFor q rowId id := by
  obtain ⟨row', hr', hp⟩ := ho
  obtain ⟨hk, hrv, hc⟩ := isPromoted_iff.mp hp
  rcases hkp.before hr' with ⟨row, hr, hrw⟩ | ⟨-, hpl⟩
  · refine ⟨row, hr, isPromoted_iff.mpr ⟨hrw.kind ▸ hk, hrw.reeval ▸ hrv, ?_⟩⟩
    by_contra hd
    exact hrw.completed hd hc
  · rw [hpl.notPromoted] at hrv
    cases hrv

/-- What an open promotion has found out and inserted still holds. -/
structure Promotion.Ready (triggers : TriggerQueue) (promotion : Promotion) : Prop where
  checked : ∀ rowId reeval rest, promotion.rows = (rowId, reeval) :: rest →
    promotion.absent → (∀ id, ¬OpenFor triggers rowId id) ∧
      ∀ record ∈ promotion.inserted, isPromoted rowId record.2 = false
  distinct : ∀ rowId, ∀ first ∈ promotion.inserted, ∀ second ∈ promotion.inserted,
    isPromoted rowId first.2 → isPromoted rowId second.2 → first = second
  unclaimed : ∀ rowId, ∀ record ∈ promotion.inserted, isPromoted rowId record.2 →
    ∀ id, ¬OpenFor triggers rowId id

theorem Promotion.Ready.shrink (hrd : promotion.Ready triggers)
    (ho : ∀ rowId ∈ promotion.locked, ∀ id, OpenFor t rowId id → OpenFor triggers rowId id)
    (hw : promotion.WellFormed) : promotion.Ready t where
  checked := by
    intro rowId reeval rest hrs ha
    obtain ⟨hn, hi⟩ := hrd.checked rowId reeval rest hrs ha
    have hl := hw.rows (rowId, reeval) (by rw [hrs]; exact .head _)
    exact ⟨fun id h => hn id (ho rowId hl id h), hi⟩
  distinct := hrd.distinct
  unclaimed := by
    intro rowId record hm hp id h
    obtain ⟨now, lockedId, reeval, hl, hr⟩ := hw.inserted record hm
    rw [hr, isPromoted_promotedRow] at hp
    refine hrd.unclaimed rowId record hm ?_ id (ho rowId (hp ▸ hl) id h)
    rw [hr, isPromoted_promotedRow]
    exact hp

variable {W : Type} [DecidableEq W]

structure PromotionInvariant (system : WorkerSystem W) : Prop where
  single : SingleTriggers system.db.triggers
  /-- no row is locked by two promotions -/
  exclusive : ∀ {worker other promotion otherPromotion rowId},
    system.promotions.get worker = some promotion →
    system.promotions.get other = some otherPromotion →
    rowId ∈ promotion.locked → rowId ∈ otherPromotion.locked → worker = other
  ready : ∀ {worker promotion}, system.promotions.get worker = some promotion →
    promotion.Ready system.db.triggers

variable {c : W → WorkerConfig} {system next : WorkerSystem W}

theorem PromotionInvariant.shrink (hi : PromotionInvariant system)
    (hw : WellPromoted system.promotions) (hk : RowsKept system.db.triggers next.db.triggers)
    (hp : ∀ worker promotion, next.promotions.get worker = some promotion →
      system.promotions.get worker = some promotion) : PromotionInvariant next where
  single := fun rowId id id' h h' =>
    hi.single rowId id id' (hk.openFor h) (hk.openFor h')
  exclusive := fun hg ho => hi.exclusive (hp _ _ hg) (hp _ _ ho)
  ready := fun hg => (hi.ready (hp _ _ hg)).shrink
    (fun _ _ _ h => hk.openFor h) (hw _ _ (hp _ _ hg))

variable {worker : W}

theorem PromotionInvariant.put (hi : PromotionInvariant system)
    (hex : ∀ {other otherPromotion rowId}, other ≠ worker →
      system.promotions.get other = some otherPromotion → rowId ∈ promotion.locked →
        rowId ∉ otherPromotion.locked) (hr : promotion.Ready system.db.triggers) :
    PromotionInvariant { system with promotions := system.promotions.put worker promotion } where
  single := hi.single
  exclusive := by
    intro first second firstPromotion secondPromotion rowId h1 h2 hm hm'
    rw [get_put] at h1 h2
    split at h1 <;> split at h2
    · next hf hs => exact hf.trans hs.symm
    · next hsc =>
      cases h1
      exact absurd hm' (hex hsc h2 hm)
    · next hfr _ =>
      cases h2
      exact absurd hm (hex hfr h1 hm')
    · exact hi.exclusive h1 h2 hm hm'
  ready := by
    intro other otherPromotion hg
    rw [get_put] at hg
    split at hg
    · cases hg
      exact hr
    · exact hi.ready hg

theorem mem_pendingReevals (hm : record ∈ pendingReevals workerConfig sees reevals) :
    reevals.get record.1 = some record.2 ∧ sees record.1 ∧ record.2.processedAt = none := by
  have hs := (mem_insertionSort _).mp (mem_of_mem_take hm)
  obtain ⟨hr, hc⟩ := mem_filter.mp hs
  simp only [Bool.and_eq_true, beq_iff_eq] at hc
  exact ⟨(mem_rows_iff reevals record.1 record.2).mp hr, hc.1.1.1, hc.1.1.2⟩

theorem reevalLocked_of_mem (hg : promotions.get worker = some promotion)
    (hm : rowId ∈ promotion.locked) : reevalLocked promotions rowId :=
  (any_iff _ _).mpr ⟨worker, promotion, hg, decide_eq_true hm⟩

theorem not_promotedInFlight (ha : promotedInFlight triggers promotion rowId = false) :
    (∀ id, ¬OpenFor triggers rowId id) ∧
      ∀ record ∈ promotion.inserted, isPromoted rowId record.2 = false := by
  rw [promotedInFlight, Bool.or_eq_false_iff] at ha
  refine ⟨fun id ⟨row, hr, hp⟩ => ?_, fun record hm => ?_⟩
  · rw [(any_iff _ _).mpr ⟨id, row, hr, hp⟩] at ha
    cases ha.1
  · exact Bool.eq_false_of_not_eq_true (any_eq_false.mp ha.2 record hm)

theorem openFor_insertFresh (hi : triggers.insertFresh inserted = some t) {id : Nat}
    (ho : OpenFor t rowId id) : OpenFor triggers rowId id ∨
      ∃ row, (id, row) ∈ inserted ∧ isPromoted rowId row := by
  obtain ⟨row, hr, hp⟩ := ho
  rcases get_insertFresh_cases hi hr with hold | hn
  · exact .inl ⟨row, hold, hp⟩
  · exact .inr ⟨row, hn, hp⟩

section

variable (hin : PromotionInvariant system) (hw : WellPromoted system.promotions)

include hin hw

theorem promotionInvariant_commit (hg : system.promotions.get worker = some promotion)
    (hi : system.db.triggers.insertFresh promotion.inserted = some triggers) : PromotionInvariant
      { system.setTriggers triggers with promotions := system.promotions.remove worker } where
  single := by
    intro rowId id id' hop ho'
    have hrd := hin.ready hg
    rcases openFor_insertFresh hi hop with hold | ⟨row, hm, hp⟩ <;>
      rcases openFor_insertFresh hi ho' with hold' | ⟨row', hm', hp'⟩
    · exact hin.single rowId id id' hold hold'
    · exact absurd hold (hrd.unclaimed rowId _ hm' hp' id)
    · exact absurd hold' (hrd.unclaimed rowId _ hm hp id')
    · exact congrArg Prod.fst (hrd.distinct rowId _ hm _ hm' hp hp')
  exclusive := by
    intro first second firstPromotion secondPromotion rowId h1 h2
    rw [get_remove] at h1 h2
    split at h1
    · cases h1
    · split at h2
      · cases h2
      · exact hin.exclusive h1 h2
  ready := by
    intro other otherPromotion ho
    rw [get_remove] at ho
    split at ho
    · cases ho
    · next hn =>
      refine (hin.ready ho).shrink (fun rowId hl id hop => ?_) (hw _ _ ho)
      rcases openFor_insertFresh hi hop with hold | ⟨row, hm, hp⟩
      · exact hold
      · -- The row would be locked by both promotions.
        obtain ⟨now, lockedId, reeval, hmn, hr⟩ := (hw _ _ hg).inserted _ hm
        rw [show row = promotedRow now lockedId reeval from hr, isPromoted_promotedRow] at hp
        exact absurd (hin.exclusive ho hg hl (hp ▸ hmn)) hn

theorem promotionInvariant_promotionMove (hmv : PromotionMove c system action next) :
    PromotionInvariant next := by
  cases hmv with
  | @locked worker sees rows hcl hrs =>
    refine hin.put (fun hne ho hm hm' => ?_) ⟨?_, ?_, ?_⟩
    · obtain ⟨record, hr, rfl⟩ := mem_map.mp hm
      have hse := (mem_pendingReevals (hrs ▸ hr)).2.1
      rw [reevalLocked_of_mem ho hm'] at hse
      simp at hse
    · exact fun _ _ _ _ ha => nomatch ha
    · exact fun _ _ hm => absurd hm not_mem_nil
    · exact fun _ _ hm => absurd hm not_mem_nil
  | inFlight hg =>
    have hrd := hin.ready hg
    refine hin.put (fun hne ho hm hm' =>
      hne (hin.exclusive ho hg hm' hm)) ⟨?_, hrd.distinct, hrd.unclaimed⟩
    exact fun _ _ _ _ ha => nomatch ha
  | absent hg ha =>
    have hrd := hin.ready hg
    refine hin.put (fun hne ho hm hm' =>
      hne (hin.exclusive ho hg hm' hm)) ⟨?_, hrd.distinct, hrd.unclaimed⟩
    intro rowId reeval rest hrs _
    obtain ⟨hh, -⟩ := List.cons.inj hrs
    obtain ⟨rfl, -⟩ := Prod.mk.inj hh
    exact not_promotedInFlight ha
  | @inserted worker rowId triggerId now reeval locked rest inserted hg =>
    have hrd := hin.ready hg
    obtain ⟨hn, hf⟩ := hrd.checked rowId reeval rest rfl rfl
    have hc : ∀ other record, record ∈ inserted ++ [(triggerId, promotedRow now rowId reeval)] →
        isPromoted other record.2 → record ∈ inserted ∧ other ≠ rowId ∨
          record = (triggerId, promotedRow now rowId reeval) ∧ other = rowId := by
      intro other record hm hp
      rcases mem_append.mp hm with hold | hnw
      · refine .inl ⟨hold, ?_⟩
        rintro rfl
        rw [hf record hold] at hp
        cases hp
      · obtain rfl := mem_singleton.mp hnw
        exact .inr ⟨rfl, ((isPromoted_promotedRow _ _ _ _).mp hp).symm⟩
    refine hin.put (fun hne ho hm hm' =>
      hne (hin.exclusive ho hg hm' hm)) ⟨?_, ?_, ?_⟩
    · exact fun _ _ _ _ ha => nomatch ha
    · intro other first h1 second h2 hp hp'
      rcases hc other first h1 hp with ⟨hold, hne⟩ | ⟨rfl, rfl⟩ <;>
        rcases hc _ second h2 hp' with ⟨hold', hn'⟩ | ⟨rfl, hs⟩
      · exact hrd.distinct other first hold second hold' hp hp'
      · exact absurd hs hne
      · exact absurd rfl hn'
      · rfl
    · intro other record hm hp
      rcases hc other record hm hp with ⟨hold, -⟩ | ⟨-, rfl⟩
      · exact hrd.unclaimed other record hold hp
      · exact hn
  | committed hg hi => exact promotionInvariant_commit hin hw hg hi
  | rolledBack =>
    refine hin.shrink hw (.refl _) fun worker promotion hg => ?_
    rw [get_remove] at hg
    exact (Option.ite_none_left_eq_some.mp hg).2

theorem promotionInvariant_move (hm : WorkerMove c system action next) :
    PromotionInvariant next := by
  cases hm with
  | promotion hm => exact promotionInvariant_promotionMove hin hw hm
  | crashed =>
    refine hin.shrink hw (.refl _) fun worker promotion hg => ?_
    rw [get_remove] at hg
    exact (Option.ite_none_left_eq_some.mp hg).2
  | task ha ht hm =>
    refine hin.shrink hw (rowsKept_taskMove hm) fun worker promotion hg => ?_
    rw [hm.promotions_eq] at hg
    exact hg
  | waited hs => exact hin.shrink hw (.refl _) fun _ _ hg => hg
  | reevalEnqueued he => exact hin.shrink hw (.refl _) fun _ _ hg => hg
  | enqueued hpy hf =>
    exact hin.shrink hw (rowsKept_put hf (plain_of_open rfl hpy)) fun _ _ hg => hg
  | polled hn hp hts =>
    exact hin.shrink hw (rowsKept_move (.polled hn hp hts) nofun) fun _ _ hg => hg
  | recovered hi hn =>
    exact hin.shrink hw (rowsKept_move (.recovered hi hn) nofun) fun _ _ hg => hg

end

theorem promotionInvariant_of_reach
    (hrc : Reach (workerStep c) allowed .fresh system) : PromotionInvariant system := by
  refine hrc.invariant_of (fun _ hp => wellPromoted_of_reach hp) ⟨?_, ?_, ?_⟩
    fun _ _ _ hi hw _ hs =>
      promotionInvariant_move hi hw (workerMove_of_workerStep hs)
  · rintro rowId id id' ⟨row, hr, -⟩
    cases hr
  · intro worker other promotion otherPromotion rowId hg
    cases hg
  · intro worker promotion hg
    cases hg

end FyralisCore.Think
