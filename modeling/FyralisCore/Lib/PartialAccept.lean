import FyralisCore.Lib.Transaction

/-! Passes that accept a part of their items: a check keeps an item, perhaps changed, lets
it go, or raises; an error that is handled drops the item, any other ends the pass. A check
sees the items that were kept before. -/
namespace PartialAccept

open List

variable {α β δ ε : Type}

structure Pass (β δ : Type) where
  kept : List β := []
  neutralized : Nat := 0
  dropped : List δ := []

structure Policy (α δ ε : Type) where
  handles : ε → Bool
  drop : α → ε → δ

section

variable (policy : Policy α δ ε) (check : List β → α → Except ε (Option β))

def Pass.step (pass : Pass β δ) (item : α) : Except ε (Pass β δ) :=
  match check pass.kept item with
  | .ok (some result) => .ok { pass with kept := pass.kept ++ [result] }
  | .ok none => .ok { pass with neutralized := pass.neutralized + 1 }
  | .error error =>
    if policy.handles error then
      .ok { pass with dropped := pass.dropped ++ [policy.drop item error] }
    else .error error

def acceptEach (items : List α) : Except ε (Pass β δ) :=
  items.foldlM (Pass.step policy check) {}

end

variable {policy : Policy α δ ε} {check : List β → α → Except ε (Option β)}
  {pass t : Pass β δ} {item : α} {items : List α}

theorem Pass.step_of_accepts (ha : check pass.kept item = .ok (some r)) :
    pass.step policy check item = .ok { pass with kept := pass.kept ++ [r] } := by
  unfold Pass.step
  rw [ha]

theorem Pass.step_cases (hs : pass.step policy check item = .ok t) :
    (∃ r, check pass.kept item = .ok (some r) ∧ t.kept = pass.kept ++ [r]) ∨
      ((∀ r, check pass.kept item ≠ .ok (some r)) ∧ t.kept = pass.kept) := by
  unfold Pass.step at hs
  split at hs
  · next r hr =>
    cases hs
    exact .inl ⟨r, hr, rfl⟩
  · next hn =>
    cases hs
    exact .inr ⟨by simp [hn], rfl⟩
  · next error he =>
    split at hs
    · cases hs
      exact .inr ⟨by simp [he], rfl⟩
    · cases hs

theorem kept_eq_filterMap (hp : items.foldlM (Pass.step policy fun _ => single) pass = .ok t) :
    t.kept = pass.kept ++ items.filterMap fun item => (single item).toOption.join := by
  induction items generalizing pass with
  | nil =>
    cases hp
    simp
  | cons item rest ih =>
    obtain ⟨m, hs, ht⟩ := Transaction.bind_eq_ok_iff.mp hp
    rw [ih ht]
    rcases Pass.step_cases hs with ⟨v, hv, he⟩ | ⟨hn, he⟩
    · rw [he, filterMap_cons, hv]
      simp [Except.toOption]
    · have hj : (single item).toOption.join = none := by
        cases hsi : single item with
        | error error => rfl
        | ok found =>
          cases found with
          | none => rfl
          | some v => exact absurd hsi (hn v)
      rw [he, filterMap_cons, hj]

theorem mem_kept_iff (hp : acceptEach policy (fun _ => single) items = .ok t) :
    r ∈ t.kept ↔ ∃ item ∈ items, single item = .ok (some r) := by
  rw [kept_eq_filterMap hp, nil_append, mem_filterMap]
  apply exists_congr
  intro item
  apply and_congr_right
  intro _
  cases single item with
  | error error => simp [Except.toOption]
  | ok found => cases found <;> simp [Except.toOption]

/-- What is kept was accepted after what was kept before it. -/
theorem checked_of_kept (hp : acceptEach policy check items = .ok t)
    (hk : t.kept = before ++ r :: u) :
    ∃ item ∈ items, check before item = .ok (some r) := by
  suffices he : ∀ pass : Pass β δ, items.foldlM (Pass.step policy check) pass = .ok t →
      (∃ more, pass.kept = before ++ r :: more) ∨
        ∃ item ∈ items, check before item = .ok (some r) from
    (he {} hp).resolve_left (by simp)
  clear hp
  intro pass hp
  induction items generalizing pass with
  | nil =>
    cases hp
    exact .inl ⟨u, hk⟩
  | cons item rest ih =>
    obtain ⟨m, hs, ht⟩ := Transaction.bind_eq_ok_iff.mp hp
    rcases ih m ht with ⟨more, hm⟩ | ⟨other, ho, hc⟩
    · rcases Pass.step_cases hs with ⟨v, hv, heq⟩ | ⟨-, heq⟩
      · rcases eq_nil_or_concat more with rfl | ⟨more, last, rfl⟩
        · obtain ⟨hb, hl⟩ := append_inj' (heq.symm.trans hm) rfl
          cases hl
          exact .inr ⟨item, .head _, hb ▸ hv⟩
        · refine .inl ⟨more, ?_⟩
          have ha : pass.kept ++ [v] = (before ++ r :: more) ++ [last] := by
            simpa using heq.symm.trans hm
          exact (append_inj' ha rfl).1
      · exact .inl ⟨more, heq ▸ hm⟩
    · exact .inr ⟨other, .tail _ ho, hc⟩

end PartialAccept
