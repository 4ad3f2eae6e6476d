import Mathlib.Data.List.Induction
import FyralisCore.Lib.Transaction

/-! Transactions on a part of a larger state, and transactions whose error the
caller looks at. -/
namespace Transaction

variable {σ τ ω ρ ρ' ε ε' α β : Type}

/-- A part of the states `τ`: it may be read and put back, and what a write of the
part makes is what is read afterwards. Two parts may share what neither changes
without the other. -/
structure Part (τ : Type) (apply : σ → ω → σ) where
  view : τ → σ
  put : τ → σ → τ
  put_view : ∀ state, put state (view state) = state
  put_put : ∀ state first second, put (put state first) second = put state second
  view_put : ∀ state write, view (put state (apply (view state) write)) = apply (view state) write

def change (state : τ) (write : τ → τ) : τ := write state

namespace Part

variable {apply : σ → ω → σ} (part : Part τ apply)

theorem view_put_foldl (s : τ) (ws : List ω) :
    part.view (part.put s (ws.foldl apply (part.view s))) = ws.foldl apply (part.view s) := by
  induction ws using List.reverseRecOn with
  | nil => rw [List.foldl_nil, part.put_view]
  | append_singleton earlier w ih =>
    have hl := part.view_put (part.put s (earlier.foldl apply (part.view s))) w
    rw [ih, part.put_put] at hl
    rw [List.foldl_append, List.foldl_cons, List.foldl_nil]
    exact hl

end Part

theorem exists_exec_state_eq (apply : σ → ω → σ) (body : Tx σ ω ρ ε α) (state : σ) (n : Nat) :
    ∃ ws : List ω, (body.exec apply state n).state = ws.foldl apply state := by
  induction body generalizing state n with
  | done v => exact ⟨[], rfl⟩
  | raise error => exact ⟨[], rfl⟩
  | statement lock ws next ih =>
    obtain ⟨rest, ht⟩ := ih state ((ws state).foldl apply state) n
    refine ⟨ws state ++ rest, ?_⟩
    rw [List.foldl_append]
    exact ht
  | mint next ih => exact ih n state (n + 1)

theorem Part.view_put_exec (part : Part τ apply) (body : Tx σ ω ρ ε α) (s : τ) (n : Nat) :
    part.view (part.put s (body.exec apply (part.view s) n).state) =
      (body.exec apply (part.view s) n).state := by
  obtain ⟨ws, hs⟩ := exists_exec_state_eq apply body (part.view s) n
  rw [hs, part.view_put_foldl]

namespace Tx

/-- The same statements on the part. The locks are dropped: these transactions are
read alone. -/
def onPart {apply : σ → ω → σ} (part : Part τ apply) (lift : ε → ε') :
    Tx σ ω ρ ε α → Tx τ (τ → τ) ρ' ε' α
  | .done value => .done value
  | .raise error => .raise (lift error)
  | .statement _ writes next =>
    .statement (fun _ => none) (fun seen => [fun state =>
        part.put state ((writes (part.view seen)).foldl apply (part.view state))])
      fun state => (next (part.view state)).onPart part lift
  | .mint next => .mint fun id => (next id).onPart part lift

/-- The same statements on a part that is read from the whole, their writes named in
the larger schema. -/
def within {ω' : Type} (view : τ → σ) (write : ω → ω') (lift : ε → ε') :
    Tx σ ω ρ ε α → Tx τ ω' ρ' ε' α
  | .done value => .done value
  | .raise error => .raise (lift error)
  | .statement _ writes next =>
    .statement (fun _ => none) (fun state => (writes (view state)).map write)
      fun state => (next (view state)).within view write lift
  | .mint next => .mint fun id => (next id).within view write lift

/-- The result of the body as a value, an error included. The writes made before
the error stay. -/
def attempt : Tx σ ω ρ ε α → Tx σ ω ρ ε (Except ε α)
  | .done value => .done (.ok value)
  | .raise error => .done (.error error)
  | .statement lock writes next => .statement lock writes fun state => (next state).attempt
  | .mint next => .mint fun id => (next id).attempt

/-- A nested transaction of one that runs alone: SAVEPOINT, the body, and ROLLBACK TO
when it raises. -/
def savepoint (body : Tx τ (τ → τ) ρ ε α) : Tx τ (τ → τ) ρ ε (Except ε α) :=
  (read id).bind fun saved =>
    body.attempt.bind fun result =>
      match result with
      | .ok value => .done (.ok value)
      | .error error =>
        .statement (fun _ => none) (fun _ => [fun _ => saved]) fun _ => .done (.error error)

theorem exec_onPart (part : Part τ apply) (lift : ε → ε') (body : Tx σ ω ρ ε α) (s : τ) (n : Nat) :
    (body.onPart part lift : Tx τ (τ → τ) ρ' ε' α).exec change s n =
      ⟨(body.exec apply (part.view s) n).result.mapError lift,
        part.put s (body.exec apply (part.view s) n).state,
        (body.exec apply (part.view s) n).supply⟩ := by
  induction body generalizing s n with
  | done v => simp [onPart, Except.mapError, part.put_view]
  | raise error => simp [onPart, Except.mapError, part.put_view]
  | statement lock ws next ih =>
    simp only [onPart, exec, List.foldl_cons, List.foldl_nil, change]
    rw [ih, part.view_put_foldl, part.put_put]
  | mint next ih => exact ih n s (n + 1)

section

variable (apply) (body : Tx σ ω ρ ε α)

theorem exec_attempt (s : σ) (n : Nat) : body.attempt.exec apply s n =
    ⟨.ok (body.exec apply s n).result, (body.exec apply s n).state,
    (body.exec apply s n).supply⟩ := by
  induction body generalizing s n with
  | done v => rfl
  | raise error => rfl
  | statement lock ws next ih => exact ih _ _ _
  | mint next ih => exact ih _ _ _

theorem exec_attempt_bind (rest : Except ε α → Tx σ ω ρ ε β) (s : σ) (n : Nat) :
    (body.attempt.bind rest).exec apply s n = (rest (body.exec apply s n).result).exec apply
    (body.exec apply s n).state (body.exec apply s n).supply := by
  rw [exec_bind, exec_attempt]

end

theorem exec_savepoint (body : Tx τ (τ → τ) ρ ε α) (s : τ) (n : Nat) :
    body.savepoint.exec change s n =
      match body.exec change s n with
      | ⟨.ok v, t, left⟩ => ⟨.ok (.ok v), t, left⟩
      | ⟨.error error, _, left⟩ => ⟨.ok (.error error), s, left⟩ := by
  change (body.attempt.bind _).exec change s n = _
  rw [exec_attempt_bind]
  rcases body.exec change s n with ⟨error | v, t, left⟩ <;> rfl

theorem returns_savepoint
    {r : Except ε α} (hr : Returns change body.savepoint state n r t left) :
    (∃ v, r = .ok v ∧ Returns change body state n v t left) ∨
      (∃ error, r = .error error) ∧ t = state := by
  unfold Returns at hr ⊢
  rw [exec_savepoint] at hr
  rcases hx : body.exec change state n with ⟨error | v, inner, k⟩
  · rw [hx] at hr
    cases hr
    exact .inr ⟨⟨error, rfl⟩, rfl⟩
  · rw [hx] at hr
    cases hr
    exact .inl ⟨v, rfl, rfl⟩

end Tx

end Transaction
