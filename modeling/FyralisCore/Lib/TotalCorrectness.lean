import FyralisCore.Lib.Transaction

/-! Total correctness of a transaction run alone: how it ends, by returning or
by an error, with an assertion for each. An error that a caller rescues leaves
the writes made before it, so its assertion speaks about the state too. -/
namespace Transaction.Tx

variable {σ ω ρ ε α β γ : Type}

/-- The transaction either returns and satisfies `returned`, or raises and
satisfies `raised`. -/
def Ends (apply : σ → ω → σ) (body : Tx σ ω ρ ε α) (state : σ) (supply : Nat)
    (returned : α → σ → Nat → Prop) (raised : ε → σ → Nat → Prop) : Prop :=
  match body.exec apply state supply with
  | ⟨.ok value, after, left⟩ => returned value after left
  | ⟨.error error, after, left⟩ => raised error after left

variable {apply : σ → ω → σ} {state : σ} {supply : Nat} {R Q : α → σ → Nat → Prop}
  {E F : ε → σ → Nat → Prop}

@[simp] theorem ends_done {v : α} :
    Ends apply (done v : Tx σ ω ρ ε α) state supply R E ↔ R v state supply :=
  Iff.rfl

@[simp] theorem ends_raise {error : ε} :
    Ends apply (raise error : Tx σ ω ρ ε α) state supply R E ↔ E error state supply :=
  Iff.rfl

theorem ends_bind {first : Tx σ ω ρ ε α} {rest : α → Tx σ ω ρ ε β} {P : β → σ → Nat → Prop} :
    Ends apply (first.bind rest) state supply P E ↔
      Ends apply first state supply (fun v t left => Ends apply (rest v) t left P E)
        E := by
  unfold Ends
  rw [exec_bind]
  rcases first.exec apply state supply with ⟨_ | _, _, _⟩ <;> rfl

variable {body : Tx σ ω ρ ε α} {P : Unit → σ → Nat → Prop}

section

variable (he : Ends apply body state supply R E)

include he

theorem Ends.mono (hrt : ∀ v t left, R v t left → Q v t left) (hr : ∀ error t left, E error t left →
    F error t left) : Ends apply body state supply Q F := by
  unfold Ends at he ⊢
  split at he
  · exact hrt _ _ _ he
  · exact hr _ _ _ he

theorem Ends.raised (hr : ∀ error t left, E error t left → F error t left) :
    Ends apply body state supply R F :=
  he.mono (fun _ _ _ hrt => hrt) hr

theorem Ends.returned (hrt : ∀ v t left, R v t left → Q v t left) :
    Ends apply body state supply Q E :=
  he.mono hrt fun _ _ _ hr => hr

end

theorem Ends.seq {first : Tx σ ω ρ ε α} {rest : α → Tx σ ω ρ ε β} {P : β → σ → Nat → Prop}
    (h1 : Ends apply first state supply R E)
    (ht : ∀ v t left, R v t left → Ends apply (rest v) t left P E) :
    Ends apply (first.bind rest) state supply P E :=
  ends_bind.mpr (h1.returned ht)

theorem ends_query {lock : σ → Option ρ} {answer : σ → Except ε (List ω × α)} :
    Ends apply (query lock answer) state supply R E ↔
      match answer state with
      | .ok (ws, v) => R v (ws.foldl apply state) supply
      | .error error => E error state supply := by
  unfold Ends
  rw [exec_query]
  rcases answer state with _ | ⟨_, _⟩ <;> rfl

@[simp] theorem ends_read {answer : σ → α} :
    Ends apply (read answer : Tx σ ω ρ ε α) state supply R E ↔ R (answer state) state supply :=
  Iff.rfl

@[simp] theorem ends_readLocking {lock : σ → Option ρ} {answer : σ → α} :
    Ends apply (readLocking lock answer : Tx σ ω ρ ε α) state supply R E ↔
      R (answer state) state supply :=
  Iff.rfl

@[simp] theorem ends_newId {P : Nat → σ → Nat → Prop} :
    Ends apply (newId : Tx σ ω ρ ε Nat) state supply P E ↔ P supply state (supply + 1) :=
  Iff.rfl

theorem ends_require {failure : σ → Option ε} :
    Ends apply (require failure : Tx σ ω ρ ε Unit) state supply P E ↔
      match failure state with
      | none => P () state supply
      | some error => E error state supply := by
  rw [require, ends_query]
  cases failure state <;> rfl

theorem ends_ensure {condition : Bool} {error : ε} :
    Ends apply (ensure condition error : Tx σ ω ρ ε Unit) state supply P E ↔
      (condition → P () state supply) ∧ (condition = false → E error state supply) := by
  cases condition <;> simp [ensure]

theorem ends_when {condition : Bool} {body : Tx σ ω ρ ε Unit} :
    Ends apply (when condition body) state supply P E ↔
      (condition → Ends apply body state supply P E) ∧ (condition = false → P () state supply) := by
  cases condition <;> simp [when]

theorem ends_ofExcept {computed : Except ε α} :
    Ends apply (ofExcept computed : Tx σ ω ρ ε α) state supply R E ↔
      match computed with
      | .ok v => R v state supply
      | .error error => E error state supply := by
  cases computed <;> rfl

theorem ends_rescue {handler : ε → Option (Tx σ ω ρ ε α)} :
    Ends apply (body.rescue handler) state supply R E ↔
      Ends apply body state supply R (fun error t left =>
        Ends apply ((handler error).getD (.raise error)) t left R E) := by
  induction body generalizing state supply with
  | done v => rfl
  | raise error => rfl
  | statement lock ws next ih => exact ih _
  | mint next ih => exact ih _

/-- A loop that collects results keeps an invariant of the items done, the
results so far and the state. -/
theorem ends_mapEach {items : List β} {body : β → Tx σ ω ρ ε γ}
    (I : List β → List γ → σ → Nat → Prop) (hs0 : I [] [] state supply)
    (hs : ∀ before item t results state supply, items = before ++ item :: t →
      I before results state supply → Ends apply (body item) state supply
        (fun v state supply => I (before ++ [item]) (results ++ [v]) state supply) E) :
    Ends apply (mapEach items body) state supply (I items) E := by
  have ht : ∀ before t results state supply, items = before ++ t →
      I before results state supply → Ends apply (mapEach t body) state supply
        (fun values state supply => I items (results ++ values) state supply) E := by
    intro before t
    induction t generalizing before with
    | nil =>
      rintro results state supply rfl hi
      simpa [mapEach] using hi
    | cons item t ih =>
      intro results state supply hsp hi
      refine (hs before item t results state supply hsp hi).seq ?_
      intro v state supply hn
      have hg := ih (before ++ [item]) (results ++ [v]) state supply
        (by rw [hsp, List.append_assoc]; rfl) hn
      refine hg.seq fun values state supply ha => ?_
      rwa [ends_done, List.append_cons]
  exact ht [] items [] state supply rfl hs0

theorem Ends.returns (he : Ends apply body state supply R fun _ _ _ => False) :
    ∃ v t left, Returns apply body state supply v t left ∧ R v t left := by
  unfold Ends at he
  split at he
  · next v t left hx => exact ⟨v, t, left, hx, he⟩
  · exact he.elim

end Transaction.Tx
