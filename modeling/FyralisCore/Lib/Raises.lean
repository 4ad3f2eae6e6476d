import FyralisCore.Lib.Part

/-! What a transaction raises, read from its parts, and what an error leaves of the
writes made before it. -/
namespace Transaction

variable {σ τ ω ρ ρ' ε ε' α β γ : Type}

namespace Tx

variable (apply : σ → ω → σ)

def Raises (body : Tx σ ω ρ ε α) (state : σ) (supply : Nat) (error : ε) : Prop :=
  (body.exec apply state supply).result = .error error

variable {apply} {state after : σ} {supply left : Nat} {error raised : ε}

variable {body first : Tx σ ω ρ ε α} {v : α} {rest : α → Tx σ ω ρ ε β} {answer : σ → α}
  {each : β → Tx σ ω ρ ε Unit} {lock : σ → Option ρ} {condition : Bool} {found : Option α}

theorem Raises.not_returns (hrs : Raises apply body state supply error) :
    ¬ Returns apply body state supply v after left := by
  intro hr
  unfold Raises at hrs
  rw [hr] at hrs
  cases hrs

theorem returns_of_result (hr : (body.exec apply state supply).result = .ok v) :
    Returns apply body state supply v (body.exec apply state supply).state
      (body.exec apply state supply).supply := by
  unfold Returns
  rw [← hr]

theorem returns_or_raises (apply : σ → ω → σ) (body : Tx σ ω ρ ε α) (state : σ) (supply : Nat) :
    (∃ v, Returns apply body state supply v (body.exec apply state supply).state
      (body.exec apply state supply).supply) ∨ ∃ error, Raises apply body state supply error := by
  unfold Returns Raises
  generalize body.exec apply state supply = outcome
  rcases outcome with ⟨error | v, after, left⟩
  · exact .inr ⟨error, rfl⟩
  · exact .inl ⟨v, rfl⟩

@[simp] theorem raises_done : ¬ Raises apply (done v : Tx σ ω ρ ε α) state supply error := by
  simp [Raises]

@[simp] theorem raises_raise :
    Raises apply (raise raised : Tx σ ω ρ ε α) state supply error ↔ raised = error := by
  simp [Raises]

theorem raises_bind : Raises apply (first.bind rest) state supply error ↔
      Raises apply first state supply error ∨ ∃ v m k, Returns apply first state supply v m k ∧
          Raises apply (rest v) m k error := by
  unfold Raises Returns
  rw [exec_bind]
  generalize first.exec apply state supply = outcome
  rcases outcome with ⟨raised | v, m, k⟩
  · simp
  · simp

@[simp] theorem raises_bind_done {v : β} :
    Raises apply (first.bind fun _ => done v) state supply error ↔
      Raises apply first state supply error := by
  simp [raises_bind]

@[simp] theorem raises_read_bind : Raises apply ((read answer).bind rest) state supply error ↔
      Raises apply (rest (answer state)) state supply error :=
  Iff.rfl

@[simp] theorem raises_readLocking_bind :
    Raises apply ((readLocking lock answer).bind rest) state supply error ↔
      Raises apply (rest (answer state)) state supply error :=
  Iff.rfl

@[simp] theorem raises_newId_bind {rest : Nat → Tx σ ω ρ ε β} :
    Raises apply ((newId).bind rest) state supply error ↔
      Raises apply (rest supply) state (supply + 1) error :=
  Iff.rfl

theorem raises_query {answer : σ → Except ε (List ω × α)} :
    Raises apply (query lock answer) state supply error ↔ answer state = .error error := by
  unfold Raises
  rw [exec_query]
  cases answer state <;> simp

theorem raises_require {failure : σ → Option ε} :
    Raises apply (require failure : Tx σ ω ρ ε Unit) state supply error ↔
      failure state = some error := by
  unfold require
  rw [raises_query]
  cases failure state <;> simp

@[simp] theorem raises_read : ¬ Raises apply (read answer : Tx σ ω ρ ε α) state supply error := by
  simp [Raises]

@[simp] theorem raises_newId : ¬ Raises apply (newId : Tx σ ω ρ ε Nat) state supply error := by
  simp [Raises]

@[simp] theorem raises_ensure :
    Raises apply (ensure condition raised : Tx σ ω ρ ε Unit) state supply error ↔
      condition = false ∧ raised = error := by
  cases condition <;> simp [ensure]

@[simp] theorem raises_ofExcept :
    Raises apply (ofExcept computed : Tx σ ω ρ ε α) state supply error ↔
      computed = .error error := by
  cases computed <;> simp [ofExcept]

@[simp] theorem raises_orRaise :
    Raises apply (orRaise found raised : Tx σ ω ρ ε α) state supply error ↔
      found = none ∧ raised = error := by
  cases found <;> simp [orRaise]

theorem raises_when {body : Tx σ ω ρ ε Unit} :
    Raises apply (when condition body) state supply error ↔
      condition ∧ Raises apply body state supply error := by
  cases condition <;> simp [when]

theorem raises_forSome {v : Option β} : Raises apply (forSome v each) state supply error ↔
      ∃ item, v = some item ∧ Raises apply (each item) state supply error := by
  cases v <;> simp [forSome]

variable (apply)

/-- Whatever state the transaction starts in, its error satisfies `ok`. -/
def EachError (ok : ε → Prop) (body : Tx σ ω ρ ε α) : Prop :=
  ∀ state supply error, Raises apply body state supply error → ok error

variable {apply} {ok : ε → Prop}

namespace EachError

theorem done : EachError apply ok (done v : Tx σ ω ρ ε α) :=
  fun _ _ _ hr => absurd hr raises_done

theorem raise (ho : ok raised) : EachError apply ok (raise raised : Tx σ ω ρ ε α) := by
  intro state supply error hr
  rwa [← raises_raise.mp hr]

theorem bind (h1 : EachError apply ok first)
    (ht : ∀ v, EachError apply ok (rest v)) : EachError apply ok (first.bind rest) := by
  intro state supply error hr
  rcases raises_bind.mp hr with hr | ⟨v, m, k, -, hr⟩
  · exact h1 state supply error hr
  · exact ht v m k error hr

theorem query {answer : σ → Except ε (List ω × α)}
    (ho : ∀ state error, answer state = .error error → ok error) :
    EachError apply ok (query lock answer) :=
  fun state _ error hr => ho state error (raises_query.mp hr)

theorem read : EachError apply ok (read answer : Tx σ ω ρ ε α) :=
  fun _ _ _ hr => absurd hr raises_read

theorem newId : EachError apply ok (newId : Tx σ ω ρ ε Nat) :=
  fun _ _ _ hr => absurd hr raises_newId

theorem ensure (ho : ok raised) :
    EachError apply ok (ensure condition raised : Tx σ ω ρ ε Unit) := by
  intro state supply error hr
  rwa [← (raises_ensure.mp hr).2]

theorem orRaise (ho : ok raised) : EachError apply ok (orRaise found raised : Tx σ ω ρ ε α) := by
  intro state supply error hr
  rwa [← (raises_orRaise.mp hr).2]

theorem forSome {v : Option β}
    (hb : ∀ item, EachError apply ok (each item)) : EachError apply ok (forSome v each) := by
  intro state supply error hr
  obtain ⟨item, -, hr⟩ := raises_forSome.mp hr
  exact hb item state supply error hr

theorem when {body : Tx σ ω ρ ε Unit}
    (hb : EachError apply ok body) : EachError apply ok (when condition body) :=
  fun state supply error hr => hb state supply error (raises_when.mp hr).2

theorem mono (hb : EachError apply ok body)
    (hi : ∀ error, ok error → other error) : EachError apply other body :=
  fun state supply error hr => hi error (hb state supply error hr)

end EachError

variable (apply)

def Reads (body : Tx σ ω ρ ε α) : Prop :=
  ∀ state supply, (body.exec apply state supply).state = state

/-- Run in `state`, an error that satisfies `ok` is raised before anything is written. -/
def FailsFirstAt (ok : ε → Prop) (body : Tx σ ω ρ ε α) (state : σ) (supply : Nat) : Prop :=
  ∀ error, Raises apply body state supply error → ok error →
    (body.exec apply state supply).state = state

def FailsFirst (ok : ε → Prop) (body : Tx σ ω ρ ε α) : Prop :=
  ∀ state supply, FailsFirstAt apply ok body state supply

variable {apply}

namespace Reads

theorem done : Reads apply (done v : Tx σ ω ρ ε α) := fun _ _ => rfl

theorem raise : Reads apply (raise raised : Tx σ ω ρ ε α) := fun _ _ => rfl

theorem read : Reads apply (read answer : Tx σ ω ρ ε α) := fun _ _ => rfl

theorem readLocking : Reads apply (readLocking lock answer : Tx σ ω ρ ε α) := fun _ _ => rfl

theorem newId : Reads apply (newId : Tx σ ω ρ ε Nat) := fun _ _ => rfl

theorem require {failure : σ → Option ε} : Reads apply (require failure : Tx σ ω ρ ε Unit) := by
  intro state supply
  unfold Tx.require
  rw [exec_query]
  cases failure state <;> rfl

theorem ensure : Reads apply (ensure condition raised : Tx σ ω ρ ε Unit) :=
  fun _ _ => by cases condition <;> rfl

theorem ofExcept : Reads apply (ofExcept computed : Tx σ ω ρ ε α) :=
  fun _ _ => by cases computed <;> rfl

theorem orRaise : Reads apply (orRaise found raised : Tx σ ω ρ ε α) :=
  fun _ _ => by cases found <;> rfl

theorem when {body : Tx σ ω ρ ε Unit} (hb : Reads apply body) :
    Reads apply (when condition body) := by
  cases condition with
  | false => exact .done
  | true => exact hb

theorem bind (h1 : Reads apply first)
    (ht : ∀ v, Reads apply (rest v)) : Reads apply (first.bind rest) := by
  intro state supply
  have hs := h1 state supply
  rw [exec_bind]
  rcases hx : first.exec apply state supply with ⟨error | v, m, k⟩
  · rwa [hx] at hs
  · rw [hx] at hs
    exact (ht v m k).trans hs

variable {items : List β}

theorem forEach (hb : ∀ item, Reads apply (each item)) : Reads apply (forEach items each) := by
  induction items with
  | nil => exact .done
  | cons item rest ih => exact (hb item).bind fun _ => ih

theorem failsFirst (hr : Reads apply body) : FailsFirst apply ok body :=
  fun state supply _ _ _ => hr state supply

end Reads

theorem FailsFirst.of_never
    (hn : EachError apply (fun error => ¬ ok error) body) : FailsFirst apply ok body :=
  fun state supply error hr ho => absurd ho (hn state supply error hr)

theorem FailsFirst.query {answer : σ → Except ε (List ω × α)} :
    FailsFirst apply ok (query lock answer) := by
  intro state supply error hr _
  rw [exec_query, raises_query.mp hr]

theorem FailsFirst.bind_at (h1 : FailsFirst apply ok first) (ht : ∀ v m k error,
      Returns apply first state supply v m k → Raises apply (rest v) m k error → ¬ ok error) :
    FailsFirstAt apply ok (first.bind rest) state supply := by
  intro error hrs ho
  rcases raises_bind.mp hrs with hrs | ⟨v, m, k, hr, hrs⟩
  · have hs := h1 state supply error hrs ho
    unfold Raises at hrs
    rw [exec_bind]
    rcases hx : first.exec apply state supply with ⟨raised | v, after, left⟩
    · rwa [hx] at hs
    · rw [hx] at hrs
      cases hrs
  · exact absurd ho (ht v m k error hr hrs)

theorem FailsFirst.bind_never (h1 : FailsFirst apply ok first)
    (ht : ∀ v, EachError apply (fun error => ¬ ok error) (rest v)) :
    FailsFirst apply ok (first.bind rest) :=
  fun _ _ => h1.bind_at fun v m k error _ hr =>
    ht v m k error hr

theorem FailsFirstAt.bind_done {v : β} (h1 : FailsFirstAt apply ok first state supply) :
    FailsFirstAt apply ok (first.bind fun _ => done v) state supply := by
  intro error hr ho
  have hr := raises_bind_done.mp hr
  have hs := h1 error hr ho
  unfold Raises at hr
  rw [exec_bind]
  rcases hx : first.exec apply state supply with ⟨raised | v, after, left⟩
  · rwa [hx] at hs
  · rw [hx] at hr
    cases hr

theorem Reads.bind_at (h1 : Reads apply first)
    (ht : ∀ v k, Returns apply first state supply v state k →
      FailsFirstAt apply ok (rest v) state k) :
    FailsFirstAt apply ok (first.bind rest) state supply := by
  intro error hr ho
  have hs := h1 state supply
  unfold Raises at hr
  rw [exec_bind] at hr ⊢
  rcases hx : first.exec apply state supply with ⟨raised | v, after, left⟩
  · rwa [hx] at hs
  · rw [hx] at hs hr
    obtain rfl : after = state := hs
    exact ht v left hx error hr ho

theorem Reads.bind_failsFirst (h1 : Reads apply first)
    (ht : ∀ v, FailsFirst apply ok (rest v)) : FailsFirst apply ok (first.bind rest) :=
  fun _ _ => h1.bind_at fun v _ _ => ht v _ _

theorem FailsFirst.when {body : Tx σ ω ρ ε Unit}
    (hb : FailsFirst apply ok body) : FailsFirst apply ok (when condition body) := by
  cases condition with
  | false => exact Reads.done.failsFirst
  | true => exact hb

theorem FailsFirst.forSome {v : Option β}
    (hb : ∀ item, FailsFirst apply ok (each item)) : FailsFirst apply ok (forSome v each) := by
  cases v with
  | none => exact Reads.done.failsFirst
  | some item => exact hb item

theorem FailsFirstAt.mono (hb : FailsFirstAt apply ok body state supply)
    (hi : ∀ error, other error → ok error) : FailsFirstAt apply other body state supply :=
  fun error hr ho => hb error hr (hi error ho)

theorem exec_read_bind : ((read answer).bind rest).exec apply state supply =
      (rest (answer state)).exec apply state supply := rfl

variable (apply)

/-- The state that the transaction leaves, whether it returns or raises, is in the relation
to the state before. -/
def Within (relation : σ → σ → Prop) (body : Tx σ ω ρ ε α) : Prop :=
  ∀ state supply, relation state (body.exec apply state supply).state

/-- The transaction leaves what `view` sees of the state, whether it returns or raises. -/
def Keeps (view : σ → γ) (body : Tx σ ω ρ ε α) : Prop :=
  ∀ state supply, view (body.exec apply state supply).state = view state

def SameView (view : σ → γ) (state after : σ) : Prop := view after = view state

instance (view : σ → γ) : IsPreorder σ (SameView view) where
  refl _ := rfl
  trans _ _ _ hfirst hsecond := Eq.trans hsecond hfirst

variable {apply} {view : σ → γ} {relation : σ → σ → Prop}

theorem Within.relates (hw : Within apply relation body)
    (hr : Returns apply body state supply v after left) : relation state after := by
  have hs := hw state supply
  rwa [hr] at hs

theorem keeps_iff_within : Keeps apply view body ↔ Within apply (SameView view) body := Iff.rfl

variable [IsPreorder σ relation]

theorem Reads.within (hr : Reads apply body) : Within apply relation body := by
  intro state supply
  rw [hr state supply]
  exact refl_of relation state

theorem Reads.keeps (hr : Reads apply body) : Keeps apply view body :=
  fun state supply => congrArg view (hr state supply)

theorem Within.query {answer : σ → Except ε (List ω × α)}
    (ha : ∀ state ws v, answer state = .ok (ws, v) →
      relation state (ws.foldl apply state)) : Within apply relation (query lock answer) := by
  intro state supply
  rw [exec_query]
  cases hr : answer state with
  | error error => exact refl_of relation state
  | ok r => exact ha state r.1 r.2 hr

theorem Keeps.query {answer : σ → Except ε (List ω × α)}
    (ha : ∀ state ws v, answer state = .ok (ws, v) →
      view (ws.foldl apply state) = view state) : Keeps apply view (query lock answer) :=
  keeps_iff_within.mpr (.query ha)

theorem Within.bind (h1 : Within apply relation first) (ht : ∀ v, Within apply relation (rest v)) :
    Within apply relation (first.bind rest) := by
  intro state supply
  have hs := h1 state supply
  rw [exec_bind]
  rcases hx : first.exec apply state supply with ⟨error | v, m, k⟩
  · rwa [hx] at hs
  · rw [hx] at hs
    exact trans_of relation hs (ht v m k)

theorem Keeps.bind (h1 : Keeps apply view first) (ht : ∀ v, Keeps apply view (rest v)) :
    Keeps apply view (first.bind rest) :=
  keeps_iff_within.mpr (.bind h1 ht)

theorem Within.forSome {v : Option β} (hb : ∀ item ∈ v, Within apply relation (each item)) :
    Within apply relation (forSome v each) := by
  cases v with
  | none => exact Reads.done.within
  | some item => exact hb item rfl

theorem Keeps.forSome {v : Option β}
    (hb : ∀ item, Keeps apply view (each item)) : Keeps apply view (forSome v each) :=
  keeps_iff_within.mpr (.forSome fun item _ => hb item)

theorem Within.when {body : Tx σ ω ρ ε Unit}
    (hb : Within apply relation body) : Within apply relation (when condition body) := by
  cases condition with
  | false => exact Reads.done.within
  | true => exact hb

theorem Keeps.view_eq (hk : Keeps apply view body)
    (hr : Returns apply body state supply v after left) : view after = view state := by
  have hs := hk state supply
  rwa [hr] at hs

theorem raises_attempt_bind {rest : Except ε α → Tx σ ω ρ ε β} :
    Raises apply (body.attempt.bind rest) state supply error ↔
      (∃ v after left, Returns apply body state supply v after left ∧
        Raises apply (rest (.ok v)) after left error) ∨
      ∃ raised, Raises apply body state supply raised ∧
        Raises apply (rest (.error raised)) (body.exec apply state supply).state
          (body.exec apply state supply).supply error := by
  unfold Raises Returns
  rw [exec_attempt_bind]
  generalize body.exec apply state supply = outcome
  rcases outcome with ⟨raised | v, after, left⟩
  · simp
  · simp

variable {lift : ε → ε'} {P : σ → Prop} {part : Part τ apply}

theorem Within.onPart {relation : τ → τ → Prop} (hp : ∀ state supply,
      relation state (part.put state (body.exec apply (part.view state) supply).state)) :
    Within change relation (body.onPart part lift : Tx τ (τ → τ) ρ' ε' α) := by
  intro state supply
  rw [exec_onPart]
  exact hp state supply

theorem Keeps.onPart {view : τ → γ} (hp : ∀ state piece, view (part.put state piece) = view state) :
    Keeps change view (body.onPart part lift : Tx τ (τ → τ) ρ' ε' α) := by
  intro state supply
  rw [exec_onPart]
  exact hp state _

/-- A run on the part returns what the body returns, and leaves the part as the body
leaves it. -/
theorem returns_onPart {state after : τ}
    (hr : Returns change (body.onPart part lift : Tx τ (τ → τ) ρ' ε' α) state supply v after
      left) : Returns apply body (part.view state) supply v (part.view after) left ∧
      after = part.put state (part.view after) := by
  unfold Returns at hr ⊢
  rw [exec_onPart] at hr
  have hv := part.view_put_exec body state supply
  rcases hx : body.exec apply (part.view state) supply with ⟨error | r, inner, k⟩
  · rw [hx] at hr
    cases hr
  · rw [hx] at hr hv
    cases hr
    exact ⟨by rw [hv], by rw [hv]⟩

theorem Returns.onPart {state : τ} {inner : σ}
    (hr : Returns apply body (part.view state) supply v inner left) :
    Returns change (body.onPart part lift : Tx τ (τ → τ) ρ' ε' α) state supply v
      (part.put state inner) left := by
  unfold Returns at hr ⊢
  rw [exec_onPart, hr]
  rfl

theorem raises_onPart {state : τ} {error : ε'} :
    Raises change (body.onPart part lift : Tx τ (τ → τ) ρ' ε' α) state supply error ↔
      ∃ inner, Raises apply body (part.view state) supply inner ∧ lift inner = error := by
  unfold Raises
  rw [exec_onPart]
  generalize (body.exec apply (part.view state) supply).result = r
  cases r <;> simp [Except.mapError]

theorem EachError.onPart {ok : ε' → Prop}
    (ho : EachError apply (fun error => ok (lift error)) body) :
    EachError change ok (body.onPart part lift : Tx τ (τ → τ) ρ' ε' α) := by
  intro state supply error hr
  obtain ⟨inner, hi, rfl⟩ := raises_onPart.mp hr
  exact ho _ _ inner hi

theorem EachError.forEach
    (hb : ∀ item, EachError apply ok (each item)) : EachError apply ok (forEach items each) := by
  induction items with
  | nil => exact .done
  | cons item rest ih => exact (hb item).bind fun _ => ih

theorem EachError.mapEach {body : β → Tx σ ω ρ ε γ}
    (hb : ∀ item, EachError apply ok (body item)) : EachError apply ok (mapEach items body) := by
  induction items with
  | nil => exact .done
  | cons item rest ih => exact (hb item).bind fun _ => ih.bind fun _ => .done

theorem Within.forEach (hb : ∀ item, Within apply relation (each item)) :
    Within apply relation (forEach items each) := by
  induction items with
  | nil => exact Reads.done.within
  | cons item rest ih => exact (hb item).bind fun _ => ih

theorem Within.forEach_mem (hb : ∀ item ∈ items, Within apply relation (each item)) :
    Within apply relation (Tx.forEach items each) := by
  induction items with
  | nil => exact Reads.done.within
  | cons item rest ih =>
    exact (hb item (.head _)).bind fun _ =>
      ih fun other ho => hb other (.tail _ ho)

theorem EachStatement.within (hb : body.EachStatement allows)
    (hs : ∀ state lock ws, allows state lock ws →
      relation state (ws.foldl apply state)) : Within apply relation body := by
  induction body with
  | done v => exact Reads.done.within
  | raise error => exact Reads.raise.within
  | statement lock ws next ih =>
    intro state supply
    obtain ⟨ha, hn⟩ := hb state
    exact IsTrans.trans _ _ _ (hs state _ _ ha) (ih state hn _ supply)
  | mint next ih => exact fun state supply => ih supply (hb supply) state (supply + 1)

section

variable {body : β → Tx σ ω ρ ε Unit}

theorem Keeps.forEach (hb : ∀ item, Keeps apply view (body item)) : Keeps apply view
    (forEach items body) :=
  keeps_iff_within.mpr (.forEach hb)

theorem forEach_invariant (hs : ∀ item state supply after left, P state →
    Returns apply (body item) state supply () after left → P after) (hs0 : P state)
    (hr : Returns apply (forEach items body) state supply r after left) : P after := by
  induction items generalizing state supply with
  | nil =>
    obtain ⟨rfl, -⟩ := returns_forEach_nil.mp hr
    exact hs0
  | cons item rest ih =>
    obtain ⟨m, k, hi, ht⟩ := returns_forEach_cons.mp hr
    exact ih (hs item _ _ _ _ hs0 hi) ht

theorem forEach_establishes (hm : item ∈ items) (hs : ∀ item state supply after left, P state →
    Returns apply (body item) state supply () after left → P after) (hi : ∀ state supply after left,
    Returns apply (body item) state supply () after left → P after)
    (hr : Returns apply (forEach items body) state supply r after left) : P after := by
  induction items generalizing state supply with
  | nil => cases hm
  | cons other rest ih =>
    obtain ⟨m, k, ho, ht⟩ := returns_forEach_cons.mp hr
    rcases List.mem_cons.mp hm with rfl | hl
    · exact forEach_invariant hs (hi _ _ _ _ ho) ht
    · exact ih hl ht

theorem raises_forEach (hs : ∀ item state supply after left, P state →
    Returns apply (body item) state supply () after left → P after) (hs0 : P state)
    (hr : Raises apply (forEach items body) state supply error) : ∃ item ∈ items, ∃ m k, P m ∧
    Raises apply (body item) m k error := by
  induction items generalizing state supply with
  | nil => exact absurd hr raises_done
  | cons item rest ih =>
    rcases raises_bind.mp hr with hi | ⟨_, m, k, hi, ht⟩
    · exact ⟨item, .head _, state, supply, hs0, hi⟩
    · obtain ⟨other, hm, hf⟩ := ih (hs item _ _ _ _ hs0 hi) ht
      exact ⟨other, List.mem_cons_of_mem _ hm, hf⟩

end

theorem mapEach_append (earlier u : List β) (body : β → Tx σ ω ρ ε γ) :
    mapEach (earlier ++ u) body = (mapEach earlier body).bind fun values =>
      (mapEach u body).bind fun others => .done (values ++ others) := by
  induction earlier with
  | nil =>
    have hd : ∀ loop : Tx σ ω ρ ε (List γ), (loop.bind fun others => .done others) = loop := by
      intro loop
      induction loop with
      | done values => rfl
      | raise error => rfl
      | statement lock ws next ih => exact congrArg _ (funext ih)
      | mint next ih => exact congrArg _ (funext ih)
    exact (hd _).symm
  | cons item rest ih =>
    simp [List.cons_append, mapEach, ih, bind_assoc, bind]

theorem exec_mapEach_at {earlier : List β} {item : β} {body : β → Tx σ ω ρ ε γ}
    {values : List γ} (hp : Returns apply (mapEach earlier body) state supply values after left) :
    (mapEach (earlier ++ item :: u) body).exec apply state supply =
      ((body item).bind fun v => (mapEach u body).bind fun others =>
        .done (values ++ v :: others)).exec apply after left := by
  rw [mapEach_append, exec_bind, hp]
  simp [mapEach, bind_assoc, bind]

theorem FailsFirstAt.onPart {ok : ε' → Prop} {state : τ}
    (hb : FailsFirstAt apply (fun error => ok (lift error)) body (part.view state) supply) :
    FailsFirstAt change ok (body.onPart part lift : Tx τ (τ → τ) ρ' ε' α) state supply := by
  intro error hr ho
  obtain ⟨inner, hi, rfl⟩ := raises_onPart.mp hr
  rw [exec_onPart]
  rw [hb inner hi ho, part.put_view]

end Tx

theorem bind_eq_error_iff {first : Except ε α} : first >>= rest = .error error ↔
      first = .error error ∨ ∃ v, first = .ok v ∧ rest v = .error error := by
  cases first with
  | ok v => simp [bind, Except.bind]
  | error raised => simp [bind, Except.bind]

end Transaction
