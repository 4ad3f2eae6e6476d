import FyralisCore.Lib.Reach
import Mathlib.Data.List.Forall2

/-! A database transaction as the statements it sends. A statement may lock one
row, sees the state as it is when it runs, and either fails or answers with
the writes it makes and a result, on which the rest of the transaction depends.
The same transaction has two readings: run alone on one state, here, and
interleaved with other sessions under READ COMMITTED. -/
namespace Transaction

/-- `σ` is the database state, `ω` a write, `ρ` a lockable row, `ε` an error. -/
inductive Tx (σ ω ρ ε α : Type) : Type where
  | done (value : α)
  | raise (error : ε)
  | statement (lock : σ → Option ρ) (writes : σ → List ω) (next : σ → Tx σ ω ρ ε α)
  | mint (next : Nat → Tx σ ω ρ ε α)

namespace Tx

variable {σ ω ρ ε α β γ : Type}

def bind (first : Tx σ ω ρ ε α) (rest : α → Tx σ ω ρ ε β) : Tx σ ω ρ ε β :=
  match first with
  | .done value => rest value
  | .raise error => .raise error
  | .statement lock writes next => .statement lock writes fun state => (next state).bind rest
  | .mint next => .mint fun id => (next id).bind rest

instance : Monad (Tx σ ω ρ ε) where
  pure := .done
  bind := bind

/-- Run `handler` in place of an error it accepts. The writes made before the
error stay. -/
def rescue (body : Tx σ ω ρ ε α) (handler : ε → Option (Tx σ ω ρ ε α)) : Tx σ ω ρ ε α :=
  match body with
  | .done value => .done value
  | .raise error => (handler error).getD (.raise error)
  | .statement lock writes next =>
    .statement lock writes fun state => (next state).rescue handler
  | .mint next => .mint fun id => (next id).rescue handler

/-- The same statements, with their writes and their locks named otherwise. -/
def embed {ω' ρ' : Type} (write : ω → ω') (row : ρ → ρ') : Tx σ ω ρ ε α → Tx σ ω' ρ' ε α
  | .done value => .done value
  | .raise error => .raise error
  | .statement lock writes next =>
    .statement (fun state => (lock state).map row) (fun state => (writes state).map write)
      fun state => (next state).embed write row
  | .mint next => .mint fun id => (next id).embed write row

def query (lock : σ → Option ρ) (answer : σ → Except ε (List ω × α)) : Tx σ ω ρ ε α :=
  .statement lock (fun state => match answer state with
      | .ok (writes, _) => writes
      | .error _ => [])
    (fun state => match answer state with
      | .ok (_, value) => .done value
      | .error error => .raise error)

def read (answer : σ → α) : Tx σ ω ρ ε α :=
  query (fun _ => none) fun state => .ok ([], answer state)

def readLocking (lock : σ → Option ρ) (answer : σ → α) : Tx σ ω ρ ε α :=
  query lock fun state => .ok ([], answer state)

/-- A check whose reads are one statement each and whose failure raises. -/
def require (failure : σ → Option ε) : Tx σ ω ρ ε Unit :=
  query (fun _ => none) fun state =>
    match failure state with
    | none => .ok ([], ())
    | some error => .error error

def newId : Tx σ ω ρ ε Nat :=
  .mint .done

def ensure (condition : Bool) (error : ε) : Tx σ ω ρ ε Unit :=
  if condition then .done () else .raise error

def when (condition : Bool) (body : Tx σ ω ρ ε Unit) : Tx σ ω ρ ε Unit :=
  if condition then body else .done ()

def forSome (value : Option β) (body : β → Tx σ ω ρ ε Unit) : Tx σ ω ρ ε Unit :=
  match value with
  | none => .done ()
  | some value => body value

def ofExcept : Except ε α → Tx σ ω ρ ε α
  | .ok value => .done value
  | .error error => .raise error

def orRaise : Option α → ε → Tx σ ω ρ ε α
  | some value, _ => .done value
  | none, error => .raise error

def forEach (items : List β) (body : β → Tx σ ω ρ ε Unit) : Tx σ ω ρ ε Unit :=
  match items with
  | [] => .done ()
  | item :: rest => (body item).bind fun _ => forEach rest body

def mapEach (items : List β) (body : β → Tx σ ω ρ ε γ) : Tx σ ω ρ ε (List γ) :=
  match items with
  | [] => .done []
  | item :: rest =>
    (body item).bind fun value => (mapEach rest body).bind fun values => .done (value :: values)

@[simp] theorem pure_eq_done (value : α) : (pure value : Tx σ ω ρ ε α) = .done value := rfl

@[simp] theorem bind_eq_bind (first : Tx σ ω ρ ε α) (rest : α → Tx σ ω ρ ε β) :
    first >>= rest = first.bind rest := rfl

theorem bind_assoc (first : Tx σ ω ρ ε α) (second : α → Tx σ ω ρ ε β) (third : β → Tx σ ω ρ ε γ) :
    (first.bind second).bind third = first.bind fun value => (second value).bind third := by
  induction first with
  | done value => rfl
  | raise error => rfl
  | statement lock ws next ih =>
    simp only [bind]
    congr 1
    funext state
    exact ih state
  | mint next ih =>
    simp only [bind]
    congr 1
    funext id
    exact ih id

/-- What a transaction run alone leaves: its result, the state it has reached
and the identifiers handed out. The state is the one inside the transaction;
a caller that lets an error escape rolls it back. -/
structure Outcome (σ ε α : Type) where
  result : Except ε α
  state : σ
  supply : Nat

variable (apply : σ → ω → σ)

def exec : Tx σ ω ρ ε α → σ → Nat → Outcome σ ε α
  | .done value, state, supply => ⟨.ok value, state, supply⟩
  | .raise error, state, supply => ⟨.error error, state, supply⟩
  | .statement _ writes next, state, supply =>
    (next state).exec ((writes state).foldl apply state) supply
  | .mint next, state, supply => (next supply).exec state (supply + 1)

@[simp] theorem exec_done (value : α) (state : σ) (supply : Nat) :
    (done value : Tx σ ω ρ ε α).exec apply state supply = ⟨.ok value, state, supply⟩ := rfl

@[simp] theorem exec_raise (error : ε) (state : σ) (supply : Nat) :
    (raise error : Tx σ ω ρ ε α).exec apply state supply = ⟨.error error, state, supply⟩ := rfl

theorem exec_bind (first : Tx σ ω ρ ε α) (rest : α → Tx σ ω ρ ε β) (state : σ) (supply : Nat) :
    (first.bind rest).exec apply state supply =
      match first.exec apply state supply with
      | ⟨.ok value, after, left⟩ => (rest value).exec apply after left
      | ⟨.error error, after, left⟩ => ⟨.error error, after, left⟩ := by
  induction first generalizing state supply with
  | done value => rfl
  | raise error => rfl
  | statement lock ws next ih => exact ih _ _ _
  | mint next ih => exact ih _ _ _

theorem exec_query (lock : σ → Option ρ) (answer : σ → Except ε (List ω × α)) (state : σ)
    (supply : Nat) : (query lock answer).exec apply state supply =
      match answer state with
      | .ok (ws, value) => ⟨.ok value, ws.foldl apply state, supply⟩
      | .error error => ⟨.error error, state, supply⟩ := by
  simp only [query, exec]
  cases answer state with
  | ok value => rfl
  | error error => rfl

@[simp] theorem exec_read (answer : σ → α) (state : σ) (supply : Nat) :
    (read answer : Tx σ ω ρ ε α).exec apply state supply =
      ⟨.ok (answer state), state, supply⟩ := rfl

@[simp] theorem exec_readLocking (lock : σ → Option ρ) (answer : σ → α) (state : σ) (supply : Nat) :
    (readLocking lock answer : Tx σ ω ρ ε α).exec apply state supply =
      ⟨.ok (answer state), state, supply⟩ := rfl

@[simp] theorem exec_newId (state : σ) (supply : Nat) :
    (newId : Tx σ ω ρ ε Nat).exec apply state supply = ⟨.ok supply, state, supply + 1⟩ := rfl

theorem le_exec_supply (body : Tx σ ω ρ ε α) (state : σ) (supply : Nat) :
    supply ≤ (body.exec apply state supply).supply := by
  induction body generalizing state supply with
  | done value => exact Nat.le_refl _
  | raise error => exact Nat.le_refl _
  | statement lock ws next ih => exact ih _ _ _
  | mint next ih => exact Nat.le_of_succ_le (ih _ _ _)

/-! What a transaction that returns has done, read from its parts. -/

def Returns (body : Tx σ ω ρ ε α) (state : σ) (supply : Nat) (value : α) (after : σ)
    (left : Nat) : Prop :=
  body.exec apply state supply = ⟨.ok value, after, left⟩

variable {apply} {state after : σ} {supply left : Nat}

variable {value : α} {error : ε} {rest : α → Tx σ ω ρ ε β} {answer : σ → α} {lock : σ → Option ρ}
  {result : Unit} {body : β → Tx σ ω ρ ε Unit}

section

variable {body : Tx σ ω ρ ε α} (hr : Returns apply body state supply value after left)

include hr

theorem Returns.unique (hr' : Returns apply body state supply other after' left') : value = other ∧
    after = after' ∧ left = left' := by
  unfold Returns at hr hr'
  rw [hr] at hr'
  cases hr'
  exact ⟨rfl, rfl, rfl⟩

theorem Returns.supply_le : supply ≤ left := by
  have hl := body.le_exec_supply apply state supply
  rwa [hr] at hl

end

theorem returns_of_isOk {body : Tx σ ω ρ ε α} (ho : (body.exec apply state supply).result.isOk) :
    ∃ value, Returns apply body state supply value (body.exec apply state supply).state
      (body.exec apply state supply).supply := by
  unfold Returns
  generalize body.exec apply state supply = outcome at ho
  rcases outcome with ⟨error | value, after, left⟩
  · cases ho
  · exact ⟨value, rfl⟩

@[simp] theorem returns_done {result : α} :
    Returns apply (done value : Tx σ ω ρ ε α) state supply result after left ↔
      value = result ∧ state = after ∧ supply = left := by
  simp [Returns]

@[simp] theorem returns_raise {result : α} :
    ¬ Returns apply (raise error : Tx σ ω ρ ε α) state supply result after left := by
  simp [Returns]

theorem returns_bind {first : Tx σ ω ρ ε α} {result : β} :
    Returns apply (first.bind rest) state supply result after left ↔
      ∃ value m k, Returns apply first state supply value m k ∧
        Returns apply (rest value) m k result after left := by
  unfold Returns
  rw [exec_bind]
  constructor
  · intro hx
    split at hx
    · next value m k h1 =>
      exact ⟨value, m, k, h1, hx⟩
    · cases hx
  · rintro ⟨value, m, k, h1, ht⟩
    rw [h1]
    exact ht

theorem Returns.parts {first : Tx σ ω ρ ε α} {result : β}
    (hr : Returns apply (first.bind rest) state supply result after left) :
    ∃ value m k, Returns apply first state supply value m k ∧
      Returns apply (rest value) m k result after left :=
  returns_bind.mp hr

theorem Returns.ended {result : α}
    (hr : Returns apply (done value : Tx σ ω ρ ε α) state supply result after left) :
    value = result ∧ state = after ∧ supply = left :=
  returns_done.mp hr

@[simp] theorem returns_read_bind {result : β} :
    Returns apply ((read answer).bind rest) state supply result after left ↔
      Returns apply (rest (answer state)) state supply result after left :=
  Iff.rfl

@[simp] theorem returns_readLocking_bind {result : β} :
    Returns apply ((readLocking lock answer).bind rest) state supply result after left ↔
      Returns apply (rest (answer state)) state supply result after left :=
  Iff.rfl

@[simp] theorem returns_newId_bind {rest : Nat → Tx σ ω ρ ε β} {result : β} :
    Returns apply ((newId).bind rest) state supply result after left ↔
      Returns apply (rest supply) state (supply + 1) result after left :=
  Iff.rfl

theorem returns_query {answer : σ → Except ε (List ω × α)} {result : α} :
    Returns apply (query lock answer) state supply result after left ↔
      ∃ ws, answer state = .ok (ws, result) ∧ after = ws.foldl apply state ∧ supply = left := by
  unfold Returns
  rw [exec_query]
  constructor
  · intro hx
    split at hx
    · next ws value ha =>
      cases hx
      exact ⟨ws, ha, rfl, rfl⟩
    · cases hx
  · rintro ⟨ws, ha, rfl, rfl⟩
    rw [ha]

theorem find?_fails_eq_none {χ : Type} {checks : List (Bool × χ)} :
    (checks.find? fun check => !check.1) = none ↔ ∀ check ∈ checks, check.1 := by
  simp

@[simp] theorem returns_read {result : α} :
    Returns apply (read answer : Tx σ ω ρ ε α) state supply result after left ↔
      answer state = result ∧ state = after ∧ supply = left := by
  simp [Returns]

@[simp] theorem returns_readLocking {result : α} :
    Returns apply (readLocking lock answer : Tx σ ω ρ ε α) state supply result after left ↔
      answer state = result ∧ state = after ∧ supply = left := by
  simp [Returns]

theorem returns_require {failure : σ → Option ε} :
    Returns apply (require failure : Tx σ ω ρ ε Unit) state supply result after left ↔
      failure state = none ∧ state = after ∧ supply = left := by
  unfold require
  rw [returns_query]
  cases failure state <;> simp [eq_comm]

@[simp] theorem returns_newId {result : Nat} :
    Returns apply (newId : Tx σ ω ρ ε Nat) state supply result after left ↔
      supply = result ∧ state = after ∧ supply + 1 = left := by
  simp [Returns]

section

variable {condition : Bool}

@[simp] theorem returns_ensure : Returns apply
    (ensure condition error : Tx σ ω ρ ε Unit) state supply result after left ↔ condition ∧ state =
    after ∧ supply = left := by
  cases condition <;> simp [ensure]

theorem returns_when {body : Tx σ ω ρ ε Unit} : Returns apply
    (when condition body) state supply result after left ↔ (condition ∧
    Returns apply body state supply result after left) ∨ (condition = false ∧ state = after ∧
    supply = left) := by
  cases condition <;> simp [when]

theorem Returns.of_when {body : Tx σ ω ρ ε Unit}
    (hr : Returns apply (when condition body) state supply result after left)
    (hb : Returns apply body state supply result after left → P ∧ state = after ∧ supply = left) :
    (condition → P) ∧ state = after ∧ supply = left := by
  rcases returns_when.mp hr with ⟨-, h⟩ | ⟨hc, hs⟩
  · exact ⟨fun _ => (hb h).1, (hb h).2⟩
  · exact ⟨fun ht => absurd ht (by simp [hc]), hs⟩

end

theorem returns_forSome {value : Option β} :
    Returns apply (forSome value body) state supply result after left ↔
      (value = none ∧ state = after ∧ supply = left) ∨
        ∃ item, value = some item ∧ Returns apply (body item) state supply result after left := by
  cases value <;> simp [forSome]

@[simp] theorem returns_ofExcept {computed : Except ε α} {result : α} :
    Returns apply (ofExcept computed : Tx σ ω ρ ε α) state supply result after left ↔
      computed = .ok result ∧ state = after ∧ supply = left := by
  cases computed <;> simp [ofExcept]

@[simp] theorem returns_orRaise {found : Option α} {result : α} :
    Returns apply (orRaise found error : Tx σ ω ρ ε α) state supply result after left ↔
      found = some result ∧ state = after ∧ supply = left := by
  cases found <;> simp [orRaise]

theorem returns_forEach_nil : Returns apply (forEach [] body) state supply result after left ↔
      state = after ∧ supply = left := by
  simp [forEach]

theorem returns_forEach_cons {item : β} {rest : List β} :
    Returns apply (forEach (item :: rest) body) state supply result after left ↔
      ∃ m k, Returns apply (body item) state supply () m k ∧
        Returns apply (forEach rest body) m k () after left := by
  simp only [forEach, returns_bind]
  constructor
  · rintro ⟨_, m, k, hb, ht⟩
    exact ⟨m, k, hb, ht⟩
  · rintro ⟨m, k, hb, ht⟩
    exact ⟨(), m, k, hb, ht⟩

theorem returns_forEach_guard {items : List β} {guard : β → Prop}
    (hb : ∀ item after left, Returns apply (body item) state supply () after left ↔
      guard item ∧ state = after ∧ supply = left) :
    Returns apply (forEach items body) state supply result after left ↔
      (∀ item ∈ items, guard item) ∧ state = after ∧ supply = left := by
  induction items with
  | nil => simp [returns_forEach_nil]
  | cons item rest ih =>
    simp only [returns_forEach_cons, hb, List.forall_mem_cons]
    constructor
    · rintro ⟨m, k, ⟨hi, rfl, rfl⟩, ht⟩
      obtain ⟨ha, haf, hl⟩ := ih.mp ht
      exact ⟨⟨hi, ha⟩, haf, hl⟩
    · rintro ⟨⟨hi, ha⟩, haf, hl⟩
      exact ⟨state, supply, ⟨hi, rfl, rfl⟩, ih.mpr ⟨ha, haf, hl⟩⟩

theorem returns_forEach_foldl (hb : ∀ item state supply after left,
      Returns apply (body item) state supply () after left →
        after = effect state item ∧ supply = left)
    (hr : Returns apply (forEach items body) state supply result after left) :
    after = items.foldl effect state ∧ supply = left := by
  induction items generalizing state supply with
  | nil =>
    obtain ⟨rfl, rfl⟩ := returns_forEach_nil.mp hr
    exact ⟨rfl, rfl⟩
  | cons item rest ih =>
    obtain ⟨m, k, hi, ht⟩ := returns_forEach_cons.mp hr
    obtain ⟨rfl, rfl⟩ := hb _ _ _ _ _ hi
    exact ih ht

/-! ### What every statement of a transaction does -/

/-- Each statement, in whatever state it runs, locks and writes as `ok` allows. -/
def EachStatement (ok : σ → Option ρ → List ω → Prop) : Tx σ ω ρ ε α → Prop
  | .done _ => True
  | .raise _ => True
  | .statement lock writes next =>
    ∀ state, ok state (lock state) (writes state) ∧ (next state).EachStatement ok
  | .mint next => ∀ id, (next id).EachStatement ok

section EachStatement

variable {ok : σ → Option ρ → List ω → Prop}

namespace EachStatement

theorem done : (done value : Tx σ ω ρ ε α).EachStatement ok :=
  trivial

theorem bind {first : Tx σ ω ρ ε α}
    (h1 : first.EachStatement ok) (ht : ∀ value, (rest value).EachStatement ok) :
    (first.bind rest).EachStatement ok := by
  induction first with
  | done value => exact ht value
  | raise error => trivial
  | statement lock ws next ih =>
    intro state
    exact ⟨(h1 state).1, ih state (h1 state).2⟩
  | mint next ih =>
    intro id
    exact ih id (h1 id)

theorem query {lock : σ → Option ρ} {answer : σ → Except ε (List ω × α)}
    (ho : ∀ state ws value, answer state = .ok (ws, value) → ok state (lock state) ws)
    (he : ∀ state error, answer state = .error error → ok state (lock state) []) :
    (query lock answer).EachStatement ok := by
  intro state
  dsimp only
  cases ha : answer state with
  | ok result => exact ⟨ho state result.1 result.2 ha, trivial⟩
  | error error => exact ⟨he state error ha, trivial⟩

theorem readLocking (ho : ∀ state, ok state (lock state) []) :
    (readLocking lock answer : Tx σ ω ρ ε α).EachStatement ok :=
  fun state => ⟨ho state, trivial⟩

theorem read (ho : ∀ state, ok state none []) : (read answer : Tx σ ω ρ ε α).EachStatement ok :=
  fun state => ⟨ho state, trivial⟩

theorem require {failure : σ → Option ε} (ho : ∀ state, ok state none []) :
    (require failure : Tx σ ω ρ ε Unit).EachStatement ok := by
  refine .query (fun state ws value ha => ?_) fun state _ _ => ho state
  split at ha
  · cases ha
    exact ho state
  · cases ha

theorem newId : (newId : Tx σ ω ρ ε Nat).EachStatement ok :=
  fun _ => trivial

theorem ensure : (ensure condition error : Tx σ ω ρ ε Unit).EachStatement ok := by
  cases condition <;> trivial

theorem when {condition : Bool} {body : Tx σ ω ρ ε Unit}
    (hb : body.EachStatement ok) : (when condition body).EachStatement ok := by
  cases condition with
  | true => exact hb
  | false => trivial

theorem ofExcept : (ofExcept computed : Tx σ ω ρ ε α).EachStatement ok := by
  cases computed <;> trivial

theorem orRaise : (orRaise found error : Tx σ ω ρ ε α).EachStatement ok := by
  cases found <;> trivial

theorem embed {ω' ρ' : Type} {w : ω → ω'} {row : ρ → ρ'}
    {ok : σ → Option ρ' → List ω' → Prop} (ho : ∀ state (lock : Option ρ) (ws : List ω),
      ok state (lock.map row) (ws.map w))
    (body : Tx σ ω ρ ε α) : (body.embed w row).EachStatement ok := by
  induction body with
  | done value => trivial
  | raise error => trivial
  | statement lock ws next ih => exact fun state => ⟨ho state _ _, ih state⟩
  | mint next ih => exact fun id => ih id

theorem of_returns {P : σ → Prop} {body : Tx σ ω ρ ε α} (hb : body.EachStatement ok)
    (hs : ∀ state lock ws, P state → ok state lock ws → P (ws.foldl apply state))
    (hs0 : P state) (hr : Returns apply body state supply value after left) : P after := by
  induction body generalizing state supply with
  | done result =>
    obtain ⟨-, rfl, -⟩ := returns_done.mp hr
    exact hs0
  | raise error => exact absurd hr returns_raise
  | statement lock ws next ih =>
    obtain ⟨ho, hn⟩ := hb state
    exact ih _ hn (hs _ _ _ hs0 ho) hr
  | mint next ih => exact ih _ (hb supply) hs0 hr

theorem forEach {items : List β}
    (hb : ∀ item, (body item).EachStatement ok) : (forEach items body).EachStatement ok := by
  induction items with
  | nil => trivial
  | cons item rest ih => exact (hb item).bind fun _ => ih

end EachStatement

end EachStatement

end Tx

theorem bind_eq_ok_iff {α : Type} {first : Except ε α} {rest : α → Except ε β} {result : β} :
    first >>= rest = .ok result ↔ ∃ value, first = .ok value ∧ rest value = .ok result := by
  cases first with
  | ok value => simp [bind, Except.bind]
  | error error => simp [bind, Except.bind]

theorem mapM_eq_ok_iff {ε β : Type} {f : α → Except ε β} {items : List α} {results : List β} :
    items.mapM f = .ok results ↔
      List.Forall₂ (fun item result => f item = .ok result) items results := by
  induction items generalizing results with
  | nil =>
    rw [List.mapM_nil, List.forall₂_nil_left_iff]
    exact ⟨fun ho => (Except.ok.inj ho).symm, fun hn => congrArg Except.ok hn.symm⟩
  | cons item rest ih =>
    rw [List.mapM_cons, bind_eq_ok_iff]
    constructor
    · rintro ⟨result, hi, ht⟩
      obtain ⟨others, hother, hd⟩ := bind_eq_ok_iff.mp ht
      obtain rfl := Except.ok.inj hd
      exact .cons hi (ih.mp hother)
    · rintro (_ | ⟨hi, ht⟩)
      exact ⟨_, hi, bind_eq_ok_iff.mpr ⟨_, ih.mpr ht, rfl⟩⟩

/-! Transactions run one after another on one database, each rolled back when
it raises. Identifiers are not rolled back. -/

structure Database (σ : Type) where
  state : σ
  supply : Nat

namespace Database

variable {σ ω ρ ε α A : Type} (apply : σ → ω → σ)

def run (body : Tx σ ω ρ ε α) (db : Database σ) : Database σ :=
  match body.exec apply db.state db.supply with
  | ⟨.ok _, after, left⟩ => ⟨after, left⟩
  | ⟨.error _, _, left⟩ => ⟨db.state, left⟩

/-- The transition system of the calls `program` implements. -/
def step (program : A → Tx σ ω ρ ε α) (db : Database σ) (call : A) : Option (Database σ) :=
  some (db.run apply (program call))

variable {apply} {program : A → Tx σ ω ρ ε α} {allowed : Database σ → A → Prop}
  {start db : Database σ} {body : Tx σ ω ρ ε α}

theorem run_cases (body : Tx σ ω ρ ε α) (db : Database σ) :
    (∃ v, Tx.Returns apply body db.state db.supply v (db.run apply body).state
        (db.run apply body).supply) ∨ (db.run apply body).state = db.state := by
  unfold run Tx.Returns
  split
  · next v t left hx => exact .inl ⟨v, hx⟩
  · exact .inr rfl

theorem run_of_returns (hr : Tx.Returns apply body db.state db.supply v t left) :
    db.run apply body = ⟨t, left⟩ := by
  unfold run
  rw [show body.exec apply db.state db.supply = ⟨.ok v, t, left⟩ from hr]

def Refuses (apply : σ → ω → σ) (body : Tx σ ω ρ ε α) (db : Database σ) : Prop :=
  ∃ error, (body.exec apply db.state db.supply).result = .error error

theorem refuses_iff (body : Tx σ ω ρ ε α) (db : Database σ) : Refuses apply body db ↔
      ¬ ∃ v t left, Tx.Returns apply body db.state db.supply v t left := by
  unfold Refuses Tx.Returns
  rcases body.exec apply db.state db.supply with ⟨error | v, t, left⟩ <;> simp

theorem invariant_of_returns {P : σ → Prop}
    (hr : Transition.Reach (step apply program) allowed start db) (hs0 : P start.state)
    (hc : ∀ (db : Database σ) call v t left, P db.state → allowed db call →
      Tx.Returns apply (program call) db.state db.supply v t left → P t) :
    P db.state := by
  refine hr.invariant (P := fun db => P db.state) hs0 ?_
  rintro before call next hb ha hst
  cases hst
  rcases run_cases (program call) before with ⟨v, hrt⟩ | hs
  · exact hc before call v _ _ hb ha hrt
  · exact hs ▸ hb

end Database

end Transaction
