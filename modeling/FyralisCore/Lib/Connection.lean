/-! A connection inside an open transaction, as PostgreSQL keeps it. Once a
statement has failed, every further one is refused until the savepoint around
it or the whole transaction is rolled back. Between statements a program may
raise exceptions and catch them; these alone roll nothing back. -/
namespace Connection

structure Conn (σ : Type) where
  state : σ
  aborted : Bool := false

/-- The end of the transaction that began in `start`: ROLLBACK after an exception,
else COMMIT, which rolls an aborted transaction back. -/
def Conn.ended {σ ε α : Type} (start : σ) (conn : Conn σ) : Except ε α → σ
  | .ok _ => if conn.aborted then start else conn.state
  | .error _ => start

def Session (σ ε α : Type) : Type :=
  Conn σ → Except ε α × Conn σ

namespace Session

variable {σ τ ε α β : Type}

def bind (first : Session σ ε α) (rest : α → Session σ ε β) : Session σ ε β := fun conn =>
  match first conn with
  | (.ok value, after) => rest value after
  | (.error error, after) => (.error error, after)

instance : Monad (Session σ ε) where
  pure value := fun conn => (.ok value, conn)
  bind := bind

def raise (error : ε) : Session σ ε α := fun conn => (.error error, conn)

/-- One statement. A transaction that has aborted refuses it with `refusal`; a
statement that fails aborts the transaction. -/
def statement (refusal : ε) (run : σ → Except ε (σ × α)) : Session σ ε α := fun conn =>
  if conn.aborted then (.error refusal, conn)
  else
    match run conn.state with
    | .ok (state, value) => (.ok value, { state })
    | .error error => (.error error, { conn with aborted := true })

def within (get : σ → τ) (set : τ → σ → σ) (body : Session τ ε α) : Session σ ε α := fun conn =>
  let (result, after) := body { state := get conn.state, aborted := conn.aborted }
  (result, { state := set after.state conn.state, aborted := after.aborted })

variable {refusal error : ε} {state : σ} {conn after : Conn σ} {value : α}

theorem bind_of_ok {first : Session σ ε α}
    (h1 : first conn = (.ok value, after)) : first.bind rest conn = rest value after := by
  simp [bind, h1]

theorem bind_of_error {first : Session σ ε α} (h1 : first conn = (.error error, after)) :
    first.bind rest conn = (.error error, after) := by
  simp [bind, h1]

theorem statement_of_ok (hr : run state = .ok (r, value)) :
    statement refusal run { state } = (.ok value, { state := r }) := by
  simp [statement, hr]

theorem statement_of_error (hr : run state = .error error) :
    statement refusal run { state } = (.error error, { state, aborted := true }) := by
  simp [statement, hr]

end Session

end Connection
