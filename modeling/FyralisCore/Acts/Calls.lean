import FyralisCore.Acts.Effects
import FyralisCore.Lib.RelyGuarantee

/-! The calls of the act store, run one after another, each in a transaction
of its own, and as the transactions of sessions under READ COMMITTED. -/
namespace FyralisCore.Acts

open Relational Transaction

inductive ActCall where
  | createGoal (clock : Clock) (args : GoalCreate)
  | transitionGoal (clock : Clock) (goalId : Nat) (newState : GoalState)
    (causeEventId : Option Nat)
  | createCommitment (clock : Clock) (args : CommitmentCreate)
  | transitionCommitment (clock : Clock) (commitmentId : Nat) (newState : CommitmentState)
    (args : TransitionArgs)
  | addEdge (args : EdgeArgs)

def ActCall.run : ActCall → ActTx Unit
  | .createGoal clock args => (Acts.createGoal clock args).bind fun _ => .done ()
  | .transitionGoal clock goalId newState causeEventId =>
    (Acts.transitionGoal clock goalId newState causeEventId).bind fun _ => .done ()
  | .createCommitment clock args => (Acts.createCommitment clock args).bind fun _ => .done ()
  | .transitionCommitment clock commitmentId newState args =>
    (Acts.transitionCommitment clock commitmentId newState args).bind fun _ => .done ()
  | .addEdge args => (Acts.addEdge args).bind fun _ => .done ()

def actSchema : ReadCommitted.Schema Db Write RowRef ActError (List ActCall) where
  apply := Db.apply
  program calls := Tx.forEach calls ActCall.run

structure World where
  db : Db
  supply : Nat

def World.call (world : World) (call : ActCall) : World :=
  match call.run.exec Db.apply world.db world.supply with
  | ⟨.ok _, after, left⟩ => ⟨after, left⟩
  | ⟨.error _, _, left⟩ => ⟨world.db, left⟩

def World.step (world : World) (call : ActCall) : Option World :=
  some (world.call call)

theorem World.call_cases (w : World) (call : ActCall) :
    (Tx.Returns Db.apply call.run w.db w.supply () (w.call call).db
        (w.call call).supply) ∨ (w.call call).db = w.db := by
  unfold World.call Tx.Returns
  split
  · next t left hx => exact .inl hx
  · exact .inr rfl

theorem World.call_of_returns {w : World} {call : ActCall}
    (hr : Tx.Returns Db.apply call.run w.db w.supply () t left) :
    w.call call = ⟨t, left⟩ := by
  unfold World.call
  rw [show call.run.exec Db.apply w.db w.supply = ⟨.ok (), t, left⟩ from hr]

theorem returns_ignore : Tx.Returns Db.apply (body.bind fun _ => .done ()) db n r t left ↔
      ∃ v, Tx.Returns Db.apply body db n v t left := by
  rw [Tx.returns_bind]
  constructor
  · rintro ⟨v, _, _, hb, hd⟩
    obtain ⟨-, rfl, rfl⟩ := hd.ended
    exact ⟨v, hb⟩
  · rintro ⟨v, hb⟩
    exact ⟨v, t, left, hb, Tx.returns_done.mpr ⟨rfl, rfl, rfl⟩⟩

end FyralisCore.Acts
