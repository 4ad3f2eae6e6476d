import FyralisCore.Ingestion.TenantFlags
import Mathlib.Data.Rat.Defs

/-! The circuit breaker of the cutover (`feature_flags/circuit_breaker.py`): a
process that measures lag tick by tick, counts per tenant the consecutive ticks
in breach, keeps the counters in memory and in a table, and sets the flag
`ingestion.kafka_path_enabled` to FALSE when a counter reaches the window. -/
namespace FyralisCore.Ingestion

open Function

/-- What the breaker reads of `BreakerConfig` and of its `TenantFlags`. -/
structure BreakerConfig where
  breachThresholdSec : Int := 60
  breachWindowTicks : Int := 5
  /-- `KAFKA_PATH_ENABLED_DEFAULT` -/
  pathDefault : Bool := true
  ttl : Nat := 30

structure TenantBreachState where
  consecutiveBreachTicks : Nat
  tripped : Bool
  trippedAt : Option Nat
  lastTickAt : Nat

abbrev LagMap := List (String × List (Int × Rat))

abbrev SourcePartitions := List (String × Int)

structure WorstLane where
  source : Option String
  partition : Option Int
  lagSeconds : Rat
  activeLanes : Nat

def worstLaneForTenant (lagPerSource : LagMap) (sourcePartitions : SourcePartitions) : WorstLane :=
  let activeLanes := sourcePartitions.length
  sourcePartitions.foldl (fun worst (source, partition) =>
      let laneLag := (((lagPerSource.lookup source).getD []).lookup partition).getD 0
      if worst.source = none ∨ worst.lagSeconds < laneLag then
        { source := some source, partition := some partition, lagSeconds := laneLag, activeLanes }
      else worst)
    { source := none, partition := none, lagSeconds := 0, activeLanes }

def BreakerConfig.breached (config : BreakerConfig) (worst : WorstLane) : Bool :=
  config.breachThresholdSec < worst.lagSeconds

def updateBreachCounter (config : BreakerConfig) (entry : TenantBreachState) (worst : WorstLane) :
    TenantBreachState :=
  if config.breached worst then
    { entry with consecutiveBreachTicks := entry.consecutiveBreachTicks + 1 }
  else { entry with consecutiveBreachTicks := 0 }

def TenantBreachState.resetOnReenable (entry : TenantBreachState) : TenantBreachState :=
  { entry with consecutiveBreachTicks := 0, tripped := false, trippedAt := none }

/-- `_entry_for_tenant`, after the reset of a tripped one. -/
def entryForTenant (found : Option TenantBreachState) (now : Nat) : TenantBreachState :=
  match found with
  | some entry => if entry.tripped then entry.resetOnReenable else entry
  | none => { consecutiveBreachTicks := 0, tripped := false, trippedAt := none, lastTickAt := now }

/-- A tick that has read its inputs: the lags and the active tenants still to be
processed. -/
structure Tick (Tenant : Type) where
  now : Nat
  lagPerSource : LagMap
  remaining : List (Tenant × SourcePartitions)

inductive BreakerPhase (Tenant : Type) where
  | idle
  | loop (tick : Tick Tenant)
  /-- `kafka_path_enabled` -/
  | deciding (tick : Tick Tenant) (tenant : Tenant) (lanes : SourcePartitions)
  | persisting (tick : Tick Tenant) (tenant : Tenant)
  /-- `set_bool`, before its UPSERT has committed and after. -/
  | flipping (tick : Tick Tenant) (tenant : Tenant)
  | flipped (tick : Tick Tenant) (tenant : Tenant)

structure BreakerProcess (Tenant : Type) where
  state : Tenant → Option TenantBreachState
  flags : FlagReader Tenant Unit := {}
  phase : BreakerPhase Tenant := .idle

/-- What the flag of a tenant and its active ticks have been through. -/
inductive TickEvent where
  | breached
  | healthy
  | enabled
  deriving DecidableEq

structure BreakerSystem (Tenant : Type) where
  clock : Nat := 0
  /-- `tenant_flags` -/
  flags : Tenant → Option Bool := fun _ => none
  /-- `circuit_breaker_state` -/
  rows : Tenant → Option TenantBreachState := fun _ => none
  process : Option (BreakerProcess Tenant) := none
  /-- The latest first. -/
  history : Tenant → List TickEvent := fun _ => []
  /-- The tenants the breaker has set to FALSE, with their history at that time. -/
  trips : List (Tenant × List TickEvent) := []

inductive BreakerAction (Tenant : Type) where
  | elapse (seconds : Nat)
  /-- An operator writes the flag's row, or removes it. -/
  | operator (tenant : Tenant) (value : Option Bool)
  /-- The process starts and runs `_load_state`. -/
  | start
  /-- `_read_tick_inputs`; none when a measurement fails. -/
  | measure (inputs : Option (LagMap × List (Tenant × SourcePartitions)))
  | next
  | flag (move : FlagMove Tenant Unit)
  /-- The UPSERT of `set_bool` commits. -/
  | setFalse
  | flipReturns
  | flipRaises
  /-- `_persist_state` -/
  | persist
  /-- The process is gone: killed, or by an exception of `_persist_state`. -/
  | crash

variable {Tenant : Type} [DecidableEq Tenant]

section

variable (config : BreakerConfig)

def BreakerSystem.enabled (system : BreakerSystem Tenant) (tenant : Tenant) : Bool :=
  (system.flags tenant).getD config.pathDefault

def BreakerSystem.record (system : BreakerSystem Tenant) (tenant : Tenant) (event : TickEvent) :
    BreakerSystem Tenant :=
  { system with history := update system.history tenant (event :: system.history tenant) }

def BreakerProcess.decide (process : BreakerProcess Tenant) (tick : Tick Tenant) (tenant : Tenant)
    (lanes : SourcePartitions) (flagValue : Bool) : BreakerProcess Tenant :=
  if flagValue then
    let worst := worstLaneForTenant tick.lagPerSource lanes
    let counted := updateBreachCounter config (entryForTenant (process.state tenant) tick.now) worst
    { process with
      state := update process.state tenant (some { counted with lastTickAt := tick.now })
      phase :=
        if config.breachWindowTicks ≤ counted.consecutiveBreachTicks then .flipping tick tenant
        else .persisting tick tenant }
  else
    -- `_handle_flag_disabled_tenant`
    match process.state tenant with
    | some entry =>
      if entry.tripped then
        { process with
          state := update process.state tenant (some { entry with lastTickAt := tick.now })
          phase := .persisting tick tenant }
      else { process with phase := .loop tick }
    | none => { process with phase := .loop tick }

def tickEvent (tick : Tick Tenant) (lanes : SourcePartitions) : TickEvent :=
  if config.breached (worstLaneForTenant tick.lagPerSource lanes) then .breached else .healthy

/-- A read of the flag goes on; its answer makes the tick one of the tenant's. -/
def BreakerSystem.moveFlag (system : BreakerSystem Tenant) (process : BreakerProcess Tenant)
    (move : FlagMove Tenant Unit) : Option (BreakerSystem Tenant) := do
  let .deciding tick tenant lanes := process.phase | none
  match process.flags.move config.pathDefault config.ttl system.clock system.flags move with
  | none => none
  | some (flags, none) => some { system with process := some { process with flags } }
  | some (flags, some answer) =>
    if answer.tenant = tenant then
      some ({ system with
        process := some ({ process with flags }.decide config tick tenant lanes answer.value)
      }.record tenant (tickEvent config tick lanes))
    else none

def breakerStep (system : BreakerSystem Tenant) : BreakerAction Tenant → Option
    (BreakerSystem Tenant)
  | .elapse seconds => some { system with clock := system.clock + seconds }
  | .operator tenant value =>
    let after := { system with flags := update system.flags tenant value }
    some (if !system.enabled config tenant && after.enabled config tenant then
      after.record tenant .enabled
    else after)
  | .start =>
    if system.process.isSome then none
    else some { system with process := some { state := system.rows } }
  | .measure inputs => do
    let process ← system.process
    match process.phase, inputs with
    | .idle, some (lagPerSource, active) =>
      some { system with
        process := some { process with phase := .loop ⟨system.clock, lagPerSource, active⟩ } }
    | .idle, none => some system
    | _, _ => none
  | .next => do
    let process ← system.process
    match process.phase with
    | .loop ⟨now, lagPerSource, (tenant, lanes) :: rest⟩ =>
      some { system with
        process := some { process with phase := .deciding ⟨now, lagPerSource, rest⟩ tenant lanes } }
    | .loop ⟨_, _, []⟩ => some { system with process := some { process with phase := .idle } }
    | _ => none
  | .flag move => do
    let process ← system.process
    match move with
    | .abandon | .invalidate _ => none
    | _ => system.moveFlag config process move
  | .setFalse => do
    let process ← system.process
    match process.phase with
    | .flipping tick tenant =>
      some { system with
        flags := update system.flags tenant (some false)
        process := some { process with phase := .flipped tick tenant }
        trips := (tenant, system.history tenant) :: system.trips }
    | _ => none
  | .flipReturns => do
    let process ← system.process
    match process.phase with
    | .flipped tick tenant =>
      let (flags, _) ← process.flags.move config.pathDefault config.ttl system.clock system.flags
        (.invalidate tenant)
      some { system with
        process := some
          { state := update process.state tenant ((process.state tenant).map fun entry =>
              { entry with tripped := true, trippedAt := some tick.now })
            flags
            phase := .persisting tick tenant } }
    | _ => none
  | .flipRaises => do
    let process ← system.process
    match process.phase with
    | .flipping tick tenant | .flipped tick tenant =>
      some { system with process := some { process with phase := .persisting tick tenant } }
    | _ => none
  | .persist => do
    let process ← system.process
    match process.phase with
    | .persisting tick tenant =>
      some { system with
        rows := update system.rows tenant (process.state tenant)
        process := some { process with phase := .loop tick } }
    | _ => none
  | .crash => system.process.map fun _ => { system with process := none }

end

end FyralisCore.Ingestion
