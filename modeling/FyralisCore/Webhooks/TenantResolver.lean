import FyralisCore.Lib.Dict
import FyralisCore.Lib.Table
import Mathlib.Data.Rat.Defs

/-! The tenant resolver of the webhook ingress (`webhooks/tenant_resolver.py`) in one
process. A call runs without interruption up to its only await, its statement; the
database runs the statement; the call goes on from its answer. Other calls run in
between. -/
namespace FyralisCore.Webhooks

open Relational Function

structure Installation where
  tenantId : Nat
  provider : String
  installationId : String
  secretRef : Option String
  enabled : Bool := true
  deriving DecidableEq, Repr

/-- `(provider, installation_id)`, which the table holds once at most. -/
structure Key where
  provider : String
  installationId : String
  deriving DecidableEq, Repr

def Installation.key (row : Installation) : Key :=
  ⟨row.provider, row.installationId⟩

inductive CacheValue where
  | hit (tenantId installationRowId : Nat) (secretRef : Option String)
  | negative
  deriving DecidableEq, Repr

structure CacheEntry where
  value : CacheValue
  expiresAt : ℚ
  deriving DecidableEq

/-- `InstallationCache`: the entries in the order of their last use, the oldest first. -/
structure InstallationCache where
  maxEntries : Nat
  ttlSeconds : ℚ
  entries : List (Key × CacheEntry) := []
  maxEntries_pos : 0 < maxEntries
  ttlSeconds_pos : 0 < ttlSeconds

namespace InstallationCache

section

variable (cache : InstallationCache)

def entry (key : Key) : Option CacheEntry :=
  cache.entries.lookup key

def moveToEnd (key : Key) (found : CacheEntry) : InstallationCache :=
  { cache with entries := Dict.pop key cache.entries ++ [(key, found)] }

def invalidate (key : Key) : InstallationCache :=
  { cache with entries := Dict.pop key cache.entries }

def get (key : Key) (now : ℚ) : Option CacheValue × InstallationCache :=
  match cache.entry key with
  | none => (none, cache)
  | some found =>
    if found.expiresAt ≤ now then (none, cache.invalidate key)
    else (some found.value, cache.moveToEnd key found)

/-- `popitem(last=False)` until the entries fit. -/
def evict : InstallationCache :=
  { cache with entries := cache.entries.drop (cache.entries.length - cache.maxEntries) }

def put (key : Key) (value : CacheValue) (now : ℚ) : InstallationCache :=
  (cache.moveToEnd key ⟨value, now + cache.ttlSeconds⟩).evict

end

end InstallationCache

def resolution (installations : Table Nat Installation) (key : Key) : CacheValue :=
  match installations.rows.find? fun (_, row) => row.key = key && row.enabled with
  | some (rowId, row) => .hit row.tenantId rowId row.secretRef
  | none => .negative

/-- An administrative call, with the row id that `register_installation` has made. -/
inductive AdminAction where
  | registerInstallation (rowId tenantId : Nat) (key : Key) (secretRef : Option String)
  | setEnabled (rowId : Nat) (enabled : Bool)
  | updateSecretRef (rowId : Nat) (newSecretRef : Option String)
  deriving DecidableEq, Repr

/-- The UPDATE of one row, RETURNING its key; nothing when there is no such row. -/
def updateRow (installations : Table Nat Installation) (rowId : Nat)
    (change : Installation → Installation) : Option Key × Table Nat Installation :=
  match installations.get rowId with
  | none => (none, installations)
  | some row => (some row.key, installations.update rowId change)

/-- The statement of an administrative call: the key of the row it wrote, none when it
raises or finds no row, and the table after it. -/
def AdminAction.statement (action : AdminAction) (tenants : List Nat)
    (installations : Table Nat Installation) : Option Key × Table Nat Installation :=
  match action with
  | .registerInstallation rowId tenantId key secretRef =>
    let taken := (installations.get rowId).isSome || installations.any fun _ row => row.key = key
    if taken || tenantId ∉ tenants then (none, installations)
    else
      (some key, installations.put rowId
        { tenantId, provider := key.provider, installationId := key.installationId, secretRef })
  | .setEnabled rowId enabled =>
    updateRow installations rowId fun row => { row with enabled }
  | .updateSecretRef rowId newSecretRef =>
    updateRow installations rowId fun row => { row with secretRef := newSecretRef }

/-- A `resolve` call that missed the cache; `found` is what its SELECT answered. -/
structure Lookup where
  key : Key
  found : Option CacheValue := none
  deriving DecidableEq

/-- An administrative call; `answered` is what its statement answered. -/
structure Change where
  action : AdminAction
  answered : Option (Option Key) := none
  deriving DecidableEq

structure Process where
  tenants : List Nat
  installations : Table Nat Installation
  cache : InstallationCache
  /-- The calls so far, which are numbered. -/
  calls : Nat := 0
  /-- The calls at their await. -/
  lookups : Nat → Option Lookup := fun _ => none
  changes : Nat → Option Change := fun _ => none

/-- What happens next. `abandon` ends the await of a call by an exception. -/
inductive Event (Request : Type) where
  | resolve (request : Request) (now : ℚ)
  | select (call : Nat)
  | resume (call : Nat) (now : ℚ)
  | change (action : AdminAction)
  | execute (call : Nat)
  | conclude (call : Nat)
  | abandon (call : Nat)

section Process

variable {Request : Type}

/-! `keyOf` is step 1 of `_resolve`, which reads nothing but the request: the provider and
what its extractor or the path names; none when the payload names no installation. -/

variable (keyOf : Request → Option Key)

namespace Process

def resolve (process : Process) (request : Request) (now : ℚ) : Process :=
  match keyOf request with
  | none => { process with calls := process.calls + 1 }
  | some key =>
    match process.cache.get key now with
    | (some _, cache) => { process with cache, calls := process.calls + 1 }
    | (none, cache) =>
      { process with
        cache
        calls := process.calls + 1
        lookups := update process.lookups process.calls (some { key }) }

def select (process : Process) (call : Nat) : Process :=
  match process.lookups call with
  | some ⟨key, none⟩ =>
    { process with
      lookups := update process.lookups call
        (some ⟨key, some (resolution process.installations key)⟩) }
  | _ => process

def resume (process : Process) (call : Nat) (now : ℚ) : Process :=
  match process.lookups call with
  | some ⟨key, some value⟩ =>
    { process with
      cache := process.cache.put key value now
      lookups := update process.lookups call none }
  | _ => process

def change (process : Process) (action : AdminAction) : Process :=
  { process with
    calls := process.calls + 1
    changes := update process.changes process.calls (some { action }) }

section

variable (process : Process)

def execute (call : Nat) : Process :=
  match process.changes call with
  | some ⟨action, none⟩ =>
    let (answer, installations) := action.statement process.tenants process.installations
    { process with
      installations
      changes := update process.changes call (some ⟨action, some answer⟩) }
  | _ => process

def conclude (call : Nat) : Process :=
  match process.changes call with
  | some ⟨_, some answer⟩ =>
    { process with
      cache := match answer with
        | some key => process.cache.invalidate key
        | none => process.cache
      changes := update process.changes call none }
  | _ => process

def abandon (call : Nat) : Process :=
  { process with
    lookups := update process.lookups call none
    changes := update process.changes call none }

def step : Event Request → Process
  | .resolve request now => process.resolve keyOf request now
  | .select call => process.select call
  | .resume call now => process.resume call now
  | .change action => process.change action
  | .execute call => process.execute call
  | .conclude call => process.conclude call
  | .abandon call => process.abandon call

def run (events : List (Event Request)) : Process :=
  events.foldl (step keyOf) process

/-- The answer that an event hands to the caller of `resolve`, with the number of the call. -/
def answer : Event Request → Option (Nat × Key × CacheValue)
  | .resolve request now => do
    let key ← keyOf request
    let value ← (process.cache.get key now).1
    return (process.calls, key, value)
  | .resume call _ => do
    let lookup ← process.lookups call
    let value ← lookup.found
    return (call, lookup.key, value)
  | _ => none

end

def start (tenants : List Nat) (installations : Table Nat Installation)
    (maxEntries : Nat) (ttlSeconds : ℚ) (hentries : 0 < maxEntries) (httl : 0 < ttlSeconds) :
    Process where
  tenants
  installations
  cache := { maxEntries, ttlSeconds, maxEntries_pos := hentries, ttlSeconds_pos := httl }

end Process

end Process

end FyralisCore.Webhooks
