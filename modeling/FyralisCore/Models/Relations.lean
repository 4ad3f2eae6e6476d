import FyralisCore.Models.EdgesRepo

/-! The relations of a model and their mirror in its array columns
(`_set_model_relations` of `repo.py`). The lists are differences of sets in the
source; their order here is that of the arguments. -/
namespace FyralisCore.Models

open Relational Transaction

structure RelationArgs where
  modelId : Nat
  tenantId : Nat
  detectedBy : String
  supports : Option (List Nat) := none
  contributesTo : Option (List Nat) := none
  instanceOf : Option (List Nat) := none
  supersededBy : Option Nat := none
  createdByEventId : Option Nat := none
  updateArrays : Bool := true

def RelationArgs.edgeLink (args : RelationArgs) (kind : RegistryKind) (source target : Nat) :
    EdgeLink where
  source := source
  target := target
  kind := kind
  tenantId := args.tenantId
  detectedBy := args.detectedBy
  createdByEventId := args.createdByEventId

section

variable (now : Nat) (kind : RegistryKind) (args : RelationArgs)

/-- Converge the edges of one kind at one side of a model: `existing` finds
those there are, `other` is their other endpoint and `pair` the source and
target of the edge to a given one. -/
def syncKind (existing : ModelTx (List (EdgeKey × EdgeRow))) (other : EdgeKey → Nat)
    (pair : Nat → Nat × Nat) (desired : List Nat) : ModelTx Unit := do
  let edges ← existing
  let existingOthers := edges.map fun entry => other entry.1
  let desiredOthers := desired.eraseDups
  let toAdd := desiredOthers.filter (· ∉ existingOthers)
  let toRemove := existingOthers.filter (· ∉ desiredOthers)
  Tx.forEach toAdd fun item =>
    (link now (args.edgeLink kind (pair item).1 (pair item).2)).bind fun _ => .done ()
  Tx.forEach toRemove fun item =>
    (unlink (pair item).1 (pair item).2 kind args.tenantId).bind fun _ => .done ()

def syncIncomingKind (newSources : List Nat) : ModelTx Unit :=
  syncKind now kind args (traverseBackward args.modelId [.registry kind] args.tenantId .active)
    EdgeKey.source (fun source => (source, args.modelId)) newSources

def syncOutgoingKind (newTargets : List Nat) : ModelTx Unit :=
  syncKind now kind args (traverseForward args.modelId [.registry kind] args.tenantId .active)
    EdgeKey.target (fun target => (args.modelId, target)) newTargets

end

/-- `_read_array_part`: sources of `supports`, targets of `instance_of`. -/
def readArrayPart (modelId : Nat) (kind : RegistryKind) : ModelTx (List Nat) :=
  .read fun db =>
    if kind = .supports then
      (db.edges.rows.filter fun entry =>
        entry.1.target = modelId ∧ entry.1.kind = .registry kind ∧ entry.2.status = .active).map
          fun entry => entry.1.source
    else
      (db.edges.rows.filter fun entry =>
        entry.1.source = modelId ∧ entry.1.kind = .registry kind ∧ entry.2.status = .active).map
          fun entry => entry.1.target

def arrayPart (supplied : Option (List Nat)) (modelId : Nat) (kind : RegistryKind) :
    ModelTx (List Nat) :=
  match supplied with
  | none => readArrayPart modelId kind
  | some items => .done items

def setSupporting (modelId : Nat) (merged : List Nat) : ModelTx Unit :=
  change fun db =>
    { db with
      models := db.models.update modelId fun row => { row with supportingModelIds := merged } }

def setContributing (modelId : Nat) (contributesTo : List Nat) : ModelTx Unit :=
  change fun db =>
    { db with
      models := db.models.update modelId fun row =>
        { row with contributingModels := contributesTo } }

def syncArrayColumns (args : RelationArgs) : ModelTx Unit :=
  if args.supports.isSome ∨ args.instanceOf.isSome then do
    let current ← Tx.read fun db =>
      (db.models.get args.modelId).map ModelRow.supportingModelIds
    match current with
    | none => return ()
    | some existingSupporting =>
      let supPart ← arrayPart args.supports args.modelId .supports
      let instPart ← arrayPart args.instanceOf args.modelId .instanceOf
      let merged := (supPart ++ instPart).eraseDups
      Tx.when (merged ≠ existingSupporting) (setSupporting args.modelId merged)
      Tx.forSome args.contributesTo (setContributing args.modelId)
  else Tx.forSome args.contributesTo (setContributing args.modelId)

def setModelRelations (now : Nat) (args : RelationArgs) : ModelTx Unit := do
  Tx.forSome args.supports (syncIncomingKind now .supports args)
  Tx.forSome args.contributesTo (syncIncomingKind now .contributesToResolution args)
  Tx.forSome args.instanceOf (syncOutgoingKind now .instanceOf args)
  Tx.forSome args.supersededBy fun supersededBy =>
    (link now (args.edgeLink .supersededBy args.modelId supersededBy)).bind fun _ => .done ()
  Tx.when args.updateArrays (syncArrayColumns args)

/-! ### The supporting-evidence check before an insert -/

def supportingArrays (db : ModelDb) : List (Nat × Nat) :=
  db.models.rows.flatMap fun entry =>
    entry.2.supportingModelIds.map fun supporting => (entry.1, supporting)

def supportCycleError (db : ModelDb) (newModelId : Nat) (newSupports : List Nat) :
    Option ModelError :=
  if newSupports = [] then none
  else if newModelId ∈ newSupports then some (.selfSupport newModelId)
  else
    let tenantId := newSupports.findSome? fun support =>
      (db.models.get support).map ModelRow.tenantId
    let scope := (edgeRegistry .supports).cycleScope
    let edgeCycle := do
      cycleError db RegistryKind.supports newModelId newSupports (← tenantId) (← scope)
    edgeCycle.or <|
      if newModelId ∈ reachable (supportingArrays db)
          ((supportingArrays db).filter (·.1 ∈ newSupports) |>.map Prod.snd) then
        some (.supportCycle newModelId newSupports)
      else none

def checkNoSupportCycle (newModelId : Nat) (newSupports : List Nat) : ModelTx Unit :=
  .require fun db => supportCycleError db newModelId newSupports

end FyralisCore.Models
