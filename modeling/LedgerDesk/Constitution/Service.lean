import LedgerDesk.Constitution.Item
import LedgerDesk.Foundation.Rows
import LedgerDesk.Foundation.Runs

/-!
# Proposing and constituting

Every command is a chain of snapshot transactions on one connection, which holds its advisory locks
from before the first of them until it closes. Between two transactions the record that was admitted
is read. What a transaction computes, it computes of its snapshot; its rows go into the tables as they
stand when it commits, whose keys and references may turn them down. Rows are never changed or
deleted. Canonical texts and digests are those of any `Canon`, and what the authority answers at a
step may be anything.
-/
namespace LedgerDesk.Constitution

open Foundation Preparation

/-! ### Tables -/

/-- A row of `preparation`, with the record that is retained of it. -/
structure PreparationRow where
  reference : Exact
  context : Context
  payload : Payload
  differences : List Exact
  deriving DecidableEq, Repr

structure Slot where
  id : String
  preparation_id : String
  preparation_revision : Nat
  unit_key : String
  target_key : TargetIdentity
  allocated_unit_id : String
  deriving DecidableEq, Repr

structure ProposalBody where
  preparation : Exact
  unit : String
  item : String
  slot_id : String
  target : Target
  judgment : Judgment
  selected : List String
  identity : String
  disposition : Disposition
  context : Context
  deriving DecidableEq, Repr

structure Proposal where
  id : String
  sha256 : String
  slot_id : String
  principal : String
  context : Context
  comparison_unit_id : Option String
  body : ProposalBody
  deriving DecidableEq, Repr

inductive OutcomeKind where
  | constituted
  | relationship_recorded
  | blocked
  deriving DecidableEq, Repr

inductive BlockKind where
  | identity_collision
  | possible_duplicate
  deriving DecidableEq, Repr

structure Block where
  kind : BlockKind
  preparation : Exact
  proposal : Exact
  comparison : Option Exact
  actor : String
  recorded_at : Nat
  reason : String
  /-- Of the destination, which is always vacant. -/
  destination : Context
  deriving DecidableEq, Repr

structure OutcomeBody where
  outcome : OutcomeKind
  block_kind : Option BlockKind
  outcome_id : String
  candidates : List Exact
  /-- The version, and the preparation that repeats it. -/
  relationships : List (Exact × Exact)
  blocks : List Block
  deriving DecidableEq, Repr

structure Outcome where
  id : String
  slot_id : String
  proposal_id : String
  outcome : OutcomeKind
  block_kind : Option BlockKind
  reference : Exact
  result : OutcomeBody
  principal : String
  context : Context
  deriving DecidableEq, Repr

structure Candidate where
  unit_id : String
  version : Nat
  outcome_id : String
  preparation_id : String
  preparation_revision : Nat
  unit_key : String
  reference : Exact
  content_identity : String
  conditions : List Condition
  deriving DecidableEq, Repr

structure Relationship where
  outcome_id : String
  unit_id : String
  version : Nat
  deriving DecidableEq, Repr

inductive Operation where
  | propose
  | constitute
  deriving DecidableEq, Repr

inductive EffectResult where
  | proposed (proposal preparation : Exact) (item : String)
  | constituted (outcome : OutcomeBody)
  deriving DecidableEq, Repr

/-- `result->>'outcome_id'`. -/
def EffectResult.outcome_id? : EffectResult → Option String
  | .proposed _ _ _ => none
  | .constituted outcome => some outcome.outcome_id

structure Effect where
  id : String
  principal : String
  context : Context
  operation : Operation
  reference : Exact
  result : EffectResult
  deriving DecidableEq, Repr

structure Intention where
  principal : String
  operation : Operation
  client_key : String
  fingerprint : String
  effect_id : String
  deriving DecidableEq, Repr

structure Data where
  preparations : List PreparationRow
  slots : List Slot
  proposals : List Proposal
  outcomes : List Outcome
  candidates : List Candidate
  relationships : List Relationship
  effects : List Effect
  intentions : List Intention
  deriving DecidableEq, Repr

def Data.empty : Data := ⟨[], [], [], [], [], [], [], []⟩

namespace Data

variable (d : Data)

def preparation (id : String) (revision : Nat) : Option PreparationRow :=
  d.preparations.find? fun p => p.reference.id = id && p.reference.revision = revision

def slotFor (id : String) (revision : Nat) (key : String) : Option Slot :=
  d.slots.find? fun s =>
    s.preparation_id = id && s.preparation_revision = revision && s.unit_key = key

def slot (id : String) : Option Slot := d.slots.find? fun s => s.id = id

def proposal (id : String) : Option Proposal := d.proposals.find? fun p => p.id = id

def outcomeOf (slot_id : String) : Option Outcome := d.outcomes.find? fun o => o.slot_id = slot_id

def candidate (unit_id : String) (version : Nat) : Option Candidate :=
  d.candidates.find? fun c => c.unit_id = unit_id && c.version = version

/-- `max(version)` of a unit, where it has one. -/
def latest (unit_id : String) : Nat :=
  ((d.candidates.filter fun c => c.unit_id = unit_id).map Candidate.version).foldr max 0

def effect (id : String) : Option Effect := d.effects.find? fun e => e.id = id

def intention (principal : String) (operation : Operation) (client_key : String) :
    Option Intention :=
  d.intentions.find? fun i =>
    i.principal = principal && i.operation = operation && i.client_key = client_key

/-! Inserts, which the keys and the references may turn down. -/

def insertPreparation (row : PreparationRow) : Option Data :=
  if (d.preparation row.reference.id row.reference.revision).isSome then none
  else some { d with preparations := d.preparations ++ [row] }

def insertSlot (row : Slot) : Option Data :=
  if (d.slot row.id).isSome ||
      (d.slotFor row.preparation_id row.preparation_revision row.unit_key).isSome ||
      (d.preparation row.preparation_id row.preparation_revision).isNone then none
  else some { d with slots := d.slots ++ [row] }

def insertProposal (row : Proposal) : Option Data :=
  if (d.proposal row.id).isSome || (d.slot row.slot_id).isNone then none
  else some { d with proposals := d.proposals ++ [row] }

def insertOutcome (row : Outcome) : Option Data :=
  if (d.outcomes.any fun o => o.id = row.id) || (d.outcomeOf row.slot_id).isSome ||
      (d.slot row.slot_id).isNone || (d.proposal row.proposal_id).isNone then none
  else some { d with outcomes := d.outcomes ++ [row] }

def insertCandidate (row : Candidate) : Option Data :=
  if row.version = 0 || (d.candidate row.unit_id row.version).isSome ||
      (d.candidates.any fun c => c.outcome_id = row.outcome_id) ||
      !(d.outcomes.any fun o => o.id = row.outcome_id) ||
      (d.preparation row.preparation_id row.preparation_revision).isNone then none
  else some { d with candidates := d.candidates ++ [row] }

def insertRelationship (row : Relationship) : Option Data :=
  if (d.relationships.any fun r => r.outcome_id = row.outcome_id) ||
      !(d.outcomes.any fun o => o.id = row.outcome_id) ||
      (d.candidate row.unit_id row.version).isNone then none
  else some { d with relationships := d.relationships ++ [row] }

def insertEffect (row : Effect) : Option Data :=
  if (d.effect row.id).isSome then none else some { d with effects := d.effects ++ [row] }

def insertIntention (row : Intention) : Option Data :=
  if (d.intention row.principal row.operation row.client_key).isSome ||
      (d.effect row.effect_id).isNone then none
  else some { d with intentions := d.intentions ++ [row] }

/-- An insert of what there may be none of. -/
def insert? {ρ : Type} (insert : Data → ρ → Option Data) (row : Option ρ) : Option Data :=
  match row with
  | some row => insert d row
  | none => some d

end Data

/-- The rows of a transaction, in the order it inserts them. -/
structure Changes where
  slot : Option Slot
  proposal : Option Proposal
  outcome : Option Outcome
  candidate : Option Candidate
  relationship : Option Relationship
  effect : Option Effect
  intention : Option Intention

def Changes.none : Changes := ⟨.none, .none, .none, .none, .none, .none, .none⟩

def Data.commit (d : Data) (changes : Changes) : Option Data := do
  let d ← d.insert? insertSlot changes.slot
  let d ← d.insert? insertProposal changes.proposal
  let d ← d.insert? insertOutcome changes.outcome
  let d ← d.insert? insertCandidate changes.candidate
  let d ← d.insert? insertRelationship changes.relationship
  let d ← d.insert? insertEffect changes.effect
  d.insert? insertIntention changes.intention

/-! ### Commands -/

inductive Command where
  | propose (id : String) (revision : Nat) (unit : String) (target : Target) (judgment : Judgment)
  /-- The mode is a person's, or the authorized consequence of a prior act. -/
  | constitute (proposal : Exact) (prior_act : Option Exact)
  deriving DecidableEq, Repr

def Command.operation : Command → Operation
  | .propose _ _ _ _ _ => .propose
  | .constitute _ _ => .constitute

/-- What the texts of rows are, and their digests. -/
structure Canon where
  sha256 : Bytes → String
  item : ItemContent → Bytes
  proposal : ProposalBody → Bytes
  outcome : OutcomeBody → Bytes
  candidate : Exact → String → String → Bytes
  operation : Operation → Bytes → Bytes
  /-- `preparationCanonical` of a command. -/
  command : Command → Bytes
  fingerprint : Bytes → String

structure Request where
  command : Command
  clientKey : Option String
  deriving DecidableEq, Repr

inductive Exercise where
  | lookup_operation
  | preparation
  | difference
  | propose
  | constitute
  deriving DecidableEq, Repr

/-- What the authority answers at one step. -/
structure Authority where
  beforeMetadata : Except Failure Unit
  resolve : Exercise → Option Context → Except Failure Context
  /-- `readPriorAct`, `matchPriorAct` and `priorActMetadata`. -/
  priorAct : Except Failure Unit
  clock : Except Failure Unit

/-- `randomUUID`, each time a command draws one. -/
structure Drawn where
  slot : String
  unit : String
  proposal : String
  outcome : String
  operation : String

inductive Answer where
  | known (effect : Effect) (result : EffectResult)
  | proposed (result : EffectResult)
  | constituted (outcome : OutcomeBody)
  deriving DecidableEq, Repr

/-- The answer with the effect it is of, after the transaction that found it is over. -/
inductive Opened where
  | known (effect : Effect)
  /-- A second key of an item that has its outcome. -/
  | replayed (effect : Effect) (intention : Option Intention)
  | proposing (reference : Exact)
  | constituting (proposal : Proposal)

section Commands

variable (canon : Canon) (auth : Authority) (drawn : Drawn) (now : Nat) (principal : String)

def referenceFor (id : String) (revision : Nat) (body : Bytes) : Except Failure Exact :=
  if identifier id && isRevision revision then .ok ⟨id, revision, canon.sha256 body⟩
  else .error .unavailable

def itemIdentity (item : Item) (context : Context) : String :=
  canon.sha256 (canon.item (itemContent item context))

/-- One more intention of the caller, if the request has a key. -/
def recordIntention (request : Request) (effect_id : String) : Option Intention :=
  request.clientKey.map fun client_key =>
    { principal
      operation := request.command.operation
      client_key
      fingerprint := canon.fingerprint (canon.command request.command)
      effect_id }

def intended (d : Data) (request : Request) : Option Intention :=
  request.clientKey.bind fun key => d.intention principal request.command.operation key

/-- An effect may be told to who it is of, in its context. -/
def knownEffect (d : Data) (id : String) : Except Failure Effect := do
  let _ ← auth.resolve .lookup_operation none
  match d.effect id with
  | none => .error .notFound
  | some effect =>
    ensure (effect.principal = principal) .notFound
    let _ ← auth.resolve .lookup_operation (some effect.context)
    return effect

/-- `known`, of an intention that is there. -/
def known (d : Data) (request : Request) (prior : Intention) : Except Failure Effect := do
  let _ ← auth.resolve .lookup_operation none
  ensure (prior.fingerprint = canon.fingerprint (canon.command request.command)) .conflict
  knownEffect auth principal d prior.effect_id

/-- The admission of `readPrepared`, up to the commit of its evidence. -/
def admitPrepared (d : Data) (reference : Exact) : Except Failure Exact := do
  let context ← auth.resolve .preparation none
  match d.preparation reference.id reference.revision with
  | none => .error .notFound
  | some row =>
    ensure (row.context.scope_id = context.scope_id &&
      row.context.purpose_id = context.purpose_id) .notFound
    let _ ← auth.resolve .preparation (some row.context)
    ensure (row.reference.sha256 = reference.sha256) .conflict
    if !row.differences.isEmpty then
      let _ ← auth.resolve .difference (some row.context)
    return row.reference

/-- `materializePreparation`, of a record that is stored whole. -/
def materialize (d : Data) (reference : Exact) : Except Failure PreparationRow :=
  match d.preparations.find? fun p => p.reference = reference with
  | some row => .ok row
  | none => .error .notFound

/-- The admission of `comparisonCandidate`: the candidate's metadata, and its preparation. -/
def admitCandidate (d : Data) (unit_id : String) (version : Exact) :
    Except Failure (Candidate × Exact) := do
  let current ← auth.resolve .preparation none
  ensure (version.id = unit_id) .notFound
  match d.candidate unit_id version.revision with
  | none => .error .notFound
  | some candidate =>
    match d.preparation candidate.preparation_id candidate.preparation_revision with
    | none => .error .notFound
    | some row =>
      ensure (current = row.context) .notFound
      let reference ← admitPrepared auth d row.reference
      return (candidate, reference)

/-- The protected candidate body is read only after its retained preparation. -/
def readCandidate (d : Data) (found : Candidate) (version : Exact) (retained : PreparationRow) :
    Except Failure Candidate := do
  match d.candidate found.unit_id found.version with
  | none => .error .conflict
  | some candidate =>
    ensure (candidate.reference = version) .conflict
    match retained.payload.units.find? fun u => unitKey u = candidate.unit_key with
    | none => .error .unavailable
    | some unit =>
      let item ← proposalItem retained.payload unit.id
      ensure (itemIdentity canon item retained.context = candidate.content_identity) .unavailable
      return candidate

def compared (existing : Option Candidate) : Option Compared :=
  existing.map fun c => ⟨c.reference, c.content_identity⟩

/-! #### The first transaction -/

def openPropose (d : Data) (id : String) (revision : Nat) : Except Failure Exact := do
  let _ ← auth.resolve .propose none
  match d.preparation id revision with
  | none => .error .notFound
  | some row => admitPrepared auth d row.reference

/-- A person's exercise, or the consequence of a prior act. -/
def admitExercise (request : Request) (context : Context) : Except Failure Unit :=
  match request.command with
  | .constitute _ (some _) => auth.priorAct
  | _ => (auth.resolve .constitute (some context)).map fun _ => ()

/-- The historical item outcome is resolved before a new exercise is demanded. -/
def openConstitute (d : Data) (request : Request) (reference : Exact) : Except Failure Opened := do
  let _ ← auth.resolve .lookup_operation none
  match d.proposal reference.id with
  | none => .error .notFound
  | some proposal =>
    ensure (proposal.principal = principal) .notFound
    ensure (reference.revision = 1 && reference.sha256 = proposal.sha256) .conflict
    let _ ← auth.resolve .lookup_operation (some proposal.context)
    match d.outcomeOf proposal.slot_id with
    | some previous =>
      match d.effects.find? fun e => e.operation = .constitute &&
          e.result.outcome_id? = some previous.id && e.principal = principal with
      | none => .error .unavailable
      | some existing =>
        let effect ← knownEffect auth principal d existing.id
        return .replayed effect (recordIntention canon principal request existing.id)
    | none =>
      admitExercise auth request proposal.context
      return .constituting proposal

def openCommand (d : Data) (request : Request) : Except Failure Opened := do
  let _ ← auth.beforeMetadata
  match intended principal d request with
  | some prior => return .known (← known canon auth principal d request prior)
  | none =>
    match request.command with
    | .propose id revision _ _ _ => return .proposing (← openPropose auth d id revision)
    | .constitute reference _ => openConstitute canon auth principal d request reference

/-! #### The last transaction -/

def effectOf (request : Request) (context : Context) (result : EffectResult) :
    Except Failure Effect := do
  let reference ← referenceFor canon drawn.operation 1
    (canon.operation request.command.operation (canon.command request.command))
  return { id := drawn.operation, principal, context, operation := request.command.operation
           reference, result }

/-- What a proposal freezes of its item. -/
def proposalBody (prepared : PreparationRow) (unit : String) (target : Target) (judgment : Judgment)
    (item : Item) (slot_id : String) (disposition : Disposition) : ProposalBody where
  preparation := prepared.reference
  unit
  item := item.key
  slot_id
  target
  judgment
  selected := item.elements.map Element.id
  identity := itemIdentity canon item prepared.context
  disposition
  context := prepared.context

/-- The slot of the item, with whether it is new. -/
def slotOf (d : Data) (prepared : PreparationRow) (item : Item) (target : Target) :
    Except Failure (Slot × Bool) :=
  match d.slotFor prepared.reference.id prepared.reference.revision item.key with
  | some slot =>
    if slot.target_key = targetIdentity target then .ok (slot, false) else .error .conflict
  | none =>
    .ok ({ id := drawn.slot
           preparation_id := prepared.reference.id
           preparation_revision := prepared.reference.revision
           unit_key := item.key
           target_key := targetIdentity target
           allocated_unit_id := drawn.unit }, true)

def settlePropose (d : Data) (request : Request) (prepared : PreparationRow) (unit : String)
    (target : Target) (judgment : Judgment) (item : Item) (existing : Option Candidate) :
    Except Failure (Changes × Answer) := do
  let identity := itemIdentity canon item prepared.context
  let disposition ← comparisonDisposition target judgment identity (compared existing)
  let slot ← slotOf drawn d prepared item target
  let _ ← auth.resolve .propose (some prepared.context)
  let body := proposalBody canon prepared unit target judgment item slot.1.id disposition
  let reference ← referenceFor canon drawn.proposal 1 (canon.proposal body)
  let result := EffectResult.proposed reference prepared.reference item.key
  let effect ← effectOf canon drawn principal request prepared.context result
  let _ ← auth.clock
  return ({ Changes.none with
    slot := if slot.2 then some slot.1 else none
    proposal := some
      { id := drawn.proposal, sha256 := reference.sha256, slot_id := slot.1.id, principal
        context := prepared.context, comparison_unit_id := target.unit_id?, body }
    effect := some effect
    intention := recordIntention canon principal request effect.id }, .proposed result)

def blockKind? : Disposition → Option BlockKind
  | .identity_collision => some .identity_collision
  | .possible_duplicate => some .possible_duplicate
  | _ => none

def outcomeKind : Disposition → OutcomeKind
  | .constituted => .constituted
  | .relationship_recorded => .relationship_recorded
  | _ => .blocked

/-- The unit and the version that a candidate of the proposal gets. -/
def versionOf (slot : Slot) : Target → String × Nat
  | .existing .successor unit_id version _ => (unit_id, version.revision + 1)
  | _ => (slot.allocated_unit_id, 1)

/-- A successor is of the latest version. -/
def checkLatest (d : Data) : Target → Except Failure Unit
  | .existing .successor unit_id version _ => ensure (d.latest unit_id = version.revision) .conflict
  | _ => .ok ()

def outcomeBody (proposal : Proposal) (reference : Exact) (candidate : Option Exact)
    (existing : Option Candidate) : OutcomeBody where
  outcome := outcomeKind proposal.body.disposition
  block_kind := blockKind? proposal.body.disposition
  outcome_id := drawn.outcome
  candidates := candidate.toList
  relationships :=
    if proposal.body.disposition = .relationship_recorded then
      existing.toList.map fun c => (c.reference, proposal.body.preparation)
    else []
  blocks := (blockKind? proposal.body.disposition).toList.map fun kind =>
    { kind
      preparation := proposal.body.preparation
      proposal := reference
      comparison := existing.map Candidate.reference
      actor := principal
      recorded_at := now
      reason := proposal.body.judgment.reason
      destination := proposal.context }

/-- The item is what was frozen, and every unit of it may be constituted. -/
def frozen (proposal : Proposal) (item : Item) : Bool :=
  proposal.body.selected = item.elements.map Element.id &&
    proposal.body.identity = itemIdentity canon item proposal.context &&
    item.units.all fun u => u.examination.outcome = .classifiable

def candidateReference (disposition : Disposition) (body : ProposalBody) (item : Item)
    (version : String × Nat) : Except Failure (Option Exact) :=
  if disposition = .constituted then
    (referenceFor canon version.1 version.2
      (canon.candidate body.preparation item.key body.identity)).map some
  else .ok none

def settleConstitute (d : Data) (request : Request) (reference : Exact) (proposal : Proposal)
    (item : Item) (existing : Option Candidate) : Except Failure (Changes × Answer) := do
  let body := proposal.body
  let disposition ← comparisonDisposition body.target body.judgment body.identity (compared existing)
  ensure (disposition = body.disposition) .conflict
  admitExercise auth request proposal.context
  match d.slot proposal.slot_id with
  | none => .error .unavailable
  | some slot =>
    ensure (slot.preparation_id = body.preparation.id &&
      slot.preparation_revision = body.preparation.revision && slot.unit_key = item.key &&
      slot.target_key = targetIdentity body.target) .unavailable
    let version := versionOf slot body.target
    ensure (isInteger version.2) .conflict
    checkLatest d body.target
    let candidate ← candidateReference canon disposition body item version
    let outcome := outcomeBody drawn now principal proposal reference candidate existing
    let outcomeReference ← referenceFor canon drawn.outcome 1 (canon.outcome outcome)
    let effect ← effectOf canon drawn principal request proposal.context (.constituted outcome)
    let _ ← auth.clock
    return ({ Changes.none with
      outcome := some
        { id := drawn.outcome, slot_id := slot.id, proposal_id := proposal.id
          outcome := outcome.outcome, block_kind := outcome.block_kind
          reference := outcomeReference, result := outcome, principal, context := proposal.context }
      candidate := candidate.map fun reference =>
        { unit_id := version.1, version := version.2, outcome_id := drawn.outcome
          preparation_id := body.preparation.id, preparation_revision := body.preparation.revision
          unit_key := item.key, reference, content_identity := body.identity
          conditions := item.conditions }
      relationship :=
        if disposition = .relationship_recorded then
          existing.map fun c => ⟨drawn.outcome, c.unit_id, c.version⟩
        else none
      effect := some effect
      intention := recordIntention canon principal request effect.id }, .constituted outcome)

end Commands

end LedgerDesk.Constitution
