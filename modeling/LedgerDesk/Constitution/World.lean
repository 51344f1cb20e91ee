import LedgerDesk.Constitution.Service

/-!
# Callers side by side

Every call has its connection: it finds what it locks, waits for its locks, and goes through its
transactions one by one. Between two of its pieces any other call may go on, and a connection may be
lost at any moment, which rolls its transaction back.
-/
namespace LedgerDesk.Constitution

open Foundation Preparation

/-- An advisory lock. -/
inductive LockKey where
  | items (preparation_id : String) (revision : Nat)
  | identity (unit_id : String)
  | slot (slot_id : String)
  | session (digest : String)
  | intention (principal : String) (operation : Operation) (client_key : String)
  deriving DecidableEq, Repr

/-- What a call does next. -/
inductive Stage where
  /-- `commandLocks`, in a transaction of its own where it reads. -/
  | probing
  | locking (keys : List LockKey)
  | opening
  /-- `knownEffect`, after its commit. -/
  | replaying (effect_id : String)
  /-- The body of the proposal, after the commit. -/
  | naming (proposal : Proposal)
  | choosing (proposal : Proposal)
  /-- The prepared record, after the commit. -/
  | reading (proposal : Option Proposal) (reference : Exact)
  | comparing (proposal : Option Proposal) (prepared : PreparationRow)
  /-- The record of the candidate to compare with, after the commit. -/
  | readingCandidate (proposal : Option Proposal) (prepared : PreparationRow) (found : Candidate)
      (reference : Exact)
  | settling (proposal : Option Proposal) (prepared : PreparationRow) (found : Candidate)
      (retained : PreparationRow)
  | answered (answer : Except Failure Answer)

/-- The stage is a piece of a transaction. -/
def Stage.transacts : Stage → Bool
  | .probing | .opening | .choosing _ | .comparing _ _ | .settling _ _ _ _ => true
  | _ => false

structure Call where
  id : Nat
  principal : String
  session : String
  request : Request
  held : List LockKey
  stage : Stage
  /-- Of the transaction that is open. -/
  snapshot : Option Data

structure World where
  data : Data
  calls : List Call

inductive Act where
  /-- A revision is finalized, by a command of its own. -/
  | prepare (row : PreparationRow)
  | receive (id : Nat) (principal session : String) (request : Request)
  | lock (id : Nat)
  | begin (id : Nat)
  | advance (id : Nat) (auth : Authority) (drawn : Drawn) (now : Nat)
  | drop (id : Nat)

section Steps

variable (canon : Canon)

/-- The locks of `open`, which every command takes. -/
def openKeys (c : Call) : List LockKey :=
  .session c.session ::
    (c.request.clientKey.map fun key =>
      LockKey.intention c.principal c.request.command.operation key).toList

/-- `commandLocks`. -/
def commandLocks (auth : Authority) (d : Data) (c : Call) : Except Failure (List LockKey) :=
  match c.request.command with
  | .propose id revision _ target _ =>
    .ok (.items id revision :: (target.unit_id?.map LockKey.identity).toList)
  | .constitute reference _ => do
    let _ ← auth.beforeMetadata
    let _ ← auth.resolve .lookup_operation none
    if (intended c.principal d c.request).isSome then return []
    match d.proposal reference.id with
    | none => .error .notFound
    | some proposal =>
      ensure (proposal.principal = c.principal) .notFound
      let _ ← auth.resolve .lookup_operation (some proposal.context)
      return .slot proposal.slot_id :: (proposal.comparison_unit_id.map LockKey.identity).toList

/-- What a piece of a call comes to: its next stage, and the rows that it commits. -/
abbrev Piece := Except Failure (Stage × Changes)

def opened : Opened → Stage × Changes
  | .known effect => (.replaying effect.id, .none)
  | .replayed effect intention => (.replaying effect.id, { Changes.none with intention })
  | .proposing reference => (.reading none reference, .none)
  | .constituting proposal => (.naming proposal, .none)

/-- The item of a command, once its preparation is read. -/
def itemOf (c : Call) (proposal : Option Proposal) (prepared : PreparationRow) :
    Except Failure (Target × Item) :=
  match c.request.command, proposal with
  | .propose _ _ unit target _, _ => do
    let item ← proposalItem prepared.payload unit
    return (target, item)
  | .constitute _ _, some proposal => do
    let item ← proposalItem prepared.payload proposal.body.unit
    ensure (frozen canon proposal item) .conflict
    return (proposal.body.target, item)
  | .constitute _ _, none => .error .unavailable

def settle (auth : Authority) (drawn : Drawn) (now : Nat) (d : Data) (c : Call)
    (proposal : Option Proposal) (prepared : PreparationRow) (item : Item)
    (existing : Option Candidate) : Piece := do
  let (changes, answer) ← match c.request.command, proposal with
    | .propose _ _ unit target judgment, _ =>
      settlePropose canon auth drawn c.principal d c.request prepared unit target judgment item
        existing
    | .constitute reference _, some proposal =>
      settleConstitute canon auth drawn now c.principal d c.request reference proposal item existing
    | .constitute _ _, none => .error .unavailable
  return (.answered (.ok answer), changes)

/-- A piece of a call, of the data it reads: its snapshot in a transaction, the tables elsewhere. -/
def piece (auth : Authority) (drawn : Drawn) (now : Nat) (d : Data) (c : Call) : Piece :=
  match c.stage with
  | .probing => do return (.locking (openKeys c ++ (← commandLocks auth d c)), .none)
  | .locking _ => .error .unavailable
  | .opening => do return opened (← openCommand canon auth c.principal d c.request)
  | .replaying effect_id => do
    auth.clock
    match d.effect effect_id with
    | none => .error .unavailable
    | some effect => return (.answered (.ok (.known effect effect.result)), .none)
  | .naming proposal => do
    auth.clock
    match d.proposal proposal.id, c.request.command with
    | some row, .constitute reference _ =>
      ensure (referenceFor canon proposal.id 1 (canon.proposal row.body) = .ok reference) .unavailable
      return (.choosing row, .none)
    | _, _ => .error .unavailable
  | .choosing proposal => do
    let reference ← admitPrepared auth d proposal.body.preparation
    return (.reading (some proposal) reference, .none)
  | .reading proposal reference => do
    auth.clock
    return (.comparing proposal (← materialize d reference), .none)
  | .comparing proposal prepared => do
    let (target, item) ← itemOf canon c proposal prepared
    match target with
    | .new _ => settle canon auth drawn now d c proposal prepared item none
    | .existing _ unit_id version _ =>
      let (found, reference) ← admitCandidate auth d unit_id version
      return (.readingCandidate proposal prepared found reference, .none)
  | .readingCandidate proposal prepared found reference => do
    auth.clock
    return (.settling proposal prepared found (← materialize d reference), .none)
  | .settling proposal prepared found retained => do
    let (target, item) ← itemOf canon c proposal prepared
    match target with
    | .new _ => .error .unavailable
    | .existing _ _ version _ =>
      let existing ← readCandidate canon d found version retained
      settle canon auth drawn now d c proposal prepared item (some existing)
  | .answered _ => .error .unavailable

/-- The piece, with its commit. -/
def finish (data : Data) (outcome : Piece) : Data × Stage :=
  match outcome with
  | .error failure => (data, .answered (.error failure))
  | .ok (stage, changes) =>
    match data.commit changes with
    | none => (data, .answered (.error .unavailable))
    | some after => (after, stage)

namespace World

variable (w : World)

def call (id : Nat) : Option Call := w.calls.find? fun c => c.id = id

def setCall (id : Nat) (set : Call → Call) : World :=
  { w with calls := Rows.update (fun c => c.id = id) set w.calls }

/-- Another call holds the lock. -/
def taken (id : Nat) (key : LockKey) : Bool := w.calls.any fun c => c.id ≠ id && key ∈ c.held

end World

def step (w : World) : Act → Option World
  | .prepare row => do
    let data ← w.data.insertPreparation row
    return { w with data }
  | .receive id principal session request =>
    if (w.call id).isSome then none
    else some { w with calls := w.calls ++ [⟨id, principal, session, request, [], .probing, none⟩] }
  | .lock id => do
    let c ← w.call id
    match c.stage with
    | .locking keys =>
      if keys.any (w.taken id) then none
      else some (w.setCall id fun c => { c with held := keys, stage := .opening })
    | _ => none
  | .begin id => do
    let c ← w.call id
    if c.stage.transacts && c.snapshot.isNone then
      some (w.setCall id fun c => { c with snapshot := some w.data })
    else none
  | .advance id auth drawn now => do
    let c ← w.call id
    match c.stage, c.snapshot with
    | .answered _, _ => none
    | .locking _, _ => none
    | stage, snapshot =>
      if stage.transacts && snapshot.isNone then none
      else
        let (data, next) := finish w.data (piece canon auth drawn now (snapshot.getD w.data) c)
        some { w.setCall id (fun c => { c with stage := next, snapshot := none }) with data }
  | .drop id => if (w.call id).isSome then some { w with calls := w.calls.filter (·.id ≠ id) } else none

end Steps

end LedgerDesk.Constitution
