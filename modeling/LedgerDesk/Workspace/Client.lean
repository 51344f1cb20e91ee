import LedgerDesk.Foundation.Async
import LedgerDesk.Workspace.Journal

/-!
# Requests of the workspace

Every answer of the service is taken in only in the session and in the context in which it was
asked for: both are observed before the request is made and again after its answer.
-/
namespace LedgerDesk.Workspace

open Foundation LedgerDesk.Preparation

/-! ### Commands -/

structure OriginalDeclaration where
  name : String
  bytes : Nat
  sha256 : String
  declared_media_type : String
  deriving DecidableEq, Repr

inductive CommandBody where
  | reserve_reception (original : OriginalDeclaration) (format_profile : ExtractionFormat)
    (receiving_context : Context)
  | finalize_reception (expected_revision : Nat) (original : Artifact)
    (format_profile : ExtractionFormat)
  | cancel_reception (expected_revision : Nat)
  | reserve_preparation (reservation : Reservation)
  | finalize_preparation (expected_revision : Nat) (document : Artifact)
  | propose (unit : String) (draft : ProposalDraft)
  | constitute (proposal : Exact)
  deriving DecidableEq, Repr

def CommandBody.operation : CommandBody → Operation
  | reserve_reception .. => .reserve_reception
  | finalize_reception .. => .finalize_reception
  | cancel_reception .. => .cancel_reception
  | reserve_preparation .. => .reserve_preparation
  | finalize_preparation .. => .finalize_preparation
  | propose .. => .propose
  | constitute .. => .constitute

/-- The parameters of the path and the body, which together are what is intended. -/
structure Command where
  parameters : List (String × String)
  body : CommandBody
  deriving DecidableEq, Repr

def originalBytes : Nat := 1048576

def isContext (context : Context) : Bool :=
  identifier context.scope_id && identifier context.purpose_id &&
    exactReference context.treatment_revision

def isTargetDraft : TargetDraft → Bool
  | .new declaration => isText 2048 declaration
  | .successor unitId version declaration | .relationship unitId version declaration =>
    identifier unitId && exactReference version && isText 2048 declaration

/-- `validateIntake` and `validatePreparationCommand`. -/
def CommandBody.valid : CommandBody → Bool
  | reserve_reception original _ receiving_context =>
    isText 256 original.name && isInteger original.bytes && original.bytes ≤ originalBytes &&
      isDigest original.sha256 && isText 128 original.declared_media_type &&
      isContext receiving_context
  | finalize_reception expected_revision original _ =>
    isRevision expected_revision && artifactReference original
  | cancel_reception expected_revision => isRevision expected_revision
  | reserve_preparation reservation => validateReservation reservation
  | finalize_preparation expected_revision document =>
    isRevision expected_revision && artifactReference document
  | propose unit draft =>
    identifier unit && isTargetDraft draft.target && isText 2048 draft.judgment.reason &&
      isOptional exactReference draft.judgment.evidence
  | constitute proposal => exactReference proposal

/-- The parameters that `intakePath` takes. -/
def validParameters (parameters : List (String × String)) : Bool :=
  parameters.all fun p => identifier p.2 &&
    (p.1 ≠ "revision" || (p.2.toNat?.any isRevision))

/-! ### What the browser has -/

abbrev Bytes := Preparation.Bytes

/-- The standard library of the browser, and the address of the terminal. A random name is a new
one; the fingerprint of a command is the digest of its canonical text. -/
structure Platform where
  uiOrigin : String
  terminalOrigin : String
  randomUUID : Nat → String
  randomUUID_injective : Function.Injective randomUUID
  sha256 : Bytes → String
  fingerprint : Command → String
  documentBytes : Document → Bytes
  encodeText : String → Bytes
  fromBase64 : String → Bytes

/-- A file that was chosen. Its content is read later. -/
structure File where
  name : String
  size : Nat
  extension : String
  type : String
  deriving DecidableEq, Repr

/-- `LocalItem`. -/
structure LocalItem where
  view : ItemView
  bytes : Option Bytes := none
  media : String := ""
  digest : Option String := none
  receipt : Option Reception := none
  extraction : Option ExtractionResponse := none
  preparationDraft : Option PreparationDraft := none
  prepared : Option PreparationRecord := none
  proposalDraft : Option ProposalDraft := none
  proposalUnit : Option String := none
  proposalInspection : Option ProposalAnswer := none
  staged : Option AttemptAnswer := none
  outcome : Option ShownOutcome := none

/-- An operation that was begun and of which no answer was taken in. -/
structure Frozen where
  entry : JournalEntry
  command : Command
  deriving DecidableEq, Repr

abbrev Slot := ItemKey × Operation

/-- The state of the controller, of its client and of the storage. -/
structure Controller where
  current : Snapshot
  items : List LocalItem
  journal : Option JournalEnvironment
  storage : Storage
  localEpoch : Nat
  activityEpoch : Nat
  pending : List (Slot × Frozen)
  csrf : Option String
  lifetime : Nat
  uuids : Nat

/-! ### Waiting -/

/-- What can be asked of the service. -/
inductive Call where
  | session
  | profiles
  | reception (id : String)
  | workspaceReception (id : String)
  | original (id : String)
  | extraction (id : String)
  | lookupIntention (operation : Operation) (key : String)
  | lookupEffect (operation : Operation) (key : String)
  | lookupAttempt (attempt_id : String) (document : Artifact)
  | inspectPreparation (preparation : Exact)
  | inspectProposal (proposal : Exact)
  | resource (preparation : Exact) (local_id : String)
  | uploadOriginal (id : String) (generation : Nat) (bytes : Bytes)
  | uploadPreparation (attempt_id : String) (bytes : Bytes)
  | command (operation : Operation) (command : Command) (key : String)
  deriving DecidableEq, Repr

/-- What a task waits for. -/
inductive Request where
  | fetch (call : Call)
  | body (maximum : Nat)
  | digest
  | arrayBuffer (file : File)
  deriving DecidableEq, Repr

structure Response where
  status : Nat
  mediaType : Option String
  deriving DecidableEq, Repr

def Response.ok (response : Response) : Bool := 200 ≤ response.status && response.status < 300

/-- The body of a response, once it is read: bytes, or what a contract accepts. -/
inductive Wire where
  | malformed
  | session (csrf_token : String)
  | accessProblem (code : String)
  | problem (status : Nat)
  | context (deployment : String) (context : Context) (receiveOffered : Bool)
    (profiles : List ProfileView)
  | legacyReception
  | reception (receipt : Reception)
  | workspaceReception (receipt : Reception) (offers : List ReceptionOffer)
  | extraction (answer : ExtractionAnswer)
  | editorial (response : EditorialResponse)
  | preparationEffect (effect : EditorialResponse)
  | preparationAttempt (answer : AttemptAnswer)
  | preparationInspection (record : PreparationRecord) (proposeOffered : Bool)
    (resource_offers : List String)
  | proposalInspection (answer : ProposalAnswer)
  | resource (artifact : Artifact) (data : String)
  | bytes (content : Bytes)

/-- A file cannot be read, or its reading was aborted. -/
inductive ReadError where
  | aborted
  | unreadable (message : String)
  deriving DecidableEq, Repr

def Answer : Request → Type
  | .fetch _ => Except Fault Response
  | .body _ => Except Fault Wire
  | .digest => Unit
  | .arrayBuffer _ => Except ReadError Bytes

/-- What is noted of a run: an operation was sent under its key; one was refused since another
payload is pending; a reconciliation was completed, and left these pending. -/
inductive Note where
  | sent (slot : Slot) (key : String)
  | refused (slot : Slot) (pending : Frozen)
  | reconciled (key : ItemKey) (left : List (Slot × Frozen))
  | downloaded (name : String)
  deriving DecidableEq, Repr

abbrev Task := Async Controller Fault Note Answer

def settle {α : Type} : Except Fault α → Task α
  | .ok a => pure a
  | .error fault => throw fault

def fetch (call : Call) : Task Response := .await (.fetch call) settle

/-- `boundedBytes`, and the text or the bytes that it reads. -/
def readBody (maximum : Nat) : Task Wire := .await (.body maximum) settle

def require (holds : Bool) (message : String) : Task Unit :=
  if holds then pure () else throw (.error message)

/-! ### `IntakeClient` -/

namespace Controller

def resetLifetime (s : Controller) : Controller := { s with lifetime := s.lifetime + 1 }

def suspendClient (s : Controller) : Controller := { s.resetLifetime with csrf := none }

end Controller

/-- `guard`. -/
def assertContext (epoch : Nat) : Task Unit := do
  let s ← Async.get
  if s.localEpoch = epoch then pure () else throw .abort

def assertLifetime (epoch : Nat) : Task Unit := do
  let s ← Async.get
  if s.lifetime = epoch then pure () else throw .abort

/-- What an answered session says of the one that is known. -/
def sessionAnswered (response : Response) (body : Wire) : Task Bool :=
  if !response.ok then
    match body with
    | .accessProblem "unauthenticated" => do
      Async.modify Controller.suspendClient
      return false
    | .accessProblem _ => throw (.error "The current session could not be confirmed.")
    | _ => throw (.error "Invalid session response.")
  else
    match body with
    | .session csrf_token => do
      require (response.mediaType = some "application/json") "Invalid session response."
      let s ← Async.get
      if s.csrf.isSome && s.csrf ≠ some csrf_token then do
        Async.modify Controller.suspendClient
        throw .staleView
      else do
        Async.modify fun s => { s with csrf := some csrf_token }
        return true
    | _ => throw (.error "Invalid session response.")

/-- `IntakeClient.session`. -/
def session : Task Bool := do
  let s ← Async.get
  let response ← fetch .session
  let body ← readBody 32768
  assertLifetime s.lifetime
  sessionAnswered response body

/-- What an answered session says of the one that is expected. -/
def sessionVerified (expected : String) (response : Response) (body : Wire) : Task Unit :=
  if !response.ok then
    match body with
    | .accessProblem "unauthenticated" => throw .staleView
    | .accessProblem _ =>
      throw (.error "The service could not confirm the current session. Try again.")
    | _ => throw (.error "Invalid session response.")
  else do
    require (response.mediaType = some "application/json") "Invalid session response."
    match body with
    | .session csrf_token => if csrf_token = expected then pure () else throw .staleView
    | _ => throw (.error "Invalid session response.")

/-- `verifySession`. -/
def verifySession (expected : String) : Task Unit := do
  if expected = "" then return ()
  else
    let response ← fetch .session
    let body ← readBody 32768
    sessionVerified expected response body

/-- The session and the context of a request, asserted together. -/
def assertScope (scope epoch : Nat) : Task Unit := do
  assertLifetime scope
  assertContext epoch

/-- `verifySessionForView`. -/
def verifySessionForView (expected : String) (scope epoch : Nat) : Task Unit := do
  assertScope scope epoch
  verifySession expected
  assertScope scope epoch

/-- What a request takes of an answer: the type it accepts, and the bodies of its contract. -/
structure Reading (β : Type) where
  accept : String
  maximum : Nat
  take : Wire → Option β

def workspaceAccept : String := "application/vnd.ledgerdesk.intake-workspace+json"
def receptionAccept : String := "application/vnd.ledgerdesk.intake.v2+json"
def preparationAccept : String := "application/vnd.ledgerdesk.intake-preparation+json"

/-- A validated body may be plain JSON where a reception is asked for. -/
def Reading.accepts {β : Type} (reading : Reading β) (mediaType : Option String) : Bool :=
  mediaType = some reading.accept ||
    (mediaType = some "application/json" && reading.accept = receptionAccept)

/-- The value of a response that has come in full. -/
def Reading.value {β : Type} (reading : Reading β) (response : Response) (body : Wire) : Task β :=
  if !response.ok then
    match response.mediaType, body with
    | some "application/problem+json", .problem status =>
      if status = response.status then throw (.request status)
      else throw (.error "Invalid error response.")
    | _, _ => throw (.error "Invalid error response.")
  else if !reading.accepts response.mediaType then
    throw (.error "Unexpected response representation.")
  else match reading.take body with
    | some value => pure value
    | none => throw (.error "Invalid response representation.")

/-- The request itself and its answer, in the session that was observed. -/
def exchange {β : Type} (call : Call) (reading : Reading β) (csrf : String) (scope epoch : Nat) :
    Task β := do
  let response ← fetch call
  let body ← readBody (if response.ok then reading.maximum else 32768)
  verifySessionForView csrf scope epoch
  let value ← reading.value response body
  assertScope scope epoch
  return value

/-- `IntakeClient.request`. What carries a key is noted when it is sent. -/
def request {β : Type} (call : Call) (reading : Reading β) (epoch : Nat)
    (keyed : Option (Slot × String)) : Task β := do
  match (← Async.get).csrf with
  | none => throw .staleView
  | some csrf =>
    if csrf = "" then throw .staleView
    else
      let s ← Async.get
      verifySessionForView csrf s.lifetime epoch
      match keyed with
      | some (slot, key) =>
        Async.mark (.sent slot key)
        exchange call reading csrf s.lifetime epoch
      | none => exchange call reading csrf s.lifetime epoch

end LedgerDesk.Workspace
