import LedgerDesk.Access.Canonical
import LedgerDesk.Workspace.View

/-!
# The recovery journal

A bounded list of locators in the storage of the tab: which operation was begun for which item,
under which key and with which fingerprint, and the references that were learned of it.
-/
namespace LedgerDesk.Workspace

open Foundation LedgerDesk.Preparation

/-- What a request or the code itself throws. -/
inductive Fault where
  | abort
  | staleView
  | request (status : Nat)
  | error (message : String)
  deriving DecidableEq, Repr

def Fault.message : Fault → String
  | abort => "Context changed"
  | staleView => "The session changed. Refresh the session before continuing."
  | request status =>
    if status = 404 then "This record is unavailable. Its absence does not establish that an earlier effect did not occur."
    else "The request was not completed (" ++ toString status ++ ")."
  | error message => message

inductive Operation where
  | reserve_reception
  | upload_original
  | finalize_reception
  | cancel_reception
  | reserve_preparation
  | upload_preparation
  | finalize_preparation
  | propose
  | constitute
  deriving DecidableEq, Repr

def Operation.text : Operation → String
  | reserve_reception => "reserve_reception"
  | upload_original => "upload_original"
  | finalize_reception => "finalize_reception"
  | cancel_reception => "cancel_reception"
  | reserve_preparation => "reserve_preparation"
  | upload_preparation => "upload_preparation"
  | finalize_preparation => "finalize_preparation"
  | propose => "propose"
  | constitute => "constitute"

inductive JournalProfile where
  | reception
  | preparation
  deriving DecidableEq, Repr

def JournalProfile.text : JournalProfile → String
  | reception => "intake-reception/2"
  | preparation => "intake-preparation/1"

structure References where
  operationId : Option String := none
  receptionId : Option String := none
  attemptId : Option String := none
  original : Option Artifact := none
  document : Option Artifact := none
  preparation : Option Exact := none
  proposal : Option Exact := none
  deriving DecidableEq, Repr

structure JournalEntry where
  id : String
  itemKey : ItemKey
  operation : Operation
  profile : JournalProfile
  key : Option String
  fingerprint : String
  references : References
  deriving DecidableEq, Repr

structure JournalEnvironment where
  deployment : String
  uiOrigin : String
  terminalOrigin : String
  deriving DecidableEq, Repr

namespace JournalLimits

def entries : Nat := 128
def bytes : Nat := 65536

end JournalLimits

/-- `environmentRule`. -/
def environmentRule (environment : JournalEnvironment) : Bool :=
  identifier environment.deployment && isText 256 environment.uiOrigin &&
    isText 256 environment.terminalOrigin

/-- `referencesRule`. -/
def referencesRule (references : References) : Bool :=
  isOptional identifier references.operationId && isOptional identifier references.receptionId &&
    isOptional identifier references.attemptId && isOptional artifactReference references.original &&
    isOptional artifactReference references.document &&
    isOptional exactReference references.preparation && isOptional exactReference references.proposal

/-- `entryRule`. -/
def entryRule (entry : JournalEntry) : Bool :=
  identifier entry.id && identifier entry.itemKey && isOptional identifier entry.key &&
    isDigest entry.fingerprint && referencesRule entry.references

/-! ### The text that is stored -/

section Body

open JsonText

def exactTree (reference : Exact) : JsonText.Tree Int :=
  .object [("id", .text reference.id), ("revision", .number reference.revision),
    ("sha256", .text reference.sha256)]

def artifactTree (artifact : Artifact) : JsonText.Tree Int :=
  .object [("id", .text artifact.id), ("generation", .number artifact.generation),
    ("bytes", .number artifact.bytes), ("sha256", .text artifact.sha256)]

/-- A member that is absent is not written. -/
def member? {α : Type} (name : String) (tree : α → JsonText.Tree Int) (value : Option α) :
    List (String × JsonText.Tree Int) :=
  (value.map fun a => (name, tree a)).toList

def referencesTree (references : References) : JsonText.Tree Int :=
  .object (member? "operationId" .text references.operationId ++
    member? "receptionId" .text references.receptionId ++
    member? "attemptId" .text references.attemptId ++
    member? "original" artifactTree references.original ++
    member? "document" artifactTree references.document ++
    member? "preparation" exactTree references.preparation ++
    member? "proposal" exactTree references.proposal)

def entryTree (entry : JournalEntry) : JsonText.Tree Int :=
  .object [("id", .text entry.id), ("itemKey", .text entry.itemKey),
    ("operation", .text entry.operation.text), ("profile", .text entry.profile.text),
    ("key", entry.key.elim .null .text), ("fingerprint", .text entry.fingerprint),
    ("references", referencesTree entry.references)]

def environmentTree (environment : JournalEnvironment) : JsonText.Tree Int :=
  .object [("deployment", .text environment.deployment), ("uiOrigin", .text environment.uiOrigin),
    ("terminalOrigin", .text environment.terminalOrigin)]

def journalTree (environment : JournalEnvironment) (entries : List JournalEntry) : JsonText.Tree Int :=
  .object [("profile", .text "intake-journal/1"), ("environment", environmentTree environment),
    ("entries", .array (entries.map entryTree))]

/-- The bytes of the journal's text. -/
def journalBytes (environment : JournalEnvironment) (entries : List JournalEntry) : Nat :=
  ((plain Access.tokens (journalTree environment entries)).map Char.utf8Size).sum

end Body

/-! ### Reading and retaining -/

/-- What the storage has under the key of the journal. A text that is no journal is foreign. -/
inductive Stored where
  | journal (environment : JournalEnvironment) (entries : List JournalEntry)
  | foreign (bytes : Nat)
  deriving DecidableEq, Repr

def Stored.bytes : Stored → Nat
  | journal environment entries => journalBytes environment entries
  | foreign bytes => bytes

/-- The storage of the tab, which may refuse what it is given. -/
structure Storage where
  stored : Option Stored
  denies : Bool
  deriving DecidableEq, Repr

/-- `IntakeJournal.read`. -/
def readJournal (environment : JournalEnvironment) (storage : Storage) :
    Except Fault (List JournalEntry) :=
  match storage.stored with
  | none => .ok []
  | some stored =>
    if JournalLimits.bytes < stored.bytes then .error (.error "Recovery journal exceeds its limit.")
    else match stored with
      | .foreign _ => .error (.error "Recovery journal cannot be read.")
      | .journal written entries =>
        if !(environmentRule written && isArray entryRule JournalLimits.entries entries) then
          .error (.error "Recovery journal has an unsupported shape.")
        else if written ≠ environment then
          .error (.error "Recovery journal belongs to another environment.")
        else if !distinct (entries.map JournalEntry.id) then
          .error (.error "Recovery journal contains duplicate locators.")
        else .ok entries

/-- The same intention, whose references alone may change. -/
def JournalEntry.continues (prior entry : JournalEntry) : Bool :=
  prior.itemKey = entry.itemKey && prior.operation = entry.operation &&
    prior.profile = entry.profile && prior.key = entry.key && prior.fingerprint = entry.fingerprint

/-- The entries with this one, in the place of the one of its name. -/
def withEntry (entries : List JournalEntry) (entry : JournalEntry) :
    Except Fault (List JournalEntry) :=
  match entries.find? fun row => row.id = entry.id with
  | none => .ok (entries ++ [entry])
  | some prior =>
    if prior.continues entry then
      .ok (entries.map fun row => if row.id = entry.id then entry else row)
    else .error (.error "An existing intention cannot be replaced.")

/-- `IntakeJournal.retain`. -/
def retainEntry (environment : JournalEnvironment) (storage : Storage) (entry : JournalEntry) :
    Except Fault Storage := do
  if !entryRule entry then throw (.error "Invalid recovery locator.")
  let entries ← withEntry (← readJournal environment storage) entry
  if JournalLimits.entries < entries.length then
    throw (.error "Recovery journal is full. Reconcile pending work first.")
  if JournalLimits.bytes < journalBytes environment entries then
    throw (.error "Recovery journal is full.")
  if storage.denies then
    throw (.error "Recovery locator could not be retained. No new request was sent.")
  return { storage with stored := some (.journal environment entries) }

end LedgerDesk.Workspace
