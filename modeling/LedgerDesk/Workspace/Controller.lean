import LedgerDesk.Foundation.Rows
import LedgerDesk.Workspace.Client

/-!
# `IntakeController`

What a person does in the workspace. An action that asks the service is a task; what it finds when
it is answered is checked against the context in which it was begun.
-/
namespace LedgerDesk.Workspace

open Foundation LedgerDesk.Preparation

namespace Controller

/-! ### The snapshot and the items -/

/-- `publish`. -/
def publish (s : Controller) (patch : Snapshot → Snapshot) : Controller :=
  { s with current := { patch s.current with items := s.items.map LocalItem.view } }

def notice (s : Controller) (text : String) (tone : Tone) : Controller :=
  s.publish fun c => { c with notices := [⟨text, tone⟩] }

def changeContext (s : Controller) : Controller :=
  { s.resetLifetime with
    localEpoch := s.localEpoch + 1
    activityEpoch := s.activityEpoch + 1
    current := { s.current with busy := false } }

def suspend (s : Controller) : Controller :=
  { s.changeContext.suspendClient with
      items := []
      pending := []
      journal := none
      current := initial }.publish fun c => { c with phase := .unavailable }

/-- `failure`. -/
def failure (s : Controller) : Fault → Controller
  | .staleView =>
    s.suspend.notice
      "The session changed. Refresh and explicitly reconcile retained operations." .warning
  | .abort => s
  | fault => s.notice fault.message .error

def item? (s : Controller) (key : ItemKey) : Option LocalItem :=
  s.items.find? fun item => item.view.key = key

def setItem (s : Controller) (key : ItemKey) (set : LocalItem → LocalItem) : Controller :=
  { s with items := Rows.update (fun item => item.view.key = key) set s.items }

/-- `update`. -/
def update (s : Controller) (key : ItemKey) (patch : ItemPatch) : Controller :=
  if (s.item? key).isSome then
    (s.setItem key fun item => { item with view := patch.apply item.view }).publish id
  else s

def statusPatch (status : ItemPhase × String) : ItemPatch :=
  { phase := some status.1, detail := some status.2 }

/-- `adoptReceipt`. -/
def adoptReceipt (s : Controller) (key : ItemKey) (receipt : Reception) : Controller :=
  (s.setItem key fun item => { item with receipt := some receipt }).update key
    { statusPatch (receptionStatus receipt) with
      profile := some receipt.format_profile
      bytes := some receipt.original.bytes
      receipt := some receipt.effect
      actions := some [.refresh, .reconcile] }

def outcomePhase : OutcomeShown → ItemPhase
  | .candidate => .candidate
  | .relationship => .relationship
  | .blocked => .blocked

/-- The confirmation that is shown of the item has its outcome. -/
def showOutcome (s : Controller) (key : ItemKey) (outcome : ShownOutcome) : Controller :=
  match s.current.confirmation with
  | some confirmation =>
    if s.current.selectedKey = some key then
      s.publish fun c => { c with
        confirmation := some { confirmation with confirmOffered := false, outcome := some outcome } }
    else s
  | none => s

def setOutcome (s : Controller) (key : ItemKey) (outcome : ShownOutcome) : Controller :=
  let reviewed : List ItemAction :=
    if ((s.item? key).bind fun item => item.view.proposal).isSome then [.reviewProposal] else []
  ((s.setItem key fun item => { item with outcome := some outcome }).update key
    { phase := some (outcomePhase outcome.kind)
      actions := some (reviewed ++ [.reconcile])
      detail := some outcome.detail }).showOutcome key outcome

/-- `adoptEditorialResult`. -/
def adoptEditorialResult (s : Controller) (key : ItemKey) (response : EditorialResponse) : Controller :=
  if (s.item? key).isNone then s
  else match response.result with
  | .prepared preparation => s.update key
    { phase := some .prepared, preparation := some preparation
      actions := some [.inspectPreparation, .reconcile]
      detail := some "Exact preparation retained. No candidate was constituted." }
  | .proposed proposal preparation => s.update key
    { phase := some .proposed, preparation := some preparation, proposal := some proposal
      actions := some [.reviewProposal, .inspectPreparation, .reconcile]
      detail := some "Exact proposal retained. Review it before confirmation." }
  | .constituted candidate => s.setOutcome key
    ⟨.candidate, candidate, "Candidate constituted. It is not approved or published."⟩
  | .relationship_recorded version => s.setOutcome key
    ⟨.relationship, version, "Relationship recorded. No additional candidate was created."⟩
  | .blocked kind => s.setOutcome key
    ⟨.blocked, response.effect, "Blocked: " ++ kind.text ++
      ". Separate adjudication is required; none is offered here."⟩
  | .reserved .. | .staged .. => s

/-! ### Pending operations -/

def pendingAt (s : Controller) (slot : Slot) : Option Frozen := s.pending.lookup slot

def setPending (s : Controller) (slot : Slot) (frozen : Frozen) : Controller :=
  { s with pending := s.pending.filter (fun p => p.1 ≠ slot) ++ [(slot, frozen)] }

def deletePending (s : Controller) (slot : Slot) : Controller :=
  { s with pending := s.pending.filter fun p => p.1 ≠ slot }

def readEntries (s : Controller) : Except Fault (List JournalEntry) :=
  match s.journal with
  | none => .error (.error "Recovery storage is unavailable.")
  | some environment => readJournal environment s.storage

end Controller

/-! ### What is done at once -/

section Synchronous

variable (platform : Platform)

namespace Controller

def select (s : Controller) (key : ItemKey) : Controller :=
  if (s.item? key).isSome then
    s.changeContext.publish fun c => { c with
      selectedKey := some key, page := .detail, inspector := none, editor := none
      confirmation := none }
  else s

def openIntake (s : Controller) : Controller :=
  s.changeContext.publish fun c => { c with
    page := .intake, inspector := none, editor := none, confirmation := none }

def setTextDraft (s : Controller) (textDraft : TextDraft) : Controller :=
  s.publish fun c => { c with textDraft := textDraft }

/-- A profile of which the service takes originals. -/
def receives (s : Controller) (profile : ExtractionFormat) : Bool :=
  s.current.profiles.any fun p => p.id = profile && p.receptionAvailable

def setProfile (s : Controller) (key : ItemKey) (profile : ExtractionFormat) : Controller :=
  match s.item? key with
  | none => s
  | some item =>
    if item.view.actions.contains .receive && s.receives profile then
      (s.setItem key fun item => { item with
        view := { item.view with profile := some profile }
        media := mediaType profile }).publish id
    else s

/-- `add`. The name is a scalar text, as every text here. -/
def add (s : Controller) (name : String) (bytes : Bytes) (capture : Capture)
    (profile : Option ExtractionFormat) (media : String) : Except Fault Controller :=
  if !isText 256 name then .error (.error "The original name exceeds its supported limit.")
  else if originalBytes < bytes.length then
    .error (.error "The original exceeds the supported byte limit.")
  else
    let key := platform.randomUUID s.uuids
    let item : LocalItem := {
      bytes := some bytes
      media := media
      view := {
        key := key, name := name, capture := capture, profile := profile
        bytes := some bytes.length, phase := .draft
        detail := match capture with
          | .text => "Exact UTF-8 bytes captured from this field; not the bytes of an earlier clipboard source."
          | _ => "Original bytes retained in memory until reception."
        actions := [.receive, .discard], receipt := none, preparation := none, proposal := none } }
    .ok ({ s with uuids := s.uuids + 1, items := s.items ++ [item] }.publish
      fun c => { c with selectedKey := some key })

/-- What fails is shown. -/
def attempt (s : Controller) : Except Fault Controller → Controller
  | .ok s' => s'
  | .error fault => s.failure fault

def captureText (s : Controller) : Controller :=
  if !s.current.intakeOffered || s.current.busy then s
  else s.attempt (s.add platform s.current.textDraft.name
    (platform.encodeText s.current.textDraft.text) .text (some .text_utf8) "text/plain")

def discard (s : Controller) (key : ItemKey) : Controller :=
  { s with items := s.items.filter fun item => item.view.key ≠ key }.publish fun c => { c with
    selectedKey := if c.selectedKey = some key then none else c.selectedKey }

end Controller

/-- `emptyPreparationDraft`. -/
def emptyPreparationDraft : PreparationDraft where
  selected := []
  corrections := []
  classification := ⟨⟨none, ""⟩, ⟨none, ""⟩, ⟨none, ""⟩⟩
  conditions := []
  dependencies := []
  examination := ⟨none, ""⟩
  coverage := ⟨false, ""⟩
  changeReason := ""

inductive PreparationEdit where
  | selection (elementId : String) (selected : Bool)
  | correction (elementId : String) (text : Option String)
  | classification (value : ClassificationDraft)
  | add_condition
  | condition (value : Condition)
  | remove_condition (id : String)
  | add_dependency
  | dependency (value : DependencyDraft)
  | remove_dependency (id : String)
  | examination (value : ExaminationDraft)
  | coverage (value : CoverageDraft)
  | change_reason (value : String)
  deriving DecidableEq, Repr

/-- The draft with an edit, for which a random name may be drawn. -/
def PreparationEdit.apply (name : String) (draft : PreparationDraft) : PreparationEdit → PreparationDraft
  | selection elementId true => { draft with selected := (draft.selected ++ [elementId]).dedup }
  | selection elementId false => { draft with selected := draft.selected.filter (· ≠ elementId) }
  | correction elementId none =>
    { draft with corrections := draft.corrections.filter fun c => c.1 ≠ elementId }
  | correction elementId (some text) =>
    { draft with
      corrections := draft.corrections.filter (fun c => c.1 ≠ elementId) ++ [(elementId, text)] }
  | classification value => { draft with classification := value }
  | add_condition => { draft with conditions := draft.conditions ++ [⟨name, "", ""⟩] }
  | condition value =>
    { draft with conditions := draft.conditions.map fun c => if c.id = value.id then value else c }
  | remove_condition id => { draft with conditions := draft.conditions.filter fun c => c.id ≠ id }
  | add_dependency => { draft with dependencies := draft.dependencies ++ [⟨name, "", "", true⟩] }
  | dependency value =>
    { draft with
      dependencies := draft.dependencies.map fun c => if c.id = value.id then value else c }
  | remove_dependency id => { draft with dependencies := draft.dependencies.filter fun c => c.id ≠ id }
  | examination value => { draft with examination := value }
  | coverage value => { draft with coverage := value }
  | change_reason value => { draft with changeReason := value }

namespace Controller

/-- The selected item, when there is one. -/
def selected? (s : Controller) : Option (ItemKey × LocalItem) := do
  let key ← s.current.selectedKey
  let item ← s.item? key
  return (key, item)

def editPreparation (s : Controller) (edit : PreparationEdit) : Controller :=
  match s.selected? with
  | none => s
  | some (key, item) =>
    match item.preparationDraft, s.current.editor with
    | some draft, some editor =>
      if s.current.busy || s.current.page ≠ .editor then s
      else
        let edited := edit.apply (platform.randomUUID s.uuids) draft
        ({ s with uuids := s.uuids + 1 }.setItem key fun item => { item with
          preparationDraft := some edited }).publish fun c => { c with
            editor := some { editor with draft := edited } }
    | _, _ => s

def retainsPreparation (key : ItemKey) (entries : List JournalEntry) : Bool :=
  entries.any fun entry => entry.itemKey = key && entry.profile = .preparation

/-- `discardPreparation`. When the journal cannot be read, nothing is done. -/
def discardPreparation (s : Controller) : Controller :=
  match s.selected? with
  | none => s
  | some (key, _) =>
    if s.current.busy then s
    else match (if s.journal.isNone then .ok [] else s.readEntries) with
      | .error _ => s
      | .ok entries =>
        if retainsPreparation key entries then
          s.notice "A preparation operation is retained. Reconcile it; discarding a draft cannot undo it." .warning
        else ((s.setItem key fun item => { item with preparationDraft := none }).changeContext).publish
          fun c => { c with page := .detail, editor := none }

def setProposalDraft (s : Controller) (draft : ProposalDraft) : Controller :=
  match s.selected?, s.current.inspector with
  | some (key, _), some (.preparation reference resources (some panel)) =>
    if s.current.busy then s
    else (s.setItem key fun item => { item with proposalDraft := some draft }).publish fun c => { c with
      inspector := some (.preparation reference resources (some { panel with draft := draft })) }
  | _, _ => s

def setProposalUnit (s : Controller) (id : String) : Controller :=
  match s.selected?, s.current.inspector with
  | some (key, _), some (.preparation reference resources (some panel)) =>
    if s.current.busy || !panel.units.contains id then s
    else (s.setItem key fun item => { item with proposalUnit := some id }).publish fun c => { c with
      inspector := some (.preparation reference resources (some { panel with selectedUnit := some id })) }
  | _, _ => s

end Controller

end Synchronous

/-! ### What is asked of the service -/

variable (platform : Platform)

def randomUUID : Task String := do
  let s ← Async.get
  Async.modify fun s => { s with uuids := s.uuids + 1 }
  return platform.randomUUID s.uuids

def sha256 (bytes : Bytes) : Task String := .await .digest fun _ => pure (platform.sha256 bytes)

/-- The digest of the canonical text of a command. -/
def fingerprint (command : Command) : Task String :=
  .await .digest fun _ => pure (platform.fingerprint command)

/-- `this.journal.retain`. -/
def retain (entry : JournalEntry) : Task Unit := do
  let s ← Async.get
  match s.journal with
  | none => throw (.error "Recovery storage is unavailable.")
  | some environment =>
    match retainEntry environment s.storage entry with
    | .ok storage => Async.modify fun s => { s with storage := storage }
    | .error fault => throw fault

/-! ### Readings -/

def readContext : Reading (String × Context × Bool × List ProfileView) where
  accept := workspaceAccept
  maximum := 65536
  take
    | .context deployment context receiveOffered profiles =>
      some (deployment, context, receiveOffered, profiles)
    | _ => none

def readReception : Reading Reception where
  accept := receptionAccept
  maximum := 65536
  take
    | .reception receipt => some receipt
    | _ => none

def readUpload : Reading Unit where
  accept := "application/json"
  maximum := 65536
  take
    | .legacyReception => some ()
    | _ => none

def readWorkspaceReception : Reading (Reception × List ReceptionOffer) where
  accept := workspaceAccept
  maximum := 65536
  take
    | .workspaceReception receipt offers => some (receipt, offers)
    | _ => none

def responseBytes : Nat := 16777216

def readExtraction : Reading ExtractionAnswer where
  accept := workspaceAccept
  maximum := responseBytes
  take
    | .extraction answer => some answer
    | _ => none

def readOriginal : Reading Bytes where
  accept := "application/octet-stream"
  maximum := originalBytes
  take
    | .bytes content => some content
    | _ => none

def readEditorial : Reading EditorialResponse where
  accept := preparationAccept
  maximum := responseBytes
  take
    | .editorial response => some response
    | _ => none

def readResource : Reading (Artifact × String) where
  accept := preparationAccept
  maximum := responseBytes
  take
    | .resource artifact data => some (artifact, data)
    | _ => none

def readEffect : Reading EditorialResponse where
  accept := workspaceAccept
  maximum := 65536
  take
    | .preparationEffect effect => some effect
    | _ => none

def readAttempt : Reading AttemptAnswer where
  accept := workspaceAccept
  maximum := 65536
  take
    | .preparationAttempt answer => some answer
    | _ => none

def readPreparationInspection : Reading (PreparationRecord × Bool × List String) where
  accept := workspaceAccept
  maximum := responseBytes
  take
    | .preparationInspection record proposeOffered resource_offers =>
      some (record, proposeOffered, resource_offers)
    | _ => none

def readProposalInspection : Reading ProposalAnswer where
  accept := workspaceAccept
  maximum := responseBytes
  take
    | .proposalInspection answer => some answer
    | _ => none

/-! ### Effects -/

/-- What is frozen of a command that was not begun before. -/
def freeze (slot : Slot) (profile : JournalProfile) (fingerprint : String) (references : References)
    (command : Command) : Task Frozen := do
  let id ← randomUUID platform
  let key ← randomUUID platform
  return ⟨⟨id, slot.1, slot.2, profile, some key, fingerprint, references⟩, command⟩

/-- The command that an effect sends: the one that is pending, if it is the same, else a new one.
It is retained before anything is sent. -/
def begin (slot : Slot) (profile : JournalProfile) (references : References) (command : Command)
    (refusal : String) (epoch : Nat) : Task Frozen := do
  let fingerprint ← fingerprint platform command
  assertContext epoch
  let s ← Async.get
  let frozen ← match s.pendingAt slot with
    | some pending =>
      if pending.entry.fingerprint ≠ fingerprint then do
        Async.mark (.refused slot pending)
        throw (.error refusal)
      else pure pending
    | none => freeze platform slot profile fingerprint references command
  retain frozen.entry
  Async.modify fun s => s.setPending slot frozen
  return frozen

/-- The answer of an effect is retained with what was learned, and nothing is pending then. -/
def conclude (slot : Slot) (entry : JournalEntry) (learned : References) : Task Unit := do
  retain { entry with references := learned }
  Async.modify fun s => s.deletePending slot

/-- `receptionEffect`. -/
def receptionEffect (key : ItemKey) (command : Command) (epoch : Nat) : Task Reception := do
  let s ← Async.get
  require s.journal.isSome "Recovery storage is unavailable. No new request was sent."
  require (command.body.valid && validParameters command.parameters) "INTAKE_INTENT"
  let operation := command.body.operation
  let references : References := { receptionId := command.parameters.lookup "id" }
  let frozen ← begin platform (key, operation) .reception references command
    "An earlier request is unresolved. Reconcile it before changing its payload." epoch
  let sent := frozen.entry.key.getD ""
  let value ← request (.command operation frozen.command sent) readReception epoch
    (some ((key, operation), sent))
  conclude (key, operation) frozen.entry { frozen.entry.references with
    operationId := some value.operation_id
    receptionId := some value.reception_id
    original := some value.original }
  return value

def EditorialResult.attempt? : EditorialResult → Option (String × ShortPreparation × Artifact)
  | .reserved attempt_id preparation document | .staged attempt_id preparation document =>
    some (attempt_id, preparation, document)
  | _ => none

def EditorialResult.preparation? : EditorialResult → Option Exact
  | .prepared preparation | .proposed _ preparation => some preparation
  | _ => none

def EditorialResult.proposal? : EditorialResult → Option Exact
  | .proposed proposal _ => some proposal
  | _ => none

/-- `preparationEffect`. -/
def preparationEffect (key : ItemKey) (command : Command) (epoch : Nat) : Task EditorialResponse := do
  require command.body.valid "Complete the exact preparation request before sending it."
  let s ← Async.get
  require s.journal.isSome "Recovery storage is unavailable."
  require (validParameters command.parameters) "INTAKE_PARAMETERS"
  let operation := command.body.operation
  let frozen ← begin platform (key, operation) .preparation {} command
    "Reconcile the retained preparation before changing its payload." epoch
  let sent := frozen.entry.key.getD ""
  let response ← request (.command operation frozen.command sent) readEditorial epoch
    (some ((key, operation), sent))
  let known := frozen.entry.references
  conclude (key, operation) frozen.entry { known with
    attemptId := (response.result.attempt?.map fun a => a.1) <|> known.attemptId
    document := (response.result.attempt?.map fun a => a.2.2) <|> known.document
    preparation := response.result.preparation? <|> known.preparation
    proposal := response.result.proposal? <|> known.proposal }
  return response

/-! ### Queries -/

def ReceptionOffer.action? : ReceptionOffer → Option ItemAction
  | .inspect_original => some .inspectOriginal
  | .stop => some .stop
  | .inspect_extraction => none

/-- `refreshItem`. -/
def refreshItem (key : ItemKey) (epoch : Nat) : Task Unit := do
  let s ← Async.get
  match (s.item? key).bind LocalItem.receipt with
  | none => throw (.error "Reconcile the receipt first.")
  | some receipt =>
    let (current, offers) ← request (.workspaceReception receipt.reception_id)
      readWorkspaceReception epoch none
    Async.modify fun s => s.adoptReceipt key current
    let actions : List ItemAction := [.refresh, .reconcile] ++
      (if offers.contains .inspect_original then [.inspectOriginal] else []) ++
      (if offers.contains .stop then [.stop] else [])
    Async.modify fun s => s.update key { actions := some actions }
    match current.work with
    | some work =>
      if offers.contains .inspect_extraction && work.extraction = some .accepted then do
        let answer ← request (.extraction work.id) readExtraction epoch none
        Async.modify fun s => (s.setItem key fun item => { item with
          extraction := some answer.extraction }).update key
            { Controller.statusPatch (extractionStatus answer.extraction.view answer.outcome) with
              actions := some (actions ++ if answer.prepareOffered then [.prepare] else []) }
      else pure ()
    | none => pure ()

/-- `originalBytes`, and the item that is delivered. -/
def deliveredOriginal (key : ItemKey) (epoch : Nat) : Task (Bytes × Artifact × ItemView) := do
  let s ← Async.get
  match s.item? key with
  | none => throw (.error "Original delivery is not currently offered.")
  | some item =>
    match item.receipt with
    | none => throw (.error "Original delivery is not currently offered.")
    | some receipt =>
      require (item.view.actions.contains .inspectOriginal)
        "Original delivery is not currently offered."
      let bytes ← request (.original receipt.reception_id) readOriginal epoch none
      let digest ← sha256 platform bytes
      assertContext epoch
      require (bytes.length = receipt.original.bytes && digest = receipt.original.sha256)
        "The delivered original does not match the retained reference."
      return (bytes, receipt.original, item.view)

/-- `inspectOriginal`. -/
def inspectOriginal (key : ItemKey) (epoch : Nat) : Task Unit := do
  let (_, reference, _) ← deliveredOriginal platform key epoch
  assertContext epoch
  Async.modify fun s => s.publish fun c => { c with
    selectedKey := some key, page := .inspector, inspector := some (.original reference)
    editor := none, confirmation := none }

/-- `openPreparation`. -/
def openPreparation (key : ItemKey) : Task Unit := do
  let s ← Async.get
  match s.item? key with
  | none => throw (.error "Preparation is not currently offered.")
  | some item =>
    match item.extraction.bind ExtractionResponse.result with
    | none => throw (.error "Preparation is not currently offered.")
    | some result =>
      match result.content with
      | none => throw (.error "Preparation is not currently offered.")
      | some content =>
        require (item.view.actions.contains .prepare) "Preparation is not currently offered."
        let draft := item.preparationDraft.getD emptyPreparationDraft
        Async.modify fun s => (s.setItem key fun item => { item with
          preparationDraft := some draft }).changeContext
        let entries ← settle (if s.journal.isNone then .ok [] else s.readEntries)
        Async.modify fun s => s.publish fun c => { c with
          selectedKey := some key
          page := .editor
          editor := some {
            draft := draft
            elements := content.elements.map ExtractionElement.id
            antecedent := result.effect
            saveOffered := true
            discardOffered := !Controller.retainsPreparation key entries } }

/-- `preparedInspection`, its resources. -/
def resourceBlocks (record : PreparationRecord) (resource_offers : List String) : List ResourceBlock :=
  record.payload.elements.filterMap fun element =>
    element.body.resource?.map fun resource =>
      let association := record.payload.resource_associations.find? fun row =>
        row.element_id = element.id
      ⟨element.id, resource, association.any fun row => resource_offers.contains row.local_id⟩

/-- `inspectPrepared`. -/
def inspectPrepared (key : ItemKey) (epoch : Nat) : Task Unit := do
  let s ← Async.get
  match (s.item? key).bind fun item => item.view.preparation with
  | none => throw (.error "No exact retained preparation is known.")
  | some preparation =>
    let (record, proposeOffered, resource_offers) ← request (.inspectPreparation preparation)
      readPreparationInspection epoch none
    require (record.reference = preparation)
      "The inspected preparation differs from the requested reference."
    let s ← Async.get
    let item? := s.item? key
    let draft := (item?.bind LocalItem.proposalDraft).getD
      ⟨.new "", ⟨.distinct, "", none⟩⟩
    Async.modify fun s => s.setItem key fun item => { item with
      prepared := some record, proposalDraft := some draft }
    assertContext epoch
    let panel : ProposalPanel :=
      ⟨draft, record.payload.units.map PreparedUnit.id, item?.bind LocalItem.proposalUnit⟩
    Async.modify fun s => s.publish fun c => { c with
      selectedKey := some key, page := .inspector, editor := none, confirmation := none
      inspector := some (.preparation preparation (resourceBlocks record resource_offers)
        (if proposeOffered then some panel else none)) }

/-- `inspectProposal`. -/
def inspectProposal (key : ItemKey) (epoch : Nat) : Task Unit := do
  let s ← Async.get
  match (s.item? key).bind fun item => item.view.proposal with
  | none => throw (.error "No exact retained proposal is known.")
  | some expected =>
    let answer ← request (.inspectProposal expected) readProposalInspection epoch none
    require (answer.proposal = expected)
      "The inspected proposal differs from the requested reference."
    Async.modify fun s => s.setItem key fun item => { item with proposalInspection := some answer }
    require (answer.preparation.payload.units.any fun unit => unit.id = answer.unit)
      "The reviewed proposal unit is unavailable."
    assertContext epoch
    Async.modify fun s =>
      let outcome := (s.item? key).bind LocalItem.outcome
      s.publish fun c => { c with
        selectedKey := some key, page := .confirmation, inspector := none, editor := none
        confirmation := some ⟨expected, answer.preparation.reference,
          answer.constituteOffered && outcome.isNone, outcome⟩ }

/-! ### Actions on an item -/

/-- An original is reserved, uploaded and finalized. -/
def submit (key : ItemKey) (item : LocalItem) (bytes : Bytes) (profile : ExtractionFormat)
    (context : Context) (epoch : Nat) : Task Unit := do
  let hash ← sha256 platform bytes
  assertContext epoch
  Async.modify fun s => s.setItem key fun item => { item with digest := some hash }
  let reserved ← receptionEffect platform key ⟨[], .reserve_reception
    ⟨item.view.name, bytes.length, hash, item.media⟩ profile context⟩ epoch
  Async.modify fun s => s.setItem key fun item => { item with receipt := some reserved }
  let id ← randomUUID platform
  retain { id := id, itemKey := key, operation := .upload_original, profile := .reception
           key := none, fingerprint := hash
           references := { receptionId := some reserved.reception_id
                           original := some reserved.original } }
  request (.uploadOriginal reserved.reception_id reserved.original.generation bytes)
    readUpload epoch none
  -- The upload answers in the older shape; the current state is asked for before finalization.
  let staged ← request (.reception reserved.reception_id) readReception epoch none
  let final ← receptionEffect platform key ⟨[("id", reserved.reception_id)],
    .finalize_reception staged.revision staged.original profile⟩ epoch
  Async.modify fun s => s.adoptReceipt key final
  refreshItem key epoch

/-- `receive`. -/
def receive (key : ItemKey) (epoch : Nat) : Task Unit := do
  let s ← Async.get
  match s.item? key, s.current.context with
  | some item, some context =>
    match item.bytes, item.view.profile with
    | some bytes, some profile =>
      require s.current.intakeOffered "Select an offered profile and receiving context first."
      require item.receipt.isNone
        "A reception already exists. Reconcile it instead of submitting a new one."
      Async.modify fun s => s.update key
        { phase := some .receiving, actions := some [.reconcile]
          detail := some "Receiving the exact original." }
      submit platform key item bytes profile context epoch
    | _, _ => throw (.error "Select an offered profile and receiving context first.")
  | _, _ => throw (.error "Select an offered profile and receiving context first.")

/-- The locators that are retained of an item. -/
def retainedOf (key : ItemKey) : Task (List JournalEntry) := do
  let s ← Async.get
  let entries ← settle s.readEntries
  return entries.filter fun entry => entry.itemKey = key

/-- What is shown of a preparation that is not retained yet. -/
def recovered (key : ItemKey) (observed : String) : Task Unit :=
  Async.modify fun s => s.update key
    { Controller.statusPatch (recoveredPreparationStatus observed) with actions := some [.reconcile] }

/-- What a reconciliation does of a preparation that was begun under a key. -/
def reconcileEffect (key : ItemKey) (entry : JournalEntry) (epoch : Nat) : Task Unit := do
  let effect ← request (.lookupEffect entry.operation (entry.key.getD "")) readEffect epoch none
  Async.modify fun s => s.deletePending (key, entry.operation)
  match effect.result with
  | .reserved .. => recovered key "reserved"
  | .staged .. => recovered key "staged"
  | .proposed .. =>
    Async.modify fun s => s.adoptEditorialResult key effect
    inspectProposal key epoch
  | _ => Async.modify fun s => s.adoptEditorialResult key effect

/-- What a reconciliation does of a document that was staged. -/
def reconcileAttempt (key : ItemKey) (attempt_id : String) (document : Artifact) (epoch : Nat) :
    Task Unit := do
  let answer ← request (.lookupAttempt attempt_id document) readAttempt epoch none
  if answer.state = .staged then
    Async.modify fun s => (s.setItem key fun item => { item with staged := some answer }).update key
      { Controller.statusPatch (recoveredPreparationStatus answer.state.text) with
        actions := some ((if answer.finalizeOffered then [.continuePreparation] else []) ++
          [.reconcile]) }
  else recovered key answer.state.text

/-- `reconcile`. -/
def reconcile (key : ItemKey) (epoch : Nat) : Task Unit := do
  let entries ← retainedOf key
  match entries.getLast? with
  | none => throw (.error "No retained locator is available. No new request was sent.")
  | some entry =>
    match entry.profile, entry.operation with
    | .preparation, .upload_preparation =>
      match entry.references.attemptId, entry.references.document with
      | some attempt_id, some document => reconcileAttempt key attempt_id document epoch
      | _, _ => throw (.error "Invalid response representation.")
    | .preparation, _ => reconcileEffect key entry epoch
    | .reception, operation =>
      let receipt ← match entry.references.receptionId with
        | some id => request (.reception id) readReception epoch none
        | none =>
          match entry.key with
          | none => throw (.error "The reception locator is incomplete.")
          | some client => request (.lookupIntention operation client) readReception epoch none
      Async.modify fun s => s.adoptReceipt key receipt
      refreshItem key epoch

/-- The reconciliation of an item, which is noted with what it left pending. -/
def reconciliation (key : ItemKey) (epoch : Nat) : Task Unit := do
  reconcile key epoch
  let s ← Async.get
  Async.mark (.reconciled key (s.pending.filter fun p => p.1.1 = key))

/-- The stop of an item. -/
def stopItem (key : ItemKey) (receipt : Reception) (epoch : Nat) : Task Unit := do
  let response ← receptionEffect platform key
    ⟨[("id", receipt.reception_id)], .cancel_reception receipt.revision⟩ epoch
  Async.modify fun s => s.adoptReceipt key response
  refreshItem key epoch

/-- The continuation of a staged preparation. -/
def continuePreparation (key : ItemKey) (staged : AttemptAnswer) (epoch : Nat) : Task Unit := do
  let result ← preparationEffect platform key ⟨[("id", staged.attempt_id)],
    .finalize_preparation staged.preparation.revision staged.document⟩ epoch
  Async.modify fun s =>
    (s.adoptEditorialResult key result).setItem key fun item => { item with staged := none }

/-- What an action does, with the item as it was when it was chosen. -/
def perform (key : ItemKey) (action : ItemAction) (item : LocalItem) (epoch : Nat) : Task Unit :=
  match action with
  | .receive => receive platform key epoch
  | .stop => item.receipt.elim (pure ()) fun receipt => stopItem platform key receipt epoch
  | .reconcile => reconciliation key epoch
  | .refresh => item.receipt.elim (pure ()) fun _ => refreshItem key epoch
  | .prepare => openPreparation key
  | .continuePreparation =>
    item.staged.elim (pure ()) fun staged => continuePreparation platform key staged epoch
  | .inspectOriginal => inspectOriginal platform key epoch
  | .inspectPreparation => inspectPrepared key epoch
  | .reviewProposal => inspectProposal key epoch
  | .discard => pure ()

namespace Controller

/-- Whether an operation of an item is pending. -/
def isPending (s : Controller) (slot : Slot) : Bool := (s.pendingAt slot).isSome

/-- What an action that failed shows of its item. -/
def actionFailed (s : Controller) (key : ItemKey) (action : ItemAction) (fault : Fault) : Controller :=
  if (s.item? key).isNone || fault = .abort || fault = .staleView then s
  else match action, fault with
  | .receive, .request status =>
    if status ∈ [400, 413, 415, 422] then
      s.update key { statusPatch (rejectedReceptionStatus status) with actions := some [.reconcile] }
    else s.update key
      { phase := some .uncertain, actions := some [.reconcile]
        detail := some "The result is not confirmed. Reconcile before attempting another effect." }
  | .receive, _ => s.update key
    { phase := some .uncertain, actions := some [.reconcile]
      detail := some "The result is not confirmed. Reconcile before attempting another effect." }
  | .stop, _ =>
    if s.isPending (key, .cancel_reception) then s.update key
      { phase := some .uncertain, actions := some [.reconcile]
        detail := some "The stop result is not confirmed. Retained history has not been erased; reconcile the operation." }
    else s
  | .continuePreparation, _ =>
    if s.isPending (key, .finalize_preparation) then s.update key
      { phase := some .uncertain, actions := some [.reconcile]
        detail := some "Preparation is not confirmed. Reconcile the retained operation before repeating an effect." }
    else s
  -- A query that failed is no evidence about a known receipt.
  | _, _ => s

end Controller

/-- What is done of an activity that failed, if it is the latest. -/
def ifLatest (activity : Nat) (f : Controller → Controller) : Task Unit := do
  let s ← Async.get
  if s.activityEpoch = activity then Async.modify f else pure ()

/-- The end of an activity. -/
def finish (activity : Nat) : Task Unit :=
  ifLatest activity fun s => s.publish fun c => { c with busy := false }

/-- An activity: its work, what is shown when it fails, and its end. -/
def activity (number : Nat) (work : Task Unit) (failed : Fault → Controller → Controller) : Task Unit :=
  Async.ensuring (work.tryCatch fun fault => ifLatest number (failed fault)) (finish number)

namespace Controller

/-- An activity is begun: it is the latest, and the workspace is busy. -/
def beginActivity (s : Controller) : Controller :=
  { s with activityEpoch := s.activityEpoch + 1 }.publish fun c => { c with busy := true, notices := [] }

end Controller

/-- `action`. -/
def action (key : ItemKey) (action : ItemAction) : Task Unit := do
  let s ← Async.get
  match s.item? key with
  | none => return ()
  | some item =>
    if !item.view.actions.contains action || (s.current.busy && action ≠ .stop) then return ()
    else if action = .discard then Async.modify fun s => s.discard key
    else
      Async.modify fun s => if action = .stop then s.changeContext else s
      let s ← Async.get
      Async.modify Controller.beginActivity
      activity (s.activityEpoch + 1) (perform platform key action item s.localEpoch) fun fault s =>
        (s.actionFailed key action fault).failure fault

/-! ### Other activities -/

/-- `downloadOriginal`. -/
def downloadOriginal : Task Unit := do
  let s ← Async.get
  match s.current.selectedKey, s.current.inspector with
  | some key, some (.original _) =>
    if s.current.busy then return ()
    else
      Async.modify Controller.beginActivity
      activity (s.activityEpoch + 1) (do
        let delivered ← deliveredOriginal platform key s.localEpoch
        Async.mark (.downloaded delivered.2.2.name)) fun fault s => s.failure fault
  | _, _ => return ()

/-- What a draft is saved as: its document is built, reserved, staged and finalized. -/
def savedPreparation (key : ItemKey) (built : BuiltDocument) (bytes : Bytes) (hash : String)
    (context : Context) (epoch : Nat) : Task Unit := do
  let reserved ← preparationEffect platform key ⟨[], .reserve_preparation {
    inputs := built.inputs
    base := none
    selection := built.selection
    documentBytes := bytes.length
    documentSha256 := hash
    context := context }⟩ epoch
  let id ← randomUUID platform
  match reserved.result.attempt? with
  | none => throw (.error "Invalid recovery locator.")
  | some (attempt_id, preparation, document) =>
    retain { id := id, itemKey := key, operation := .upload_preparation, profile := .preparation
             key := none, fingerprint := hash
             references := { attemptId := some attempt_id, document := some document } }
    let staged ← request (.uploadPreparation attempt_id bytes) readEditorial epoch none
    match staged.result.attempt? with
    | none => throw (.error "Complete the exact preparation request before sending it.")
    | some (_, _, stagedDocument) =>
      let prepared ← preparationEffect platform key ⟨[("id", attempt_id)],
        .finalize_preparation preparation.revision stagedDocument⟩ epoch
      Async.modify fun s => s.update key
        { phase := some .prepared, preparation := prepared.result.preparation?
          actions := some [.inspectPreparation, .reconcile]
          detail := some "Exact preparation retained. This does not constitute, approve or publish a candidate." }
      Async.modify fun s => s.publish fun c => { c with page := .detail, editor := none }

/-- What is built of a draft before any effect. -/
def builtPreparation (extraction : ExtractionResponse) (draft : PreparationDraft) (context : Context)
    (epoch : Nat) : Task (BuiltDocument × Bytes × String) := do
  match preparationDocument extraction draft with
  | .error fault => throw (.error fault)
  | .ok built =>
    let bytes := platform.documentBytes built.document
    let hash ← sha256 platform bytes
    assertContext epoch
    require (validateReservation {
      inputs := built.inputs, base := none, selection := built.selection
      documentBytes := bytes.length, documentSha256 := hash, context := context })
      "Complete the preparation declaration before sending it."
    return (built, bytes, hash)

/-- What is shown of a preparation whose effect was begun and failed. -/
def Controller.saveFailed (s : Controller) (key : ItemKey) (fault : Fault) : Controller :=
  if fault = .abort || fault = .staleView then s
  else (s.update key
    { phase := some .uncertain, actions := some [.reconcile]
      detail := some "Preparation is not confirmed. Reconcile the retained operation before repeating an effect." }).publish
        fun c => { c with page := .detail, editor := none }

/-- The work of a save. A draft of which nothing can be built has no effect. -/
def saveWork (key : ItemKey) (extraction : ExtractionResponse) (draft : PreparationDraft)
    (context : Context) (number epoch : Nat) : Task Unit := do
  let built ← ((builtPreparation platform extraction draft context epoch) >>= fun b =>
    pure (some b)).tryCatch fun fault => do
      ifLatest number fun s => s.failure fault
      return none
  match built with
  | none => return ()
  | some (built, bytes, hash) =>
    (savedPreparation platform key built bytes hash context epoch).tryCatch fun fault =>
      ifLatest number fun s => (s.saveFailed key fault).failure fault

/-- `savePreparation`. -/
def savePreparation : Task Unit := do
  let s ← Async.get
  match s.selected?, s.current.context, s.current.editor with
  | some (key, item), some context, some editor =>
    match item.extraction, item.preparationDraft with
    | some extraction, some draft =>
      if s.current.busy || !editor.saveOffered then return ()
      else
        Async.modify Controller.beginActivity
        Async.ensuring (saveWork platform key extraction draft context (s.activityEpoch + 1)
          s.localEpoch) (finish (s.activityEpoch + 1))
    | _, _ => return ()
  | _, _, _ => return ()

/-- What is shown of a proposal that failed. -/
def Controller.proposeFailed (s : Controller) (key : ItemKey) : Controller :=
  if s.isPending (key, .propose) then
    match s.current.inspector with
    | some inspector =>
      (s.update key
        { phase := some .uncertain, actions := some [.reconcile]
          detail := some "The proposal result is not confirmed. Reconcile the retained operation." }).publish
        fun c => { c with inspector := some (match inspector with
          | .preparation reference resources _ => .preparation reference resources none
          | shown => shown) }
    | none => s
  else s

/-- The work of a proposal. -/
def proposeWork (key : ItemKey) (preparation : Exact) (draft : ProposalDraft) (unit : String)
    (epoch : Nat) : Task Unit := do
  let response ← preparationEffect platform key
    ⟨[("id", preparation.id), ("revision", toString preparation.revision)], .propose unit draft⟩ epoch
  Async.modify fun s => s.adoptEditorialResult key response
  inspectProposal key epoch

/-- `propose`. -/
def propose : Task Unit := do
  let s ← Async.get
  match s.selected?, s.current.inspector with
  | some (key, item), some (.preparation _ _ (some _)) =>
    match item.view.preparation, item.proposalDraft, item.proposalUnit with
    | some preparation, some draft, some unit =>
      if s.current.busy then return ()
      else
        Async.modify Controller.beginActivity
        activity (s.activityEpoch + 1)
          (proposeWork platform key preparation draft unit s.localEpoch) fun fault s =>
            (s.proposeFailed key).failure fault
    | _, _, _ => return ()
  | _, _ => return ()

/-- What is shown of a constitution that failed. -/
def Controller.confirmFailed (s : Controller) (key : ItemKey) : Controller :=
  if s.isPending (key, .constitute) then
    match s.current.confirmation with
    | some confirmation =>
      (s.update key
        { phase := some .uncertain, actions := some [.reviewProposal, .reconcile]
          detail := some "The constitution result is not confirmed. Reconcile the retained operation." }).publish
        fun c => { c with confirmation := some { confirmation with confirmOffered := false } }
    | none => s
  else s

/-- The work of a confirmation. -/
def confirmWork (key : ItemKey) (proposal : Exact) (epoch : Nat) : Task Unit := do
  let response ← preparationEffect platform key ⟨[], .constitute proposal⟩ epoch
  Async.modify fun s => s.adoptEditorialResult key response

/-- `confirm`. -/
def confirm : Task Unit := do
  let s ← Async.get
  match s.current.selectedKey, s.current.confirmation with
  | some key, some confirmation =>
    if !confirmation.confirmOffered || s.current.busy then return ()
    else
      Async.modify Controller.beginActivity
      activity (s.activityEpoch + 1) (confirmWork platform key confirmation.proposal s.localEpoch)
        fun fault s => (s.confirmFailed key).failure fault
  | _, _ => return ()

/-- The resource that a reference names among those that are offered, with its own name. -/
def offeredResource (record : PreparationRecord) (resources : List ResourceBlock)
    (reference : Artifact) : Option ResourceAssociation := do
  let block ← resources.find? fun block => block.downloadOffered && block.resource = reference
  record.payload.resource_associations.find? fun row => row.element_id = block.id

/-- The work of a download. -/
def downloadWork (record : PreparationRecord) (association : ResourceAssociation)
    (reference : Artifact) (epoch : Nat) : Task Unit := do
  let answer ← request (.resource record.reference association.local_id) readResource epoch none
  require (answer.1 = reference) "Resource association changed."
  let bytes := platform.fromBase64 answer.2
  let hash ← sha256 platform bytes
  assertContext epoch
  require (hash = reference.sha256 && bytes.length = reference.bytes)
    "Resource bytes differ from the exact reference."
  Async.mark (.downloaded ("resource-" ++ association.local_id))

/-- `downloadResource`. -/
def downloadResource (reference : Artifact) : Task Unit := do
  let s ← Async.get
  match s.selected?, s.current.inspector with
  | some (_, item), some (.preparation _ resources _) =>
    match item.prepared with
    | none => return ()
    | some record =>
      if s.current.busy then return ()
      else
        match offeredResource record resources reference with
        | none => return ()
        | some association =>
          Async.modify Controller.beginActivity
          activity (s.activityEpoch + 1) (downloadWork platform record association reference
            s.localEpoch) fun fault s => s.failure fault
  | _, _ => return ()

/-! ### Files -/

/-- `hint`. -/
def hint (extension : String) : Option ExtractionFormat :=
  [("txt", .text_utf8), ("md", .markdown_inert), ("csv", .csv_utf8), ("xlsx", .xlsx_cells)].lookup
    extension

/-- A file is read and added. Whatever goes wrong is shown, in whatever context it goes wrong. -/
def addFile (file : File) (epoch : Nat) : Task Unit := do
  require (file.size ≤ originalBytes) "The selected file exceeds 1048576 bytes."
  let bytes ← .await (.arrayBuffer file) fun
    | .ok bytes => pure bytes
    | .error .aborted => throw Fault.abort
    | .error (.unreadable message) => throw (.error message)
  assertContext epoch
  let s ← Async.get
  let profile := (hint file.extension).filter s.receives
  match s.add platform file.name bytes .file profile ((profile.map mediaType).getD file.type) with
  | .ok s' => Async.modify fun _ => s'
  | .error fault => throw fault

def addEach (epoch : Nat) : List File → Task Unit
  | [] => pure ()
  | file :: files =>
    -- The rest is left when the context has changed.
    ((addFile platform file epoch >>= fun _ => pure true).tryCatch fun fault => do
      Async.modify fun s => s.failure fault
      return fault ≠ .abort) >>= fun more => if more then addEach epoch files else pure ()

/-- `addFiles`. -/
def addFiles (files : List File) : Task Unit := do
  let s ← Async.get
  if !s.current.intakeOffered || s.current.busy then return ()
  else addEach platform s.localEpoch files

/-! ### The start -/

def recoveredItem (key : ItemKey) : LocalItem where
  view := {
    key := key, name := "Recovered operation", capture := .recovered, profile := none, bytes := none
    phase := .uncertain
    detail := "Only recovery locators survived. Reconcile under the current session before continuing."
    actions := [.reconcile], receipt := none, preparation := none, proposal := none }

/-- The items with one for every retained locator that has none. -/
def recover (items : List LocalItem) : List JournalEntry → List LocalItem
  | [] => items
  | entry :: entries =>
    recover (if items.any fun item => item.view.key = entry.itemKey then items
      else items ++ [recoveredItem entry.itemKey]) entries

/-- What a start takes in: unsent originals stay in an unchanged context, and everything else
comes back as a locator. -/
def Controller.started (s : Controller) (priorContext : Option Context) (context : Context)
    (environment : JournalEnvironment) (entries : List JournalEntry) (receiveOffered : Bool)
    (profiles : List ProfileView) : Controller :=
  let sameContext : Bool := priorContext.all fun prior => prior = context
  let kept := s.items.filter fun item => item.view.phase = .draft && sameContext
  { s with
      journal := some environment
      items := recover kept entries
      pending := if sameContext then s.pending else [] }.publish fun c => { c with
        phase := .ready
        context := some context
        selectedKey := none
        textDraft := if sameContext then c.textDraft else ⟨"", ""⟩
        intakeOffered := receiveOffered
        profiles := profiles
        notices := if entries.isEmpty then []
          else [⟨"Recovered locators are not authority. No operation was repeated.", .info⟩] }

/-- The work of a start, in the context that it has begun. -/
def startWork (priorContext : Option Context) (epoch : Nat) : Task Unit := do
  let known ← session
  if known then do
    assertContext epoch
    let (deployment, context, receiveOffered, profiles) ← request .profiles readContext epoch none
    let environment : JournalEnvironment := ⟨deployment, platform.uiOrigin, platform.terminalOrigin⟩
    require (environmentRule environment) "Invalid journal environment."
    let s ← Async.get
    let entries ← settle (readJournal environment s.storage)
    Async.modify fun s => s.started priorContext context environment entries receiveOffered profiles
  else Async.modify Controller.suspend

/-- `start`. -/
def start : Task Unit := do
  let s ← Async.get
  let priorContext := s.current.context
  Async.modify Controller.changeContext
  let s ← Async.get
  Async.modify fun s => s.publish fun c => { c with
    phase := .checking_session, notices := [], intakeOffered := false, page := .intake
    editor := none, inspector := none, confirmation := none }
  (startWork platform priorContext s.localEpoch).tryCatch fun fault =>
    ifLatest s.activityEpoch fun s => if fault = .abort then s else s.suspend.failure fault

end LedgerDesk.Workspace
