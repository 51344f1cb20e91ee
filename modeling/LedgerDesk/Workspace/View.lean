import LedgerDesk.Preparation.Browser
import LedgerDesk.Preparation.Producer

/-!
# What the workspace shows

The views get a snapshot of the controller, which alone has the items, the drafts and what the
service answered. A body that a contract of the service refuses is none of the answers here.
-/
namespace LedgerDesk.Workspace

open Foundation LedgerDesk.Preparation

abbrev ItemKey := String

/-! ### Items -/

inductive ItemAction where
  | receive
  | refresh
  | reconcile
  | stop
  | discard
  | inspectOriginal
  | prepare
  | continuePreparation
  | inspectPreparation
  | reviewProposal
  deriving DecidableEq, Repr

inductive ItemPhase where
  | draft
  | receiving
  | received
  | extracting
  | extracted
  | prepared
  | proposed
  | candidate
  | relationship
  | blocked
  | recorded
  | uncertain
  | failed
  | stopped
  deriving DecidableEq, Repr

inductive Capture where
  | file
  | text
  | recovered
  deriving DecidableEq, Repr

structure ItemView where
  key : ItemKey
  name : String
  capture : Capture
  profile : Option ExtractionFormat
  bytes : Option Nat
  phase : ItemPhase
  detail : String
  actions : List ItemAction
  receipt : Option Exact
  preparation : Option Exact
  proposal : Option Exact
  deriving DecidableEq, Repr

/-- `formats`, the media type of each. -/
def mediaType : ExtractionFormat → String
  | .text_utf8 => "text/plain"
  | .markdown_inert => "text/markdown"
  | .csv_utf8 => "text/csv"
  | .xlsx_cells => "application/vnd.openxmlformats-officedocument.spreadsheetml.sheet"

inductive Tone where
  | info
  | warning
  | error
  deriving DecidableEq, Repr

structure Notice where
  text : String
  tone : Tone
  deriving DecidableEq, Repr

structure ProfileView where
  id : ExtractionFormat
  receptionAvailable : Bool
  extractionAvailable : Bool
  deriving DecidableEq, Repr

structure TextDraft where
  name : String
  text : String
  deriving DecidableEq, Repr

/-! ### What the service answers -/

/-- The states of a reception. -/
inductive ReceptionState where
  | reserved
  | receiving
  | staged
  | received
  | interrupted
  | stopped
  | uncertain
  deriving DecidableEq, Repr

def ReceptionState.text : ReceptionState → String
  | reserved => "reserved"
  | receiving => "receiving"
  | staged => "staged"
  | received => "received"
  | interrupted => "interrupted"
  | stopped => "stopped"
  | uncertain => "uncertain"

/-- The states of the extraction of a reception. -/
inductive ExtractionState where
  | not_started
  | eligible
  | claimed
  | running
  | result_staged
  | accepted
  | stopping
  | stopped
  | uncertain
  deriving DecidableEq, Repr

def ExtractionState.text : ExtractionState → String
  | not_started => "not_started"
  | eligible => "eligible"
  | claimed => "claimed"
  | running => "running"
  | result_staged => "result_staged"
  | accepted => "accepted"
  | stopping => "stopping"
  | stopped => "stopped"
  | uncertain => "uncertain"

structure Work where
  id : String
  state : ExtractionState
  extraction : Option ExtractionState
  deriving DecidableEq, Repr

/-- `ReceptionV2`. -/
structure Reception where
  operation_id : String
  reception_id : String
  state : ReceptionState
  revision : Nat
  original : Artifact
  format_profile : ExtractionFormat
  effect : Option Exact
  work : Option Work
  deriving DecidableEq, Repr

inductive ReceptionOffer where
  | inspect_original
  | inspect_extraction
  | stop
  deriving DecidableEq, Repr

/-- The outcome of an extraction, which its content carries. -/
inductive ContentOutcome where
  | completed
  | incomplete
  | failed
  deriving DecidableEq, Repr

def ContentOutcome.text : ContentOutcome → String
  | completed => "completed"
  | incomplete => "partial"
  | failed => "failed"

/-- An extraction as the workspace queries it. -/
structure ExtractionAnswer where
  extraction : ExtractionResponse
  outcome : Option ContentOutcome
  prepareOffered : Bool

/-- A preparation that is not retained yet has no digest. -/
structure ShortPreparation where
  id : String
  revision : Nat
  deriving DecidableEq, Repr

inductive OutcomeKind where
  | constituted
  | relationship_recorded
  | blocked
  deriving DecidableEq, Repr

def OutcomeKind.text : OutcomeKind → String
  | constituted => "constituted"
  | relationship_recorded => "relationship_recorded"
  | blocked => "blocked"

inductive BlockKind where
  | identity_collision
  | possible_duplicate
  deriving DecidableEq, Repr

def BlockKind.text : BlockKind → String
  | identity_collision => "identity_collision"
  | possible_duplicate => "possible_duplicate"

/-- What came of an editorial operation. An outcome has the one reference that its kind asks for. -/
inductive EditorialResult where
  | reserved (attempt_id : String) (preparation : ShortPreparation) (document : Artifact)
  | staged (attempt_id : String) (preparation : ShortPreparation) (document : Artifact)
  | prepared (preparation : Exact)
  | proposed (proposal preparation : Exact)
  | constituted (candidate : Exact)
  | relationship_recorded (version : Exact)
  | blocked (kind : BlockKind)
  deriving DecidableEq, Repr

structure EditorialResponse where
  operation_id : String
  effect : Exact
  result : EditorialResult
  deriving DecidableEq, Repr

inductive AttemptState where
  | reserved
  | staged
  | finalized
  deriving DecidableEq, Repr

def AttemptState.text : AttemptState → String
  | reserved => "reserved"
  | staged => "staged"
  | finalized => "finalized"

structure AttemptAnswer where
  attempt_id : String
  state : AttemptState
  document : Artifact
  preparation : ShortPreparation
  finalizeOffered : Bool
  deriving DecidableEq, Repr

/-- `PREPARATION_RECORD_RESPONSE`, but for its descriptor and its differences, which are only
shown. -/
structure PreparationRecord where
  reference : Exact
  payload : Payload

inductive TargetDraft where
  | new (declaration : String)
  | successor (unitId : String) (version : Exact) (declaration : String)
  | relationship (unitId : String) (version : Exact) (declaration : String)
  deriving DecidableEq, Repr

inductive JudgmentKind where
  | distinct
  | same_version
  | possible_duplicate
  deriving DecidableEq, Repr

structure JudgmentDraft where
  kind : JudgmentKind
  reason : String
  evidence : Option Exact
  deriving DecidableEq, Repr

structure ProposalDraft where
  target : TargetDraft
  judgment : JudgmentDraft
  deriving DecidableEq, Repr

/-- `PREPARATION_INSPECTION`, as far as it is more than shown. -/
structure ProposalAnswer where
  proposal : Exact
  unit : String
  preparation : PreparationRecord
  constituteOffered : Bool

/-! ### Pages -/

inductive OutcomeShown where
  | candidate
  | relationship
  | blocked
  deriving DecidableEq, Repr

structure ShownOutcome where
  kind : OutcomeShown
  reference : Exact
  detail : String
  deriving DecidableEq, Repr

/-- A resource among the blocks of an inspection; the other blocks are only shown. -/
structure ResourceBlock where
  id : String
  resource : Artifact
  downloadOffered : Bool
  deriving DecidableEq, Repr

structure ProposalPanel where
  draft : ProposalDraft
  units : List String
  selectedUnit : Option String
  deriving DecidableEq, Repr

inductive Inspector where
  | original (reference : Artifact)
  | preparation (reference : Exact) (resources : List ResourceBlock) (proposal : Option ProposalPanel)
  deriving DecidableEq, Repr

structure Confirmation where
  proposal : Exact
  preparation : Exact
  confirmOffered : Bool
  outcome : Option ShownOutcome
  deriving DecidableEq, Repr

structure Editor where
  draft : PreparationDraft
  elements : List String
  antecedent : Exact
  saveOffered : Bool
  discardOffered : Bool
  deriving DecidableEq, Repr

inductive Page where
  | intake
  | detail
  | editor
  | inspector
  | confirmation
  deriving DecidableEq, Repr

inductive WorkspacePhase where
  | checking_session
  | ready
  | unavailable
  deriving DecidableEq, Repr

/-- `WorkspaceSnapshot`. -/
structure Snapshot where
  phase : WorkspacePhase
  context : Option Context
  profiles : List ProfileView
  items : List ItemView
  selectedKey : Option ItemKey
  notices : List Notice
  textDraft : TextDraft
  intakeOffered : Bool
  busy : Bool
  page : Page
  inspector : Option Inspector
  confirmation : Option Confirmation
  editor : Option Editor
  deriving DecidableEq, Repr

def initial : Snapshot where
  phase := .checking_session
  context := none
  profiles := []
  items := []
  selectedKey := none
  notices := []
  textDraft := ⟨"", ""⟩
  intakeOffered := false
  busy := false
  page := .intake
  inspector := none
  confirmation := none
  editor := none

/-! ### Status texts -/

/-- A part of an item's view that is published anew; what is left out stays. -/
structure ItemPatch where
  phase : Option ItemPhase := none
  detail : Option String := none
  actions : Option (List ItemAction) := none
  profile : Option ExtractionFormat := none
  bytes : Option Nat := none
  receipt : Option (Option Exact) := none
  preparation : Option Exact := none
  proposal : Option Exact := none

def ItemPatch.apply (patch : ItemPatch) (view : ItemView) : ItemView where
  key := view.key
  name := view.name
  capture := view.capture
  profile := patch.profile <|> view.profile
  bytes := patch.bytes <|> view.bytes
  phase := patch.phase.getD view.phase
  detail := patch.detail.getD view.detail
  actions := patch.actions.getD view.actions
  receipt := patch.receipt.getD view.receipt
  preparation := patch.preparation <|> view.preparation
  proposal := patch.proposal <|> view.proposal

def receptionStatus (receipt : Reception) : ItemPhase × String :=
  match receipt.state with
  | .stopped =>
    (.stopped, "The service recorded a stop. Retained history and the original were not erased.")
  | .received =>
    match receipt.work.map Work.state with
    | some .uncertain => (.uncertain, "Original received. The extraction outcome is uncertain; do not infer that it failed or repeat its effect.")
    | some .claimed | some .running | some .result_staged | some .stopping =>
      (.extracting, "Original received. Extraction state: " ++
        ((receipt.work.map fun w => w.state.text).getD "") ++ ". No accepted result is implied.")
    | _ => (.received, "Original received. Extraction and preparation are separate stages.")
  | state =>
    (if state = .uncertain then .uncertain else .recorded,
      "Current reception state: " ++ state.text ++ ". This is not a completed receipt.")

def extractionStatus (view : ExtractionView) (outcome : Option ContentOutcome) : ItemPhase × String :=
  match view, outcome with
  | .content, some outcome =>
    (if outcome = .failed then .failed else .extracted,
      "Extraction observed: " ++ outcome.text ++ ". Preparation is a separate human act.")
  | _, _ => (.received, "Only extraction metadata is currently available.")

def recoveredPreparationStatus (observed : String) : ItemPhase × String :=
  (.recorded, "Retained preparation result: " ++ observed ++ ". No operation was repeated.")

def rejectedReceptionStatus (status : Nat) : ItemPhase × String :=
  (.failed, "The service rejected this reception request (" ++ toString status ++
    "). Earlier recorded work is retained; reconcile its current state.")

end LedgerDesk.Workspace
