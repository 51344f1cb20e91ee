import LedgerDesk.Foundation.Runs
import LedgerDesk.Workspace.Controller

/-!
# The workspace at work

A person acts, and tasks that wait are answered, in any order and with any answers. What a person
does at once is a task that does not wait.
-/
namespace LedgerDesk.Workspace

open Foundation LedgerDesk.Preparation

/-- What a person does in the workspace. -/
inductive Gesture where
  | start
  | suspend
  | select (key : ItemKey)
  | openIntake
  | setTextDraft (draft : TextDraft)
  | setProfile (key : ItemKey) (profile : ExtractionFormat)
  | addFiles (files : List File)
  | captureText
  | editPreparation (edit : PreparationEdit)
  | discardPreparation
  | setProposalDraft (draft : ProposalDraft)
  | setProposalUnit (id : String)
  | action (key : ItemKey) (action : ItemAction)
  | downloadOriginal
  | savePreparation
  | propose
  | confirm
  | downloadResource (reference : Artifact)
  deriving DecidableEq, Repr

/-- An activity keeps the workspace busy; the start and the reading of files do not. -/
def Gesture.isActivity : Gesture → Bool
  | action .. | downloadOriginal | savePreparation | propose | confirm | downloadResource _ => true
  | _ => false

/-- The item of which the original is received. -/
def Gesture.receives : Gesture → Option ItemKey
  | action key .receive => some key
  | _ => none

variable (platform : Platform)

def Gesture.task : Gesture → Task Unit
  | start => Workspace.start platform
  | suspend => Async.modify Controller.suspend
  | select key => Async.modify fun s => s.select key
  | openIntake => Async.modify Controller.openIntake
  | setTextDraft draft => Async.modify fun s => s.setTextDraft draft
  | setProfile key profile => Async.modify fun s => s.setProfile key profile
  | addFiles files => Workspace.addFiles platform files
  | captureText => Async.modify fun s => s.captureText platform
  | editPreparation edit => Async.modify fun s => s.editPreparation platform edit
  | discardPreparation => Async.modify Controller.discardPreparation
  | setProposalDraft draft => Async.modify fun s => s.setProposalDraft draft
  | setProposalUnit id => Async.modify fun s => s.setProposalUnit id
  | action key chosen => Workspace.action platform key chosen
  | downloadOriginal => Workspace.downloadOriginal platform
  | savePreparation => Workspace.savePreparation platform
  | propose => Workspace.propose platform
  | confirm => Workspace.confirm platform
  | downloadResource reference => Workspace.downloadResource platform reference

/-- The context in which a gesture is begun: a start and a stop change it first. -/
def Gesture.opens : Gesture → Controller → Controller
  | start, s | action _ .stop, s => s.changeContext
  | _, s => s

/-- A task that waits, with the epochs in which it was begun. -/
structure Thread where
  gesture : Gesture
  epoch : Nat
  number : Nat
  lifetime : Nat
  request : Request
  resume : Answer request → Task Unit

/-- A task that was begun in a context; an activity is the next one there. -/
def Thread.begun (gesture : Gesture) (s : Controller) (request : Request)
    (resume : Answer request → Task Unit) : Thread where
  gesture := gesture
  epoch := (gesture.opens s).localEpoch
  number := (gesture.opens s).activityEpoch + if gesture.isActivity then 1 else 0
  lifetime := (gesture.opens s).lifetime
  request := request
  resume := resume

structure World where
  state : Controller
  threads : List Thread
  log : List Note

inductive Act where
  | gesture (gesture : Gesture)
  /-- A task that waits is answered. -/
  | answer (index : Nat) (request : Request) (answer : Answer request)
  /-- The storage of the tab begins or ends to refuse what it is given. -/
  | storage (denies : Bool)

abbrev Ended := Async.Turn Controller Fault Note Answer Unit

/-- What a gesture leaves. -/
def World.call (w : World) (gesture : Gesture) : World :=
  let ended : Ended := (gesture.task platform).turn w.state
  { state := ended.state
    log := w.log ++ ended.notes
    threads := match ended.rest with
      | .waits request resume => w.threads ++ [Thread.begun gesture w.state request resume]
      | _ => w.threads }

/-- What is left when a task has taken a turn. -/
def World.resumed (w : World) (index : Nat) (t : Thread) (ended : Ended) : World where
  state := ended.state
  log := w.log ++ ended.notes
  threads := match ended.rest with
    | .waits request resume => w.threads.set index { t with request := request, resume := resume }
    | _ => w.threads.eraseIdx index

def step (w : World) : Act → Option World
  | .gesture gesture => some (w.call platform gesture)
  | .answer index request answer =>
    match w.threads[index]? with
    | none => none
    | some t =>
      if same : request = t.request then
        some (w.resumed index t ((t.resume (same ▸ answer)).turn w.state))
      else none
  | .storage denies => some { w with state := { w.state with storage := { w.state.storage with denies := denies } } }

/-- The workspace as it is opened, with what the tab has stored. -/
def World.opened (storage : Storage) : World where
  state := {
    current := initial
    items := []
    journal := none
    storage := storage
    localEpoch := 0
    activityEpoch := 0
    pending := []
    csrf := none
    lifetime := 0
    uuids := 0 }
  threads := []
  log := []

end LedgerDesk.Workspace
