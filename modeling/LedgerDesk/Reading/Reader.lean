import LedgerDesk.Foundation.Async
import LedgerDesk.Foundation.Runs
import LedgerDesk.Reading.Contract

/-!
# The reader

The state a viewer of readings shows, and the requests that change it. Two counters tell a request
that is too late: one for the view as a whole, one for the material that is selected. Between two
answers anything may be done, and a request that was aborted may still be answered.
-/
namespace LedgerDesk.Reading

open Foundation Foundation.JsonUnits Foundation.Surrogates
open Gateway (trim isUpper)

inductive Failure where
  | unavailable
  | unauthenticated
  | technical
  | invalid
  deriving DecidableEq, Repr

inductive Phase where
  | loading
  | ready
  | error
  | paused
  deriving DecidableEq, Repr

inductive DetailPhase where
  | idle
  | loading
  | ready
  deriving DecidableEq, Repr

structure ReaderState (ν : Type) where
  list : Option (ListResponse ν)
  phase : Phase
  selected : Option Reference
  detail : Option (Shown ν)
  detailPhase : DetailPhase
  failure : Option Failure

def ReaderState.initial {ν : Type} : ReaderState ν where
  list := none
  phase := .paused
  selected := none
  detail := none
  detailPhase := .idle
  failure := none

def sameReference (a b : Reference) : Bool :=
  a.unit_id = b.unit_id && a.version_id = b.version_id

/-- `ReadFailure`, or anything else that is thrown. -/
inductive Fault where
  | read (reason : Failure)
  | other
  deriving DecidableEq, Repr

def Fault.failure : Fault → Failure
  | read reason => reason
  | other => .technical

/-- The reader, with what its listeners have been told. -/
structure Reader (ν : Type) where
  state : ReaderState ν
  epoch : Nat
  detailSequence : Nat
  published : List (ReaderState ν)

namespace Reader

variable {ν : Type} (s : Reader ν)

def publish (state : ReaderState ν) : Reader ν :=
  { s with state := state, published := s.published ++ [state] }

def pause : Reader ν :=
  { s with epoch := s.epoch + 1, detailSequence := s.detailSequence + 1 }.publish .initial

def fail (error : Fault) : Reader ν :=
  s.pause.publish { ReaderState.initial with phase := .error, failure := some error.failure }

def back : Reader ν :=
  { s with detailSequence := s.detailSequence + 1 }.publish
    { s.state with selected := none, detail := none, detailPhase := .idle }

end Reader

/-! ### Requests -/

structure HttpResponse where
  contentType : Option (List Nat)
  cacheControl : Option (List Nat)
  status : Nat
  deriving DecidableEq, Repr

inductive Request where
  | fetch (url : List Nat)
  | body
  /-- The task that another one waits for has ended, and the other one goes on. -/
  | resumed
  deriving DecidableEq, Repr

/-- Where there is no answer the request has failed or was aborted. -/
abbrev Answer (ν : Type) : Request → Type
  | .fetch _ => Option HttpResponse
  | .body => Option (Value ν)
  | .resumed => Unit

abbrev ReaderTask (ν α : Type) := Async (Reader ν) Fault Empty (Answer ν) α

variable {ν : Type} (N : Numbers ν)

def ask (r : Request) : ReaderTask ν (Answer ν r) := Async.await r .done

def toLowerCase (text : List Nat) : List Nat :=
  text.map fun u => if isUpper u then u + 32 else u

/-- `split(';')[0].trim()`. -/
def mediaType (response : HttpResponse) : Option (List Nat) :=
  response.contentType.map fun text => trim (text.takeWhile (· ≠ ';'.toNat))

def noStore (response : HttpResponse) : Bool :=
  response.cacheControl.any fun text =>
    (text.splitOn ','.toNat).any fun v => toLowerCase (trim v) = units "no-store"

def jsonMedia : List Nat := units "application/json"

def problemMedia : List Nat := units "application/problem+json"

/-- `[A-Za-z0-9]` and ``-_.!~*'()``. -/
def isUnreserved (u : Nat) : Bool :=
  Gateway.isAlnum u || (units "-_.!~*'()").contains u

def escapeByte (byte : Nat) : List Nat :=
  if isUnreserved byte then [byte]
  else '%'.toNat :: [byte / 16, byte % 16].map fun digit => if digit < 10 then 48 + digit else 55 + digit

/-- It throws at a lone surrogate. -/
def encodeURIComponent (text : List Nat) : Option (List Nat) :=
  if hasLone text then none
  else some ((encodeUtf8 text).toList.flatMap fun byte => escapeByte byte.toNat)

def problemFailure (status : Nat) : Failure :=
  if status = 403 then .unauthenticated else if status = 404 then .unavailable
  else if status = 400 then .invalid else .technical

/-- `json`: what a response has to say, if it is one of the service's. -/
def json (url : List Nat) : ReaderTask ν (Value ν) := do
  let some response ← ask (.fetch url) | throw .other
  let media := mediaType response
  if media ≠ some jsonMedia ∧ media ≠ some problemMedia then throw (.read .invalid)
  let some body ← ask .body | throw .other
  if response.status ≠ 200 then
    if media ≠ some problemMedia then throw (.read .invalid)
    match consumeProblem N body response.status with
    | .error _ => throw (.read .invalid)
    | .ok status => throw (.read (problemFailure status))
  else if media ≠ some jsonMedia ∨ noStore response = false then throw (.read .invalid)
  else return body

/-- What waits for a task goes on in a turn of its own. -/
def awaited {α : Type} (x : ReaderTask ν α) : ReaderTask ν α :=
  (x.tryCatch fun e => Async.await .resumed fun _ => .fail e).bind fun a =>
    Async.await .resumed fun _ => .done a

/-! ### The reader -/

/-- `JSON.stringify([unit_id, version_id])`. -/
def itemKey (reference : Reference) : List Nat :=
  units "[" ++ quoted (quoteUnits reference.unit_id) ++ units "," ++
    quoted (quoteUnits reference.version_id) ++ units "]"

/-- What is shown of a list, when it is still wanted. -/
def takeList (epoch : Nat) (body : Value ν) : ReaderTask ν Unit := do
  let result := validateListWire body
  let s ← Async.get
  if epoch ≠ s.epoch then return
  match result with
  | .error _ => throw (.read .invalid)
  | .ok list =>
    if ¬(list.items.map fun item => itemKey item.reference).Nodup then throw (.read .invalid)
    else Async.modify (·.publish { ReaderState.initial with phase := .ready, list := some list })

def listFailed (epoch : Nat) (error : Fault) : ReaderTask ν Unit := do
  let s ← Async.get
  if epoch = s.epoch then Async.modify (·.fail error)

/-- The request for the list, and what is done with its answer. -/
def askList (serviceOrigin : List Nat) (epoch : Nat) : ReaderTask ν Unit :=
  ((awaited (json N (serviceOrigin ++ units "/api/v1/material"))).bind (takeList epoch)).tryCatch
    (listFailed epoch)

def reload (serviceOrigin : List Nat) : ReaderTask ν Unit := do
  Async.modify Reader.pause
  let s ← Async.get
  let epoch := s.epoch
  Async.modify (·.publish { ReaderState.initial with phase := .loading })
  askList N serviceOrigin epoch

/-- The path of a material; it throws where the reference has none. -/
def materialPath (reference : Reference) : ReaderTask ν (List Nat) :=
  match encodeURIComponent reference.unit_id, encodeURIComponent reference.version_id with
  | some unit, some version =>
    return units "/api/v1/material/" ++ unit ++ units "/versions/" ++ version
  | _, _ => throw .other

def takeDetail (epoch sequence : Nat) (reference : Reference) (body : Value ν) :
    ReaderTask ν Unit := do
  let result := validateDetailWire body
  let s ← Async.get
  if epoch ≠ s.epoch ∨ sequence ≠ s.detailSequence then return
  match result with
  | .error _ => throw (.read .invalid)
  | .ok shown =>
    if sameReference shown.reference reference then
      Async.modify (·.publish { s.state with detail := some shown, detailPhase := .ready })
    else throw (.read .invalid)

def detailFailed (epoch sequence : Nat) (error : Fault) : ReaderTask ν Unit := do
  let s ← Async.get
  if epoch = s.epoch ∧ sequence = s.detailSequence then Async.modify (·.fail error)

def listed (state : ReaderState ν) (reference : Reference) : Bool :=
  state.list.any fun list => list.items.any fun item => sameReference reference item.reference

def askDetail (serviceOrigin : List Nat) (epoch sequence : Nat) (reference : Reference) :
    ReaderTask ν Unit :=
  (((materialPath reference).bind fun path => awaited (json N (serviceOrigin ++ path))).bind
    (takeDetail epoch sequence reference)).tryCatch (detailFailed epoch sequence)

def select (serviceOrigin : List Nat) (reference : Reference) : ReaderTask ν Unit := do
  let s ← Async.get
  if listed s.state reference then
    Async.modify fun s => { s with detailSequence := s.detailSequence + 1 }
    let s ← Async.get
    let sequence := s.detailSequence
    let epoch := s.epoch
    Async.modify (·.publish
      { s.state with selected := some reference, detail := none, detailPhase := .loading })
    askDetail N serviceOrigin epoch sequence reference

/-! ### The reader at work -/

/-- What was asked of the reader and is not answered. -/
inductive Reader.Wanted where
  | list
  | detail (reference : Reference)
  deriving DecidableEq, Repr

/-- What the code keeps of a call until it is answered: the counters the call was made under, and
what is done with the answer. -/
structure ReaderThread (ν : Type) where
  wanted : Reader.Wanted
  epoch : Nat
  sequence : Nat
  request : Request
  resume : Answer ν request → ReaderTask ν Unit

/-- The requests are told by their places, which they keep when they have been answered. -/
structure ReaderWorld (ν : Type) where
  reader : Reader ν
  threads : List (Option (ReaderThread ν))

inductive ReaderAct (ν : Type) where
  | reload
  | pause
  | back
  | select (reference : Reference)
  | answer (index : Nat) (request : Request) (answer : Answer ν request)

namespace ReaderWorld

def opened : ReaderWorld ν := ⟨⟨.initial, 0, 0, []⟩, []⟩

variable (serviceOrigin : List Nat) (w : ReaderWorld ν)

abbrev Ended (ν : Type) := Async.Turn (Reader ν) Fault Empty (Answer ν) Unit

/-- What is left to be answered. -/
def waiting (wanted : Reader.Wanted) (epoch sequence : Nat) (ended : Ended ν) :
    Option (ReaderThread ν) :=
  match ended.rest with
  | .waits request resume => some ⟨wanted, epoch, sequence, request, resume⟩
  | _ => none

def call (wanted : Reader.Wanted) (task : ReaderTask ν Unit) : ReaderWorld ν :=
  let ended : Ended ν := task.turn w.reader
  { reader := ended.state
    threads := w.threads ++
      [waiting wanted ended.state.epoch ended.state.detailSequence ended] }

def step : ReaderAct ν → Option (ReaderWorld ν)
  | .reload => some (w.call .list (Reading.reload N serviceOrigin))
  | .pause => some { w with reader := w.reader.pause }
  | .back => some { w with reader := w.reader.back }
  | .select reference =>
    some (w.call (.detail reference) (Reading.select N serviceOrigin reference))
  | .answer index request answer =>
    match w.threads[index]? with
    | some (some t) =>
      if same : request = t.request then
        let ended : Ended ν := (t.resume (same ▸ answer)).turn w.reader
        some { reader := ended.state
               threads := w.threads.set index (waiting t.wanted t.epoch t.sequence ended) }
      else none
    | _ => none

end ReaderWorld

end LedgerDesk.Reading
