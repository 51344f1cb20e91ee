import LedgerDesk.Agents.Canonical
import LedgerDesk.Foundation.OpenTable
import LedgerDesk.Foundation.Runs
import LedgerDesk.Ledger.PromotionRow
import LedgerDesk.Queue.Dedupe
import LedgerDesk.Tickets.States

/-!
# Intake

A customer's submission is validated, and `createTicket` files it or recognises that it has
been filed. Each call of it is a transaction at READ COMMITTED, one statement a step, which
holds an advisory lock of its organisation and digest from the lock to its end. Other
transactions move tickets along the machine meanwhile.
-/
namespace LedgerDesk.Tickets

open Foundation LedgerDesk.Agents LedgerDesk.Queue
open LedgerDesk.Ledger (isJsSpace)

structure Claims where
  org_id : String
  role : UserRole
  sub : String
  deriving DecidableEq, Repr

structure Account where
  id : String
  org_id : String
  deriving DecidableEq, Repr

/-- A row no intake wrote may have neither digest nor key. Instants are in milliseconds, as the
driver hands them on. -/
structure Ticket where
  id : String
  org_id : String
  account_id : String
  customer_id : String
  subject : String
  body_raw : String
  created_at : Int
  status : TicketState
  body_sha256 : Option String
  dedupe_key : Option String
  deriving DecidableEq, Repr

/-! ### Refusals -/

inductive IntakeError where
  | required (field : String)
  | tooLong (field : String) (max : Nat)
  | noAccountForOrg (org_id : String)
  | accountAmbiguous (org_id : String) (accounts : Nat)
  /-- An index of the table refused the row, and nothing translated it. -/
  | uniqueViolation (index : String)
  deriving DecidableEq, Repr

namespace IntakeError

def code : IntakeError → String
  | required _ | tooLong _ _ => "E_FIELD_INVALID"
  | noAccountForOrg _ => "E_NO_ACCOUNT_FOR_ORG"
  | accountAmbiguous _ _ => "E_ACCOUNT_AMBIGUOUS"
  | uniqueViolation _ => "23505"

def status : IntakeError → Nat
  | required _ | tooLong _ _ => 400
  | noAccountForOrg _ | accountAmbiguous _ _ => 409
  | uniqueViolation _ => 500

def message : IntakeError → String
  | required field => field ++ " is required"
  | tooLong field max => field ++ " exceeds " ++ toString max ++ " characters"
  | noAccountForOrg _ =>
    "the organisation of this session has no account row, so a ticket cannot be filed"
  | accountAmbiguous _ accounts =>
    "the organisation of this session has " ++ toString accounts ++
      " accounts and nothing says which one a ticket belongs to"
  | uniqueViolation index =>
    "duplicate key value violates unique constraint \"" ++ index ++ "\""

end IntakeError

/-! ### The draft -/

def subjectMax : Nat := 200

def bodyMax : Nat := 8000

def trim (text : String) : String :=
  String.ofList ((text.toList.dropWhile isJsSpace).rdropWhile isJsSpace)

theorem trim_trim (text : String) : trim (trim text) = trim text := by
  simp only [trim, String.toList_ofList]
  congr 1
  generalize front : text.toList.dropWhile isJsSpace = rest
  have idempotent : rest.dropWhile isJsSpace = rest := by
    rw [← front, List.dropWhile_idempotent]
  have kept : (rest.rdropWhile isJsSpace).dropWhile isJsSpace = rest.rdropWhile isJsSpace := by
    rw [List.dropWhile_eq_self_iff] at idempotent ⊢
    intro nonempty
    have cut : rest.rdropWhile isJsSpace <+: rest := List.rdropWhile_prefix isJsSpace rest
    have whole : 0 < rest.length := lt_of_lt_of_le nonempty cut.length_le
    rw [cut.getElem]
    exact idempotent whole
  rw [kept, List.rdropWhile_idempotent]

/-- What `validateDraft` lets through. -/
structure Draft where
  subject : String
  body : String
  subject_trimmed : trim subject = subject
  body_trimmed : trim body = body
  subject_present : subject ≠ ""
  body_present : body ≠ ""
  subject_fits : (codeUnits subject).length ≤ subjectMax
  body_fits : (codeUnits body).length ≤ bodyMax

/-- A field that is not a string is as good as an empty one. -/
def validateDraft (subject body : Option String) : Except IntakeError Draft :=
  let subject' := trim (subject.getD "")
  let body' := trim (body.getD "")
  if subject_missing : subject' = "" then .error (.required "subject")
  else if subject_long : subjectMax < (codeUnits subject').length then
    .error (.tooLong "subject" subjectMax)
  else if body_missing : body' = "" then .error (.required "body")
  else if body_long : bodyMax < (codeUnits body').length then .error (.tooLong "body" bodyMax)
  else
    .ok {
      subject := subject', body := body'
      subject_trimmed := trim_trim _, body_trimmed := trim_trim _
      subject_present := subject_missing, body_present := body_missing
      subject_fits := not_lt.mp subject_long, body_fits := not_lt.mp body_long }

/-! ### What a session sees -/

/-- `tenant_isolation` and `customer_own_rows`. -/
def selects (claims : Claims) (ticket : Ticket) : Bool :=
  ticket.org_id == claims.org_id &&
    (claims.role != .customer || ticket.customer_id == claims.sub)

def later (a b : Ticket) : Bool :=
  decide (b.created_at < a.created_at) || (a.created_at == b.created_at && decide (b.id < a.id))

/-- `order by created_at desc, id desc limit 1`. -/
def newest : List Ticket → Option Ticket
  | [] => none
  | ticket :: rest =>
    match newest rest with
    | none => some ticket
    | some best => some (if later ticket best then ticket else best)

def live (claims : Claims) (bodySha256 : String) (ticket : Ticket) : Bool :=
  selects claims ticket && ticket.body_sha256 == some bodySha256 && !ticket.status.closed

def incumbent (claims : Claims) (bodySha256 : String) (rows : List Ticket) : Option Ticket :=
  newest (rows.filter (live claims bodySha256))

def incumbentOf (row : Ticket) : DedupeIncumbent := ⟨row.id, row.created_at, true⟩

structure TicketAcknowledgement where
  tracking_id : String
  status : TicketState
  subject : String
  created_at : Int
  acknowledgement : String
  deriving DecidableEq, Repr

structure IntakeOutcome where
  acknowledgement : TicketAcknowledgement
  collapsed : Bool
  deriving DecidableEq, Repr

def acknowledge (ticket : Ticket) (collapsed : Bool) : IntakeOutcome where
  acknowledgement := {
    tracking_id := ticket.id
    status := ticket.status
    subject := ticket.subject
    created_at := ticket.created_at
    acknowledgement := "Ticket received. Your tracking number is " ++ ticket.id ++ "." }
  collapsed := collapsed

/-! ### What the table holds apart -/

def ticketPkey (a b : Ticket) : Bool := a.id == b.id

/-- `ticket_org_id_dedupe_key_key`: absent keys are distinct. -/
def ticketDedupeKey (a b : Ticket) : Bool :=
  a.org_id == b.org_id && a.dedupe_key.isSome && a.dedupe_key == b.dedupe_key

/-! ### Calls as transactions -/

/-- A validated submission and the customer whose claims the session carries. -/
structure Intake where
  customer : String
  draft : Draft

inductive IntakePhase where
  | begun
  | counted (account_id : String)
  | locked (account_id : String)
  | sought (account_id : String) (held : Option Ticket)
  | timed (account_id : String) (held : Option Ticket) (createdMs : Int)
  /-- The row is inserted and the transaction is open. -/
  | filed (row : Ticket)
  /-- The submission is a duplicate of `held` and the transaction is open. -/
  | folded (held : Ticket) (createdMs : Int)
  /-- The collapse key was taken; the transaction is rolled back. -/
  | conflicted (createdMs : Int)
  | answered (outcome : IntakeOutcome) (createdMs : Int)
  | failed (error : IntakeError)
  | crashed
  deriving DecidableEq, Repr

def IntakePhase.ended : IntakePhase → Bool
  | .answered _ _ | .failed _ | .crashed => true
  | _ => false

/-- The clock is in microseconds. -/
structure IntakeState (ι : Type*) where
  tickets : OpenTable ι Ticket
  locks : List (ι × Int)
  clock : Nat
  phase : ι → IntakePhase

inductive IntakeAct (ι : Type*) where
  /-- The next statement of a call, where the database makes up an identifier. -/
  | statement (call : ι) (uuid : String)
  | commit (call : ι)
  /-- The process or its connection is gone, and the transaction with it. -/
  | crash (call : ι)
  | tick (clock : Nat)
  /-- A console or a component takes an edge of the machine. -/
  | move (ticket : String) (target : TicketState)

namespace IntakeState

variable {ι : Type*} [DecidableEq ι]

def setPhase (s : IntakeState ι) (i : ι) (phase : IntakePhase) : IntakeState ι :=
  { s with phase := Function.update s.phase i phase }

/-- The transaction is undone, and its locks are given back. -/
def rollback (s : IntakeState ι) (i : ι) : IntakeState ι :=
  { s with tickets := s.tickets.rollback i, locks := s.locks.filter fun l => l.1 ≠ i }

def commit (s : IntakeState ι) (i : ι) : IntakeState ι :=
  { s with tickets := s.tickets.commit i, locks := s.locks.filter fun l => l.1 ≠ i }

end IntakeState

def moveRow (ticket : String) (target : TicketState) (row : Ticket) : Ticket :=
  if row.id = ticket ∧ (findTransition row.status target).isSome then
    { row with status := target }
  else row

section Machine

-- `hashtextextended` under seed 2, and the two readings of the digest and the account table
variable (sha256Hex : String → String) (hashtextextended : String → Int)
variable (org : String) (accounts : List Account)
variable {ι : Type*} [DecidableEq ι] (calls : ι → Intake)

/-- The claims of a customer of the organisation. -/
def claimsOf (i : ι) : Claims := ⟨org, .customer, (calls i).customer⟩

def digestOf (i : ι) : String := sha256Hex (calls i).draft.body

def lockKey (i : ι) : Int := hashtextextended (org ++ ":" ++ digestOf sha256Hex calls i)

/-- The instant as the driver reads it, whole milliseconds. -/
def createdMs (clock : Nat) : Int := (clock / 1000 : Nat)

def decisionOf (i : ι) (held : Option Ticket) (createdMs : Int) : DedupeDecision :=
  dedupeDecision ⟨"pending", org, digestOf sha256Hex calls i, createdMs⟩ (held.map incumbentOf)
    defaultDedupeWindowMs

def ticketOf (i : ι) (uuid account_id : String) (createdMs : Int) (key : String) : Ticket where
  id := uuid
  org_id := org
  account_id := account_id
  customer_id := (calls i).customer
  subject := (calls i).draft.subject
  body_raw := (calls i).draft.body
  created_at := createdMs
  status := .NEW
  body_sha256 := some (digestOf sha256Hex calls i)
  dedupe_key := some key

def countAccounts (s : IntakeState ι) (i : ι) : IntakeState ι :=
  match accounts.filter fun a => a.org_id == org with
  | [] => (s.rollback i).setPhase i (.failed (.noAccountForOrg org))
  | [account] => s.setPhase i (.counted account.id)
  | found => (s.rollback i).setPhase i (.failed (.accountAmbiguous org found.length))

/-- The insert; the indexes are asked in the order the table declares them. -/
def insertTicket (s : IntakeState ι) (i : ι) (row : Ticket) : Option (IntakeState ι) :=
  match s.tickets.verdict ticketPkey i row with
  | .waits => none
  | .conflict =>
    some ((s.rollback i).setPhase i (.failed (.uniqueViolation "ticket_pkey")))
  | .inserted =>
    match s.tickets.verdict ticketDedupeKey i row with
    | .waits => none
    | .conflict => some ((s.rollback i).setPhase i (.conflicted row.created_at))
    | .inserted => some ({ s with tickets := s.tickets.insert i row }.setPhase i (.filed row))

/-- The next statement of `createTicket`. -/
def createTicket (s : IntakeState ι) (i : ι) (uuid : String) : Option (IntakeState ι) :=
  match s.phase i with
  | .begun => some (countAccounts org accounts s i)
  | .counted account_id =>
    let key := lockKey sha256Hex hashtextextended org calls i
    if s.locks.any fun l => l.1 ≠ i && l.2 == key then none
    else some ({ s with locks := (i, key) :: s.locks }.setPhase i (.locked account_id))
  | .locked account_id =>
    some (s.setPhase i (.sought account_id
      (incumbent (claimsOf org calls i) (digestOf sha256Hex calls i) (s.tickets.visible i))))
  | .sought account_id held => some (s.setPhase i (.timed account_id held (createdMs s.clock)))
  | .timed account_id held createdMs =>
    let decision := decisionOf sha256Hex org calls i held createdMs
    match decision.collapse, held with
    | true, some held => some (s.setPhase i (.folded held createdMs))
    | _, _ =>
      insertTicket s i (ticketOf sha256Hex org calls i uuid account_id createdMs decision.key)
  | .conflicted createdMs =>
    -- a session of its own, after the rollback
    match incumbent (claimsOf org calls i) (digestOf sha256Hex calls i) s.tickets.committed with
    | some held => some (s.setPhase i (.answered (acknowledge held true) createdMs))
    | none => some (s.setPhase i (.failed (.uniqueViolation "ticket_org_id_dedupe_key_key")))
  | _ => none

def intakeStep (s : IntakeState ι) : IntakeAct ι → Option (IntakeState ι)
  | .statement i uuid => createTicket sha256Hex hashtextextended org accounts calls s i uuid
  | .commit i =>
    match s.phase i with
    | .filed row =>
      some ((s.commit i).setPhase i (.answered (acknowledge row false) row.created_at))
    | .folded held createdMs =>
      some ((s.commit i).setPhase i (.answered (acknowledge held true) createdMs))
    | _ => none
  | .crash i => if (s.phase i).ended then none else some ((s.rollback i).setPhase i .crashed)
  | .tick clock => if s.clock ≤ clock then some { s with clock } else none
  | .move ticket target => some { s with tickets := s.tickets.update (moveRow ticket target) }

def intakeStart (rows : List Ticket) (clock : Nat) : IntakeState ι where
  tickets := .start rows
  locks := []
  clock := clock
  phase _ := .begun

end Machine

/-! ### What a step can do -/

section Steps

variable (sha256Hex : String → String) (hashtextextended : String → Int)
variable (org : String) (accounts : List Account)
variable {ι : Type*} [DecidableEq ι] (calls : ι → Intake)

/-- The incumbent the transaction found absorbs a submission of the instant. -/
def Duplicates (held : Ticket) (createdMs : Int) : Prop :=
  WithinWindow (incumbentOf held) createdMs defaultDedupeWindowMs

/-- The row a submission of the instant files. -/
def freshTicket (i : ι) (uuid account_id : String) (createdMs : Int) : Ticket :=
  ticketOf sha256Hex org calls i uuid account_id createdMs
    (dedupeKey org (digestOf sha256Hex calls i) createdMs)

def incumbentOn (i : ι) (rows : List Ticket) : Option Ticket :=
  incumbent (claimsOf org calls i) (digestOf sha256Hex calls i) rows

/-- A step of call `i`, with the phases it leads between and the rows and locks it leaves. -/
inductive IntakeMove (s : IntakeState ι) (i : ι) :
    IntakeAct ι → IntakePhase → IntakePhase → OpenTable ι Ticket → List (ι × Int) → Prop
  | counted {uuid account}
      (only : accounts.filter (fun a => a.org_id == org) = [account]) :
      IntakeMove s i (.statement i uuid) .begun (.counted account.id) s.tickets s.locks
  | refused {uuid error} (several : (accounts.filter fun a => a.org_id == org).length ≠ 1) :
      IntakeMove s i (.statement i uuid) .begun (.failed error) (s.rollback i).tickets
        (s.rollback i).locks
  | locked {uuid account_id}
      (free : ∀ l ∈ s.locks, l.2 = lockKey sha256Hex hashtextextended org calls i → l.1 = i) :
      IntakeMove s i (.statement i uuid) (.counted account_id) (.locked account_id) s.tickets
        ((i, lockKey sha256Hex hashtextextended org calls i) :: s.locks)
  | sought {uuid account_id} :
      IntakeMove s i (.statement i uuid) (.locked account_id)
        (.sought account_id (incumbentOn sha256Hex org calls i (s.tickets.visible i)))
        s.tickets s.locks
  | timed {uuid account_id held} :
      IntakeMove s i (.statement i uuid) (.sought account_id held)
        (.timed account_id held (createdMs s.clock)) s.tickets s.locks
  | folded {uuid account_id held createdMs} (absorbs : Duplicates held createdMs) :
      IntakeMove s i (.statement i uuid) (.timed account_id (some held) createdMs)
        (.folded held createdMs) s.tickets s.locks
  | filed {uuid account_id held createdMs}
      (fresh : ∀ h, held = some h → ¬ Duplicates h createdMs)
      (new_id : s.tickets.verdict ticketPkey i
        (freshTicket sha256Hex org calls i uuid account_id createdMs) = .inserted)
      (new_key : s.tickets.verdict ticketDedupeKey i
        (freshTicket sha256Hex org calls i uuid account_id createdMs) = .inserted) :
      IntakeMove s i (.statement i uuid) (.timed account_id held createdMs)
        (.filed (freshTicket sha256Hex org calls i uuid account_id createdMs))
        (s.tickets.insert i (freshTicket sha256Hex org calls i uuid account_id createdMs)) s.locks
  | idTaken {uuid account_id held createdMs}
      (taken : s.tickets.verdict ticketPkey i
        (freshTicket sha256Hex org calls i uuid account_id createdMs) = .conflict) :
      IntakeMove s i (.statement i uuid) (.timed account_id held createdMs)
        (.failed (.uniqueViolation "ticket_pkey")) (s.rollback i).tickets (s.rollback i).locks
  | keyTaken {uuid account_id held createdMs}
      (fresh : ∀ h, held = some h → ¬ Duplicates h createdMs)
      (taken : s.tickets.verdict ticketDedupeKey i
        (freshTicket sha256Hex org calls i uuid account_id createdMs) = .conflict) :
      IntakeMove s i (.statement i uuid) (.timed account_id held createdMs)
        (.conflicted createdMs) (s.rollback i).tickets (s.rollback i).locks
  | reread {uuid held createdMs}
      (found : incumbentOn sha256Hex org calls i s.tickets.committed = some held) :
      IntakeMove s i (.statement i uuid) (.conflicted createdMs)
        (.answered (acknowledge held true) createdMs) s.tickets s.locks
  | rethrown {uuid createdMs} :
      IntakeMove s i (.statement i uuid) (.conflicted createdMs)
        (.failed (.uniqueViolation "ticket_org_id_dedupe_key_key")) s.tickets s.locks
  | committed {row} :
      IntakeMove s i (.commit i) (.filed row)
        (.answered (acknowledge row false) row.created_at) (s.commit i).tickets (s.commit i).locks
  | released {held createdMs} :
      IntakeMove s i (.commit i) (.folded held createdMs)
        (.answered (acknowledge held true) createdMs) (s.commit i).tickets (s.commit i).locks
  | crashed {p} (going : p.ended = false) :
      IntakeMove s i (.crash i) p .crashed (s.rollback i).tickets (s.rollback i).locks

/-- The step is one of call `i`, and no other call moves. -/
def IntakeMoves (s : IntakeState ι) (i : ι) (act : IntakeAct ι) (t : IntakeState ι) : Prop :=
  ∃ p, IntakeMove sha256Hex hashtextextended org accounts calls s i act (s.phase i) p
      t.tickets t.locks ∧
    t.clock = s.clock ∧ t.phase = Function.update s.phase i p

/-- What a step that is no call's does. -/
inductive Elsewhere (s : IntakeState ι) : IntakeAct ι → IntakeState ι → Prop
  | tick {clock} (after : s.clock ≤ clock) : Elsewhere s (.tick clock) { s with clock }
  | move {ticket target} :
      Elsewhere s (.move ticket target)
        { s with tickets := s.tickets.update (moveRow ticket target) }

variable {sha256Hex hashtextextended org accounts calls}

omit [DecidableEq ι] in
theorem decisionOf_cases (sha256Hex : String → String) (org : String) (calls : ι → Intake) (i : ι)
    (held : Option Ticket) (instant : Int) :
    (∃ h, held = some h ∧ Duplicates h instant ∧
        (decisionOf sha256Hex org calls i held instant).collapse = true) ∨
      ((∀ h, held = some h → ¬ Duplicates h instant) ∧
        (decisionOf sha256Hex org calls i held instant).collapse = false ∧
        (decisionOf sha256Hex org calls i held instant).key =
          dedupeKey org (digestOf sha256Hex calls i) instant) := by
  rcases dedupeDecision_cases ⟨"pending", org, digestOf sha256Hex calls i, instant⟩
      (held.map incumbentOf) defaultDedupeWindowMs with ⟨h', found, absorbs⟩ | none_absorbs
  · obtain ⟨h, rfl, rfl⟩ := Option.map_eq_some_iff.mp found
    refine .inl ⟨h, rfl, absorbs, ?_⟩
    rw [decisionOf, Option.map_some, dedupeDecision_absorbed absorbs]
  · refine .inr ⟨fun h found => none_absorbs _ (by rw [found, Option.map_some]), ?_⟩
    rw [decisionOf, dedupeDecision_fresh none_absorbs]
    exact ⟨rfl, rfl⟩

theorem insertTicket_moves {s t : IntakeState ι} {i : ι} {uuid account_id : String}
    {held : Option Ticket} {createdMs : Int} (phase : s.phase i = .timed account_id held createdMs)
    (fresh : ∀ h, held = some h → ¬ Duplicates h createdMs)
    (taken : insertTicket s i (freshTicket sha256Hex org calls i uuid account_id createdMs) =
      some t) :
    IntakeMoves sha256Hex hashtextextended org accounts calls s i (.statement i uuid) t := by
  simp only [insertTicket] at taken
  split at taken
  · cases taken
  · next conflict =>
    cases taken
    exact ⟨_, phase ▸ .idTaken conflict, rfl, rfl⟩
  · next new_id =>
    split at taken
    · cases taken
    · next conflict =>
      cases taken
      exact ⟨_, phase ▸ .keyTaken fresh conflict, rfl, rfl⟩
    · next new_key =>
      cases taken
      exact ⟨_, phase ▸ .filed fresh new_id new_key, rfl, rfl⟩

theorem intakeStep_cases {s t : IntakeState ι} {act : IntakeAct ι}
    (taken : intakeStep sha256Hex hashtextextended org accounts calls s act = some t) :
    (∃ i, IntakeMoves sha256Hex hashtextextended org accounts calls s i act t) ∨
      Elsewhere s act t := by
  cases act with
  | statement i uuid =>
    refine .inl ⟨i, ?_⟩
    simp only [intakeStep, createTicket] at taken
    split at taken
    · next phase =>
      cases taken
      rw [countAccounts]
      split
      · next several => exact ⟨_, phase ▸ .refused (by simp [several]), rfl, rfl⟩
      · next only => exact ⟨_, phase ▸ .counted only, rfl, rfl⟩
      · next _ several =>
        refine ⟨_, phase ▸ .refused ?_, rfl, rfl⟩
        intro one
        obtain ⟨account, only⟩ := List.length_eq_one_iff.mp one
        exact several account only
    · next phase =>
      split at taken
      · cases taken
      · next free =>
        cases taken
        refine ⟨_, phase ▸ .locked fun l member same => ?_, rfl, rfl⟩
        by_contra other
        exact free (List.any_eq_true.mpr ⟨l, member, by simp [other, same]⟩)
    · next phase =>
      cases taken
      exact ⟨_, phase ▸ .sought, rfl, rfl⟩
    · next phase =>
      cases taken
      exact ⟨_, phase ▸ .timed, rfl, rfl⟩
    · next account_id held instant phase =>
      rcases decisionOf_cases sha256Hex org calls i held instant
        with ⟨h, rfl, absorbs, collapse⟩ | ⟨fresh, collapse, key⟩
      · simp only [collapse] at taken
        cases taken
        exact ⟨_, phase ▸ .folded absorbs, rfl, rfl⟩
      · rw [collapse, key] at taken
        exact insertTicket_moves phase fresh taken
    · next phase =>
      split at taken
      · next held found =>
        cases taken
        exact ⟨_, phase ▸ .reread found, rfl, rfl⟩
      · cases taken
        exact ⟨_, phase ▸ .rethrown, rfl, rfl⟩
    · cases taken
  | commit i =>
    refine .inl ⟨i, ?_⟩
    simp only [intakeStep] at taken
    split at taken
    · next phase =>
      cases taken
      exact ⟨_, phase ▸ .committed, rfl, rfl⟩
    · next phase =>
      cases taken
      exact ⟨_, phase ▸ .released, rfl, rfl⟩
    · cases taken
  | crash i =>
    refine .inl ⟨i, ?_⟩
    simp only [intakeStep] at taken
    split at taken
    · cases taken
    · next going =>
      cases taken
      exact ⟨_, .crashed (Bool.eq_false_iff.mpr going), rfl, rfl⟩
  | tick clock =>
    simp only [intakeStep] at taken
    split at taken
    · next after =>
      cases taken
      exact .inr (.tick after)
    · cases taken
  | move ticket target =>
    cases taken
    exact .inr .move

end Steps

end LedgerDesk.Tickets
