import LedgerDesk.Foundation.OpenTable
import LedgerDesk.Foundation.Runs
import LedgerDesk.Agents.Canonical

/-!
# The knowledge gap

A gap is opened by `kb_gap_open` and closed by `kb_gap_close_by_verification`, and the
application reaches the table through nothing else. Each call is a transaction at READ
COMMITTED: every statement of it sees what is committed when the statement begins, and its own.
-/
namespace LedgerDesk.Kb

open Foundation LedgerDesk.Agents

inductive KbGapState where
  | OPEN
  | NOT_DOCUMENTABLE
  | CLOSED
  deriving DecidableEq, Repr

/-- Days count from the epoch in UTC, instants in microseconds. -/
structure KbGap where
  id : String
  org_id : String
  ticket_id : String
  query_terms : String
  kb_snapshot : String
  zero_match : Bool
  query_sha256 : String
  question_sha256 : String
  divergent_kb_ids : Option (List String)
  owner_id : String
  committed_date : Nat
  null_rule : String
  state : KbGapState
  closed_by_check_at : Option Nat
  opened_ledger_ref : Option Nat
  closing_ledger_ref : Option Nat
  not_documentable_reason : Option String
  created_at : Nat
  deriving DecidableEq, Repr

/-! ### The tables a gap is held against -/

/-- A row known by its organisation: a ticket, a user. -/
structure OrgRow where
  id : String
  org_id : String
  deriving DecidableEq, Repr

structure KbArticle where
  id : String
  org_id : String
  kb_snapshot : String
  canonical_key : String
  deriving DecidableEq, Repr

structure SnapshotHead where
  org_id : String
  kb_snapshot : String
  deriving DecidableEq, Repr

structure Response where
  id : String
  ticket_id : String
  kb_snapshot : Option String
  grounded : Option Bool
  validate_ledger_ref : Option Nat
  deriving DecidableEq, Repr

structure ResponseCitation where
  response_id : String
  kb_article_id : String
  kb_snapshot : String
  deriving DecidableEq, Repr

structure KbAdmission where
  org_id : String
  gap_id : String
  article_id : Option String
  snapshot_to : String
  deriving DecidableEq, Repr

structure KbTables where
  orgs : List String
  users : List OrgRow
  ledger_refs : List Nat
  heads : List SnapshotHead
  tickets : List OrgRow
  articles : List KbArticle
  admissions : List KbAdmission
  responses : List Response
  citations : List ResponseCitation
  deriving DecidableEq, Repr

namespace KbTables

variable (t : KbTables)

def ticket (id : String) : Option OrgRow := t.tickets.find? fun row => row.id == id

def response (id : String) : Option Response := t.responses.find? fun row => row.id == id

def head (org_id : String) : Option String :=
  (t.heads.find? fun row => row.org_id == org_id).map SnapshotHead.kb_snapshot

/-- The application adds tickets, articles, admissions, responses and citations, and changes
none of what it added; the rest moves as it likes. -/
def grows (u : KbTables) : Bool :=
  decide (t.tickets <+: u.tickets) && decide (t.articles <+: u.articles) &&
    decide (t.admissions <+: u.admissions) && decide (t.responses <+: u.responses) &&
    decide (t.citations <+: u.citations)

/-- The foreign keys of a gap. -/
def references (gap : KbGap) : Bool :=
  t.orgs.contains gap.org_id && (t.ticket gap.ticket_id).isSome &&
    t.users.contains ⟨gap.owner_id, gap.org_id⟩ && gap.opened_ledger_ref.all t.ledger_refs.contains

/-- The response cites, under the snapshot, an article whose key was admitted against the gap. -/
def cited (org_id snapshot gap response : String) : Bool :=
  t.admissions.any fun m =>
    m.gap_id == gap && m.org_id == org_id &&
      t.articles.any fun admitted =>
        m.article_id == some admitted.id && admitted.kb_snapshot == m.snapshot_to &&
          t.articles.any fun standing =>
            standing.canonical_key == admitted.canonical_key && standing.org_id == org_id &&
              standing.kb_snapshot == snapshot &&
              t.citations.any fun c =>
                c.kb_article_id == standing.id && c.kb_snapshot == standing.kb_snapshot &&
                  c.response_id == response

end KbTables

/-! ### What the functions refuse -/

inductive KbError where
  | E_KB_GAP_FOREIGN_ORG
  | E_KB_GAP_EVIDENCE_MISSING
  | E_KB_GAP_OWNER_MISSING
  | E_KB_GAP_DATE_MISSING
  | E_KB_GAP_NULL_RULE_MISSING
  | E_KB_GAP_NOT_WRITTEN
  | E_KB_CLOSURE_GAP_NOT_VISIBLE
  | E_KB_CLOSURE_GAP_NOT_OPEN
  | E_KB_CLOSURE_RESPONSE_MISSING
  | E_KB_CLOSURE_FOREIGN_ORG
  | E_KB_CLOSURE_NOT_GROUNDED
  | E_KB_CLOSURE_WITNESS_MISSING
  | E_KB_CLOSURE_SNAPSHOT_NOT_CURRENT
  | E_KB_CLOSURE_ADMISSION_NOT_CITED
  /-- A constraint of the table. -/
  | violation
  deriving DecidableEq, Repr

structure GapOpenArgs where
  p_gap : String
  p_org : String
  p_ticket : String
  p_query_terms : Option String
  p_kb_snapshot : Option String
  p_zero_match : Option Bool
  p_query_sha256 : Option String
  p_question_sha256 : Option String
  p_owner : Option String
  p_committed_date : Option Nat
  p_null_rule : Option String
  p_divergent : Option (List String)
  p_ledger : Option Nat

/-- A call, the organisation its session claims, and when its transaction began. -/
inductive GapCall where
  | opening (session : Option String) (started : Nat) (args : GapOpenArgs)
  | closing (session : Option String) (started : Nat) (gap response : String)

section Checks

-- what `[:space:]` matches under the character classes of the database
variable (isSpace : Char → Bool)

/-- `is null or !~ '[^[:space:]]'`. -/
def blank (text : String) : Bool := text.toList.all isSpace

def present (text : Option String) (refusal : KbError) : Except KbError String :=
  match text with
  | none => .error refusal
  | some value => if blank isSpace value then .error refusal else .ok value

def digest (text : Option String) : Except KbError String :=
  match text with
  | none => .error .E_KB_GAP_EVIDENCE_MISSING
  | some value => if isHex64 value then .ok value else .error .E_KB_GAP_EVIDENCE_MISSING

def given {α : Type} (value : Option α) (refusal : KbError) : Except KbError α :=
  match value with
  | none => .error refusal
  | some a => .ok a

/-- The refusals of `kb_gap_open` in their order, and the row it would write. -/
def kbGapRecord (session : Option String) (started : Nat) (args : GapOpenArgs) :
    Except KbError KbGap := do
  if session ≠ some args.p_org then throw .E_KB_GAP_FOREIGN_ORG
  let query_terms ← present isSpace args.p_query_terms .E_KB_GAP_EVIDENCE_MISSING
  let kb_snapshot ← present isSpace args.p_kb_snapshot .E_KB_GAP_EVIDENCE_MISSING
  let zero_match ← given args.p_zero_match .E_KB_GAP_EVIDENCE_MISSING
  let query_sha256 ← digest args.p_query_sha256
  let question_sha256 ← digest args.p_question_sha256
  let owner_id ← given args.p_owner .E_KB_GAP_OWNER_MISSING
  let committed_date ← given args.p_committed_date .E_KB_GAP_DATE_MISSING
  let null_rule ← present isSpace args.p_null_rule .E_KB_GAP_NULL_RULE_MISSING
  return {
    id := args.p_gap, org_id := args.p_org, ticket_id := args.p_ticket, query_terms, kb_snapshot,
    zero_match, query_sha256, question_sha256, divergent_kb_ids := args.p_divergent, owner_id,
    committed_date, null_rule, state := .OPEN, closed_by_check_at := none,
    opened_ledger_ref := args.p_ledger, closing_ledger_ref := none,
    not_documentable_reason := none, created_at := started }

end Checks

/-! ### What the table holds -/

/-- Days of an instant, in UTC. -/
def utcDay (instant : Nat) : Nat := instant / 86400000000

/-- `kb_gap_pkey`, `kb_gap_one_record_per_query` and
`kb_gap_one_standing_record_per_question`. -/
def clashes (a b : KbGap) : Bool :=
  a.id == b.id ||
    (a.ticket_id == b.ticket_id &&
      (a.query_sha256 == b.query_sha256 ||
        (a.question_sha256 == b.question_sha256 && a.state != .CLOSED && b.state != .CLOSED)))

/-- The standing record of the question of `row`, among the rows a statement sees. -/
def standingRecord (rows : List KbGap) (row : KbGap) : Option String :=
  (rows.find? fun g => g.ticket_id == row.ticket_id && g.question_sha256 == row.question_sha256 &&
    g.state != .CLOSED).map KbGap.id

/-- The record of the query of `row`, in whatever state it is in. -/
def queryRecord (rows : List KbGap) (row : KbGap) : Option String :=
  (rows.find? fun g => g.ticket_id == row.ticket_id && g.query_sha256 == row.query_sha256).map
    KbGap.id

/-! ### Calls as transactions -/

/-- How far a call has come. -/
inductive GapPhase where
  | begun
  -- `kb_gap_open`, by the statements that found nothing
  | noStanding (row : KbGap)
  | noRecord (row : KbGap)
  | inserted (row : KbGap)
  | noneStands (row : KbGap)
  /-- The function has returned an id and its transaction is open. -/
  | returned (row : KbGap) (id : String)
  | committed (row : KbGap) (id : String)
  -- `kb_gap_close_by_verification`, by what has passed
  | sawGap (org_id : String)
  | sawResponse (org_id : String) (snapshot : Option String) (witness : Nat)
  | sawHead (org_id snapshot : String) (witness : Nat)
  | sawCitation (witness : Nat)
  | closed (witness : Nat)
  | raised (error : KbError)
  | rolledBack

structure KbState (ι : Type*) where
  gaps : OpenTable ι KbGap
  tables : KbTables
  phase : ι → GapPhase

inductive KbAct (ι : Type*) where
  | statement (call : ι)
  | commit (call : ι)
  | rollback (call : ι)
  /-- `kb_gap_mark_not_documentable`, which only the owner of the database may call. -/
  | mark (gap reason : String)
  /-- Other transactions of the application commit. -/
  | elsewhere (tables : KbTables)

namespace KbState

variable {ι : Type*} [DecidableEq ι]

def setPhase (s : KbState ι) (i : ι) (phase : GapPhase) : KbState ι :=
  { s with phase := Function.update s.phase i phase }

/-- An exception aborts the transaction. -/
def raise (s : KbState ι) (i : ι) (error : KbError) : KbState ι :=
  { s with gaps := s.gaps.rollback i }.setPhase i (.raised error)

@[simp] theorem setPhase_self (s : KbState ι) (i : ι) (p : GapPhase) :
    (s.setPhase i p).phase i = p :=
  Function.update_self _ _ _

theorem setPhase_of_ne (s : KbState ι) {i j : ι} (p : GapPhase) (other : j ≠ i) :
    (s.setPhase i p).phase j = s.phase j :=
  Function.update_of_ne other _ _

end KbState

/-- An id that was found is returned. -/
def returnedOr (row : KbGap) (found : Option String) (next : GapPhase) : GapPhase :=
  match found with
  | some id => .returned row id
  | none => next

/-- The row a verified closure leaves. -/
def closeRow (gap : String) (now : Nat) (witness : Nat) (g : KbGap) : KbGap :=
  if g.id = gap then
    { g with state := .CLOSED, closed_by_check_at := some now, closing_ledger_ref := some witness }
  else g

def markRow (gap reason : String) (g : KbGap) : KbGap :=
  if g.id = gap ∧ g.state = .OPEN then
    { g with state := .NOT_DOCUMENTABLE, not_documentable_reason := some reason }
  else g

section Machine

variable (isSpace : Char → Bool) {ι : Type*} [DecidableEq ι] (calls : ι → GapCall)

/-- The insert of `kb_gap_open`. Checks come before the unique indexes, and foreign keys after. -/
def insertStatement (s : KbState ι) (i : ι) (row : KbGap) : Option (KbState ι) :=
  if row.committed_date < utcDay row.created_at then some (s.raise i .violation)
  else
    match s.gaps.verdict clashes i row with
    | .waits => none
    | .conflict => some (s.setPhase i (.inserted row))
    | .inserted =>
      if s.tables.references row then
        some ({ s with gaps := s.gaps.insert i row }.setPhase i (.inserted row))
      else some (s.raise i .violation)

/-- The next statement of `kb_gap_open`. -/
def openStatement (s : KbState ι) (i : ι) (session : Option String) (started : Nat)
    (args : GapOpenArgs) : Option (KbState ι) :=
  match s.phase i with
  | .begun =>
    match kbGapRecord isSpace session started args with
    | .error error => some (s.raise i error)
    | .ok row =>
      some (s.setPhase i
        (returnedOr row (standingRecord (s.gaps.visible i) row) (.noStanding row)))
  | .noStanding row =>
    some (s.setPhase i (returnedOr row (queryRecord (s.gaps.visible i) row) (.noRecord row)))
  | .noRecord row => insertStatement s i row
  | .inserted row =>
    some (s.setPhase i
      (returnedOr row (standingRecord (s.gaps.visible i) row) (.noneStands row)))
  | .noneStands row =>
    match queryRecord (s.gaps.visible i) row with
    | some id => some (s.setPhase i (.returned row id))
    | none => some (s.raise i .E_KB_GAP_NOT_WRITTEN)
  | _ => none

/-- What `kb_gap_close_by_verification` reads of the response, or refuses it for. -/
def checkResponse (tables : KbTables) (org_id response : String) :
    Except KbError (Option String × Nat) :=
  match (tables.response response).bind fun r => (tables.ticket r.ticket_id).map (r, ·) with
  | none => .error .E_KB_CLOSURE_RESPONSE_MISSING
  | some (r, t) =>
    if t.org_id ≠ org_id then .error .E_KB_CLOSURE_FOREIGN_ORG
    else if r.grounded ≠ some true then .error .E_KB_CLOSURE_NOT_GROUNDED
    else
      match r.validate_ledger_ref with
      | none => .error .E_KB_CLOSURE_WITNESS_MISSING
      | some witness => .ok (r.kb_snapshot, witness)

/-- The next statement of `kb_gap_close_by_verification`. Nothing stands between the update and
the commit, and until then no other transaction sees it. -/
def closeStatement (s : KbState ι) (i : ι) (session : Option String) (started : Nat)
    (gap response : String) : Option (KbState ι) :=
  match s.phase i with
  | .begun =>
    match s.gaps.committed.find? fun g => g.id == gap && some g.org_id == session with
    | none => some (s.raise i .E_KB_CLOSURE_GAP_NOT_VISIBLE)
    | some g =>
      if g.state ≠ .OPEN then some (s.raise i .E_KB_CLOSURE_GAP_NOT_OPEN)
      else some (s.setPhase i (.sawGap g.org_id))
  | .sawGap org_id =>
    match checkResponse s.tables org_id response with
    | .error error => some (s.raise i error)
    | .ok (snapshot, witness) => some (s.setPhase i (.sawResponse org_id snapshot witness))
  | .sawResponse org_id snapshot witness =>
    match s.tables.head org_id, snapshot with
    | some head, some snapshot =>
      if snapshot ≠ head then some (s.raise i .E_KB_CLOSURE_SNAPSHOT_NOT_CURRENT)
      else some (s.setPhase i (.sawHead org_id snapshot witness))
    | _, _ => some (s.raise i .E_KB_CLOSURE_SNAPSHOT_NOT_CURRENT)
  | .sawHead org_id snapshot witness =>
    if s.tables.cited org_id snapshot gap response then
      some (s.setPhase i (.sawCitation witness))
    else some (s.raise i .E_KB_CLOSURE_ADMISSION_NOT_CITED)
  | .sawCitation witness =>
    -- a reason may stand beside no state but NOT_DOCUMENTABLE
    if s.gaps.committed.any fun g => g.id == gap && g.not_documentable_reason.isSome then
      some (s.raise i .violation)
    else
      some ({ s with gaps := s.gaps.update (closeRow gap started witness) }.setPhase i
        (.closed witness))
  | _ => none

def GapPhase.ended : GapPhase → Bool
  | .committed _ _ | .closed _ | .raised _ | .rolledBack => true
  | _ => false

/-- The function has not returned. -/
def GapPhase.running (p : GapPhase) : Bool :=
  match p with
  | .returned _ _ => false
  | _ => !p.ended

def kbStep (s : KbState ι) : KbAct ι → Option (KbState ι)
  | .statement i =>
    match calls i with
    | .opening session started args => openStatement isSpace s i session started args
    | .closing session started gap response => closeStatement s i session started gap response
  | .commit i =>
    match s.phase i with
    | .returned row id =>
      some ({ s with gaps := s.gaps.commit i }.setPhase i (.committed row id))
    | _ => none
  | .rollback i =>
    if (s.phase i).ended then none
    else some ({ s with gaps := s.gaps.rollback i }.setPhase i .rolledBack)
  | .mark gap reason =>
    if reason.toList.all (· == ' ') || 512 < reason.utf8ByteSize then none
    else some { s with gaps := s.gaps.update (markRow gap reason) }
  | .elsewhere tables => if s.tables.grows tables then some { s with tables } else none

def kbStart (tables : KbTables) : KbState ι where
  gaps := .start []
  tables := tables
  phase _ := .begun

end Machine

/-! ### What a step can do -/

section Steps

variable (isSpace : Char → Bool) {ι : Type*} [DecidableEq ι] (calls : ι → GapCall)

/-- A step of call `i`, with the phases it leads between and the table it leaves. -/
inductive CallMove (s : KbState ι) (i : ι) :
    KbAct ι → GapPhase → GapPhase → OpenTable ι KbGap → Prop
  | standing {session started args row id} (opens : calls i = .opening session started args)
      (record : kbGapRecord isSpace session started args = .ok row)
      (found : standingRecord (s.gaps.visible i) row = some id) :
      CallMove s i (.statement i) .begun (.returned row id) s.gaps
  | unasked {session started args row} (opens : calls i = .opening session started args)
      (record : kbGapRecord isSpace session started args = .ok row)
      (nothing : standingRecord (s.gaps.visible i) row = none) :
      CallMove s i (.statement i) .begun (.noStanding row) s.gaps
  | recorded {row id} (found : queryRecord (s.gaps.visible i) row = some id) :
      CallMove s i (.statement i) (.noStanding row) (.returned row id) s.gaps
  | missing {row} (nothing : queryRecord (s.gaps.visible i) row = none) :
      CallMove s i (.statement i) (.noStanding row) (.noRecord row) s.gaps
  | inserted {row} (free : s.gaps.verdict clashes i row = .inserted) :
      CallMove s i (.statement i) (.noRecord row) (.inserted row) (s.gaps.insert i row)
  | conflict {row} : CallMove s i (.statement i) (.noRecord row) (.inserted row) s.gaps
  | standingAfter {row id} (found : standingRecord (s.gaps.visible i) row = some id) :
      CallMove s i (.statement i) (.inserted row) (.returned row id) s.gaps
  | noneStands {row} : CallMove s i (.statement i) (.inserted row) (.noneStands row) s.gaps
  | recordedAfter {row id} (found : queryRecord (s.gaps.visible i) row = some id) :
      CallMove s i (.statement i) (.noneStands row) (.returned row id) s.gaps
  | raised {p error} (running : p.running = true) :
      CallMove s i (.statement i) p (.raised error) (s.gaps.rollback i)
  | committed {row id} :
      CallMove s i (.commit i) (.returned row id) (.committed row id) (s.gaps.commit i)
  | rolledBack {p} (going : p.ended = false) :
      CallMove s i (.rollback i) p .rolledBack (s.gaps.rollback i)
  | sawGap {session started gap response g} (closes : calls i = .closing session started gap response)
      (found : (s.gaps.committed.find? fun g => g.id == gap && some g.org_id == session) = some g)
      (is_open : g.state = .OPEN) :
      CallMove s i (.statement i) .begun (.sawGap g.org_id) s.gaps
  | sawResponse {session started gap response org_id snapshot witness}
      (closes : calls i = .closing session started gap response)
      (passed : checkResponse s.tables org_id response = .ok (snapshot, witness)) :
      CallMove s i (.statement i) (.sawGap org_id) (.sawResponse org_id snapshot witness) s.gaps
  | sawHead {org_id snapshot witness} (head : s.tables.head org_id = some snapshot) :
      CallMove s i (.statement i) (.sawResponse org_id (some snapshot) witness)
        (.sawHead org_id snapshot witness) s.gaps
  | sawCitation {session started gap response org_id snapshot witness}
      (closes : calls i = .closing session started gap response)
      (cites : s.tables.cited org_id snapshot gap response = true) :
      CallMove s i (.statement i) (.sawHead org_id snapshot witness) (.sawCitation witness) s.gaps
  | closed {session started gap response witness}
      (closes : calls i = .closing session started gap response) :
      CallMove s i (.statement i) (.sawCitation witness) (.closed witness)
        (s.gaps.update (closeRow gap started witness))

variable {isSpace calls}

/-- The step is one of call `i`, and no other call moves. -/
def CallMoves (isSpace : Char → Bool) (calls : ι → GapCall) (s : KbState ι) (i : ι) (act : KbAct ι)
    (t : KbState ι) : Prop :=
  ∃ p gaps, CallMove isSpace calls s i act (s.phase i) p gaps ∧ t.gaps = gaps ∧
    t.tables = s.tables ∧ t.phase = Function.update s.phase i p

theorem CallMove.moves {s t : KbState ι} {i : ι} {act : KbAct ι} {old p : GapPhase}
    {gaps : OpenTable ι KbGap} (move : CallMove isSpace calls s i act old p gaps)
    (phase : s.phase i = old) (left : t = ({ s with gaps }.setPhase i p)) :
    CallMoves isSpace calls s i act t := by
  subst left
  refine ⟨p, gaps, ?_, rfl, rfl, rfl⟩
  rw [phase]
  exact move

theorem raise_moves {s : KbState ι} {i : ι} {p : GapPhase} (phase : s.phase i = p)
    (running : p.running = true) (error : KbError) :
    CallMoves isSpace calls s i (.statement i) (s.raise i error) :=
  (CallMove.raised running).moves phase rfl

theorem insertStatement_moves {s t : KbState ι} {i : ι} {row : KbGap}
    (taken : insertStatement s i row = some t) (phase : s.phase i = .noRecord row) :
    CallMoves isSpace calls s i (.statement i) t := by
  simp only [insertStatement] at taken
  split at taken
  · cases taken
    exact raise_moves phase rfl _
  · split at taken
    · cases taken
    · cases taken
      exact CallMove.conflict.moves phase rfl
    · next free =>
      split at taken
      · cases taken
        exact (CallMove.inserted free).moves phase rfl
      · cases taken
        exact raise_moves phase rfl _

theorem openStatement_moves {s t : KbState ι} {i : ι} {session : Option String} {started : Nat}
    {args : GapOpenArgs} (opens : calls i = .opening session started args)
    (taken : openStatement isSpace s i session started args = some t) :
    CallMoves isSpace calls s i (.statement i) t := by
  simp only [openStatement] at taken
  split at taken
  · next phase =>
    split at taken
    · cases taken
      exact raise_moves phase rfl _
    · next row record =>
      cases taken
      cases found : standingRecord (s.gaps.visible i) row with
      | some id => exact (CallMove.standing opens record found).moves phase rfl
      | none => exact (CallMove.unasked opens record found).moves phase rfl
  · next row phase =>
    cases taken
    cases found : queryRecord (s.gaps.visible i) row with
    | some id => exact (CallMove.recorded found).moves phase rfl
    | none => exact (CallMove.missing found).moves phase rfl
  · next row phase => exact insertStatement_moves taken phase
  · next row phase =>
    cases taken
    cases found : standingRecord (s.gaps.visible i) row with
    | some id => exact (CallMove.standingAfter found).moves phase rfl
    | none => exact CallMove.noneStands.moves phase rfl
  · next row phase =>
    split at taken
    · next id found =>
      cases taken
      exact (CallMove.recordedAfter found).moves phase rfl
    · cases taken
      exact raise_moves phase rfl _
  · cases taken

theorem closeStatement_moves {s t : KbState ι} {i : ι} {session : Option String} {started : Nat}
    {gap response : String} (closes : calls i = .closing session started gap response)
    (taken : closeStatement s i session started gap response = some t) :
    CallMoves isSpace calls s i (.statement i) t := by
  simp only [closeStatement] at taken
  split at taken
  · next phase =>
    split at taken
    · cases taken
      exact raise_moves phase rfl _
    · next g found =>
      split at taken
      · cases taken
        exact raise_moves phase rfl _
      · next is_open =>
        cases taken
        exact (CallMove.sawGap closes found (not_not.mp is_open)).moves phase rfl
  · next org_id phase =>
    split at taken
    · cases taken
      exact raise_moves phase rfl _
    · next snapshot witness passed =>
      cases taken
      exact (CallMove.sawResponse closes passed).moves phase rfl
  · next org_id snapshot witness phase =>
    split at taken
    · next head snapshot standing =>
      split at taken
      · cases taken
        exact raise_moves phase rfl _
      · next same =>
        cases taken
        rw [← not_not.mp same] at standing
        exact (CallMove.sawHead standing).moves phase rfl
    · cases taken
      exact raise_moves phase rfl _
  · next org_id snapshot witness phase =>
    split at taken
    · next cites =>
      cases taken
      exact (CallMove.sawCitation closes cites).moves phase rfl
    · cases taken
      exact raise_moves phase rfl _
  · next witness phase =>
    split at taken
    · cases taken
      exact raise_moves phase rfl _
    · cases taken
      exact (CallMove.closed closes).moves phase rfl
  · cases taken

theorem kbStep_cases {s t : KbState ι} {act : KbAct ι}
    (taken : kbStep isSpace calls s act = some t) :
    (∃ i, CallMoves isSpace calls s i act t) ∨
    (∃ gap reason, act = .mark gap reason ∧
      t = { s with gaps := s.gaps.update (markRow gap reason) }) ∨
    ∃ tables, act = .elsewhere tables ∧ s.tables.grows tables = true ∧ t = { s with tables } := by
  cases act with
  | statement i =>
    cases call : calls i with
    | opening session started args =>
      simp only [kbStep, call] at taken
      exact .inl ⟨i, openStatement_moves call taken⟩
    | closing session started gap response =>
      simp only [kbStep, call] at taken
      exact .inl ⟨i, closeStatement_moves call taken⟩
  | commit i =>
    simp only [kbStep] at taken
    split at taken
    · next row id phase =>
      cases taken
      exact .inl ⟨i, CallMove.committed.moves phase rfl⟩
    · cases taken
  | rollback i =>
    simp only [kbStep] at taken
    split at taken
    · cases taken
    · next going =>
      cases taken
      exact .inl ⟨i, (CallMove.rolledBack (Bool.eq_false_iff.mpr going)).moves rfl rfl⟩
  | mark gap reason =>
    simp only [kbStep] at taken
    split at taken
    · cases taken
    · cases taken
      exact .inr (.inl ⟨gap, reason, rfl, rfl⟩)
  | elsewhere tables =>
    simp only [kbStep] at taken
    split at taken
    · next grows =>
      cases taken
      exact .inr (.inr ⟨tables, rfl, grows, rfl⟩)
    · cases taken

end Steps

end LedgerDesk.Kb
