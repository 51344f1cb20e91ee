import LedgerDesk.Kb.Gap
import LedgerDesk.Ledger.PromotionRow
import LedgerDesk.Triage.Escalation

/-!
# Admission into the corpus

Two writes make an admission, in two transactions: the row of the chain, and the advance of the
corpus, which is told no more than the row's id and the material. The identity of an admission is
derived from its gap and its body, so an attempt that finds the row of another goes on with it.
-/
namespace LedgerDesk.Kb.Admission

open Foundation Agents Triage
open Ledger (isJsSpace)

structure AdmissionProvenance where
  source : String
  obtained_at : String
  citability : String
  deriving DecidableEq, Repr

structure AdmissionRequest where
  gap_id : String
  canonical_key : String
  title : String
  body : String
  citable : Bool
  provenance : AdmissionProvenance
  deriving DecidableEq, Repr

structure Claims where
  sub : String
  org_id : String
  deriving DecidableEq, Repr

/-- What is put on the chain. -/
structure AdmissionOutput where
  admission_id : String
  gap_id : String
  approved_by : String
  snapshot_from : String
  snapshot_to : String
  content_hash : String
  provenance_source : String
  provenance : AdmissionProvenance
  canonical_key : String
  citable : Bool
  body_bytes : Nat
  deriving DecidableEq, Repr

/-! ### The tables -/

/-- What an admission reads of a gap. -/
structure GapRow where
  id : String
  org_id : String
  ticket_id : String
  state : KbGapState
  deriving DecidableEq, Repr

structure Article where
  id : String
  org_id : String
  kb_snapshot : String
  canonical_key : String
  title : String
  body : String
  body_sha256 : String
  citable : Bool
  deriving DecidableEq, Repr

/-- A row of the chain of the class `kb_admission`. Nothing else writes that class. -/
structure LedgerRow where
  id : Nat
  org_id : String
  ticket_id : Option String
  output : AdmissionOutput
  deriving DecidableEq, Repr

/-- A row of `kb_admission`. -/
structure AdmissionRow where
  id : String
  org_id : String
  gap_id : String
  approved_by : String
  snapshot_from : String
  snapshot_to : String
  content_hash : String
  provenance : AdmissionProvenance
  ledger_ref : Nat
  article_id : String
  deriving DecidableEq, Repr

structure Corpus where
  gaps : List GapRow
  users : List OrgRow
  heads : List SnapshotHead
  articles : List Article
  ledger : List LedgerRow
  admissions : List AdmissionRow
  deriving DecidableEq, Repr

namespace Corpus

variable (corpus : Corpus)

def head (org_id : String) : Option String :=
  (corpus.heads.find? fun row => row.org_id = org_id).map SnapshotHead.kb_snapshot

def gap (org_id id : String) : Option GapRow :=
  corpus.gaps.find? fun gap => gap.id = id && gap.org_id = org_id

def row (id : Nat) : Option LedgerRow := corpus.ledger.find? fun row => row.id = id

def article (id : String) : Option Article := corpus.articles.find? fun article => article.id = id

/-- `STANDING_ROW`, of a session that sees the rows of its organisation. -/
def standingRow (org_id admission_id : String) : Option LedgerRow :=
  corpus.ledger.find? fun row => row.org_id = org_id && row.output.admission_id = admission_id

end Corpus

/-! ### What is checked before anything is written -/

/-- `CANONICAL_KEY_SHAPE`, and the constraint it is transcribed from. -/
def canonicalKeyShape (key : String) : Bool :=
  let units := key.toList
  0 < units.length && units.length ≤ 64 &&
    units.all fun c => c.isAlphanum || c = '_' || c = '/' || c = '-'

/-- `kb_admission_snapshot_shape`. -/
def snapshotShape (label : String) : Bool :=
  let units := label.toList
  0 < units.length && units.length ≤ 64 &&
    units.all fun c => c.isAlphanum || c = ':' || c = '.' || c = '_' || c = '-'

def excerptMax : Nat := 2048

structure RedactionPass where
  text : String
  removed : Nat
  deriving DecidableEq, Repr

structure Setting where
  sha256Hex : String → String
  derivedUuid : String → String
  /-- The redactor, without literals. -/
  redact : String → RedactionPass
  /-- The matcher, of a title and a body. -/
  matchPolicyFlags : String → String → List PolicyFlag

inductive AdmissionError where
  | E_INTERNAL
  | E_RUNTIME_SNAPSHOT_STALE
  | E_CONTRACT_VIOLATION (problems : List String)
  | E_TICKET_NOT_VISIBLE
  | E_FIELD_INVALID
  /-- The chain refuses the row. -/
  | appendRefused
  | E_KB_ADVANCE_LEDGER_ROW_MISSING
  | E_KB_ADVANCE_FOREIGN_ORG
  | E_KB_ADVANCE_CALLER_NOT_APPROVER
  | E_KB_SNAPSHOT_NOT_ADVANCING
  | E_KB_SNAPSHOT_ALREADY_EXISTS
  | E_KB_SNAPSHOT_MOVED
  | E_KB_ADMISSION_GAP_MISSING
  | E_KB_ADMISSION_TICKET_MISMATCH
  | E_KB_ADMISSION_EXCEEDS_EXCERPT
  | E_KB_ADMISSION_HASH_MISMATCH
  /-- A constraint of a table. -/
  | violation
  deriving DecidableEq, Repr

section Checks

variable (setting : Setting)

def admissibilityViolations (request : AdmissionRequest) : List String :=
  let pass := setting.redact request.body
  (if canonicalKeyShape request.canonical_key then [] else
    [s!"the canonical key '{request.canonical_key}' is outside the published alphabet, and an " ++
      "identifier built from it is one the envelope validator refuses"]) ++
  (if request.title.toList.all isJsSpace || request.body.toList.all isJsSpace then
    ["a document with no title or no body is not a document"] else []) ++
  (if excerptMax < (codeUnits request.body).length then
    [s!"the body is {(codeUnits request.body).length} characters and an excerpt carries " ++
      s!"{excerptMax}; a document that does not travel whole would be cited with its ending missing"]
    else []) ++
  (if pass.text ≠ request.body then
    [s!"the redactor removes {pass.removed} value(s) from this body, so every citation of it " ++
      "would quote a marker where a fact used to be"] else []) ++
  (if .injection ∈ setting.matchPolicyFlags request.title request.body then
    ["the deterministic matcher reads this body as an attempt to instruct a model"] else [])

/-- The label the corpus moves to: the date, or the date with a number. -/
def nextSnapshotLabel (corpus : Corpus) (org_id base : String) : Option String :=
  let used := (corpus.articles.filter fun article =>
    article.org_id = org_id && base.toList.isPrefixOf article.kb_snapshot.toList).map
      Article.kb_snapshot
  if base ∉ used then some base
  else ((List.range 98).map fun n => s!"{base}.{n + 2}").find? fun candidate => candidate ∉ used

def admissionOutput (claims : Claims) (request : AdmissionRequest) (gap : GapRow)
    (head snapshotTo : String) : AdmissionOutput :=
  let contentHash := setting.sha256Hex request.body
  { admission_id := setting.derivedUuid s!"ledgerdesk:admission:{gap.id}:{contentHash}"
    gap_id := gap.id
    approved_by := claims.sub
    snapshot_from := head
    snapshot_to := snapshotTo
    content_hash := contentHash
    provenance_source := request.provenance.source
    provenance := request.provenance
    canonical_key := request.canonical_key
    citable := request.citable
    body_bytes := request.body.utf8ByteSize }

/-! ### `kb_snapshot_advance` -/

/-- Up to the lock of the pointer. -/
def advanceChecks (corpus : Corpus) (claims : Claims) (p_ledger : Nat) :
    Except AdmissionError LedgerRow :=
  match corpus.row p_ledger with
  | none => .error .E_KB_ADVANCE_LEDGER_ROW_MISSING
  | some row =>
    if row.org_id ≠ claims.org_id then .error .E_KB_ADVANCE_FOREIGN_ORG
    else if row.output.approved_by ≠ claims.sub then .error .E_KB_ADVANCE_CALLER_NOT_APPROVER
    else if row.output.snapshot_from = row.output.snapshot_to then
      .error .E_KB_SNAPSHOT_NOT_ADVANCING
    else if corpus.articles.any fun article =>
        article.org_id = row.org_id && article.kb_snapshot = row.output.snapshot_to then
      .error .E_KB_SNAPSHOT_ALREADY_EXISTS
    else .ok row

/-- Behind the lock. The material is the caller's, and the row says only what its digest is. -/
def lockedChecks (corpus : Corpus) (row : LedgerRow) (item : AdmissionRequest) :
    Except AdmissionError Unit :=
  if corpus.head row.org_id ≠ some row.output.snapshot_from then .error .E_KB_SNAPSHOT_MOVED
  else
    match corpus.gap row.org_id row.output.gap_id with
    | none => .error .E_KB_ADMISSION_GAP_MISSING
    | some gap =>
      if row.ticket_id ≠ some gap.ticket_id then .error .E_KB_ADMISSION_TICKET_MISMATCH
      else if excerptMax < item.body.toList.length then .error .E_KB_ADMISSION_EXCEEDS_EXCERPT
      else if row.output.content_hash ≠ setting.sha256Hex item.body then
        .error .E_KB_ADMISSION_HASH_MISMATCH
      else if !canonicalKeyShape item.canonical_key || !snapshotShape row.output.snapshot_from ||
          !snapshotShape row.output.snapshot_to ||
          (corpus.admissions.any fun other => other.id = row.output.admission_id) ||
          ⟨row.output.approved_by, row.org_id⟩ ∉ corpus.users then
        .error .violation
      else .ok ()

/-- The article that is admitted. -/
def mintedArticle (row : LedgerRow) (item : AdmissionRequest) (minted : String) : Article where
  id := minted
  org_id := row.org_id
  kb_snapshot := row.output.snapshot_to
  canonical_key := item.canonical_key
  title := item.title
  body := item.body
  body_sha256 := setting.sha256Hex item.body
  citable := item.citable

def admissionRow (row : LedgerRow) (item : AdmissionRequest) (minted : String) : AdmissionRow where
  id := row.output.admission_id
  org_id := row.org_id
  gap_id := row.output.gap_id
  approved_by := row.output.approved_by
  snapshot_from := row.output.snapshot_from
  snapshot_to := row.output.snapshot_to
  content_hash := setting.sha256Hex item.body
  provenance := row.output.provenance
  ledger_ref := row.id
  article_id := minted

/-- A snapshot is copied whole, under ids of its own. -/
def copiedArticles (corpus : Corpus) (row : LedgerRow) (copies : List String) : List Article :=
  ((corpus.articles.filter fun article =>
    article.org_id = row.org_id && article.kb_snapshot = row.output.snapshot_from).zip copies).map
      fun (article, id) => { article with id, kb_snapshot := row.output.snapshot_to }

def advanced (corpus : Corpus) (row : LedgerRow) (item : AdmissionRequest) (minted : String)
    (copies : List String) : Corpus :=
  { corpus with
    articles := corpus.articles ++ copiedArticles corpus row copies ++
      [mintedArticle setting row item minted]
    admissions := corpus.admissions ++ [admissionRow setting row item minted]
    heads := ⟨row.org_id, row.output.snapshot_to⟩ ::
      corpus.heads.filter fun head => head.org_id ≠ row.org_id }

end Checks

/-! ### Calls -/

/-- How far a call of `admitMaterial` has come. -/
inductive AdmitPhase where
  | idle
  | admissible (head : String)
  | visible (head : String) (gap : GapRow)
  | labelled (gap : GapRow) (output : AdmissionOutput)
  /-- No row stands under the identity. -/
  | unrecorded (gap : GapRow) (output : AdmissionOutput)
  /-- The chain has refused the row, which may be because one stands by now. -/
  | refusedRow (output : AdmissionOutput)
  /-- The row the admission hangs off. -/
  | standing (id : Nat) (resumed : Bool)
  | locking (row : LedgerRow) (resumed : Bool)
  | admitted (ledger_ref : Nat) (article_id : String) (resumed : Bool)
  | refused (error : AdmissionError)
  | crashed
  deriving DecidableEq, Repr

def AdmitPhase.live : AdmitPhase → Bool
  | .idle | .admitted _ _ _ | .refused _ | .crashed => false
  | _ => true

structure State (ι : Type*) where
  corpus : Corpus
  phase : ι → AdmitPhase

inductive Act (ι : Type*) where
  /-- The head is read and held against the runtime's, and the document looked at. -/
  | start (i : ι) (runtime_snapshot : String)
  | readGap (i : ι)
  | label (i : ι) (day : String)
  | readStanding (i : ι)
  | append (i : ι) (id : Nat)
  /-- The append fails for a reason of the store's. -/
  | failAppend (i : ι)
  | readAgain (i : ι)
  | advance (i : ι)
  | commit (i : ι) (minted : String) (copies : List String)
  | crash (i : ι)
  /-- Gaps, users and heads move as they like. Articles are added, and none is changed. -/
  | elsewhere (gaps : List GapRow) (users : List OrgRow) (heads : List SnapshotHead)
      (articles : List Article)

section Machine

variable (setting : Setting) {ι : Type*} [DecidableEq ι] (claims : ι → Claims)
  (requests : ι → AdmissionRequest)

def State.enter (s : State ι) (i : ι) (phase : AdmitPhase) : State ι :=
  { s with phase := Function.update s.phase i phase }

def startCall (corpus : Corpus) (claims : Claims) (request : AdmissionRequest)
    (runtime_snapshot : String) : AdmitPhase :=
  match corpus.head claims.org_id with
  | none => .refused .E_INTERNAL
  | some head =>
    if runtime_snapshot ≠ head then .refused .E_RUNTIME_SNAPSHOT_STALE
    else if admissibilityViolations setting request ≠ [] then
      .refused (.E_CONTRACT_VIOLATION (admissibilityViolations setting request))
    else .admissible head

def readGapOf (corpus : Corpus) (claims : Claims) (request : AdmissionRequest) (head : String) :
    AdmitPhase :=
  match corpus.gap claims.org_id request.gap_id with
  | none => .refused .E_TICKET_NOT_VISIBLE
  | some gap => if gap.state ≠ .OPEN then .refused .E_FIELD_INVALID else .visible head gap

/-- A snapshot that exists under a fresh id, or none at all. -/
def Corpus.fresh (corpus : Corpus) (ids : List String) : Bool :=
  decide ids.Nodup && ids.all fun id => (corpus.article id).isNone

def commitStep (s : State ι) (i : ι) (minted : String) (copies : List String) :
    AdmitPhase → Option (State ι)
  | .locking row resumed =>
    match lockedChecks setting s.corpus row (requests i) with
    | .error error => some (s.enter i (.refused error))
    | .ok () =>
      if s.corpus.fresh (minted :: copies) then
        some ({ s with corpus := advanced setting s.corpus row (requests i) minted copies }.enter i
          (.admitted row.id minted resumed))
      else none
  | _ => none

def appendStep (s : State ι) (i : ι) (id : Nat) : AdmitPhase → Option (State ι)
  | .unrecorded gap output =>
    -- `ledger_admission_unique_per_admission`
    if s.corpus.ledger.any fun row => row.output.admission_id = output.admission_id then
      some (s.enter i (.refusedRow output))
    else if (s.corpus.row id).isNone then
      let row : LedgerRow := ⟨id, (claims i).org_id, some gap.ticket_id, output⟩
      some ({ s with corpus := { s.corpus with ledger := s.corpus.ledger ++ [row] } }.enter i
        (.standing id false))
    else none
  | _ => none

def admitStep (s : State ι) : Act ι → Option (State ι)
  | .start i runtime_snapshot =>
    match s.phase i with
    | .idle => some (s.enter i (startCall setting s.corpus (claims i) (requests i) runtime_snapshot))
    | _ => none
  | .readGap i =>
    match s.phase i with
    | .admissible head => some (s.enter i (readGapOf s.corpus (claims i) (requests i) head))
    | _ => none
  | .label i day =>
    match s.phase i with
    | .visible head gap =>
      match nextSnapshotLabel s.corpus (claims i).org_id s!"kb-{day}" with
      | none => some (s.enter i (.refused .E_INTERNAL))
      | some snapshotTo =>
        some (s.enter i
          (.labelled gap (admissionOutput setting (claims i) (requests i) gap head snapshotTo)))
    | _ => none
  | .readStanding i =>
    match s.phase i with
    | .labelled gap output =>
      match s.corpus.standingRow (claims i).org_id output.admission_id with
      | some row => some (s.enter i (.standing row.id true))
      | none => some (s.enter i (.unrecorded gap output))
    | _ => none
  | .append i id => appendStep claims s i id (s.phase i)
  | .failAppend i =>
    match s.phase i with
    | .unrecorded _ output => some (s.enter i (.refusedRow output))
    | _ => none
  | .readAgain i =>
    match s.phase i with
    | .refusedRow output =>
      match s.corpus.standingRow (claims i).org_id output.admission_id with
      | some row => some (s.enter i (.standing row.id true))
      | none => some (s.enter i (.refused .appendRefused))
    | _ => none
  | .advance i =>
    match s.phase i with
    | .standing id resumed =>
      match advanceChecks s.corpus (claims i) id with
      | .error error => some (s.enter i (.refused error))
      | .ok row => some (s.enter i (.locking row resumed))
    | _ => none
  | .commit i minted copies => commitStep setting requests s i minted copies (s.phase i)
  | .crash i => if (s.phase i).live then some (s.enter i .crashed) else none
  | .elsewhere gaps users heads articles =>
    if s.corpus.fresh (articles.map Article.id) then
      some { s with
        corpus := { s.corpus with gaps, users, heads, articles := s.corpus.articles ++ articles } }
    else none

/-- Nothing has been admitted, and no call begun. -/
def begin (corpus : Corpus) : State ι :=
  ⟨{ corpus with ledger := [], admissions := [] }, fun _ => .idle⟩

end Machine

end LedgerDesk.Kb.Admission
