import LedgerDesk.Access.Lifecycle

/-!
# Where a session is accepted

Beside the routes that write there are readers of several services. Each looks the session up
for itself, in its own transaction over the one store, and writes nothing of it. What a reader
then reads of other tables, and makes of it, is left to a parameter.
-/
namespace LedgerDesk.Access

open Foundation

/-- What reads under a session: two routes of the access service, two of the invitations, the
authenticated reading, the intake's receptions, and the processing that still depends on the
session its reception came by. -/
inductive Reader where
  | current_session (session : Option String)
  | capabilities (session : Option String)
  | invitation_view (session flow : Option String)
  | operation_result (session flow : Option String)
  | reading (token : Option String)
  | reception (post : Bool) (csrf token : Option String)
  | processing (origin_session principal : String)
  deriving DecidableEq, Repr

inductive Entry where
  | access (input : Input)
  | reader (reader : Reader)
  deriving DecidableEq, Repr

/-! ### Lookups -/

section Lookups

variable (config : AccessConfig) (db : AccessStore) (now : Int)

/-- `session s JOIN account a ON a.id=s.account_id WHERE s.digest=$1`. -/
def sessionJoined (digest : String) : Option (SessionRow × AccountRow) :=
  (db.sessionWith digest).bind fun s => (db.accountWith s.account_id).map fun a => (s, a)

/-- `token ? digest(token) : ''`. -/
def tokenDigest (token : Option String) : String :=
  match token with
  | some token => if token == "" then "" else config.digest token
  | none => ""

def routeSession (session : Option String) : Option (SessionRow × AccountRow) :=
  (session.bind fun token => sessionJoined db (config.digest token)).filter fun (s, a) =>
    !(s.revoked || a.restricted || decide (s.expires_at ≤ now) || s.revision != a.revision)

def readingSession (token : Option String) : Option (SessionRow × AccountRow) :=
  (sessionJoined db (tokenDigest config token)).filter fun (s, a) =>
    !(s.revoked || a.restricted || s.revision != a.revision || decide (s.expires_at ≤ now))

def receptionSession (post : Bool) (csrf token : Option String) : Option (SessionRow × AccountRow) :=
  (sessionJoined db (tokenDigest config token)).filter fun (s, a) =>
    !(s.revoked || a.restricted || decide (s.expires_at ≤ now) || s.revision != a.revision ||
      (post && !tokenMatches csrf s.csrf))

/-- The principal of the reception is no session's account, but the session's must be it. -/
def originSession (origin_session principal : String) : Option (SessionRow × AccountRow) :=
  ((db.accountWith principal).filter fun a => !a.restricted).bind fun a =>
    ((db.sessionWith origin_session).filter fun s =>
      !(s.revoked || s.account_id != a.id || s.revision != a.revision ||
        decide (s.expires_at ≤ now))).map fun s => (s, a)

/-- The session that lets an entry in. -/
def Entry.session : Entry → Option (SessionRow × AccountRow)
  | .access input => currentSession db config now input
  | .reader (.current_session session) | .reader (.capabilities session)
  | .reader (.invitation_view session _) | .reader (.operation_result session _) =>
    routeSession config db now session
  | .reader (.reading token) => readingSession config db now token
  | .reader (.reception post csrf token) => receptionSession config db now post csrf token
  | .reader (.processing origin_session principal) => originSession db now origin_session principal

end Lookups

/-- The digest an entry comes with. -/
def Entry.presents (config : AccessConfig) : Entry → Option String
  | .access input => input.session.map config.digest
  | .reader (.current_session session) | .reader (.capabilities session)
  | .reader (.invitation_view session _) | .reader (.operation_result session _) =>
    session.map config.digest
  | .reader (.reading token) | .reader (.reception _ _ token) => some (tokenDigest config token)
  | .reader (.processing origin_session _) => some origin_session

/-- The entry does not go on where it comes with a session that is not accepted. -/
def Entry.looksUp : Entry → Bool
  | .access input => sessionRoute input.body || (input.body.invites && !input.body.provisionalOnly)
  | .reader _ => true

/-! ### The service -/

inductive Served (σ : Type) where
  | receipt (receipt : Receipt)
  | body (body : σ)

section Portal

variable {σ τ : Type} (config : AccessConfig)
variable (respond : Reader → AccessStore → Int → Option (SessionRow × AccountRow) → τ →
  Except AccessError (σ × List Int))

def Reader.checksStartup : Reader → Bool
  | .invitation_view _ _ | .operation_result _ _ => false
  | _ => true

/-- Without a session to present, a flow may do. -/
def Reader.provisional : Reader → Bool
  | .invitation_view none _ | .operation_result none _ => true
  | _ => false

def Reader.refusal : Reader → AccessError
  | .processing _ _ => .unavailable
  | _ => .unauthenticated

def Reader.digest : Reader → Option String
  | .processing _ _ => none
  | reader => (Entry.reader reader).presents config

/-- What a reader is answered, with the instants it may not be answered from. -/
def readUnder (reader : Reader) (db : AccessStore) (now : Int) (other : τ)
    (session : Option (SessionRow × AccountRow)) : Except AccessError (Served σ × List Int) := do
  match reader, session with
  | .current_session _, some (s, _) =>
    return (.receipt (.authenticated s.revision s.csrf), [db.deployment.rootUntil, s.expires_at])
  | .capabilities _, some (s, a) =>
    let (body, bounds) ← respond reader db now (some (s, a)) other
    return (.body body, db.deployment.rootUntil :: s.expires_at :: bounds)
  | _, session =>
    let (body, bounds) ← respond reader db now session other
    return (.body body, bounds)

def evaluateReader (db : AccessStore) (now : Int) (reader : Reader) (other : τ) :
    Evaluation Changes (Except AccessError (Served σ)) :=
  if reader.checksStartup && !db.deployment.startupAllowed now then
    ⟨.error .technical_failure, {}, none⟩
  else
    let session := (Entry.reader reader).session config db now
    if session.isNone && !reader.provisional then ⟨.error reader.refusal, {}, none⟩
    else
      match readUnder respond reader db now other session with
      | .ok (served, bounds) =>
        ⟨.ok served, {}, if bounds = [] then none else some (deadline bounds)⟩
      | .error error => ⟨.error error, {}, none⟩

/-- The access service with the readers beside it. Further locks of a reader only keep others
waiting. -/
def portalService : Service AccessStore Entry Discovery (Chance × τ) Changes
    (Except AccessError (Served σ)) Control where
  receives db now := db.deployment.startupAllowed now
  exclusive
    | .access input => input.body.exclusive
    | .reader (.processing _ _) => true
    | .reader _ => false
  discover db
    | .access input => discover config db input
    | .reader reader => ⟨none, ((reader.digest config).map ("session:" ++ ·)).toList⟩
  keys _ found := found.keys
  evaluate db now found
    | .access input, (chance, _) =>
      let e := evaluate config db now found input chance
      ⟨e.answer.map .receipt, e.changes, e.expiry⟩
    | .reader reader, (_, other) => evaluateReader config respond db now reader other
  commit := AccessStore.commit
  retries
    | .access input => if input.body.invites then 0 else config.security.retryLimit
    | .reader _ => 0
  failed := .error .technical_failure
  control c clock db := control clock db c

end Portal

end LedgerDesk.Access
