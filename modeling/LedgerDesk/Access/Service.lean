import LedgerDesk.Access.Invitations

/-!
# Identity routes

Reception, activation with its bootstrap, recovery, login and logout, and the service that
runs these and the invitation routes as snapshot transactions.
-/
namespace LedgerDesk.Access

open Foundation

/-! ### Bootstrap -/

def facultyWellFormed (f : InitialFaculty) : Bool :=
  [f.permission_id, f.scope_ref, f.support_ref].all isRef &&
    [(f.permission_revision : Int), f.scope_revision, f.support_revision, f.expires_at].all
      (fun n => isSafeInteger n && 0 < n) &&
    (f.exercise_or_grant == .grant || f.permission_id ∈ ["invite", "read_people"])

/-- `initialFaculties`: the declaration's faculties, if they are of the shape they must be. -/
def initialFaculties (faculties : List InitialFaculty) : Bool :=
  faculties.length ≤ 16 && faculties.all facultyWellFormed &&
    decide (faculties.map fun f => Authority.selectorKey f.toGrantSelector).Nodup

/-- The permission, the scope and the support of a faculty stand as it was declared for. -/
def facultyCurrent (authority : Authority) (now rootUntil : Int) (account : Account)
    (f : InitialFaculty) : Bool :=
  (authority.permission f.permission_id).any (fun p => p.active && p.revision == f.permission_revision) &&
    (authority.scopes.find? fun s => s.id == f.scope_ref).any
      (fun s => s.active && s.revision == f.scope_revision && authority.contains s.id s.id) &&
    (authority.support f.support_ref).any
      (fun s => s.active && s.kind == .domain && s.revision == f.support_revision &&
        (authority.supportAlive now [] s.id).holds && f.expires_at ≤ s.expires_at) &&
    now < f.expires_at && f.expires_at ≤ rootUntil &&
    (authority.investitureAllows now account f.permission_id f.scope_ref).holds

def facultyBounds (authority : Authority) (now : Int) (account : Account) (f : InitialFaculty) :
    List Int :=
  f.expires_at :: (authority.supportAlive now [] f.support_ref).bounds ++
    (authority.investitureAllows now account f.permission_id f.scope_ref).bounds

def bootstrapGrants (account_id : String) (ids : Nat → String) :
    List InitialFaculty → Nat → List GrantRow
  | [], _ => []
  | f :: faculties, n =>
    ⟨⟨ids n, account_id, f.permission_id, f.exercise_or_grant, f.scope_ref, f.support_ref,
        f.expires_at, false, 1⟩, none⟩ :: bootstrapGrants account_id ids faculties (n + 1)

/-- The grants the first activation makes real, over the store that has the new account. -/
def materializeBootstrap (db : AccessStore) (account_id evidence_id : String) (now : Int)
    (ids : Nat → String) : Except Failure Effect := do
  let d ← present db.bootstrap_declaration .technical_failure
  require (isRef d.id && d.master_email == db.deployment.master_email &&
    some d.holder_person_ref == db.deployment.root.holderPersonRef && d.root == db.deployment.root &&
    initialFaculties d.faculties) .technical_failure
  let account ← present (db.authority.account account_id) .technical_failure
  require (account.office == some "master" && account.person_ref == d.holder_person_ref &&
    !account.restricted) .technical_failure
  require (d.faculties.all (facultyCurrent db.authority now db.deployment.rootUntil account))
    .technical_failure
  require (!(db.authority.incompatible now account.person_ref
    (d.faculties.map (·.toGrantSelector))).holds) .technical_failure
  return { receipt := .completed evidence_id 1
           changes :=
            { bootstrap_activation := .insert [⟨account_id, d.id, evidence_id⟩]
              grant_record := .insert (bootstrapGrants account_id ids d.faculties 1) }
           deadlines := db.deployment.rootUntil ::
             d.faculties.flatMap (facultyBounds db.authority now account) }

/-! ### Routes -/

section Perform

variable (config : AccessConfig) (db : AccessStore)

def discoverService (input : Input) : Discovery :=
  let proofAccount :=
    match input.body with
    | .recover_credential challenge_id _ _ => (db.proofWith challenge_id).map (·.email)
    | _ => none
  { inviteId := none
    keys :=
      (input.flow.map fun f => "flow:" ++ config.digest f).toList ++
        (input.session.map fun s => "session:" ++ config.digest s).toList ++
        [config.digest ((input.body.email.or (input.flow.or input.session)).getD input.peer)] ++
        ((input.body.email.or proofAccount).map fun e => "email:" ++ config.digest e).toList }

/-- Only a session is used for what a session may do. -/
def sessionRoute : Body → Bool
  | .logout => true
  | _ => false

variable (now : Int) (chance : Chance) (input : Input)

def reception : Attempt :=
  match throttle db.throttle now ("reception:" ++ config.digest input.peer) 64 300 0 with
  | none => .error ⟨.rate_limited, {}⟩
  | some counted =>
    match currentFlow db config now input with
    | some flow =>
      .ok { receipt := .csrf flow.csrf, changes := { throttle := counted }
            deadlines := [db.deployment.rootUntil, flow.expires_at] }
    | none =>
      let expiry := min db.deployment.rootUntil (now + config.security.proofSeconds * 1000)
      .ok { receipt := .csrf (chance.secrets 1)
            changes :=
              { throttle := counted
                flow := .insert [⟨config.digest (chance.secrets 0), chance.secrets 1, expiry, now⟩] }
            deadlines := [expiry] }

/-- A code is mailed only where it is due; an address that is not due one is counted alike. -/
def challenge (purpose : ProofPurpose) (expiry : Int) (email : String) : Attempt :=
  let account := db.accountOf email
  match throttle db.throttle now ("mail:" ++ config.digest email) config.security.resendLimit
      config.security.proofSeconds config.security.resendSeconds with
  | none => .ok { receipt := .accepted }
  | some counted =>
    let recovering := purpose == .recovery && account.any (·.office == some "master")
    let expires_at := min (min (now + config.security.proofSeconds * 1000) expiry)
      (if recovering then db.deployment.recovery_until else expiry)
    .ok { receipt := .accepted
          changes :=
            { throttle := counted
              proof := .both
                (.update db.proof (fun p => p.email == email && p.purpose == purpose)
                  fun p => { p with used := true })
                (.insert [⟨chance.ids 0, email, purpose, config.digest (chance.secrets 0), expires_at,
                  false, 0, db.deployment.revision, now,
                  if purpose == .recovery then account.map (·.revision) else none⟩]) } }

def countProof (p : ProofRow) : Changes :=
  { proof := .update db.proof (fun q => q.id == p.id) fun q => { q with attempts := q.attempts + 1 } }

def useProof (p : ProofRow) : Change ProofRow :=
  .update db.proof (fun q => q.id == p.id) fun q => { q with attempts := q.attempts + 1, used := true }

def activateMaster (p : ProofRow) : Attempt := do
  if (db.accountOf p.email).isSome then .error ⟨.forbidden, countProof db p⟩
  let subject := chance.ids 0
  let account : AccountRow :=
    ⟨⟨subject, db.deployment.root.holderPersonRef.getD "", false, 1, some "master"⟩, p.email,
      some chance.verifier, none⟩
  let booted ← materializeBootstrap { db with account := db.account ++ [account] } subject
    chance.operation now chance.ids
  return { receipt := .completed chance.operation 1
           changes := { booted.changes with
             account := .insert [account]
             proof := useProof db p }
           deadlines := p.expires_at :: booted.deadlines }

def recoverCredential (p : ProofRow) : Attempt := do
  match db.accountOf p.email with
  | none => .error ⟨.forbidden, countProof db p⟩
  | some account =>
    let closed : Bool := account.office == some "master" && db.deployment.recovery_until ≤ now
    if p.account_revision.any (fun r => r != account.revision) || account.restricted || closed then
      .error ⟨.forbidden, countProof db p⟩
    else
      return { receipt := .completed chance.operation (account.revision + 1)
               changes :=
                { account := .update db.account (fun a => a.id == account.id)
                    fun a => { a with verifier := some chance.verifier, revision := a.revision + 1 }
                  session := .update db.session (fun s => s.account_id == account.id)
                    fun s => { s with revoked := true, revision := s.revision + 1 }
                  initial_credential_flow :=
                    .update db.initial_credential_flow (fun c => c.account_id == account.id)
                      fun c => { c with consumed := true }
                  proof := useProof db p }
               deadlines := p.expires_at ::
                 if account.office == some "master" then [db.deployment.recovery_until] else [] }

/-- `activate_master` and `recover_credential` up to where they part. -/
def withProof (purpose : ProofPurpose) (challenge_id code : String) (next : ProofRow → Attempt) :
    Attempt := do
  let p ← present (db.proofWith challenge_id) .forbidden
  require (!p.used && p.purpose == purpose &&
    (purpose != .activation || p.email == db.deployment.master_email) && now < p.expires_at &&
    p.deployment_revision == db.deployment.revision &&
    p.attempts < config.security.proofAttempts) .forbidden
  if config.digest code == p.verifier then next p
  else .error ⟨.forbidden, countProof db p⟩

def quotedPair (a b : String) : String :=
  canonicalValue (.array [.text a, .text b])

/-- Refused peers do not spend the allowance of the account. -/
def login (flow : FlowRow) (email password : String) : Attempt :=
  let security := config.security
  match throttle db.throttle now ("login:peer:" ++ config.digest (quotedPair email input.peer))
      security.loginAttempts security.attemptWindowSeconds 0 with
  | none => .error ⟨.rate_limited, {}⟩
  | some byPeer =>
    match throttle db.throttle now ("login:account:" ++ config.digest email)
        (security.loginAttempts * 10) security.attemptWindowSeconds 0 with
    | none => .error ⟨.rate_limited, { throttle := byPeer }⟩
    | some byAccount =>
      let counted := Change.both byPeer byAccount
      let account := db.accountOf email
      match account.filter fun a => config.passwordMatches a.verifier password && !a.restricted with
      | none => .error ⟨.unauthenticated, { throttle := counted }⟩
      | some account =>
        let expires_at := min db.deployment.rootUntil (now + security.sessionSeconds * 1000)
        .ok { receipt := .authenticated account.revision (chance.secrets 1)
              changes :=
                { throttle := counted
                  session := .insert [⟨config.digest (chance.secrets 0), account.id,
                    chance.secrets 1, expires_at, false, account.revision⟩]
                  flow := .update db.flow (fun f => f.digest == flow.digest)
                    fun f => { f with expires_at := now } } }

def logout (session : SessionRow) : Attempt :=
  .ok { receipt := .completed chance.operation session.revision
        changes :=
          { session := .update db.session (fun s => s.digest == session.digest)
              fun s => { s with revoked := true } } }

/-- What the route of a new intention works under. -/
inductive Credential where
  | session (s : SessionRow)
  | flow (f : FlowRow)

namespace Credential

def csrf : Credential → String
  | .session s => s.csrf
  | .flow f => f.csrf

def expires_at : Credential → Int
  | .session s => s.expires_at
  | .flow f => f.expires_at

def digest : Credential → String
  | .session s => s.digest
  | .flow f => f.digest

end Credential

def serviceCredential : Option Credential :=
  if sessionRoute input.body then (currentSession db config now input).map fun s => .session s.1
  else (currentFlow db config now input).map .flow

def serviceRoute (expiry : Int) (credential : Credential) : Attempt :=
  match input.body, credential with
  | .activation_challenge email, _ => challenge config db now chance .activation expiry email
  | .recovery_challenge email, _ => challenge config db now chance .recovery expiry email
  | .activate_master challenge_id code _, _ =>
    withProof config db now .activation challenge_id code (activateMaster db now chance)
  | .recover_credential challenge_id code _, _ =>
    withProof config db now .recovery challenge_id code (recoverCredential db now chance)
  | .login email password, .flow flow => login config db now chance input flow email password
  | .logout, .session session => logout db chance session
  | _, _ => .error ⟨.unavailable, {}⟩

def intentKey (credential : Credential) : String := input.body.route ++ ":" ++ credential.digest

/-- `JSON.stringify` of the route and the sorted entries, which older rows digested. -/
def legacyIntent (body : Body) : String :=
  let entries :=
    match body.value with
    | .object members =>
      members.insertionSort fun a b : String × Value =>
        decide (Agents.codeUnits a.1 ≤ Agents.codeUnits b.1)
    | _ => []
  String.ofList (plainChars (.array [.text body.route,
    .array (entries.map fun m : String × Value => .array [.text m.1, m.2])]))

/-- A login is never answered again, and a completed proof only while its account is open. -/
def replayable : Except Failure Unit :=
  match input.body with
  | .login _ _ => .error ⟨.revision_conflict, {}⟩
  | .activate_master challenge_id _ _ | .recover_credential challenge_id _ _ => do
    let email := ((db.proofWith challenge_id).map (·.email)).getD db.deployment.master_email
    let subject ← present (db.accountOf email) .forbidden
    let recovering : Bool :=
      match input.body with
      | .recover_credential _ _ _ => true
      | _ => false
    require (!subject.restricted &&
      !(recovering && subject.office == some "master" && db.deployment.recovery_until ≤ now))
      .forbidden
  | _ => .ok ()

def recordedReceipt (receipt : Receipt) : Receipt :=
  match input.body with
  | .login _ _ => .signedIn chance.operation
  | _ => receipt

def performService : Attempt := do
  require (db.deployment.startupAllowed now) .technical_failure
  if input.body == .reception then reception config db now chance input
  else do
    let credential ← present (serviceCredential config db now input) .unauthenticated
    require (tokenMatches input.csrf credential.csrf) .forbidden
    require (input.intent.any isRef) .invalid_request
    let payload := config.digest (canonicalIntent input.body)
    let deadlines := [db.deployment.rootUntil, credential.expires_at]
    match db.intent.find? fun i =>
      i.binding == intentKey input credential && input.intent == some i.intention with
    | some prior => do
      require (prior.payload_digest ==
        if prior.legacy then config.digest (legacyIntent input.body) else payload) .revision_conflict
      replayable db now input
      return { receipt := prior.receipt, deadlines }
    | none => do
      let effect ← serviceRoute config db now chance input (deadline deadlines) credential
      return { receipt := effect.receipt
               changes := { effect.changes with
                 intent := .insert [⟨intentKey input credential, input.intent.getD "", payload,
                   recordedReceipt chance input effect.receipt, false⟩] }
               deadlines := deadlines ++ effect.deadlines }

end Perform

/-! ### The service -/

/-- The operations of the technical controller. -/
inductive Control where
  | set_support (support_id : String) (enabled : Bool) (reason : String)
  | set_revalidation (id : String) (until_ : Int) (satisfied : Bool)
  | end_investiture (id : String)
  | restrict_account (account_id : String) (restricted : Bool)
  | set_control (enabled : Bool) (recovery_until : Int) (reason : String)
  deriving DecidableEq, Repr

def reasonGiven (reason : String) : Bool := 1 ≤ reason.length && reason.length ≤ 200

def control (clock : Int) (db : AccessStore) : Control → Option AccessStore
  | .set_support support_id enabled reason =>
    if !reasonGiven reason || !db.support_definition.any (fun s => s.id == support_id) then none
    else
      some { db with
        support_definition := db.support_definition.map fun s =>
          if s.id == support_id then { s with active := enabled, revision := s.revision + 1 } else s }
  | .set_revalidation id until_ satisfied =>
    if db.revalidation_event.any fun e => e.id == id then
      some { db with
        revalidation_event := db.revalidation_event.map fun e =>
          if e.id == id then { e with current_until := until_, satisfied := satisfied } else e }
    else none
  | .end_investiture id =>
    if db.investiture.any fun i => i.id == id then
      some { db with
        investiture := db.investiture.map fun i =>
          if i.id == id then { i with active := false, revision := i.revision + 1 } else i }
    else none
  | .restrict_account account_id restricted =>
    some { db with
      account := db.account.map fun a =>
        if a.id == account_id then { a with restricted := restricted, revision := a.revision + 1 }
        else a
      session := db.session.map fun s =>
        if s.account_id == account_id then { s with revoked := true, revision := s.revision + 1 }
        else s }
  | .set_control enabled recovery_until reason =>
    if !reasonGiven reason || recovery_until < 0 || clock + 300000 < recovery_until then none
    else
      some { db with
        deployment := { db.deployment with
          active := enabled, recovery_until := recovery_until,
          revision := db.deployment.revision + 1 } }

section Service

variable (config : AccessConfig)

def discover (db : AccessStore) (input : Input) : Discovery :=
  if input.body.invites then discoverInvitation config db input else discoverService config db input

def perform (db : AccessStore) (now : Int) (found : Discovery) (input : Input) (chance : Chance) :
    Attempt :=
  if input.body.invites then performInvitation config db chance now found input
  else performService config db now chance input

/-- A refusal commits what it counted, unless it is technical: then nothing is committed. -/
def evaluate (db : AccessStore) (now : Int) (found : Discovery) (input : Input) (chance : Chance) :
    Evaluation Changes Answer :=
  (perform config db now found input chance).evaluation

def accessService : Service AccessStore Input Discovery Chance Changes Answer Control where
  receives db now := db.deployment.startupAllowed now
  exclusive input := input.body.exclusive
  discover := discover config
  keys _ found := found.keys
  evaluate := evaluate config
  commit := AccessStore.commit
  retries input := if input.body.invites then 0 else config.security.retryLimit
  failed := .error .technical_failure
  control c clock db := control clock db c

end Service

end LedgerDesk.Access
