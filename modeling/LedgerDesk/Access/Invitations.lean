import LedgerDesk.Access.Requests

/-!
# Invitations

`performInvitation`: the routes that issue, change, prove, accept and complete invitations
and withdraw grants, each in one transaction with the intention it answers.
-/
namespace LedgerDesk.Access

open Foundation

/-- What a request reads of the invitation before it takes its locks, and the locks. -/
structure Discovery where
  inviteId : Option String
  keys : List String

section Discover

variable (config : AccessConfig) (db : AccessStore) (input : Input)

def discoverInvitation : Discovery :=
  let inviteId :=
    match input.body with
    | .verify_invitation_email challenge_id _ =>
      (db.emailProofWith challenge_id).bind (·.invitation_id)
    | body => body.parameters.lookup "invitation_id"
  let discovered := inviteId.bind db.invitationWith
  let email :=
    if input.body.privateLookup then none else (discovered.map (·.email)).or input.body.email
  let determination := email.bind fun e => db.person_determination.find? fun d => d.email == e
  let account := email.bind db.accountOf
  let person := (determination.map (·.person_ref)).or (account.map (·.person_ref))
  { inviteId := inviteId
    keys :=
      (input.flow.map fun f => "flow:" ++ config.digest f).toList ++
        (input.session.map fun s => "session:" ++ config.digest s).toList ++
        (email.map fun e => "email:" ++ config.digest e).toList ++
        (inviteId.map fun id => "invitation:" ++ id).toList ++
        (if input.body.privateLookup then []
          else (discovered.map fun i => "account:" ++ i.issuer_id).toList) ++
        (person.map fun p => "person:" ++ p).toList ++
        ((input.body.parameters.lookup "grant_id").map fun id => "grant:" ++ id).toList }

end Discover

/-- What the route handlers of a request share. -/
structure InvitationContext where
  now : Int
  flow : Option FlowRow
  session : Option (SessionRow × AccountRow)
  /-- The verified proof an acceptance names, of this flow, with the email of its invitation.
  No other route reads it. -/
  proof : Option (EmailProof × String)
  principal : String
  inv : Option InvitationRow
  issuer : Option Account
  viewer : Option Account
  current : Option InvitationRevision

/-- `invitationExpiryAllowed`. -/
def invitationExpiryAllowed (security : AccessSecurity) (issuedAt expiresAt : Int) : Bool :=
  1 ≤ security.invitationSeconds && security.invitationSeconds ≤ 604800 &&
    isSafeInteger issuedAt && 0 ≤ issuedAt && isSafeInteger expiresAt && issuedAt < expiresAt &&
    expiresAt - issuedAt ≤ security.invitationSeconds * 1000

section Perform

variable (config : AccessConfig) (db : AccessStore)

def acceptanceProof (now : Int) (flow : Option FlowRow) (proof_id : String) :
    Option (EmailProof × String) := do
  let flow ← flow
  let p ← db.email_proof.find? fun p =>
    p.id == proof_id && p.flow_digest == flow.digest && p.verified && !p.superseded &&
      now < p.expires_at
  let i ← p.invitation_id.bind db.invitationWith
  return (p, i.email)

def invitationContext (now : Int) (found : Discovery) (input : Input) : InvitationContext :=
  let flow := currentFlow db config now input
  let session := currentSession db config now input
  let proof :=
    match input.body with
    | .accept_invitation _ _ proof_id => acceptanceProof db now flow proof_id
    | _ => none
  let byEmail := fun email => "email:" ++ config.digest email
  let principal :=
    match session, proof, input.body.provisionalOnly with
    | some (_, account), _, false => byEmail account.email
    | none, some (_, email), false => byEmail email
    | _, _, _ => "flow:" ++ (flow.map (·.digest)).getD "none"
  let inv := found.inviteId.bind db.invitationWith
  { now := now
    flow := flow
    session := session
    proof := proof
    principal := principal
    inv := inv
    issuer := inv.bind fun i => db.authority.account i.issuer_id
    viewer := session.bind fun s => db.authority.account s.1.account_id
    current := inv.bind fun i => db.revisionOf i.id i.revision }

/-- The person an address belongs to: its account's, the one determined, or none but itself. -/
def person (email : String) : String :=
  match db.accountOf email, db.person_determination.find? fun d => d.email == email with
  | some account, _ => account.person_ref
  | none, some d => d.person_ref
  | none, none => "unlinked:" ++ config.digest email

variable (ctx : InvitationContext)

/-- The terms of the current revision, compiled anew. -/
def currentTerms : Compiled :=
  match ctx.inv, ctx.current with
  | some inv, some current => db.authority.compile ctx.now ctx.issuer inv.family current.grants
  | _, _ => ⟨none, [], []⟩

def recipient : Bool :=
  ctx.inv.any fun inv =>
    match ctx.session with
    | some (_, account) => account.email == inv.email
    | none => ctx.proof.any fun p => p.1.invitation_id == some inv.id && p.2 == inv.email

/-- The invitation, if the viewer issued it and could issue it now. -/
def managesInvitation : Except Failure (InvitationRow × List Int) := do
  let inv ← present ctx.inv .forbidden
  let _ ← present ctx.current .forbidden
  let viewer ← present ctx.viewer .forbidden
  require (viewer.id == inv.issuer_id) .forbidden
  let _ ← present (currentTerms db ctx).terms .forbidden
  return (inv, (currentTerms db ctx).bounds)

structure Eligible where
  inv : InvitationRow
  current : InvitationRevision
  proof : EmailProof
  terms : List InvitationTerm
  personRef : String
  target : Option AccountRow
  deadlines : List Int

def acceptanceEligibility (proof_id : String) (expected_revision : Nat) :
    Except Failure Eligible := do
  let inv ← present ctx.inv .forbidden
  let current ← present ctx.current .forbidden
  require (recipient ctx) .forbidden
  let (proof, _) ← present ctx.proof .forbidden
  require (proof.id == proof_id && proof.invitation_id == some inv.id && !proof.used &&
    !proof.superseded) .forbidden
  require (inv.revision == expected_revision) .revision_conflict
  require (inv.state == .pending && ctx.now < inv.expires_at &&
    invitationExpiryAllowed config.security inv.issued_at inv.expires_at) .forbidden
  let terms ← present (currentTerms db ctx).terms .forbidden
  require (canonicalValue (termsValue terms) == canonicalValue (termsValue current.terms))
    .revision_conflict
  let personRef := person config db inv.email
  let separation := db.authority.incompatible ctx.now personRef current.grants
  require (!separation.holds) .forbidden
  let target := db.accountOf inv.email
  require (target.all fun t => !t.restricted && t.office != some "master") .forbidden
  return { inv, current, proof, terms, personRef, target,
           deadlines := [inv.expires_at, proof.expires_at] ++ (currentTerms db ctx).bounds ++
             separation.bounds }

/-! ### Routes -/

variable (chance : Chance)

def issueInvitation (email : String) (family : Family) (grants : List GrantSelector)
    (expires_at : Int) : Attempt := do
  require (invitationExpiryAllowed config.security ctx.now expires_at) .invalid_request
  require (email != db.deployment.master_email) .forbidden
  let viewer ← present ctx.viewer .forbidden
  let compiled := db.authority.compile ctx.now (some viewer) family grants
  let terms ← present compiled.terms .forbidden
  let separation := db.authority.incompatible ctx.now (person config db email) grants
  require (!separation.holds) .forbidden
  let id := chance.ids 0
  return { receipt := .issued id 1
           changes :=
            { invitation := .insert [⟨id, viewer.id, email, family, ctx.now, expires_at, 1, .pending,
                none, none⟩]
              invitation_revision := .insert [⟨id, 1, grants, terms, viewer.id, ctx.now⟩] }
           deadlines := compiled.bounds ++ separation.bounds }

def amendInvitation (expected_revision : Nat) (grants : List GrantSelector) : Attempt := do
  let (inv, bounds) ← managesInvitation db ctx
  require (inv.revision == expected_revision) .revision_conflict
  require (inv.state == .pending && ctx.now < inv.expires_at) .forbidden
  let viewer ← present ctx.viewer .forbidden
  let compiled := db.authority.compile ctx.now (some viewer) inv.family grants
  let terms ← present compiled.terms .forbidden
  let separation := db.authority.incompatible ctx.now (person config db inv.email) grants
  require (!separation.holds) .forbidden
  let revision := inv.revision + 1
  return { receipt := .completed chance.operation revision
           changes :=
            { invitation_revision :=
                .insert [⟨inv.id, revision, grants, terms, viewer.id, ctx.now⟩]
              invitation := .update db.invitation (fun i => i.id == inv.id)
                fun i => { i with revision := revision } }
           deadlines := bounds ++ compiled.bounds ++ separation.bounds }

def withdrawInvitation (expected_revision : Nat) : Attempt := do
  let (inv, bounds) ← managesInvitation db ctx
  require (inv.revision == expected_revision) .revision_conflict
  require (inv.state == .pending && ctx.now < inv.expires_at) .forbidden
  return { receipt := .completed chance.operation inv.revision
           changes :=
            { invitation := .update db.invitation (fun i => i.id == inv.id)
                fun i => { i with state := .withdrawn, withdrawn_at := some ctx.now } }
           deadlines := bounds }

/-- Answered alike whether or not there is an invitation the challenge could be for. -/
def invitationChallenge (expiry : Int) (flow : FlowRow) (invitation_id peer : String) : Attempt :=
  let standing := ctx.inv.filter fun inv => inv.state == .pending && ctx.now < inv.expires_at
  let terms := if standing.isSome then currentTerms db ctx else ⟨none, [], []⟩
  let eligible := if terms.terms.isSome then standing else none
  let allowed := throttle db.throttle ctx.now
    ("invitation-mail:" ++ config.digest (invitation_id ++ ":" ++ peer))
    config.security.resendLimit config.security.proofSeconds config.security.resendSeconds
  let about := eligible.map (·.id)
  let expires_at := min expiry (min ((eligible.map (·.expires_at)).getD expiry)
    (ctx.now + config.security.proofSeconds * 1000))
  .ok { receipt := .accepted
        changes :=
          match allowed with
          | none => {}
          | some counted =>
            { throttle := counted
              email_proof := .both
                (.update db.email_proof
                  (fun p => p.invitation_id == about && p.flow_digest == flow.digest)
                  fun p => { p with superseded := true })
                (.insert [⟨chance.ids 0, about, flow.digest,
                  config.digest (chance.secrets 0), expires_at, 0, false, false, false, ctx.now⟩]) }
        deadlines := terms.bounds }

def verifyInvitationEmail (flow : FlowRow) (challenge_id code : String) : Attempt := do
  let p ← present (db.emailProofWith challenge_id) .forbidden
  require (p.flow_digest == flow.digest && !p.used && !p.superseded &&
    p.attempts < config.security.proofAttempts && ctx.now < p.expires_at &&
    ctx.inv.any fun inv => inv.state == .pending && ctx.now < inv.expires_at) .forbidden
  if config.digest code == p.verifier then
    return { receipt := .verified p.id p.expires_at
             changes :=
              { email_proof := .update db.email_proof (fun q => q.id == p.id)
                  fun q => { q with attempts := q.attempts + 1, verified := true } }
             deadlines := [p.expires_at] }
  else
    -- a wrong code is counted, and the count is committed with the refusal
    .error ⟨.forbidden,
      { email_proof := .update db.email_proof (fun q => q.id == p.id)
          fun q => { q with attempts := q.attempts + 1 } }⟩

/-- The grants an acceptance creates, one for each term, with identifiers of their own. -/
def acceptedGrants (account_id operation : String) (ids : Nat → String) :
    List InvitationTerm → Nat → List GrantRow
  | [], _ => []
  | t :: terms, n =>
    ⟨⟨ids n, account_id, t.permission_id, t.exercise_or_grant, t.scope_ref, t.support_ref,
        t.expires_at, false, 1⟩, some operation⟩ :: acceptedGrants account_id operation ids terms (n + 1)

def acceptInvitation (expiry : Int) (expected_revision : Nat) (proof_id : String) : Attempt := do
  let e ← acceptanceEligibility config db ctx proof_id expected_revision
  let flow ← present ctx.flow .forbidden
  let account_id := (e.target.map (·.id)).getD (chance.ids 0)
  let needs_verifier := e.target.all fun t => t.verifier.isNone
  return { receipt := .completed chance.operation e.inv.revision
           changes :=
            { account := if e.target.isSome then .keep else
                .insert [⟨⟨account_id, e.personRef, false, 1, none⟩, e.inv.email, none, some e.inv.id⟩]
              acceptance := .insert
                [⟨chance.operation, e.inv.id, e.inv.revision, account_id, e.proof.id, ctx.now⟩]
              grant_record :=
                .insert (acceptedGrants account_id chance.operation chance.ids e.terms 1)
              invitation := .update db.invitation (fun i => i.id == e.inv.id)
                fun i => { i with state := .accepted, accepted_at := some ctx.now }
              email_proof := .update db.email_proof (fun p => p.id == e.proof.id)
                fun p => { p with used := true }
              initial_credential_flow :=
                if needs_verifier &&
                    !db.initial_credential_flow.any (fun f => f.flow_digest == flow.digest) then
                  .insert [⟨flow.digest, account_id, chance.operation,
                    min (min expiry e.inv.expires_at) e.proof.expires_at, false⟩]
                else .keep }
           deadlines := e.deadlines }

def initialCredential (flow : FlowRow) : Attempt := do
  let f ← present (db.initial_credential_flow.find? fun f => f.flow_digest == flow.digest) .forbidden
  require (!f.consumed && ctx.now < f.expires_at) .forbidden
  let target ← present (db.accountWith f.account_id) .forbidden
  require (!target.restricted && target.office != some "master" && target.verifier.isNone) .forbidden
  return { receipt := .completed chance.operation (target.revision + 1)
           changes :=
            { account := .update db.account (fun a => a.id == target.id)
                fun a => { a with verifier := some chance.verifier, revision := a.revision + 1 }
              initial_credential_flow :=
                .update db.initial_credential_flow (fun c => c.account_id == target.id)
                  fun c => { c with consumed := true } }
           deadlines := [f.expires_at] }

def withdrawGrant (grant_id : String) (expected_revision : Nat) : Attempt := do
  let g ← present (db.authority.grant grant_id) .forbidden
  let target ← present (db.authority.account g.account_id) .forbidden
  let allowed := db.authority.allows ctx.now ctx.viewer g.permission_id .grant g.scope_ref
  require (target.office != some "master" && allowed.holds) .forbidden
  require (g.revision == expected_revision) .revision_conflict
  require (!g.withdrawn) .forbidden
  return { receipt := .completed chance.operation (g.revision + 1)
           changes :=
            { grant_record := .update db.grant_record (fun r => r.id == g.id)
                fun r => { r with withdrawn := true, revision := r.revision + 1 } }
           deadlines := allowed.bounds }

/-! ### Repeated intentions -/

/-- An invitation issued before could be issued now. -/
def stillIssuable (body : Body) : Except Failure (List Int) :=
  match body with
  | .issue_invitation _ family grants _ => do
    let compiled := db.authority.compile ctx.now ctx.viewer family grants
    let _ ← present compiled.terms .forbidden
    return compiled.bounds
  | _ => .ok []

/-- An invitation managed before could be managed now. -/
def stillManaged (body : Body) : Except Failure (List Int) :=
  if body.administrative && ctx.inv.isSome then do
    require (ctx.viewer.map (·.id) == ctx.inv.map (·.issuer_id)) .forbidden
    let _ ← present (currentTerms db ctx).terms .forbidden
    return (currentTerms db ctx).bounds
  else .ok []

def stillGranted (body : Body) : Except Failure (List Int) :=
  match body with
  | .withdraw_grant grant_id _ _ => do
    let g ← present (db.authority.grant grant_id) .forbidden
    let allowed := db.authority.allows ctx.now ctx.viewer g.permission_id .grant g.scope_ref
    require allowed.holds .forbidden
    return allowed.bounds
  | _ => .ok []

def stillRecipient (body : Body) : Except Failure Unit :=
  match body with
  | .accept_invitation _ _ proof_id =>
    require (recipient ctx && ctx.proof.any fun p => p.1.id == proof_id && !p.1.superseded) .forbidden
  | _ => .ok ()

/-- A repeated intention is authorised anew before its receipt is given again. -/
def reauthorize (body : Body) : Except Failure (List Int) := do
  let issued ← stillIssuable db ctx body
  let managed ← stillManaged db ctx body
  let granted ← stillGranted db ctx body
  stillRecipient ctx body
  return issued ++ managed ++ granted

/-- The route of a request whose intention is new. -/
def invitationRoute (expiry : Int) (body : Body) (peer : String) : Attempt :=
  match body with
  | .issue_invitation email family grants expires_at =>
    issueInvitation config db ctx chance email family grants expires_at
  | .amend_invitation _ expected_revision grants =>
    amendInvitation config db ctx chance expected_revision grants
  | .withdraw_invitation _ expected_revision _ => withdrawInvitation db ctx chance expected_revision
  | .invitation_challenge invitation_id => do
    let flow ← present ctx.flow .unauthenticated
    invitationChallenge config db ctx chance expiry flow invitation_id peer
  | .verify_invitation_email challenge_id code => do
    let flow ← present ctx.flow .unauthenticated
    verifyInvitationEmail config db ctx flow challenge_id code
  | .accept_invitation _ expected_revision proof_id =>
    acceptInvitation config db ctx chance expiry expected_revision proof_id
  | .initial_credential _ => do
    let flow ← present ctx.flow .unauthenticated
    initialCredential db ctx chance flow
  | .withdraw_grant grant_id expected_revision _ =>
    withdrawGrant db ctx chance grant_id expected_revision
  | _ => .error ⟨.unavailable, {}⟩

/-- The token and the end of the session or the flow a route is used under. -/
def invitationCredential (body : Body) : Option (String × Int) :=
  let session := ctx.session.map fun s => (s.1.csrf, s.1.expires_at)
  let flow := ctx.flow.map fun f => (f.csrf, f.expires_at)
  if body.administrative then session else if body.provisionalOnly then flow else session.or flow

def invitationIntent (input : Input) (payload : String) (receipt : Receipt) : InvitationIntent where
  principal := ctx.principal
  route := input.body.route
  intention := input.intent.getD ""
  payload_digest := payload
  operation_id := chance.operation
  invitation_id :=
    match receipt with
    | .issued id _ => some id
    | _ => ctx.inv.map (·.id)
  receipt := receipt
  recorded_at := ctx.now
  object_ref := input.body.parameters.lookup "grant_id"

def priorInvitationIntent (input : Input) : Option InvitationIntent :=
  db.invitation_intent.find? fun i =>
    i.principal == ctx.principal && i.route == input.body.route && input.intent == some i.intention

def performInvitation (now : Int) (found : Discovery) (input : Input) : Attempt := do
  let ctx := invitationContext config db now found input
  require (input.body.provisionalOnly || input.body.administrative || input.session.isNone ||
    ctx.session.isSome) .unauthenticated
  let (csrf, expires_at) ← present (invitationCredential ctx input.body) .unauthenticated
  require (tokenMatches input.csrf csrf) .forbidden
  require (input.intent.any isRef) .invalid_request
  require (!input.body.administrative || ctx.viewer.isSome) .forbidden
  let payload := config.digest (canonicalIntent input.body)
  let deadlines := [db.deployment.rootUntil, expires_at] ++
    if ctx.session.isNone && !input.body.provisionalOnly then
      (ctx.proof.map (·.1.expires_at)).toList
    else []
  match priorInvitationIntent db ctx input with
  | some prior => do
    require (prior.payload_digest == payload) .revision_conflict
    let bounds ← reauthorize db ctx input.body
    return { receipt := prior.receipt, deadlines := deadlines ++ bounds }
  | none => do
    let effect ← invitationRoute config db ctx chance (deadline deadlines) input.body input.peer
    return { receipt := effect.receipt
             changes := { effect.changes with
               invitation_intent := .insert [invitationIntent ctx chance input payload effect.receipt] }
             deadlines := deadlines ++ effect.deadlines }

end Perform

end LedgerDesk.Access
