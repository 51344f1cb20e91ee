import LedgerDesk.Access.Authority
import LedgerDesk.Foundation.Tables
import LedgerDesk.Foundation.Transactions

/-!
# The access store

The tables of `access_trial`, as far as a request reads them, what a transaction changes of
them, and the keys and references the database keeps.
-/
namespace LedgerDesk.Access

open Foundation

structure AccountRow extends Account where
  email : String
  verifier : Option String
  origin_invitation_id : Option String
  deriving DecidableEq, Repr

structure GrantRow extends GrantRecord where
  acceptance_id : Option String
  deriving DecidableEq, Repr

structure PersonDetermination where
  email : String
  person_ref : String
  deriving DecidableEq, Repr

structure Reception where
  purposeRef : Option String
  custodianRef : Option String
  readerRef : Option String
  disposalRef : Option String
  destination : String
  synthetic : Bool
  capture : Bool
  processing : Bool
  conservation : Bool
  evidence : Bool
  retentionSeconds : Option Int
  deriving DecidableEq, Repr

structure Deployment where
  deployment_id : String
  active : Bool
  revision : Nat
  master_email : String
  root : Declaration
  reception : Reception
  recovery_until : Int
  deriving DecidableEq, Repr

structure FlowRow where
  digest : String
  csrf : String
  expires_at : Int
  created_at : Int
  deriving DecidableEq, Repr

structure SessionRow where
  digest : String
  account_id : String
  csrf : String
  expires_at : Int
  revoked : Bool
  revision : Nat
  deriving DecidableEq, Repr

inductive ProofPurpose where
  | activation
  | recovery
  deriving DecidableEq, Repr

structure ProofRow where
  id : String
  email : String
  purpose : ProofPurpose
  verifier : String
  expires_at : Int
  used : Bool
  attempts : Nat
  deployment_revision : Nat
  created_at : Int
  account_revision : Option Nat
  deriving DecidableEq, Repr

structure ThrottleRow where
  key : String
  count : Nat
  window_start : Int
  last_at : Int
  deriving DecidableEq, Repr

inductive InvitationState where
  | pending
  | accepted
  | withdrawn
  deriving DecidableEq, Repr

structure InvitationRow where
  id : String
  issuer_id : String
  email : String
  family : Family
  issued_at : Int
  expires_at : Int
  revision : Nat
  state : InvitationState
  accepted_at : Option Int
  withdrawn_at : Option Int
  deriving DecidableEq, Repr

structure InvitationRevision where
  invitation_id : String
  revision : Nat
  grants : List GrantSelector
  terms : List InvitationTerm
  changed_by : String
  recorded_at : Int
  deriving DecidableEq, Repr

structure EmailProof where
  id : String
  invitation_id : Option String
  flow_digest : String
  verifier : String
  expires_at : Int
  attempts : Nat
  verified : Bool
  used : Bool
  superseded : Bool
  created_at : Int
  deriving DecidableEq, Repr

structure Acceptance where
  id : String
  invitation_id : String
  revision : Nat
  account_id : String
  proof_id : String
  recorded_at : Int
  deriving DecidableEq, Repr

structure InitialCredentialFlow where
  flow_digest : String
  account_id : String
  acceptance_id : String
  expires_at : Int
  consumed : Bool
  deriving DecidableEq, Repr

/-- The body of a 200, as an intent records it. -/
inductive Receipt where
  | csrf (csrf_token : String)
  | accepted
  | completed (operation_id : String) (revision : Nat)
  | signedIn (operation_id : String)
  | authenticated (session_revision : Nat) (csrf_token : String)
  | issued (invitation_id : String) (revision : Nat)
  | verified (proof_id : String) (expires_at : Int)
  deriving DecidableEq, Repr

/-- `access_trial.intent`; the profile of a row is its `canonical_profile`. -/
structure IntentRow where
  binding : String
  intention : String
  payload_digest : String
  receipt : Receipt
  legacy : Bool
  deriving DecidableEq, Repr

structure InvitationIntent where
  principal : String
  route : String
  intention : String
  payload_digest : String
  operation_id : String
  invitation_id : Option String
  receipt : Receipt
  recorded_at : Int
  object_ref : Option String
  deriving DecidableEq, Repr

structure InitialFaculty extends GrantSelector where
  permission_revision : Nat
  scope_revision : Nat
  support_revision : Nat
  expires_at : Int
  deriving DecidableEq, Repr

structure BootstrapDeclaration where
  id : String
  master_email : String
  holder_person_ref : String
  root : Declaration
  faculties : List InitialFaculty
  deriving DecidableEq, Repr

structure BootstrapActivation where
  account_id : String
  declaration_id : String
  evidence_id : String
  deriving DecidableEq, Repr

/-- `deployment` and `bootstrap_declaration` hold one row; the second may hold none. -/
structure AccessStore where
  deployment : Deployment
  bootstrap_declaration : Option BootstrapDeclaration
  permission_definition : List PermissionDefinition
  scope_definition : List ScopeDefinition
  support_definition : List SupportDefinition
  investiture : List Investiture
  incompatibility : List Incompatibility
  revalidation_event : List RevalidationEvent
  investiture_resolution : List InvestitureResolution
  person_determination : List PersonDetermination
  account : List AccountRow
  grant_record : List GrantRow
  flow : List FlowRow
  session : List SessionRow
  proof : List ProofRow
  intent : List IntentRow
  throttle : List ThrottleRow
  invitation : List InvitationRow
  invitation_revision : List InvitationRevision
  email_proof : List EmailProof
  acceptance : List Acceptance
  initial_credential_flow : List InitialCredentialFlow
  invitation_intent : List InvitationIntent
  bootstrap_activation : List BootstrapActivation

/-- What a transaction does to each table it may write. -/
structure Changes where
  account : Change AccountRow := .keep
  grant_record : Change GrantRow := .keep
  flow : Change FlowRow := .keep
  session : Change SessionRow := .keep
  proof : Change ProofRow := .keep
  intent : Change IntentRow := .keep
  throttle : Change ThrottleRow := .keep
  invitation : Change InvitationRow := .keep
  invitation_revision : Change InvitationRevision := .keep
  email_proof : Change EmailProof := .keep
  acceptance : Change Acceptance := .keep
  initial_credential_flow : Change InitialCredentialFlow := .keep
  invitation_intent : Change InvitationIntent := .keep
  bootstrap_activation : Change BootstrapActivation := .keep
  deriving DecidableEq

namespace Changes

def fits (c : Changes) (db : AccessStore) : Bool :=
  c.account.fits db.account && c.grant_record.fits db.grant_record && c.flow.fits db.flow &&
    c.session.fits db.session && c.proof.fits db.proof && c.intent.fits db.intent &&
    c.throttle.fits db.throttle && c.invitation.fits db.invitation &&
    c.invitation_revision.fits db.invitation_revision && c.email_proof.fits db.email_proof &&
    c.acceptance.fits db.acceptance &&
    c.initial_credential_flow.fits db.initial_credential_flow &&
    c.invitation_intent.fits db.invitation_intent &&
    c.bootstrap_activation.fits db.bootstrap_activation

def apply (c : Changes) (db : AccessStore) : AccessStore :=
  { db with
    account := c.account.apply db.account
    grant_record := c.grant_record.apply db.grant_record
    flow := c.flow.apply db.flow
    session := c.session.apply db.session
    proof := c.proof.apply db.proof
    intent := c.intent.apply db.intent
    throttle := c.throttle.apply db.throttle
    invitation := c.invitation.apply db.invitation
    invitation_revision := c.invitation_revision.apply db.invitation_revision
    email_proof := c.email_proof.apply db.email_proof
    acceptance := c.acceptance.apply db.acceptance
    initial_credential_flow := c.initial_credential_flow.apply db.initial_credential_flow
    invitation_intent := c.invitation_intent.apply db.invitation_intent
    bootstrap_activation := c.bootstrap_activation.apply db.bootstrap_activation }

end Changes

namespace AccessStore

variable (db : AccessStore)

/-- Primary keys and unique columns. -/
def unique : Bool :=
  decide ((db.account.map (·.id)).Nodup ∧ (db.account.map (·.email)).Nodup ∧
    (db.account.filterMap (·.office)).Nodup ∧ (db.grant_record.map (·.id)).Nodup ∧
    (db.flow.map (·.digest)).Nodup ∧ (db.session.map (·.digest)).Nodup ∧
    (db.proof.map (·.id)).Nodup ∧ (db.intent.map fun i => (i.binding, i.intention)).Nodup ∧
    (db.throttle.map (·.key)).Nodup ∧ (db.invitation.map (·.id)).Nodup ∧
    (db.invitation_revision.map fun r => (r.invitation_id, r.revision)).Nodup ∧
    (db.email_proof.map (·.id)).Nodup ∧ (db.acceptance.map (·.id)).Nodup ∧
    (db.acceptance.map (·.invitation_id)).Nodup ∧ (db.acceptance.map (·.proof_id)).Nodup ∧
    (db.initial_credential_flow.map (·.flow_digest)).Nodup ∧
    (db.invitation_intent.map fun i => (i.principal, i.route, i.intention)).Nodup ∧
    (db.invitation_intent.map (·.operation_id)).Nodup ∧
    (db.bootstrap_activation.map (·.account_id)).Nodup ∧
    (db.bootstrap_activation.map (·.declaration_id)).Nodup ∧
    (db.bootstrap_activation.map (·.evidence_id)).Nodup)

/-- Foreign keys. -/
def referenced : Bool :=
  decide ((∀ g ∈ db.grant_record, g.account_id ∈ db.account.map (·.id) ∧
      g.permission_id ∈ db.permission_definition.map (·.id) ∧
      g.scope_ref ∈ db.scope_definition.map (·.id) ∧
      g.support_ref ∈ db.support_definition.map (·.id) ∧
      ∀ id ∈ g.acceptance_id, id ∈ db.acceptance.map (·.id)) ∧
    (∀ s ∈ db.support_definition, ∀ id ∈ s.authority_id, id ∈ db.grant_record.map (·.id)) ∧
    (∀ s ∈ db.session, s.account_id ∈ db.account.map (·.id)) ∧
    (∀ i ∈ db.invitation, i.issuer_id ∈ db.account.map (·.id)) ∧
    (∀ r ∈ db.invitation_revision, r.invitation_id ∈ db.invitation.map (·.id)) ∧
    (∀ p ∈ db.email_proof, p.flow_digest ∈ db.flow.map (·.digest) ∧
      ∀ id ∈ p.invitation_id, id ∈ db.invitation.map (·.id)) ∧
    (∀ a ∈ db.acceptance,
      (a.invitation_id, a.revision) ∈
        db.invitation_revision.map (fun r => (r.invitation_id, r.revision)) ∧
      a.account_id ∈ db.account.map (·.id) ∧ a.proof_id ∈ db.email_proof.map (·.id)) ∧
    ∀ f ∈ db.initial_credential_flow, f.flow_digest ∈ db.flow.map (·.digest) ∧
      f.account_id ∈ db.account.map (·.id) ∧ f.acceptance_id ∈ db.acceptance.map (·.id))

/-- `check_master_creation`: a new account is the admitted master, or an invitation's. -/
def admitsAccount (a : AccountRow) : Bool :=
  if a.office == some "master" then
    a.verifier.isSome && a.origin_invitation_id.isNone && db.deployment.active &&
      db.deployment.master_email == a.email &&
      db.deployment.root.holderPersonRef == some a.person_ref
  else
    a.office.isNone && db.deployment.master_email != a.email &&
      db.invitation.any fun i =>
        a.origin_invitation_id == some i.id && i.email == a.email && i.state == .pending

/-- Serialisation first, then the keys, then the references. The trigger on accounts looks at
the invitations the transaction itself sees, which an acceptance has not yet updated. -/
def commit (changes : Changes) : Except Refusal AccessStore :=
  let next := changes.apply db
  if !changes.fits db then .error .conflict
  else if !changes.account.inserted.all db.admitsAccount then .error .violation
  else if !next.unique then .error .conflict
  else if !next.referenced then .error .violation
  else .ok next

/-- The rows `InvitationAuthority` loads. -/
def authority : Authority where
  accounts := db.account.map (·.toAccount)
  permissions := db.permission_definition
  scopes := db.scope_definition
  supports := db.support_definition
  grants := db.grant_record.map (·.toGrantRecord)
  investitures := db.investiture
  rules := db.incompatibility
  revalidationEvents := db.revalidation_event
  resolutions := db.investiture_resolution

def accountOf (email : String) : Option AccountRow := db.account.find? fun a => a.email == email

def accountWith (id : String) : Option AccountRow := db.account.find? fun a => a.id == id

def flowWith (digest : String) : Option FlowRow := db.flow.find? fun f => f.digest == digest

def sessionWith (digest : String) : Option SessionRow := db.session.find? fun s => s.digest == digest

def proofWith (id : String) : Option ProofRow := db.proof.find? fun p => p.id == id

def invitationWith (id : String) : Option InvitationRow := db.invitation.find? fun i => i.id == id

def revisionOf (invitation_id : String) (revision : Nat) : Option InvitationRevision :=
  db.invitation_revision.find? fun r => r.invitation_id == invitation_id && r.revision == revision

def emailProofWith (id : String) : Option EmailProof := db.email_proof.find? fun p => p.id == id

def grantWith (id : String) : Option GrantRow := db.grant_record.find? fun g => g.id == id

end AccessStore

end LedgerDesk.Access
