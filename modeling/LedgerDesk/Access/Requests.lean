import LedgerDesk.Access.Store

/-!
# Requests

The routes that write, with their bodies, the canonical text of an intention, and the
pieces of a transaction that every route shares.
-/
namespace LedgerDesk.Access

open Foundation

inductive AccessError where
  | unauthenticated
  | forbidden
  | invalid_request
  | revision_conflict
  | rate_limited
  | unavailable
  | technical_failure
  deriving DecidableEq, Repr

/-- A route with its path parameters and its body, as `validateAccess` lets them pass. -/
inductive Body where
  | reception
  | activation_challenge (email : String)
  | activate_master (challenge_id code password : String)
  | login (email password : String)
  | logout
  | recovery_challenge (email : String)
  | recover_credential (challenge_id code password : String)
  | issue_invitation (email : String) (family : Family) (grants : List GrantSelector)
      (expires_at : Int)
  | amend_invitation (invitation_id : String) (expected_revision : Nat)
      (grants : List GrantSelector)
  | invitation_challenge (invitation_id : String)
  | verify_invitation_email (challenge_id code : String)
  | accept_invitation (invitation_id : String) (expected_revision : Nat) (proof_id : String)
  | initial_credential (password : String)
  | withdraw_invitation (invitation_id : String) (expected_revision : Nat) (reason : String)
  | withdraw_grant (grant_id : String) (expected_revision : Nat) (reason : String)
  deriving DecidableEq, Repr

structure Input where
  body : Body
  session : Option String
  flow : Option String
  csrf : Option String
  intent : Option String
  peer : String
  deriving DecidableEq, Repr

/-- What a request draws: its operation, the other identifiers, the secrets, and the verifier
the password makes. -/
structure Chance where
  operation : String
  ids : Nat → String
  secrets : Nat → String
  verifier : String

structure AccessSecurity where
  sessionSeconds : Nat
  proofSeconds : Nat
  invitationSeconds : Nat
  proofAttempts : Nat
  loginAttempts : Nat
  attemptWindowSeconds : Nat
  resendSeconds : Nat
  resendLimit : Nat
  retryLimit : Nat
  deriving DecidableEq, Repr

/-- The keyed digest and the password check are libraries of the service. -/
structure AccessConfig where
  security : AccessSecurity
  digest : String → String
  passwordMatches : Option String → String → Bool

namespace Body

def route : Body → String
  | .reception => "reception"
  | .activation_challenge _ => "activation_challenge"
  | .activate_master _ _ _ => "activate_master"
  | .login _ _ => "login"
  | .logout => "logout"
  | .recovery_challenge _ => "recovery_challenge"
  | .recover_credential _ _ _ => "recover_credential"
  | .issue_invitation _ _ _ _ => "issue_invitation"
  | .amend_invitation _ _ _ => "amend_invitation"
  | .invitation_challenge _ => "invitation_challenge"
  | .verify_invitation_email _ _ => "verify_invitation_email"
  | .accept_invitation _ _ _ => "accept_invitation"
  | .initial_credential _ => "initial_credential"
  | .withdraw_invitation _ _ _ => "withdraw_invitation"
  | .withdraw_grant _ _ _ => "withdraw_grant"

def path : Body → String
  | .reception => "/api/access/v1/reception"
  | .activation_challenge _ => "/api/access/v1/activation/challenges"
  | .activate_master _ _ _ => "/api/access/v1/activation/complete"
  | .login _ _ => "/api/access/v1/sessions"
  | .logout => "/api/access/v1/sessions/logout"
  | .recovery_challenge _ => "/api/access/v1/recovery/challenges"
  | .recover_credential _ _ _ => "/api/access/v1/recovery/complete"
  | .issue_invitation _ _ _ _ => "/api/access/v1/invitations"
  | .amend_invitation _ _ _ => "/api/access/v1/invitations/:invitation_id/amend"
  | .invitation_challenge _ => "/api/access/v1/invitations/:invitation_id/challenges"
  | .verify_invitation_email _ _ => "/api/access/v1/invitation-proofs/:challenge_id/verify"
  | .accept_invitation _ _ _ => "/api/access/v1/invitations/:invitation_id/accept"
  | .initial_credential _ => "/api/access/v1/account/initial-credential"
  | .withdraw_invitation _ _ _ => "/api/access/v1/invitations/:invitation_id/withdraw"
  | .withdraw_grant _ _ _ => "/api/access/v1/grants/:grant_id/withdraw"

def parameters : Body → List (String × String)
  | .amend_invitation id _ _ | .invitation_challenge id | .accept_invitation id _ _
  | .withdraw_invitation id _ _ => [("invitation_id", id)]
  | .verify_invitation_email id _ => [("challenge_id", id)]
  | .withdraw_grant id _ _ => [("grant_id", id)]
  | _ => []

/-- The routes of `performInvitation`. -/
def invites : Body → Bool
  | .issue_invitation _ _ _ _ | .amend_invitation _ _ _ | .invitation_challenge _
  | .verify_invitation_email _ _ | .accept_invitation _ _ _ | .initial_credential _
  | .withdraw_invitation _ _ _ | .withdraw_grant _ _ _ => true
  | _ => false

/-- What the service receives under the exclusive admission. -/
def exclusive : Body → Bool
  | .logout | .recover_credential _ _ _ | .amend_invitation _ _ _ | .withdraw_invitation _ _ _
  | .withdraw_grant _ _ _ | .initial_credential _ => true
  | _ => false

def administrative : Body → Bool
  | .issue_invitation _ _ _ _ | .amend_invitation _ _ _ | .withdraw_invitation _ _ _
  | .withdraw_grant _ _ _ => true
  | _ => false

def provisionalOnly : Body → Bool
  | .invitation_challenge _ | .verify_invitation_email _ _ | .initial_credential _ => true
  | _ => false

def privateLookup : Body → Bool
  | .invitation_challenge _ | .verify_invitation_email _ _ => true
  | _ => false

def email : Body → Option String
  | .activation_challenge email | .login email _ | .recovery_challenge email
  | .issue_invitation email _ _ _ => some email
  | _ => none

end Body

/-! ### Canonical texts -/

def Family.text : Family → String
  | .application => "application"
  | .material_governance => "material_governance"

def Faculty.text : Faculty → String
  | .exercise => "exercise"
  | .grant => "grant"

def SupportKind.text : SupportKind → String
  | .domain => "domain"
  | .delegated => "delegated"

def GrantSelector.members (g : GrantSelector) : List (String × Value) :=
  [("permission_id", .text g.permission_id), ("exercise_or_grant", .text g.exercise_or_grant.text),
    ("scope_ref", .text g.scope_ref), ("support_ref", .text g.support_ref)]

def DeclarationRef.value (d : DeclarationRef) : Value :=
  .object [("declaration_ref", .text d.declaration_ref), ("revision", .integer d.revision),
    ("accreditation", .text "not_externally_accredited")]

def InvitationTerm.value (t : InvitationTerm) : Value :=
  .object (t.toGrantSelector.members ++
    [("permission_label", .text t.permission_label), ("scope_label", .text t.scope_label),
      ("purpose_ref", .text t.purpose_ref), ("support_label", .text t.support_label),
      ("continuity", .text t.continuity.text),
      ("permission_revision", .integer t.permission_revision),
      ("scope_revision", .integer t.scope_revision),
      ("support_revision", .integer t.support_revision), ("expires_at", .integer t.expires_at),
      ("authority_declarations", .array (t.authority_declarations.map DeclarationRef.value))])

def termsValue (terms : List InvitationTerm) : Value := .array (terms.map InvitationTerm.value)

theorem Faculty.text_injective {f f' : Faculty} (same : f.text = f'.text) : f = f' := by
  cases f <;> cases f' <;> simp [text] at same ⊢

theorem SupportKind.text_injective {k k' : SupportKind} (same : k.text = k'.text) : k = k' := by
  cases k <;> cases k' <;> simp [text] at same ⊢

theorem DeclarationRef.value_injective {d d' : DeclarationRef}
    (same : d.value.sorted = d'.value.sorted) : d = d' := by
  have members := members_of_sorted_object (by rfl) (by simp) same
  obtain ⟨declaration_ref, revision⟩ := d
  obtain ⟨declaration_ref', revision'⟩ := d'
  simpa [Value.sorted, Int.ofNat_inj] using members

theorem InvitationTerm.value_injective {t t' : InvitationTerm}
    (same : t.value.sorted = t'.value.sorted) : t = t' := by
  have members := members_of_sorted_object (by rfl) (by simp [GrantSelector.members]) same
  obtain ⟨⟨permission_id, faculty, scope_ref, support_ref⟩, _, _, _, _, continuity, _, _, _, _,
    declarations⟩ := t
  obtain ⟨⟨permission_id', faculty', scope_ref', support_ref'⟩, _, _, _, _, continuity', _, _, _,
    _, declarations'⟩ := t'
  simp only [GrantSelector.members, List.cons_append, List.nil_append, List.map_cons, List.map_nil,
    List.cons.injEq, Prod.mk.injEq, true_and, and_true, Value.sorted, Value.text.injEq,
    Value.integer.injEq, Value.array.injEq, Value.sortedItems_eq_map, List.map_map,
    Int.ofNat_inj] at members
  obtain ⟨rfl, faculties, rfl, rfl, rfl, rfl, rfl, rfl, kinds, rfl, rfl, rfl, rfl, refs⟩ := members
  have declared : declarations = declarations' := List.map_injective_iff.mpr
    (fun d d' values => DeclarationRef.value_injective values) refs
  rw [Faculty.text_injective faculties, SupportKind.text_injective kinds, declared]

/-- Terms of one canonical text are the same terms. -/
theorem termsValue_injective {terms terms' : List InvitationTerm}
    (same : canonicalValue (termsValue terms) = canonicalValue (termsValue terms')) :
    terms = terms' := by
  have items := items_of_sorted_array (sorted_of_canonicalValue same)
  rw [List.map_map, List.map_map] at items
  exact List.map_injective_iff.mpr (fun t t' values => InvitationTerm.value_injective values) items

def Body.value : Body → Value
  | .reception | .logout | .invitation_challenge _ => .object []
  | .activation_challenge email | .recovery_challenge email => .object [("email", .text email)]
  | .login email password => .object [("email", .text email), ("password", .text password)]
  | .activate_master challenge_id code password
  | .recover_credential challenge_id code password =>
    .object [("challenge_id", .text challenge_id), ("code", .text code),
      ("password", .text password)]
  | .issue_invitation email family grants expires_at =>
    .object [("email", .text email), ("family", .text family.text),
      ("grants", .array (grants.map fun g => .object g.members)),
      ("expires_at", .integer expires_at)]
  | .amend_invitation _ expected_revision grants =>
    .object [("expected_revision", .integer expected_revision),
      ("grants", .array (grants.map fun g => .object g.members))]
  | .verify_invitation_email _ code => .object [("code", .text code)]
  | .accept_invitation _ expected_revision proof_id =>
    .object [("expected_revision", .integer expected_revision), ("proof_id", .text proof_id)]
  | .initial_credential password => .object [("password", .text password)]
  | .withdraw_invitation _ expected_revision reason | .withdraw_grant _ expected_revision reason =>
    .object [("expected_revision", .integer expected_revision), ("reason", .text reason)]

def canonicalIntent (body : Body) : String :=
  canonicalValue (.object
    [("profile", .text "canon_m09_1"), ("contract", .text "access/1"),
      ("variant", .text body.route),
      ("path", .object [("template", .text body.path),
        ("parameters", .object (body.parameters.map fun p => (p.1, .text p.2)))]),
      ("query", .object []), ("body", body.value)])

/-! ### Transactions -/

abbrev Answer := Except AccessError Receipt

/-- A refusal, with what it commits all the same. -/
structure Failure where
  error : AccessError
  changes : Changes := {}

/-- An effect with the instants it may not be committed from. -/
structure Effect where
  receipt : Receipt
  changes : Changes := {}
  deadlines : List Int := []

abbrev Attempt := Except Failure Effect

def require (condition : Bool) (error : AccessError) : Except Failure Unit :=
  if condition then .ok () else .error ⟨error, {}⟩

def present {α : Type} (value : Option α) (error : AccessError) : Except Failure α :=
  match value with
  | some value => .ok value
  | none => .error ⟨error, {}⟩

def Attempt.evaluation : Attempt → Evaluation Changes Answer
  | .ok effect => ⟨.ok effect.receipt, effect.changes, some (deadline effect.deadlines)⟩
  | .error failure => ⟨.error failure.error, failure.changes, none⟩

theorem bind_eq_ok {α β : Type} {x : Except Failure α} {f : α → Except Failure β} {b : β}
    (bound : (x >>= f) = .ok b) : ∃ a, x = .ok a ∧ f a = .ok b := by
  cases x with
  | error failure => cases bound
  | ok a => exact ⟨a, rfl, bound⟩

theorem bind_eq_error {α β : Type} {x : Except Failure α} {f : α → Except Failure β} {e : Failure}
    (bound : (x >>= f) = .error e) : x = .error e ∨ ∃ a, x = .ok a ∧ f a = .error e := by
  cases x with
  | error failure =>
    cases bound
    exact .inl rfl
  | ok a => exact .inr ⟨a, rfl, bound⟩

theorem require_eq_ok {condition : Bool} {error : AccessError} {u : Unit}
    (passed : require condition error = .ok u) : condition = true := by
  cases condition with
  | true => rfl
  | false => cases passed

theorem require_eq_error {condition : Bool} {error : AccessError} {e : Failure}
    (failed : require condition error = .error e) : e = ⟨error, {}⟩ := by
  cases condition with
  | true => cases failed
  | false => exact (Except.error.inj failed).symm

theorem present_eq_ok {α : Type} {value : Option α} {error : AccessError} {a : α}
    (passed : present value error = .ok a) : value = some a := by
  cases value with
  | some value => exact congrArg some (Except.ok.inj passed)
  | none => cases passed

theorem present_eq_error {α : Type} {value : Option α} {error : AccessError} {e : Failure}
    (failed : present value error = .error e) : e = ⟨error, {}⟩ := by
  cases value with
  | some value => cases failed
  | none => exact (Except.error.inj failed).symm

def tokenChar (c : Char) : Bool := c.isAlphanum || c == '_' || c == '-'

/-- `/^[A-Za-z0-9_-]{43}$/`. -/
def isToken (value : String) : Bool := value.toList.length == 43 && value.toList.all tokenChar

def tokenMatches (value : Option String) (expected : String) : Bool :=
  value.any fun token => isToken token && isToken expected && token == expected

/-- The row of a key, counted once more, unless its window is spent or it comes too soon. -/
def throttle (rows : List ThrottleRow) (now : Int) (key : String) (limit window : Nat)
    (spacing : Nat) : Option (Change ThrottleRow) :=
  match rows.find? fun r => r.key == key with
  | none => some (.insert [⟨key, 1, now, now⟩])
  | some r =>
    let fresh : Bool := now - r.window_start ≥ window * 1000
    if !fresh && (r.count ≥ limit || now - r.last_at < spacing * 1000) then none
    else
      some (.update rows (fun r => r.key == key) fun _ =>
        if fresh then ⟨key, 1, now, now⟩ else ⟨key, r.count + 1, r.window_start, now⟩)

namespace Deployment

variable (control : Deployment)

/-- `root.termination.at`. -/
def rootUntil : Int :=
  match control.root.termination with
  | .expires (some at_) => at_
  | _ => 0

def rootValid (now : Int) : Bool :=
  refField control.root.holderPersonRef && declarationWellFormed control.root &&
    control.root.revision.any (fun r => isSafeInteger r && 0 < r) &&
    control.root.startsAt.any (fun startsAt => isSafeInteger startsAt && startsAt ≤ now) &&
    match control.root.termination with
    | .expires (some at_) => isSafeInteger at_ && now < at_
    | _ => false

def receptionValid : Bool :=
  let p := control.reception
  [p.purposeRef, p.custodianRef, p.readerRef, p.disposalRef].all refField &&
    p.destination == "local-test-mailbox" && p.synthetic && p.capture && p.processing &&
    p.conservation && p.evidence &&
    p.retentionSeconds.any fun s => isSafeInteger s && 0 < s && s ≤ 86400

/-- `/^[^\s@]+@[^\s@]+\.test$/`. -/
def isTrialEmail (email : String) : Bool :=
  let plain := fun c : Char => !c.isWhitespace && c != '@'
  match email.toList.span (· != '@') with
  | (name, '@' :: domain) =>
    !name.isEmpty && name.all plain && domain.all plain && ".test".toList.isSuffixOf domain &&
      5 < domain.length
  | _ => false

def startupAllowed (now : Int) : Bool :=
  control.active && control.deployment_id == "inc02-synthetic" &&
    isTrialEmail control.master_email && control.rootValid now && control.receptionValid

end Deployment

/-- A valid session with its account. -/
def currentSession (db : AccessStore) (config : AccessConfig) (now : Int) (input : Input) :
    Option (SessionRow × AccountRow) :=
  (input.session.bind fun token => db.sessionWith (config.digest token)).bind fun s =>
    (db.accountWith s.account_id).bind fun a =>
      if s.revoked || a.restricted || s.revision != a.revision || s.expires_at ≤ now then none
      else some (s, a)

def currentFlow (db : AccessStore) (config : AccessConfig) (now : Int) (input : Input) :
    Option FlowRow :=
  (input.flow.bind fun token => db.flowWith (config.digest token)).filter fun f => now < f.expires_at

end LedgerDesk.Access
