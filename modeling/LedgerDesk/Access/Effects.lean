import LedgerDesk.Access.Service

/-!
# What a request can write

Whatever a request answers, what it does to accounts, grants, invitations, their revisions,
acceptances and email proofs is one of a few things, each with what was checked for it.
-/
namespace LedgerDesk.Access

open Foundation

/-- The changes to the tables an invitation runs through. -/
structure CoreChanges where
  account : Change AccountRow := .keep
  grant_record : Change GrantRow := .keep
  invitation : Change InvitationRow := .keep
  invitation_revision : Change InvitationRevision := .keep
  acceptance : Change Acceptance := .keep
  email_proof : Change EmailProof := .keep

def Changes.core (c : Changes) : CoreChanges where
  account := c.account
  grant_record := c.grant_record
  invitation := c.invitation
  invitation_revision := c.invitation_revision
  acceptance := c.acceptance
  email_proof := c.email_proof

/-- A proof stays one of its invitation and its flow, and used once it is used. -/
def ProofsKept (c : Change EmailProof) : Prop :=
  ∀ u ∈ c.replaced, u.2.id = u.1.id ∧ u.2.invitation_id = u.1.invitation_id ∧
    u.2.flow_digest = u.1.flow_digest ∧ (u.1.used = true → u.2.used = true)

section Effects

variable (config : AccessConfig) (db : AccessStore) (now : Int)

/-- What an acceptance has been checked for. -/
structure Accepts (e : Eligible) : Prop where
  inv : e.inv ∈ db.invitation
  pending : e.inv.state = .pending
  unexpired : now < e.inv.expires_at
  current : e.current ∈ db.invitation_revision
  current_of : e.current.invitation_id = e.inv.id ∧ e.current.revision = e.inv.revision
  proof : e.proof ∈ db.email_proof
  proof_of : e.proof.invitation_id = some e.inv.id ∧ e.proof.verified = true ∧
    e.proof.superseded = false ∧ now < e.proof.expires_at
  unused : e.proof.used = false
  compiled : (db.authority.compile now (db.authority.account e.inv.issuer_id) e.inv.family
    e.current.grants).terms = some e.terms
  terms : e.terms = e.current.terms
  person : e.personRef = person config db e.inv.email
  separated : (db.authority.incompatible now e.personRef e.current.grants).holds = false
  target : e.target = db.accountOf e.inv.email
  open_ : ∀ t ∈ e.target, t.restricted = false ∧ t.office ≠ some "master"

/-- The account the accepted grants go to. -/
def Eligible.accountId (e : Eligible) (fresh : String) : String := (e.target.map (·.id)).getD fresh

def Eligible.newAccount (e : Eligible) (fresh : String) : List AccountRow :=
  if e.target.isSome then []
  else [⟨⟨fresh, e.personRef, false, 1, none⟩, e.inv.email, none, some e.inv.id⟩]

def acceptChanges (e : Eligible) (operation : String) (ids : Nat → String) : CoreChanges where
  account := .insert (e.newAccount (ids 0))
  acceptance := .insert
    [⟨operation, e.inv.id, e.inv.revision, e.accountId (ids 0), e.proof.id, now⟩]
  grant_record := .insert (acceptedGrants (e.accountId (ids 0)) operation ids e.terms 1)
  invitation := .update db.invitation (fun i => i.id == e.inv.id)
    fun i => { i with state := .accepted, accepted_at := some now }
  email_proof := .update db.email_proof (fun p => p.id == e.proof.id) fun p => { p with used := true }

/-- The store as the bootstrap of a new master sees it. -/
def withAccount (account : AccountRow) : AccessStore := { db with account := db.account ++ [account] }

/-- What the bootstrap of a new master has been checked for. -/
structure Boots (account : AccountRow) (faculties : List InitialFaculty) : Prop where
  separated : ((withAccount db account).authority.incompatible now account.person_ref
    (faculties.map (·.toGrantSelector))).holds = false

/-- What a request does to the core tables, and why, with the instants it has to be committed
before. -/
inductive Writes (body : Body) (deadlines : List Int) (c : CoreChanges) : Prop
  | proofs (email_proof : Change EmailProof) (kept : ProofsKept email_proof)
    (same : c = { email_proof })
  | issues (inv : InvitationRow) (r : InvitationRevision) (pending : inv.state = .pending)
    (same : c = { invitation := .insert [inv], invitation_revision := .insert [r] })
  | amends (inv : InvitationRow) (r : InvitationRevision) (member : inv ∈ db.invitation)
    (pending : inv.state = .pending)
    (same : c =
      { invitation_revision := .insert [r]
        invitation := .update db.invitation (fun i => i.id == inv.id)
          fun i => { i with revision := inv.revision + 1 } })
  | withdraws (inv : InvitationRow) (member : inv ∈ db.invitation) (pending : inv.state = .pending)
    (same : c =
      { invitation := .update db.invitation (fun i => i.id == inv.id)
          fun i => { i with state := .withdrawn, withdrawn_at := some now } })
  | accepts (e : Eligible) (accepts : Accepts config db now e) (operation : String)
    (ids : Nat → String) (invitation_id : String)
    (requested : body = .accept_invitation invitation_id e.inv.revision e.proof.id)
    (ends : e.inv.expires_at ∈ deadlines ∧ e.proof.expires_at ∈ deadlines)
    (same : c = acceptChanges db now e operation ids)
  | credential (target : AccountRow) (verifier : String)
    (same : c =
      { account := .update db.account (fun a => a.id == target.id)
          fun a => { a with verifier := some verifier, revision := a.revision + 1 } })
  | withdrawsGrant (g : GrantRecord)
    (same : c =
      { grant_record := .update db.grant_record (fun r => r.id == g.id)
          fun r => { r with withdrawn := true, revision := r.revision + 1 } })
  | activates (account : AccountRow) (faculties : List InitialFaculty)
    (boots : Boots db now account faculties) (ids : Nat → String)
    (same : c =
      { account := .insert [account]
        grant_record := .insert (bootstrapGrants account.id ids faculties 1) })

end Effects

theorem proofsKept_keep : ProofsKept .keep := by
  intro u member
  cases member

theorem proofsKept_update (rows : List EmailProof) (chosen : EmailProof → Bool)
    {set : EmailProof → EmailProof} (kept : ∀ p, (set p).id = p.id ∧
      (set p).invitation_id = p.invitation_id ∧ (set p).flow_digest = p.flow_digest ∧
      (p.used = true → (set p).used = true)) : ProofsKept (.update rows chosen set) := by
  intro u member
  obtain ⟨-, -, same⟩ := Change.mem_replaced_update.mp member
  rw [same]
  exact kept u.1

variable {config : AccessConfig} {db : AccessStore} {now : Int}

theorem writes_nothing {body : Body} {deadlines : List Int} :
    Writes config db now body deadlines {} :=
  .proofs .keep proofsKept_keep rfl

theorem Writes.mono {body : Body} {deadlines deadlines' : List Int} {c : CoreChanges}
    (writes : Writes config db now body deadlines c) (within : deadlines ⊆ deadlines') :
    Writes config db now body deadlines' c := by
  cases writes with
  | proofs email_proof kept same => exact .proofs email_proof kept same
  | issues inv r pending same => exact .issues inv r pending same
  | amends inv r member pending same => exact .amends inv r member pending same
  | withdraws inv member pending same => exact .withdraws inv member pending same
  | accepts e accepts operation ids id requested ends same =>
    exact .accepts e accepts operation ids id requested ⟨within ends.1, within ends.2⟩ same
  | credential target verifier same => exact .credential target verifier same
  | withdrawsGrant g same => exact .withdrawsGrant g same
  | activates account faculties boots ids same => exact .activates account faculties boots ids same

/-! ### Acceptance -/

theorem acceptanceProof_some {flow : Option FlowRow} {proof_id : String} {p : EmailProof × String}
    (found : acceptanceProof db now flow proof_id = some p) :
    p.1 ∈ db.email_proof ∧ p.1.verified = true ∧ p.1.superseded = false ∧ now < p.1.expires_at := by
  simp only [acceptanceProof, bind, pure, Option.bind_eq_some_iff, Option.some.injEq] at found
  obtain ⟨f, -, q, chosen, i, -, rfl⟩ := found
  have holds := List.find?_some chosen
  simp only [Bool.and_eq_true, Bool.not_eq_true', decide_eq_true_eq] at holds
  exact ⟨List.mem_of_find?_eq_some chosen, holds.1.1.2, holds.1.2, holds.2⟩

theorem invitationWith_some {id : String} {inv : InvitationRow}
    (found : db.invitationWith id = some inv) : inv ∈ db.invitation ∧ inv.id = id := by
  refine ⟨List.mem_of_find?_eq_some found, ?_⟩
  simpa using List.find?_some found

theorem revisionOf_some {id : String} {revision : Nat} {r : InvitationRevision}
    (found : db.revisionOf id revision = some r) :
    r ∈ db.invitation_revision ∧ r.invitation_id = id ∧ r.revision = revision := by
  refine ⟨List.mem_of_find?_eq_some found, ?_⟩
  simpa using List.find?_some found

variable {found : Discovery} {input : Input} {chance : Chance} {body : Body}

theorem context_inv {inv : InvitationRow}
    (present : (invitationContext config db now found input).inv = some inv) :
    inv ∈ db.invitation := by
  obtain ⟨id, -, located⟩ := Option.bind_eq_some_iff.mp present
  exact (invitationWith_some located).1

theorem context_current {inv : InvitationRow} {r : InvitationRevision}
    (present : (invitationContext config db now found input).inv = some inv)
    (current : (invitationContext config db now found input).current = some r) :
    r ∈ db.invitation_revision ∧ r.invitation_id = inv.id ∧ r.revision = inv.revision := by
  have bound : (invitationContext config db now found input).current =
      (invitationContext config db now found input).inv.bind fun i => db.revisionOf i.id i.revision :=
    rfl
  rw [bound, present] at current
  exact revisionOf_some current

theorem context_issuer {inv : InvitationRow}
    (present : (invitationContext config db now found input).inv = some inv) :
    (invitationContext config db now found input).issuer = db.authority.account inv.issuer_id := by
  have bound : (invitationContext config db now found input).issuer =
      (invitationContext config db now found input).inv.bind fun i =>
        db.authority.account i.issuer_id := rfl
  rw [bound, present]
  rfl

theorem acceptanceEligibility_ok {invitation_id proof_id : String} {expected_revision : Nat}
    {e : Eligible} (accepting : input.body = .accept_invitation invitation_id expected_revision proof_id)
    (eligible : acceptanceEligibility config db (invitationContext config db now found input)
      proof_id expected_revision = .ok e) :
    Accepts config db now e ∧ e.inv.revision = expected_revision ∧ e.proof.id = proof_id ∧
      e.inv.expires_at ∈ e.deadlines ∧ e.proof.expires_at ∈ e.deadlines := by
  rw [acceptanceEligibility] at eligible
  obtain ⟨inv, inv_some, eligible⟩ := bind_eq_ok eligible
  obtain ⟨current, current_some, eligible⟩ := bind_eq_ok eligible
  obtain ⟨_, _, eligible⟩ := bind_eq_ok eligible
  obtain ⟨⟨proof, email⟩, proof_some, eligible⟩ := bind_eq_ok eligible
  obtain ⟨_, named, eligible⟩ := bind_eq_ok eligible
  obtain ⟨_, revision, eligible⟩ := bind_eq_ok eligible
  obtain ⟨_, open_, eligible⟩ := bind_eq_ok eligible
  obtain ⟨terms, terms_some, eligible⟩ := bind_eq_ok eligible
  obtain ⟨_, same, eligible⟩ := bind_eq_ok eligible
  obtain ⟨_, separated, eligible⟩ := bind_eq_ok eligible
  obtain ⟨_, target, eligible⟩ := bind_eq_ok eligible
  cases eligible
  have inv_eq := present_eq_ok inv_some
  have current_eq := present_eq_ok current_some
  have proof_eq := present_eq_ok proof_some
  have named := require_eq_ok named
  have open_ := require_eq_ok open_
  have compiled := present_eq_ok terms_some
  simp only [Bool.and_eq_true, Bool.not_eq_true', beq_iff_eq, decide_eq_true_eq] at named open_
  have accepted : (invitationContext config db now found input).proof =
      acceptanceProof db now (currentFlow db config now input) proof_id := by
    simp only [invitationContext, accepting]
  rw [accepted] at proof_eq
  obtain ⟨stands, verified, fresh, lasts⟩ := acceptanceProof_some proof_eq
  simp only [currentTerms, inv_eq, current_eq, context_issuer inv_eq] at compiled
  refine ⟨?_, by simpa using require_eq_ok revision, named.1.1.1, by simp, by simp⟩
  exact {
    inv := context_inv inv_eq
    pending := open_.1.1
    unexpired := open_.1.2
    current := (context_current inv_eq current_eq).1
    current_of := (context_current inv_eq current_eq).2
    proof := stands
    proof_of := ⟨named.1.1.2, verified, fresh, lasts⟩
    unused := named.1.2
    compiled := compiled
    terms := termsValue_injective (by simpa using require_eq_ok same)
    person := rfl
    separated := by
      have checked := require_eq_ok separated
      rwa [Bool.not_eq_true'] at checked
    target := rfl
    open_ := by
      intro t member
      have checked := require_eq_ok target
      rw [show db.accountOf inv.email = some t from member] at checked
      simpa using checked }

/-! ### Refusals -/

/-- A refusal leaves the core tables as they are, but for the attempts of a proof. -/
def Refuses (f : Failure) : Prop :=
  ∃ email_proof, ProofsKept email_proof ∧ f.changes.core = { email_proof }

/-- Where it fails, it refuses. -/
def Modest {α : Type} (x : Except Failure α) : Prop := ∀ f, x = .error f → Refuses f

/-- What holds of all that a refusal may commit: nothing, or what it counted. -/
structure Tolerates (P : Changes → Prop) : Prop where
  plain : P {}
  throttle : ∀ throttle, P { throttle }
  proof : ∀ proof, P { proof }
  email_proof : ∀ email_proof, ProofsKept email_proof → P { email_proof }

/-- Where it fails, it commits no more than that. -/
def Within {α : Type} (P : Changes → Prop) (x : Except Failure α) : Prop :=
  ∀ f, x = .error f → P f.changes

theorem tolerates_refusals :
    Tolerates fun c => ∃ email_proof, ProofsKept email_proof ∧ c.core = { email_proof } where
  plain := ⟨.keep, proofsKept_keep, rfl⟩
  throttle _ := ⟨.keep, proofsKept_keep, rfl⟩
  proof _ := ⟨.keep, proofsKept_keep, rfl⟩
  email_proof email_proof kept := ⟨email_proof, kept, rfl⟩

section Refusals

variable {P : Changes → Prop}

theorem within_error {α : Type} {f : Failure} (allowed : P f.changes) :
    Within P (.error f : Except Failure α) := by
  rintro f ⟨⟩
  exact allowed

theorem within_ok {α : Type} (a : α) : Within P (.ok a : Except Failure α) := by
  rintro f ⟨⟩

theorem within_then {α β : Type} {x : Except Failure α} {f : α → Except Failure β}
    (first : Within P x) (rest : ∀ a, Within P (f a)) : Within P (x >>= f) := by
  intro e failed
  rcases bind_eq_error failed with failed | ⟨a, -, failed⟩
  · exact first e failed
  · exact rest a e failed

variable (tolerates : Tolerates P)
include tolerates

theorem within_require (condition : Bool) (error : AccessError) :
    Within P (require condition error) := by
  intro f failed
  rw [require_eq_error failed]
  exact tolerates.plain

theorem within_present {α : Type} (value : Option α) (error : AccessError) :
    Within P (present value error) := by
  intro f failed
  rw [present_eq_error failed]
  exact tolerates.plain

omit tolerates in
theorem Tolerates.require {β : Type} {condition : Bool} {error : AccessError}
    {f : Unit → Except Failure β} (tolerates : Tolerates P) (rest : ∀ a, Within P (f a)) :
    Within P (require condition error >>= f) :=
  within_then (within_require tolerates condition error) rest

omit tolerates in
theorem Tolerates.present {α β : Type} {value : Option α} {error : AccessError}
    {f : α → Except Failure β} (tolerates : Tolerates P) (rest : ∀ a, Within P (f a)) :
    Within P (present value error >>= f) :=
  within_then (within_present tolerates value error) rest

theorem within_managesInvitation (ctx : InvitationContext) : Within P (managesInvitation db ctx) :=
  tolerates.present fun _ => tolerates.present fun _ => tolerates.present fun _ =>
    tolerates.require fun _ => tolerates.present fun _ => within_ok _

theorem within_acceptanceEligibility (ctx : InvitationContext) (proof_id : String)
    (expected_revision : Nat) :
    Within P (acceptanceEligibility config db ctx proof_id expected_revision) :=
  tolerates.present fun _ => tolerates.present fun _ => tolerates.require fun _ =>
    tolerates.present fun _ => tolerates.require fun _ => tolerates.require fun _ =>
      tolerates.require fun _ => tolerates.present fun _ => tolerates.require fun _ =>
        tolerates.require fun _ => tolerates.require fun _ => within_ok _

theorem within_verifyInvitationEmail (ctx : InvitationContext) (flow : FlowRow)
    (challenge_id code : String) :
    Within P (verifyInvitationEmail config db ctx flow challenge_id code) := by
  refine tolerates.present fun p => tolerates.require fun _ => ?_
  split
  · exact within_ok _
  · refine within_error (tolerates.email_proof _ (proofsKept_update db.email_proof
      (fun q => q.id == p.id) ?_))
    exact fun q => ⟨rfl, rfl, rfl, id⟩

theorem within_reauthorize (ctx : InvitationContext) (body : Body) :
    Within P (reauthorize db ctx body) := by
  refine within_then ?issued fun _ => within_then ?managed fun _ => within_then ?granted fun _ =>
    within_then ?recipient fun _ => within_ok _
  case issued =>
    unfold stillIssuable
    split
    · exact tolerates.present fun _ => within_ok _
    · exact within_ok _
  case managed =>
    unfold stillManaged
    split
    · exact tolerates.require fun _ => tolerates.present fun _ => within_ok _
    · exact within_ok _
  case granted =>
    unfold stillGranted
    split
    · exact tolerates.present fun _ => tolerates.require fun _ => within_ok _
    · exact within_ok _
  case recipient =>
    unfold stillRecipient
    split
    · exact within_require tolerates _ _
    · exact within_ok _

theorem within_invitationRoute (ctx : InvitationContext) (expiry : Int) (body : Body)
    (peer : String) : Within P (invitationRoute config db ctx chance expiry body peer) := by
  cases body with
  | issue_invitation email family grants expires_at =>
    exact tolerates.require fun _ => tolerates.require fun _ => tolerates.present fun _ =>
      tolerates.present fun _ => tolerates.require fun _ => within_ok _
  | amend_invitation _ expected_revision grants =>
    exact within_then (within_managesInvitation tolerates ctx) fun _ =>
      tolerates.require fun _ => tolerates.require fun _ => tolerates.present fun _ =>
        tolerates.present fun _ => tolerates.require fun _ => within_ok _
  | withdraw_invitation _ expected_revision _ =>
    exact within_then (within_managesInvitation tolerates ctx) fun _ =>
      tolerates.require fun _ => tolerates.require fun _ => within_ok _
  | invitation_challenge invitation_id =>
    exact tolerates.present fun _ => within_ok _
  | verify_invitation_email challenge_id code =>
    exact tolerates.present fun flow =>
      within_verifyInvitationEmail tolerates ctx flow challenge_id code
  | accept_invitation _ expected_revision proof_id =>
    refine within_then (within_acceptanceEligibility tolerates ctx proof_id expected_revision) ?_
    exact fun _ => tolerates.present fun _ => within_ok _
  | initial_credential _ =>
    exact tolerates.present fun _ => tolerates.present fun _ => tolerates.require fun _ =>
      tolerates.present fun _ => tolerates.require fun _ => within_ok _
  | withdraw_grant grant_id expected_revision _ =>
    exact tolerates.present fun _ => tolerates.present fun _ => tolerates.require fun _ =>
      tolerates.require fun _ => tolerates.require fun _ => within_ok _
  | _ => exact within_error tolerates.plain

theorem within_performInvitation (config : AccessConfig) (db : AccessStore) (chance : Chance)
    (now : Int) (found : Discovery) (input : Input) :
    Within P (performInvitation config db chance now found input) := by
  refine tolerates.require fun _ => tolerates.present fun credential => tolerates.require fun _ =>
    tolerates.require fun _ => tolerates.require fun _ => ?_
  cases priorInvitationIntent db (invitationContext config db now found input) input with
  | some prior =>
    exact tolerates.require fun _ => within_then (within_reauthorize tolerates _ _) fun _ =>
      within_ok _
  | none => exact within_then (within_invitationRoute tolerates _ _ _ _) fun _ => within_ok _

theorem within_materializeBootstrap (account_id evidence_id : String) (ids : Nat → String) :
    Within P (materializeBootstrap db account_id evidence_id now ids) :=
  tolerates.present fun _ => tolerates.require fun _ => tolerates.present fun _ =>
    tolerates.require fun _ => tolerates.require fun _ => tolerates.require fun _ => within_ok _

theorem within_activateMaster (p : ProofRow) : Within P (activateMaster db now chance p) := by
  unfold activateMaster
  split
  · exact within_error (tolerates.proof _)
  · exact within_then (within_materializeBootstrap tolerates _ _ _) fun _ => within_ok _

theorem within_recoverCredential (p : ProofRow) : Within P (recoverCredential db now chance p) := by
  unfold recoverCredential
  split
  · exact within_error (tolerates.proof _)
  · dsimp only
    split
    · exact within_error (tolerates.proof _)
    · exact within_ok _

theorem within_withProof {purpose : ProofPurpose} {challenge_id code : String}
    {next : ProofRow → Attempt} (within : ∀ p, Within P (next p)) :
    Within P (withProof config db now purpose challenge_id code next) := by
  refine tolerates.present fun p => tolerates.require fun _ => ?_
  split
  · exact within p
  · exact within_error (tolerates.proof _)

theorem within_login (flow : FlowRow) (email password : String) :
    Within P (login config db now chance input flow email password) := by
  unfold login
  dsimp only
  split
  · exact within_error tolerates.plain
  · split
    · exact within_error (tolerates.throttle _)
    · split
      · exact within_error (tolerates.throttle _)
      · exact within_ok _

omit tolerates in
theorem within_challenge (purpose : ProofPurpose) (expiry : Int) (email : String) :
    Within P (challenge config db now chance purpose expiry email) := by
  unfold challenge
  dsimp only
  split
  · exact within_ok _
  · exact within_ok _

theorem within_serviceRoute (expiry : Int) (credential : Credential) :
    Within P (serviceRoute config db now chance input expiry credential) := by
  unfold serviceRoute
  split
  · exact within_challenge _ _ _
  · exact within_challenge _ _ _
  · exact within_withProof tolerates (within_activateMaster tolerates)
  · exact within_withProof tolerates (within_recoverCredential tolerates)
  · exact within_login tolerates _ _ _
  · exact within_ok _
  · exact within_error tolerates.plain

theorem within_replayable : Within P (replayable db now input) := by
  unfold replayable
  split
  · exact within_error tolerates.plain
  · exact tolerates.present fun _ => within_require tolerates _ _
  · exact tolerates.present fun _ => within_require tolerates _ _
  · exact within_ok _

theorem within_performService (config : AccessConfig) (db : AccessStore) (now : Int)
    (chance : Chance) (input : Input) : Within P (performService config db now chance input) := by
  refine tolerates.require fun _ => ?_
  split
  · unfold reception
    split
    · exact within_error tolerates.plain
    · split
      · exact within_ok _
      · exact within_ok _
  · refine tolerates.present fun credential => tolerates.require fun _ =>
      tolerates.require fun _ => ?_
    dsimp only
    split
    · exact tolerates.require fun _ => within_then (within_replayable tolerates) fun _ =>
      within_ok _
    · exact within_then (within_serviceRoute tolerates _ _) fun _ => within_ok _

theorem within_perform (config : AccessConfig) (db : AccessStore) (now : Int) (found : Discovery)
    (input : Input) (chance : Chance) : Within P (perform config db now found input chance) := by
  unfold perform
  split
  · exact within_performInvitation tolerates _ _ _ _ _ _
  · exact within_performService tolerates _ _ _ _ _

end Refusals

theorem modest_perform (config : AccessConfig) (db : AccessStore) (now : Int) (found : Discovery)
    (input : Input) (chance : Chance) : Modest (perform config db now found input chance) :=
  within_perform tolerates_refusals config db now found input chance

/-! ### Effects -/

theorem managesInvitation_ok {ctx : InvitationContext} {inv : InvitationRow} {bounds : List Int}
    (managed : managesInvitation db ctx = .ok (inv, bounds)) : ctx.inv = some inv := by
  obtain ⟨inv', inv_some, managed⟩ := bind_eq_ok managed
  obtain ⟨_, _, managed⟩ := bind_eq_ok managed
  obtain ⟨_, _, managed⟩ := bind_eq_ok managed
  obtain ⟨_, _, managed⟩ := bind_eq_ok managed
  obtain ⟨_, _, managed⟩ := bind_eq_ok managed
  cases managed
  exact present_eq_ok inv_some

theorem issueInvitation_ok {ctx : InvitationContext} {email : String} {family : Family}
    {grants : List GrantSelector} {expires_at : Int} {effect : Effect}
    (issued : issueInvitation config db ctx chance email family grants expires_at = .ok effect) :
    Writes config db now body effect.deadlines effect.changes.core := by
  obtain ⟨_, _, issued⟩ := bind_eq_ok issued
  obtain ⟨_, _, issued⟩ := bind_eq_ok issued
  obtain ⟨_, _, issued⟩ := bind_eq_ok issued
  obtain ⟨_, _, issued⟩ := bind_eq_ok issued
  obtain ⟨_, _, issued⟩ := bind_eq_ok issued
  cases issued
  exact .issues _ _ rfl rfl

theorem pending_of_require {inv : InvitationRow} {error : AccessError} {u : Unit}
    (open_ : require (inv.state == .pending && now < inv.expires_at) error = .ok u) :
    inv.state = .pending ∧ now < inv.expires_at := by
  simpa using require_eq_ok open_

theorem amendInvitation_ok {expected_revision : Nat} {grants : List GrantSelector}
    {effect : Effect}
    (amended : amendInvitation config db (invitationContext config db now found input) chance
      expected_revision grants = .ok effect) : Writes config db now body effect.deadlines effect.changes.core := by
  obtain ⟨⟨inv, bounds⟩, managed, amended⟩ := bind_eq_ok amended
  obtain ⟨_, _, amended⟩ := bind_eq_ok amended
  obtain ⟨_, open_, amended⟩ := bind_eq_ok amended
  obtain ⟨_, _, amended⟩ := bind_eq_ok amended
  obtain ⟨_, _, amended⟩ := bind_eq_ok amended
  obtain ⟨_, _, amended⟩ := bind_eq_ok amended
  cases amended
  exact .amends inv _ (context_inv (managesInvitation_ok managed)) (pending_of_require open_).1 rfl

theorem withdrawInvitation_ok {expected_revision : Nat} {effect : Effect}
    (withdrawn : withdrawInvitation db (invitationContext config db now found input) chance
      expected_revision = .ok effect) : Writes config db now body effect.deadlines effect.changes.core := by
  obtain ⟨⟨inv, bounds⟩, managed, withdrawn⟩ := bind_eq_ok withdrawn
  obtain ⟨_, _, withdrawn⟩ := bind_eq_ok withdrawn
  obtain ⟨_, open_, withdrawn⟩ := bind_eq_ok withdrawn
  cases withdrawn
  exact .withdraws inv (context_inv (managesInvitation_ok managed)) (pending_of_require open_).1 rfl

theorem invitationChallenge_ok {ctx : InvitationContext} {expiry : Int} {flow : FlowRow}
    {invitation_id peer : String} {effect : Effect}
    (challenged : invitationChallenge config db ctx chance expiry flow invitation_id peer =
      .ok effect) : Writes config db now body effect.deadlines effect.changes.core := by
  cases challenged
  dsimp only
  generalize throttle db.throttle _ _ _ _ _ = allowed
  cases allowed with
  | none => exact writes_nothing
  | some counted =>
    refine .proofs _ ?_ rfl
    intro u member
    simp only [Change.both, Change.insert, List.append_nil] at member
    obtain ⟨-, -, same⟩ := Change.mem_replaced_update.mp member
    rw [same]
    exact ⟨rfl, rfl, rfl, id⟩

theorem verifyInvitationEmail_ok {ctx : InvitationContext} {flow : FlowRow}
    {challenge_id code : String} {effect : Effect}
    (verified : verifyInvitationEmail config db ctx flow challenge_id code = .ok effect) :
    Writes config db now body effect.deadlines effect.changes.core := by
  obtain ⟨p, _, verified⟩ := bind_eq_ok verified
  obtain ⟨_, _, verified⟩ := bind_eq_ok verified
  split at verified
  · cases verified
    refine .proofs _ (proofsKept_update db.email_proof (fun q => q.id == p.id) ?_) rfl
    exact fun q => ⟨rfl, rfl, rfl, id⟩
  · cases verified

theorem acceptInvitation_ok {expiry : Int} {invitation_id proof_id : String}
    {expected_revision : Nat} {effect : Effect}
    (accepting : input.body = .accept_invitation invitation_id expected_revision proof_id)
    (accepted : acceptInvitation config db (invitationContext config db now found input) chance
      expiry expected_revision proof_id = .ok effect) :
    ∃ e, Accepts config db now e ∧ e.inv.revision = expected_revision ∧ e.proof.id = proof_id ∧
      (e.inv.expires_at ∈ effect.deadlines ∧ e.proof.expires_at ∈ effect.deadlines) ∧
      effect.changes.core = acceptChanges db now e chance.operation chance.ids := by
  obtain ⟨e, eligible, accepted⟩ := bind_eq_ok accepted
  obtain ⟨_, _, accepted⟩ := bind_eq_ok accepted
  cases accepted
  obtain ⟨accepts, revision, proof, ends⟩ := acceptanceEligibility_ok accepting eligible
  refine ⟨e, accepts, revision, proof, ends, ?_⟩
  rw [acceptChanges, Changes.core, Eligible.newAccount, Eligible.accountId]
  cases e.target <;> rfl

theorem initialCredential_ok {ctx : InvitationContext} {flow : FlowRow} {effect : Effect}
    (completed : initialCredential db ctx chance flow = .ok effect) :
    Writes config db now body effect.deadlines effect.changes.core := by
  obtain ⟨_, _, completed⟩ := bind_eq_ok completed
  obtain ⟨_, _, completed⟩ := bind_eq_ok completed
  obtain ⟨target, _, completed⟩ := bind_eq_ok completed
  obtain ⟨_, _, completed⟩ := bind_eq_ok completed
  cases completed
  exact .credential target _ rfl

theorem withdrawGrant_ok {ctx : InvitationContext} {grant_id : String} {expected_revision : Nat}
    {effect : Effect}
    (withdrawn : withdrawGrant db ctx chance grant_id expected_revision = .ok effect) :
    Writes config db now body effect.deadlines effect.changes.core := by
  obtain ⟨g, _, withdrawn⟩ := bind_eq_ok withdrawn
  obtain ⟨_, _, withdrawn⟩ := bind_eq_ok withdrawn
  obtain ⟨_, _, withdrawn⟩ := bind_eq_ok withdrawn
  obtain ⟨_, _, withdrawn⟩ := bind_eq_ok withdrawn
  obtain ⟨_, _, withdrawn⟩ := bind_eq_ok withdrawn
  cases withdrawn
  exact .withdrawsGrant g rfl

theorem invitationRoute_ok {expiry : Int} {effect : Effect}
    (done : invitationRoute config db (invitationContext config db now found input) chance expiry
      input.body input.peer = .ok effect) : Writes config db now input.body effect.deadlines effect.changes.core := by
  cases requested : input.body with
  | issue_invitation email family grants expires_at =>
    rw [requested] at done
    exact issueInvitation_ok done
  | amend_invitation _ expected_revision grants =>
    rw [requested] at done
    exact amendInvitation_ok done
  | withdraw_invitation _ expected_revision _ =>
    rw [requested] at done
    exact withdrawInvitation_ok done
  | invitation_challenge invitation_id =>
    rw [requested] at done
    obtain ⟨flow, _, done⟩ := bind_eq_ok done
    exact invitationChallenge_ok done
  | verify_invitation_email challenge_id code =>
    rw [requested] at done
    obtain ⟨flow, _, done⟩ := bind_eq_ok done
    exact verifyInvitationEmail_ok done
  | accept_invitation invitation_id expected_revision proof_id =>
    rw [requested] at done
    obtain ⟨e, accepts, revision, proof, ends, same⟩ := acceptInvitation_ok requested done
    refine .accepts e accepts _ _ invitation_id ?_ ends same
    rw [revision, proof]
  | initial_credential _ =>
    rw [requested] at done
    obtain ⟨flow, _, done⟩ := bind_eq_ok done
    exact initialCredential_ok done
  | withdraw_grant grant_id expected_revision _ =>
    rw [requested] at done
    exact withdrawGrant_ok done
  | _ =>
    rw [requested] at done
    cases done

/-- An invitation request does nothing to the core tables when it answers an intention again,
and else what its route does. -/
theorem performInvitation_ok {effect : Effect}
    (done : performInvitation config db chance now found input = .ok effect) :
    Writes config db now input.body effect.deadlines effect.changes.core := by
  obtain ⟨_, _, done⟩ := bind_eq_ok done
  obtain ⟨credential, _, done⟩ := bind_eq_ok done
  obtain ⟨_, _, done⟩ := bind_eq_ok done
  obtain ⟨_, _, done⟩ := bind_eq_ok done
  obtain ⟨_, _, done⟩ := bind_eq_ok done
  cases prior : priorInvitationIntent db (invitationContext config db now found input) input with
  | some row =>
    rw [prior] at done
    obtain ⟨_, _, done⟩ := bind_eq_ok done
    obtain ⟨_, _, done⟩ := bind_eq_ok done
    cases done
    exact writes_nothing
  | none =>
    rw [prior] at done
    obtain ⟨inner, routed, done⟩ := bind_eq_ok done
    cases done
    exact (invitationRoute_ok routed).mono (List.subset_append_right _ _)

/-! ### Identity routes -/

theorem materializeBootstrap_ok {account : AccountRow} {evidence_id : String} {ids : Nat → String}
    {effect : Effect} (holder : account.person_ref = db.deployment.root.holderPersonRef.getD "")
    (booted : materializeBootstrap (withAccount db account) account.id evidence_id now ids =
      .ok effect) : ∃ faculties, Boots db now account faculties ∧
        effect.changes.core =
          { grant_record := .insert (bootstrapGrants account.id ids faculties 1) } := by
  obtain ⟨d, _, booted⟩ := bind_eq_ok booted
  obtain ⟨_, declared, booted⟩ := bind_eq_ok booted
  obtain ⟨found, _, booted⟩ := bind_eq_ok booted
  obtain ⟨_, admitted, booted⟩ := bind_eq_ok booted
  obtain ⟨_, _, booted⟩ := bind_eq_ok booted
  obtain ⟨_, separated, booted⟩ := bind_eq_ok booted
  cases booted
  have declared := require_eq_ok declared
  have admitted := require_eq_ok admitted
  have separated := require_eq_ok separated
  simp only [Bool.and_eq_true, beq_iff_eq] at declared admitted
  rw [Bool.not_eq_true'] at separated
  -- the account that is looked up is the holder's, whichever row of that id it is
  have person : found.person_ref = account.person_ref := by
    have root : some d.holder_person_ref = db.deployment.root.holderPersonRef := declared.1.1.2
    rw [admitted.1.2, holder, ← root]
    rfl
  rw [person] at separated
  exact ⟨d.faculties, ⟨separated⟩, rfl⟩

theorem activateMaster_ok {p : ProofRow} {effect : Effect}
    (activated : activateMaster db now chance p = .ok effect) :
    Writes config db now body effect.deadlines effect.changes.core := by
  unfold activateMaster at activated
  split at activated
  · cases activated
  · obtain ⟨booted, boots, activated⟩ := bind_eq_ok activated
    cases activated
    have holder : (⟨⟨chance.ids 0, db.deployment.root.holderPersonRef.getD "", false, 1,
        some "master"⟩, p.email, some chance.verifier, none⟩ : AccountRow).person_ref =
      db.deployment.root.holderPersonRef.getD "" := rfl
    obtain ⟨faculties, checked, core⟩ := materializeBootstrap_ok holder boots
    refine .activates _ faculties checked chance.ids ?_
    rw [Changes.core, CoreChanges.mk.injEq] at core
    obtain ⟨-, grants, invitation, revision, acceptance, proofs⟩ := core
    simp only [Changes.core, grants, invitation, revision, acceptance, proofs]

theorem recoverCredential_ok {p : ProofRow} {effect : Effect}
    (recovered : recoverCredential db now chance p = .ok effect) :
    Writes config db now body effect.deadlines effect.changes.core := by
  unfold recoverCredential at recovered
  split at recovered
  · cases recovered
  · next account _ =>
    dsimp only at recovered
    split at recovered
    · cases recovered
    · cases recovered
      exact .credential account _ rfl

theorem withProof_ok {purpose : ProofPurpose} {challenge_id code : String}
    {next : ProofRow → Attempt} {effect : Effect}
    (done : withProof config db now purpose challenge_id code next = .ok effect) :
    ∃ p, next p = .ok effect := by
  obtain ⟨p, _, done⟩ := bind_eq_ok done
  obtain ⟨_, _, done⟩ := bind_eq_ok done
  split at done
  · exact ⟨p, done⟩
  · cases done

theorem serviceRoute_ok {expiry : Int} {credential : Credential} {effect : Effect}
    (done : serviceRoute config db now chance input expiry credential = .ok effect) :
    Writes config db now body effect.deadlines effect.changes.core := by
  have challenged : ∀ purpose email,
      challenge config db now chance purpose expiry email = .ok effect →
        Writes config db now body effect.deadlines effect.changes.core := by
    intro purpose email done
    unfold challenge at done
    dsimp only at done
    split at done
    · cases done
      exact writes_nothing
    · cases done
      exact writes_nothing
  unfold serviceRoute at done
  split at done
  · exact challenged _ _ done
  · exact challenged _ _ done
  · obtain ⟨p, activated⟩ := withProof_ok done
    exact activateMaster_ok activated
  · obtain ⟨p, recovered⟩ := withProof_ok done
    exact recoverCredential_ok recovered
  · unfold login at done
    dsimp only at done
    split at done
    · cases done
    · split at done
      · cases done
      · split at done
        · cases done
        · cases done
          exact writes_nothing
  · cases done
    exact writes_nothing
  · cases done

theorem performService_ok {effect : Effect}
    (done : performService config db now chance input = .ok effect) :
    Writes config db now input.body effect.deadlines effect.changes.core := by
  obtain ⟨_, _, done⟩ := bind_eq_ok done
  split at done
  · unfold reception at done
    split at done
    · cases done
    · split at done
      · cases done
        exact writes_nothing
      · cases done
        exact writes_nothing
  · obtain ⟨credential, _, done⟩ := bind_eq_ok done
    obtain ⟨_, _, done⟩ := bind_eq_ok done
    obtain ⟨_, _, done⟩ := bind_eq_ok done
    dsimp only at done
    split at done
    · obtain ⟨_, _, done⟩ := bind_eq_ok done
      obtain ⟨_, _, done⟩ := bind_eq_ok done
      cases done
      exact writes_nothing
    · obtain ⟨inner, routed, done⟩ := bind_eq_ok done
      cases done
      exact (serviceRoute_ok routed).mono (List.subset_append_right _ _)

/-- Whatever a request comes to, what it commits is one of the things it can write. -/
theorem perform_ok {effect : Effect} (done : perform config db now found input chance = .ok effect) :
    Writes config db now input.body effect.deadlines effect.changes.core := by
  unfold perform at done
  split at done
  · exact performInvitation_ok done
  · exact performService_ok done

/-- The instants an attempt has to be committed before. -/
def Attempt.deadlines : Attempt → List Int
  | .ok effect => effect.deadlines
  | .error _ => []

theorem deadlines_of_inTime {ι : Type} {w : World ι AccessStore Discovery Answer}
    {attempt : Attempt} (early : inTime w attempt.evaluation = true) :
    ∀ d ∈ attempt.deadlines, w.clock < d := by
  cases attempt with
  | ok effect =>
    have before : w.clock < deadline effect.deadlines := by
      simpa [inTime, Attempt.evaluation] using early
    exact lt_deadline before
  | error failure =>
    intro d member
    cases member

theorem evaluate_writes (config : AccessConfig) (db : AccessStore) (now : Int) (found : Discovery)
    (input : Input) (chance : Chance) :
    Writes config db now input.body (perform config db now found input chance).deadlines
      (evaluate config db now found input chance).changes.core := by
  rw [evaluate]
  cases done : perform config db now found input chance with
  | ok effect => exact perform_ok done
  | error f =>
    obtain ⟨email_proof, kept, core⟩ := modest_perform config db now found input chance f done
    exact .proofs email_proof kept core

end LedgerDesk.Access
