import LedgerDesk.Access.Effects

/-!
# The life of an invitation

Over every interleaving of requests: an invitation is accepted once, at its current revision,
on terms that compile to what is stored, and what is granted is what was accepted.
-/
namespace LedgerDesk.Access

open Foundation

/-- What a term grants, and what a grant record holds of it. -/
structure GrantedTerm where
  permission_id : String
  faculty : Faculty
  scope_ref : String
  support_ref : String
  expires_at : Int
  deriving DecidableEq, Repr

def InvitationTerm.grantedTerm (t : InvitationTerm) : GrantedTerm :=
  ⟨t.permission_id, t.exercise_or_grant, t.scope_ref, t.support_ref, t.expires_at⟩

def GrantRow.grantedTerm (g : GrantRow) : GrantedTerm :=
  ⟨g.permission_id, g.faculty, g.scope_ref, g.support_ref, g.expires_at⟩

namespace AccessStore

variable (db : AccessStore)

def grantsOf (acceptance_id : String) : List GrantRow :=
  db.grant_record.filter fun g => g.acceptance_id == some acceptance_id

/-- What an acceptance leaves behind. -/
structure Records (a : Acceptance) (inv : InvitationRow) (r : InvitationRevision)
    (p : EmailProof) : Prop where
  stored : inv ∈ db.invitation ∧ inv.id = a.invitation_id
  accepted : inv.state = .accepted ∧ inv.accepted_at = some a.recorded_at
  revision : inv.revision = a.revision
  unexpired : a.recorded_at < inv.expires_at
  terms : r ∈ db.invitation_revision ∧ r.invitation_id = a.invitation_id ∧ r.revision = a.revision
  proof : p ∈ db.email_proof ∧ p.id = a.proof_id ∧ p.invitation_id = some a.invitation_id
  used : p.used = true
  granted : (db.grantsOf a.id).map GrantRow.grantedTerm = r.terms.map InvitationTerm.grantedTerm
  holder : ∀ g ∈ db.grantsOf a.id, g.account_id = a.account_id

def Recorded : Prop := ∀ a ∈ db.acceptance, ∃ inv r p, db.Records a inv r p

/-- Keys and references are kept, and every acceptance is recorded. -/
structure Standing : Prop where
  unique : db.unique = true
  referenced : db.referenced = true
  recorded : db.Recorded

theorem commit_ok {db next : AccessStore} {c : Changes} (committed : db.commit c = .ok next) :
    next = c.apply db ∧ c.fits db = true ∧ (∀ a ∈ c.account.inserted, db.admitsAccount a = true) ∧
      next.unique = true ∧ next.referenced = true := by
  simp only [commit] at committed
  split at committed
  · cases committed
  · next fits =>
    split at committed
    · cases committed
    · next admitted =>
      split at committed
      · cases committed
      · next unique =>
        split at committed
        · cases committed
        · next referenced =>
          cases committed
          simp only [Bool.not_eq_true', Bool.not_eq_false, List.all_eq_true] at fits admitted
          simp only [Bool.not_eq_true', Bool.not_eq_false] at unique referenced
          exact ⟨rfl, fits, admitted, unique, referenced⟩

end AccessStore

variable {config : AccessConfig} {db : AccessStore} {now : Int}

theorem unique_invitation (unique : db.unique = true) : (db.invitation.map (·.id)).Nodup := by
  simp only [AccessStore.unique, decide_eq_true_eq] at unique
  tauto

theorem unique_email_proof (unique : db.unique = true) : (db.email_proof.map (·.id)).Nodup := by
  simp only [AccessStore.unique, decide_eq_true_eq] at unique
  tauto

theorem unique_acceptance (unique : db.unique = true) :
    (db.acceptance.map (·.id)).Nodup ∧ (db.acceptance.map (·.invitation_id)).Nodup ∧
      (db.acceptance.map (·.proof_id)).Nodup := by
  simp only [AccessStore.unique, decide_eq_true_eq] at unique
  tauto

theorem referenced_grant (referenced : db.referenced = true) {g : GrantRow}
    (member : g ∈ db.grant_record) {id : String} (accepted : g.acceptance_id = some id) :
    id ∈ db.acceptance.map (·.id) := by
  simp only [AccessStore.referenced, decide_eq_true_eq] at referenced
  exact (referenced.1 g member).2.2.2.2 id accepted

theorem eq_of_key {ρ κ : Type*} {key : ρ → κ} {rows : List ρ} (distinct : (rows.map key).Nodup)
    {r r' : ρ} (member : r ∈ rows) (member' : r' ∈ rows) (same : key r = key r') : r = r' :=
  List.inj_on_of_nodup_map distinct member member' same

/-! ### What a write does to one row -/

namespace Writes

variable {body : Body} {deadlines : List Int} {c : CoreChanges}

theorem revisions_kept (writes : Writes config db now body deadlines c) : c.invitation_revision.replaced = [] := by
  cases writes with
  | _ => subst c; rfl

theorem acceptances_kept (writes : Writes config db now body deadlines c) : c.acceptance.replaced = [] := by
  cases writes with
  | _ => subst c; rfl

/-- Only a pending invitation changes. -/
theorem invitation_after (writes : Writes config db now body deadlines c) (unique : db.unique = true)
    (inv : InvitationRow) : c.invitation.after inv = inv ∨ inv.state = .pending := by
  have chosen : ∀ (i : InvitationRow) (set : InvitationRow → InvitationRow), i ∈ db.invitation →
      i.state = .pending →
      (Change.update db.invitation (fun j => j.id == i.id) set).after inv = inv ∨
        inv.state = .pending := by
    intro i set member pending
    rcases Change.after_of_update inv with same | ⟨stands, same_id, -⟩
    · exact .inl same
    · right
      have equal : inv = i := eq_of_key (unique_invitation unique) stands member (by simpa using same_id)
      rw [equal, pending]
  cases writes with
  | amends i r member pending same =>
    subst c
    exact chosen i _ member pending
  | withdraws i member pending same =>
    subst c
    exact chosen i _ member pending
  | accepts e accepts operation ids _ _ _ same =>
    subst c
    exact chosen e.inv _ accepts.inv accepts.pending
  | _ => subst c; exact .inl rfl

theorem proofs_kept (writes : Writes config db now body deadlines c) : ProofsKept c.email_proof := by
  cases writes with
  | proofs email_proof kept same =>
    subst c
    exact kept
  | accepts e accepts operation ids _ _ _ same =>
    subst c
    exact proofsKept_update db.email_proof (fun p => p.id == e.proof.id)
      fun p => ⟨rfl, rfl, rfl, fun _ => rfl⟩
  | _ => subst c; exact proofsKept_keep

theorem proof_after (writes : Writes config db now body deadlines c) (p : EmailProof) :
    (c.email_proof.after p).id = p.id ∧ (c.email_proof.after p).invitation_id = p.invitation_id ∧
      (p.used = true → (c.email_proof.after p).used = true) := by
  rcases c.email_proof.after_eq p with ⟨same, -⟩ | replaced
  · rw [same]
    exact ⟨rfl, rfl, id⟩
  · obtain ⟨same_id, invitation, -, used⟩ := writes.proofs_kept _ replaced
    exact ⟨same_id, invitation, used⟩

/-- A grant keeps what it grants, to whom, and where it comes from. -/
theorem grant_after (writes : Writes config db now body deadlines c) (g : GrantRow) :
    (c.grant_record.after g).grantedTerm = g.grantedTerm ∧
      (c.grant_record.after g).account_id = g.account_id ∧
      (c.grant_record.after g).acceptance_id = g.acceptance_id := by
  cases writes with
  | withdrawsGrant g' same =>
    subst c
    rcases Change.after_of_update g with same | ⟨-, -, same⟩
    · rw [same]
      exact ⟨rfl, rfl, rfl⟩
    · rw [same]
      exact ⟨rfl, rfl, rfl⟩
  | _ => subst c; exact ⟨rfl, rfl, rfl⟩

/-- What is accepted, if anything, is what was checked for it. -/
theorem acceptance_inserted (writes : Writes config db now body deadlines c) :
    (c.acceptance.inserted = [] ∧ ∀ g ∈ c.grant_record.inserted, g.acceptance_id = none) ∨
    ∃ e operation ids invitation_id, Accepts config db now e ∧
      body = .accept_invitation invitation_id e.inv.revision e.proof.id ∧
      (e.inv.expires_at ∈ deadlines ∧ e.proof.expires_at ∈ deadlines) ∧
      c = acceptChanges db now e operation ids := by
  cases writes with
  | accepts e accepts operation ids id requested ends same =>
    exact .inr ⟨e, operation, ids, id, accepts, requested, ends, same⟩
  | activates account faculties boots ids same =>
    subst c
    refine .inl ⟨rfl, ?_⟩
    have fresh : ∀ (faculties : List InitialFaculty) (n : Nat),
        ∀ g ∈ bootstrapGrants account.id ids faculties n, g.acceptance_id = none := by
      intro faculties
      induction faculties with
      | nil =>
        intro n g member
        cases member
      | cons f faculties ih =>
        intro n g member
        rcases List.mem_cons.mp member with rfl | later
        · rfl
        · exact ih (n + 1) g later
    exact fresh faculties 1
  | _ =>
    subst c
    refine .inl ⟨rfl, ?_⟩
    intro g member
    cases member

end Writes

/-! ### What a commit does to the record -/

theorem acceptedGrants_spec (account_id operation : String) (ids : Nat → String)
    (terms : List InvitationTerm) (n : Nat) :
    (acceptedGrants account_id operation ids terms n).map GrantRow.grantedTerm =
        terms.map InvitationTerm.grantedTerm ∧
      ∀ g ∈ acceptedGrants account_id operation ids terms n,
        g.acceptance_id = some operation ∧ g.account_id = account_id := by
  induction terms generalizing n with
  | nil =>
    refine ⟨rfl, ?_⟩
    intro g member
    cases member
  | cons t terms ih =>
    obtain ⟨granted, origin⟩ := ih (n + 1)
    constructor
    · rw [acceptedGrants, List.map_cons, List.map_cons, granted]
      rfl
    · intro g member
      rcases List.mem_cons.mp member with rfl | later
      · exact ⟨rfl, rfl⟩
      · exact origin g later

theorem grantsOf_map {f : GrantRow → GrantRow} {rows added : List GrantRow} {id : String}
    (origin : ∀ g ∈ rows, (f g).acceptance_id = g.acceptance_id) :
    (rows.map f ++ added).filter (fun g => g.acceptance_id == some id) =
      (rows.filter fun g => g.acceptance_id == some id).map f ++
        added.filter fun g => g.acceptance_id == some id := by
  rw [List.filter_append, List.filter_map]
  congr 2
  refine List.filter_congr fun g member => ?_
  rw [Function.comp, origin g member]

section Commit

variable {body : Body} {deadlines : List Int} {snapshot store : AccessStore} {c : Changes}

theorem fits_invitation (fits : c.fits store = true) :
    ∀ u ∈ c.invitation.replaced, u.1 ∈ store.invitation := by
  simp only [Changes.fits, Bool.and_eq_true] at fits
  exact (Change.fits_iff _ _).mp fits.1.1.1.1.1.1.2

theorem fits_email_proof (fits : c.fits store = true) :
    ∀ u ∈ c.email_proof.replaced, u.1 ∈ store.email_proof := by
  simp only [Changes.fits, Bool.and_eq_true] at fits
  exact (Change.fits_iff _ _).mp fits.1.1.1.1.2

/-- An acceptance that is recorded stays so. -/
theorem records_kept (writes : Writes config snapshot now body deadlines c.core) (unique : snapshot.unique = true)
    (foreign : ∀ g ∈ c.grant_record.inserted, ∀ a ∈ store.acceptance, g.acceptance_id ≠ some a.id)
    {a : Acceptance} (member : a ∈ store.acceptance) {inv : InvitationRow}
    {r : InvitationRevision} {p : EmailProof} (records : store.Records a inv r p) :
    (c.apply store).Records a inv r (c.email_proof.after p) := by
  have origin := fun g => (writes.grant_after g).2.2
  have grants : (c.apply store).grantsOf a.id = (store.grantsOf a.id).map c.grant_record.after := by
    have none_added : (c.grant_record.inserted.filter fun g => g.acceptance_id == some a.id) = [] := by
      rw [List.filter_eq_nil_iff]
      intro g added
      simpa using foreign g added a member
    have split : (store.grant_record.map c.grant_record.after ++ c.grant_record.inserted).filter
        (fun g => g.acceptance_id == some a.id) = _ := grantsOf_map fun g _ => origin g
    rw [none_added, List.append_nil] at split
    exact split
  obtain ⟨proof_id, proof_invitation, used⟩ := writes.proof_after p
  exact {
    stored := by
      refine ⟨Change.mem_apply.mpr (.inl ⟨inv, records.stored.1, ?_⟩), records.stored.2⟩
      rcases writes.invitation_after unique inv with same | pending
      · exact same
      · rw [records.accepted.1] at pending
        cases pending
    accepted := records.accepted
    revision := records.revision
    unexpired := records.unexpired
    terms := by
      refine ⟨Change.mem_apply.mpr (.inl ⟨r, records.terms.1, ?_⟩), records.terms.2⟩
      refine Change.after_of_not_replaced ?_
      rw [show c.invitation_revision.replaced = [] from writes.revisions_kept]
      intro u replaced
      cases replaced
    proof := by
      refine ⟨Change.mem_apply.mpr (.inl ⟨p, records.proof.1, rfl⟩), ?_, ?_⟩
      · rw [← records.proof.2.1]
        exact proof_id
      · rw [← records.proof.2.2]
        exact proof_invitation
    used := used records.used
    granted := by
      rw [grants, List.map_map, ← records.granted]
      exact List.map_congr_left fun g _ => (writes.grant_after g).1
    holder := by
      intro g held
      rw [grants] at held
      obtain ⟨old, stands, rfl⟩ := List.mem_map.mp held
      rw [← records.holder old stands]
      exact (writes.grant_after old).2.1 }

/-- A committed acceptance is recorded, on the revision that is current at the commit. -/
theorem records_accepted {e : Eligible} {operation : String} {ids : Nat → String}
    (accepts : Accepts config snapshot now e)
    (same : c.core = acceptChanges snapshot now e operation ids) (fits : c.fits store = true)
    (revisions : ∀ r ∈ snapshot.invitation_revision, r ∈ store.invitation_revision)
    (referenced : store.referenced = true) (next : (c.apply store).unique = true) :
    (e.inv ∈ store.invitation ∧ e.current ∈ store.invitation_revision) ∧
    (c.apply store).Records
      ⟨operation, e.inv.id, e.inv.revision, e.accountId (ids 0), e.proof.id, now⟩
      { e.inv with state := .accepted, accepted_at := some now } e.current
      { e.proof with used := true } := by
  have invitation : c.invitation = (acceptChanges snapshot now e operation ids).invitation :=
    congrArg CoreChanges.invitation same
  have proof : c.email_proof = (acceptChanges snapshot now e operation ids).email_proof :=
    congrArg CoreChanges.email_proof same
  have grants : c.grant_record = (acceptChanges snapshot now e operation ids).grant_record :=
    congrArg CoreChanges.grant_record same
  have acceptance : c.acceptance = (acceptChanges snapshot now e operation ids).acceptance :=
    congrArg CoreChanges.acceptance same
  have kept : (c.apply store).invitation_revision = store.invitation_revision := by
    have revision : c.invitation_revision = .keep := congrArg CoreChanges.invitation_revision same
    change c.invitation_revision.apply store.invitation_revision = _
    rw [revision, Change.keep_apply]
  -- the rows the acceptance replaces are still there, and it replaces them
  have inv_there : e.inv ∈ store.invitation := by
    refine fits_invitation fits (e.inv, { e.inv with state := .accepted, accepted_at := some now }) ?_
    rw [invitation]
    exact Change.mem_replaced_update.mpr ⟨accepts.inv, by simp, rfl⟩
  have proof_there : e.proof ∈ store.email_proof := by
    refine fits_email_proof fits (e.proof, { e.proof with used := true }) ?_
    rw [proof]
    exact Change.mem_replaced_update.mpr ⟨accepts.proof, by simp, rfl⟩
  have inv_after : c.invitation.after e.inv =
      { e.inv with state := .accepted, accepted_at := some now } := by
    rw [invitation]
    exact (Change.update_after accepts.inv).trans (by simp)
  have proof_after : c.email_proof.after e.proof = { e.proof with used := true } := by
    rw [proof]
    exact (Change.update_after accepts.proof).trans (by simp)
  have current_there : e.current ∈ store.invitation_revision := revisions _ accepts.current
  obtain ⟨granted, origin⟩ :=
    acceptedGrants_spec (e.accountId (ids 0)) operation ids e.terms 1
  -- no grant of the store can come from an acceptance that is not in it
  have fresh : operation ∉ store.acceptance.map (·.id) := by
    have applied : (c.apply store).acceptance = store.acceptance ++
        [⟨operation, e.inv.id, e.inv.revision, e.accountId (ids 0), e.proof.id, now⟩] := by
      change c.acceptance.apply store.acceptance = _
      rw [acceptance]
      exact Change.insert_apply _ _
    have distinct := (unique_acceptance next).1
    rw [applied, List.map_append, List.nodup_append] at distinct
    intro member
    exact distinct.2.2 operation member operation (by simp) rfl
  have of_acceptance : (c.apply store).grantsOf operation =
      acceptedGrants (e.accountId (ids 0)) operation ids e.terms 1 := by
    have added : (c.apply store).grant_record =
        store.grant_record ++ acceptedGrants (e.accountId (ids 0)) operation ids e.terms 1 := by
      change c.grant_record.apply store.grant_record = _
      rw [grants]
      exact Change.insert_apply _ _
    rw [AccessStore.grantsOf, added, List.filter_append]
    have before : (store.grant_record.filter fun g => g.acceptance_id == some operation) = [] := by
      rw [List.filter_eq_nil_iff]
      intro g member origin
      exact fresh (referenced_grant referenced member (by simpa using origin))
    rw [before, List.nil_append, List.filter_eq_self]
    intro g member
    simp [(origin g member).1]
  refine ⟨⟨inv_there, current_there⟩, ?_⟩
  exact {
    stored := ⟨Change.mem_apply.mpr (.inl ⟨e.inv, inv_there, inv_after⟩), rfl⟩
    accepted := ⟨rfl, rfl⟩
    revision := rfl
    unexpired := accepts.unexpired
    terms := by
      rw [kept]
      exact ⟨current_there, accepts.current_of.1, accepts.current_of.2⟩
    proof := ⟨Change.mem_apply.mpr (.inl ⟨e.proof, proof_there, proof_after⟩), rfl, accepts.proof_of.1⟩
    used := rfl
    granted := by
      rw [of_acceptance, granted, accepts.terms]
    holder := by
      intro g member
      rw [of_acceptance] at member
      exact (origin g member).2 }

end Commit

/-! ### Runs -/

/-- Operations on the store itself keep its keys. -/
structure SameKeys (db next : AccessStore) : Prop where
  account : next.account.map (fun a => (a.id, a.email, a.office)) =
    db.account.map fun a => (a.id, a.email, a.office)
  session : next.session.map (fun s => (s.digest, s.account_id)) =
    db.session.map fun s => (s.digest, s.account_id)
  support_definition : next.support_definition.map (fun s => (s.id, s.authority_id)) =
    db.support_definition.map fun s => (s.id, s.authority_id)
  others : next = { db with
    deployment := next.deployment
    support_definition := next.support_definition
    revalidation_event := next.revalidation_event
    investiture := next.investiture
    account := next.account
    session := next.session }

theorem map_keeping {ρ κ : Type*} {key : ρ → κ} {chosen : ρ → Bool} {set : ρ → ρ}
    (rows : List ρ) (keeps : ∀ r, key (set r) = key r) :
    (rows.map fun r => if chosen r then set r else r).map key = rows.map key := by
  rw [List.map_map]
  refine List.map_congr_left fun r _ => ?_
  change key (if chosen r then set r else r) = key r
  split
  · exact keeps r
  · rfl

theorem control_keys {next : AccessStore} {clock : Int} {c : Control}
    (controlled : control clock db c = some next) : SameKeys db next := by
  cases c with
  | set_support support_id enabled reason =>
    simp only [control] at controlled
    split at controlled
    · cases controlled
    · cases controlled
      exact ⟨rfl, rfl, map_keeping _ fun _ => rfl, rfl⟩
  | set_revalidation id until_ satisfied =>
    simp only [control] at controlled
    split at controlled
    · cases controlled
      exact ⟨rfl, rfl, rfl, rfl⟩
    · cases controlled
  | end_investiture id =>
    simp only [control] at controlled
    split at controlled
    · cases controlled
      exact ⟨rfl, rfl, rfl, rfl⟩
    · cases controlled
  | restrict_account account_id restricted =>
    simp only [control] at controlled
    cases controlled
    exact ⟨map_keeping _ fun _ => rfl, map_keeping _ fun _ => rfl, rfl, rfl⟩
  | set_control enabled recovery_until reason =>
    simp only [control] at controlled
    split at controlled
    · cases controlled
    · cases controlled
      exact ⟨rfl, rfl, rfl, rfl⟩

theorem map_of_map {ρ κ κ' : Type*} {key : ρ → κ} {rows rows' : List ρ}
    (same : rows'.map key = rows.map key) (part : κ → κ') :
    rows'.map (fun r => part (key r)) = rows.map fun r => part (key r) := by
  have parts := congrArg (List.map part) same
  rwa [List.map_map, List.map_map] at parts

theorem forall_of_map {ρ κ : Type*} {key : ρ → κ} {rows rows' : List ρ}
    (same : rows'.map key = rows.map key) {P : κ → Prop} (holds : ∀ r ∈ rows, P (key r)) :
    ∀ r ∈ rows', P (key r) := by
  intro r member
  have key_there : key r ∈ rows.map key := by
    rw [← same]
    exact List.mem_map_of_mem member
  obtain ⟨r', member', equal⟩ := List.mem_map.mp key_there
  rw [← equal]
  exact holds r' member'

theorem control_unique {db next : AccessStore} {clock : Int} {c : Control}
    (controlled : control clock db c = some next) (unique : db.unique = true) :
    next.unique = true := by
  obtain ⟨account, session, support, others⟩ := control_keys controlled
  have ids := map_of_map account fun k => k.1
  have emails := map_of_map account fun k => k.2.1
  have offices : next.account.filterMap (·.office) = db.account.filterMap (·.office) := by
    have listed := map_of_map account fun k => k.2.2
    have both := congrArg (List.filterMap id) listed
    rwa [List.filterMap_map, List.filterMap_map] at both
  have digests := map_of_map session fun k => k.1
  rw [AccessStore.unique] at unique ⊢
  rw [others]
  dsimp only at ids emails offices digests ⊢
  rw [ids, emails, offices, digests]
  exact unique

theorem control_standing {db next : AccessStore} {clock : Int} {c : Control}
    (controlled : control clock db c = some next) (standing : db.Standing) : next.Standing := by
  obtain ⟨account, session, support, others⟩ := control_keys controlled
  have ids := map_of_map account fun k => k.1
  have supports := map_of_map support fun k => k.1
  obtain ⟨unique, referenced, recorded⟩ := standing
  refine ⟨control_unique controlled unique, ?_, ?_⟩
  · rw [AccessStore.referenced, decide_eq_true_eq] at referenced ⊢
    obtain ⟨grants, authorities, sessions, rest⟩ := referenced
    rw [others]
    dsimp only at ids supports ⊢
    rw [ids, supports]
    refine ⟨grants, ?_, ?_, rest⟩
    · exact forall_of_map support (P := fun k => ∀ id ∈ k.2, id ∈ db.grant_record.map (·.id))
        authorities
    · exact forall_of_map session (P := fun k => k.2 ∈ db.account.map (·.id)) sessions
  · intro a member
    rw [others] at member
    obtain ⟨inv, r, p, records⟩ := recorded a member
    rw [others]
    exact ⟨inv, r, p, ⟨records.stored, records.accepted, records.revision, records.unexpired,
      records.terms, records.proof, records.used, records.granted, records.holder⟩⟩

section Runs

variable {ι : Type} [DecidableEq ι] (config : AccessConfig) (requests : ι → Input)

/-- Revisions are never taken back. -/
def KeepsRevisions (snapshot store : AccessStore) : Prop :=
  ∀ r ∈ snapshot.invitation_revision, r ∈ store.invitation_revision

theorem revisions_of_commit {body : Body} {deadlines : List Int} {snapshot store : AccessStore}
    {c : Changes} {now : Int} (writes : Writes config snapshot now body deadlines c.core) :
    KeepsRevisions store (c.apply store) := by
  intro r member
  refine Change.mem_apply.mpr (.inl ⟨r, member, Change.after_of_not_replaced ?_⟩)
  rw [show c.invitation_revision.replaced = [] from writes.revisions_kept]
  intro u replaced
  cases replaced

theorem standing_of_commit {snapshot store next : AccessStore} {c : Changes} {body : Body}
    {deadlines : List Int} {now : Int}
    (writes : Writes config snapshot now body deadlines c.core) (before : snapshot.Standing)
    (standing : store.Standing) (kept : KeepsRevisions snapshot store)
    (committed : store.commit c = .ok next) : next.Standing := by
  obtain ⟨rfl, fits, -, unique, referenced⟩ := AccessStore.commit_ok committed
  refine ⟨unique, referenced, ?_⟩
  have replaced : c.acceptance.replaced = [] := writes.acceptances_kept
  have applied : (c.apply store).acceptance = store.acceptance ++ c.acceptance.inserted :=
    Change.apply_of_none_replaced replaced _
  intro a member
  rw [applied] at member
  rcases writes.acceptance_inserted with ⟨none, plain⟩ | ⟨e, operation, ids, _, accepts, _, _, same⟩
  · have old : a ∈ store.acceptance := by
      rw [show c.acceptance.inserted = [] from none, List.append_nil] at member
      exact member
    obtain ⟨inv, r, p, records⟩ := standing.recorded a old
    refine ⟨inv, r, _, records_kept writes before.unique ?_ old records⟩
    intro g added b _
    rw [plain g added]
    exact Option.some_ne_none _ |>.symm
  · have inserted : c.acceptance.inserted =
        [⟨operation, e.inv.id, e.inv.revision, e.accountId (ids 0), e.proof.id, now⟩] :=
      congrArg (fun k => k.acceptance.inserted) same
    rcases List.mem_append.mp member with old | new
    · obtain ⟨inv, r, p, records⟩ := standing.recorded a old
      refine ⟨inv, r, _, records_kept writes before.unique ?_ old records⟩
      intro g added b stands origin
      have of_operation : g.acceptance_id = some operation := by
        have grants : c.grant_record.inserted =
            acceptedGrants (e.accountId (ids 0)) operation ids e.terms 1 :=
          congrArg (fun k => k.grant_record.inserted) same
        rw [grants] at added
        exact ((acceptedGrants_spec _ operation ids e.terms 1).2 g added).1
      rw [of_operation] at origin
      have distinct := (unique_acceptance unique).1
      rw [applied, inserted, List.map_append, List.nodup_append] at distinct
      refine distinct.2.2 b.id (List.mem_map_of_mem stands) operation (by simp) ?_
      exact (Option.some.inj origin).symm
    · rw [inserted, List.mem_singleton] at new
      subst new
      exact ⟨_, _, _, (records_accepted accepts same fits kept standing.referenced unique).2⟩

omit [DecidableEq ι] in
theorem accessLaws : Laws (accessService config) requests AccessStore.Standing KeepsRevisions where
  refl _ _ member := member
  commit i snapshot store store' now found chance before standing kept committed := by
    have writes := evaluate_writes config snapshot now found (requests i) chance
    refine ⟨standing_of_commit config writes before standing kept committed, ?_⟩
    intro _ old related r member
    obtain ⟨rfl, -⟩ := AccessStore.commit_ok committed
    exact revisions_of_commit config writes r (related r member)
  control c clock store store' standing controlled := control_standing controlled standing

abbrev AccessStep (ι : Type) :=
  Transition (World ι AccessStore Discovery Answer) (Act ι Chance Control)

/-- An acceptance, as the step that commits it finds the invitation. -/
structure AcceptedAt (tr : AccessStep ι) (a : Acceptance) (inv : InvitationRow)
    (r : InvitationRevision) : Prop where
  stored : inv ∈ tr.source.store.invitation ∧ inv.id = a.invitation_id
  pending : inv.state = .pending
  unexpired : a.recorded_at ≤ tr.source.clock ∧ tr.source.clock < inv.expires_at
  current : inv.revision = a.revision ∧ r ∈ tr.source.store.invitation_revision ∧
    r.invitation_id = inv.id ∧ r.revision = inv.revision
  requested : ∃ i attempt found snapshot,
    tr.source.phase i = .opened attempt found snapshot a.recorded_at ∧
    (∃ id, (requests i).body = .accept_invitation id inv.revision a.proof_id) ∧
    (snapshot.authority.compile a.recorded_at (snapshot.authority.account inv.issuer_id)
      inv.family r.grants).terms = some r.terms
  recorded : ∃ p, tr.target.store.Records a
    { inv with state := .accepted, accepted_at := some a.recorded_at } r p

/-- What an operation that is answered an error leaves as it was. -/
structure Unchanged (db next : AccessStore) : Prop where
  invitation : next.invitation = db.invitation
  invitation_revision : next.invitation_revision = db.invitation_revision
  acceptance : next.acceptance = db.acceptance
  grant_record : next.grant_record = db.grant_record
  support_definition : next.support_definition = db.support_definition
  account : next.account = db.account

/-- The operation was committed, and its receipt was lost. -/
def LostReceipt (tr : AccessStep ι) (i : ι) : Prop :=
  ∃ chance receipt w, tr.act = .lose i chance ∧
    worldStep (accessService config) requests tr.source (.finish i chance) = some w ∧
    (w.phase i).answer = some (.ok receipt) ∧ w.store = tr.target.store

omit [DecidableEq ι] in
theorem unchanged_refl (db : AccessStore) : Unchanged db db := ⟨rfl, rfl, rfl, rfl, rfl, rfl⟩

omit [DecidableEq ι] in
theorem unchanged_of_core {c : Changes} {email_proof : Change EmailProof}
    (core : c.core = { email_proof }) (db : AccessStore) : Unchanged db (c.apply db) where
  invitation := by
    change c.invitation.apply _ = _
    rw [show c.invitation = .keep from congrArg CoreChanges.invitation core, Change.keep_apply]
  invitation_revision := by
    change c.invitation_revision.apply _ = _
    rw [show c.invitation_revision = .keep from congrArg CoreChanges.invitation_revision core,
      Change.keep_apply]
  acceptance := by
    change c.acceptance.apply _ = _
    rw [show c.acceptance = .keep from congrArg CoreChanges.acceptance core, Change.keep_apply]
  grant_record := by
    change c.grant_record.apply _ = _
    rw [show c.grant_record = .keep from congrArg CoreChanges.grant_record core, Change.keep_apply]
  support_definition := rfl
  account := by
    change c.account.apply _ = _
    rw [show c.account = .keep from congrArg CoreChanges.account core, Change.keep_apply]

variable {config requests} {tr : AccessStep ι}

omit [DecidableEq ι] in
/-- A refusal that is committed commits next to nothing. -/
theorem unchanged_of_refusal {i : ι} {snapshot : AccessStore} {now : Int} {found : Discovery}
    {chance : Chance} {e : AccessError} {store : AccessStore}
    (refused : (evaluate config snapshot now found (requests i) chance).answer = .error e)
    (commits : Commits (accessService config) tr.source
      (evaluate config snapshot now found (requests i) chance) store) :
    Unchanged tr.source.store store := by
  cases done : perform config snapshot now found (requests i) chance with
  | ok effect =>
    rw [evaluate, done] at refused
    cases refused
  | error f =>
    obtain ⟨email_proof, -, core⟩ := modest_perform config snapshot now found (requests i) chance f done
    have committed : tr.source.store.commit f.changes = .ok store := by
      have changes := commits.2
      rw [evaluate, done] at changes
      exact changes
    obtain ⟨rfl, -⟩ := AccessStore.commit_ok committed
    exact unchanged_of_core core _

omit [DecidableEq ι] in
theorem evaluation_of_opened {w : World ι AccessStore Discovery Answer} {i : ι} {attempt : Nat}
    {found : Discovery} {snapshot : AccessStore} {now : Int}
    (opened : w.phase i = .opened attempt found snapshot now) (chance : Chance) :
    evaluation (accessService config) requests w i chance =
      some (attempt, found, evaluate config snapshot now found (requests i) chance) := by
  rw [evaluation, opened]
  rfl

theorem finish_of_commits {w : World ι AccessStore Discovery Answer} {i : ι} {attempt : Nat}
    {found : Discovery} {snapshot : AccessStore} {now : Int} {chance : Chance} {store : AccessStore}
    (opened : w.phase i = .opened attempt found snapshot now)
    (commits : Commits (accessService config) w
      (evaluate config snapshot now found (requests i) chance) store) :
    worldStep (accessService config) requests w (.finish i chance) =
      some ((w.setStore store).setPhase i (.answered found
        (evaluate config snapshot now found (requests i) chance).answer)) := by
  obtain ⟨early, committed⟩ := commits
  simp only [worldStep, finishStep, evaluation_of_opened opened, early, committed, if_true]

theorem lose_of_commits {w : World ι AccessStore Discovery Answer} {i : ι} {attempt : Nat}
    {found : Discovery} {snapshot : AccessStore} {now : Int} {chance : Chance} {store : AccessStore}
    (opened : w.phase i = .opened attempt found snapshot now)
    (commits : Commits (accessService config) w
      (evaluate config snapshot now found (requests i) chance) store) :
    worldStep (accessService config) requests w (.lose i chance) =
      some ((w.setStore store).setPhase i (.answered found (.error .technical_failure))) := by
  obtain ⟨early, committed⟩ := commits
  simp only [worldStep, loseStep, evaluation_of_opened opened, early, committed, if_true]
  rfl

/-- An error leaves everything as it was, or the receipt was lost. -/
theorem error_step (taken : worldStep (accessService config) requests tr.source tr.act =
    some tr.target) {i : ι} {e : AccessError} (answers : Answers tr.source tr.target i (.error e)) :
    Unchanged tr.source.store tr.target.store ∨
      e = .technical_failure ∧ LostReceipt config requests tr i := by
  rcases answers_cases taken answers with
    ⟨chance, attempt, found, snapshot, now, _, _, commits, answer⟩ | ⟨_, same⟩ |
      ⟨chance, attempt, found, snapshot, now, lost, opened, commits, failed⟩
  · exact .inl (unchanged_of_refusal answer.symm commits)
  · left
    rw [same]
    exact unchanged_refl _
  · cases answer : (evaluate config snapshot now found (requests i) chance).answer with
    | error e' => exact .inl (unchanged_of_refusal answer commits)
    | ok receipt =>
      right
      refine ⟨Except.error.inj failed, chance, receipt, _, lost, finish_of_commits opened commits, ?_,
        rfl⟩
      rw [World.setPhase_self, answer]
      rfl

/-- A step adds the acceptances it commits, and each is of a pending invitation in time. -/
theorem acceptance_step (taken : worldStep (accessService config) requests tr.source tr.act =
    some tr.target)
    (sound : Sound (accessService config) requests AccessStore.Standing KeepsRevisions tr.source) :
    ∃ added, tr.target.store.acceptance = tr.source.store.acceptance ++ added ∧
      ∀ a ∈ added, ∃ inv r, AcceptedAt requests tr a inv r := by
  have nothing : tr.target.store.acceptance = tr.source.store.acceptance →
      ∃ added, tr.target.store.acceptance = tr.source.store.acceptance ++ added ∧
        ∀ a ∈ added, ∃ inv r, AcceptedAt requests tr a inv r := by
    intro same
    refine ⟨[], by rw [List.append_nil]; exact same, ?_⟩
    intro a member
    cases member
  rcases store_cases taken with same | ⟨i, chance, attempt, found, snapshot, now, _, opened, commits⟩ |
    ⟨c, _, controlled⟩
  · exact nothing (congrArg AccessStore.acceptance same)
  · obtain ⟨before, kept, past⟩ := sound.snapshot i _ _ _ _ opened
    have writes := evaluate_writes config snapshot now found (requests i) chance
    have committed : tr.source.store.commit
        (evaluate config snapshot now found (requests i) chance).changes = .ok tr.target.store :=
      commits.2
    obtain ⟨applied, fits, -, unique, -⟩ := AccessStore.commit_ok committed
    have replaced : (evaluate config snapshot now found (requests i) chance).changes.acceptance.replaced
        = [] := writes.acceptances_kept
    have rows : tr.target.store.acceptance = tr.source.store.acceptance ++
        (evaluate config snapshot now found (requests i) chance).changes.acceptance.inserted := by
      rw [applied]
      exact Change.apply_of_none_replaced replaced _
    refine ⟨_, rows, ?_⟩
    intro a member
    rcases writes.acceptance_inserted with ⟨none, -⟩ |
      ⟨e, operation, ids, id, accepts, requested, ends, same⟩
    · rw [show (evaluate config snapshot now found (requests i) chance).changes.acceptance.inserted
        = [] from none] at member
      cases member
    · have inserted : (evaluate config snapshot now found (requests i) chance).changes.acceptance.inserted
          = [⟨operation, e.inv.id, e.inv.revision, e.accountId (ids 0), e.proof.id, now⟩] :=
        congrArg (fun k => k.acceptance.inserted) same
      rw [inserted, List.mem_singleton] at member
      subst member
      have records := records_accepted accepts same fits kept sound.store.referenced
        (by rw [← applied]; exact unique)
      rw [← applied] at records
      have early := deadlines_of_inTime commits.1
      exact ⟨e.inv, e.current, {
        stored := ⟨records.1.1, rfl⟩
        pending := accepts.pending
        unexpired := ⟨past, early _ ends.1⟩
        current := ⟨rfl, records.1.2, accepts.current_of⟩
        requested := by
          refine ⟨i, attempt, found, snapshot, opened, ⟨id, requested⟩, ?_⟩
          rw [← accepts.terms]
          exact accepts.compiled
        recorded := ⟨_, records.2⟩ }⟩
  · have others := (control_keys controlled).others
    refine nothing ?_
    rw [others]

/-- An invitation that is accepted or withdrawn stays as it is. -/
theorem settled_step (taken : worldStep (accessService config) requests tr.source tr.act =
    some tr.target)
    (sound : Sound (accessService config) requests AccessStore.Standing KeepsRevisions tr.source)
    {inv : InvitationRow} (member : inv ∈ tr.source.store.invitation)
    (settled : inv.state ≠ .pending) : inv ∈ tr.target.store.invitation := by
  rcases store_cases taken with same | ⟨i, chance, attempt, found, snapshot, now, _, opened, commits⟩ |
    ⟨c, _, controlled⟩
  · rw [same]
    exact member
  · have writes := evaluate_writes config snapshot now found (requests i) chance
    have committed : tr.source.store.commit
        (evaluate config snapshot now found (requests i) chance).changes = .ok tr.target.store :=
      commits.2
    rw [(AccessStore.commit_ok committed).1]
    refine Change.mem_apply.mpr (.inl ⟨inv, member, ?_⟩)
    rcases writes.invitation_after (sound.snapshot i _ _ _ _ opened).1.unique inv with same | pending
    · exact same
    · exact absurd pending settled
  · rw [(control_keys controlled).others]
    exact member

end Runs

/-! ### An invitation that is accepted -/

def deskToken : String := "aaaaaaaaaaaaaaaaaaaaaaaaaaaaaaaaaaaaaaaaaaa"

def deskConfig : AccessConfig where
  security := ⟨3600, 600, 86400, 5, 5, 600, 10, 5, 2⟩
  digest text := text
  passwordMatches _ _ := true

def deskRoot : Declaration where
  holderPersonRef := some "root"
  revision := some 1
  startsAt := some 0
  termination := .expires (some 10000000)
  issuerPersonRef := some "issuer"
  issuerCapacityRef := some "capacity"
  functionRef := some "function"
  purposeRef := some "purpose"
  maximumGradeRef := some "CONTENT"
  independenceDeclarationRef := some "independence"
  replacementOrChallengeProcedureRef := some "procedure"
  continuousObligationAcceptanceRef := .null
  matters := some []
  partitions := some []
  risks := some []
  populationRef := some "population"

def deskTerm : InvitationTerm where
  permission_id := "read"
  exercise_or_grant := .exercise
  scope_ref := "desk"
  support_ref := "support"
  permission_label := "Read"
  scope_label := "Desk"
  purpose_ref := "purpose"
  support_label := "Support"
  continuity := .domain
  permission_revision := 1
  scope_revision := 1
  support_revision := 1
  expires_at := 9000000
  authority_declarations := []

/-- One issuer, and one invitation of theirs whose address is verified. -/
def deskStore : AccessStore where
  deployment := ⟨"inc02-synthetic", true, 1, "root@desk.test", deskRoot,
    ⟨some "purpose", some "custodian", some "reader", some "disposal", "local-test-mailbox", true,
      true, true, true, true, some 60⟩, 0⟩
  bootstrap_declaration := none
  permission_definition := [⟨"invite", "Invite", .application, 1, true, false⟩,
    ⟨"read", "Read", .application, 1, true, false⟩]
  scope_definition := [⟨"desk", none, "Desk", "purpose", 1, true⟩]
  support_definition := [⟨"support", .domain, none, "Support", 9000000, true, 1⟩]
  investiture := []
  incompatibility := []
  revalidation_event := []
  investiture_resolution := []
  person_determination := []
  account := [⟨⟨"issuer", "person", false, 1, none⟩, "issuer@desk.test", some "verifier", none⟩]
  grant_record :=
    [⟨⟨"invites", "issuer", "invite", .exercise, "desk", "support", 9000000, false, 1⟩, none⟩,
      ⟨⟨"gives", "issuer", "read", .grant, "desk", "support", 9000000, false, 1⟩, none⟩]
  flow := [⟨"flow", deskToken, 5000000, 0⟩]
  session := [⟨"session", "issuer", deskToken, 5000000, false, 1⟩]
  proof := []
  intent := []
  throttle := []
  invitation := [⟨"inv", "issuer", "new@desk.test", .application, 1000, 2000000, 1, .pending, none,
    none⟩]
  invitation_revision := [⟨"inv", 1, [deskTerm.toGrantSelector], [deskTerm], "issuer", 1000⟩]
  email_proof := [⟨"proof", some "inv", "flow", "code", 601000, 1, true, false, false, 1000⟩]
  acceptance := []
  initial_credential_flow := []
  invitation_intent := []
  bootstrap_activation := []

/-- The invited person accepts. -/
def deskRequest (_ : Unit) : Input :=
  ⟨.accept_invitation "inv" 1 "proof", none, some "flow", some deskToken, some "accept", "peer"⟩

def deskChance : Chance where
  operation := "acceptance"
  ids n := if n = 0 then "account" else "grant"
  secrets _ := "secret"
  verifier := "verifier"

abbrev deskStep : World Unit AccessStore Discovery Answer → Act Unit Chance Control →
    Option (World Unit AccessStore Discovery Answer) :=
  worldStep (accessService deskConfig) deskRequest

theorem deskStore_standing : deskStore.Standing where
  unique := by decide +kernel
  referenced := by decide +kernel
  recorded := by
    intro a member
    cases member

theorem eq_ok_of_toOption {ε α : Type} {x : Except ε α} {a : α} (some : x.toOption = some a) :
    x = .ok a := by
  cases x with
  | error e => cases some
  | ok b => exact congrArg Except.ok (Option.some.inj some)

/-- The request is received, discovered and opened, and its commit would succeed. -/
theorem deskRequest_commits : ∃ w attempt found snapshot now store receipt,
    Foundation.perform deskStep (worldStart deskStore 2000)
      [.receive (), .discover (), .opening ()] = some w ∧
    w.phase () = .opened attempt found snapshot now ∧
    Commits (accessService deskConfig) w
      (evaluate deskConfig snapshot now found (deskRequest ()) deskChance) store ∧
    (evaluate deskConfig snapshot now found (deskRequest ()) deskChance).answer = .ok receipt ∧
    w.store.account.length = 1 ∧ store.account.length = 2 := by
  have checked : (Foundation.perform deskStep (worldStart deskStore 2000)
      [.receive (), .discover (), .opening ()]).any (fun w =>
        (evaluation (accessService deskConfig) deskRequest w () deskChance).any fun e =>
          w.store.account.length == 1 && inTime w e.2.2 && e.2.2.answer.toOption.isSome &&
            (w.store.commit e.2.2.changes).toOption.any fun store => store.account.length == 2)
      = true := by
    decide +kernel
  obtain ⟨w, ran, checked⟩ := (Option.any_eq_true _ _).mp checked
  obtain ⟨⟨attempt, found, e⟩, evaluated, checked⟩ := (Option.any_eq_true _ _).mp checked
  obtain ⟨snapshot, now, opened, rfl⟩ := evaluation_eq_some evaluated
  simp only [Bool.and_eq_true, beq_iff_eq] at checked
  obtain ⟨⟨⟨before, early⟩, succeeds⟩, committed⟩ := checked
  obtain ⟨store, stored, after⟩ := (Option.any_eq_true _ _).mp committed
  obtain ⟨receipt, answer⟩ := Option.isSome_iff_exists.mp succeeds
  refine ⟨w, attempt, found, snapshot, now, store, receipt, ran, opened, ⟨early, ?_⟩, ?_, before,
    by simpa using after⟩
  · exact eq_ok_of_toOption stored
  · exact eq_ok_of_toOption answer

end LedgerDesk.Access
