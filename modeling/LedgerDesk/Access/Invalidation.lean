import LedgerDesk.Access.Sessions

/-!
# Sessions that are over

No row of a session is taken away, and none that is revoked is restored. What recovers a
credential or restricts an account has the store to itself, and revokes every session the
account has there.
-/
namespace LedgerDesk.Access

open Foundation

/-! ### What a transaction does to sessions -/

/-- The sessions a change replaces are revoked, and stay the account's. -/
def Ending (c : Change SessionRow) : Prop :=
  ∀ u ∈ c.replaced, u.2.digest = u.1.digest ∧ u.2.account_id = u.1.account_id ∧ u.2.revoked = true

def Does (P : Changes → Prop) (x : Attempt) : Prop := ∀ e, x = .ok e → P e.changes

theorem does_ok {P : Changes → Prop} {e : Effect} (holds : P e.changes) : Does P (.ok e) := by
  rintro e ⟨⟩
  exact holds

theorem does_error {P : Changes → Prop} (f : Failure) : Does P (.error f) := nofun

theorem does_then {P : Changes → Prop} {α : Type} {x : Except Failure α} {f : α → Attempt}
    (rest : ∀ a, Does P (f a)) : Does P (x >>= f) := by
  intro e done
  obtain ⟨a, -, done⟩ := bind_eq_ok done
  exact rest a e done

theorem ending_keep : Ending .keep := nofun

theorem ending_insert (rows : List SessionRow) : Ending (.insert rows) := nofun

theorem ending_update {rows : List SessionRow} {chosen : SessionRow → Bool}
    {set : SessionRow → SessionRow} (ends : ∀ s, (set s).digest = s.digest ∧
      (set s).account_id = s.account_id ∧ (set s).revoked = true) :
    Ending (.update rows chosen set) := by
  intro u member
  obtain ⟨-, -, same⟩ := Change.mem_replaced_update.mp member
  rw [same]
  exact ends u.1

section Routes

variable {config : AccessConfig} {db : AccessStore} {now : Int} {found : Discovery} {input : Input}
  {chance : Chance}

theorem tolerates_sessions : Tolerates fun c => c.session = .keep where
  plain := rfl
  throttle _ := rfl
  proof _ := rfl
  email_proof _ _ := rfl

theorem invitationRoute_sessions (ctx : InvitationContext) (expiry : Int) (body : Body)
    (peer : String) :
    Does (fun c => c.session = .keep) (invitationRoute config db ctx chance expiry body peer) := by
  cases body with
  | issue_invitation =>
    exact does_then fun _ => does_then fun _ => does_then fun _ => does_then fun _ =>
      does_then fun _ => does_ok rfl
  | amend_invitation =>
    exact does_then fun _ => does_then fun _ => does_then fun _ => does_then fun _ =>
      does_then fun _ => does_then fun _ => does_ok rfl
  | withdraw_invitation =>
    exact does_then fun _ => does_then fun _ => does_then fun _ => does_ok rfl
  | invitation_challenge invitation_id =>
    refine does_then fun flow => ?_
    unfold invitationChallenge
    dsimp only
    refine does_ok ?_
    split
    · rfl
    · rfl
  | verify_invitation_email =>
    refine does_then fun flow => does_then fun p => does_then fun _ => ?_
    split
    · exact does_ok rfl
    · exact does_error _
  | accept_invitation => exact does_then fun _ => does_then fun _ => does_ok rfl
  | initial_credential =>
    exact does_then fun _ => does_then fun _ => does_then fun _ => does_then fun _ =>
      does_then fun _ => does_ok rfl
  | withdraw_grant =>
    exact does_then fun _ => does_then fun _ => does_then fun _ => does_then fun _ =>
      does_then fun _ => does_ok rfl
  | _ => exact does_error _

theorem performInvitation_sessions :
    Does (fun c => c.session = .keep) (performInvitation config db chance now found input) := by
  refine does_then fun _ => does_then fun credential => does_then fun _ => does_then fun _ =>
    does_then fun _ => ?_
  dsimp only
  split
  · exact does_then fun _ => does_then fun _ => does_ok rfl
  · intro e done
    obtain ⟨inner, routed, done⟩ := bind_eq_ok done
    cases done
    exact invitationRoute_sessions _ _ _ _ inner routed

theorem activateMaster_sessions (p : ProofRow) :
    Does (fun c => c.session = .keep) (activateMaster db now chance p) := by
  unfold activateMaster
  split
  · exact does_error _
  · intro e done
    obtain ⟨booted, boots, done⟩ := bind_eq_ok done
    cases done
    have kept : Does (fun c => c.session = .keep) (materializeBootstrap
        { db with account := db.account ++ [⟨⟨chance.ids 0,
          db.deployment.root.holderPersonRef.getD "", false, 1, some "master"⟩, p.email,
          some chance.verifier, none⟩] } (chance.ids 0) chance.operation now chance.ids) :=
      does_then fun _ => does_then fun _ => does_then fun _ => does_then fun _ =>
        does_then fun _ => does_then fun _ => does_ok rfl
    exact kept booted boots

theorem recoverCredential_sessions (p : ProofRow) :
    Does (fun c => Ending c.session) (recoverCredential db now chance p) := by
  unfold recoverCredential
  split
  · exact does_error _
  · dsimp only
    split
    · exact does_error _
    · exact does_ok (ending_update fun _ => ⟨rfl, rfl, rfl⟩)

theorem withProof_sessions {purpose : ProofPurpose} {challenge_id code : String}
    {next : ProofRow → Attempt} (ending : ∀ p, Does (fun c => Ending c.session) (next p)) :
    Does (fun c => Ending c.session) (withProof config db now purpose challenge_id code next) := by
  refine does_then fun p => does_then fun _ => ?_
  split
  · exact ending p
  · exact does_error _

theorem serviceRoute_sessions (expiry : Int) (credential : Credential) :
    Does (fun c => Ending c.session) (serviceRoute config db now chance input expiry credential) := by
  have challenged (purpose : ProofPurpose) (email : String) :
      Does (fun c => Ending c.session) (challenge config db now chance purpose expiry email) := by
    unfold challenge
    dsimp only
    split
    · exact does_ok ending_keep
    · exact does_ok ending_keep
  unfold serviceRoute
  split
  · exact challenged _ _
  · exact challenged _ _
  · refine withProof_sessions fun p e done => ?_
    have kept : e.changes.session = .keep := activateMaster_sessions p e done
    change Ending e.changes.session
    rw [kept]
    exact ending_keep
  · exact withProof_sessions recoverCredential_sessions
  · unfold login
    dsimp only
    split
    · exact does_error _
    · split
      · exact does_error _
      · split
        · exact does_error _
        · exact does_ok (ending_insert _)
  · exact does_ok (ending_update fun _ => ⟨rfl, rfl, rfl⟩)
  · exact does_error _

theorem performService_sessions :
    Does (fun c => Ending c.session) (performService config db now chance input) := by
  refine does_then fun _ => ?_
  split
  · unfold reception
    split
    · exact does_error _
    · split
      · exact does_ok ending_keep
      · exact does_ok ending_keep
  · refine does_then fun credential => does_then fun _ => does_then fun _ => ?_
    dsimp only
    split
    · exact does_then fun _ => does_then fun _ => does_ok ending_keep
    · intro e done
      obtain ⟨inner, routed, done⟩ := bind_eq_ok done
      cases done
      exact serviceRoute_sessions _ _ inner routed

theorem evaluate_sessions (config : AccessConfig) (db : AccessStore) (now : Int) (found : Discovery)
    (input : Input) (chance : Chance) :
    Ending (evaluate config db now found input chance).changes.session := by
  rw [evaluate]
  cases done : perform config db now found input chance with
  | ok effect =>
    unfold perform at done
    split at done
    · have kept : effect.changes.session = .keep := performInvitation_sessions effect done
      exact kept ▸ ending_keep
    · exact performService_sessions effect done
  | error f =>
    have kept : f.changes.session = .keep :=
      within_perform tolerates_sessions config db now found input chance f done
    exact kept ▸ ending_keep

end Routes

/-! ### Rows -/

/-- The session is the account's, and over where it is marked so. -/
structure Keeps (digest account_id : String) (over_ : Bool) (db : AccessStore) : Prop where
  unique : db.unique = true
  row : ∃ s ∈ db.session, s.digest = digest ∧ s.account_id = account_id ∧
    (over_ = true → s.revoked = true)

theorem unique_session {db : AccessStore} (unique : db.unique = true) :
    (db.session.map (·.digest)).Nodup := by
  rw [AccessStore.unique, decide_eq_true_eq] at unique
  exact unique.2.2.2.2.2.1

theorem keeps_commit {digest account_id : String} {over_ : Bool} {db next : AccessStore} {c : Changes}
    (keeps : Keeps digest account_id over_ db) (ending : Ending c.session)
    (committed : db.commit c = .ok next) : Keeps digest account_id over_ next := by
  obtain ⟨rfl, -, -, unique, -⟩ := AccessStore.commit_ok committed
  obtain ⟨s, member, same, holder, revoked⟩ := keeps.row
  refine ⟨unique, c.session.after s, Change.mem_apply.mpr (.inl ⟨s, member, rfl⟩), ?_⟩
  rcases c.session.after_eq s with ⟨kept, -⟩ | replaced
  · rw [kept]
    exact ⟨same, holder, revoked⟩
  · obtain ⟨digests, accounts, ended⟩ := ending _ replaced
    exact ⟨digests.trans same, accounts.trans holder, fun _ => ended⟩

theorem keeps_control {digest account_id : String} {over_ : Bool} {db next : AccessStore}
    {clock : Int} {c : Control} (keeps : Keeps digest account_id over_ db)
    (controlled : control clock db c = some next) : Keeps digest account_id over_ next := by
  refine ⟨control_unique controlled keeps.unique, ?_⟩
  obtain ⟨s, member, same, holder, revoked⟩ := keeps.row
  cases c with
  | restrict_account account restricted =>
    cases controlled
    refine ⟨_, List.mem_map_of_mem member, ?_⟩
    split
    · exact ⟨same, holder, fun _ => rfl⟩
    · exact ⟨same, holder, revoked⟩
  | set_support | set_revalidation | end_investiture | set_control =>
    simp only [control] at controlled
    split at controlled
    all_goals cases controlled
    all_goals exact ⟨s, member, same, holder, revoked⟩

/-! ### Lookups -/

section Lookups

variable {config : AccessConfig} {db : AccessStore} {now : Int} {s : SessionRow} {a : AccountRow}

theorem sessionWith_some {digest : String} (found : db.sessionWith digest = some s) :
    s ∈ db.session ∧ s.digest = digest := by
  refine ⟨List.mem_of_find?_eq_some found, ?_⟩
  simpa using List.find?_some found

theorem sessionJoined_some {digest : String} (found : sessionJoined db digest = some (s, a)) :
    s ∈ db.session ∧ s.digest = digest := by
  obtain ⟨row, stored, joined⟩ := Option.bind_eq_some_iff.mp found
  obtain ⟨account, -, same⟩ := Option.map_eq_some_iff.mp joined
  cases same
  exact sessionWith_some stored

/-- Whoever looks it up, a session that is accepted is one that was presented, and not revoked. -/
theorem Entry.session_some {entry : Entry} (accepted : entry.session config db now = some (s, a)) :
    s ∈ db.session ∧ s.revoked = false ∧ entry.presents config = some s.digest := by
  cases entry with
  | access input =>
    obtain ⟨row, looked, accepted⟩ := Option.bind_eq_some_iff.mp accepted
    obtain ⟨token, presented, stored⟩ := Option.bind_eq_some_iff.mp looked
    obtain ⟨account, -, accepted⟩ := Option.bind_eq_some_iff.mp accepted
    split at accepted
    · cases accepted
    · next valid =>
      cases accepted
      obtain ⟨member, same⟩ := sessionWith_some stored
      refine ⟨member, ?_, ?_⟩
      · simp only [Bool.or_eq_true, not_or, Bool.not_eq_true] at valid
        exact valid.1.1.1
      · rw [Entry.presents, presented, same]
        rfl
  | reader reader =>
    have routed (session : Option String)
        (accepted : routeSession config db now session = some (s, a)) :
        s ∈ db.session ∧ s.revoked = false ∧ session.map config.digest = some s.digest := by
      obtain ⟨looked, valid⟩ := Option.filter_eq_some_iff.mp accepted
      obtain ⟨token, presented, joined⟩ := Option.bind_eq_some_iff.mp looked
      obtain ⟨member, same⟩ := sessionJoined_some joined
      simp only [Bool.not_eq_true', Bool.or_eq_false_iff] at valid
      exact ⟨member, valid.1.1.1, by rw [presented, same]; rfl⟩
    cases reader with
    | current_session session => exact routed session accepted
    | capabilities session => exact routed session accepted
    | invitation_view session flow => exact routed session accepted
    | operation_result session flow => exact routed session accepted
    | reading token =>
      obtain ⟨joined, valid⟩ := Option.filter_eq_some_iff.mp accepted
      obtain ⟨member, same⟩ := sessionJoined_some joined
      simp only [Bool.not_eq_true', Bool.or_eq_false_iff] at valid
      exact ⟨member, valid.1.1.1, by rw [Entry.presents, same]⟩
    | reception post csrf token =>
      obtain ⟨joined, valid⟩ := Option.filter_eq_some_iff.mp accepted
      obtain ⟨member, same⟩ := sessionJoined_some joined
      simp only [Bool.not_eq_true', Bool.or_eq_false_iff] at valid
      exact ⟨member, valid.1.1.1.1, by rw [Entry.presents, same]⟩
    | processing origin_session principal =>
      obtain ⟨account, -, mapped⟩ := Option.bind_eq_some_iff.mp accepted
      obtain ⟨row, filtered, same⟩ := Option.map_eq_some_iff.mp mapped
      cases same
      obtain ⟨stored, valid⟩ := Option.filter_eq_some_iff.mp filtered
      obtain ⟨member, same⟩ := sessionWith_some stored
      simp only [Bool.not_eq_true', Bool.or_eq_false_iff] at valid
      exact ⟨member, valid.1.1.1, by rw [Entry.presents, same]⟩

/-- A session that is over lets nobody in. -/
theorem Keeps.refused {digest account_id : String} (keeps : Keeps digest account_id true db)
    {entry : Entry} (presents : entry.presents config = some digest) :
    entry.session config db now = none := by
  cases accepted : entry.session config db now with
  | none => rfl
  | some found =>
    obtain ⟨member, valid, presented⟩ := Entry.session_some accepted
    obtain ⟨row, stored, same, -, revoked⟩ := keeps.row
    rw [presents, Option.some.injEq] at presented
    have equal := eq_of_key (unique_session keeps.unique) stored member (same.trans presented)
    rw [← equal, revoked rfl] at valid
    cases valid

end Lookups

/-! ### Runs -/

section Runs

variable {ι : Type} [DecidableEq ι] {σ τ : Type} (config : AccessConfig)
variable (respond : Reader → AccessStore → Int → Option (SessionRow × AccountRow) → τ →
  Except AccessError (σ × List Int))
variable (requests : ι → Entry)

abbrev PortalWorld (ι σ : Type) := World ι AccessStore Discovery (Except AccessError (Served σ))

abbrev PortalStep (ι σ τ : Type) := Transition (PortalWorld ι σ) (Act ι (Chance × τ) Control)

/-- The step commits a recovery of the account's credential, one that was not recorded before, or
restricts the account. -/
inductive Invalidates (tr : PortalStep ι σ τ) (account_id : String) : Prop
  | recover_credential {i : ι} {chance : Chance} {other : τ} {attempt : Nat} {found : Discovery}
    {snapshot : AccessStore} {now : Int} {input : Input} {challenge_id code password : String}
    {flow : FlowRow} {p : ProofRow} {account : AccountRow} {receipt : Receipt}
    (request : requests i = .access input)
    (body : input.body = .recover_credential challenge_id code password)
    (opened : tr.source.phase i = .opened attempt found snapshot now)
    (current : currentFlow snapshot config now input = some flow)
    (new : ∀ n ∈ snapshot.intent, n.binding = intentKey input (.flow flow) →
      input.intent ≠ some n.intention)
    (proof : snapshot.proofWith challenge_id = some p)
    (holder : snapshot.accountOf p.email = some account) (id : account.id = account_id)
    (answer : (evaluate config snapshot now found input chance).answer = .ok receipt)
    (acts : tr.act = .finish i (chance, other) ∨ tr.act = .lose i (chance, other))
    (commits : Commits (portalService config respond) tr.source
      ((portalService config respond).evaluate snapshot now found (requests i) (chance, other))
      tr.target.store)
  | restrict_account (restricted : Bool)
    (acts : tr.act = .control (.restrict_account account_id restricted))

variable {config respond requests}

/-- What is committed of an entry. -/
theorem portal_changes (db : AccessStore) (now : Int) (found : Discovery) (entry : Entry)
    (chance : Chance × τ) :
    Ending ((portalService config respond).evaluate db now found entry chance).changes.session := by
  cases entry with
  | access input => exact evaluate_sessions config db now found input chance.1
  | reader reader =>
    change Ending (evaluateReader config respond db now reader chance.2).changes.session
    unfold evaluateReader
    dsimp only
    split
    · exact ending_keep
    · split
      · exact ending_keep
      · split
        · exact ending_keep
        · exact ending_keep

omit [DecidableEq ι] in
theorem keepsLaws (digest account_id : String) (over_ : Bool) :
    Laws (portalService config respond) requests (Keeps digest account_id over_) fun _ _ => True where
  refl _ := trivial
  commit i snapshot _ _ now found chance _ keeps _ committed :=
    ⟨keeps_commit keeps (portal_changes snapshot now found (requests i) chance) committed,
      fun _ _ _ => trivial⟩
  control _ _ _ _ keeps controlled := keeps_control keeps controlled

omit [DecidableEq ι] in
theorem uniqueLaws : Laws (portalService config respond) requests
    (fun db => db.unique = true) fun _ _ => True where
  refl _ := trivial
  commit _ _ _ _ _ _ _ _ _ _ committed :=
    ⟨(AccessStore.commit_ok committed).2.2.2.1, fun _ _ _ => trivial⟩
  control _ _ _ _ unique controlled := control_unique controlled unique

theorem keeps_run {digest account_id : String} {over_ : Bool} {w w' : PortalWorld ι σ}
    {ts : List (PortalStep ι σ τ)}
    (run : Run (worldStep (portalService config respond) requests) w ts w')
    (keeps : Keeps digest account_id over_ w.store) : Keeps digest account_id over_ w'.store := by
  refine (run.invariant (P := fun w => Keeps digest account_id over_ w.store) ?_ keeps).1
  intro w a w' taken keeps
  rcases store_cases taken with same | ⟨i, chance, _, found, snapshot, now, _, _, commits⟩ |
    ⟨c, _, controlled⟩
  · rw [same]
    exact keeps
  · exact keeps_commit keeps (portal_changes snapshot now found (requests i) chance) commits.2
  · exact keeps_control keeps controlled

/-- The session table an effect of a recovery leaves. -/
theorem recover_sessions {db : AccessStore} {now : Int} {found : Discovery} {input : Input}
    {chance : Chance} {challenge_id code password : String} {flow : FlowRow} {p : ProofRow}
    {account : AccountRow} {receipt : Receipt}
    (body : input.body = .recover_credential challenge_id code password)
    (current : currentFlow db config now input = some flow)
    (new : ∀ n ∈ db.intent, n.binding = intentKey input (.flow flow) →
      input.intent ≠ some n.intention)
    (proof : db.proofWith challenge_id = some p) (holder : db.accountOf p.email = some account)
    (answer : (evaluate config db now found input chance).answer = .ok receipt) :
    (evaluate config db now found input chance).changes.session =
      .update db.session (fun s => s.account_id == account.id)
        fun s => { s with revoked := true, revision := s.revision + 1 } := by
  have credential : serviceCredential config db now input = some (.flow flow) := by
    simp [serviceCredential, sessionRoute, body, current]
  have unrecorded : (db.intent.find? fun n =>
      n.binding == intentKey input (.flow flow) && input.intent == some n.intention) = none := by
    refine List.find?_eq_none.mpr fun n member => ?_
    simp only [Bool.and_eq_true, beq_iff_eq, not_and]
    exact new n member
  rw [evaluate] at answer ⊢
  cases done : perform config db now found input chance with
  | error f =>
    rw [done] at answer
    cases answer
  | ok effect =>
    change effect.changes.session = _
    have service : performService config db now chance input = .ok effect := by
      rw [perform, body] at done
      exact done
    obtain ⟨_, _, service⟩ := bind_eq_ok service
    rw [body] at service
    obtain ⟨credential', some_, service⟩ := bind_eq_ok service
    have same := present_eq_ok some_
    rw [credential, Option.some.injEq] at same
    subst same
    obtain ⟨_, _, service⟩ := bind_eq_ok service
    obtain ⟨_, _, service⟩ := bind_eq_ok service
    dsimp only at service
    rw [unrecorded] at service
    obtain ⟨inner, routed, service⟩ := bind_eq_ok service
    cases service
    simp only [serviceRoute, body] at routed
    obtain ⟨q, looked, routed⟩ := bind_eq_ok routed
    have same := present_eq_ok looked
    rw [proof, Option.some.injEq] at same
    subst same
    obtain ⟨_, _, routed⟩ := bind_eq_ok routed
    split at routed
    · rw [recoverCredential, holder] at routed
      dsimp only at routed
      split at routed
      · cases routed
      · cases routed
        rfl
    · cases routed

/-- Where the sessions of an account are invalidated, those it has are over, and nobody has a
transaction open. -/
theorem invalidated {tr : PortalStep ι σ τ} {account_id : String}
    (taken : worldStep (portalService config respond) requests tr.source tr.act = some tr.target)
    (sound : Sound (portalService config respond) requests (fun db => db.unique = true)
      (fun _ _ => True) tr.source)
    (present : Current (portalService config respond) requests tr.source)
    (invalidates : Invalidates config respond requests tr account_id) {s : SessionRow}
    (issued : s ∈ tr.source.store.session) (holder : s.account_id = account_id) :
    Sound (portalService config respond) requests (Keeps s.digest account_id true)
      (fun _ _ => True) tr.target := by
  have after := sound.step uniqueLaws taken
  refine ⟨⟨after.store, ?_⟩, after.connected, after.alone, ?_⟩
  · cases invalidates with
    | recover_credential request body opened current new proof account id answer acts commits =>
      -- the exclusive admission makes the snapshot the store
      have same := present _ _ _ _ _ (by rw [request]; simp [portalService, Body.exclusive, body])
        opened
      subst same
      have sessions := recover_sessions body current new proof account answer
      have committed := (AccessStore.commit_ok commits.2).1
      rw [request] at committed
      rw [committed]
      refine ⟨_, Change.mem_apply.mpr (.inl ⟨s, issued, rfl⟩), ?_⟩
      change ((evaluate config _ _ _ _ _).changes.session.after s).digest = _ ∧
        ((evaluate config _ _ _ _ _).changes.session.after s).account_id = _ ∧
        (_ → ((evaluate config _ _ _ _ _).changes.session.after s).revoked = true)
      rw [sessions, Change.update_after issued, if_pos (by simp [holder, id])]
      exact ⟨rfl, holder, fun _ => rfl⟩
    | restrict_account restricted acts =>
      rw [acts] at taken
      simp only [worldStep] at taken
      split at taken
      · obtain ⟨store, controlled, same⟩ := Option.map_eq_some_iff.mp taken
        cases controlled
        rw [← same]
        refine ⟨_, List.mem_map_of_mem issued, ?_⟩
        rw [if_pos (by simp [holder])]
        exact ⟨rfl, holder, fun _ => rfl⟩
      · cases taken
  · intro j attempt found snapshot now opened
    have member : j ∈ tr.target.live := after.connected j (by rw [opened]; rfl)
    cases invalidates with
    | @recover_credential i _ _ _ _ _ _ _ _ _ _ _ _ _ _ request body open_ _ _ _ _ _ _ acts _ =>
      rcases opened_cases taken opened with ⟨other, before⟩ | ⟨opens, -, -⟩
      · have mine : j = i := by
          have connected := sound.connected i (by rw [open_]; rfl)
          refine sound.alone i connected ?_ j (sound.connected j (by rw [before]; rfl))
          rw [request]
          simp [portalService, Body.exclusive, body]
        subst mine
        rcases acts with acts | acts
        · rw [acts] at other
          exact absurd rfl other
        · rw [acts] at other
          exact absurd rfl other
      · rcases acts with acts | acts
        · rw [acts] at opens
          cases opens
        · rw [acts] at opens
          cases opens
    | restrict_account restricted acts =>
      rw [acts] at taken
      rw [(idle_of_control taken).2] at member
      cases member

theorem current_run {store : AccessStore} {clock : Int} {ts : List (PortalStep ι σ τ)}
    {w : PortalWorld ι σ} (unique : store.unique = true)
    (run : Run (worldStep (portalService config respond) requests) (worldStart store clock) ts w) :
    ∀ tr ∈ ts, Sound (portalService config respond) requests (fun db => db.unique = true)
      (fun _ _ => True) tr.source ∧ Current (portalService config respond) requests tr.source := by
  have kept := run.invariant
    (P := fun w => Sound (portalService config respond) requests (fun db => db.unique = true)
      (fun _ _ => True) w ∧ Current (portalService config respond) requests w)
    (fun w a w' taken held => ⟨held.1.step uniqueLaws taken, held.2.step held.1 taken⟩)
    ⟨sound_start unique, current_start⟩
  exact fun tr member => (kept.2 tr member).1

theorem performService_refused {db : AccessStore} {now : Int} {input : Input} {chance : Chance}
    {effect : Effect} (none_ : currentSession db config now input = none)
    (logout : sessionRoute input.body = true) :
    performService config db now chance input ≠ .ok effect := by
  intro done
  obtain ⟨_, _, done⟩ := bind_eq_ok done
  split at done
  · next reception =>
    rw [beq_iff_eq.mp reception] at logout
    cases logout
  · obtain ⟨credential, some_, -⟩ := bind_eq_ok done
    have found := present_eq_ok some_
    rw [serviceCredential, if_pos logout, none_] at found
    cases found

theorem performInvitation_refused {db : AccessStore} {now : Int} {found : Discovery} {input : Input}
    {chance : Chance} {effect : Effect} (none_ : currentSession db config now input = none)
    (presented : input.session.isSome = true) (looksUp : (Entry.access input).looksUp = true)
    (invites : input.body.invites = true) :
    performInvitation config db chance now found input ≠ .ok effect := by
  intro done
  have plain : sessionRoute input.body = false := by
    cases body : input.body <;> simp_all [Body.invites, sessionRoute]
  have bound : input.body.provisionalOnly = false := by
    simpa [Entry.looksUp, plain, invites] using looksUp
  obtain ⟨_, admitted, done⟩ := bind_eq_ok done
  obtain ⟨credential, some_, -⟩ := bind_eq_ok done
  have administrative : input.body.administrative = true := by
    have checked := require_eq_ok admitted
    rw [bound, Option.isNone_eq_false_iff.mpr presented] at checked
    simpa [invitationContext, none_] using checked
  have credentialed := present_eq_ok some_
  rw [invitationCredential, if_pos administrative] at credentialed
  simp [invitationContext, none_] at credentialed

/-- What an entry is answered that comes with a session that is not accepted. -/
theorem evaluate_refused {db : AccessStore} {now : Int} {found : Discovery} {entry : Entry}
    {chance : Chance × τ} (looksUp : entry.looksUp = true)
    (presents : (entry.presents config).isSome = true)
    (refused : entry.session config db now = none) :
    ∃ error, ((portalService config respond).evaluate db now found entry chance).answer =
      .error error := by
  cases entry with
  | access input =>
    have presented : input.session.isSome = true := by simpa [Entry.presents] using presents
    have none_ : currentSession db config now input = none := refused
    cases done : perform config db now found input chance.1 with
    | ok effect =>
      rw [perform] at done
      split at done
      · next invites => exact absurd done (performInvitation_refused none_ presented looksUp invites)
      · next serves =>
        have logout : sessionRoute input.body = true := by
          simpa [Entry.looksUp, serves] using looksUp
        exact absurd done (performService_refused none_ logout)
    | error f =>
      refine ⟨f.error, ?_⟩
      change ((evaluate config db now found input chance.1).answer.map Served.receipt) = _
      rw [evaluate, done]
      rfl
  | reader reader =>
    change ∃ error, (evaluateReader config respond db now reader chance.2).answer = .error error
    unfold evaluateReader
    dsimp only
    split
    · exact ⟨_, rfl⟩
    · rw [refused]
      have bound : reader.provisional = false := by
        cases reader with
        | invitation_view session => cases session <;> simp_all [Entry.presents, Reader.provisional]
        | operation_result session => cases session <;> simp_all [Entry.presents, Reader.provisional]
        | _ => rfl
      simp [bound]

/-- Once a recovery of an account's credential or its restriction is committed, no session the
account had is accepted again: no transaction opened since finds it valid, whatever it looks it
up for, and who comes with it is answered an error. -/
theorem session_invalidation {store : AccessStore} {clock : Int} {ts : List (PortalStep ι σ τ)}
    {w : PortalWorld ι σ} (unique : store.unique = true)
    (run : Run (worldStep (portalService config respond) requests) (worldStart store clock) ts w)
    {pre post : List (PortalStep ι σ τ)} {tr : PortalStep ι σ τ} (cut : ts = pre ++ tr :: post)
    {account_id : String} (invalidates : Invalidates config respond requests tr account_id)
    {before : PortalStep ι σ τ} (earlier : before ∈ pre ++ [tr]) {s : SessionRow}
    (issued : s ∈ before.source.store.session) (holder : s.account_id = account_id) :
    (∀ later ∈ post, ∀ i attempt found snapshot now,
      later.source.phase i = .opened attempt found snapshot now →
        ∀ t a, (requests i).session config snapshot now = some (t, a) → t.digest ≠ s.digest) ∧
    ∀ later ∈ post, ∀ i answer, Answers later.source later.target i answer →
      (requests i).presents config = some s.digest → (requests i).looksUp = true →
        ∃ error, answer = .error error := by
  subst cut
  have every := current_run unique run
  -- the session is still there, as the account's, when it is invalidated
  have kept : Keeps s.digest account_id false tr.source.store := by
    have now_ : Keeps s.digest account_id false before.source.store :=
      ⟨(every before (by rcases List.mem_append.mp earlier with h | h <;> simp_all)).1.store, s,
        issued, rfl, holder, nofun⟩
    rcases List.mem_append.mp earlier with past | last
    · obtain ⟨xs, ys, rfl⟩ := List.append_of_mem past
      rw [List.append_assoc, List.cons_append] at run
      obtain ⟨-, first, rest⟩ := run.split_cons
      exact keeps_run (.step first (rest.split_cons).1) now_
    · rw [List.mem_singleton.mp last] at now_
      exact now_
  obtain ⟨row, stored, same, holds, -⟩ := kept.row
  obtain ⟨-, taken, rest⟩ := run.split_cons
  have ended := invalidated taken (every tr (by simp)).1 (every tr (by simp)).2 invalidates stored
    holds
  rw [same] at ended
  have later_sound := (ended.run (keepsLaws s.digest account_id true) rest).2
  refine ⟨?_, ?_⟩
  · intro later member i attempt found snapshot now opened t a accepted same
    have standing := ((later_sound later member).1.snapshot i _ _ _ _ opened).1
    have presents := (Entry.session_some accepted).2.2
    rw [same] at presents
    rw [standing.refused presents] at accepted
    cases accepted
  · intro later member i answer answers presents looksUp
    rcases answers_cases (rest.steps later member) answers with
      ⟨chance, _, _, _, _, _, opened, _, rfl⟩ | ⟨rfl, _⟩ | ⟨_, _, _, _, _, _, _, _, rfl⟩
    · have standing := ((later_sound later member).1.snapshot i _ _ _ _ opened).1
      exact evaluate_refused looksUp (by rw [presents]; rfl) (standing.refused presents)
    · exact ⟨_, rfl⟩
    · exact ⟨_, rfl⟩

end Runs

/-! ### A restricted desk -/

def deskRespond (_ : Reader) (_ : AccessStore) (_ : Int) (_ : Option (SessionRow × AccountRow))
    (_ : Unit) : Except AccessError (Unit × List Int) :=
  .ok ((), [])

def deskReader (_ : Unit) : Entry := .reader (.current_session (some "session"))

abbrev deskPortal : PortalWorld Unit Unit → Act Unit (Chance × Unit) Control →
    Option (PortalWorld Unit Unit) :=
  worldStep (portalService deskConfig deskRespond) deskReader

def deskActs : List (Act Unit (Chance × Unit) Control) :=
  [.receive (), .discover (), .opening (), .finish () (deskChance, ())]

/-- The issuer's session is answered before its account is restricted, and not after. -/
theorem deskSession_over :
    ((Foundation.perform deskPortal (worldStart deskStore 2000) deskActs).bind fun w =>
      (w.phase ()).answer.map fun answer => answer.toOption.isSome) = some true ∧
    ∃ (tr : PortalStep Unit Unit Unit) (post : List (PortalStep Unit Unit Unit))
      (w : PortalWorld Unit Unit), Run deskPortal (worldStart deskStore 2000) (tr :: post) w ∧
      tr.act = .control (.restrict_account "issuer" true) ∧ (w.phase ()).answer.isSome = true ∧
      ∀ later ∈ post, ∀ i answer, Answers later.source later.target i answer →
        ∃ error, answer = .error error := by
  refine ⟨by decide +kernel, ?_⟩
  have restricts : ∃ w, deskPortal (worldStart deskStore 2000)
      (.control (.restrict_account "issuer" true)) = some w ∧
      ((Foundation.perform deskPortal w deskActs).any fun w => (w.phase ()).answer.isSome) = true :=
    ⟨_, rfl, by decide +kernel⟩
  obtain ⟨w₁, taken, checked⟩ := restricts
  obtain ⟨w, performed, answered⟩ := (Option.any_eq_true _ _).mp checked
  have run := Run.step taken (run_of_perform _ _ _ _ performed)
  refine ⟨_, _, w, run, rfl, answered, ?_⟩
  intro later member i answer answers
  have cut := (List.nil_append (⟨worldStart deskStore 2000,
    .control (.restrict_account "issuer" true), w₁⟩ ::
      Foundation.transitions deskPortal w₁ deskActs)).symm
  have restricts : Invalidates deskConfig deskRespond deskReader
      ⟨worldStart deskStore 2000, .control (.restrict_account "issuer" true), w₁⟩ "issuer" :=
    .restrict_account true rfl
  exact (session_invalidation (by decide +kernel) run cut restricts List.mem_cons_self
    (s := ⟨"session", "issuer", deskToken, 5000000, false, 1⟩) List.mem_cons_self rfl).2 later member
    i answer answers rfl rfl

end LedgerDesk.Access
