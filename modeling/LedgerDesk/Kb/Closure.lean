import LedgerDesk.Kb.Uniqueness

/-!
# Closure by verification

A gap is closed on the evidence of one response. The function reads the organisation, the
verdict, the corpus and the citations of it; which ticket it answers it does not ask.
-/
namespace LedgerDesk.Kb

open Foundation

/-! ### Evidence stays where it was read -/

section Tables

variable {t u : KbTables}

theorem grows_prefixes (grows : t.grows u = true) :
    t.tickets <+: u.tickets ∧ t.articles <+: u.articles ∧ t.admissions <+: u.admissions ∧
      t.responses <+: u.responses ∧ t.citations <+: u.citations := by
  simp only [KbTables.grows, Bool.and_eq_true, decide_eq_true_eq] at grows
  exact ⟨grows.1.1.1.1, grows.1.1.1.2, grows.1.1.2, grows.1.2, grows.2⟩

theorem find_of_prefix {α : Type*} {p : α → Bool} {xs ys : List α} {a : α} (grown : xs <+: ys)
    (found : xs.find? p = some a) : ys.find? p = some a := by
  obtain ⟨more, rfl⟩ := grown
  rw [List.find?_append, found, Option.some_or]

theorem any_of_grown {α : Type*} {p q : α → Bool} {xs ys : List α} (grown : xs <+: ys)
    (kept : ∀ a, p a = true → q a = true) (found : xs.any p = true) : ys.any q = true := by
  obtain ⟨a, member, meets⟩ := List.any_eq_true.mp found
  exact List.any_eq_true.mpr ⟨a, grown.subset member, kept a meets⟩

theorem cited_grows (grows : t.grows u = true) {org_id snapshot gap response : String}
    (cited : t.cited org_id snapshot gap response = true) :
    u.cited org_id snapshot gap response = true := by
  obtain ⟨-, articles, admissions, -, citations⟩ := grows_prefixes grows
  refine any_of_grown admissions (fun m => ?_) cited
  simp only [Bool.and_eq_true]
  refine And.imp_right (any_of_grown articles fun admitted => ?_)
  simp only [Bool.and_eq_true]
  refine And.imp_right (any_of_grown articles fun standing => ?_)
  simp only [Bool.and_eq_true]
  exact And.imp_right (any_of_grown citations fun _ meets => meets)

/-- The response as the function has read it: of the organisation, grounded, with the witness of
that and the corpus it was given under. -/
def ResponseRead (tables : KbTables) (org_id response : String) (snapshot : Option String)
    (witness : Nat) : Prop :=
  ∃ r ticket, tables.response response = some r ∧ tables.ticket r.ticket_id = some ticket ∧
    ticket.org_id = org_id ∧ r.grounded = some true ∧ r.validate_ledger_ref = some witness ∧
    r.kb_snapshot = snapshot

theorem checkResponse_ok {org_id response : String} {snapshot : Option String} {witness : Nat}
    (passed : checkResponse t org_id response = .ok (snapshot, witness)) :
    ResponseRead t org_id response snapshot witness := by
  simp only [checkResponse] at passed
  split at passed
  · cases passed
  · next r ticket found =>
    split at passed
    · cases passed
    · next same =>
      split at passed
      · cases passed
      · next anchored =>
        split at passed
        · cases passed
        · next w witnessed =>
          cases passed
          obtain ⟨r', read, joined⟩ := Option.bind_eq_some_iff.mp found
          obtain ⟨ticket', owner, pair⟩ := Option.map_eq_some_iff.mp joined
          cases pair
          exact ⟨r, ticket, read, owner, not_not.mp same, not_not.mp anchored, witnessed, rfl⟩

theorem ResponseRead.grows (grows : t.grows u = true) {org_id response : String}
    {snapshot : Option String} {witness : Nat}
    (read : ResponseRead t org_id response snapshot witness) :
    ResponseRead u org_id response snapshot witness := by
  obtain ⟨tickets, -, -, responses, -⟩ := grows_prefixes grows
  obtain ⟨r, ticket, found, owner, facts⟩ := read
  exact ⟨r, ticket, find_of_prefix responses found, find_of_prefix tickets owner, facts⟩

end Tables

section Closure

variable {isSpace : Char → Bool} {ι : Type*} [DecidableEq ι] {calls : ι → GapCall}

/-- The gap as the function has read it: of the session's organisation. -/
def GapRead (s : KbState ι) (session : Option String) (gap org_id : String) : Prop :=
  session = some org_id ∧ ∃ g ∈ s.gaps.committed, g.id = gap ∧ g.org_id = org_id

/-- The snapshot was in force when the call asked for the head. -/
def InForce (ts : List (Transition (KbState ι) (KbAct ι))) (i : ι) (org_id snapshot : String) :
    Prop :=
  ∃ tr ∈ ts, tr.act = .statement i ∧ tr.source.tables.head org_id = some snapshot

/-- What a call has established by the time it has come so far. -/
def Established (ts : List (Transition (KbState ι) (KbAct ι))) (s : KbState ι) (i : ι)
    (session : Option String) (gap response : String) : GapPhase → Prop
  | .sawGap org_id => GapRead s session gap org_id
  | .sawResponse org_id snapshot witness =>
    GapRead s session gap org_id ∧ ResponseRead s.tables org_id response snapshot witness
  | .sawHead org_id snapshot witness =>
    GapRead s session gap org_id ∧ ResponseRead s.tables org_id response (some snapshot) witness ∧
      InForce ts i org_id snapshot
  | .sawCitation witness | .closed witness =>
    ∃ org_id snapshot, GapRead s session gap org_id ∧
      ResponseRead s.tables org_id response (some snapshot) witness ∧
      InForce ts i org_id snapshot ∧ s.tables.cited org_id snapshot gap response = true
  | _ => True

omit [DecidableEq ι] in
theorem InForce.later {ts : List (Transition (KbState ι) (KbAct ι))} {i : ι}
    {org_id snapshot : String} (seen : InForce ts i org_id snapshot)
    (tr : Transition (KbState ι) (KbAct ι)) : InForce (ts ++ [tr]) i org_id snapshot := by
  obtain ⟨read, member, facts⟩ := seen
  exact ⟨read, List.mem_append_left _ member, facts⟩

omit [DecidableEq ι] in
theorem Established.later {ts : List (Transition (KbState ι) (KbAct ι))} {s : KbState ι} {i : ι}
    {session : Option String} {gap response : String} {p : GapPhase}
    (established : Established ts s i session gap response p)
    (tr : Transition (KbState ι) (KbAct ι)) :
    Established (ts ++ [tr]) s i session gap response p := by
  cases p with
  | sawHead => exact ⟨established.1, established.2.1, established.2.2.later tr⟩
  | sawCitation | closed =>
    obtain ⟨org_id, snapshot, gap_seen, response_seen, in_force, cites⟩ := established
    exact ⟨org_id, snapshot, gap_seen, response_seen, in_force.later tr, cites⟩
  | _ => exact established

omit [DecidableEq ι] in
/-- What is established stands as long as what was read does. -/
theorem Established.kept {ts : List (Transition (KbState ι) (KbAct ι))} {s t : KbState ι} {i : ι}
    {session : Option String} {gap response : String} {p : GapPhase}
    (committed : ∀ g ∈ s.gaps.committed, ∃ h ∈ t.gaps.committed, SameRecord g h)
    (read : ∀ {org_id snapshot witness}, ResponseRead s.tables org_id response snapshot witness →
      ResponseRead t.tables org_id response snapshot witness)
    (cited : ∀ {org_id snapshot}, s.tables.cited org_id snapshot gap response = true →
      t.tables.cited org_id snapshot gap response = true)
    (established : Established ts s i session gap response p) :
    Established ts t i session gap response p := by
  have gap_read : ∀ {org_id}, GapRead s session gap org_id → GapRead t session gap org_id := by
    rintro org_id ⟨own, g, member, named, org⟩
    obtain ⟨h, member', same⟩ := committed g member
    exact ⟨own, h, member', same.id.trans named, same.org.trans org⟩
  cases p with
  | sawGap => exact gap_read established
  | sawResponse => exact ⟨gap_read established.1, read established.2⟩
  | sawHead => exact ⟨gap_read established.1, read established.2.1, established.2.2⟩
  | sawCitation | closed =>
    obtain ⟨org_id, snapshot, gap_seen, response_seen, in_force, cites⟩ := established
    exact ⟨org_id, snapshot, gap_read gap_seen, read response_seen, in_force, cited cites⟩
  | _ => trivial

/-- The call's own step adds what it reads. -/
theorem CallMove.establishes {ts : List (Transition (KbState ι) (KbAct ι))} {s : KbState ι} {i : ι}
    {act : KbAct ι} {old p : GapPhase} {gaps : OpenTable ι KbGap} {t : KbState ι}
    (move : CallMove isSpace calls s i act old p gaps) {session : Option String} {started : Nat}
    {gap response : String} (call : calls i = .closing session started gap response)
    (established : Established ts s i session gap response old) :
    Established (ts ++ [⟨s, act, t⟩]) s i session gap response p := by
  have later := established.later ⟨s, act, t⟩
  cases move with
  | standing opens | unasked opens =>
    rw [call] at opens
    cases opens
  | sawGap closes found =>
    rw [call] at closes
    cases closes
    have meets := List.find?_some found
    simp only [Bool.and_eq_true, beq_iff_eq] at meets
    exact ⟨meets.2.symm, _, List.mem_of_find?_eq_some found, meets.1, rfl⟩
  | sawResponse closes passed =>
    rw [call] at closes
    cases closes
    exact ⟨later, checkResponse_ok passed⟩
  | sawHead head =>
    exact ⟨later.1, later.2, _, List.mem_append_right _ List.mem_cons_self, rfl, head⟩
  | sawCitation closes cites =>
    rw [call] at closes
    cases closes
    exact ⟨_, _, later.1, later.2.1, later.2.2, cites⟩
  | closed => exact later
  | _ => trivial

theorem closed_for_good {s t : KbState ι} {act : KbAct ι}
    (taken : kbStep isSpace calls s act = some t) {i : ι} {witness : Nat}
    (closed : s.phase i = .closed witness) : t.phase i = .closed witness := by
  rcases kbStep_cases taken with
    ⟨j, p, gaps, move, -, -, phase⟩ | ⟨gap, reason, -, rfl⟩ | ⟨tables, -, -, rfl⟩
  · by_cases same : i = j
    · subst same
      rw [closed] at move
      cases move with
      | raised running => cases running
      | rolledBack going => cases going
    · rw [phase, Function.update_of_ne same]
      exact closed
  · exact closed
  · exact closed

variable (calls) in
/-- Some call closed the gap, and the row names the witness of that call. -/
def ClosedBy (s : KbState ι) (g : KbGap) : Prop :=
  ∃ i session started response witness, calls i = .closing session started g.id response ∧
    s.phase i = .closed witness ∧ g.closing_ledger_ref = some witness

variable (isSpace calls) in
structure ClosureInvariant (ts : List (Transition (KbState ι) (KbAct ι))) (s : KbState ι) :
    Prop where
  kb : KbInvariant isSpace calls s
  established : ∀ i session started gap response,
    calls i = .closing session started gap response →
      Established ts s i session gap response (s.phase i)
  written_open : ∀ i, ∀ g ∈ s.gaps.own i, g.state = .OPEN
  closed : ∀ g ∈ s.gaps.committed, g.state = .CLOSED → ClosedBy calls s g

theorem kbGapRecord_open {session : Option String} {started : Nat} {args : GapOpenArgs}
    {row : KbGap} (checked : kbGapRecord isSpace session started args = .ok row) :
    row.state = .OPEN := by
  simp only [kbGapRecord] at checked
  split at checked
  · cases checked
  · simp only [except_bind_eq_ok] at checked
    obtain ⟨_, -, _, -, _, -, _, -, _, -, _, -, _, -, _, -, written⟩ := checked
    cases written
    rfl

theorem kbStep_established {ts : List (Transition (KbState ι) (KbAct ι))} {s t : KbState ι}
    {act : KbAct ι} (taken : kbStep isSpace calls s act = some t) {i : ι}
    {session : Option String} {started : Nat} {gap response : String}
    (call : calls i = .closing session started gap response)
    (established : Established ts s i session gap response (s.phase i)) :
    Established (ts ++ [⟨s, act, t⟩]) t i session gap response (t.phase i) := by
  have committed := fun g => kbStep_committed taken (g := g)
  rcases kbStep_cases taken with
    ⟨j, p, gaps, move, left, tables, phase⟩ | ⟨gap', reason, -, rfl⟩ | ⟨tables, -, grows, rfl⟩
  · have same_tables : ∀ {org_id snapshot witness},
        ResponseRead s.tables org_id response snapshot witness →
        ResponseRead t.tables org_id response snapshot witness := by
      rw [tables]
      exact fun read => read
    have same_cites : ∀ {org_id snapshot},
        s.tables.cited org_id snapshot gap response = true →
        t.tables.cited org_id snapshot gap response = true := by
      rw [tables]
      exact fun cites => cites
    by_cases same : i = j
    · subst same
      rw [phase, Function.update_self]
      exact (move.establishes call established).kept committed same_tables same_cites
    · rw [phase, Function.update_of_ne same]
      exact (established.later _).kept committed same_tables same_cites
  · exact (established.later _).kept committed (fun read => read) fun cites => cites
  · exact (established.later _).kept committed (fun read => read.grows grows) fun cites =>
      cited_grows grows cites

/-- A row that is not yet committed is open. -/
theorem kbStep_written {s t : KbState ι} {act : KbAct ι}
    (taken : kbStep isSpace calls s act = some t) (inv : KbInvariant isSpace calls s)
    (written : ∀ i, ∀ g ∈ s.gaps.own i, g.state = .OPEN) :
    ∀ i, ∀ g ∈ t.gaps.own i, g.state = .OPEN := by
  intro i
  rcases kbStep_cases taken with
    ⟨j, p, gaps, move, left, -, -⟩ | ⟨gap, reason, -, rfl⟩ | ⟨tables, -, -, rfl⟩
  · rw [left]
    have checked := inv.records j
    generalize s.phase j = old at move checked
    by_cases same : i = j
    · subst same
      cases move with
      | @inserted row =>
        intro g member
        rw [OpenTable.own_insert_self] at member
        rcases List.mem_append.mp member with before | last
        · exact written i g before
        · rw [List.mem_singleton.mp last]
          obtain ⟨session, started, args, -, record⟩ := checked row rfl
          exact kbGapRecord_open record
      | committed | raised | rolledBack => simp
      | _ => exact written i
    · cases move with
      | inserted => rw [OpenTable.own_insert_of_ne same]; exact written i
      | committed => rw [OpenTable.own_commit_of_ne same]; exact written i
      | raised => rw [OpenTable.own_rollback_of_ne same]; exact written i
      | rolledBack => rw [OpenTable.own_rollback_of_ne same]; exact written i
      | _ => exact written i
  · exact written i
  · exact written i

theorem kbStep_closed {s t : KbState ι} {act : KbAct ι}
    (taken : kbStep isSpace calls s act = some t)
    (written : ∀ i, ∀ g ∈ s.gaps.own i, g.state = .OPEN)
    (closed : ∀ g ∈ s.gaps.committed, g.state = .CLOSED → ClosedBy calls s g) :
    ∀ g ∈ t.gaps.committed, g.state = .CLOSED → ClosedBy calls t g := by
  have still : ∀ g, ClosedBy calls s g → ClosedBy calls t g := by
    rintro g ⟨i, session, started, response, witness, call, phase, named⟩
    exact ⟨i, session, started, response, witness, call, closed_for_good taken phase, named⟩
  have before : ∀ g ∈ s.gaps.committed, g.state = .CLOSED → ClosedBy calls t g :=
    fun g member is_closed => still g (closed g member is_closed)
  rcases kbStep_cases taken with
    ⟨j, p, gaps, move, left, -, phase⟩ | ⟨gap, reason, -, rfl⟩ | ⟨tables, -, -, rfl⟩
  · rw [left]
    generalize s.phase j = old at move
    cases move with
    | committed =>
      intro g member is_closed
      rcases List.mem_append.mp member with standing | own
      · exact before g standing is_closed
      · rw [written j g own] at is_closed
        cases is_closed
    | @closed session started gap response witness call =>
      intro g member is_closed
      obtain ⟨g', standing, rfl⟩ := List.mem_map.mp member
      by_cases named : g'.id = gap
      · subst named
        refine ⟨j, session, started, response, witness, ?_, ?_, ?_⟩
        · rw [closeRow, if_pos rfl]
          exact call
        · rw [phase, Function.update_self]
        · rw [closeRow, if_pos rfl]
      · rw [closeRow, if_neg named] at is_closed ⊢
        exact before g' standing is_closed
    | _ => exact before
  · intro g member is_closed
    obtain ⟨g', standing, rfl⟩ := List.mem_map.mp member
    rw [markRow] at is_closed ⊢
    split
    · next marked =>
      rw [if_pos marked] at is_closed
      cases is_closed
    · next unmarked =>
      rw [if_neg unmarked] at is_closed
      exact before g' standing is_closed
  · exact before

theorem kbStart_closure (tables : KbTables) :
    ClosureInvariant isSpace calls [] (kbStart tables) where
  kb := kbStart_invariant tables
  established _ _ _ _ _ _ := trivial
  written_open i g member := by cases member
  closed g member := by cases member

theorem kbStep_closure {ts : List (Transition (KbState ι) (KbAct ι))} {s t : KbState ι}
    {act : KbAct ι} (taken : kbStep isSpace calls s act = some t)
    (inv : ClosureInvariant isSpace calls ts s) :
    ClosureInvariant isSpace calls (ts ++ [⟨s, act, t⟩]) t where
  kb := kbStep_invariant taken inv.kb
  established i session started gap response call :=
    kbStep_established taken call (inv.established i session started gap response call)
  written_open := kbStep_written taken inv.kb inv.written_open
  closed := kbStep_closed taken inv.written_open inv.closed

/-! ### Closure is earned where the response is the ticket's own -/

/-- The response is a grounded answer of the gap's organisation, given under the corpus in force
when the call asked for it, and cites by its key an article admitted against the gap. -/
def Verified (ts : List (Transition (KbState ι) (KbAct ι))) (s : KbState ι) (i : ι)
    (session : Option String) (gap response : String) (witness : Nat) : Prop :=
  ∃ org_id snapshot, GapRead s session gap org_id ∧
    ResponseRead s.tables org_id response (some snapshot) witness ∧
    InForce ts i org_id snapshot ∧ s.tables.cited org_id snapshot gap response = true

/-- The response was given to the gap's own ticket. -/
def OwnTicket (s : KbState ι) (gap response : String) : Prop :=
  ∃ g ∈ s.gaps.committed, g.id = gap ∧
    ∃ r, s.tables.response response = some r ∧ r.ticket_id = g.ticket_id

variable (calls) in
/-- Each closure rests on a verified response of the gap's own ticket, and no gap is closed
without one. -/
def ClosuresEarned (ts : List (Transition (KbState ι) (KbAct ι))) (s : KbState ι) : Prop :=
  (∀ i session started gap response witness, calls i = .closing session started gap response →
    s.phase i = .closed witness →
      Verified ts s i session gap response witness ∧ OwnTicket s gap response) ∧
  ∀ g ∈ s.gaps.committed, g.state = .CLOSED → ClosedBy calls s g

variable (calls) in
/-- No call closes a gap with a response that was given to another ticket. -/
def RespondsToGap (s : KbState ι) : Prop :=
  ∀ i session started gap response witness, calls i = .closing session started gap response →
    s.phase i = .closed witness → ∀ g ∈ s.gaps.committed, g.id = gap →
      ∀ r, s.tables.response response = some r → r.ticket_id = g.ticket_id

/-- In every reachable state the closures are earned if and only if none of them was given a
response of another ticket. -/
theorem closures_earned_iff {tables : KbTables} {s : KbState ι}
    {ts : List (Transition (KbState ι) (KbAct ι))}
    (run : Run (kbStep isSpace calls) (kbStart tables) ts s) :
    ClosuresEarned calls ts s ↔ RespondsToGap calls s := by
  have inv := run.traced (P := ClosureInvariant isSpace calls)
    (fun _ _ _ _ taken => kbStep_closure taken) [] (kbStart_closure tables)
  rw [List.nil_append] at inv
  constructor
  · intro earned i session started gap response witness call closed g member named r read
    obtain ⟨-, g', member', named', r', read', own⟩ := earned.1 i session started gap response
      witness call closed
    -- an id is that of one gap
    have same : g' = g := by
      refine OpenTable.eq_of_clash clashes_symm inv.kb.unique.committed member' member ?_
      simp [clashes, named, named']
    rw [read] at read'
    cases read'
    rw [own, same]
  · refine fun responds => ⟨fun i session started gap response witness call closed => ?_,
      inv.closed⟩
    have established := inv.established i session started gap response call
    rw [closed] at established
    obtain ⟨org_id, snapshot, gap_read, response_read, in_force, cites⟩ := established
    refine ⟨⟨org_id, snapshot, gap_read, response_read, in_force, cites⟩, ?_⟩
    obtain ⟨-, g, member, named, -⟩ := gap_read
    obtain ⟨r, -, read, -⟩ := response_read
    exact ⟨g, member, named, r, read, responds i session started gap response witness call closed
      g member named r read⟩

end Closure

/-! ### A gap closed by an answer to another ticket -/

/-- The response of the other ticket, given to close the gap of the first. -/
def strayTables : KbTables :=
  { reaskTables with
    tickets := [⟨"t", "org"⟩, ⟨"other", "org"⟩]
    responses := [⟨"r", "other", some "s2", some true, some 1⟩] }

local instance fiveNeZero : NeZero 5 := ⟨by decide⟩

def strayActs : List (KbAct (Fin 5)) :=
  List.replicate 4 (.statement 0) ++ [.commit 0] ++ List.replicate 5 (.statement 1)

def GapPhase.witness : GapPhase → Option Nat
  | .closed witness => some witness
  | _ => none

/-- What the run left of the one closing call, the one gap and the response. -/
def closureSummary (s : KbState (Fin 5)) : Option Nat × List (String × String) × Option String :=
  ((s.phase 1).witness, s.gaps.committed.map fun g => (g.id, g.ticket_id),
    (s.tables.response "r").map Response.ticket_id)

theorem ticket_of_summary {s : KbState (Fin 5)} {witness : Option Nat} {ticket : Option String}
    (summary : closureSummary s = (witness, [("g1", "t")], ticket)) {g : KbGap}
    (member : g ∈ s.gaps.committed) : g.ticket_id = "t" := by
  have listed := List.mem_map_of_mem (f := fun g : KbGap => (g.id, g.ticket_id)) member
  have gaps := congrArg (fun summary => summary.2.1) summary
  simp only [closureSummary] at gaps
  rw [gaps, List.mem_singleton] at listed
  exact (Prod.mk.inj listed).2

theorem closed_of_witness {p : GapPhase} {witness : Nat} (closed : p.witness = some witness) :
    p = .closed witness := by
  cases p with
  | closed w =>
    cases closed
    rfl
  | _ => cases closed

private theorem stray_outcome :
    (perform reaskStep (kbStart strayTables) strayActs).map closureSummary =
      some (some 1, [("g1", "t")], some "other") := by
  decide +kernel

theorem stray_response_closes :
    ∃ s ts, Run reaskStep (kbStart strayTables) ts s ∧ ¬ ClosuresEarned reaskCalls ts s := by
  obtain ⟨s, performed, summary⟩ := Option.map_eq_some_iff.mp stray_outcome
  refine ⟨s, _, run_of_perform _ _ _ _ performed, fun earned => ?_⟩
  have closed := closed_of_witness (congrArg Prod.fst summary)
  have given := congrArg (fun summary => summary.2.2) summary
  obtain ⟨-, g, member, -, r, read, own⟩ := earned.1 1 _ _ _ _ _ rfl closed
  simp only [closureSummary, read, Option.map_some, Option.some.injEq] at given
  rw [given, ticket_of_summary summary member] at own
  exact absurd own (by decide)

private theorem own_outcome :
    (perform reaskStep (kbStart reaskTables) strayActs).map closureSummary =
      some (some 1, [("g1", "t")], some "t") := by
  decide +kernel

theorem own_response_closes :
    ∃ s ts, Run reaskStep (kbStart reaskTables) ts s ∧ (s.phase 1).witness = some 1 ∧
      ClosuresEarned reaskCalls ts s := by
  obtain ⟨s, performed, summary⟩ := Option.map_eq_some_iff.mp own_outcome
  have run := run_of_perform _ _ _ _ performed
  have given := congrArg (fun summary => summary.2.2) summary
  refine ⟨s, _, run, congrArg Prod.fst summary, (closures_earned_iff run).mpr ?_⟩
  intro i session started gap response witness call closed g member named r read
  -- the second call is the one that closes
  fin_cases i <;> cases call
  simp only [closureSummary, read, Option.map_some, Option.some.injEq] at given
  rw [given, ticket_of_summary summary member]

end LedgerDesk.Kb
