import LedgerDesk.Tickets.Submissions

/-!
# What a customer is told

An acknowledgement names a ticket of its customer with the body submitted, open when the
transaction read it or wrote it. A submission that is not acknowledged was refused for its
accounts, met an identifier already in use, or met its collapse key on another's row.
-/
namespace LedgerDesk.Tickets

open Foundation LedgerDesk.Queue

/-- The ticket a phase has settled on. -/
def IntakePhase.named : IntakePhase → Option String
  | .sought _ held | .timed _ held _ => held.map Ticket.id
  | .filed row => some row.id
  | .folded held _ => some held.id
  | .answered outcome _ => some outcome.acknowledgement.tracking_id
  | _ => none

section Acknowledged

variable {sha256Hex : String → String} {hashtextextended : String → Int}
variable {org : String} {accounts : List Account}
variable {ι : Type*} [DecidableEq ι] {calls : ι → Intake}
variable {s t : IntakeState ι} {act : IntakeAct ι}

/-- A ticket of the customer of the call, with the body it submitted. -/
def IsTicketOf (sha256Hex : String → String) (org : String) (calls : ι → Intake) (i : ι)
    (row : Ticket) : Prop :=
  row.org_id = org ∧ row.customer_id = (calls i).customer ∧
    sha256Hex row.body_raw = sha256Hex (calls i).draft.body

/-- The rows hold that ticket under the identifier. -/
def Names (sha256Hex : String → String) (org : String) (calls : ι → Intake) (i : ι)
    (rows : List Ticket) (id : String) : Prop :=
  ∃ row ∈ rows, row.id = id ∧ IsTicketOf sha256Hex org calls i row

/-- And it is open. -/
def NamesOpen (sha256Hex : String → String) (org : String) (calls : ι → Intake) (i : ι)
    (rows : List Ticket) (id : String) : Prop :=
  ∃ row ∈ rows, row.id = id ∧ IsTicketOf sha256Hex org calls i row ∧ row.status.closed = false

omit [DecidableEq ι] in
theorem NamesOpen.names {i : ι} {rows : List Ticket} {id : String}
    (named : NamesOpen sha256Hex org calls i rows id) : Names sha256Hex org calls i rows id := by
  obtain ⟨row, member, same, mine, -⟩ := named
  exact ⟨row, member, same, mine⟩

omit [DecidableEq ι] in
theorem FiledBy.isTicketOf {i : ι} {row : Ticket} (filed : FiledBy sha256Hex org calls i row) :
    IsTicketOf sha256Hex org calls i row := by
  obtain ⟨uuid, account_id, createdMs, status, rfl⟩ := filed
  exact ⟨rfl, rfl, rfl⟩

/-- A live row of the content is a ticket the call may name. -/
theorem RowsKept.namesOpen (rows : RowsKept sha256Hex org calls s) {i : ι} {row : Ticket}
    (member : row ∈ s.tickets.committed)
    (alive : live (claimsOf org calls i) (digestOf sha256Hex calls i) row = true) :
    NamesOpen sha256Hex org calls i s.tickets.committed row.id := by
  obtain ⟨in_org, customer, digest, is_open⟩ := live_iff.mp alive
  rcases rows.standing row member with plain | ⟨j, filed⟩
  · rw [plain.1] at digest
    cases digest
  · have body := filed.isTicketOf.2.2
    rw [filed.digest, Option.some.injEq] at digest
    exact ⟨row, member, rfl, ⟨in_org, customer, body.trans digest⟩, is_open⟩

/-- A phase names what it named before, or what the step has just read or written. -/
theorem IntakeMove.named {i : ι} {old p : IntakePhase} {tickets : OpenTable ι Ticket}
    {locks : List (ι × Int)}
    (move : IntakeMove sha256Hex hashtextextended org accounts calls s i act old p tickets locks)
    (rows : RowsKept sha256Hex org calls s) (own : s.tickets.own i = old.rows) {id : String}
    (named : p.named = some id) :
    old.named = some id ∨
      ((∃ uuid, act = .statement i uuid) ∧
        NamesOpen sha256Hex org calls i (tickets.visible i) id) := by
  have seen : ∀ row ∈ s.tickets.committed,
      live (claimsOf org calls i) (digestOf sha256Hex calls i) row = true →
      NamesOpen sha256Hex org calls i (s.tickets.visible i) row.id := by
    intro row member alive
    obtain ⟨row', member', named'⟩ := rows.namesOpen member alive
    exact ⟨row', OpenTable.mem_visible.mpr (.inl member'), named'⟩
  cases move with
  | sought =>
    obtain ⟨held, found, rfl⟩ := Option.map_eq_some_iff.mp named
    obtain ⟨sight, alive⟩ := incumbentOn_some found
    refine .inr ⟨⟨_, rfl⟩, seen held ?_ alive⟩
    rcases OpenTable.mem_visible.mp sight with standing | mine
    · exact standing
    · rw [own] at mine
      cases mine
  | @filed uuid account_id held instant fresh new_id new_key =>
    cases named
    refine .inr ⟨⟨_, rfl⟩, _, OpenTable.mem_visible.mpr (.inr ?_), rfl,
      ⟨rfl, rfl, rfl⟩, rfl⟩
    rw [OpenTable.own_insert_self]
    exact List.mem_append_right _ (List.mem_singleton_self _)
  | reread found =>
    cases named
    obtain ⟨member, alive⟩ := incumbentOn_some found
    exact .inr ⟨⟨_, rfl⟩, seen _ member alive⟩
  | timed | folded | committed | released => exact .inl named
  | _ => cases named

/-- A call that still names a ticket has lost no row from sight. -/
theorem IntakeMove.sight {i : ι} {old p : IntakePhase} {tickets : OpenTable ι Ticket}
    {locks : List (ι × Int)}
    (move : IntakeMove sha256Hex hashtextextended org accounts calls s i act old p tickets locks)
    (named : p.named.isSome = true) {row : Ticket} (seen : row ∈ s.tickets.visible i) :
    row ∈ tickets.visible i := by
  cases move with
  | filed =>
    rw [OpenTable.mem_visible, OpenTable.own_insert_self]
    exact (OpenTable.mem_visible.mp seen).imp_right (List.mem_append_left _)
  | committed | released => exact OpenTable.visible_commit_of_visible seen
  | refused | idTaken | keyTaken | crashed => cases named
  | _ => exact seen

/-- Every ticket named was open when a statement of the call named it. -/
def OpenWhenNamed (sha256Hex : String → String) (org : String) (calls : ι → Intake)
    (ts : List (Transition (IntakeState ι) (IntakeAct ι))) (s : IntakeState ι) : Prop :=
  ∀ i id, (s.phase i).named = some id → ∃ tr ∈ ts, (∃ uuid, tr.act = .statement i uuid) ∧
    NamesOpen sha256Hex org calls i (tr.target.tickets.visible i) id

theorem intakeStep_openWhenNamed {before : List (Transition (IntakeState ι) (IntakeAct ι))}
    (taken : intakeStep sha256Hex hashtextextended org accounts calls s act = some t)
    (rows : RowsKept sha256Hex org calls s)
    (opened : OpenWhenNamed sha256Hex org calls before s) :
    OpenWhenNamed sha256Hex org calls (before ++ [⟨s, act, t⟩]) t := by
  intro j id named
  have earlier : (s.phase j).named = some id → ∃ tr ∈ before ++ [⟨s, act, t⟩],
      (∃ uuid, tr.act = .statement j uuid) ∧
        NamesOpen sha256Hex org calls j (tr.target.tickets.visible j) id := by
    intro was
    obtain ⟨tr, member, statement, open_then⟩ := opened j id was
    exact ⟨tr, List.mem_append_left _ member, statement, open_then⟩
  rcases intakeStep_cases taken with ⟨i, p, move, -, phase⟩ | elsewhere
  · by_cases same : j = i
    · subst same
      rw [phase, Function.update_self] at named
      rcases move.named rows (rows.own j) named with was | ⟨statement, open_now⟩
      · exact earlier was
      · exact ⟨_, List.mem_append_right _ (List.mem_singleton_self _), statement, open_now⟩
    · rw [phase, Function.update_of_ne same] at named
      exact earlier named
  · cases elsewhere <;> exact earlier named

/-- What a call has named stays in its sight. -/
theorem intakeStep_names
    (taken : intakeStep sha256Hex hashtextextended org accounts calls s act = some t)
    (rows : RowsKept sha256Hex org calls s)
    (names : ∀ i id, (s.phase i).named = some id →
      Names sha256Hex org calls i (s.tickets.visible i) id) :
    ∀ i id, (t.phase i).named = some id → Names sha256Hex org calls i (t.tickets.visible i) id := by
  intro j id named
  rcases intakeStep_cases taken with ⟨i, p, move, -, phase⟩ | elsewhere
  · have grown : ∀ row ∈ s.tickets.committed, row ∈ t.tickets.committed := by
      intro row member
      rcases move.committed_cases (rows.own i) with stays | ⟨filed, -, -, committed⟩
      · rwa [stays]
      · rw [committed]
        exact List.mem_append_left _ member
    by_cases same : j = i
    · subst same
      rw [phase, Function.update_self] at named
      rcases move.named rows (rows.own j) named with was | ⟨-, open_now⟩
      · obtain ⟨row, seen, named_row⟩ := names j id was
        exact ⟨row, move.sight (by rw [named]; rfl) seen, named_row⟩
      · exact open_now.names
    · rw [phase, Function.update_of_ne same] at named
      obtain ⟨row, seen, named_row⟩ := names j id named
      refine ⟨row, OpenTable.mem_visible.mpr ?_, named_row⟩
      rw [move.own_of_ne same]
      exact (OpenTable.mem_visible.mp seen).imp_left (grown row)
  · cases elsewhere with
    | tick => exact names j id named
    | @move ticket target =>
      obtain ⟨row, seen, rfl, in_org, customer, body⟩ := names j id named
      rcases OpenTable.mem_visible.mp seen with standing | mine
      · refine ⟨moveRow ticket target row,
          OpenTable.mem_visible.mpr (.inl (List.mem_map_of_mem standing)), moveRow_id _ _ _, ?_⟩
        obtain ⟨status, moved⟩ := moveRow_status ticket target row
        rw [moved]
        exact ⟨in_org, customer, body⟩
      · exact ⟨row, OpenTable.mem_visible.mpr (.inr mine), rfl, in_org, customer, body⟩

/-! ### What is not acknowledged -/

/-- The insert of the call finds its identifier in use. -/
def IdTaken (i : ι) (tr : Transition (IntakeState ι) (IntakeAct ι)) : Prop :=
  ∃ uuid, tr.act = .statement i uuid ∧ ∃ row ∈ tr.source.tickets.committed, row.id = uuid

/-- The insert of the call finds a row that carries the key of its body and instant. -/
def KeyTaken (sha256Hex : String → String) (org : String) (calls : ι → Intake) (i : ι)
    (tr : Transition (IntakeState ι) (IntakeAct ι)) : Prop :=
  (∃ uuid, tr.act = .statement i uuid) ∧ ∃ account_id held instant,
    tr.source.phase i = .timed account_id held instant ∧
    (∀ h, held = some h → ¬ Duplicates h instant) ∧
    ∃ row ∈ tr.source.tickets.committed, row.org_id = org ∧
      row.dedupe_key = some (dedupeKey org (digestOf sha256Hex calls i) instant)

/-- The call has not come through, and not by a crash. -/
def IntakePhase.turnedAway : IntakePhase → Bool
  | .failed _ | .conflicted _ => true
  | _ => false

/-- Why a call is turned away. -/
def Excused (sha256Hex : String → String) (org : String) (accounts : List Account)
    (calls : ι → Intake) (ts : List (Transition (IntakeState ι) (IntakeAct ι))) (i : ι) : Prop :=
  (accounts.filter fun a => a.org_id == org).length ≠ 1 ∨
    ∃ tr ∈ ts, IdTaken i tr ∨ KeyTaken sha256Hex org calls i tr

theorem IntakeMove.turnedAway {i : ι} {old p : IntakePhase} {tickets : OpenTable ι Ticket}
    {locks : List (ι × Int)}
    (move : IntakeMove sha256Hex hashtextextended org accounts calls s i act old p tickets locks)
    (phase : s.phase i = old) (own : s.tickets.own i = old.rows)
    (turned : p.turnedAway = true) :
    old.turnedAway = true ∨ (accounts.filter fun a => a.org_id == org).length ≠ 1 ∨
      IdTaken i ⟨s, act, t⟩ ∨ KeyTaken sha256Hex org calls i ⟨s, act, t⟩ := by
  have standing : ∀ row ∈ s.tickets.visible i, old.rows = [] → row ∈ s.tickets.committed := by
    intro row seen nothing
    rcases OpenTable.mem_visible.mp seen with standing | mine
    · exact standing
    · rw [own, nothing] at mine
      cases mine
  cases move with
  | refused several => exact .inr (.inl several)
  | idTaken taken =>
    obtain ⟨row, seen, same⟩ := OpenTable.verdict_conflict.mp taken
    refine .inr (.inr (.inl ⟨_, rfl, row, standing row seen rfl, ?_⟩))
    exact (beq_iff_eq.mp same).symm
  | keyTaken fresh taken =>
    obtain ⟨row, seen, same⟩ := OpenTable.verdict_conflict.mp taken
    simp only [ticketDedupeKey, Bool.and_eq_true, beq_iff_eq] at same
    refine .inr (.inr (.inr ⟨⟨_, rfl⟩, _, _, _, phase, fresh, row, standing row seen rfl, ?_⟩))
    exact ⟨same.1.1.symm, same.2.symm⟩
  | rethrown => exact .inl rfl
  | _ => cases turned

theorem intakeStep_excused {before : List (Transition (IntakeState ι) (IntakeAct ι))}
    (taken : intakeStep sha256Hex hashtextextended org accounts calls s act = some t)
    (rows : RowsKept sha256Hex org calls s)
    (excused : ∀ i, (s.phase i).turnedAway = true →
      Excused sha256Hex org accounts calls before i) :
    ∀ i, (t.phase i).turnedAway = true →
      Excused sha256Hex org accounts calls (before ++ [⟨s, act, t⟩]) i := by
  intro j turned
  have earlier : (s.phase j).turnedAway = true →
      Excused sha256Hex org accounts calls (before ++ [⟨s, act, t⟩]) j := by
    intro was
    refine (excused j was).imp_right fun ⟨tr, member, taken_then⟩ => ?_
    exact ⟨tr, List.mem_append_left _ member, taken_then⟩
  rcases intakeStep_cases taken with ⟨i, p, move, -, phase⟩ | elsewhere
  · by_cases same : j = i
    · subst same
      rw [phase, Function.update_self] at turned
      rcases move.turnedAway (t := t) rfl (rows.own j) turned with was | several | taken_now
      · exact earlier was
      · exact .inl several
      · exact .inr ⟨_, List.mem_append_right _ (List.mem_singleton_self _), taken_now⟩
    · rw [phase, Function.update_of_ne same] at turned
      exact earlier turned
  · cases elsewhere <;> exact earlier turned

end Acknowledged

end LedgerDesk.Tickets
