import LedgerDesk.Tickets.Intake

/-!
# What intake keeps

A submission holds its lock from the incumbent it reads to its commit, so nothing of its
content is filed meanwhile by anyone, and what it read of its customer is still the latest.
-/
namespace LedgerDesk.Tickets

open Foundation LedgerDesk.Queue

theorem ticketPkey_symm (a b : Ticket) : ticketPkey a b = ticketPkey b a := by
  simp only [ticketPkey]
  exact Bool.beq_comm

namespace IntakePhase

/-- The transaction has its lock. -/
def holds : IntakePhase → Bool
  | .locked _ | .sought _ _ | .timed _ _ _ | .filed _ | .folded _ _ => true
  | _ => false

/-- The rows of the transaction. -/
def rows : IntakePhase → List Ticket
  | .filed row => [row]
  | _ => []

theorem holds_of_ended {p : IntakePhase} (ended : p.ended = true) : p.holds = false := by
  cases p <;> first | rfl | cases ended

end IntakePhase

theorem moveRow_status (ticket : String) (target : TicketState) (row : Ticket) :
    ∃ status, moveRow ticket target row = { row with status } := by
  rw [moveRow]
  split
  · exact ⟨_, rfl⟩
  · exact ⟨row.status, rfl⟩

@[simp] theorem moveRow_id (ticket : String) (target : TicketState) (row : Ticket) :
    (moveRow ticket target row).id = row.id := by
  obtain ⟨status, moved⟩ := moveRow_status ticket target row
  rw [moved]

section Invariants

variable {sha256Hex : String → String} {hashtextextended : String → Int}
variable {org : String} {accounts : List Account}
variable {ι : Type*} [DecidableEq ι] {calls : ι → Intake}
variable {s t : IntakeState ι} {act : IntakeAct ι}

/-! ### Locks -/

structure LocksKept (sha256Hex : String → String) (hashtextextended : String → Int) (org : String)
    (calls : ι → Intake) (s : IntakeState ι) : Prop where
  single : ∀ a ∈ s.locks, ∀ b ∈ s.locks, a.2 = b.2 → a.1 = b.1
  held : ∀ i, (s.phase i).holds = true →
    (i, lockKey sha256Hex hashtextextended org calls i) ∈ s.locks

/-- The locks of every call after a step of one, but for the lock the step itself takes. -/
theorem IntakeMove.locks {i : ι} {old p : IntakePhase} {tickets : OpenTable ι Ticket}
    {locks : List (ι × Int)}
    (move : IntakeMove sha256Hex hashtextextended org accounts calls s i act old p tickets locks) :
    (locks = s.locks ∧ (p.holds = true → old.holds = true)) ∨
      (locks = s.locks.filter (fun l => l.1 ≠ i) ∧ p.holds = false) ∨
      (locks = (i, lockKey sha256Hex hashtextextended org calls i) :: s.locks ∧
        ∀ l ∈ s.locks, l.2 = lockKey sha256Hex hashtextextended org calls i → l.1 = i) := by
  cases move with
  | locked free => exact .inr (.inr ⟨rfl, free⟩)
  | refused | idTaken | keyTaken | committed | released | crashed => exact .inr (.inl ⟨rfl, rfl⟩)
  | counted => exact .inl ⟨rfl, fun held => nomatch held⟩
  | reread | rethrown => exact .inl ⟨rfl, fun held => nomatch held⟩
  | sought | timed | folded | filed => exact .inl ⟨rfl, fun _ => rfl⟩

theorem intakeStep_locks
    (taken : intakeStep sha256Hex hashtextextended org accounts calls s act = some t)
    (kept : LocksKept sha256Hex hashtextextended org calls s) :
    LocksKept sha256Hex hashtextextended org calls t := by
  rcases intakeStep_cases taken with ⟨i, p, move, -, phase⟩ | elsewhere
  · have others : ∀ j, j ≠ i → (t.phase j).holds = true →
        (j, lockKey sha256Hex hashtextextended org calls j) ∈ s.locks := by
      intro j other held
      rw [phase, Function.update_of_ne other] at held
      exact kept.held j held
    have self : t.phase i = p := by rw [phase, Function.update_self]
    rcases move.locks with ⟨locks, holds⟩ | ⟨locks, free⟩ | ⟨locks, free⟩
    · refine ⟨by rw [locks]; exact kept.single, fun j held => ?_⟩
      rw [locks]
      by_cases same : j = i
      · subst same
        exact kept.held j (holds (self ▸ held))
      · exact others j same held
    · refine ⟨fun a member b member' => ?_, fun j held => ?_⟩
      · rw [locks] at member member'
        exact kept.single a (List.mem_of_mem_filter member) b (List.mem_of_mem_filter member')
      · have other : j ≠ i := by
          rintro rfl
          rw [self, free] at held
          cases held
        rw [locks]
        exact List.mem_filter.mpr ⟨others j other held, decide_eq_true other⟩
    · refine ⟨fun a member b member' same => ?_, fun j held => ?_⟩
      · rw [locks] at member member'
        rcases List.mem_cons.mp member with rfl | earlier
        · rcases List.mem_cons.mp member' with rfl | earlier'
          · rfl
          · exact (free b earlier' same.symm).symm
        · rcases List.mem_cons.mp member' with rfl | earlier'
          · exact free a earlier same
          · exact kept.single a earlier b earlier' same
      · rw [locks]
        by_cases same : j = i
        · subst same
          exact List.mem_cons_self
        · exact List.mem_cons_of_mem _ (others j same held)
  · cases elsewhere <;> exact ⟨kept.single, kept.held⟩

omit [DecidableEq ι] in
/-- Two calls that hold the lock of one content are one call. -/
theorem LocksKept.alone (kept : LocksKept sha256Hex hashtextextended org calls s) {i j : ι}
    (held : (s.phase i).holds = true) (held' : (s.phase j).holds = true)
    (same : digestOf sha256Hex calls i = digestOf sha256Hex calls j) : i = j := by
  refine kept.single _ (kept.held i held) _ (kept.held j held') ?_
  simp only [lockKey, same]

/-! ### Rows -/

/-- A row some call filed, in whatever state it is in by now. -/
def FiledBy (sha256Hex : String → String) (org : String) (calls : ι → Intake) (i : ι)
    (ticket : Ticket) : Prop :=
  ∃ uuid account_id createdMs status,
    ticket = { freshTicket sha256Hex org calls i uuid account_id createdMs with status }

/-- A row that takes no part in the collapse. -/
def Plain (ticket : Ticket) : Prop := ticket.body_sha256 = none ∧ ticket.dedupe_key = none

structure RowsKept (sha256Hex : String → String) (org : String) (calls : ι → Intake)
    (s : IntakeState ι) : Prop where
  own : ∀ i, s.tickets.own i = (s.phase i).rows
  pending : ∀ i row, s.phase i = .filed row →
    FiledBy sha256Hex org calls i row ∧ row.status = .NEW
  standing : ∀ row ∈ s.tickets.committed, Plain row ∨ ∃ i, FiledBy sha256Hex org calls i row
  ids : s.tickets.Unique ticketPkey

omit [DecidableEq ι] in
theorem FiledBy.move {i : ι} {row : Ticket} (filed : FiledBy sha256Hex org calls i row)
    (ticket : String) (target : TicketState) :
    FiledBy sha256Hex org calls i (moveRow ticket target row) := by
  obtain ⟨uuid, account_id, createdMs, status, rfl⟩ := filed
  obtain ⟨status', moved⟩ := moveRow_status ticket target _
  exact ⟨uuid, account_id, createdMs, status', moved⟩

/-- A step of one call leaves the rows of the others. -/
theorem IntakeMove.own_of_ne {i j : ι} {old p : IntakePhase} {tickets : OpenTable ι Ticket}
    {locks : List (ι × Int)}
    (move : IntakeMove sha256Hex hashtextextended org accounts calls s i act old p tickets locks)
    (other : j ≠ i) : tickets.own j = s.tickets.own j := by
  cases move with
  | filed => exact OpenTable.own_insert_of_ne other _
  | refused | idTaken | keyTaken | crashed => exact OpenTable.own_rollback_of_ne other
  | committed | released => exact OpenTable.own_commit_of_ne other
  | _ => rfl

theorem IntakeMove.own_self {i : ι} {old p : IntakePhase} {tickets : OpenTable ι Ticket}
    {locks : List (ι × Int)}
    (move : IntakeMove sha256Hex hashtextextended org accounts calls s i act old p tickets locks)
    (own : s.tickets.own i = old.rows) : tickets.own i = p.rows := by
  cases move with
  | filed => rw [OpenTable.own_insert_self, own]; rfl
  | refused | idTaken | keyTaken | crashed => exact OpenTable.own_rollback_self
  | committed | released => exact OpenTable.own_commit_self
  | _ => exact own

/-- What a step of a call commits. -/
theorem IntakeMove.committed_cases {i : ι} {old p : IntakePhase} {tickets : OpenTable ι Ticket}
    {locks : List (ι × Int)}
    (move : IntakeMove sha256Hex hashtextextended org accounts calls s i act old p tickets locks)
    (own : s.tickets.own i = old.rows) :
    tickets.committed = s.tickets.committed ∨
      ∃ row, old = .filed row ∧ p = .answered (acknowledge row false) row.created_at ∧
        tickets.committed = s.tickets.committed ++ [row] := by
  cases move with
  | committed => exact .inr ⟨_, rfl, rfl, by rw [IntakeState.commit, OpenTable.committed_commit, own]; rfl⟩
  | released =>
    refine .inl ?_
    rw [IntakeState.commit, OpenTable.committed_commit, own]
    exact List.append_nil _
  | _ => exact .inl rfl

theorem IntakeMove.filed_row {i : ι} {old : IntakePhase} {row : Ticket}
    {tickets : OpenTable ι Ticket} {locks : List (ι × Int)}
    (move : IntakeMove sha256Hex hashtextextended org accounts calls s i act old (.filed row)
      tickets locks) : FiledBy sha256Hex org calls i row ∧ row.status = .NEW := by
  cases move
  exact ⟨⟨_, _, _, _, rfl⟩, rfl⟩

theorem IntakeMove.unique_ids {i : ι} {old p : IntakePhase} {tickets : OpenTable ι Ticket}
    {locks : List (ι × Int)}
    (move : IntakeMove sha256Hex hashtextextended org accounts calls s i act old p tickets locks)
    (unique : s.tickets.Unique ticketPkey) : tickets.Unique ticketPkey := by
  cases move with
  | filed fresh new_id new_key => exact OpenTable.unique_insert ticketPkey_symm unique new_id
  | refused | idTaken | keyTaken | crashed => exact OpenTable.unique_rollback unique
  | committed | released => exact OpenTable.unique_commit ticketPkey_symm unique
  | _ => exact unique

theorem intakeStep_rows
    (taken : intakeStep sha256Hex hashtextextended org accounts calls s act = some t)
    (kept : RowsKept sha256Hex org calls s) : RowsKept sha256Hex org calls t := by
  rcases intakeStep_cases taken with ⟨i, p, move, -, phase⟩ | elsewhere
  · have self : t.phase i = p := by rw [phase, Function.update_self]
    refine ⟨fun j => ?_, fun j row filed => ?_, fun row member => ?_, ?_⟩
    · by_cases same : j = i
      · subst same
        rw [self]
        exact move.own_self (kept.own j)
      · rw [move.own_of_ne same, phase, Function.update_of_ne same]
        exact kept.own j
    · by_cases same : j = i
      · subst same
        rw [self] at filed
        rw [filed] at move
        exact move.filed_row
      · rw [phase, Function.update_of_ne same] at filed
        exact kept.pending j row filed
    · rcases move.committed_cases (kept.own i) with stays | ⟨filed, was, -, committed⟩
      · rw [stays] at member
        exact kept.standing row member
      · rw [committed] at member
        rcases List.mem_append.mp member with stood | last
        · exact kept.standing row stood
        · rw [List.mem_singleton.mp last]
          exact .inr ⟨i, (kept.pending i filed was).1⟩
    · exact move.unique_ids kept.ids
  · cases elsewhere with
    | tick after => exact ⟨kept.own, kept.pending, kept.standing, kept.ids⟩
    | @move ticket target =>
      refine ⟨kept.own, kept.pending, fun row member => ?_, ?_⟩
      · obtain ⟨row, stood, rfl⟩ := List.mem_map.mp member
        refine (kept.standing row stood).imp (fun plain => ?_) fun ⟨i, filed⟩ =>
          ⟨i, filed.move ticket target⟩
        obtain ⟨status, moved⟩ := moveRow_status ticket target row
        rw [moved]
        exact plain
      · refine OpenTable.unique_update (fun a _ b _ apart => ?_) (fun a _ b apart => ?_) kept.ids
        · simpa [ticketPkey] using apart
        · simpa [ticketPkey] using apart

/-! ### The latest ticket of a content -/

theorem newest_mem {rows : List Ticket} {best : Ticket} (found : newest rows = some best) :
    best ∈ rows := by
  induction rows generalizing best with
  | nil => cases found
  | cons row rest ih =>
    rw [newest] at found
    split at found
    · cases found
      exact List.mem_cons_self
    · next rest_best eq =>
      cases found
      split
      · exact List.mem_cons_self
      · exact List.mem_cons_of_mem _ (ih eq)

theorem newest_latest {rows : List Ticket} {row : Ticket} (member : row ∈ rows) :
    ∃ best, newest rows = some best ∧ row.created_at ≤ best.created_at := by
  induction rows with
  | nil => cases member
  | cons first rest ih =>
    rw [newest]
    split
    · next none_rest =>
      rcases List.mem_cons.mp member with rfl | tail
      · exact ⟨_, rfl, le_refl _⟩
      · obtain ⟨best, found, -⟩ := ih tail
        rw [none_rest] at found
        cases found
    · next best found =>
      refine ⟨_, rfl, ?_⟩
      have rest_le : row ∈ rest → row.created_at ≤ best.created_at := by
        intro tail
        obtain ⟨best', found', after⟩ := ih tail
        rw [found] at found'
        cases found'
        exact after
      split
      · next is_later =>
        rcases List.mem_cons.mp member with rfl | tail
        · exact le_refl _
        · refine (rest_le tail).trans ?_
          simp only [later, Bool.or_eq_true, Bool.and_eq_true, decide_eq_true_eq, beq_iff_eq]
            at is_later
          omega
      · next earlier =>
        rcases List.mem_cons.mp member with rfl | tail
        · simp only [later, Bool.or_eq_true, decide_eq_true_eq] at earlier
          omega
        · exact rest_le tail

omit [DecidableEq ι] in
theorem incumbentOn_some {i : ι} {rows : List Ticket} {held : Ticket}
    (found : incumbentOn sha256Hex org calls i rows = some held) :
    held ∈ rows ∧ live (claimsOf org calls i) (digestOf sha256Hex calls i) held = true :=
  List.mem_filter.mp (newest_mem found)

omit [DecidableEq ι] in
theorem incumbentOn_latest {i : ι} {rows : List Ticket} {row : Ticket} (member : row ∈ rows)
    (alive : live (claimsOf org calls i) (digestOf sha256Hex calls i) row = true) :
    ∃ held, incumbentOn sha256Hex org calls i rows = some held ∧
      row.created_at ≤ held.created_at :=
  newest_latest (List.mem_filter.mpr ⟨member, alive⟩)

omit [DecidableEq ι] in
/-- An open ticket of the caller with the body of its submission. -/
theorem live_iff {i : ι} {row : Ticket} :
    live (claimsOf org calls i) (digestOf sha256Hex calls i) row = true ↔
      row.org_id = org ∧ row.customer_id = (calls i).customer ∧
        row.body_sha256 = some (digestOf sha256Hex calls i) ∧ row.status.closed = false := by
  simp [live, selects, claimsOf, and_assoc]

/-! ### Spacing -/

/-- Both open, of one customer and one body, and less than the window apart. -/
def crowded (a b : Ticket) : Bool :=
  a.customer_id == b.customer_id && a.body_sha256.isSome && a.body_sha256 == b.body_sha256 &&
    !a.status.closed && !b.status.closed &&
    decide (a.created_at < b.created_at + defaultDedupeWindowMs) &&
    decide (b.created_at < a.created_at + defaultDedupeWindowMs)

theorem crowded_iff {a b : Ticket} :
    crowded a b = true ↔ a.customer_id = b.customer_id ∧
      (∃ digest, a.body_sha256 = some digest ∧ b.body_sha256 = some digest) ∧
      a.status.closed = false ∧ b.status.closed = false ∧
      a.created_at < b.created_at + defaultDedupeWindowMs ∧
      b.created_at < a.created_at + defaultDedupeWindowMs := by
  cases digest : a.body_sha256 with
  | none => simp [crowded, digest]
  | some value =>
    simp only [crowded, digest, Bool.and_eq_true, Bool.not_eq_true', beq_iff_eq,
      decide_eq_true_eq, Option.isSome_some, and_true, and_assoc, Option.some.injEq,
      exists_eq_left']
    rw [eq_comm (a := some value)]

theorem crowded_symm (a b : Ticket) : crowded a b = crowded b a := by
  rw [Bool.eq_iff_iff, crowded_iff, crowded_iff]
  constructor <;>
  · rintro ⟨customer, ⟨digest, left, right⟩, open_left, open_right, before, after⟩
    exact ⟨customer.symm, ⟨digest, right, left⟩, open_right, open_left, after, before⟩

/-- A closed ticket is opened again. -/
def Reopens (s : IntakeState ι) : IntakeAct ι → Prop
  | .move ticket target => ∃ row ∈ s.tickets.committed,
      row.status.closed = true ∧ (moveRow ticket target row).status.closed = false
  | _ => False

/-- What a phase has read of the clock, or of rows, was read by now. -/
def Timely (now : Int) : IntakePhase → Prop
  | .sought _ held => ∀ h, held = some h → h.created_at ≤ now
  | .timed _ held createdMs => createdMs ≤ now ∧ ∀ h, held = some h → h.created_at ≤ createdMs
  | .filed row => row.created_at ≤ now
  | _ => True

theorem Timely.mono {now now' : Int} {p : IntakePhase} (timely : Timely now p)
    (after : now ≤ now') : Timely now' p := by
  cases p with
  | sought => exact fun h found => (timely h found).trans after
  | timed => exact ⟨timely.1.trans after, timely.2⟩
  | filed => exact le_trans (α := Int) timely after
  | _ => trivial

/-- What the transaction read as the incumbent of its content. -/
def IntakePhase.found : IntakePhase → Option (Option Ticket)
  | .sought _ held | .timed _ held _ => some held
  | _ => none

theorem IntakePhase.holds_of_found {p : IntakePhase} {held : Option Ticket}
    (found : p.found = some held) : p.holds = true := by
  cases p <;> first | rfl | cases found

structure Spaced (sha256Hex : String → String) (org : String) (calls : ι → Intake)
    (s : IntakeState ι) : Prop where
  clock : ∀ row ∈ s.tickets.committed, row.body_sha256.isSome = true →
    row.created_at ≤ createdMs s.clock
  timely : ∀ i, Timely (createdMs s.clock) (s.phase i)
  latest : ∀ i held, (s.phase i).found = some held → ∀ row ∈ s.tickets.committed,
    live (claimsOf org calls i) (digestOf sha256Hex calls i) row = true →
    ∃ h, held = some h ∧ row.created_at ≤ h.created_at
  apart : s.tickets.Unique crowded

theorem createdMs_mono {clock clock' : Nat} (after : clock ≤ clock') :
    createdMs clock ≤ createdMs clock' :=
  Int.ofNat_le.mpr (Nat.div_le_div_right after)

omit [DecidableEq ι] in
theorem Spaced.tick {clock : Nat} (spaced : Spaced sha256Hex org calls s)
    (after : s.clock ≤ clock) : Spaced sha256Hex org calls { s with clock } where
  clock row member digest := (spaced.clock row member digest).trans (createdMs_mono after)
  timely i := (spaced.timely i).mono (createdMs_mono after)
  latest := spaced.latest
  apart := spaced.apart

omit [DecidableEq ι] in
theorem Spaced.move {ticket : String} {target : TicketState}
    (spaced : Spaced sha256Hex org calls s) (unopened : ¬ Reopens s (.move ticket target)) :
    Spaced sha256Hex org calls
      { s with tickets := s.tickets.update (moveRow ticket target) } := by
  have closed : ∀ row ∈ s.tickets.committed, (moveRow ticket target row).status.closed = false →
      row.status.closed = false := by
    intro row member still
    by_contra was
    exact unopened ⟨row, member, Bool.not_eq_false _ ▸ was, still⟩
  refine ⟨fun row member digest => ?_, spaced.timely, fun i held found row member alive => ?_, ?_⟩
  · obtain ⟨row, stood, rfl⟩ := List.mem_map.mp member
    obtain ⟨status, moved⟩ := moveRow_status ticket target row
    rw [moved] at digest ⊢
    exact spaced.clock row stood digest
  · obtain ⟨row, stood, rfl⟩ := List.mem_map.mp member
    rw [live_iff] at alive
    have was := closed row stood alive.2.2.2
    obtain ⟨status, moved⟩ := moveRow_status ticket target row
    rw [moved] at alive ⊢
    exact spaced.latest i held found row stood
      (live_iff.mpr ⟨alive.1, alive.2.1, alive.2.2.1, was⟩)
  · refine OpenTable.unique_update (fun a member b member' apart => ?_)
      (fun a member b apart => ?_) spaced.apart
    · rw [Bool.eq_false_iff, ne_eq, crowded_iff] at apart ⊢
      rintro ⟨customer, digest, open_left, open_right, near⟩
      have was := closed a member open_left
      have was' := closed b member' open_right
      obtain ⟨status, moved⟩ := moveRow_status ticket target a
      obtain ⟨status', moved'⟩ := moveRow_status ticket target b
      rw [moved, moved'] at customer digest near
      exact apart ⟨customer, digest, was, was', near⟩
    · rw [Bool.eq_false_iff, ne_eq, crowded_iff] at apart ⊢
      rintro ⟨customer, digest, open_left, open_right, near⟩
      have was := closed a member open_left
      obtain ⟨status, moved⟩ := moveRow_status ticket target a
      rw [moved] at customer digest near
      exact apart ⟨customer, digest, was, open_right, near⟩

omit [DecidableEq ι] in
theorem FiledBy.digest {i : ι} {row : Ticket} (filed : FiledBy sha256Hex org calls i row) :
    row.body_sha256 = some (digestOf sha256Hex calls i) := by
  obtain ⟨uuid, account_id, createdMs, status, rfl⟩ := filed
  rfl

omit [DecidableEq ι] in
theorem FiledBy.org_id {i : ι} {row : Ticket} (filed : FiledBy sha256Hex org calls i row) :
    row.org_id = org := by
  obtain ⟨uuid, account_id, createdMs, status, rfl⟩ := filed
  rfl

omit [DecidableEq ι] in
/-- What a call about to file knows: every open ticket of its customer and body is the window
behind it. -/
theorem Spaced.behind (spaced : Spaced sha256Hex org calls s) {i : ι} {account_id : String}
    {held : Option Ticket} {instant : Int} (phase : s.phase i = .timed account_id held instant)
    (fresh : ∀ h, held = some h → ¬ Duplicates h instant) {row : Ticket}
    (member : row ∈ s.tickets.committed)
    (alive : live (claimsOf org calls i) (digestOf sha256Hex calls i) row = true) :
    row.created_at + defaultDedupeWindowMs ≤ instant := by
  obtain ⟨h, rfl, before⟩ := spaced.latest i held (by rw [phase]; rfl) row member alive
  have timely := spaced.timely i
  rw [phase] at timely
  have after := timely.2 h rfl
  have outside := fresh h rfl
  rw [Duplicates, WithinWindow] at outside
  by_contra inside
  refine outside ⟨rfl, after, ?_⟩
  have window : instant < h.created_at + defaultDedupeWindowMs := by omega
  exact window

/-- The row a call files is not crowded by any that stands or may come to stand. -/
theorem Spaced.uncrowded (spaced : Spaced sha256Hex org calls s)
    (locks : LocksKept sha256Hex hashtextextended org calls s)
    (rows : RowsKept sha256Hex org calls s) {i : ι} {uuid account_id : String}
    {held : Option Ticket} {instant : Int} (phase : s.phase i = .timed account_id held instant)
    (fresh : ∀ h, held = some h → ¬ Duplicates h instant) :
    s.tickets.verdict crowded i (freshTicket sha256Hex org calls i uuid account_id instant) =
      .inserted := by
  rw [OpenTable.verdict_inserted]
  intro row member
  rw [Bool.eq_false_iff, ne_eq, crowded_iff]
  rintro ⟨customer, ⟨digest, mine, digest_row⟩, -, is_open, near, -⟩
  cases mine
  rcases OpenTable.mem_rows.mp member with standing | ⟨j, own⟩
  · have filed : ∃ j, FiledBy sha256Hex org calls j row := by
      refine (rows.standing row standing).resolve_left fun plain => ?_
      rw [plain.1] at digest_row
      cases digest_row
    obtain ⟨j, filed⟩ := filed
    have behind := spaced.behind phase fresh standing
      (live_iff.mpr ⟨filed.org_id, customer.symm, digest_row, is_open⟩)
    have near' : instant < row.created_at + defaultDedupeWindowMs := near
    omega
  · -- a row that is not committed is of a call that holds its own lock
    rw [rows.own j] at own
    cases phase' : s.phase j with
    | filed row' =>
      rw [phase'] at own
      rw [List.mem_singleton.mp own] at digest_row
      have same := (rows.pending j row' phase').1.digest
      rw [digest_row, Option.some.injEq] at same
      have one := locks.alone (i := i) (j := j) (by rw [phase]; rfl) (by rw [phase']; rfl) same
      subst one
      rw [phase] at phase'
      cases phase'
    | _ =>
      rw [phase'] at own
      cases own

theorem IntakeMove.timely {i : ι} {old p : IntakePhase} {tickets : OpenTable ι Ticket}
    {locks : List (ι × Int)}
    (move : IntakeMove sha256Hex hashtextextended org accounts calls s i act old p tickets locks)
    (spaced : Spaced sha256Hex org calls s) (own : s.tickets.own i = old.rows)
    (timely : Timely (createdMs s.clock) old) : Timely (createdMs s.clock) p := by
  cases move with
  | sought =>
    intro h found
    obtain ⟨seen, alive⟩ := incumbentOn_some found
    have standing : h ∈ s.tickets.committed := by
      rcases OpenTable.mem_visible.mp seen with standing | mine
      · exact standing
      · rw [own] at mine
        cases mine
    refine spaced.clock h standing ?_
    rw [(live_iff.mp alive).2.2.1]
    rfl
  | timed => exact ⟨le_refl _, timely⟩
  | filed => exact timely.1
  | _ => trivial

theorem IntakeMove.latest {i : ι} {old p : IntakePhase} {tickets : OpenTable ι Ticket}
    {locks : List (ι × Int)}
    (move : IntakeMove sha256Hex hashtextextended org accounts calls s i act old p tickets locks)
    {held : Option Ticket} (found : p.found = some held)
    (latest : ∀ held, old.found = some held → ∀ row ∈ s.tickets.committed,
      live (claimsOf org calls i) (digestOf sha256Hex calls i) row = true →
      ∃ h, held = some h ∧ row.created_at ≤ h.created_at)
    {row : Ticket} (member : row ∈ tickets.committed)
    (alive : live (claimsOf org calls i) (digestOf sha256Hex calls i) row = true) :
    ∃ h, held = some h ∧ row.created_at ≤ h.created_at := by
  cases move with
  | sought =>
    cases found
    exact incumbentOn_latest (OpenTable.mem_visible.mpr (.inl member)) alive
  | timed =>
    cases found
    exact latest _ rfl row member alive
  | _ => cases found

theorem IntakeMove.apart {i : ι} {old p : IntakePhase} {tickets : OpenTable ι Ticket}
    {locks : List (ι × Int)}
    (move : IntakeMove sha256Hex hashtextextended org accounts calls s i act old p tickets locks)
    (phase : s.phase i = old) (held : LocksKept sha256Hex hashtextextended org calls s)
    (rows : RowsKept sha256Hex org calls s) (spaced : Spaced sha256Hex org calls s) :
    tickets.Unique crowded := by
  cases move with
  | filed fresh =>
    exact OpenTable.unique_insert crowded_symm spaced.apart
      (spaced.uncrowded held rows phase fresh)
  | refused | idTaken | keyTaken | crashed => exact OpenTable.unique_rollback spaced.apart
  | committed | released => exact OpenTable.unique_commit crowded_symm spaced.apart
  | _ => exact spaced.apart

theorem intakeStep_spaced
    (taken : intakeStep sha256Hex hashtextextended org accounts calls s act = some t)
    (held : LocksKept sha256Hex hashtextextended org calls s)
    (rows : RowsKept sha256Hex org calls s) (spaced : Spaced sha256Hex org calls s)
    (unopened : ¬ Reopens s act) : Spaced sha256Hex org calls t := by
  rcases intakeStep_cases taken with ⟨i, p, move, clock, phase⟩ | elsewhere
  · have self : t.phase i = p := by rw [phase, Function.update_self]
    have committed := move.committed_cases (rows.own i)
    refine ⟨fun row member digest => ?_, fun j => ?_, fun j found_held found row member alive => ?_,
      move.apart rfl held rows spaced⟩
    · rw [clock]
      rcases committed with stays | ⟨filed, was, -, grown⟩
      · rw [stays] at member
        exact spaced.clock row member digest
      · rw [grown] at member
        rcases List.mem_append.mp member with stood | last
        · exact spaced.clock row stood digest
        · cases List.mem_singleton.mp last
          have timely := spaced.timely i
          rwa [was] at timely
    · rw [clock]
      by_cases same : j = i
      · subst same
        rw [self]
        exact move.timely spaced (rows.own j) (spaced.timely j)
      · rw [phase, Function.update_of_ne same]
        exact spaced.timely j
    · by_cases same : j = i
      · subst same
        rw [self] at found
        exact move.latest found (fun h was => spaced.latest j h was) member alive
      · rw [phase, Function.update_of_ne same] at found
        rcases committed with stays | ⟨filed, was, -, grown⟩
        · rw [stays] at member
          exact spaced.latest j found_held found row member alive
        · rw [grown] at member
          rcases List.mem_append.mp member with stood | last
          · exact spaced.latest j found_held found row stood alive
          · -- the row committed is of another content: the lock of this one is held
            have digest := (rows.pending i filed was).1.digest
            rw [← List.mem_singleton.mp last, (live_iff.mp alive).2.2.1, Option.some.injEq] at digest
            exact absurd (held.alone (IntakePhase.holds_of_found found) (by rw [was]; rfl) digest)
              same
  · cases elsewhere with
    | tick after => exact spaced.tick after
    | move => exact spaced.move unopened

end Invariants

end LedgerDesk.Tickets
