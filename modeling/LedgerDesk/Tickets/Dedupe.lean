import LedgerDesk.Tickets.Collapse

/-!
# Submissions under concurrency

What the customers of one organisation are told, whatever the order of their submissions and of
what becomes of their tickets.
-/
namespace LedgerDesk.Tickets

open Foundation LedgerDesk.Queue

section Dedupe

variable {sha256Hex : String → String} {hashtextextended : String → Int}
variable {org : String} {accounts : List Account}
variable {ι : Type*} [DecidableEq ι] {calls : ι → Intake}
variable {s t : IntakeState ι} {act : IntakeAct ι}

/-! ### Tickets of their own -/

/-- A submission that was not folded has filed the ticket it is told of. -/
def OwnTicket (sha256Hex : String → String) (org : String) (calls : ι → Intake)
    (rows : List Ticket) (i : ι) (p : IntakePhase) : Prop :=
  ∀ outcome createdMs, p = .answered outcome createdMs → outcome.collapsed = false →
    ∃ row ∈ rows, row.id = outcome.acknowledgement.tracking_id ∧
      IsTicketOf sha256Hex org calls i row ∧
      row.dedupe_key = some (dedupeKey org (digestOf sha256Hex calls i) createdMs)

omit [DecidableEq ι] in
theorem FiledBy.key {i : ι} {row : Ticket} (filed : FiledBy sha256Hex org calls i row) :
    row.dedupe_key = some (dedupeKey org (digestOf sha256Hex calls i) row.created_at) := by
  obtain ⟨uuid, account_id, createdMs, status, rfl⟩ := filed
  rfl

theorem intakeStep_ownTicket
    (taken : intakeStep sha256Hex hashtextextended org accounts calls s act = some t)
    (rows : RowsKept sha256Hex org calls s)
    (own : ∀ i, OwnTicket sha256Hex org calls s.tickets.committed i (s.phase i)) :
    ∀ i, OwnTicket sha256Hex org calls t.tickets.committed i (t.phase i) := by
  intro j outcome instant answered opened
  rcases intakeStep_cases taken with ⟨i, p, move, -, phase⟩ | elsewhere
  · have grown : ∀ row ∈ s.tickets.committed, row ∈ t.tickets.committed := by
      intro row member
      rcases move.committed_cases (rows.own i) with stays | ⟨filed, -, -, committed⟩
      · rwa [stays]
      · rw [committed]
        exact List.mem_append_left _ member
    by_cases same : j = i
    · subst same
      rw [phase, Function.update_self] at answered
      subst answered
      obtain ⟨-, ⟨still, -⟩ | ⟨row, was, ends, committed⟩ | ⟨held, m, was, ends, -⟩ | ⟨m, was⟩⟩ :=
        move.answers (rows.own j)
      · cases still
      · cases ends
        have filed := (rows.pending j row was).1
        refine ⟨row, ?_, rfl, filed.isTicketOf, filed.key⟩
        rw [committed]
        exact List.mem_append_right _ (List.mem_singleton_self _)
      · cases ends
        cases opened
      · rw [was] at move
        generalize t.tickets = tickets at move
        generalize t.locks = locks at move
        cases move
        cases opened
    · rw [phase, Function.update_of_ne same] at answered
      obtain ⟨row, member, named⟩ := own j outcome instant answered opened
      exact ⟨row, grown row member, named⟩
  · cases elsewhere with
    | tick => exact own j outcome instant answered opened
    | @move ticket target =>
      obtain ⟨row, member, named, mine, key⟩ := own j outcome instant answered opened
      refine ⟨moveRow ticket target row, List.mem_map_of_mem member,
        (moveRow_id _ _ _).trans named, ?_⟩
      obtain ⟨status, moved⟩ := moveRow_status ticket target row
      rw [moved]
      exact ⟨mine, key⟩

/-! ### Over a run -/

/-- What holds in every state, with what led to it. -/
structure Kept (sha256Hex : String → String) (hashtextextended : String → Int) (org : String)
    (accounts : List Account) (calls : ι → Intake)
    (ts : List (Transition (IntakeState ι) (IntakeAct ι))) (s : IntakeState ι) : Prop where
  locks : LocksKept sha256Hex hashtextextended org calls s
  rows : RowsKept sha256Hex org calls s
  opened : OpenWhenNamed sha256Hex org calls ts s
  names : ∀ i id, (s.phase i).named = some id →
    Names sha256Hex org calls i (s.tickets.visible i) id
  excused : ∀ i, (s.phase i).turnedAway = true → Excused sha256Hex org accounts calls ts i
  own : ∀ i, OwnTicket sha256Hex org calls s.tickets.committed i (s.phase i)
  ordered : Ordered sha256Hex calls (lockOrder ts) s

theorem intakeStep_kept {before : List (Transition (IntakeState ι) (IntakeAct ι))}
    (taken : intakeStep sha256Hex hashtextextended org accounts calls s act = some t)
    (kept : Kept sha256Hex hashtextextended org accounts calls before s) :
    Kept sha256Hex hashtextextended org accounts calls (before ++ [⟨s, act, t⟩]) t :=
  have locks := intakeStep_locks taken kept.locks
  { locks
    rows := intakeStep_rows taken kept.rows
    opened := intakeStep_openWhenNamed taken kept.rows kept.opened
    names := intakeStep_names taken kept.rows kept.names
    excused := intakeStep_excused taken kept.rows kept.excused
    own := intakeStep_ownTicket taken kept.rows kept.own
    ordered := intakeStep_ordered taken locks kept.ordered }

/-- The rows intake starts from. -/
structure Seed (rows : List Ticket) : Prop where
  plain : ∀ row ∈ rows, Plain row
  ids : rows.Pairwise fun a b => ticketPkey a b = false

variable {rows : List Ticket} {clock : Nat}
variable {ts : List (Transition (IntakeState ι) (IntakeAct ι))}

theorem kept_start (seed : Seed rows) :
    Kept sha256Hex hashtextextended org accounts calls [] (intakeStart (ι := ι) rows clock) where
  locks := ⟨by simp [intakeStart], fun _ held => nomatch held⟩
  rows := {
    own := fun i => OpenTable.own_start rows i
    pending := fun _ _ filed => nomatch filed
    standing := fun row member => .inl (seed.plain row member)
    ids := by simpa [OpenTable.Unique, OpenTable.rows, intakeStart, OpenTable.start] using seed.ids }
  opened := fun _ _ named => nomatch named
  names := fun _ _ named => nomatch named
  excused := fun _ turned => nomatch turned
  own := fun _ _ _ answered => nomatch answered
  ordered := ⟨fun _ _ => List.not_mem_nil, fun _ queued => (by cases queued),
    fun _ held => (by cases held)⟩

theorem kept_run (seed : Seed rows)
    (run : Run (intakeStep sha256Hex hashtextextended org accounts calls) (intakeStart rows clock)
      ts s) : Kept sha256Hex hashtextextended org accounts calls ts s :=
  run.traced (fun _ _ _ _ taken kept => intakeStep_kept taken kept) [] (kept_start seed)

omit [DecidableEq ι] in
theorem spaced_start (seed : Seed rows) :
    Spaced sha256Hex org calls (intakeStart (ι := ι) rows clock) where
  clock row member digest := by
    rw [(seed.plain row member).1] at digest
    cases digest
  timely _ := trivial
  latest _ _ found := nomatch found
  apart := by
    have plain : ∀ row ∈ rows, ∀ other, crowded row other = false := by
      intro row member other
      simp [crowded, (seed.plain row member).1]
    have pairs : rows.Pairwise fun a b => crowded a b = false :=
      List.Pairwise.imp_of_mem (fun {a b} member _ _ => plain a member b)
        (List.pairwise_of_forall fun _ _ => trivial)
    simpa [OpenTable.Unique, OpenTable.rows, intakeStart, OpenTable.start] using pairs

theorem spaced_run (seed : Seed rows)
    (run : Run (intakeStep sha256Hex hashtextextended org accounts calls) (intakeStart rows clock)
      ts s) (unopened : ∀ tr ∈ ts, ¬ Reopens tr.source tr.act) : Spaced sha256Hex org calls s := by
  have kept := run.traced (P := fun before s =>
      Kept sha256Hex hashtextextended org accounts calls before s ∧
        ((∀ tr ∈ before, ¬ Reopens tr.source tr.act) → Spaced sha256Hex org calls s))
    (fun before s act t taken held => by
      refine ⟨intakeStep_kept taken held.1, fun allowed => ?_⟩
      have spaced := held.2 fun tr member => allowed tr (List.mem_append_left _ member)
      exact intakeStep_spaced taken held.1.locks held.1.rows spaced
        (allowed _ (List.mem_append_right _ (List.mem_singleton_self _))))
    [] ⟨kept_start seed, fun _ => spaced_start seed⟩
  exact kept.2 unopened

/-- Nothing is closed or opened again, and no submission meets its key on another's row. -/
def Quiet (sha256Hex : String → String) (org : String) (calls : ι → Intake)
    (tr : Transition (IntakeState ι) (IntakeAct ι)) : Prop :=
  ¬ Closes tr.source tr.act ∧ ¬ Reopens tr.source tr.act ∧
    ∀ i, ¬ KeyTaken sha256Hex org calls i tr

theorem collapsing_run (seed : Seed rows)
    (run : Run (intakeStep sha256Hex hashtextextended org accounts calls) (intakeStart rows clock)
      ts s) (quiet : ∀ tr ∈ ts, Quiet sha256Hex org calls tr) :
    Collapsing sha256Hex org calls (lockOrder ts) s := by
  have kept := run.traced (P := fun before s =>
      Kept sha256Hex hashtextextended org accounts calls before s ∧
        ((∀ tr ∈ before, Quiet sha256Hex org calls tr) →
          Spaced sha256Hex org calls s ∧ Undisturbed sha256Hex org calls s ∧
            Collapsing sha256Hex org calls (lockOrder before) s))
    (fun before s act t taken held => by
      refine ⟨intakeStep_kept taken held.1, fun allowed => ?_⟩
      obtain ⟨spaced, undisturbed, collapsing⟩ :=
        held.2 fun tr member => allowed tr (List.mem_append_left _ member)
      obtain ⟨unclosed, unopened, free⟩ :=
        allowed _ (List.mem_append_right _ (List.mem_singleton_self _))
      exact ⟨intakeStep_spaced taken held.1.locks held.1.rows spaced unopened,
        intakeStep_undisturbed taken held.1.locks held.1.rows spaced undisturbed unclosed,
        intakeStep_collapsing taken held.1.rows undisturbed held.1.ordered unclosed free
          collapsing⟩)
    [] ⟨kept_start seed, fun _ => ⟨spaced_start seed, ?_, ?_⟩⟩
  · exact (kept.2 quiet).2.2
  · refine ⟨fun row member digest => ?_, fun _ => trivial⟩
    rw [(seed.plain row member).1] at digest
    cases digest
  · refine ⟨fun _ _ => IntakePhase.noConfusion, fun i => ⟨?_, rfl, rfl⟩⟩
    have nothing : rows.filter (live (claimsOf org calls i) (digestOf sha256Hex calls i)) = [] := by
      refine List.filter_eq_nil_iff.mpr fun row member alive => ?_
      have digest := (live_iff.mp alive).2.2.1
      rw [(seed.plain row member).1] at digest
      cases digest
    have latest : latestOf sha256Hex org calls (intakeStart rows clock) i = none := by
      rw [latestOf, incumbentOn, incumbent]
      exact congrArg (fun found => (newest found).map incumbentOf) nothing
    rw [latest]
    rfl

/-! ### The four guarantees -/

/-- Open, of one customer and with one digest, two tickets were created the window apart. -/
def WindowApart (a b : Ticket) : Prop :=
  a.customer_id = b.customer_id → a.body_sha256.isSome = true → a.body_sha256 = b.body_sha256 →
    a.status.closed = false → b.status.closed = false →
    a.created_at + defaultDedupeWindowMs ≤ b.created_at ∨
      b.created_at + defaultDedupeWindowMs ≤ a.created_at

theorem windowApart_of_uncrowded {a b : Ticket} (apart : crowded a b = false) :
    WindowApart a b := by
  intro customer some_digest digest open_a open_b
  obtain ⟨value, mine⟩ := Option.isSome_iff_exists.mp some_digest
  rw [Bool.eq_false_iff, ne_eq, crowded_iff] at apart
  by_contra near
  exact apart ⟨customer, ⟨value, mine, digest ▸ mine⟩, open_a, open_b, by omega, by omega⟩

/-- The submissions of a customer that were answered, in the order of their locks. -/
def streamOf (calls : ι → Intake) (ts : List (Transition (IntakeState ι) (IntakeAct ι)))
    (s : IntakeState ι) (customer : String) : List ι :=
  (lockOrder ts).filter fun i => (calls i).customer = customer && (s.phase i).isAnswered

/-- What `collapseDuplicates` makes of them. -/
def foldOf (sha256Hex : String → String) (org : String) (calls : ι → Intake) (s : IntakeState ι)
    (stream : List ι) : CollapseResult ι :=
  collapseDuplicates (submissionOf sha256Hex org calls s) defaultDedupeWindowMs stream

omit [DecidableEq ι] in
/-- The part of a customer's submissions that is of the content of one of them is its group. -/
theorem streamOf_filter (i : ι) :
    (streamOf calls ts s (calls i).customer).filter (fun j =>
        content (submissionOf sha256Hex org calls s j) =
          content (submissionOf sha256Hex org calls s i)) =
      group sha256Hex calls (lockOrder ts) s i := by
  rw [streamOf, List.filter_filter, group]
  refine List.filter_congr fun j _ => ?_
  rw [Bool.eq_iff_iff]
  simp only [content_submissionOf, String.append_right_inj, Bool.and_eq_true, decide_eq_true_eq]
  tauto

omit [DecidableEq ι] in
/-- What the fold admits and collapses of a customer is what the transactions did. -/
theorem fold_agrees
    (collapsing : Collapsing sha256Hex org calls (lockOrder ts) s)
    (ordered : Ordered sha256Hex calls (lockOrder ts) s) (i : ι) (name : String) :
    ((i, name) ∈ (foldOf sha256Hex org calls s (streamOf calls ts s (calls i).customer)).admitted ↔
        admission sha256Hex org calls s i = some (i, name)) ∧
      ((i, name) ∈
          (foldOf sha256Hex org calls s (streamOf calls ts s (calls i).customer)).collapsed ↔
        absorption s i = some (i, name)) := by
  have part := collapseDuplicates_filter (submissionOf sha256Hex org calls s)
    defaultDedupeWindowMs (content (submissionOf sha256Hex org calls s i))
    (streamOf calls ts s (calls i).customer)
  rw [streamOf_filter] at part
  obtain ⟨-, admitted, collapsed⟩ := collapsing.folds i
  have in_group : (s.phase i).isAnswered = true → i ∈ group sha256Hex calls (lockOrder ts) s i := by
    intro answered
    refine mem_group.mpr ⟨ordered.queued i ?_, ⟨rfl, rfl⟩, answered⟩
    generalize s.phase i = p at answered
    cases p <;> first | rfl | cases answered
  -- an entry of the fold is of the group of its own content
  have within : ∀ {entries : List (ι × String)},
      (i, name) ∈ entries ↔ (i, name) ∈ entries.filter fun e =>
        content (submissionOf sha256Hex org calls s e.1) =
          content (submissionOf sha256Hex org calls s i) := by
    intro entries
    simp [List.mem_filter]
  constructor
  · rw [foldOf, within, ← part.admitted, admitted, List.mem_filterMap]
    constructor
    · rintro ⟨j, -, entry⟩
      have same : j = i := by
        simp only [admission] at entry
        split at entry
        · split at entry
          · cases entry
          · cases entry
            rfl
        · cases entry
      rwa [same] at entry
    · intro entry
      refine ⟨i, in_group ?_, entry⟩
      simp only [admission] at entry
      split at entry
      · next answered => rw [answered]; rfl
      · cases entry
  · rw [foldOf, within, ← part.collapsed, collapsed, List.mem_filterMap]
    constructor
    · rintro ⟨j, -, entry⟩
      have same : j = i := by
        simp only [absorption] at entry
        split at entry
        · split at entry
          · cases entry
            rfl
          · cases entry
        · cases entry
      rwa [same] at entry
    · intro entry
      refine ⟨i, in_group ?_, entry⟩
      simp only [absorption] at entry
      split at entry
      · next answered => rw [answered]; rfl
      · cases entry

/-- The open tickets of a customer with one body are the window apart; who is acknowledged is
told of a ticket of their own with the body they sent, which was open when it was read or
written; nobody is told of another's, nor turned away but for the accounts, an identifier in use
or a key already taken; and in the quiet the transactions do what the fold does of each
customer's submissions in the order of their locks. -/
theorem intake_dedupes (seed : Seed rows)
    (run : Run (intakeStep sha256Hex hashtextextended org accounts calls) (intakeStart rows clock)
      ts s) :
    (∀ row ∈ s.tickets.committed, Plain row ∨ row.body_sha256 = some (sha256Hex row.body_raw)) ∧
    ((∀ tr ∈ ts, ¬ Reopens tr.source tr.act) → s.tickets.committed.Pairwise WindowApart) ∧
    (∀ i outcome createdMs, s.phase i = .answered outcome createdMs →
      Names sha256Hex org calls i s.tickets.committed outcome.acknowledgement.tracking_id ∧
      (∃ tr ∈ ts, (∃ uuid, tr.act = .statement i uuid) ∧
        NamesOpen sha256Hex org calls i (tr.target.tickets.visible i)
          outcome.acknowledgement.tracking_id) ∧
      OwnTicket sha256Hex org calls s.tickets.committed i (s.phase i)) ∧
    (∀ i j outcome outcome' createdMs createdMs', s.phase i = .answered outcome createdMs →
      s.phase j = .answered outcome' createdMs' → (calls i).customer ≠ (calls j).customer →
      outcome.acknowledgement.tracking_id ≠ outcome'.acknowledgement.tracking_id) ∧
    (∀ i, (s.phase i).turnedAway = true → Excused sha256Hex org accounts calls ts i) ∧
    ((∀ tr ∈ ts, Quiet sha256Hex org calls tr) → ∀ i name,
      ((i, name) ∈
          (foldOf sha256Hex org calls s (streamOf calls ts s (calls i).customer)).admitted ↔
        admission sha256Hex org calls s i = some (i, name)) ∧
      ((i, name) ∈
          (foldOf sha256Hex org calls s (streamOf calls ts s (calls i).customer)).collapsed ↔
        absorption s i = some (i, name))) := by
  have kept := kept_run seed run
  have names : ∀ i outcome createdMs, s.phase i = .answered outcome createdMs →
      Names sha256Hex org calls i s.tickets.committed outcome.acknowledgement.tracking_id := by
    intro i outcome createdMs answered
    obtain ⟨row, seen, named⟩ := kept.names i _ (by rw [answered]; rfl)
    rcases OpenTable.mem_visible.mp seen with standing | mine
    · exact ⟨row, standing, named⟩
    · rw [kept.rows.own, answered] at mine
      cases mine
  refine ⟨fun row member => ?_, fun unopened => ?_, fun i outcome createdMs answered => ?_, ?_,
    kept.excused, fun quiet i name => ?_⟩
  · refine (kept.rows.standing row member).imp_right ?_
    rintro ⟨i, uuid, account_id, createdMs, status, rfl⟩
    rfl
  · exact (spaced_run seed run unopened).apart.committed.imp windowApart_of_uncrowded
  · exact ⟨names i outcome createdMs answered, kept.opened i _ (by rw [answered]; rfl),
      kept.own i⟩
  · intro i j outcome outcome' createdMs createdMs' answered answered' other same
    obtain ⟨row, member, named, mine⟩ := names i outcome createdMs answered
    obtain ⟨row', member', named', mine'⟩ := names j outcome' createdMs' answered'
    have one : row = row' := by
      refine OpenTable.eq_of_clash ticketPkey_symm kept.rows.ids.committed member member' ?_
      exact beq_iff_eq.mpr (named.trans (same.trans named'.symm))
    rw [one] at mine
    exact other (mine.2.1.symm.trans mine'.2.1)
  · exact fold_agrees (collapsing_run seed run quiet) kept.ordered i name

end Dedupe

/-! ### Two customers, one body -/

def fireDraft : Draft where
  subject := "Printer"
  body := "It is on fire."
  subject_trimmed := by decide +kernel
  body_trimmed := by decide +kernel
  subject_present := by decide
  body_present := by decide
  subject_fits := by decide +kernel
  body_fits := by decide +kernel

def fireDigest (_ : String) : String :=
  "00b2b16490815aa1150b2bb6fe43c4f38303e7668a7d29183fc0a4400bd2c6ab"

def neighbours (i : Fin 2) : Intake := ⟨if i = 0 then "ann" else "bob", fireDraft⟩

def neighboursStep : IntakeState (Fin 2) → IntakeAct (Fin 2) → Option (IntakeState (Fin 2)) :=
  intakeStep fireDigest (fun _ => 0) "org" [⟨"account", "org"⟩] neighbours

def submits (i : Fin 2) (uuid : String) : List (IntakeAct (Fin 2)) :=
  List.replicate 5 (.statement i uuid) ++ [.commit i]

def neighboursActs : List (IntakeAct (Fin 2)) :=
  submits 0 "t0" ++ [.tick 61000000] ++ submits 1 "t1"

def neighboursOrder : List (Fin 2) :=
  lockOrder (Foundation.transitions neighboursStep (intakeStart [] 0) neighboursActs)

/-- A minute apart, both are filed; the fold over the two of them would file one. -/
theorem neighbours_outcome :
    (perform neighboursStep (intakeStart [] 0) neighboursActs).map (fun s =>
      ((s.phase 0).isAnswered && (s.phase 1).isAnswered,
        (neighboursOrder.filterMap (admission fireDigest "org" neighbours s)).map Prod.fst,
        (foldOf fireDigest "org" neighbours s neighboursOrder).admitted.map Prod.fst)) =
      some (true, [0, 1], [0]) := by
  decide +kernel

theorem neighbours_unmoved {s : IntakeState (Fin 2)}
    (performed : perform neighboursStep (intakeStart [] 0) neighboursActs = some s) :
    ∀ tr ∈ Foundation.transitions neighboursStep (intakeStart [] 0) neighboursActs,
      ∀ ticket target, tr.act ≠ .move ticket target := by
  intro tr member ticket target moved
  have acts := acts_of_perform performed
  have listed : IntakeAct.move ticket target ∈ neighboursActs := by
    rw [← acts, ← moved]
    exact List.mem_map_of_mem member
  simp [neighboursActs, submits] at listed

theorem neighbours_are_one_to_the_fold :
    ∃ s ts, Run neighboursStep (intakeStart [] 0) ts s ∧
      (∀ tr ∈ ts, ∀ ticket target, tr.act ≠ .move ticket target) ∧
      ((lockOrder ts).filterMap (admission fireDigest "org" neighbours s)).map Prod.fst = [0, 1] ∧
      (foldOf fireDigest "org" neighbours s (lockOrder ts)).admitted.map Prod.fst = [0] := by
  obtain ⟨s, performed, outcome⟩ := Option.map_eq_some_iff.mp neighbours_outcome
  obtain ⟨-, rest⟩ := Prod.mk.inj outcome
  obtain ⟨filed, folded⟩ := Prod.mk.inj rest
  exact ⟨s, _, run_of_perform _ _ _ _ performed, neighbours_unmoved performed, filed, folded⟩

theorem neighbours_have_their_own :
    ∃ s ts, Run neighboursStep (intakeStart [] 0) ts s ∧
      s.tickets.committed.Pairwise WindowApart ∧
      ∀ i, ∃ outcome createdMs, s.phase i = .answered outcome createdMs ∧
        Names fireDigest "org" neighbours i s.tickets.committed
          outcome.acknowledgement.tracking_id := by
  obtain ⟨s, performed, outcome⟩ := Option.map_eq_some_iff.mp neighbours_outcome
  obtain ⟨answered, -⟩ := Prod.mk.inj outcome
  rw [Bool.and_eq_true] at answered
  have run := run_of_perform _ _ _ _ performed
  have seed : Seed [] := ⟨by simp, List.Pairwise.nil⟩
  have kept := intake_dedupes seed run
  refine ⟨s, _, run, kept.2.1 fun tr member reopens => ?_, fun i => ?_⟩
  · have unmoved := neighbours_unmoved performed tr member
    generalize tr.act = act at unmoved reopens
    cases act with
    | move ticket target => exact unmoved ticket target rfl
    | _ => exact reopens
  · have both : (s.phase i).isAnswered = true := by
      fin_cases i
      · exact answered.1
      · exact answered.2
    cases phase : s.phase i with
    | answered outcome createdMs =>
      exact ⟨outcome, createdMs, rfl, (kept.2.2.1 i outcome createdMs phase).1⟩
    | _ =>
      rw [phase] at both
      cases both

end LedgerDesk.Tickets
