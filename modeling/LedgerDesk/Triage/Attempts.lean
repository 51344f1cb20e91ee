import LedgerDesk.Triage.Cycle

/-!
# The attempts of a triage

What one step of a cycle can do, and from it what holds of the whole life of a ticket: how many
failures a cycle counts, that no defensive throw is reached, and what the seeds are.
-/
namespace LedgerDesk.Triage

open Foundation
open Queue (normalisedSeverity)
open Tickets (TicketState GuardOwner findTransition)

/-- A cycle still has attempts to make or to count. -/
def TriagePhase.attempting : TriagePhase → Option Standing
  | .asking held | .waiting held | .failing held _ => some held
  | _ => none

/-- A cycle has nothing left to do, and not because it is wrong. -/
def TriagePhase.over : TriagePhase → Bool
  | .ended _ | .crashed => true
  | .threw fault => !fault.defensive
  | _ => false

/-- A cycle makes no attempt again. -/
def TriagePhase.decided : TriagePhase → Bool
  | .settling _ _ => true
  | phase => phase.over

/-- Under these thresholds an emptied body escalates and the severity of an untriaged ticket does
not. -/
structure Sane (thresholds : EscalationThresholds) : Prop where
  confidence : 0 < thresholds.confidence
  premiumSeverity : normalisedSeverity untriagedSeverity < thresholds.premiumSeverity

variable {runtime : TriageRuntime}

/-! ### What a cycle computes -/

theorem verdictOf_cases (runtime : TriageRuntime) (input : FeatureInput) (now : ℚ) :
    (∃ reason clause, runtime.verdictOf input now = ⟨true, some reason, some clause⟩) ∨
      runtime.verdictOf input now = ⟨false, none, none⟩ := by
  rcases evaluateEscalation_cases runtime.tables (featuresFromTicket input).features now
    runtime.thresholds with ⟨clause, _, _, verdict⟩ | ⟨_, verdict⟩
  · exact .inl ⟨_, _, verdict⟩
  · exact .inr verdict

theorem exhausted_decided (sane : Sane runtime.thresholds) {held : Standing} {emptied : Bool}
    (code : FailureCode)
    (why : emptied = true ∨ runtime.thresholds.maxRetries < held.retries) :
    (runtime.exhausted held emptied code).decided = true := by
  have escalates : (runtime.verdictOf (runtime.unanswered held.ticket held.retries
      (if emptied then some 0 else none)) held.now).escalate = true := by
    rcases why with rfl | spent
    · apply escalates_of_emptied sane.confidence
      rfl
    · apply escalates_of_spent
      exact spent
  rw [TriageRuntime.exhausted]
  rcases verdictOf_cases runtime (runtime.unanswered held.ticket held.retries
      (if emptied then some 0 else none)) held.now with ⟨reason, clause, verdict⟩ | verdict
  · simp only [verdict]
    rfl
  · rw [verdict] at escalates
    cases escalates

/-- The record stage leaves the retry budget to the attempts, or settles the ticket. -/
theorem atRecord_cases (sane : Sane runtime.thresholds) (ticket : TicketRow) (now : ℚ) :
    runtime.atRecord ticket now = .asking ⟨ticket, now, ticket.retries⟩ ∧
        (ticket.retries : ℚ) ≤ runtime.thresholds.maxRetries ∨
      (runtime.atRecord ticket now).decided = true := by
  rw [TriageRuntime.atRecord]
  rcases verdictOf_cases runtime (runtime.unanswered ticket ticket.retries none) now
    with ⟨reason, clause, verdict⟩ | verdict
  · right
    have stage : clauseStage clause = some .record := by
      have fired : (runtime.verdictOf (runtime.unanswered ticket ticket.retries none) now).clause =
          some clause := congrArg EscalationVerdict.clause verdict
      exact untriaged_stage sane.premiumSeverity rfl rfl rfl rfl fired
    simp only [verdict, stage, ↓reduceIte]
    rfl
  · left
    simp only [verdict, true_and]
    by_contra spent
    have escalates : (runtime.verdictOf (runtime.unanswered ticket ticket.retries none) now).escalate
        = true := by
      apply escalates_of_spent
      exact not_le.mp spent
    rw [verdict] at escalates
    cases escalates

theorem start_cases (sane : Sane runtime.thresholds) (ticket : TicketRow) (now : ℚ)
    (visible fresh : Bool) :
    runtime.start ticket now visible fresh = .asking ⟨ticket, now, ticket.retries⟩ ∧
        (ticket.retries : ℚ) ≤ runtime.thresholds.maxRetries ∨
      (runtime.start ticket now visible fresh).decided = true := by
  rw [TriageRuntime.start]
  split
  · exact .inr rfl
  · split
    · exact .inr rfl
    · split
      · exact .inr rfl
      · exact atRecord_cases sane ticket now

theorem heard_cases (sane : Sane runtime.thresholds) (held : Standing) (said : Reply) :
    said.retried = true ∧ (∃ code, runtime.heard held said = .failing held code) ∨
      said.retried = false ∧ (runtime.heard held said).decided = true := by
  cases said with
  | parsed reading redactedLength => exact .inr ⟨rfl, rfl⟩
  | malformed code => exact .inl ⟨rfl, _, rfl⟩
  | foreign => exact .inr ⟨rfl, rfl⟩
  | refused code =>
    cases code
    case E_PROVIDER_TIMEOUT | E_PROVIDER_FAILED | E_MODEL_UNEXPECTED => exact .inl ⟨rfl, _, rfl⟩
    case E_EMPTY_AFTER_REDACTION => exact .inr ⟨rfl, exhausted_decided sane _ (.inl rfl)⟩
    all_goals exact .inr ⟨rfl, rfl⟩

theorem bumped_cases (sane : Sane runtime.thresholds) (held : Standing) (code : FailureCode)
    (retries : Int) :
    runtime.bumped held code retries = .asking { held with retries } ∧
        (retries : ℚ) ≤ runtime.thresholds.maxRetries ∨
      (runtime.bumped held code retries).decided = true := by
  rw [TriageRuntime.bumped]
  split
  · next spent => exact .inr (exhausted_decided sane code (.inr spent))
  · next within => exact .inl ⟨rfl, not_lt.mp within⟩

/-! ### What the settling transaction leaves -/

theorem applyComponentTransitionOn_cases (source target : TicketState) (owner : GuardOwner)
    (assign : ComponentAssignment) (row : TicketRow) :
    (∃ fault, applyComponentTransitionOn source target owner assign row = .error fault ∧
        fault.defensive = false) ∨
      ∃ row', applyComponentTransitionOn source target owner assign row = .ok row' ∧
        row'.retries = row.retries := by
  rw [applyComponentTransitionOn]
  split
  · exact .inl ⟨_, rfl, rfl⟩
  · split
    · exact .inl ⟨_, rfl, rfl⟩
    · split
      · exact .inl ⟨_, rfl, rfl⟩
      · split
        · exact .inl ⟨_, rfl, rfl⟩
        · exact .inr ⟨_, rfl, rfl⟩

/-- The transaction commits and leaves the counter, or throws and is no defect of the cycle's. -/
def Settles (row : TicketRow) (result : Except TriageFault (TicketRow × TriageOutcome)) : Prop :=
  (∃ fault, result = .error fault ∧ fault.defensive = false) ∨
    ∃ row' outcome, result = .ok (row', outcome) ∧ row'.retries = row.retries

theorem Settles.transition {source target : TicketState} {owner : GuardOwner}
    {assign : ComponentAssignment} {row : TicketRow}
    {rest : TicketRow → Except TriageFault (TicketRow × TriageOutcome)}
    (settles : ∀ row', row'.retries = row.retries → Settles row (rest row')) :
    Settles row (applyComponentTransitionOn source target owner assign row >>= rest) := by
  rcases applyComponentTransitionOn_cases source target owner assign row with
    ⟨fault, failed, calm⟩ | ⟨row', applied, kept⟩
  · rw [failed]
    exact .inl ⟨fault, rfl, calm⟩
  · rw [applied]
    exact settles row' kept

theorem Settles.done {row row' : TicketRow} (kept : row'.retries = row.retries)
    (outcome : TriageOutcome) : Settles row (.ok (row', outcome)) :=
  .inr ⟨row', outcome, rfl, kept⟩

theorem Settles.of_eq {row row' : TicketRow} {result : Except TriageFault (TicketRow × TriageOutcome)}
    (kept : row'.retries = row.retries) (settles : Settles row' result) : Settles row result := by
  rcases settles with failed | ⟨row'', outcome, committed, same⟩
  · exact .inl failed
  · exact .inr ⟨row'', outcome, committed, same.trans kept⟩

theorem settle_settles (runtime : TriageRuntime) (held : Standing) (policy : Option SlaPolicy) (row : TicketRow)
    (settlement : Settlement) : Settles row (runtime.settle held policy row settlement) := by
  cases settlement with
  | atRecord reason clause =>
    exact Settles.transition fun row' kept => Settles.done kept _
  | failure reason clause code =>
    simp only [TriageRuntime.settle]
    split
    · exact Settles.transition fun row' kept => Settles.done kept _
    · refine Settles.transition fun row' kept => Settles.of_eq kept ?_
      exact Settles.transition fun row'' kept' => Settles.done kept' _
  | answer reading redactedLength =>
    -- the answer is there, so there is something to store
    refine Settles.transition fun row' kept => Settles.of_eq kept ?_
    split
    · exact Settles.transition fun row'' kept' => Settles.done kept' _
    · exact Settles.done rfl _

/-! ### What a step of a cycle does -/

def TriageAct.opens : TriageAct → Bool
  | .start _ _ _ _ => true
  | _ => false

/-- The acts of a cycle: the phase before and after, the counter after, the attempts made. -/
inductive TriageMove (runtime : TriageRuntime) (row : TicketRow) (i : Nat) :
    TriageAct → TriagePhase → TriagePhase → Int → List Attempt → Prop
  | opened {now visible fresh} :
      (row.retries : ℚ) ≤ runtime.thresholds.maxRetries →
      TriageMove runtime row i (.start i now visible fresh) .idle
        (.asking ⟨row, now, row.retries⟩) row.retries []
  | settledAtOnce {now visible fresh phase} :
      phase.decided = true →
      TriageMove runtime row i (.start i now visible fresh) .idle phase row.retries []
  | asked {held} :
      TriageMove runtime row i (.ask i) (.asking held) (.waiting held) row.retries
        [⟨i, held.ticket.retries, held.retries⟩]
  | failed {held said code} :
      said.retried = true →
      TriageMove runtime row i (.reply i said) (.waiting held) (.failing held code) row.retries []
  | advanced {held code} :
      ((row.retries + 1 : Int) : ℚ) ≤ runtime.thresholds.maxRetries →
      TriageMove runtime row i (.bump i) (.failing held code)
        (.asking { held with retries := row.retries + 1 }) (row.retries + 1) []
  | closed {act old phase retries} :
      act.cycle = some i → act.opens = false → act.fails i = false → old.live = true →
      phase.decided = true → (old.attempting = none → phase.over = true) → row.retries ≤ retries →
      TriageMove runtime row i act old phase retries []

/-- The act is one of a cycle's, and this is what it leaves. -/
def TriageMoves (runtime : TriageRuntime) (s : TriageState) (i : Nat) (act : TriageAct)
    (t : TriageState) : Prop :=
  ∃ phase made, TriageMove runtime s.row i act (s.cycles i) phase t.row.retries made ∧
    t.cycles = Function.update s.cycles i phase ∧ t.attempts = s.attempts ++ made

theorem triageStep_cases (sane : Sane runtime.thresholds) {s t : TriageState} {act : TriageAct}
    (taken : triageStep runtime s act = some t) :
    (∃ i, TriageMoves runtime s i act t) ∨
      (act.cycle = none ∧ t.row.retries = s.row.retries ∧ t.cycles = s.cycles ∧
        t.attempts = s.attempts) := by
  cases act with
  | start i now visible fresh =>
    refine .inl ⟨i, ?_⟩
    simp only [triageStep] at taken
    split at taken
    · next phase =>
      cases taken
      rcases start_cases sane s.row now visible fresh with ⟨asks, within⟩ | decided
      · exact ⟨.asking ⟨s.row, now, s.row.retries⟩, [], phase ▸ .opened within,
          by rw [← asks]; rfl, (List.append_nil _).symm⟩
      · exact ⟨_, _, phase ▸ .settledAtOnce decided, rfl, (List.append_nil _).symm⟩
    · cases taken
  | ask i =>
    refine .inl ⟨i, ?_⟩
    simp only [triageStep] at taken
    split at taken
    · next held phase =>
      cases taken
      exact ⟨_, _, phase ▸ .asked, rfl, rfl⟩
    · cases taken
  | reply i said =>
    refine .inl ⟨i, ?_⟩
    simp only [triageStep] at taken
    split at taken
    · next held phase =>
      cases taken
      rcases heard_cases sane held said with ⟨retried, code, failing⟩ | ⟨calm, decided⟩
      · exact ⟨.failing held code, [], phase ▸ .failed retried, by rw [← failing]; rfl, (List.append_nil _).symm⟩
      · refine ⟨_, _, phase ▸ .closed rfl rfl ?_ rfl decided nofun le_rfl, rfl,
          (List.append_nil _).symm⟩
        simp [TriageAct.fails, calm]
    · cases taken
  | bump i =>
    refine .inl ⟨i, ?_⟩
    simp only [triageStep] at taken
    split at taken
    · next held code phase =>
      split at taken
      · cases taken
        rcases bumped_cases sane held code (s.row.retries + 1) with ⟨asks, within⟩ | decided
        · exact ⟨.asking { held with retries := s.row.retries + 1 }, [], phase ▸ .advanced within,
            by rw [← asks]; rfl, (List.append_nil _).symm⟩
        · exact ⟨_, _, phase ▸ .closed rfl rfl rfl rfl decided nofun (Int.le_add_one le_rfl), rfl,
            (List.append_nil _).symm⟩
      · cases taken
        exact ⟨_, _, phase ▸ .closed rfl rfl rfl rfl rfl (fun _ => rfl) le_rfl, rfl,
          (List.append_nil _).symm⟩
    · cases taken
  | settle i policy =>
    refine .inl ⟨i, ?_⟩
    simp only [triageStep] at taken
    split at taken
    · next held settlement phase =>
      rcases settle_settles runtime held policy s.row settlement with
        ⟨fault, threw, calm⟩ | ⟨row, outcome, committed, kept⟩
      · rw [threw] at taken
        cases taken
        refine ⟨_, _, phase ▸ .closed rfl rfl rfl rfl ?_ (fun _ => ?_) le_rfl, rfl,
          (List.append_nil _).symm⟩
        · simp [TriagePhase.decided, TriagePhase.over, calm]
        · simp [TriagePhase.over, calm]
      · rw [committed] at taken
        cases taken
        exact ⟨_, _, phase ▸ .closed rfl rfl rfl rfl rfl (fun _ => rfl) kept.ge, rfl,
          (List.append_nil _).symm⟩
    · cases taken
  | refuse i =>
    refine .inl ⟨i, ?_⟩
    simp only [triageStep] at taken
    split at taken
    · next phase =>
      cases taken
      exact ⟨_, _, phase ▸ .closed rfl rfl rfl rfl rfl (fun _ => rfl) le_rfl, rfl,
        (List.append_nil _).symm⟩
    · next phase =>
      cases taken
      exact ⟨_, _, phase ▸ .closed rfl rfl rfl rfl rfl (fun _ => rfl) le_rfl, rfl,
        (List.append_nil _).symm⟩
    · cases taken
  | crash i =>
    refine .inl ⟨i, ?_⟩
    simp only [triageStep] at taken
    split at taken
    · next live =>
      cases taken
      exact ⟨_, _, .closed rfl rfl rfl live rfl (fun _ => rfl) le_rfl, rfl, (List.append_nil _).symm⟩
    · cases taken
  | write row =>
    right
    simp only [triageStep] at taken
    split at taken
    · next kept =>
      cases taken
      exact ⟨rfl, kept, rfl, rfl⟩
    · cases taken

/-- The attempt a cycle is about to make. -/
def TriagePhase.next (i : Nat) : TriagePhase → Option Attempt
  | .asking held => some ⟨i, held.ticket.retries, held.retries⟩
  | _ => none

theorem TriagePhase.standing_of_next {i : Nat} {phase : TriagePhase} {a : Attempt}
    (about : phase.next i = some a) :
    ∃ held, phase.attempting = some held ∧ a = ⟨i, held.ticket.retries, held.retries⟩ := by
  cases phase with
  | asking held =>
    cases about
    exact ⟨held, rfl, rfl⟩
  | _ => cases about

namespace TriageMove

variable {row : TicketRow} {i : Nat} {act : TriageAct} {old phase : TriagePhase} {retries : Int}
variable {made : List Attempt}

theorem cycle (move : TriageMove runtime row i act old phase retries made) :
    act.cycle = some i := by
  cases move with
  | closed own => exact own
  | _ => rfl

theorem idle_of_opens (move : TriageMove runtime row i act old phase retries made)
    (opens : act.opens = true) : old = .idle := by
  cases move with
  | opened | settledAtOnce => rfl
  | closed _ other => exact absurd opens (Bool.eq_false_iff.mp other)
  | _ => cases opens

theorem counter_of_idle (move : TriageMove runtime row i act .idle phase retries made) :
    retries = row.retries := by
  cases move with
  | opened | settledAtOnce => rfl
  | closed _ _ _ live => cases live

/-- The counter never goes back. -/
theorem counter_le (move : TriageMove runtime row i act old phase retries made) :
    row.retries ≤ retries := by
  cases move with
  | closed _ _ _ _ _ _ grown => exact grown
  | advanced => exact Int.le_add_one le_rfl
  | _ => exact le_rfl

theorem not_idle (move : TriageMove runtime row i act old phase retries made) :
    phase ≠ .idle := by
  intro idle
  subst phase
  cases move with
  | settledAtOnce decided => cases decided
  | closed _ _ _ _ decided => cases decided

theorem calm (move : TriageMove runtime row i act old phase retries made) {fault : TriageFault}
    (threw : phase = .threw fault) : fault.defensive = false := by
  subst phase
  cases move with
  | settledAtOnce decided => simpa [TriagePhase.decided, TriagePhase.over] using decided
  | closed _ _ _ _ decided => simpa [TriagePhase.decided, TriagePhase.over] using decided

theorem decided_attempting {phase : TriagePhase} (decided : phase.decided = true) :
    phase.attempting = none ∧ phase.next i = none := by
  cases phase <;> first | exact ⟨rfl, rfl⟩ | cases decided

/-- What a cycle that still attempts holds: the row it has just read, what it held, or what it held
with the counter advanced. -/
theorem held_cases (move : TriageMove runtime row i act old phase retries made) {held : Standing}
    (attempts : phase.attempting = some held) :
    (old = .idle ∧ held.ticket.retries = row.retries ∧ held.retries = row.retries ∧
        (held.retries : ℚ) ≤ runtime.thresholds.maxRetries) ∨
      old.attempting = some held ∨
      (∃ before, old.attempting = some before ∧ held.ticket = before.ticket ∧
        held.retries = row.retries + 1 ∧ retries = row.retries + 1 ∧
        (held.retries : ℚ) ≤ runtime.thresholds.maxRetries) := by
  cases move with
  | opened within =>
    cases attempts
    exact .inl ⟨rfl, rfl, rfl, within⟩
  | settledAtOnce decided =>
    rw [(decided_attempting (i := i) decided).1] at attempts
    cases attempts
  | asked => exact .inr (.inl attempts)
  | failed => exact .inr (.inl attempts)
  | advanced within =>
    cases attempts
    exact .inr (.inr ⟨_, rfl, rfl, rfl, rfl, within⟩)
  | closed _ _ _ _ decided =>
    rw [(decided_attempting (i := i) decided).1] at attempts
    cases attempts

/-- An attempt is made as it was about to be. -/
theorem made_cases (move : TriageMove runtime row i act old phase retries made) :
    made = [] ∨ ∃ a, made = [a] ∧ old.next i = some a ∧ phase.next i = none := by
  cases move with
  | asked => exact .inr ⟨_, rfl, rfl, rfl⟩
  | _ => exact .inl rfl

/-- The next attempt is a cycle's first, under the counter as it is, or is made under a counter
that nothing had before. -/
theorem next_cases (move : TriageMove runtime row i act old phase retries made) {a : Attempt}
    (about : phase.next i = some a) :
    made = [] ∧ a.cycle = i ∧
      (old = .idle ∧ a.seed = a.opening ∨ row.retries < a.seed) := by
  cases move with
  | opened =>
    cases about
    exact ⟨rfl, rfl, .inl ⟨rfl, rfl⟩⟩
  | settledAtOnce decided =>
    rw [(decided_attempting decided).2] at about
    cases about
  | asked => cases about
  | failed => cases about
  | advanced =>
    cases about
    exact ⟨rfl, rfl, .inr (Int.lt_add_one_of_le le_rfl)⟩
  | closed _ _ _ _ decided =>
    rw [(decided_attempting decided).2] at about
    cases about

end TriageMove

/-! ### Seeds -/

/-- Attempts share a seed only across cycles, and only as one of them is its cycle's first. -/
def Apart (a b : Attempt) : Prop :=
  a.seed = b.seed → a.cycle ≠ b.cycle ∧ (a.seed = a.opening ∨ b.seed = b.opening)

theorem Apart.symm {a b : Attempt} (apart : Apart a b) : Apart b a := by
  intro same
  obtain ⟨other, first⟩ := apart same.symm
  exact ⟨other.symm, first.symm⟩

theorem Apart.of_first {a b : Attempt} (other : a.cycle ≠ b.cycle) (first : b.seed = b.opening) :
    Apart a b :=
  fun _ => ⟨other, .inr first⟩

theorem Apart.of_lt {a b : Attempt} (less : a.seed < b.seed) : Apart a b :=
  fun same => absurd same less.ne

structure LifeKept (runtime : TriageRuntime) (s : TriageState) : Prop where
  calm : ∀ i fault, s.cycles i = .threw fault → fault.defensive = false
  held : ∀ i held, (s.cycles i).attempting = some held →
    held.ticket.retries ≤ held.retries ∧ held.retries ≤ s.row.retries ∧
      (held.retries : ℚ) ≤ runtime.thresholds.maxRetries
  made : ∀ a ∈ s.attempts, s.cycles a.cycle ≠ .idle ∧ a.opening ≤ a.seed ∧ a.seed ≤ s.row.retries
  ahead : ∀ i a, (s.cycles i).next i = some a → ∀ b ∈ s.attempts, Apart b a
  apart : ∀ i j a b, i ≠ j → (s.cycles i).next i = some a → (s.cycles j).next j = some b → Apart a b
  distinct : s.attempts.Pairwise Apart

theorem lifeKept_begin (row : TicketRow) : LifeKept runtime (begin row) where
  calm i fault threw := by cases threw
  held i held attempting := by cases attempting
  made a member := by cases member
  ahead i a about := by cases about
  apart i j a b _ about := by cases about
  distinct := List.Pairwise.nil

section Step

variable {s t : TriageState} {i : Nat} {act : TriageAct}

theorem LifeKept.next_le (kept : LifeKept runtime s) {a : Attempt}
    (about : (s.cycles i).next i = some a) :
    a.cycle = i ∧ a.opening ≤ a.seed ∧ a.seed ≤ s.row.retries := by
  obtain ⟨held, attempting, rfl⟩ := TriagePhase.standing_of_next about
  have bounds := kept.held i held attempting
  exact ⟨rfl, bounds.1, bounds.2.1⟩

theorem LifeKept.step (kept : LifeKept runtime s) (moves : TriageMoves runtime s i act t) :
    LifeKept runtime t := by
  obtain ⟨phase, made, move, cycles, attempts⟩ := moves
  have here : t.cycles i = phase := by rw [cycles, Function.update_self]
  have elsewhere : ∀ j, j ≠ i → t.cycles j = s.cycles j := by
    intro j other
    rw [cycles, Function.update_of_ne other]
  have counter := move.counter_le
  -- an attempt just made was about to be made by this cycle
  have entered : ∀ a ∈ made, (s.cycles i).next i = some a := by
    intro a member
    rcases move.made_cases with rfl | ⟨b, rfl, about, -⟩
    · cases member
    · rwa [List.mem_singleton.mp member]
  -- a cycle's next attempt is apart from all that had been or was about to be made
  have next_apart : ∀ a b, phase.next i = some a → b.cycle ≠ i ∨ (s.cycles i) ≠ .idle →
      b.seed ≤ s.row.retries → Apart b a := by
    intro a b about other below
    obtain ⟨-, own, ⟨idle, first⟩ | above⟩ := move.next_cases about
    · rcases other with other | begun
      · exact Apart.of_first (own.symm ▸ other) first
      · exact absurd idle begun
    · exact Apart.of_lt (lt_of_le_of_lt below above)
  constructor
  case calm =>
    intro j fault threw
    by_cases same : j = i
    · subst j
      exact move.calm (here.symm.trans threw)
    · exact kept.calm j fault (elsewhere j same ▸ threw)
  case held =>
    intro j held attempting
    by_cases same : j = i
    · subst j
      rw [here] at attempting
      rcases move.held_cases attempting with ⟨-, opening, current, within⟩ | before |
        ⟨before, attempted, ticket, current, advanced, within⟩
      · exact ⟨by omega, by omega, within⟩
      · obtain ⟨opening, below, within⟩ := kept.held i held before
        exact ⟨opening, by omega, within⟩
      · obtain ⟨opening, below, -⟩ := kept.held i before attempted
        rw [ticket]
        exact ⟨by omega, by omega, within⟩
    · rw [elsewhere j same] at attempting
      obtain ⟨opening, below, within⟩ := kept.held j held attempting
      exact ⟨opening, by omega, within⟩
  case made =>
    intro a member
    rw [attempts, List.mem_append] at member
    rcases member with earlier | new
    · obtain ⟨begun, opening, below⟩ := kept.made a earlier
      refine ⟨?_, opening, by omega⟩
      by_cases same : a.cycle = i
      · rw [same, here]
        exact move.not_idle
      · rwa [elsewhere _ same]
    · obtain ⟨own, opening, below⟩ := kept.next_le (entered a new)
      refine ⟨?_, opening, by omega⟩
      rw [own, here]
      exact move.not_idle
  case ahead =>
    intro j a about b member
    rw [attempts, List.mem_append] at member
    by_cases same : j = i
    · subst j
      rw [here] at about
      rw [(move.next_cases about).1] at member
      rcases member with earlier | new
      · obtain ⟨begun, -, below⟩ := kept.made b earlier
        refine next_apart a b about ?_ below
        by_cases own : b.cycle = i
        · exact .inr (own ▸ begun)
        · exact .inl own
      · cases new
    · rw [elsewhere j same] at about
      rcases member with earlier | new
      · exact kept.ahead j a about b earlier
      · exact kept.apart i j b a (Ne.symm same) (entered b new) about
  case apart =>
    -- of two cycles only one has moved
    have moved : ∀ j a b, j ≠ i → phase.next i = some a → (s.cycles j).next j = some b →
        Apart b a := by
      intro j a b other about standing
      obtain ⟨own, -, below⟩ := kept.next_le standing
      exact next_apart a b about (.inl (own.symm ▸ other)) below
    intro j k a b different first second
    by_cases same : j = i
    · subst j
      rw [here] at first
      rw [elsewhere k different.symm] at second
      exact (moved k a b different.symm first second).symm
    · rw [elsewhere j same] at first
      by_cases same' : k = i
      · subst k
        rw [here] at second
        exact moved j b a same second first
      · rw [elsewhere k same'] at second
        exact kept.apart j k a b different first second
  case distinct =>
    rw [attempts]
    rcases move.made_cases with rfl | ⟨a, rfl, about, -⟩
    · rw [List.append_nil]
      exact kept.distinct
    · rw [List.pairwise_append]
      refine ⟨kept.distinct, List.pairwise_singleton _ _, fun b earlier c new => ?_⟩
      rw [List.mem_singleton.mp new]
      exact kept.ahead i a about b earlier

theorem LifeKept.next (sane : Sane runtime.thresholds) (kept : LifeKept runtime s)
    (taken : triageStep runtime s act = some t) : LifeKept runtime t := by
  rcases triageStep_cases sane taken with ⟨i, moves⟩ | ⟨-, counter, cycles, attempts⟩
  · exact kept.step moves
  · constructor
    · rw [cycles]
      exact kept.calm
    · rw [cycles, counter]
      exact kept.held
    · rw [attempts, cycles, counter]
      exact kept.made
    · rw [attempts, cycles]
      exact kept.ahead
    · rw [cycles]
      exact kept.apart
    · rw [attempts]
      exact kept.distinct

end Step

/-! ### The budget -/

/-- The failures a cycle may still count. -/
def EscalationThresholds.budget (thresholds : EscalationThresholds) (retries : Int) : Nat :=
  (⌊thresholds.maxRetries⌋ + 1 - retries).toNat

section Budget

variable {thresholds : EscalationThresholds}

theorem budget_pos {retries : Int} (within : (retries : ℚ) ≤ thresholds.maxRetries) :
    0 < thresholds.budget retries := by
  have floor := Int.le_floor.mpr within
  rw [EscalationThresholds.budget]
  omega

theorem budget_lt {retries later : Int} (within : (retries : ℚ) ≤ thresholds.maxRetries)
    (grown : retries < later) : thresholds.budget later < thresholds.budget retries := by
  have floor := Int.le_floor.mpr within
  simp only [EscalationThresholds.budget]
  omega

def TriagePhase.failuresLeft (thresholds : EscalationThresholds) : TriagePhase → Nat
  | .asking held | .waiting held => thresholds.budget held.retries
  | .failing held _ => thresholds.budget held.retries - 1
  | _ => 0

def TriagePhase.movesLeft (thresholds : EscalationThresholds) : TriagePhase → Nat
  | .asking held => 3 * thresholds.budget held.retries + 1
  | .waiting held => 3 * thresholds.budget held.retries
  | .failing held _ => 3 * thresholds.budget held.retries - 1
  | .settling _ _ => 1
  | _ => 0

theorem TriagePhase.left_of_decided (thresholds : EscalationThresholds) {phase : TriagePhase} (decided : phase.decided = true) :
    phase.failuresLeft thresholds = 0 ∧ phase.movesLeft thresholds ≤ 1 := by
  cases phase with
  | idle | asking | waiting | failing => cases decided
  | _ => simp [TriagePhase.failuresLeft, TriagePhase.movesLeft]

theorem TriagePhase.left_of_over {phase : TriagePhase} (ended : phase.over = true) :
    phase.movesLeft thresholds = 0 := by
  cases phase <;> first | rfl | cases ended

end Budget

theorem TriageAct.cycle_of_fails {i : Nat} {act : TriageAct} (fails : act.fails i = true) :
    act.cycle = some i := by
  cases act with
  | reply j said =>
    simp only [TriageAct.fails, Bool.and_eq_true, decide_eq_true_eq] at fails
    rw [fails.1]
    rfl
  | _ => cases fails

/-- What a cycle is let do to begin with. -/
theorem TriageMove.granted {row : TicketRow} {i : Nat} {act : TriageAct} {phase : TriagePhase}
    {retries : Int} {made : List Attempt}
    (move : TriageMove runtime row i act .idle phase retries made) :
    (∃ now visible fresh, act = .start i now visible fresh) ∧ act.fails i = false ∧
      phase.failuresLeft runtime.thresholds ≤ runtime.thresholds.budget row.retries ∧
      1 + phase.movesLeft runtime.thresholds ≤ 3 * runtime.thresholds.budget row.retries + 2 := by
  cases move with
  | opened within =>
    refine ⟨⟨_, _, _, rfl⟩, rfl, le_rfl, ?_⟩
    simp only [TriagePhase.movesLeft]
    omega
  | settledAtOnce decided =>
    obtain ⟨none_left, few⟩ := TriagePhase.left_of_decided runtime.thresholds decided
    exact ⟨⟨_, _, _, rfl⟩, rfl, by omega, by omega⟩
  | closed _ _ _ live => cases live

/-- A step of a cycle under way is paid for out of what it has left. -/
theorem TriageMove.paid {row : TicketRow} {i : Nat} {act : TriageAct} {old phase : TriagePhase}
    {retries : Int} {made : List Attempt}
    (move : TriageMove runtime row i act old phase retries made)
    (bounds : ∀ held, old.attempting = some held →
      held.retries ≤ row.retries ∧ (held.retries : ℚ) ≤ runtime.thresholds.maxRetries)
    (begun : old ≠ .idle) :
    (act.fails i).toNat + phase.failuresLeft runtime.thresholds ≤
        old.failuresLeft runtime.thresholds ∧
      1 + phase.movesLeft runtime.thresholds ≤ old.movesLeft runtime.thresholds := by
  cases move with
  | opened => exact absurd rfl begun
  | settledAtOnce => exact absurd rfl begun
  | asked =>
    simp [TriageAct.fails, TriagePhase.failuresLeft, TriagePhase.movesLeft, Nat.add_comm]
  | failed retried =>
    have positive := budget_pos (bounds _ rfl).2
    simp only [TriageAct.fails, retried, TriagePhase.failuresLeft, TriagePhase.movesLeft,
      decide_true, Bool.and_self, Bool.toNat_true]
    omega
  | advanced within =>
    obtain ⟨below, before⟩ := bounds _ rfl
    have less := budget_lt before (Int.lt_add_one_of_le below)
    simp only [TriageAct.fails, TriagePhase.failuresLeft, TriagePhase.movesLeft, Bool.toNat_false]
    omega
  | closed _ _ calm live decided last =>
    obtain ⟨none_left, few⟩ := TriagePhase.left_of_decided runtime.thresholds decided
    rw [calm, none_left]
    refine ⟨by simp, ?_⟩
    cases old with
    | asking held =>
      have positive := budget_pos (bounds held rfl).2
      change 1 + phase.movesLeft _ ≤ 3 * runtime.thresholds.budget held.retries + 1
      omega
    | waiting held =>
      have positive := budget_pos (bounds held rfl).2
      change 1 + phase.movesLeft _ ≤ 3 * runtime.thresholds.budget held.retries
      omega
    | failing held =>
      have positive := budget_pos (bounds held rfl).2
      change 1 + phase.movesLeft _ ≤ 3 * runtime.thresholds.budget held.retries - 1
      omega
    | settling =>
      rw [TriagePhase.left_of_over (last rfl)]
      exact le_rfl
    | _ => cases live

/-! ### The life of a ticket -/

abbrev TriageTrace := List (Transition TriageState TriageAct)

/-- The retryable failures of a cycle. -/
def failures (i : Nat) (ts : TriageTrace) : Nat := ts.countP fun tr => tr.act.fails i

/-- The steps of a cycle. -/
def moves (i : Nat) (ts : TriageTrace) : Nat := ts.countP fun tr => tr.act.cycle = some i

def Starts (tr : Transition TriageState TriageAct) (i : Nat) : Prop :=
  ∃ now visible fresh, tr.act = .start i now visible fresh

/-- The cycle read this counter to begin with. -/
def Opened (ts : TriageTrace) (i : Nat) (retries : Int) : Prop :=
  ∃ tr ∈ ts, Starts tr i ∧ tr.source.row.retries = retries

/-- A step of the cycle left this counter in the row, or read it there. -/
def Persisted (ts : TriageTrace) (i : Nat) (retries : Int) : Prop :=
  ∃ tr ∈ ts, tr.act.cycle = some i ∧ tr.target.row.retries = retries

theorem Opened.append {ts us : TriageTrace} {i : Nat} {retries : Int} (opened : Opened ts i retries) :
    Opened (ts ++ us) i retries := by
  obtain ⟨tr, member, rest⟩ := opened
  exact ⟨tr, List.mem_append_left us member, rest⟩

theorem Persisted.append {ts us : TriageTrace} {i : Nat} {retries : Int}
    (persisted : Persisted ts i retries) : Persisted (ts ++ us) i retries := by
  obtain ⟨tr, member, rest⟩ := persisted
  exact ⟨tr, List.mem_append_left us member, rest⟩

/-- What a cycle has done and has left, together, is within what it began with. -/
structure Accounted (thresholds : EscalationThresholds) (ts : TriageTrace) (i : Nat)
    (phase : TriagePhase) (retries : Int) : Prop where
  opened : Opened ts i retries
  only : ∀ tr ∈ ts, Starts tr i → tr.source.row.retries = retries
  failures : failures i ts + phase.failuresLeft thresholds ≤ thresholds.budget retries
  moves : moves i ts + phase.movesLeft thresholds ≤ 3 * thresholds.budget retries + 2
  held : ∀ held, phase.attempting = some held → held.ticket.retries = retries

structure LifeTraced (runtime : TriageRuntime) (ts : TriageTrace) (s : TriageState) : Prop where
  kept : LifeKept runtime s
  unopened : ∀ i, s.cycles i = .idle → ∀ tr ∈ ts, tr.act.cycle ≠ some i
  accounted : ∀ i, s.cycles i ≠ .idle →
    ∃ retries, Accounted runtime.thresholds ts i (s.cycles i) retries
  persisted : ∀ i held, (s.cycles i).attempting = some held → Persisted ts i held.retries
  seeds : ∀ a ∈ s.attempts, Opened ts a.cycle a.opening ∧ Persisted ts a.cycle a.seed

theorem lifeTraced_begin (row : TicketRow) : LifeTraced runtime [] (begin row) where
  kept := lifeKept_begin row
  unopened i _ tr member := by cases member
  accounted i begun := absurd rfl begun
  persisted i held attempting := by cases attempting
  seeds a member := by cases member

theorem moves_concat (i : Nat) (ts : TriageTrace) (tr : Transition TriageState TriageAct) :
    moves i (ts ++ [tr]) = moves i ts + if tr.act.cycle = some i then 1 else 0 := by
  simp [moves, List.countP_append, List.countP_singleton]

theorem failures_concat (i : Nat) (ts : TriageTrace) (tr : Transition TriageState TriageAct) :
    failures i (ts ++ [tr]) = failures i ts + (tr.act.fails i).toNat := by
  cases fails : tr.act.fails i <;> simp [failures, List.countP_append, fails]

/-- A step of anything else leaves a cycle's account. -/
theorem Accounted.other {thresholds : EscalationThresholds} {ts : TriageTrace} {i : Nat}
    {phase : TriagePhase} {retries : Int} (accounted : Accounted thresholds ts i phase retries)
    {tr : Transition TriageState TriageAct} (other : tr.act.cycle ≠ some i) :
    Accounted thresholds (ts ++ [tr]) i phase retries where
  opened := accounted.opened.append
  only := by
    intro tr' member starts
    rcases List.mem_append.mp member with earlier | new
    · exact accounted.only tr' earlier starts
    · obtain ⟨now, visible, fresh, act⟩ := starts
      rw [List.mem_singleton.mp new] at act
      exact absurd (congrArg TriageAct.cycle act) other
  failures := by
    have calm : tr.act.fails i = false := by
      by_contra fails
      exact other (TriageAct.cycle_of_fails (Bool.eq_true_of_not_eq_false fails))
    rw [failures_concat, calm]
    exact accounted.failures
  moves := by
    rw [moves_concat, if_neg other]
    exact accounted.moves
  held := accounted.held

section Traced

variable {ts : TriageTrace} {s t : TriageState} {i : Nat} {act : TriageAct}

/-- The account of the cycle that moved. -/
theorem LifeTraced.pays (traced : LifeTraced runtime ts s) {phase : TriagePhase}
    {made : List Attempt}
    (move : TriageMove runtime s.row i act (s.cycles i) phase t.row.retries made) :
    ∃ retries, Accounted runtime.thresholds (ts ++ [⟨s, act, t⟩]) i phase retries := by
  have own := move.cycle
  by_cases idle : s.cycles i = .idle
  · -- the cycle begins: nothing in the trace is its own
    have none_own := traced.unopened i idle
    have no_moves : moves i ts = 0 := by
      rw [moves, List.countP_eq_zero]
      simpa using none_own
    have no_failures : failures i ts = 0 := by
      rw [failures, List.countP_eq_zero]
      intro tr member fails
      exact none_own tr member (TriageAct.cycle_of_fails fails)
    rw [idle] at move
    obtain ⟨starts, calm, failing, moving⟩ := move.granted
    refine ⟨s.row.retries, ⟨⟨s, act, t⟩, by simp, starts, rfl⟩, ?_, ?_, ?_, ?_⟩
    · intro tr member opens
      rcases List.mem_append.mp member with earlier | new
      · obtain ⟨now, visible, fresh, acted⟩ := opens
        exact absurd (congrArg TriageAct.cycle acted) (none_own tr earlier)
      · rw [List.mem_singleton.mp new]
    · rw [failures_concat, no_failures]
      simpa [calm] using failing
    · rw [moves_concat, no_moves, if_pos own]
      omega
    · intro held attempting
      rcases move.held_cases attempting with ⟨-, opening, -⟩ | before | ⟨before, attempted, -⟩
      · exact opening
      · cases before
      · cases attempted
  · obtain ⟨retries, accounted⟩ := traced.accounted i idle
    have bounds : ∀ held, (s.cycles i).attempting = some held →
        held.retries ≤ s.row.retries ∧ (held.retries : ℚ) ≤ runtime.thresholds.maxRetries :=
      fun held attempting => (traced.kept.held i held attempting).2
    obtain ⟨failing, moving⟩ := move.paid bounds idle
    have failed := accounted.failures
    have moved := accounted.moves
    refine ⟨retries, accounted.opened.append, ?_, ?_, ?_, ?_⟩
    · intro tr member opens
      rcases List.mem_append.mp member with earlier | new
      · exact accounted.only tr earlier opens
      · obtain ⟨now, visible, fresh, acted⟩ := opens
        rw [List.mem_singleton.mp new] at acted
        exact absurd (move.idle_of_opens (congrArg TriageAct.opens acted)) idle
    · simp only [failures_concat]
      omega
    · simp only [moves_concat, own, ↓reduceIte]
      omega
    · intro held attempting
      rcases move.held_cases attempting with ⟨begun, -⟩ | before | ⟨before, attempted, ticket, -⟩
      · exact absurd begun idle
      · exact accounted.held held before
      · rw [ticket]
        exact accounted.held before attempted

theorem LifeTraced.moved (traced : LifeTraced runtime ts s)
    (moves : TriageMoves runtime s i act t) : LifeTraced runtime (ts ++ [⟨s, act, t⟩]) t := by
  have kept := traced.kept.step moves
  obtain ⟨phase, made, move, cycles, attempts⟩ := moves
  have here : t.cycles i = phase := by rw [cycles, Function.update_self]
  have elsewhere : ∀ j, j ≠ i → t.cycles j = s.cycles j := by
    intro j other
    rw [cycles, Function.update_of_ne other]
  have own := move.cycle
  have not_own : ∀ j, j ≠ i → act.cycle ≠ some j := by
    intro j other same
    exact other (Option.some.inj (same.symm.trans own))
  -- what this step read or left in the row
  have left : Persisted (ts ++ [⟨s, act, t⟩]) i t.row.retries := ⟨⟨s, act, t⟩, by simp, own, rfl⟩
  refine ⟨kept, ?_, ?_, ?_, ?_⟩
  · intro j idle
    have other : j ≠ i := by
      intro same
      rw [same, here] at idle
      exact move.not_idle idle
    intro tr member
    rcases List.mem_append.mp member with earlier | new
    · exact traced.unopened j (elsewhere j other ▸ idle) tr earlier
    · rw [List.mem_singleton.mp new]
      exact not_own j other
  · intro j begun
    by_cases same : j = i
    · subst j
      rw [here]
      exact traced.pays move
    · rw [elsewhere j same] at begun ⊢
      obtain ⟨retries, accounted⟩ := traced.accounted j begun
      exact ⟨retries, accounted.other (not_own j same)⟩
  · intro j held attempting
    by_cases same : j = i
    · subst j
      rw [here] at attempting
      rcases move.held_cases attempting with ⟨idle, -, current, -⟩ | before |
        ⟨before, attempted, -, current, advanced, -⟩
      · have unchanged : t.row.retries = s.row.retries := by
          generalize s.cycles i = old at move idle
          subst idle
          exact move.counter_of_idle
        rwa [current, ← unchanged]
      · exact (traced.persisted i held before).append
      · rwa [current, ← advanced]
    · rw [elsewhere j same] at attempting
      exact (traced.persisted j held attempting).append
  · intro a member
    rw [attempts, List.mem_append] at member
    rcases member with earlier | new
    · obtain ⟨opened, persisted⟩ := traced.seeds a earlier
      exact ⟨opened.append, persisted.append⟩
    · rcases move.made_cases with rfl | ⟨b, rfl, about, -⟩
      · cases new
      · rw [List.mem_singleton.mp new]
        obtain ⟨held, attempting, rfl⟩ := TriagePhase.standing_of_next about
        have begun : s.cycles i ≠ .idle := by
          intro idle
          rw [idle] at attempting
          cases attempting
        obtain ⟨retries, accounted⟩ := traced.accounted i begun
        refine ⟨?_, (traced.persisted i held attempting).append⟩
        rw [accounted.held held attempting]
        exact accounted.opened.append

theorem LifeTraced.next (sane : Sane runtime.thresholds) (traced : LifeTraced runtime ts s)
    (taken : triageStep runtime s act = some t) : LifeTraced runtime (ts ++ [⟨s, act, t⟩]) t := by
  have kept := traced.kept.next sane taken
  rcases triageStep_cases sane taken with ⟨i, moves⟩ | ⟨foreign, -, cycles, attempts⟩
  · exact traced.moved moves
  · have other : ∀ i, act.cycle ≠ some i := by
      intro i own
      rw [foreign] at own
      cases own
    refine ⟨kept, ?_, ?_, ?_, ?_⟩
    · intro i idle tr member
      rcases List.mem_append.mp member with earlier | new
      · exact traced.unopened i (cycles ▸ idle) tr earlier
      · rw [List.mem_singleton.mp new]
        exact other i
    · intro i begun
      rw [cycles] at begun ⊢
      obtain ⟨retries, accounted⟩ := traced.accounted i begun
      exact ⟨retries, accounted.other (other i)⟩
    · intro i held attempting
      exact (traced.persisted i held (cycles ▸ attempting)).append
    · intro a member
      obtain ⟨opened, persisted⟩ := traced.seeds a (attempts ▸ member)
      exact ⟨opened.append, persisted.append⟩

theorem lifeTraced (sane : Sane runtime.thresholds) {row : TicketRow}
    (run : Run (triageStep runtime) (begin row) ts s) : LifeTraced runtime ts s :=
  run.traced (P := LifeTraced runtime) (fun _ _ _ _ taken traced => traced.next sane taken) []
    (lifeTraced_begin row)

/-- A cycle under way can go on. -/
theorem live_moves (live : (s.cycles i).live = true) :
    ∃ act t, act.cycle = some i ∧ act ≠ .crash i ∧ triageStep runtime s act = some t := by
  cases phase : s.cycles i with
  | asking held => exact ⟨.ask i, _, rfl, nofun, by rw [triageStep, phase]⟩
  | waiting held => exact ⟨.reply i .foreign, _, rfl, nofun, by rw [triageStep, phase]⟩
  | failing held code => exact ⟨.refuse i, _, rfl, nofun, by rw [triageStep, phase]⟩
  | settling held settlement => exact ⟨.refuse i, _, rfl, nofun, by rw [triageStep, phase]⟩
  | _ =>
    rw [phase] at live
    cases live

end Traced

/-- Over the life of a ticket, with any number of cycles in any interleaving, each crashing where it
may. A cycle counts at most the failures the budget had left when it read the row, asks only while
it has counted fewer, takes a bounded number of steps and can always take one until it is over. It
reaches no defensive throw. The seeds of a cycle's attempts are counters it found persisted, and no
two of them are the same. Attempts of two cycles share a seed only as one is its cycle's first,
made under the counter as that cycle read it. -/
theorem triage_attempts (confidence : 0 < runtime.thresholds.confidence)
    (premium : normalisedSeverity untriagedSeverity < runtime.thresholds.premiumSeverity)
    {row : TicketRow} {ts : TriageTrace} {s : TriageState}
    (run : Run (triageStep runtime) (begin row) ts s) :
    (∀ tr ∈ ts, ∀ i, Starts tr i →
      failures i ts ≤ runtime.thresholds.budget tr.source.row.retries ∧
      moves i ts ≤ 3 * runtime.thresholds.budget tr.source.row.retries + 2 ∧
      ((s.cycles i).next i ≠ none →
        failures i ts < runtime.thresholds.budget tr.source.row.retries)) ∧
    (∀ i, (s.cycles i).live = true →
      ∃ act t, act.cycle = some i ∧ act ≠ .crash i ∧ triageStep runtime s act = some t) ∧
    (∀ i fault, s.cycles i = .threw fault → fault.defensive = false) ∧
    (∀ a ∈ s.attempts, Opened ts a.cycle a.opening ∧ Persisted ts a.cycle a.seed) ∧
    s.attempts.Pairwise fun a b => a.seed = b.seed →
      a.cycle ≠ b.cycle ∧ (a.seed = a.opening ∨ b.seed = b.opening) := by
  have traced := lifeTraced ⟨confidence, premium⟩ run
  refine ⟨?_, fun i live => live_moves live, traced.kept.calm, traced.seeds, traced.kept.distinct⟩
  intro tr member i starts
  have begun : s.cycles i ≠ .idle := by
    intro idle
    obtain ⟨now, visible, fresh, act⟩ := starts
    exact traced.unopened i idle tr member (congrArg TriageAct.cycle act)
  obtain ⟨retries, accounted⟩ := traced.accounted i begun
  rw [accounted.only tr member starts]
  have failed := accounted.failures
  have moved := accounted.moves
  refine ⟨by omega, by omega, fun asks => ?_⟩
  obtain ⟨a, about⟩ := Option.ne_none_iff_exists'.mp asks
  cases phase : s.cycles i with
  | asking held =>
    rw [phase] at failed
    have positive := budget_pos (traced.kept.held i held (by rw [phase]; rfl)).2.2
    simp only [TriagePhase.failuresLeft] at failed
    omega
  | _ =>
    rw [phase] at about
    cases about

/-! ### Two short lives -/

/-- The published rule over the text as it is, and a matcher that raises nothing. -/
def plainRuntime (thresholds : EscalationThresholds) : TriageRuntime where
  tables := ⟨id, id⟩
  thresholds := thresholds
  matchPolicyFlags _ _ := []

def freshTicket (tier : String) : TicketRow where
  id := "t"
  status := .NEW
  subject := "s"
  body_raw := "b"
  language := "en"
  retries := 0
  created_at := 0
  sla_due_at := none
  tier := tier
  value_band := 1
  sla_policy_id := none
  reading := none
  escalation_reason := none
  escalation_clause := none

/-- One cycle abandons the ticket for want of a budget, and the next begins again. -/
def abandonedOnce : List TriageAct :=
  [.start 0 0 true true, .ask 0, .reply 0 (.refused .E_BUDGET_EXHAUSTED), .start 1 0 true true,
    .ask 1]

theorem run_of_observed {β : Type} {row : TicketRow} (acts : List TriageAct)
    (observe : TriageState → β) {seen : β}
    (observed : (perform (triageStep runtime) (begin row) acts).map observe = some seen) :
    ∃ ts s, Run (triageStep runtime) (begin row) ts s ∧ observe s = seen := by
  obtain ⟨s, performed, saw⟩ := Option.map_eq_some_iff.mp observed
  exact ⟨_, s, run_of_perform _ _ _ _ performed, saw⟩

/-- An attempt of a second cycle repeats a seed, and a floor at the severity that stands in for the
missing one has an untriaged ticket reach a stage it cannot. -/
theorem triage_repeats :
    (∃ ts s, Run (triageStep (plainRuntime defaultEscalationThresholds))
        (begin (freshTicket "standard")) ts s ∧ s.attempts.map Attempt.seed = [0, 0]) ∧
      ∃ thresholds : EscalationThresholds, 0 < thresholds.confidence ∧ 0 ≤ thresholds.maxRetries ∧
        ∃ ts s, Run (triageStep (plainRuntime thresholds)) (begin (freshTicket "premium")) ts s ∧
          s.cycles 0 = .threw (.impossibleStage "premium_high_severity" (some .triage)) := by
  refine ⟨?_, { defaultEscalationThresholds with premiumSeverity := 1 / 4 }, by decide +kernel,
    by decide +kernel, ?_⟩
  · apply run_of_observed abandonedOnce fun s => s.attempts.map Attempt.seed
    decide +kernel
  · apply run_of_observed [.start 0 0 true true] fun s => s.cycles 0
    decide +kernel

theorem triage_attempts_abandoned :
    ∃ ts s, Run (triageStep (plainRuntime defaultEscalationThresholds))
      (begin (freshTicket "standard")) ts s ∧ s.attempts.length = 2 ∧
      s.attempts.Pairwise fun a b => a.seed = b.seed →
        a.cycle ≠ b.cycle ∧ (a.seed = a.opening ∨ b.seed = b.opening) := by
  obtain ⟨ts, s, run, two⟩ : ∃ ts s, Run (triageStep (plainRuntime defaultEscalationThresholds))
      (begin (freshTicket "standard")) ts s ∧ s.attempts.length = 2 := by
    apply run_of_observed abandonedOnce fun s => s.attempts.length
    decide +kernel
  exact ⟨ts, s, run, two, (triage_attempts (by decide +kernel) (by decide +kernel) run).2.2.2.2⟩

end LedgerDesk.Triage
