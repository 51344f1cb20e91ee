import LedgerDesk.Ledger.Promotion

/-!
# The pair of a promotion attempt

All the invocations of one attempt write two rows at most. The start of the attempt is in the
table before any terminal of it is built, and an index lets one row of each kind in; what is left
to the writer is whose row stands when its own does not.
-/
namespace LedgerDesk.Ledger

open Foundation LedgerDesk.Agents

/-! ### What is checked before anything is written -/

def Part.class : Part → LedgerClass
  | .start => .start
  | .terminal => .promotion_attempt

def Part.agent : Part → AgentKind
  | .start => .system
  | .terminal => .evolve

section Content

variable {sha256Hex : String → String} {pair : PromotionPair}

/-- A pair that passed is complete as the trigger has it, and its halves name one attempt. -/
theorem checkPair_eq_ok {attempt_id : String} (valid : checkPair pair = .ok attempt_id) :
    attemptOf pair = attempt_id ∧
      pair.start.memberText "attempt_id" = some attempt_id ∧
      pair.terminal.memberText "attempt_id" = some attempt_id ∧
      (∀ key ∈ startRequiredKeys, namesKey pair.start key = true) ∧
      (∀ key ∈ promotionAttemptRequiredKeys, key ≠ "failing_conjunct" →
        namesKey pair.terminal key = true) ∧
      promotionIncomplete pair.terminal = false := by
  simp only [checkPair, except_bind_eq_ok] at valid
  obtain ⟨_, -, _, -, _, -, start, start_object, terminal, terminal_object, _, start_valid, _,
    terminal_valid, _, same, named⟩ := valid
  have object_of : ∀ {json : Json} {members : Payload} {key place : String},
      requireObject (some json) key place = .ok members → json = .object members := by
    intro json members key place required
    cases json with
    | object found =>
      cases required
      rfl
    | _ => cases required
  rw [ensure_eq_ok, beq_iff_eq] at same
  have start_is := object_of start_object
  have terminal_is := object_of terminal_object
  obtain ⟨start_named, a, first⟩ := validateStartPayload_eq_ok start_valid
  obtain ⟨terminal_named, complete, -⟩ := validatePromotionAttemptPayload_eq_ok terminal_valid
  have text : pair.start.memberText "attempt_id" = some a := by
    simp only [start_is, Json.memberText, Json.member, first]
  rw [text, Option.getD_some] at named
  cases named
  refine ⟨by rw [attemptOf, text, Option.getD_some], text, same.trans text, ?_, ?_, ?_⟩
  · rwa [start_is]
  · rwa [terminal_is]
  · rwa [terminal_is]

theorem job_content (part : Part) (now : String) (head : Option LedgerHead) :
    (pair.job sha256Hex part).build now head =
      systemContent (pair.row sha256Hex part) part.agent head := by
  cases part <;> rfl

theorem job_output (part : Part) (now : String) (head : Option LedgerHead) :
    ((pair.job sha256Hex part).build now head).output =
      match part with
      | .start => pair.start
      | .terminal => pair.terminal := by
  cases part <;> rfl

theorem job_class (part : Part) (now : String) (head : Option LedgerHead) :
    ((pair.job sha256Hex part).build now head).class = part.class := by
  cases part <;> rfl

theorem job_org (part : Part) : (pair.job sha256Hex part).org_id = pair.org_id := by
  cases part <;> rfl

theorem job_run (part : Part) : (pair.job sha256Hex part).run_id = pair.run_id := by
  cases part <;> rfl

theorem job_attempt {attempt_id : String} (valid : checkPair pair = .ok attempt_id) (part : Part)
    (now : String) (head : Option LedgerHead) :
    ((pair.job sha256Hex part).build now head).output.memberText "attempt_id" =
      some attempt_id := by
  obtain ⟨-, start, terminal, -⟩ := checkPair_eq_ok valid
  rw [job_output]
  cases part with
  | start => exact start
  | terminal => exact terminal

/-- Neither row of a checked pair is one the trigger calls incomplete. -/
theorem job_complete {attempt_id : String} (valid : checkPair pair = .ok attempt_id) (part : Part)
    (now : String) (head : Option LedgerHead) :
    rowIncomplete ((pair.job sha256Hex part).build now head) = false := by
  obtain ⟨-, -, -, start, terminal, complete⟩ := checkPair_eq_ok valid
  rw [rowIncomplete, job_class, job_output]
  cases part with
  | start =>
    have none_missing : (requiredKeys .start).any (fun key =>
        key != "failing_conjunct" && !namesKey pair.start key) = false := by
      rw [List.any_eq_false]
      intro key member
      simp [start key member]
    simp only [Part.class, none_missing]
    rfl
  | terminal =>
    have none_missing : (requiredKeys .promotion_attempt).any (fun key =>
        key != "failing_conjunct" && !namesKey pair.terminal key) = false := by
      rw [List.any_eq_false]
      intro key member
      by_cases other : key = "failing_conjunct"
      · simp [other]
      · simp [terminal key member other]
    simp only [Part.class, none_missing, complete]
    rfl

end Content

/-! ### The rows of an attempt -/

/-- One of the two rows of an attempt, filed by its organisation. -/
structure PartRow (org_id attempt_id : String) (part : Part) (row : ChainedRow) : Prop where
  org : row.org_id = org_id
  «class» : row.class = part.class
  attempt : row.output.memberText "attempt_id" = some attempt_id

def PartStands (org_id attempt_id : String) (part : Part) (rows : List ChainedRow) : Prop :=
  ∃ row ∈ rows, PartRow org_id attempt_id part row

/-- What the table can hold: nothing, a start, or a start and a terminal behind it. -/
inductive AttemptRows (org_id attempt_id : String) : List ChainedRow → Prop
  | none : AttemptRows org_id attempt_id []
  | half {start} : PartRow org_id attempt_id .start start → AttemptRows org_id attempt_id [start]
  | whole {start terminal} : PartRow org_id attempt_id .start start →
      PartRow org_id attempt_id .terminal terminal →
      AttemptRows org_id attempt_id [start, terminal]

section Rows

variable {org_id attempt_id : String} {part : Part} {row : ChainedRow} {rows : List ChainedRow}

theorem PartRow.uniqueKey (is_part : PartRow org_id attempt_id part row) :
    uniqueKey row.toLedgerRowContent = some (part.key attempt_id) := by
  cases part <;> simp [Ledger.uniqueKey, is_part.class, is_part.attempt, Part.class, Part.key]

theorem PartRow.part_eq {other : Part} (is_part : PartRow org_id attempt_id part row)
    (is_other : PartRow org_id attempt_id other row) : part = other := by
  have same := is_part.class.symm.trans is_other.class
  cases part <;> cases other <;> first | rfl | cases same

theorem AttemptRows.start_stands (standing : AttemptRows org_id attempt_id rows)
    (some_row : rows ≠ []) : PartStands org_id attempt_id .start rows := by
  cases standing with
  | none => exact absurd rfl some_row
  | half start => exact ⟨_, by simp, start⟩
  | whole start _ => exact ⟨_, by simp, start⟩

theorem AttemptRows.eq_nil (standing : AttemptRows org_id attempt_id rows)
    (no_start : ¬PartStands org_id attempt_id .start rows) : rows = [] := by
  by_contra some_row
  exact no_start (standing.start_stands some_row)

/-- With a start and no terminal, the start is the whole table. -/
theorem AttemptRows.eq_half (standing : AttemptRows org_id attempt_id rows)
    (start_stands : PartStands org_id attempt_id .start rows)
    (no_terminal : ¬PartStands org_id attempt_id .terminal rows) :
    ∃ start, rows = [start] ∧ PartRow org_id attempt_id .start start := by
  cases standing with
  | none =>
    obtain ⟨row, member, -⟩ := start_stands
    cases member
  | half start => exact ⟨_, rfl, start⟩
  | whole _ terminal => exact absurd ⟨_, by simp, terminal⟩ no_terminal

theorem AttemptRows.eq_whole (standing : AttemptRows org_id attempt_id rows)
    (terminal_stands : PartStands org_id attempt_id .terminal rows) :
    ∃ start terminal, rows = [start, terminal] ∧ PartRow org_id attempt_id .start start ∧
      PartRow org_id attempt_id .terminal terminal := by
  obtain ⟨row, member, is_terminal⟩ := terminal_stands
  cases standing with
  | none => cases member
  | half start =>
    rw [List.mem_singleton] at member
    subst member
    cases start.part_eq is_terminal
  | whole start terminal => exact ⟨_, _, rfl, start, terminal⟩

theorem AttemptRows.terminal_stands (standing : AttemptRows org_id attempt_id rows)
    (two : 2 ≤ rows.length) : PartStands org_id attempt_id .terminal rows := by
  cases standing with
  | none => simp at two
  | half _ => simp at two
  | whole _ terminal => exact ⟨_, by simp, terminal⟩

/-- The reader answers with the rows that stand. -/
theorem findAttempt_eq (standing : AttemptRows org_id attempt_id rows) :
    findAttempt rows org_id attempt_id =
      ⟨rows[0]?.map ChainedRow.filed, rows[1]?.map ChainedRow.filed⟩ := by
  have class_cases : ∀ {part : Part} {row : ChainedRow}, PartRow org_id attempt_id part row →
      (row.class == LedgerClass.start) = (part == .start) ∧
        (row.class == LedgerClass.promotion_attempt) = (part == .terminal) := by
    intro part row is_part
    rw [is_part.class]
    cases part <;> exact ⟨rfl, rfl⟩
  cases standing with
  | none => rfl
  | half start =>
    simp [findAttempt, attemptRows, start.org, start.attempt, class_cases start]
  | whole start terminal =>
    simp only [findAttempt, attemptRows, List.filter_cons, start.org, start.attempt, terminal.org,
      terminal.attempt, class_cases start, class_cases terminal, List.filter_nil]
    simp [List.orderedInsert]
    split <;> simp [class_cases start, class_cases terminal]

end Rows

/-! ### A row built on the rows that stand -/

section Fresh

variable {sha256Hex : String → String} {org_id attempt_id : String} {part : Part}
variable {row : ChainedRow} {rows : List ChainedRow} {pair : PromotionPair}

/-- The row was built on the head that is still the last of its run. -/
def BuiltAtHead (sha256Hex : String → String) (rows : List ChainedRow) (pair : PromotionPair)
    (part : Part) (row : ChainedRow) : Prop :=
  ∃ now, linkRow sha256Hex
    ((pair.job sha256Hex part).build now (visibleHead rows pair.org_id pair.run_id))
    (visibleHead rows pair.org_id pair.run_id) = some row

theorem partRow_of_built (valid : checkPair pair = .ok attempt_id)
    (built : BuiltFrom sha256Hex rows (pair.job sha256Hex part) row) :
    PartRow pair.org_id attempt_id part row := by
  obtain ⟨now, head, -, linked⟩ := built
  obtain ⟨content, -⟩ := linkRow_eq_some linked
  refine ⟨?_, ?_, ?_⟩
  · rw [content, (pair.job sha256Hex part).build_org, job_org]
  · rw [content, job_class]
  · rw [content, job_attempt valid]

theorem BuiltAtHead.built (fresh : BuiltAtHead sha256Hex rows pair part row) :
    BuiltFrom sha256Hex rows (pair.job sha256Hex part) row := by
  obtain ⟨now, linked⟩ := fresh
  refine ⟨now, visibleHead rows pair.org_id pair.run_id, fun h shown => ?_, linked⟩
  rw [job_run]
  exact visibleHead_stands shown

/-- The head of a run whose only row is this one. -/
theorem visibleHead_single {start : ChainedRow} (org : start.org_id = org_id) :
    visibleHead [start] org_id start.run_id = some start.head := by
  simp [visibleHead, runRows, headOf, org]

theorem visibleHead_none {run_id : String} (other : ∀ row ∈ rows, row.run_id ≠ run_id) :
    visibleHead rows org_id run_id = none := by
  have none_of_run : runRows rows run_id = [] := by
    rw [runRows, List.filter_eq_nil_iff]
    intro row member
    simp [other row member]
  rw [visibleHead, none_of_run]
  rfl

/-- A fresh row is behind every row of its run, whatever was in the table: nothing, or a row. -/
theorem fresh_row_told (linear : ∀ run_id, Linear sha256Hex rows run_id)
    (few : rows = [] ∨ ∃ start, rows = [start] ∧ start.org_id = pair.org_id)
    (fresh : BuiltAtHead sha256Hex rows pair part row) :
    (∀ h ∈ headOf (runRows rows row.run_id), h.seq < row.seq) ∧
      row.prev_hash = ((headOf (runRows rows row.run_id)).map ChainedRow.row_hash).getD genesis ∧
      ∀ standing ∈ rows, standing.run_id = row.run_id →
        standing.seq ≠ row.seq ∧ standing.prev_hash ≠ row.prev_hash := by
  obtain ⟨now, linked⟩ := fresh
  obtain ⟨content, prev, -⟩ := linkRow_eq_some linked
  have run : row.run_id = pair.run_id := by
    rw [content, (pair.job sha256Hex part).build_run, job_run]
  have seq : row.seq = nextSeq (visibleHead rows pair.org_id pair.run_id) := by
    rw [content, (pair.job sha256Hex part).build_seq]
  have behind_none : (∀ other ∈ rows, other.run_id ≠ pair.run_id) →
      headOf (runRows rows row.run_id) = none ∧ row.prev_hash = genesis := by
    intro other
    have none_of_run : runRows rows row.run_id = [] := by
      rw [runRows, List.filter_eq_nil_iff]
      intro r member
      simp [run, other r member]
    rw [visibleHead_none other] at prev
    rw [none_of_run]
    exact ⟨rfl, prev⟩
  rcases few with rfl | ⟨start, rfl, org⟩
  · obtain ⟨no_head, opens⟩ := behind_none (by simp)
    rw [no_head, opens]
    exact ⟨by simp, rfl, by simp⟩
  · by_cases same_run : start.run_id = pair.run_id
    · -- the start opened the run, so the new row stands right behind it
      have only : runRows [start] row.run_id = [start] := by
        simp [runRows, same_run, run]
      have fits : Extends sha256Hex [] start := by
        have chain := linear row.run_id
        rw [Linear, only] at chain
        exact chain [] start [] rfl
      rw [← same_run, visibleHead_single org] at prev seq
      simp only [Option.map_some, Option.getD_some, ChainedRow.head, nextSeq] at prev seq
      have digest := fits.digest
      rw [verifyRowHash, Bool.and_eq_true] at digest
      rw [only]
      refine ⟨?_, ?_, ?_⟩
      · intro h head
        simp only [headOf, List.argmax_singleton, Option.mem_def, Option.some.injEq] at head
        subst head
        omega
      · simp [headOf, prev]
      · intro standing member _
        rw [List.mem_singleton] at member
        subst member
        refine ⟨by omega, fun same => ?_⟩
        rw [fits.prev, prev] at same
        rw [← same] at digest
        exact absurd digest.1 (by decide)
    · have other : ∀ r ∈ [start], r.run_id ≠ pair.run_id := by simpa using same_run
      obtain ⟨no_head, opens⟩ := behind_none other
      rw [no_head, opens]
      refine ⟨by simp, rfl, fun standing member in_run => ?_⟩
      rw [run] at in_run
      exact absurd in_run (other standing member)

theorem ledgerLink_fresh (linear : ∀ run_id, Linear sha256Hex rows run_id)
    (few : rows = [] ∨ ∃ start, rows = [start] ∧ start.org_id = pair.org_id)
    (fresh : BuiltAtHead sha256Hex rows pair part row) :
    ledgerLink rows row =
      if rowIncomplete row.toLedgerRowContent then .error .refused else .ok () := by
  obtain ⟨ahead, prev, -⟩ := fresh_row_told linear few fresh
  have not_behind : ((headOf (runRows rows row.run_id)).any fun h => row.seq ≤ h.seq) = false := by
    cases head : headOf (runRows rows row.run_id) with
    | none => rfl
    | some h =>
      have below := ahead h head
      simpa using below
  simp only [ledgerLink, not_behind, Bool.false_eq_true, if_false, ← prev, ne_eq,
    not_true_eq_false]

/-- No row but one of the same attempt and kind stands in the way of a fresh row. -/
theorem fresh_no_duplicate (linear : ∀ run_id, Linear sha256Hex rows run_id)
    (few : rows = [] ∨ ∃ start, rows = [start] ∧ start.org_id = pair.org_id)
    (fresh : BuiltAtHead sha256Hex rows pair part row)
    (apart : ∀ standing ∈ rows,
      uniqueKey standing.toLedgerRowContent ≠ uniqueKey row.toLedgerRowContent) :
    rows.any (duplicates row) = false := by
  obtain ⟨-, -, told⟩ := fresh_row_told linear few fresh
  rw [List.any_eq_false]
  intro standing member
  have other_key := apart standing member
  simp only [duplicates, Bool.or_eq_true, Bool.and_eq_true, beq_iff_eq, not_or, not_and]
  exact ⟨⟨fun run => (told standing member run).1, fun run => (told standing member run).2⟩,
    fun _ => other_key⟩

/-- A fresh row loses only to a row of its own attempt and kind. -/
theorem fresh_conflict (valid : checkPair pair = .ok attempt_id)
    (linear : ∀ run_id, Linear sha256Hex rows run_id)
    (few : rows = [] ∨ ∃ start, rows = [start] ∧ start.org_id = pair.org_id)
    (fresh : BuiltAtHead sha256Hex rows pair part row)
    (conflict : insertRow pair.org_id rows row = .error .chainConflict) :
    ∃ standing ∈ rows, uniqueKey standing.toLedgerRowContent = some (part.key attempt_id) := by
  have is_part := partRow_of_built valid fresh.built
  by_contra none_standing
  have apart : ∀ r ∈ rows, uniqueKey r.toLedgerRowContent ≠ uniqueKey row.toLedgerRowContent := by
    intro r member same
    exact none_standing ⟨r, member, same.trans is_part.uniqueKey⟩
  have link := ledgerLink_fresh linear few fresh
  have no_duplicate := fresh_no_duplicate linear few fresh apart
  cases incomplete : rowIncomplete row.toLedgerRowContent with
  | true =>
    rw [incomplete, if_pos rfl] at link
    simp only [insertRow, link, reduceCtorEq, Except.error.injEq] at conflict
  | false =>
    rw [incomplete, if_neg Bool.false_ne_true] at link
    simp only [insertRow, link, no_duplicate] at conflict
    split at conflict
    · cases conflict
    · split at conflict
      · cases conflict
      · cases conflict

end Fresh

/-! ### What every interleaving keeps -/

section Filing

variable (sha256Hex : String → String) (lockKey : String → Int)
variable {ι : Type*} (pairs : ι → PromotionPair) (org_id attempt_id : String)

/-- The invocations are of one organisation and one attempt, as far as their payloads pass. -/
def OneAttempt : Prop :=
  ∀ i a, checkPair (pairs i) = .ok a → (pairs i).org_id = org_id ∧ a = attempt_id

def Valid (i : ι) : Prop := checkPair (pairs i) = .ok attempt_id

/-- No transaction of the writer has a row in the table that is not committed. -/
def Quiet (store : StoreState (ι × Part)) (writer : ι × Part) : Prop :=
  ∀ row, store.phase writer ≠ .inserted row

def Untouched (store : StoreState (ι × Part)) (i : ι) : Prop :=
  ∀ part, store.phase (i, part) = .reading 0

/-- An append loses its race only where the row it is for stands. -/
def AppendSound (store : StoreState (ι × Part)) (i : ι) (part : Part) : AppendPhase → Prop
  | .reading attempt => attempt ≠ 0 → PartStands org_id attempt_id part store.rows
  | .built attempt row =>
    (attempt ≠ 0 → PartStands org_id attempt_id part store.rows) ∧
      (PartStands org_id attempt_id part store.rows ∨
        BuiltAtHead sha256Hex store.rows (pairs i) part row)
  | .inserted _ =>
    store.holder (.unique (part.key attempt_id)) = some (i, part) ∧
      ¬PartStands org_id attempt_id part store.rows
  | .succeeded => False
  | .failed => False

def NamesPart (store : StoreState (ι × Part)) (part : Part) (filed : FiledRow) : Prop :=
  ∃ row ∈ store.rows, PartRow org_id attempt_id part row ∧ row.filed = filed

/-- What an invocation may rely on where it stands. -/
def StageSound (store : StoreState (ι × Part)) (i : ι) : Stage → Prop
  | .idle => Untouched store i
  | .prereading => Valid pairs attempt_id i ∧ Untouched store i
  | .opening =>
    Valid pairs attempt_id i ∧ store.phase (i, .terminal) = .reading 0 ∧
      AppendSound sha256Hex pairs org_id attempt_id store i .start (store.phase (i, .start))
  | .closing start _ =>
    Valid pairs attempt_id i ∧ Quiet store (i, .start) ∧
      AppendSound sha256Hex pairs org_id attempt_id store i .terminal (store.phase (i, .terminal)) ∧
      NamesPart org_id attempt_id store .start start
  | .rereading error =>
    Valid pairs attempt_id i ∧ (∀ part, Quiet store (i, part)) ∧
      (error = .E_LEDGER_WRITE_FAILED → PartStands org_id attempt_id .terminal store.rows)
  | .returned pair =>
    Valid pairs attempt_id i ∧ (∀ part, Quiet store (i, part)) ∧ pair.attempt_id = attempt_id ∧
      NamesPart org_id attempt_id store .start pair.start ∧
      NamesPart org_id attempt_id store .terminal pair.terminal
  | .failed _ => ∀ part, Quiet store (i, part)
  | .crashed => ∀ part, Quiet store (i, part)

structure FilingInvariant [DecidableEq ι] (s : FilingState ι) : Prop where
  store : StoreInvariant sha256Hex lockKey (filingJobs sha256Hex pairs) s.store
  rows : AttemptRows org_id attempt_id s.store.rows
  sound : ∀ i, StageSound sha256Hex pairs org_id attempt_id s.store i (s.stage i)
  untouched : ∀ i refusal, checkPair (pairs i) = .error refusal → Untouched s.store i

variable {sha256Hex lockKey pairs org_id attempt_id}

/-! #### What a step leaves alone -/

/-- A step of one writer that commits nothing. -/
structure Frame {ω : Type*} (writer : ω) (s t : StoreState ω) : Prop where
  rows : t.rows = s.rows
  phases : ∀ v, v ≠ writer → t.phase v = s.phase v
  holds : ∀ v lock, v ≠ writer → s.holder lock = some v → t.holder lock = some v

theorem setPhase_frame {ω : Type*} [DecidableEq ω] (s : StoreState ω) (writer : ω)
    (phase : AppendPhase) : Frame writer s (s.setPhase writer phase) :=
  ⟨rfl, fun _ other => Function.update_of_ne other _ _, fun _ _ _ held => held⟩

theorem abort_frame {ω : Type*} [DecidableEq ω] (s : StoreState ω) (writer : ω) :
    Frame writer s ((s.release writer).setPhase writer .failed) :=
  ⟨rfl, fun _ other => Function.update_of_ne other _ _, fun _ _ other held =>
    release_of_ne other held⟩

theorem acquire_frame {ω : Type*} [DecidableEq ω] {s : StoreState ω} {writer : ω}
    {locks : List Lock} (free : locks.any (fun lock => (s.holder lock).isSome) = false)
    (phase : AppendPhase) : Frame writer s ((s.acquire writer locks).setPhase writer phase) := by
  refine ⟨rfl, fun _ other => Function.update_of_ne other _ _, fun v lock _ held => ?_⟩
  have not_own : lock ∉ locks := by
    intro own
    have taken := List.any_eq_false.mp free lock own
    rw [held] at taken
    exact taken rfl
  simp only [StoreState.acquire, StoreState.setPhase, if_neg not_own, held]

theorem PartStands.mono {part : Part} {rows more : List ChainedRow}
    (stands : PartStands org_id attempt_id part rows) :
    PartStands org_id attempt_id part (rows ++ more) := by
  obtain ⟨row, member, is_part⟩ := stands
  exact ⟨row, List.mem_append_left _ member, is_part⟩

theorem NamesPart.stands {store : StoreState (ι × Part)} {part : Part} {filed : FiledRow}
    (names : NamesPart org_id attempt_id store part filed) :
    PartStands org_id attempt_id part store.rows := by
  obtain ⟨row, member, is_part, -⟩ := names
  exact ⟨row, member, is_part⟩

/-- An invocation relies on nothing that a step of another takes away. -/
theorem StageSound.of_frame {s t : StoreState (ι × Part)} {i j : ι} {part : Part} {stage : Stage}
    (frame : Frame (i, part) s t) (other : j ≠ i)
    (sound : StageSound sha256Hex pairs org_id attempt_id s j stage) :
    StageSound sha256Hex pairs org_id attempt_id t j stage := by
  have phases : ∀ p, t.phase (j, p) = s.phase (j, p) :=
    fun p => frame.phases (j, p) fun same => other (congrArg Prod.fst same)
  have appends : ∀ p phase, AppendSound sha256Hex pairs org_id attempt_id s j p phase →
      AppendSound sha256Hex pairs org_id attempt_id t j p phase := by
    intro p phase before
    cases phase with
    | reading n => rwa [AppendSound, frame.rows]
    | built n row => rwa [AppendSound, frame.rows]
    | inserted row =>
      refine ⟨frame.holds _ _ (fun same => other (congrArg Prod.fst same)) before.1, ?_⟩
      rw [frame.rows]
      exact before.2
    | succeeded => exact before
    | failed => exact before
  have quiet : ∀ p, Quiet s (j, p) → Quiet t (j, p) := by
    intro p before row
    rw [phases]
    exact before row
  have untouched : Untouched s j → Untouched t j := by
    intro before p
    rw [phases]
    exact before p
  have names : ∀ p filed, NamesPart org_id attempt_id s p filed →
      NamesPart org_id attempt_id t p filed := by
    intro p filed before
    rwa [NamesPart, frame.rows]
  cases stage with
  | idle => exact untouched sound
  | prereading => exact ⟨sound.1, untouched sound.2⟩
  | opening =>
    obtain ⟨valid, later, now⟩ := sound
    refine ⟨valid, by rw [phases, later], ?_⟩
    rw [phases]
    exact appends _ _ now
  | closing start resumed =>
    obtain ⟨valid, earlier, now, named⟩ := sound
    refine ⟨valid, quiet _ earlier, ?_, names _ _ named⟩
    rw [phases]
    exact appends _ _ now
  | rereading error =>
    obtain ⟨valid, still, lost⟩ := sound
    exact ⟨valid, fun p => quiet p (still p), by rwa [frame.rows]⟩
  | returned pair =>
    obtain ⟨valid, still, named, start, terminal⟩ := sound
    exact ⟨valid, fun p => quiet p (still p), named, names _ _ start, names _ _ terminal⟩
  | failed error => exact fun p => quiet p (sound p)
  | crashed => exact fun p => quiet p (sound p)

/-- Nor on anything a commit of another takes away, if its own transaction has nothing in. -/
theorem StageSound.of_commit {s t : StoreState (ι × Part)} {i j : ι} {part : Part} {stage : Stage}
    {row : ChainedRow} (rows : t.rows = s.rows ++ [row])
    (phases : ∀ v, v ≠ (i, part) → t.phase v = s.phase v)
    (standing : AttemptRows org_id attempt_id t.rows) (other : j ≠ i)
    (quiet : ∀ p, Quiet s (j, p)) (sound : StageSound sha256Hex pairs org_id attempt_id s j stage) :
    StageSound sha256Hex pairs org_id attempt_id t j stage := by
  have same : ∀ p, t.phase (j, p) = s.phase (j, p) :=
    fun p => phases (j, p) fun same => other (congrArg Prod.fst same)
  have start_stands : PartStands org_id attempt_id .start t.rows :=
    standing.start_stands (by rw [rows]; simp)
  have appends : ∀ p, PartStands org_id attempt_id p t.rows → ∀ phase,
      (∀ row, phase ≠ .inserted row) → AppendSound sha256Hex pairs org_id attempt_id s j p phase →
      AppendSound sha256Hex pairs org_id attempt_id t j p phase := by
    intro p stands phase nothing before
    cases phase with
    | reading n => exact fun _ => stands
    | built n row => exact ⟨fun _ => stands, .inl stands⟩
    | inserted row => exact absurd rfl (nothing row)
    | succeeded => exact before
    | failed => exact before
  have still : ∀ p, Quiet t (j, p) := by
    intro p row
    rw [same]
    exact quiet p row
  have untouched : Untouched s j → Untouched t j := by
    intro before p
    rw [same]
    exact before p
  have names : ∀ p filed, NamesPart org_id attempt_id s p filed →
      NamesPart org_id attempt_id t p filed := by
    rintro p filed ⟨r, member, is_part, named⟩
    exact ⟨r, by rw [rows]; exact List.mem_append_left _ member, is_part, named⟩
  cases stage with
  | idle => exact untouched sound
  | prereading => exact ⟨sound.1, untouched sound.2⟩
  | opening =>
    obtain ⟨valid, later, now⟩ := sound
    refine ⟨valid, by rw [same, later], ?_⟩
    rw [same]
    exact appends _ start_stands _ (quiet _) now
  | closing start resumed =>
    obtain ⟨valid, -, now, named⟩ := sound
    -- behind a start that stood, the row that came is the terminal
    have terminal_stands : PartStands org_id attempt_id .terminal t.rows := by
      obtain ⟨r, member, -, -⟩ := named
      refine standing.terminal_stands ?_
      have some_row := List.length_pos_of_mem member
      rw [rows, List.length_append, List.length_singleton]
      omega
    refine ⟨valid, still _, ?_, names _ _ named⟩
    rw [same]
    exact appends _ terminal_stands _ (quiet _) now
  | rereading error =>
    obtain ⟨valid, -, lost⟩ := sound
    refine ⟨valid, still, fun failed => ?_⟩
    rw [rows]
    exact (lost failed).mono
  | returned pair =>
    obtain ⟨valid, -, named, start, terminal⟩ := sound
    exact ⟨valid, still, named, names _ _ start, names _ _ terminal⟩
  | failed error => exact still
  | crashed => exact still

/-! #### Where a step leaves the invocation -/

theorem afterAppend_open {pair : PromotionPair} {error : FilingError}
    {before after : AppendPhase} {stage : Stage} (not_done : after ≠ .succeeded)
    (not_failed : after ≠ .failed) : afterAppend pair error before after stage = stage := by
  cases stage <;> cases before <;> cases after <;>
    first | rfl | exact absurd rfl not_done | exact absurd rfl not_failed

theorem afterAppend_opening_failed (pair : PromotionPair) (error : FilingError)
    (before : AppendPhase) : afterAppend pair error before .failed .opening = .failed error := by
  cases before <;> rfl

theorem afterAppend_closing_failed (pair : PromotionPair) (error : FilingError)
    (before : AppendPhase) (start : FiledRow) (resumed : Bool) :
    afterAppend pair error before .failed (.closing start resumed) = .rereading error := by
  cases before <;> rfl

theorem StageSound.appending {store : StoreState (ι × Part)} {i : ι} {part : Part} {stage : Stage}
    (sound : StageSound sha256Hex pairs org_id attempt_id store i stage)
    (at_part : stage.part = some part) :
    Valid pairs attempt_id i ∧
      AppendSound sha256Hex pairs org_id attempt_id store i part (store.phase (i, part)) := by
  cases stage with
  | opening =>
    cases at_part
    exact ⟨sound.1, sound.2.2⟩
  | closing start resumed =>
    cases at_part
    exact ⟨sound.1, sound.2.2.1⟩
  | _ => cases at_part

/-- A step that commits nothing leaves the invocation at its append, or the append failed. -/
theorem StageSound.afterAppend {s t : StoreState (ι × Part)} {i : ι} {part : Part} {stage : Stage}
    {error : FilingError} {before : AppendPhase}
    (sound : StageSound sha256Hex pairs org_id attempt_id s i stage)
    (at_part : stage.part = some part) (frame : Frame (i, part) s t)
    (not_done : t.phase (i, part) ≠ .succeeded)
    (own : t.phase (i, part) ≠ .failed →
      AppendSound sha256Hex pairs org_id attempt_id t i part (t.phase (i, part)))
    (lost : error = .E_LEDGER_WRITE_FAILED → PartStands org_id attempt_id part t.rows) :
    StageSound sha256Hex pairs org_id attempt_id t i
      (Ledger.afterAppend (pairs i) error before (t.phase (i, part)) stage) := by
  cases stage with
  | opening =>
    cases at_part
    obtain ⟨valid, later, -⟩ := sound
    have kept : t.phase (i, .terminal) = .reading 0 := by
      rw [frame.phases _ (by simp), later]
    by_cases failed : t.phase (i, .start) = .failed
    · rw [failed, afterAppend_opening_failed]
      rintro (_ | _) row
      · simp [failed]
      · simp [kept]
    · rw [afterAppend_open not_done failed]
      exact ⟨valid, kept, own failed⟩
  | closing start resumed =>
    cases at_part
    obtain ⟨valid, earlier, -, named⟩ := sound
    have kept : Quiet t (i, .start) := by
      intro row
      rw [frame.phases _ (by simp)]
      exact earlier row
    by_cases failed : t.phase (i, .terminal) = .failed
    · rw [failed, afterAppend_closing_failed]
      refine ⟨valid, ?_, lost⟩
      rintro (_ | _) row
      · exact kept row
      · simp [failed]
    · rw [afterAppend_open not_done failed]
      refine ⟨valid, kept, own failed, ?_⟩
      rwa [NamesPart, frame.rows]
  | _ => cases at_part

variable [DecidableEq ι]

/-! #### One step -/

theorem FilingInvariant.initial :
    FilingInvariant sha256Hex lockKey pairs org_id attempt_id
      (FilingState.initial : FilingState ι) where
  store := StoreInvariant.initial
  rows := .none
  sound _ _ := rfl
  untouched _ _ _ _ := rfl

theorem FilingInvariant.setStage {s : FilingState ι} {i : ι} {stage : Stage}
    (inv : FilingInvariant sha256Hex lockKey pairs org_id attempt_id s)
    (own : StageSound sha256Hex pairs org_id attempt_id s.store i stage) :
    FilingInvariant sha256Hex lockKey pairs org_id attempt_id (s.setStage i stage) := by
  refine ⟨inv.store, inv.rows, fun j => ?_, inv.untouched⟩
  by_cases same : j = i
  · subst same
    simpa only [FilingState.setStage, Function.update_self] using own
  · simpa only [FilingState.setStage, Function.update_of_ne same] using inv.sound j

/-- A step of a checked invocation that commits nothing keeps the invariant, if what it relies on
itself is kept. -/
theorem FilingInvariant.of_frame {s : FilingState ι} {i : ι} {part : Part}
    {store : StoreState (ι × Part)} {stage : Stage}
    (inv : FilingInvariant sha256Hex lockKey pairs org_id attempt_id s)
    (valid : Valid pairs attempt_id i) (frame : Frame (i, part) s.store store)
    (kept : StoreInvariant sha256Hex lockKey (filingJobs sha256Hex pairs) store)
    (own : StageSound sha256Hex pairs org_id attempt_id store i stage) :
    FilingInvariant sha256Hex lockKey pairs org_id attempt_id
      ⟨store, Function.update s.stage i stage⟩ := by
  refine ⟨kept, ?_, fun j => ?_, fun j refusal refused p => ?_⟩
  · have rows := inv.rows
    rwa [← frame.rows] at rows
  · by_cases same : j = i
    · subst same
      simpa only [Function.update_self] using own
    · simpa only [Function.update_of_ne same] using (inv.sound j).of_frame frame same
  · have other : (j, p) ≠ (i, part) := by
      rintro same
      cases same
      rw [Valid, refused] at valid
      cases valid
    have before := inv.untouched j refusal refused p
    rw [← before]
    exact frame.phases _ other

/-- Where an invocation has a row in the table that is not committed. -/
theorem FilingInvariant.inserted {s : FilingState ι} {i : ι} {part : Part} {row : ChainedRow}
    (inv : FilingInvariant sha256Hex lockKey pairs org_id attempt_id s)
    (phase : s.store.phase (i, part) = .inserted row) :
    (s.stage i).part = some part ∧
      s.store.holder (.unique (part.key attempt_id)) = some (i, part) ∧
      ¬PartStands org_id attempt_id part s.store.rows ∧
      (part = .terminal → PartStands org_id attempt_id .start s.store.rows) := by
  have sound := inv.sound i
  cases stage : s.stage i with
  | idle =>
    rw [stage] at sound
    rw [sound part] at phase
    cases phase
  | prereading =>
    rw [stage] at sound
    rw [sound.2 part] at phase
    cases phase
  | opening =>
    rw [stage] at sound
    obtain ⟨-, later, now⟩ := sound
    cases part with
    | start =>
      rw [phase] at now
      exact ⟨rfl, now.1, now.2, nofun⟩
    | terminal =>
      rw [later] at phase
      cases phase
  | closing start resumed =>
    rw [stage] at sound
    obtain ⟨-, earlier, now, named⟩ := sound
    cases part with
    | start => exact absurd phase (earlier row)
    | terminal =>
      rw [phase] at now
      exact ⟨rfl, now.1, now.2, fun _ => named.stands⟩
  | rereading error =>
    rw [stage] at sound
    exact absurd phase (sound.2.1 part row)
  | returned pair =>
    rw [stage] at sound
    exact absurd phase (sound.2.1 part row)
  | failed error =>
    rw [stage] at sound
    exact absurd phase (sound part row)
  | crashed =>
    rw [stage] at sound
    exact absurd phase (sound part row)

/-- One row at a time is in the table and not committed. -/
theorem FilingInvariant.inserted_alone {s : FilingState ι} {i j : ι} {part other : Part}
    {row row' : ChainedRow} (inv : FilingInvariant sha256Hex lockKey pairs org_id attempt_id s)
    (phase : s.store.phase (i, part) = .inserted row)
    (phase' : s.store.phase (j, other) = .inserted row') : j = i := by
  obtain ⟨-, holds, none_stands, start_stands⟩ := inv.inserted phase
  obtain ⟨-, holds', none_stands', start_stands'⟩ := inv.inserted phase'
  cases part <;> cases other
  · rw [holds] at holds'
    exact congrArg Prod.fst (Option.some.inj holds').symm
  · exact absurd (start_stands' rfl) none_stands
  · exact absurd (start_stands rfl) none_stands'
  · rw [holds] at holds'
    exact congrArg Prod.fst (Option.some.inj holds').symm

/-! #### The steps of an append -/

theorem FilingInvariant.few {s : FilingState ι} {i : ι} {part : Part}
    (inv : FilingInvariant sha256Hex lockKey pairs org_id attempt_id s)
    (same_org : (pairs i).org_id = org_id)
    (start_stands : part = .terminal → PartStands org_id attempt_id .start s.store.rows)
    (none_stands : ¬PartStands org_id attempt_id part s.store.rows) :
    s.store.rows = [] ∨ ∃ start, s.store.rows = [start] ∧ start.org_id = (pairs i).org_id := by
  cases part with
  | start => exact .inl (inv.rows.eq_nil none_stands)
  | terminal =>
    obtain ⟨start, rows, is_start⟩ := inv.rows.eq_half (start_stands rfl) none_stands
    exact .inr ⟨start, rows, is_start.org.trans same_org.symm⟩

theorem AttemptRows.partStands_of_key {rows : List ChainedRow} {row : ChainedRow} {part : Part}
    (standing : AttemptRows org_id attempt_id rows) (member : row ∈ rows)
    (key : uniqueKey row.toLedgerRowContent = some (part.key attempt_id)) :
    PartStands org_id attempt_id part rows := by
  have is_part : ∀ {other : Part}, PartRow org_id attempt_id other row →
      PartRow org_id attempt_id part row := by
    intro other is_other
    have same := is_other.uniqueKey.symm.trans key
    cases other <;> cases part <;> first | exact is_other | simp [Part.key] at same
  refine ⟨row, member, ?_⟩
  cases standing with
  | none => cases member
  | half start =>
    rw [List.mem_singleton] at member
    subst member
    exact is_part start
  | whole start terminal =>
    rcases List.mem_pair.mp member with rfl | rfl
    · exact is_part start
    · exact is_part terminal

variable {s : FilingState ι} {i : ι} {part : Part}

theorem FilingInvariant.read {now : String} {attempt : Nat}
    (inv : FilingInvariant sha256Hex lockKey pairs org_id attempt_id s)
    (at_part : (s.stage i).part = some part) (phase : s.store.phase (i, part) = .reading attempt)
    {store : StoreState (ι × Part)}
    (taken : store = readHead sha256Hex (filingJobs sha256Hex pairs) s.store (i, part) now attempt) :
    FilingInvariant sha256Hex lockKey pairs org_id attempt_id
      ⟨store, Function.update s.stage i (afterAppend (pairs i) .broken (s.store.phase (i, part))
        (store.phase (i, part)) (s.stage i))⟩ := by
  obtain ⟨valid, own⟩ := (inv.sound i).appending at_part
  have kept : StoreInvariant sha256Hex lockKey (filingJobs sha256Hex pairs)
      (readHead sha256Hex (filingJobs sha256Hex pairs) s.store (i, part) now attempt) :=
    readHead_sound inv.store phase
  rw [← taken] at kept
  rw [phase] at own
  simp only [readHead, filingJobs, job_org, job_run] at taken
  split at taken
  · next unlinked =>
    have frame : Frame (i, part) s.store store := taken ▸ setPhase_frame _ _ _
    have failed : store.phase (i, part) = .failed := by
      rw [taken]
      exact Function.update_self _ _ _
    refine inv.of_frame valid frame kept ((inv.sound i).afterAppend at_part frame ?_ ?_ (by simp))
    · simp [failed]
    · exact fun open_ => absurd failed open_
  · next row linked =>
    have frame : Frame (i, part) s.store store := taken ▸ setPhase_frame _ _ _
    have built : store.phase (i, part) = .built attempt row := by
      rw [taken]
      exact Function.update_self _ _ _
    refine inv.of_frame valid frame kept ((inv.sound i).afterAppend at_part frame ?_ ?_ (by simp))
    · simp [built]
    · intro _
      rw [built, AppendSound, frame.rows]
      exact ⟨own, .inr ⟨now, linked⟩⟩

theorem FilingInvariant.abort
    (inv : FilingInvariant sha256Hex lockKey pairs org_id attempt_id s)
    (at_part : (s.stage i).part = some part) {store : StoreState (ι × Part)}
    (taken : store = (s.store.release (i, part)).setPhase (i, part) .failed) :
    FilingInvariant sha256Hex lockKey pairs org_id attempt_id
      ⟨store, Function.update s.stage i (afterAppend (pairs i) .broken (s.store.phase (i, part))
        (store.phase (i, part)) (s.stage i))⟩ := by
  obtain ⟨valid, own⟩ := (inv.sound i).appending at_part
  have kept : StoreInvariant sha256Hex lockKey (filingJobs sha256Hex pairs) store := by
    rw [taken]
    refine abort_sound inv.store ?_
    cases phase : s.store.phase (i, part) with
    | succeeded =>
      rw [phase] at own
      exact own.elim
    | _ => rfl
  have frame : Frame (i, part) s.store store := taken ▸ abort_frame _ _
  have failed : store.phase (i, part) = .failed := by
    rw [taken]
    exact Function.update_self _ _ _
  refine inv.of_frame valid frame kept ((inv.sound i).afterAppend at_part frame ?_ ?_ nofun)
  · simp [failed]
  · exact fun open_ => absurd failed open_

/-- What the table took has no row of its key in it. -/
theorem insertRow_no_duplicate {rows : List ChainedRow} {row : ChainedRow} {org : String}
    (inserted : insertRow org rows row = .ok ()) : rows.any (duplicates row) = false := by
  simp only [insertRow] at inserted
  split at inserted
  · cases inserted
  · split at inserted
    · cases inserted
    · split at inserted
      · cases inserted
      · split at inserted
        · cases inserted
        · next free => simpa using free

/-- A stale row and a fresh one lose to the row of their own key, and to nothing else. -/
theorem FilingInvariant.conflict_stands {attempt : Nat} {row : ChainedRow}
    (inv : FilingInvariant sha256Hex lockKey pairs org_id attempt_id s)
    (one : OneAttempt pairs org_id attempt_id) (at_part : (s.stage i).part = some part)
    (phase : s.store.phase (i, part) = .built attempt row)
    (conflict : insertRow (pairs i).org_id s.store.rows row = .error .chainConflict) :
    PartStands org_id attempt_id part s.store.rows := by
  obtain ⟨valid, own⟩ := (inv.sound i).appending at_part
  rw [phase] at own
  obtain ⟨-, stands | fresh⟩ := own
  · exact stands
  · by_contra none_stands
    have start_stands : part = .terminal → PartStands org_id attempt_id .start s.store.rows := by
      rintro rfl
      have sound := inv.sound i
      cases stage : s.stage i with
      | closing start resumed =>
        rw [stage] at sound
        exact sound.2.2.2.stands
      | _ =>
        rw [stage] at at_part
        cases at_part
    obtain ⟨standing, member, key⟩ := fresh_conflict valid inv.store.linear
      (inv.few (one i _ valid).1 start_stands none_stands) fresh conflict
    exact none_stands (inv.rows.partStands_of_key member key)

theorem FilingInvariant.insert {attempt : Nat} {row : ChainedRow}
    (inv : FilingInvariant sha256Hex lockKey pairs org_id attempt_id s)
    (one : OneAttempt pairs org_id attempt_id)
    (at_part : (s.stage i).part = some part)
    (phase : s.store.phase (i, part) = .built attempt row) {store : StoreState (ι × Part)}
    (taken : tryInsert lockKey (filingJobs sha256Hex pairs) s.store (i, part) attempt row =
      some store) :
    FilingInvariant sha256Hex lockKey pairs org_id attempt_id
      ⟨store, Function.update s.stage i (afterAppend (pairs i)
        (errorOf s.store.rows (pairs i).org_id (s.store.phase (i, part)) .insert)
        (s.store.phase (i, part)) (store.phase (i, part)) (s.stage i))⟩ := by
  obtain ⟨valid, -⟩ := (inv.sound i).appending at_part
  have kept := tryInsert_sound inv.store phase taken
  have built : BuiltFrom sha256Hex s.store.rows ((pairs i).job sha256Hex part) row := by
    have sound := inv.store.sound (i, part)
    rwa [phase] at sound
  have is_part := partRow_of_built valid built
  rw [(one i _ valid).1] at is_part
  simp only [tryInsert, filingJobs, job_org] at taken
  split at taken
  · cases taken
  · split at taken
    · next conflict =>
      cases taken
      have stands := inv.conflict_stands one at_part phase conflict
      have frame := setPhase_frame s.store (i, part) (retry attempt)
      have now : (s.store.setPhase (i, part) (retry attempt)).phase (i, part) = retry attempt :=
        Function.update_self _ _ _
      refine inv.of_frame valid frame kept ((inv.sound i).afterAppend at_part frame ?_ ?_ ?_)
      · rw [now, retry]
        split <;> simp
      · rw [now, retry]
        split
        · exact fun _ _ => stands
        · exact fun open_ => absurd rfl open_
      · exact fun _ => stands
    · next refused =>
      cases taken
      have frame := setPhase_frame s.store (i, part) .failed
      have now : (s.store.setPhase (i, part) .failed).phase (i, part) = .failed :=
        Function.update_self _ _ _
      refine inv.of_frame valid frame kept ((inv.sound i).afterAppend at_part frame ?_ ?_ ?_)
      · simp [now]
      · exact fun open_ => absurd now open_
      · simp [errorOf, phase, refused]
    · next inserted =>
      split at taken
      · cases taken
      · next free =>
        cases taken
        rw [Bool.not_eq_true] at free
        have frame : Frame (i, part) s.store _ := acquire_frame free (.inserted row)
        have now : ((s.store.acquire (i, part) (rowLocks lockKey row)).setPhase (i, part)
            (.inserted row)).phase (i, part) = .inserted row := Function.update_self _ _ _
        refine inv.of_frame valid frame kept ((inv.sound i).afterAppend at_part frame ?_ ?_ ?_)
        · simp [now]
        · intro _
          rw [now]
          refine ⟨?_, ?_⟩
          · simp [StoreState.setPhase, StoreState.acquire, rowLocks, is_part.uniqueKey]
          · rw [frame.rows]
            rintro ⟨standing, member, is_standing⟩
            have apart := List.any_eq_false.mp (insertRow_no_duplicate inserted) standing member
            simp [duplicates, is_part.uniqueKey, is_standing.uniqueKey] at apart
        · simp [errorOf, phase, inserted]

theorem FilingInvariant.commit {row : ChainedRow}
    (inv : FilingInvariant sha256Hex lockKey pairs org_id attempt_id s)
    (one : OneAttempt pairs org_id attempt_id)
    (at_part : (s.stage i).part = some part)
    (phase : s.store.phase (i, part) = .inserted row) {store : StoreState (ι × Part)}
    (taken : store = commitRow s.store (i, part) row) :
    FilingInvariant sha256Hex lockKey pairs org_id attempt_id
      ⟨store, Function.update s.stage i (afterAppend (pairs i) .broken (s.store.phase (i, part))
        (store.phase (i, part)) (s.stage i))⟩ := by
  obtain ⟨valid, -⟩ := (inv.sound i).appending at_part
  have kept := commitRow_sound inv.store phase
  rw [← taken] at kept
  have is_part : PartRow org_id attempt_id part row := by
    have sound := inv.store.sound (i, part)
    rw [phase] at sound
    have is_part := partRow_of_built valid sound.1
    rwa [(one i _ valid).1] at is_part
  obtain ⟨-, -, none_stands, start_stands⟩ := inv.inserted phase
  have rows : store.rows = s.store.rows ++ [row] := by
    simp [taken, commitRow, StoreState.setPhase, StoreState.release, StoreState.record,
      StoreState.rows]
  have phases : ∀ v, v ≠ (i, part) → store.phase v = s.store.phase v := by
    intro v other
    rw [taken]
    exact Function.update_of_ne other _ _
  have done : store.phase (i, part) = .succeeded := by
    rw [taken]
    exact Function.update_self _ _ _
  have standing : AttemptRows org_id attempt_id store.rows := by
    rw [rows]
    cases part with
    | start =>
      rw [inv.rows.eq_nil none_stands]
      exact .half is_part
    | terminal =>
      obtain ⟨start, only, is_start⟩ := inv.rows.eq_half (start_stands rfl) none_stands
      rw [only]
      exact .whole is_start is_part
  have named : NamesPart org_id attempt_id store part row.filed :=
    ⟨row, by rw [rows]; simp, is_part, rfl⟩
  refine ⟨kept, standing, fun j => ?_, fun j refusal refused p => ?_⟩
  · by_cases same : j = i
    · subst same
      have sound := inv.sound j
      simp only [Function.update_self, phase, done]
      cases stage : s.stage j with
      | opening =>
        rw [stage] at at_part sound
        cases at_part
        refine ⟨valid, ?_, ?_, named⟩
        · intro r
          simp [done]
        · rw [phases _ (by simp), sound.2.1]
          exact fun zero => absurd rfl zero
      | closing start resumed =>
        rw [stage] at at_part sound
        cases at_part
        refine ⟨valid, ?_, (checkPair_eq_ok valid).1, ?_, named⟩
        · rintro (_ | _) r
          · rw [phases _ (by simp)]
            exact sound.2.1 r
          · simp [done]
        · obtain ⟨r, member, is_start, same⟩ := sound.2.2.2
          exact ⟨r, by rw [rows]; exact List.mem_append_left _ member, is_start, same⟩
      | _ =>
        rw [stage] at at_part
        cases at_part
    · have quiet : ∀ p, Quiet s.store (j, p) := fun p r inserted =>
        same (inv.inserted_alone phase inserted)
      simpa only [Function.update_of_ne same] using
        (inv.sound j).of_commit rows phases standing same quiet
  · have other : (j, p) ≠ (i, part) := by
      rintro same
      cases same
      rw [Valid, refused] at valid
      cases valid
    rw [phases _ other]
    exact inv.untouched j refusal refused p

/-- Where an answer of the reader leaves the invocation. -/
theorem FilingInvariant.find {stage : Stage}
    (inv : FilingInvariant sha256Hex lockKey pairs org_id attempt_id s)
    (one : OneAttempt pairs org_id attempt_id)
    (found : afterFind (pairs i)
      (findAttempt s.store.rows (pairs i).org_id (attemptOf (pairs i))) (s.stage i) = some stage) :
    StageSound sha256Hex pairs org_id attempt_id s.store i stage := by
  have sound := inv.sound i
  have answer : ∀ valid : Valid pairs attempt_id i,
      findAttempt s.store.rows (pairs i).org_id (attemptOf (pairs i)) =
        ⟨s.store.rows[0]?.map ChainedRow.filed, s.store.rows[1]?.map ChainedRow.filed⟩ := by
    intro valid
    rw [(checkPair_eq_ok valid).1, (one i _ valid).1]
    exact findAttempt_eq inv.rows
  have rows := inv.rows
  cases at_stage : s.stage i with
  | prereading =>
    rw [at_stage] at found sound
    obtain ⟨valid, untouched⟩ := sound
    rw [answer valid] at found
    have quiet : ∀ p, Quiet s.store (i, p) := by
      intro p row
      rw [untouched p]
      simp
    have unraced : ∀ p, AppendSound sha256Hex pairs org_id attempt_id s.store i p
        (s.store.phase (i, p)) := by
      intro p
      rw [untouched p]
      exact fun zero => absurd rfl zero
    cases hr : s.store.rows with
    | nil =>
      rw [hr] at found
      cases found
      exact ⟨valid, untouched _, unraced _⟩
    | cons start more =>
      have is_start : PartRow org_id attempt_id .start start := by
        rw [hr] at rows
        cases rows <;> assumption
      have names : NamesPart org_id attempt_id s.store .start start.filed :=
        ⟨start, by rw [hr]; simp, is_start, rfl⟩
      cases more with
      | nil =>
        rw [hr] at found
        cases found
        exact ⟨valid, quiet _, unraced _, names⟩
      | cons terminal more =>
        have is_terminal : PartRow org_id attempt_id .terminal terminal := by
          rw [hr] at rows
          cases rows
          assumption
        rw [hr] at found
        cases found
        exact ⟨valid, quiet, (checkPair_eq_ok valid).1, names, terminal, by rw [hr]; simp,
          is_terminal, rfl⟩
  | rereading error =>
    rw [at_stage] at found sound
    obtain ⟨valid, quiet, lost⟩ := sound
    rw [answer valid] at found
    cases hr : s.store.rows with
    | nil =>
      rw [hr] at found
      cases found
      exact quiet
    | cons start more =>
      have is_start : PartRow org_id attempt_id .start start := by
        rw [hr] at rows
        cases rows <;> assumption
      cases more with
      | nil =>
        rw [hr] at found
        cases found
        exact quiet
      | cons terminal more =>
        have is_terminal : PartRow org_id attempt_id .terminal terminal := by
          rw [hr] at rows
          cases rows
          assumption
        rw [hr] at found
        cases found
        exact ⟨valid, quiet, (checkPair_eq_ok valid).1, ⟨start, by rw [hr]; simp, is_start, rfl⟩,
          terminal, by rw [hr]; simp, is_terminal, rfl⟩
  | _ =>
    rw [at_stage] at found
    cases found

theorem FilingInvariant.crash
    (inv : FilingInvariant sha256Hex lockKey pairs org_id attempt_id s)
    (awake : (s.stage i).rests = false) :
    FilingInvariant sha256Hex lockKey pairs org_id attempt_id
      ⟨rollBack s.store i (s.stage i).part, Function.update s.stage i .crashed⟩ := by
  cases at_part : (s.stage i).part with
  | none =>
    have still : StageSound sha256Hex pairs org_id attempt_id s.store i .crashed := by
      have sound := inv.sound i
      cases stage : s.stage i with
      | prereading =>
        rw [stage] at sound
        intro p row
        rw [sound.2 p]
        simp
      | rereading error =>
        rw [stage] at sound
        exact sound.2.1
      | _ => simp [stage, Stage.rests, Stage.part] at awake at_part
    exact inv.setStage still
  | some part =>
    -- a crash inside an append is an append that failed, and nobody left to be told
    have aborted := inv.abort at_part
      (rfl : rollBack s.store i (some part) = (s.store.release (i, part)).setPhase (i, part) .failed)
    obtain ⟨valid, -⟩ := (inv.sound i).appending at_part
    have quiet : ∀ p, Quiet (rollBack s.store i (some part)) (i, p) := by
      have sound := aborted.sound i
      have failed : (rollBack s.store i (some part)).phase (i, part) = .failed :=
        Function.update_self _ _ _
      simp only [Function.update_self, failed] at sound
      cases stage : s.stage i with
      | opening =>
        rw [stage, afterAppend_opening_failed] at sound
        exact sound
      | closing start resumed =>
        rw [stage, afterAppend_closing_failed] at sound
        exact sound.2.1
      | _ => simp [stage, Stage.part] at at_part
    exact inv.of_frame valid (abort_frame _ _) aborted.store quiet

theorem filingStep_sound {t : FilingState ι} {act : FilingAction ι}
    (inv : FilingInvariant sha256Hex lockKey pairs org_id attempt_id s)
    (one : OneAttempt pairs org_id attempt_id)
    (taken : filingStep sha256Hex lockKey pairs s act = some t) :
    FilingInvariant sha256Hex lockKey pairs org_id attempt_id t := by
  cases act with
  | call i =>
    simp only [filingStep] at taken
    have sound := inv.sound i
    split at taken
    · next a idle passed =>
      cases taken
      rw [idle] at sound
      obtain ⟨-, rfl⟩ := one i a passed
      exact inv.setStage ⟨passed, sound⟩
    · next refusal idle refused =>
      cases taken
      rw [idle] at sound
      refine inv.setStage fun p row => ?_
      rw [sound p]
      simp
    · cases taken
  | findAttempt i =>
    simp only [filingStep, Option.map_eq_some_iff] at taken
    obtain ⟨stage, found, rfl⟩ := taken
    exact inv.setStage (inv.find one found)
  | unanswered i =>
    simp only [filingStep] at taken
    have sound := inv.sound i
    split at taken
    · next stage =>
      cases taken
      rw [stage] at sound
      refine inv.setStage fun p row => ?_
      rw [sound.2 p]
      simp
    · next error stage =>
      cases taken
      rw [stage] at sound
      exact inv.setStage sound.2.1
    · cases taken
  | append i act =>
    simp only [filingStep] at taken
    split at taken
    · cases taken
    · next part at_part =>
      simp only [Option.map_eq_some_iff] at taken
      obtain ⟨store, stepped, rfl⟩ := taken
      cases act with
      | read now =>
        simp only [appendStep, AppendAct.for] at stepped
        split at stepped
        · next attempt phase =>
          exact inv.read at_part phase (Option.some.inj stepped).symm
        · cases stepped
      | insert =>
        simp only [appendStep, AppendAct.for] at stepped
        split at stepped
        · next attempt row phase => exact inv.insert one at_part phase stepped
        · cases stepped
      | commit =>
        simp only [appendStep, AppendAct.for] at stepped
        split at stepped
        · next row phase => exact inv.commit one at_part phase (Option.some.inj stepped).symm
        · cases stepped
      | abort =>
        simp only [appendStep, AppendAct.for] at stepped
        split at stepped
        · cases stepped
        · cases stepped
        · exact inv.abort at_part (Option.some.inj stepped).symm
  | crash i =>
    simp only [filingStep] at taken
    split at taken
    · cases taken
    · next awake =>
      cases taken
      exact inv.crash (by simpa using awake)

end Filing

end LedgerDesk.Ledger
