import LedgerDesk.Ledger.PromotionPair

/-!
# Races for a promotion attempt

A failed terminal is answered by what stands; a start that is lost to another writer is thrown as
it is. The two rows are in one run where every invocation names the run the start was opened in.
-/
namespace LedgerDesk.Ledger

open Foundation LedgerDesk.Agents

section Filing

variable {sha256Hex : String → String} {lockKey : String → Int}
variable {ι : Type*} [DecidableEq ι] {pairs : ι → PromotionPair} {org_id attempt_id : String}
variable {s : FilingState ι} {i : ι} {part : Part}

/-! ### Lost races -/

variable (pairs org_id attempt_id)

/-- No start of the attempt stands when an invocation inserts its own. -/
def StartFree (tr : Transition (FilingState ι) (FilingAction ι)) : Prop :=
  ∀ i, tr.act = .append i .insert → tr.source.stage i = .opening →
    ¬PartStands org_id attempt_id .start tr.source.store.rows

/-- A start that is found without its terminal was opened in the run the finder names. -/
def KeepsRun (tr : Transition (FilingState ι) (FilingAction ι)) : Prop :=
  ∀ i start, tr.act = .findAttempt i → tr.source.stage i = .prereading →
    findAttempt tr.source.store.rows org_id attempt_id = ⟨some start, none⟩ →
    start.run_id = (pairs i).run_id

variable {pairs org_id attempt_id}

def NoneLost (s : FilingState ι) : Prop := ∀ i, ∀ error, s.stage i = .failed error →
  error ≠ .E_LEDGER_WRITE_FAILED

theorem noneLost_update {stage : Stage} {store : StoreState (ι × Part)} (none_lost : NoneLost s)
    (own : ∀ error, stage = .failed error → error ≠ .E_LEDGER_WRITE_FAILED) :
    NoneLost ⟨store, Function.update s.stage i stage⟩ := by
  intro j error failed
  by_cases same : j = i
  · subst same
    exact own error (by simpa using failed)
  · exact none_lost j error (by simpa [Function.update_of_ne same] using failed)

theorem errorOf_lost {rows : List ChainedRow} {org : String} {phase : AppendPhase} {act : AppendAct}
    (lost : errorOf rows org phase act = .E_LEDGER_WRITE_FAILED) :
    act = .insert ∧ ∃ attempt row, phase = .built attempt row ∧
      insertRow org rows row = .error .chainConflict := by
  unfold errorOf at lost
  split at lost
  · next attempt row =>
    split at lost
    · next conflict => exact ⟨rfl, attempt, row, rfl, conflict⟩
    · cases lost
  · cases lost

theorem afterAppend_eq_failed {pair : PromotionPair} {error error' : FilingError}
    {before after : AppendPhase} {stage : Stage} (at_part : stage.part.isSome)
    (failed : afterAppend pair error before after stage = .failed error') :
    stage = .opening ∧ error' = error := by
  cases stage <;> cases at_part <;> cases before <;> cases after <;> cases failed <;>
    exact ⟨rfl, rfl⟩

/-- Where the start an invocation inserts is the first, no invocation fails for a lost race. -/
theorem noneLost_step {t : FilingState ι} {act : FilingAction ι}
    (inv : FilingInvariant sha256Hex lockKey pairs org_id attempt_id s)
    (one : OneAttempt pairs org_id attempt_id)
    (taken : filingStep sha256Hex lockKey pairs s act = some t)
    (free : StartFree org_id attempt_id ⟨s, act, t⟩) (none_lost : NoneLost s) : NoneLost t := by
  cases act with
  | call i =>
    simp only [filingStep] at taken
    split at taken
    · cases taken
      exact noneLost_update none_lost (by simp)
    · cases taken
      refine noneLost_update none_lost fun error failed => ?_
      cases failed
      simp
    · cases taken
  | findAttempt i =>
    simp only [filingStep, Option.map_eq_some_iff] at taken
    obtain ⟨stage, found, rfl⟩ := taken
    refine noneLost_update none_lost fun error failed lost => ?_
    subst failed lost
    have sound := inv.sound i
    cases at_stage : s.stage i with
    | prereading =>
      rw [at_stage] at found
      simp only [afterFind] at found
      split at found <;> cases found
    | rereading error =>
      rw [at_stage] at found sound
      obtain ⟨valid, -, terminal_stands⟩ := sound
      rw [(checkPair_eq_ok valid).1, (one i _ valid).1, findAttempt_eq inv.rows] at found
      simp only [afterFind] at found
      split at found
      · cases found
      · next missing =>
        cases found
        -- the terminal that won the race is in the table, and a start before it
        obtain ⟨start, terminal, rows, -⟩ := inv.rows.eq_whole (terminal_stands rfl)
        exact missing start.filed terminal.filed (by rw [rows]; rfl) (by rw [rows]; rfl)
    | _ =>
      rw [at_stage] at found
      cases found
  | unanswered i =>
    simp only [filingStep] at taken
    split at taken
    · cases taken
      refine noneLost_update none_lost fun error failed => ?_
      cases failed
      simp
    · cases taken
      refine noneLost_update none_lost fun error failed => ?_
      cases failed
      simp
    · cases taken
  | append i act =>
    simp only [filingStep] at taken
    split at taken
    · cases taken
    · next part at_part =>
      simp only [Option.map_eq_some_iff] at taken
      obtain ⟨store, -, rfl⟩ := taken
      refine noneLost_update none_lost fun error failed lost => ?_
      obtain ⟨opening, rfl⟩ := afterAppend_eq_failed (by rw [at_part]; rfl) failed
      obtain ⟨rfl, attempt, row, phase, conflict⟩ := errorOf_lost lost
      rw [opening] at at_part
      cases at_part
      exact free i rfl opening
        (inv.conflict_stands one (by rw [opening]; rfl) phase conflict)
  | crash i =>
    simp only [filingStep] at taken
    split at taken
    · cases taken
    · cases taken
      exact noneLost_update none_lost (by simp)

/-! ### One run for both rows -/

variable (pairs) in
/-- The start an invocation closes is in the run it names, and so are the two rows that stand. -/
structure RunKept (s : FilingState ι) : Prop where
  closing : ∀ i start resumed, s.stage i = .closing start resumed →
    start.run_id = (pairs i).run_id
  rows : ∀ start terminal, s.store.rows = [start, terminal] → start.run_id = terminal.run_id

omit [DecidableEq ι] in
theorem RunKept.initial : RunKept pairs (FilingState.initial : FilingState ι) where
  closing i start resumed closing := by simp [FilingState.initial] at closing
  rows start terminal rows := by
    simp [FilingState.initial, StoreState.initial, StoreState.rows] at rows

theorem runKept_setStage {stage : Stage} (kept : RunKept pairs s)
    (own : ∀ start resumed, stage = .closing start resumed → start.run_id = (pairs i).run_id) :
    RunKept pairs (s.setStage i stage) := by
  refine ⟨fun j start resumed closing => ?_, kept.rows⟩
  by_cases same : j = i
  · subst same
    exact own start resumed (by simpa [FilingState.setStage] using closing)
  · refine kept.closing j start resumed ?_
    simpa [FilingState.setStage, Function.update_of_ne same] using closing

theorem afterAppend_eq_closing {pair : PromotionPair} {error : FilingError}
    {before after : AppendPhase} {stage : Stage} {start : FiledRow} {resumed : Bool}
    (closing : afterAppend pair error before after stage = .closing start resumed) :
    stage = .closing start resumed ∨
      stage = .opening ∧ ∃ row, before = .inserted row ∧ start = row.filed := by
  cases stage <;> cases before <;> cases after <;> cases closing <;>
    first | exact .inl rfl | exact .inr ⟨rfl, _, rfl, rfl⟩

/-- Rows come by a commit, one at a time. -/
theorem appendStep_rows {ω : Type*} [DecidableEq ω] {jobs : ω → RowBuilder} {store : StoreState ω}
    {t : StoreState ω} {w : ω} {act : AppendAct}
    (stepped : appendStep sha256Hex lockKey jobs store (act.for w) = some t) :
    t.rows = store.rows ∨
      ∃ row, act = .commit ∧ store.phase w = .inserted row ∧ t.rows = store.rows ++ [row] := by
  cases act with
  | read now =>
    simp only [appendStep, AppendAct.for] at stepped
    split at stepped
    · cases stepped
      left
      simp only [readHead]
      split <;> rfl
    · cases stepped
  | insert =>
    simp only [appendStep, AppendAct.for] at stepped
    split at stepped
    · simp only [tryInsert] at stepped
      split at stepped
      · cases stepped
      · split at stepped
        · cases stepped
          exact .inl rfl
        · cases stepped
          exact .inl rfl
        · split at stepped
          · cases stepped
          · cases stepped
            exact .inl rfl
    · cases stepped
  | commit =>
    simp only [appendStep, AppendAct.for] at stepped
    split at stepped
    · next row phase =>
      cases stepped
      refine .inr ⟨row, rfl, phase, ?_⟩
      simp [commitRow, StoreState.setPhase, StoreState.release, StoreState.record, StoreState.rows]
    · cases stepped
  | abort =>
    simp only [appendStep, AppendAct.for] at stepped
    split at stepped
    · cases stepped
    · cases stepped
    · cases stepped
      exact .inl rfl

theorem runKept_step {t : FilingState ι} {act : FilingAction ι}
    (inv : FilingInvariant sha256Hex lockKey pairs org_id attempt_id s)
    (one : OneAttempt pairs org_id attempt_id)
    (taken : filingStep sha256Hex lockKey pairs s act = some t)
    (keeps : KeepsRun pairs org_id attempt_id ⟨s, act, t⟩) (kept : RunKept pairs s) :
    RunKept pairs t := by
  cases act with
  | call i =>
    simp only [filingStep] at taken
    split at taken
    · cases taken
      exact runKept_setStage kept (by simp)
    · cases taken
      exact runKept_setStage kept (by simp)
    · cases taken
  | findAttempt i =>
    simp only [filingStep, Option.map_eq_some_iff] at taken
    obtain ⟨stage, found, rfl⟩ := taken
    refine runKept_setStage kept fun start resumed closing => ?_
    subst closing
    have sound := inv.sound i
    cases at_stage : s.stage i with
    | prereading =>
      rw [at_stage] at found sound
      obtain ⟨valid, -⟩ := sound
      rw [(checkPair_eq_ok valid).1, (one i _ valid).1] at found
      cases answer : findAttempt s.store.rows org_id attempt_id with
      | mk first second =>
        rw [answer] at found
        cases first with
        | none => cases found
        | some first =>
          cases second with
          | none =>
            cases found
            exact keeps i start rfl at_stage answer
          | some second => cases found
    | rereading error =>
      rw [at_stage] at found
      simp only [afterFind] at found
      split at found <;> cases found
    | _ =>
      rw [at_stage] at found
      cases found
  | unanswered i =>
    simp only [filingStep] at taken
    split at taken
    · cases taken
      exact runKept_setStage kept (by simp)
    · cases taken
      exact runKept_setStage kept (by simp)
    · cases taken
  | append i act =>
    simp only [filingStep] at taken
    split at taken
    · cases taken
    · next part at_part =>
      simp only [Option.map_eq_some_iff] at taken
      obtain ⟨store, stepped, rfl⟩ := taken
      obtain ⟨valid, -⟩ := (inv.sound i).appending at_part
      have own_run : ∀ row, s.store.phase (i, part) = .inserted row →
          row.run_id = (pairs i).run_id := by
        intro row phase
        have sound := inv.store.sound (i, part)
        rw [phase] at sound
        exact sound.1.run.trans (job_run part)
      refine ⟨fun j start resumed closing => ?_, fun start terminal rows => ?_⟩
      · by_cases same : j = i
        · subst same
          simp only [Function.update_self] at closing
          rcases afterAppend_eq_closing closing with before | ⟨-, row, phase, rfl⟩
          · exact kept.closing j start resumed before
          · exact own_run row phase
        · exact kept.closing j start resumed (by simpa [Function.update_of_ne same] using closing)
      · rcases appendStep_rows stepped with same | ⟨row, rfl, phase, more⟩
        · exact kept.rows start terminal (same ▸ rows)
        · -- the row that was committed is the terminal, behind the start its writer closes
          rw [more] at rows
          have cut : s.store.rows ++ [row] = [start] ++ [terminal] := rows
          obtain ⟨only, last⟩ := List.append_inj' cut rfl
          cases last
          obtain ⟨-, -, none_stands, -⟩ := inv.inserted phase
          rw [own_run _ phase]
          cases stage : s.stage i with
          | opening =>
            rw [stage] at at_part
            cases at_part
            rw [inv.rows.eq_nil none_stands] at only
            cases only
          | closing filed resumed =>
            have sound := inv.sound i
            rw [stage] at sound
            obtain ⟨r, member, -, same⟩ := sound.2.2.2
            rw [only, List.mem_singleton] at member
            subst member
            have run := kept.closing i filed resumed stage
            rwa [← same] at run
          | _ =>
            rw [stage] at at_part
            cases at_part
  | crash i =>
    simp only [filingStep] at taken
    split at taken
    · cases taken
    · cases taken
      refine ⟨fun j start resumed closing => ?_, ?_⟩
      · by_cases same : j = i
        · subst same
          simp at closing
        · exact kept.closing j start resumed (by simpa [Function.update_of_ne same] using closing)
      · cases (s.stage i).part with
        | none => exact kept.rows
        | some part => exact kept.rows

/-- In one run the terminal is behind the start. -/
theorem seq_lt_of_whole {start terminal : ChainedRow}
    (linear : ∀ run_id, Linear sha256Hex [start, terminal] run_id)
    (same_run : start.run_id = terminal.run_id) : start.seq < terminal.seq := by
  have chain := linear terminal.run_id
  have both : runRows [start, terminal] terminal.run_id = [start, terminal] := by
    simp [runRows, same_run]
  rw [Linear, both] at chain
  have first := (chain [] start [terminal] rfl).seq
  have second := (chain [start] terminal [] rfl).seq
  simp only [List.length_nil, List.length_singleton] at first second
  omega

/-! ### An invocation alone -/

theorem linkRow_ne {content : LedgerRowContent} {head : Option LedgerHead} {row : ChainedRow}
    (linked : linkRow sha256Hex content head = some row) : row.row_hash ≠ row.prev_hash := by
  cases head with
  | none =>
    simp only [linkRow] at linked
    split at linked
    · cases linked
    · next apart =>
      cases linked
      exact apart
  | some h =>
    simp only [linkRow] at linked
    split at linked
    · cases linked
    · next apart =>
      cases linked
      exact apart

/-- The constraints of the table hold of a row of a checked pair, where the digest has its form. -/
theorem fresh_constraints {pair : PromotionPair} {rows : List ChainedRow} {row : ChainedRow}
    (hex : ∀ text, isHex64 (sha256Hex text) = true)
    (linear : ∀ run_id, Linear sha256Hex rows run_id)
    (few : rows = [] ∨ ∃ start, rows = [start] ∧ start.org_id = pair.org_id)
    (fresh : BuiltAtHead sha256Hex rows pair part row) : constraintsHold row = true := by
  obtain ⟨-, prev, -⟩ := fresh_row_told linear few fresh
  obtain ⟨now, linked⟩ := fresh
  have apart := linkRow_ne linked
  obtain ⟨content, -, hashed⟩ := linkRow_eq_some linked
  have prev_form : row.prev_hash = genesis ∨ isHex64 row.prev_hash = true := by
    rw [prev]
    cases head : headOf (runRows rows row.run_id) with
    | none => exact .inl rfl
    | some h =>
      have member : h ∈ runRows rows row.run_id := List.argmax_mem head
      obtain ⟨_, _, _, fits⟩ := (linear row.run_id).of_mem member
      have digest := fits.digest
      rw [verifyRowHash, Bool.and_eq_true] at digest
      exact .inr digest.1
  have shape : ledgerHashShape row = true := by
    have own : isHex64 row.row_hash = true := by
      rw [hashed]
      exact hex _
    simp [ledgerHashShape, own, apart, prev_form]
  rw [constraintsHold, shape, content, job_content]
  cases part <;> rfl

/-- A fresh row of a checked pair stands unless its key does. -/
theorem insertRow_fresh {pair : PromotionPair} {rows : List ChainedRow} {row : ChainedRow}
    (valid : checkPair pair = .ok attempt_id) (hex : ∀ text, isHex64 (sha256Hex text) = true)
    (linear : ∀ run_id, Linear sha256Hex rows run_id)
    (few : rows = [] ∨ ∃ start, rows = [start] ∧ start.org_id = pair.org_id)
    (fresh : BuiltAtHead sha256Hex rows pair part row) :
    insertRow pair.org_id rows row =
      if rows.any (duplicates row) then .error .chainConflict else .ok () := by
  have is_part := partRow_of_built valid fresh.built
  have link := ledgerLink_fresh linear few fresh
  have constraints := fresh_constraints hex linear few fresh
  have complete : rowIncomplete row.toLedgerRowContent = false := by
    obtain ⟨now, linked⟩ := fresh
    rw [(linkRow_eq_some linked).1]
    exact job_complete valid part now _
  rw [complete, if_neg Bool.false_ne_true] at link
  simp only [insertRow, link, is_part.org, ne_eq, not_true_eq_false, constraints, if_false,
    Bool.not_true, Bool.false_eq_true]

/-- The same invocations where they are, with one append at another phase. -/
def FilingState.atPhase (s : FilingState ι) (i : ι) (part : Part) (phase : AppendPhase) :
    FilingState ι :=
  ⟨s.store.setPhase (i, part) phase, s.stage⟩

theorem read_alone {attempt : Nat} {now : String} {row : ChainedRow}
    (at_part : (s.stage i).part = some part) (phase : s.store.phase (i, part) = .reading attempt)
    (linked : linkRow sha256Hex (((pairs i).job sha256Hex part).build now
        (visibleHead s.store.rows (pairs i).org_id (pairs i).run_id))
      (visibleHead s.store.rows (pairs i).org_id (pairs i).run_id) = some row) :
    filingStep sha256Hex lockKey pairs s (.append i (.read now)) =
      some (s.atPhase i part (.built attempt row)) := by
  have stepped : readHead sha256Hex (filingJobs sha256Hex pairs) s.store (i, part) now attempt =
      s.store.setPhase (i, part) (.built attempt row) := by
    simp only [readHead, filingJobs, job_org, job_run, linked]
  have built : (s.store.setPhase (i, part) (.built attempt row)).phase (i, part) =
      .built attempt row := Function.update_self _ _ _
  simp only [filingStep, at_part, appendStep, AppendAct.for, phase, stepped, Option.map_some, built]
  rw [afterAppend_open (by simp) (by simp), Function.update_eq_self]
  rfl

theorem insert_alone {attempt : Nat} {row : ChainedRow}
    (at_part : (s.stage i).part = some part)
    (phase : s.store.phase (i, part) = .built attempt row)
    (free : ∀ lock, s.store.holder lock = none)
    (inserted : insertRow (pairs i).org_id s.store.rows row = .ok ()) :
    filingStep sha256Hex lockKey pairs s (.append i .insert) =
      some ⟨(s.store.acquire (i, part) (rowLocks lockKey row)).setPhase (i, part) (.inserted row),
        s.stage⟩ := by
  have stepped : tryInsert lockKey (filingJobs sha256Hex pairs) s.store (i, part) attempt row =
      some ((s.store.acquire (i, part) (rowLocks lockKey row)).setPhase (i, part)
        (.inserted row)) := by
    simp [tryInsert, filingJobs, job_org, free, inserted]
  have now : ((s.store.acquire (i, part) (rowLocks lockKey row)).setPhase (i, part)
      (.inserted row)).phase (i, part) = .inserted row := Function.update_self _ _ _
  simp only [filingStep, at_part, appendStep, AppendAct.for, phase, stepped, Option.map_some, now]
  rw [afterAppend_open (by simp) (by simp), Function.update_eq_self]

theorem lose_alone {attempt : Nat} {row : ChainedRow}
    (opening : s.stage i = .opening) (phase : s.store.phase (i, .start) = .built attempt row)
    (free : ∀ lock, s.store.holder lock = none)
    (conflict : insertRow (pairs i).org_id s.store.rows row = .error .chainConflict) :
    filingStep sha256Hex lockKey pairs s (.append i .insert) =
      some (if attempt + 1 < appendAttempts then s.atPhase i .start (.reading (attempt + 1))
        else (s.atPhase i .start .failed).setStage i (.failed .E_LEDGER_WRITE_FAILED)) := by
  have stepped : tryInsert lockKey (filingJobs sha256Hex pairs) s.store (i, .start) attempt row =
      some (s.store.setPhase (i, .start) (retry attempt)) := by
    simp [tryInsert, filingJobs, job_org, free, conflict]
  have now : (s.store.setPhase (i, .start) (retry attempt)).phase (i, .start) = retry attempt :=
    Function.update_self _ _ _
  have error : errorOf s.store.rows (pairs i).org_id (.built attempt row) .insert =
      .E_LEDGER_WRITE_FAILED := by
    simp only [errorOf, conflict]
  simp only [filingStep, opening, Stage.part, appendStep, AppendAct.for, phase, stepped,
    Option.map_some, now, error]
  split
  · next again =>
    rw [retry, if_pos again, afterAppend_open (by simp) (by simp), ← opening,
      Function.update_eq_self]
    rfl
  · next last =>
    rw [retry, if_neg last, afterAppend_opening_failed]
    rfl

theorem commit_alone {row : ChainedRow} (at_part : (s.stage i).part = some part)
    (phase : s.store.phase (i, part) = .inserted row) :
    filingStep sha256Hex lockKey pairs s (.append i .commit) =
      some ⟨commitRow s.store (i, part) row,
        Function.update s.stage i
          (afterAppend (pairs i) .broken (.inserted row) .succeeded (s.stage i))⟩ := by
  have now : (commitRow s.store (i, part) row).phase (i, part) = .succeeded :=
    Function.update_self _ _ _
  simp only [filingStep, at_part, appendStep, AppendAct.for, phase, Option.map_some, now]
  rfl

/-- With no transaction of another open, and no row of its kind in the table, an append goes
through. -/
theorem append_alone {attempt : Nat} {now : String}
    (inv : FilingInvariant sha256Hex lockKey pairs org_id attempt_id s)
    (one : OneAttempt pairs org_id attempt_id) (hex : ∀ text, isHex64 (sha256Hex text) = true)
    (at_part : (s.stage i).part = some part) (phase : s.store.phase (i, part) = .reading attempt)
    (free : ∀ lock, s.store.holder lock = none)
    (start_stands : part = .terminal → PartStands org_id attempt_id .start s.store.rows)
    (none_stands : ¬PartStands org_id attempt_id part s.store.rows)
    (linkable : (linkRow sha256Hex (((pairs i).job sha256Hex part).build now
        (visibleHead s.store.rows (pairs i).org_id (pairs i).run_id))
      (visibleHead s.store.rows (pairs i).org_id (pairs i).run_id)).isSome) :
    ∃ row t, perform (filingStep sha256Hex lockKey pairs) s
        [.append i (.read now), .append i .insert, .append i .commit] = some t ∧
      t.stage = Function.update s.stage i
        (afterAppend (pairs i) .broken (.inserted row) .succeeded (s.stage i)) ∧
      BuiltAtHead sha256Hex s.store.rows (pairs i) part row ∧
      t.store.rows = s.store.rows ++ [row] ∧ (∀ lock, t.store.holder lock = none) ∧
      ∀ v, v ≠ (i, part) → t.store.phase v = s.store.phase v := by
  obtain ⟨valid, -⟩ := (inv.sound i).appending at_part
  obtain ⟨row, linked⟩ := Option.isSome_iff_exists.mp linkable
  have fresh : BuiltAtHead sha256Hex s.store.rows (pairs i) part row := ⟨now, linked⟩
  have is_part := partRow_of_built valid fresh.built
  rw [(one i _ valid).1] at is_part
  have few := inv.few (one i _ valid).1 start_stands none_stands
  have apart : ∀ standing ∈ s.store.rows,
      uniqueKey standing.toLedgerRowContent ≠ uniqueKey row.toLedgerRowContent := by
    intro standing member same
    exact none_stands (inv.rows.partStands_of_key member (same.trans is_part.uniqueKey))
  have inserted : insertRow (pairs i).org_id s.store.rows row = .ok () := by
    rw [insertRow_fresh valid hex inv.store.linear few fresh,
      fresh_no_duplicate inv.store.linear few fresh apart]
    rfl
  have read : filingStep sha256Hex lockKey pairs s (.append i (.read now)) =
      some (s.atPhase i part (.built attempt row)) := read_alone at_part phase linked
  let locked := ((s.atPhase i part (.built attempt row)).store.acquire (i, part)
    (rowLocks lockKey row)).setPhase (i, part) (.inserted row)
  have insert : filingStep sha256Hex lockKey pairs (s.atPhase i part (.built attempt row))
      (.append i .insert) = some ⟨locked, s.stage⟩ :=
    insert_alone at_part (Function.update_self _ _ _) free inserted
  have commit : filingStep sha256Hex lockKey pairs ⟨locked, s.stage⟩ (.append i .commit) =
      some ⟨commitRow locked (i, part) row, Function.update s.stage i
        (afterAppend (pairs i) .broken (.inserted row) .succeeded (s.stage i))⟩ :=
    commit_alone at_part (Function.update_self _ _ _)
  refine ⟨row, ⟨commitRow locked (i, part) row, Function.update s.stage i
    (afterAppend (pairs i) .broken (.inserted row) .succeeded (s.stage i))⟩, ?_, rfl, fresh, ?_,
    ?_, ?_⟩
  · simp only [perform, read, insert, commit, Option.bind_some]
  · simp [locked, commitRow, StoreState.setPhase, StoreState.release, StoreState.record,
      StoreState.rows, StoreState.acquire, FilingState.atPhase]
  · intro lock
    simp only [locked, commitRow, StoreState.setPhase, StoreState.release, StoreState.record,
      StoreState.acquire, FilingState.atPhase, free]
    split <;> simp
  · intro v other
    simp [locked, commitRow, StoreState.setPhase, StoreState.release, StoreState.record,
      StoreState.acquire, FilingState.atPhase, Function.update_of_ne other]

theorem call_alone (idle : s.stage i = .idle) (valid : Valid pairs attempt_id i) :
    filingStep sha256Hex lockKey pairs s (.call i) = some (s.setStage i .prereading) := by
  rw [Valid] at valid
  simp only [filingStep, idle, valid]

/-- What the reader answers an invocation that has found nothing out yet. -/
theorem find_alone (inv : FilingInvariant sha256Hex lockKey pairs org_id attempt_id s)
    (one : OneAttempt pairs org_id attempt_id) (prereading : s.stage i = .prereading) :
    filingStep sha256Hex lockKey pairs s (.findAttempt i) =
      (afterFind (pairs i)
        ⟨s.store.rows[0]?.map ChainedRow.filed, s.store.rows[1]?.map ChainedRow.filed⟩
        .prereading).map (s.setStage i) := by
  have sound := inv.sound i
  rw [prereading] at sound
  obtain ⟨valid, -⟩ := sound
  simp only [filingStep, prereading]
  rw [(checkPair_eq_ok valid).1, (one i _ valid).1, findAttempt_eq inv.rows]

/-- Alone, an invocation completes a pair whose start it finds. -/
theorem completes_half {start : ChainedRow} {now : String}
    (inv : FilingInvariant sha256Hex lockKey pairs org_id attempt_id s)
    (one : OneAttempt pairs org_id attempt_id) (hex : ∀ text, isHex64 (sha256Hex text) = true)
    (idle : s.stage i = .idle) (valid : Valid pairs attempt_id i)
    (free : ∀ lock, s.store.holder lock = none) (half : s.store.rows = [start])
    (linkable : (linkRow sha256Hex (((pairs i).job sha256Hex .terminal).build now
        (visibleHead [start] (pairs i).org_id (pairs i).run_id))
      (visibleHead [start] (pairs i).org_id (pairs i).run_id)).isSome) :
    ∃ acts t terminal, (∀ act ∈ acts, act.invocation = i) ∧
      perform (filingStep sha256Hex lockKey pairs) s acts = some t ∧
      t.store.rows = [start, terminal] ∧
      t.stage i = .returned ⟨attempt_id, (pairs i).run_id, start.filed, terminal.filed, .resumed⟩ := by
  have untouched : Untouched s.store i := by
    have sound := inv.sound i
    rwa [idle] at sound
  have called : filingStep sha256Hex lockKey pairs s (.call i) =
      some (s.setStage i .prereading) := call_alone idle valid
  have inv_called := filingStep_sound inv one called
  have prereading : (s.setStage i .prereading).stage i = .prereading := Function.update_self _ _ _
  have found := find_alone inv_called one prereading
  have rows_called : (s.setStage i .prereading).store.rows = [start] := half
  simp only [rows_called, List.getElem?_cons_zero, Option.map_some, List.getElem?_cons_succ,
    List.getElem?_nil, Option.map_none, afterFind] at found
  have inv_found := filingStep_sound inv_called one found
  have is_start : PartRow org_id attempt_id .start start := by
    have rows := inv.rows
    rw [half] at rows
    cases rows
    assumption
  let closing := (s.setStage i .prereading).setStage i (.closing start.filed true)
  have rows_closing : closing.store.rows = [start] := half
  have at_part : (closing.stage i).part = some .terminal := by
    simp [closing, FilingState.setStage, Stage.part]
  have no_terminal : ¬PartStands org_id attempt_id .terminal closing.store.rows := by
    rw [rows_closing]
    rintro ⟨row, member, is_terminal⟩
    rw [List.mem_singleton] at member
    subst member
    cases is_start.part_eq is_terminal
  obtain ⟨terminal, t, appended, stage, -, rows, -⟩ := append_alone inv_found one hex at_part
    (untouched .terminal) free (fun _ => ⟨start, by rw [rows_closing]; simp, is_start⟩)
    no_terminal (by rw [rows_closing]; exact linkable)
  refine ⟨[.call i, .findAttempt i, .append i (.read now), .append i .insert, .append i .commit], t,
    terminal, ?_, ?_, ?_, ?_⟩
  · simp [FilingAction.invocation]
  · simp only [perform, called, found, Option.bind_some]
    exact appended
  · rw [rows, rows_closing]
    rfl
  · rw [stage]
    simp [FilingState.setStage, afterAppend, (checkPair_eq_ok valid).1]

/-- One attempt of a start where a start stands. -/
theorem attempt_lost {start : ChainedRow} {attempt : Nat} {now : String}
    (inv : FilingInvariant sha256Hex lockKey pairs org_id attempt_id s)
    (one : OneAttempt pairs org_id attempt_id) (hex : ∀ text, isHex64 (sha256Hex text) = true)
    (opening : s.stage i = .opening) (phase : s.store.phase (i, .start) = .reading attempt)
    (free : ∀ lock, s.store.holder lock = none) (half : s.store.rows = [start])
    (linkable : (linkRow sha256Hex (((pairs i).job sha256Hex .start).build now
        (visibleHead [start] (pairs i).org_id (pairs i).run_id))
      (visibleHead [start] (pairs i).org_id (pairs i).run_id)).isSome) :
    ∃ row, perform (filingStep sha256Hex lockKey pairs) s
        [.append i (.read now), .append i .insert] =
      some (if attempt + 1 < appendAttempts then
          (s.atPhase i .start (.built attempt row)).atPhase i .start (.reading (attempt + 1))
        else ((s.atPhase i .start (.built attempt row)).atPhase i .start .failed).setStage i
          (.failed .E_LEDGER_WRITE_FAILED)) := by
  have at_part : (s.stage i).part = some .start := by
    rw [opening]
    rfl
  obtain ⟨valid, -⟩ := (inv.sound i).appending at_part
  obtain ⟨row, linked⟩ := Option.isSome_iff_exists.mp linkable
  rw [← half] at linked
  have is_start : PartRow org_id attempt_id .start start := by
    have rows := inv.rows
    rw [half] at rows
    cases rows
    assumption
  have fresh : BuiltAtHead sha256Hex s.store.rows (pairs i) .start row := ⟨now, linked⟩
  have few : s.store.rows = [] ∨
      ∃ start, s.store.rows = [start] ∧ start.org_id = (pairs i).org_id :=
    .inr ⟨start, half, is_start.org.trans (one i _ valid).1.symm⟩
  have is_own := partRow_of_built valid fresh.built
  have conflict : insertRow (pairs i).org_id s.store.rows row = .error .chainConflict := by
    have duplicate : s.store.rows.any (duplicates row) = true := by
      rw [half]
      simp [duplicates, is_start.uniqueKey, is_own.uniqueKey]
    rw [insertRow_fresh valid hex inv.store.linear few fresh, duplicate]
    rfl
  have read : filingStep sha256Hex lockKey pairs s (.append i (.read now)) =
      some (s.atPhase i .start (.built attempt row)) := read_alone at_part phase linked
  refine ⟨row, ?_⟩
  simp only [perform, read, Option.bind_some]
  rw [lose_alone (s := s.atPhase i .start (.built attempt row)) opening
    (Function.update_self _ _ _) free conflict]
  rfl

/-- Alone, an invocation that is to append a start where one stands loses every attempt. -/
theorem start_lost {start : ChainedRow} {attempt : Nat} {now : String}
    (inv : FilingInvariant sha256Hex lockKey pairs org_id attempt_id s)
    (one : OneAttempt pairs org_id attempt_id) (hex : ∀ text, isHex64 (sha256Hex text) = true)
    (opening : s.stage i = .opening) (phase : s.store.phase (i, .start) = .reading attempt)
    (left : attempt < appendAttempts) (free : ∀ lock, s.store.holder lock = none)
    (half : s.store.rows = [start])
    (linkable : (linkRow sha256Hex (((pairs i).job sha256Hex .start).build now
        (visibleHead [start] (pairs i).org_id (pairs i).run_id))
      (visibleHead [start] (pairs i).org_id (pairs i).run_id)).isSome) :
    ∃ acts t, (∀ act ∈ acts, act.invocation = i) ∧
      perform (filingStep sha256Hex lockKey pairs) s acts = some t ∧ t.store.rows = [start] ∧
      t.stage i = .failed .E_LEDGER_WRITE_FAILED := by
  obtain ⟨more, gap⟩ : ∃ more, attempt + more + 1 = appendAttempts :=
    ⟨appendAttempts - attempt - 1, by omega⟩
  induction more generalizing s attempt with
  | zero =>
    obtain ⟨row, lost⟩ := attempt_lost inv one hex opening phase free half linkable
    rw [if_neg (by omega)] at lost
    refine ⟨_, _, ?_, lost, half, Function.update_self _ _ _⟩
    simp [FilingAction.invocation]
  | succ more ih =>
    obtain ⟨row, lost⟩ := attempt_lost inv one hex opening phase free half linkable
    rw [if_pos (by omega)] at lost
    let next := (s.atPhase i .start (.built attempt row)).atPhase i .start (.reading (attempt + 1))
    have inv_next : FilingInvariant sha256Hex lockKey pairs org_id attempt_id next :=
      ((run_of_perform _ _ _ _ lost).invariant
        (fun _ _ _ taken inv => filingStep_sound inv one taken) inv).1
    obtain ⟨acts, t, own, performed, rows, failed⟩ := ih inv_next opening
      (Function.update_self _ _ _) (by omega) free half (by omega)
    refine ⟨[.append i (.read now), .append i .insert] ++ acts, t, ?_,
      perform_append lost performed, rows, failed⟩
    intro act member
    rcases List.mem_append.mp member with first | later
    · have listed : act = .append i (.read now) ∨ act = .append i .insert := by simpa using first
      rcases listed with rfl | rfl <;> rfl
    · exact own act later

/-! ### The pair -/

theorem filing_run {ts : List (Transition (FilingState ι) (FilingAction ι))}
    (one : OneAttempt pairs org_id attempt_id)
    (run : Run (filingStep sha256Hex lockKey pairs) FilingState.initial ts s) :
    FilingInvariant sha256Hex lockKey pairs org_id attempt_id s ∧
      ∀ tr ∈ ts, FilingInvariant sha256Hex lockKey pairs org_id attempt_id tr.source := by
  obtain ⟨inv, along⟩ := run.invariant
    (fun _ _ _ taken inv => filingStep_sound inv one taken) FilingInvariant.initial
  exact ⟨inv, fun tr member => (along tr member).1⟩

/-- A run of steps that keep a condition keeps what they preserve, beside the invariant. -/
theorem filing_run_of {ts : List (Transition (FilingState ι) (FilingAction ι))}
    {P : FilingState ι → Prop} {Allowed : Transition (FilingState ι) (FilingAction ι) → Prop}
    (one : OneAttempt pairs org_id attempt_id)
    (preserved : ∀ {s t act}, FilingInvariant sha256Hex lockKey pairs org_id attempt_id s →
      filingStep sha256Hex lockKey pairs s act = some t → Allowed ⟨s, act, t⟩ → P s → P t)
    (run : Run (filingStep sha256Hex lockKey pairs) FilingState.initial ts s)
    (allowed : ∀ tr ∈ ts, Allowed tr) (initial : P FilingState.initial) : P s :=
  (run.invariant_of
    (P := fun s => FilingInvariant sha256Hex lockKey pairs org_id attempt_id s ∧ P s) Allowed
    (fun _ taken may kept =>
      ⟨filingStep_sound kept.1 one taken, preserved kept.1 taken may kept.2⟩)
    allowed ⟨FilingInvariant.initial, initial⟩).1.2

theorem AttemptRows.count_le {rows : List ChainedRow}
    (standing : AttemptRows org_id attempt_id rows) (part : Part) :
    rows.countP (fun row => uniqueKey row.toLedgerRowContent = some (part.key attempt_id)) ≤ 1 := by
  cases standing with
  | none => simp
  | half start => exact List.countP_le_length
  | whole start terminal =>
    cases part <;> simp [start.uniqueKey, terminal.uniqueKey, Part.key]

end Filing

/-! ### Two invocations of one capsule -/

def capsuleAttempt : String := "01234567-89ab-cdef-0123-456789abcdef"

def unevaluable (reason : String) : Json :=
  .object [("verdict", .text "UNEVALUABLE"), ("reason", .text reason)]

def capsulePair : PromotionPair where
  org_id := "org"
  run_id := "run"
  start := .object
    [("attempt_id", .text capsuleAttempt), ("started_at", .text "2026-01-01T00:00:00.000Z"),
      ("budget_reserved", .number (.integer 0)),
      ("code_sha", .text "0123456789abcdef0123456789abcdef01234567")]
  terminal := .object
    [("attempt_id", .text capsuleAttempt), ("candidate_prompt_version_id", .text "incumbent"),
      ("incumbent_prompt_version_id", .text "incumbent"),
      ("conjuncts", .object
        [("paired_significant_at_alpha", unevaluable "no scored run has been recorded"),
          ("delta_positive", unevaluable noCandidateMarker),
          ("battery_in_force_green", unevaluable "the negative battery has not been built"),
          ("query_index_within_cmax", unevaluable "no report split has been sealed")]),
      ("failing_conjunct", .text "precondition_underpowered"),
      ("power", .object
        [("delta", .null), ("ci_low", .null), ("ci_high", .null), ("ci_unit", .text "clan"),
          ("mde_n", .null), ("mdi", .null)]),
      ("outcome", .text "REJECTED"), ("interpretation", .text "UNDERPOWERED")]
  scored_run := none
  evidence _ := none
  schema_version := "0011"
  ruleset_hash := "ruleset"
  kb_snapshot := "kb"
  toolchain := .object []
  ts := "2026-01-01T00:00:00.000Z"

def capsuleStartHash : String := "1b14b17eec3365505f2c7cc8ffab230a028541a58da5e0b8881dd4e532878f82"

/-- The digests of the state, of the first row, and of either row behind it. -/
def capsuleDigest (text : String) : String :=
  match text.toList with
  | '\x7b' :: _ => "97375cff0860f235dc519121eb61fa7eb0948661a063572cfd92d6e604ee4613"
  | 'G' :: _ => capsuleStartHash
  | chars =>
    if chars[74]? = some 'e' then "c53ce10630838c182ce9ad87e9c5ef3cbd3b3e4de60805d5a23c15413eda70b0"
    else "cfa2be5a02ca76bf52670ae8358d0aa6e30f0b2a8a37ddbb9e4bc45ed2a88086"

theorem capsulePair_valid : checkPair capsulePair = .ok capsuleAttempt := by decide +kernel

theorem capsuleDigest_hex (text : String) : isHex64 (capsuleDigest text) = true := by
  unfold capsuleDigest
  split
  · decide +kernel
  · decide +kernel
  · split
    · decide +kernel
    · decide +kernel

theorem capsuleDigest_genesis (text : String) :
    capsuleDigest (genesis ++ text) = capsuleStartHash := by
  have opens : (genesis ++ text).toList = 'G' :: ("ENESIS".toList ++ text.toList) := by
    rw [String.toList_append]
    rfl
  rw [capsuleDigest, opens]
  rfl

theorem capsuleDigest_behind (text : String) :
    capsuleDigest (capsuleStartHash ++ text) ≠ capsuleStartHash := by
  have opens : (capsuleStartHash ++ text).toList =
      '1' :: (capsuleStartHash.toList.tail ++ text.toList) := by
    rw [String.toList_append]
    rfl
  rw [capsuleDigest, opens]
  split
  · next same => cases same
  · next same => cases same
  · split
    · decide
    · decide

theorem capsule_links (content : LedgerRowContent) {head : Option LedgerHead}
    (known : ∀ h ∈ head, h.row_hash = capsuleStartHash) :
    (linkRow capsuleDigest content head).isSome := by
  cases head with
  | none =>
    have apart : rowHash capsuleDigest genesis content ≠ genesis := by
      rw [rowHash, capsuleDigest_genesis]
      decide
    simp only [linkRow, if_neg apart, Option.isSome_some]
  | some h =>
    have apart : rowHash capsuleDigest h.row_hash content ≠ h.row_hash := by
      rw [known h rfl]
      exact capsuleDigest_behind _
    simp only [linkRow, if_neg apart, Option.isSome_some]

abbrev capsuleStep := filingStep capsuleDigest (fun _ => 0) fun _ : Bool => capsulePair

theorem capsule_oneAttempt : OneAttempt (fun _ : Bool => capsulePair) "org" capsuleAttempt := by
  intro i a passed
  exact ⟨rfl, Except.ok.inj (passed.symm.trans capsulePair_valid)⟩

/-- Where nothing stands, an invocation is to append its start. -/
theorem looked_alone {ι : Type*} [DecidableEq ι] {pairs : ι → PromotionPair}
    {sha256Hex : String → String} {lockKey : String → Int} {org_id attempt_id : String}
    {s : FilingState ι} {i : ι}
    (inv : FilingInvariant sha256Hex lockKey pairs org_id attempt_id s)
    (one : OneAttempt pairs org_id attempt_id) (valid : Valid pairs attempt_id i)
    (idle : s.stage i = .idle) (empty : s.store.rows = []) :
    perform (filingStep sha256Hex lockKey pairs) s [.call i, .findAttempt i] =
      some ((s.setStage i .prereading).setStage i .opening) := by
  have called : filingStep sha256Hex lockKey pairs s (.call i) =
      some (s.setStage i .prereading) := call_alone idle valid
  have found := find_alone (filingStep_sound inv one called) one
    (show (s.setStage i .prereading).stage i = .prereading from Function.update_self _ _ _)
  have still : (s.setStage i .prereading).store.rows = [] := empty
  simp only [still, List.getElem?_nil, Option.map_none, afterFind, Option.map_some] at found
  simp only [perform, called, found, Option.bind_some]

/-- One invocation has put its start in, and another has looked before it did. -/
theorem capsule_opened : ∃ start acts t,
    perform capsuleStep FilingState.initial acts = some t ∧
      FilingInvariant capsuleDigest (fun _ => 0) (fun _ : Bool => capsulePair) "org" capsuleAttempt
        t ∧
      t.store.rows = [start] ∧ start.row_hash = capsuleStartHash ∧
      (∀ lock, t.store.holder lock = none) ∧ t.stage true = .closing start.filed false ∧
      t.store.phase (true, .terminal) = .reading 0 ∧
      t.stage false = .opening ∧ t.store.phase (false, .start) = .reading 0 := by
  have one := capsule_oneAttempt
  have kept : ∀ {s t : FilingState Bool} {acts},
      perform capsuleStep s acts = some t →
      FilingInvariant capsuleDigest (fun _ => 0) (fun _ => capsulePair) "org" capsuleAttempt s →
      FilingInvariant capsuleDigest (fun _ => 0) (fun _ => capsulePair) "org" capsuleAttempt t :=
    fun performed inv => ((run_of_perform _ _ _ _ performed).invariant
      (fun _ _ _ taken inv => filingStep_sound inv one taken) inv).1
  let one_looked : FilingState Bool :=
    (FilingState.initial.setStage true .prereading).setStage true .opening
  let both_looked := (one_looked.setStage false .prereading).setStage false .opening
  have first : perform capsuleStep FilingState.initial [.call true, .findAttempt true] =
      some one_looked := looked_alone FilingInvariant.initial one capsulePair_valid rfl rfl
  have inv_first := kept first FilingInvariant.initial
  have second : perform capsuleStep one_looked [.call false, .findAttempt false] =
      some both_looked := looked_alone inv_first one capsulePair_valid rfl rfl
  have inv_second := kept second inv_first
  have no_start : ¬PartStands "org" capsuleAttempt .start both_looked.store.rows := by
    rintro ⟨row, member, -⟩
    cases member
  have opening : (both_looked.stage true).part = some .start := rfl
  have linkable : (linkRow capsuleDigest ((capsulePair.job capsuleDigest .start).build ""
      (visibleHead both_looked.store.rows capsulePair.org_id capsulePair.run_id))
      (visibleHead both_looked.store.rows capsulePair.org_id capsulePair.run_id)).isSome :=
    capsule_links _ nofun
  obtain ⟨start, t, opened, stage, fresh, rows, free, others⟩ :=
    append_alone (i := true) inv_second one capsuleDigest_hex opening rfl (fun _ => rfl) nofun
      no_start linkable
  have performed := perform_append (perform_append first second) opened
  refine ⟨start, _, t, performed, kept performed FilingInvariant.initial, rows, ?_, free, ?_,
    others _ (by simp), ?_, others _ (by simp)⟩
  · obtain ⟨now, linked⟩ := fresh
    obtain ⟨-, prev, hashed⟩ := linkRow_eq_some linked
    rw [hashed, prev]
    exact capsuleDigest_genesis _
  · rw [stage]
    exact Function.update_self _ _ _
  · rw [stage, Function.update_of_ne (by simp)]
    rfl

theorem capsule_links_behind {start : ChainedRow} (hash : start.row_hash = capsuleStartHash)
    (part : Part) :
    (linkRow capsuleDigest ((capsulePair.job capsuleDigest part).build ""
      (visibleHead [start] capsulePair.org_id capsulePair.run_id))
      (visibleHead [start] capsulePair.org_id capsulePair.run_id)).isSome := by
  refine capsule_links _ fun h shown => ?_
  obtain ⟨row, member, same⟩ := visibleHead_stands shown
  have is_start := (List.mem_filter.mp member).1
  rw [List.mem_singleton] at is_start
  rw [← same, is_start]
  exact hash

end LedgerDesk.Ledger
