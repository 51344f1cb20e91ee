import LedgerDesk.Ledger.Store

/-!
# The rows of a run form one linear chain

A writer reads its head outside the insert, so a built row may be stale, and it may have
been built against a head the tenant policy clipped. The trigger lets it in only where
the head it was built on is still the last row of the run.
-/
namespace LedgerDesk.Ledger

open Foundation LedgerDesk.Agents

/-- The row continues the rows of its run that stand before it. -/
structure Extends (sha256Hex : String → String) (before : List ChainedRow) (row : ChainedRow) :
    Prop where
  prev : row.prev_hash = (before.getLast?.map ChainedRow.row_hash).getD genesis
  seq : row.seq = before.length + 1
  digest : verifyRowHash sha256Hex row = true
  tokens : row.cum_tokens =
    ((before ++ [row]).map fun r => tokensCounted r.toLedgerRowContent).sum

/-- The rows of the run, in the order they were committed, are one chain from `GENESIS`. -/
def Linear (sha256Hex : String → String) (rows : List ChainedRow) (run_id : String) : Prop :=
  Positioned (Extends sha256Hex) (runRows rows run_id)

/-- The row is what the builder made of a head that stands in its run. -/
def BuiltFrom (sha256Hex : String → String) (rows : List ChainedRow) (job : RowBuilder)
    (row : ChainedRow) : Prop :=
  ∃ now head, (∀ h, head = some h → ∃ r ∈ runRows rows job.run_id, r.head = h) ∧
    linkRow sha256Hex (job.build now head) head = some row

def AppendPhase.rowsWritten : AppendPhase → Nat
  | .succeeded => 1
  | _ => 0

/-! ### What the trigger admits -/

section Trigger

variable {sha256Hex : String → String}

theorem linkRow_eq_some {content : LedgerRowContent} {head : Option LedgerHead}
    {row : ChainedRow} (linked : linkRow sha256Hex content head = some row) :
    row.toLedgerRowContent = content ∧
      row.prev_hash = (head.map LedgerHead.row_hash).getD genesis ∧
      row.row_hash = rowHash sha256Hex row.prev_hash content := by
  cases head with
  | none =>
    simp only [linkRow] at linked
    split at linked
    · cases linked
    · cases linked
      exact ⟨rfl, rfl, rfl⟩
  | some h =>
    simp only [linkRow] at linked
    split at linked
    · cases linked
    · cases linked
      exact ⟨rfl, rfl, rfl⟩

theorem BuiltFrom.run {rows : List ChainedRow} {job : RowBuilder} {row : ChainedRow}
    (built : BuiltFrom sha256Hex rows job row) : row.run_id = job.run_id := by
  obtain ⟨now, head, -, linked⟩ := built
  rw [(linkRow_eq_some linked).1]
  exact job.build_run now head

theorem runRows_append (rows more : List ChainedRow) (run_id : String) :
    runRows (rows ++ more) run_id = runRows rows run_id ++ runRows more run_id := by
  simp only [runRows, List.filter_append]

theorem BuiltFrom.append {rows : List ChainedRow} {job : RowBuilder} {row : ChainedRow}
    (built : BuiltFrom sha256Hex rows job row) (more : List ChainedRow) :
    BuiltFrom sha256Hex (rows ++ more) job row := by
  obtain ⟨now, head, stands, linked⟩ := built
  refine ⟨now, head, fun h taken => ?_, linked⟩
  obtain ⟨r, member, same⟩ := stands h taken
  refine ⟨r, ?_, same⟩
  rw [runRows_append]
  exact List.mem_append_left _ member

/-- In a linear chain the sequence numbers count the rows. -/
theorem seq_le_length {rs : List ChainedRow} {r : ChainedRow}
    (linear : Positioned (Extends sha256Hex) rs) (member : r ∈ rs) : r.seq ≤ rs.length := by
  obtain ⟨before, after, cut, fits⟩ := linear.of_mem member
  have position := fits.seq
  have total : rs.length = before.length + (after.length + 1) := by
    rw [cut, List.length_append, List.length_cons]
  omega

/-- Only the last row of a linear chain carries its length. -/
theorem cut_of_length_le {rs : List ChainedRow} {r : ChainedRow}
    (linear : Positioned (Extends sha256Hex) rs) (member : r ∈ rs)
    (reaches : rs.length ≤ r.seq) : ∃ before, rs = before ++ [r] ∧ Extends sha256Hex before r := by
  obtain ⟨before, after, cut, fits⟩ := linear.of_mem member
  have position := fits.seq
  have total : rs.length = before.length + (after.length + 1) := by
    rw [cut, List.length_append, List.length_cons]
  have empty : after = [] := List.length_eq_zero_iff.mp (by omega)
  subst empty
  exact ⟨before, cut, fits⟩

theorem ledgerLink_ok {rows : List ChainedRow} {new : ChainedRow}
    (admitted : ledgerLink rows new = .ok ()) :
    ∀ h ∈ headOf (runRows rows new.run_id), h.seq < new.seq := by
  simp only [ledgerLink] at admitted
  split at admitted
  · cases admitted
  · next behind =>
    intro h head
    rw [Option.mem_def] at head
    simp only [head, Option.any_some, decide_eq_true_eq] at behind
    omega

/-- What the trigger admits stands behind every row of the run. -/
theorem length_lt_of_ledgerLink {rows : List ChainedRow} {new : ChainedRow}
    (linear : Linear sha256Hex rows new.run_id) (admitted : ledgerLink rows new = .ok ())
    (opens : 0 < new.seq) : (runRows rows new.run_id).length < new.seq := by
  rcases List.eq_nil_or_concat' (runRows rows new.run_id) with empty | ⟨before, last, cut⟩
  · rw [empty]
    exact opens
  · have last_mem : last ∈ runRows rows new.run_id := by
      rw [cut]
      simp
    have position : last.seq = before.length + 1 := by
      have fits := linear
      rw [Linear, cut] at fits
      exact fits.last.seq
    cases found : headOf (runRows rows new.run_id) with
    | none =>
      rw [headOf, List.argmax_eq_none] at found
      rw [found] at last_mem
      cases last_mem
    | some h =>
      have below : last.seq ≤ h.seq :=
        List.le_of_mem_argmax (f := fun row : ChainedRow => row.seq) last_mem found
      have behind := ledgerLink_ok admitted h found
      rw [cut, List.length_append, List.length_singleton]
      omega

theorem insertRow_ok {org_id : String} {rows : List ChainedRow} {row : ChainedRow}
    (inserted : insertRow org_id rows row = .ok ()) :
    ledgerLink rows row = .ok () ∧ isHex64 row.row_hash = true := by
  simp only [insertRow] at inserted
  split at inserted
  · cases inserted
  · next admitted =>
    refine ⟨admitted, ?_⟩
    split at inserted
    · cases inserted
    · split at inserted
      · cases inserted
      · next shaped =>
        simp only [Bool.not_eq_true, Bool.not_eq_false', constraintsHold, ledgerHashShape,
          Bool.and_eq_true] at shaped
        exact shaped.2.1.1

/-- A built row that the table takes continues its run: whatever head it was built on
is the last row, although neither the reading nor the policy promised that. -/
theorem extends_of_insertRow {org_id : String} {rows : List ChainedRow} {job : RowBuilder}
    {row : ChainedRow} (linear : Linear sha256Hex rows row.run_id)
    (built : BuiltFrom sha256Hex rows job row) (inserted : insertRow org_id rows row = .ok ()) :
    Extends sha256Hex (runRows rows row.run_id) row := by
  have run := built.run
  obtain ⟨now, head, stands, linked⟩ := built
  obtain ⟨admitted, hex⟩ := insertRow_ok inserted
  obtain ⟨content, prev, hashed⟩ := linkRow_eq_some linked
  have seq : row.seq = nextSeq head := by
    rw [content]
    exact job.build_seq now head
  have tokens : row.cum_tokens = carriedTokens head + tokensCounted row.toLedgerRowContent := by
    rw [content]
    exact job.build_tokens now head
  have digest : verifyRowHash sha256Hex row = true := by
    rw [verifyRowHash, hex, hashed, content]
    simp
  have behind := length_lt_of_ledgerLink linear admitted (by rw [seq, nextSeq]; omega)
  cases head with
  | none =>
    have empty : runRows rows row.run_id = [] := by
      simp only [nextSeq, Option.map_none, Option.getD_none] at seq
      exact List.length_eq_zero_iff.mp (by omega)
    refine ⟨?_, ?_, digest, ?_⟩
    · rw [empty, prev]
      rfl
    · rw [empty, seq]
      rfl
    · rw [empty, tokens]
      simp [carriedTokens]
  | some h =>
    obtain ⟨r, member, rfl⟩ := stands h rfl
    rw [← run] at member
    simp only [nextSeq, Option.map_some, Option.getD_some, ChainedRow.head] at seq
    obtain ⟨before, cut, fits⟩ := cut_of_length_le linear member (by omega)
    refine ⟨?_, ?_, digest, ?_⟩
    · rw [cut, prev]
      simp [ChainedRow.head]
    · rw [cut, List.length_append, List.length_singleton, seq, fits.seq]
    · rw [cut, tokens, List.map_append, List.sum_append, ← fits.tokens]
      simp [carriedTokens, ChainedRow.head]

theorem Linear.append {rows : List ChainedRow} {row : ChainedRow} {run_id : String}
    (linear : Linear sha256Hex rows run_id)
    (fits : Extends sha256Hex (runRows rows row.run_id) row) :
    Linear sha256Hex (rows ++ [row]) run_id := by
  rw [Linear, runRows_append]
  by_cases same : row.run_id = run_id
  · subst same
    have one : runRows [row] row.run_id = [row] := by simp [runRows]
    rw [one]
    exact linear.concat fits
  · have none : runRows [row] run_id = [] := by simp [runRows, same]
    rw [none, List.append_nil]
    exact linear

theorem runRows_append_of_ne {rows : List ChainedRow} {row : ChainedRow} {run_id : String}
    (other : row.run_id ≠ run_id) : runRows (rows ++ [row]) run_id = runRows rows run_id := by
  simp [runRows, other]

end Trigger

/-! ### What every interleaving keeps -/

section Writers

variable (sha256Hex : String → String) (lockKey : String → Int)
variable {ι : Type*} [DecidableEq ι] (jobs : ι → RowBuilder)

/-- What a writer between two of its steps may rely on: its row was built on a head of
its run, and once inserted the advisory lock keeps the run as the trigger saw it. -/
def PhaseSound (s : StoreState ι) (i : ι) : AppendPhase → Prop
  | .built _ row => BuiltFrom sha256Hex s.rows (jobs i) row
  | .inserted row =>
    BuiltFrom sha256Hex s.rows (jobs i) row ∧
      s.holder (.run (lockKey row.run_id)) = some i ∧
      Extends sha256Hex (runRows s.rows row.run_id) row
  | _ => True

structure StoreInvariant (s : StoreState ι) : Prop where
  linear : ∀ run_id, Linear sha256Hex s.rows run_id
  sound : ∀ i, PhaseSound sha256Hex lockKey jobs s i (s.phase i)
  counted : ∀ i, s.entries.countP (fun e => e.writer = i) = (s.phase i).rowsWritten
  authored : ∀ e ∈ s.entries, BuiltFrom sha256Hex s.rows (jobs e.writer) e.row

variable {sha256Hex lockKey jobs}

theorem StoreInvariant.initial :
    StoreInvariant sha256Hex lockKey jobs (StoreState.initial : StoreState ι) where
  linear _ := Positioned.nil
  sound _ := trivial
  counted _ := rfl
  authored _ member := by cases member

/-- A step that writes nothing keeps the invariant when it leaves the phases of the
others and the locks they hold as they were. -/
theorem StoreInvariant.of_same_rows {s t : StoreState ι} {i : ι}
    (inv : StoreInvariant sha256Hex lockKey jobs s) (same : t.entries = s.entries)
    (others : ∀ j, j ≠ i → t.phase j = s.phase j)
    (kept : ∀ j lock, j ≠ i → s.holder lock = some j → t.holder lock = some j)
    (wrote : (t.phase i).rowsWritten = (s.phase i).rowsWritten)
    (own : PhaseSound sha256Hex lockKey jobs t i (t.phase i)) :
    StoreInvariant sha256Hex lockKey jobs t := by
  have rows : t.rows = s.rows := by rw [StoreState.rows, StoreState.rows, same]
  refine ⟨fun run_id => rows ▸ inv.linear run_id, fun j => ?_, fun j => ?_, fun e member => ?_⟩
  · by_cases self : j = i
    · subst self
      exact own
    · have before := inv.sound j
      rw [others j self]
      cases phase : s.phase j with
      | built n row =>
        rw [phase] at before
        simp only [PhaseSound, rows]
        exact before
      | inserted row =>
        rw [phase] at before
        obtain ⟨built, held, fits⟩ := before
        exact ⟨rows ▸ built, kept j _ self held, rows ▸ fits⟩
      | reading n => trivial
      | succeeded => trivial
      | failed => trivial
  · rw [same, inv.counted j]
    by_cases self : j = i
    · rw [self, wrote]
    · rw [others j self]
  · rw [same] at member
    exact rows ▸ inv.authored e member

theorem setPhase_sound {s : StoreState ι} {i : ι} {phase : AppendPhase}
    (inv : StoreInvariant sha256Hex lockKey jobs s)
    (wrote : phase.rowsWritten = (s.phase i).rowsWritten)
    (own : PhaseSound sha256Hex lockKey jobs s i phase) :
    StoreInvariant sha256Hex lockKey jobs (s.setPhase i phase) := by
  refine inv.of_same_rows (i := i) rfl (fun j other => ?_) (fun j lock _ held => held) ?_ ?_
  · exact Function.update_of_ne other _ _
  · simp only [StoreState.setPhase, Function.update_self, wrote]
  · have current : (s.setPhase i phase).phase i = phase := Function.update_self _ _ _
    rw [current]
    cases phase <;> exact own

/-- The head a writer is shown stands in its run. -/
theorem visibleHead_stands {rows : List ChainedRow} {org_id run_id : String} {h : LedgerHead}
    (shown : visibleHead rows org_id run_id = some h) : ∃ r ∈ runRows rows run_id, r.head = h := by
  simp only [visibleHead, Option.map_eq_some_iff] at shown
  obtain ⟨r, found, same⟩ := shown
  exact ⟨r, (List.mem_filter.mp (List.argmax_mem found)).1, same⟩

theorem readHead_sound {s : StoreState ι} {i : ι} {now : String} {attempt : Nat}
    (inv : StoreInvariant sha256Hex lockKey jobs s) (phase : s.phase i = .reading attempt) :
    StoreInvariant sha256Hex lockKey jobs (readHead sha256Hex jobs s i now attempt) := by
  simp only [readHead]
  split
  · exact setPhase_sound inv (by rw [phase]; rfl) trivial
  · next row linked =>
    refine setPhase_sound inv (by rw [phase]; rfl) ?_
    exact ⟨now, _, fun h shown => visibleHead_stands shown, linked⟩

theorem tryInsert_sound {s t : StoreState ι} {i : ι} {attempt : Nat} {row : ChainedRow}
    (inv : StoreInvariant sha256Hex lockKey jobs s) (phase : s.phase i = .built attempt row)
    (taken : tryInsert lockKey jobs s i attempt row = some t) :
    StoreInvariant sha256Hex lockKey jobs t := by
  have built : BuiltFrom sha256Hex s.rows (jobs i) row := by
    have sound := inv.sound i
    rw [phase] at sound
    exact sound
  simp only [tryInsert] at taken
  split at taken
  · cases taken
  · split at taken
    · cases taken
      refine setPhase_sound inv ?_ ?_
      · rw [phase, retry]
        split <;> rfl
      · rw [retry]
        split <;> trivial
    · cases taken
      exact setPhase_sound inv (by rw [phase]; rfl) trivial
    · next inserted =>
      split at taken
      · cases taken
      · next free =>
        cases taken
        have untouched : ∀ lock j, j ≠ i → s.holder lock = some j →
            (s.acquire i (rowLocks lockKey row)).holder lock = some j := by
          intro lock j _ held
          have not_own : lock ∉ rowLocks lockKey row := by
            intro own
            refine free (List.any_eq_true.mpr ⟨lock, own, ?_⟩)
            rw [held]
            rfl
          simp only [StoreState.acquire, if_neg not_own, held]
        refine inv.of_same_rows (i := i) rfl (fun j other => Function.update_of_ne other _ _)
          (fun j lock other held => untouched lock j other held) ?_ ?_
        · simp only [StoreState.setPhase, Function.update_self, phase]
          rfl
        · simp only [StoreState.setPhase, Function.update_self]
          refine ⟨built, ?_, extends_of_insertRow (inv.linear _) built inserted⟩
          simp only [StoreState.acquire, rowLocks, List.mem_cons, true_or, if_true]

/-- The end of a transaction leaves the locks of the others alone. -/
theorem release_of_ne {s : StoreState ι} {i j : ι} {lock : Lock} (other : j ≠ i)
    (held : s.holder lock = some j) : (s.release i).holder lock = some j := by
  have kept : s.holder lock ≠ some i := by
    rw [held]
    exact fun same => other (Option.some.inj same)
  rw [StoreState.release]
  exact (if_neg kept).trans held

theorem abort_sound {s : StoreState ι} {i : ι} (inv : StoreInvariant sha256Hex lockKey jobs s)
    (wrote : (s.phase i).rowsWritten = 0) :
    StoreInvariant sha256Hex lockKey jobs ((s.release i).setPhase i .failed) := by
  refine inv.of_same_rows (i := i) rfl (fun j other => Function.update_of_ne other _ _)
    (fun j lock other held => ?_) ?_ ?_
  · exact release_of_ne other held
  · simp only [StoreState.setPhase, Function.update_self, wrote]
    rfl
  · simp only [StoreState.setPhase, Function.update_self]
    trivial

theorem commitRow_sound {s : StoreState ι} {i : ι} {row : ChainedRow}
    (inv : StoreInvariant sha256Hex lockKey jobs s) (phase : s.phase i = .inserted row) :
    StoreInvariant sha256Hex lockKey jobs (commitRow s i row) := by
  obtain ⟨built, held, fits⟩ :
      BuiltFrom sha256Hex s.rows (jobs i) row ∧
        s.holder (.run (lockKey row.run_id)) = some i ∧
        Extends sha256Hex (runRows s.rows row.run_id) row := by
    have sound := inv.sound i
    rw [phase] at sound
    exact sound
  have rows : (commitRow s i row).rows = s.rows ++ [row] := by
    simp only [commitRow, StoreState.setPhase, StoreState.release, StoreState.record,
      StoreState.rows, List.map_append, List.map_cons, List.map_nil]
  have self : (commitRow s i row).phase i = .succeeded := Function.update_self _ _ _
  have others : ∀ j, j ≠ i → (commitRow s i row).phase j = s.phase j :=
    fun j other => Function.update_of_ne other _ _
  refine ⟨fun run_id => ?_, fun j => ?_, fun j => ?_, fun e member => ?_⟩
  · rw [rows]
    exact (inv.linear run_id).append fits
  · by_cases same : j = i
    · rw [same, self]
      trivial
    · have before := inv.sound j
      rw [others j same]
      cases at_j : s.phase j with
      | built n other =>
        rw [at_j] at before
        simp only [PhaseSound, rows]
        exact before.append [row]
      | inserted other =>
        rw [at_j] at before
        obtain ⟨built', held', fits'⟩ := before
        -- two inserted rows hold two locks, so they are rows of two runs
        have apart : row.run_id ≠ other.run_id := by
          intro runs
          rw [runs, held'] at held
          exact same (Option.some.inj held)
        refine ⟨?_, ?_, ?_⟩
        · rw [rows]
          exact built'.append [row]
        · exact release_of_ne (s := s.record i row) same held'
        · rw [rows, runRows_append_of_ne apart]
          exact fits'
      | reading n => trivial
      | succeeded => trivial
      | failed => trivial
  · have count : (commitRow s i row).entries.countP (fun e => e.writer = j) =
        s.entries.countP (fun e => e.writer = j) + if i = j then 1 else 0 := by
      simp only [commitRow, StoreState.setPhase, StoreState.release, StoreState.record,
        List.countP_append, List.countP_cons, List.countP_nil, decide_eq_true_eq, Nat.zero_add]
    rw [count, inv.counted j]
    by_cases same : j = i
    · rw [same, self, phase]
      simp [AppendPhase.rowsWritten]
    · rw [others j same, if_neg (Ne.symm same), Nat.add_zero]
  · rw [rows]
    have split_entry : e ∈ s.entries ∨ e = ⟨row, i⟩ := by
      simpa [commitRow, StoreState.setPhase, StoreState.release, StoreState.record] using member
    rcases split_entry with standing | rfl
    · exact (inv.authored e standing).append [row]
    · exact built.append [row]

theorem appendStep_sound {s t : StoreState ι} {act : StoreAction ι}
    (inv : StoreInvariant sha256Hex lockKey jobs s)
    (taken : appendStep sha256Hex lockKey jobs s act = some t) :
    StoreInvariant sha256Hex lockKey jobs t := by
  cases act with
  | read i now =>
    simp only [appendStep] at taken
    split at taken
    · next attempt phase =>
      cases taken
      exact readHead_sound inv phase
    · cases taken
  | insert i =>
    simp only [appendStep] at taken
    split at taken
    · next attempt row phase => exact tryInsert_sound inv phase taken
    · cases taken
  | commit i =>
    simp only [appendStep] at taken
    split at taken
    · next row phase =>
      cases taken
      exact commitRow_sound inv phase
    · cases taken
  | abort i =>
    simp only [appendStep] at taken
    split at taken
    · cases taken
    · cases taken
    · next open_phase _ =>
      cases taken
      refine abort_sound inv ?_
      cases phase : s.phase i with
      | succeeded => exact absurd phase open_phase
      | _ => rfl

end Writers

/-- A commitment filed by each of two writers of one run. -/
def commitmentJob : RowBuilder :=
  appendSystemRow
    { run_id := "run", org_id := "org", ticket_id := none, «class» := .commitment,
      output := .object [("commitment_kind", .text "seed"), ("sha256", .text "0"),
        ("covers", .text "split"), ("committed_before", .text "run")],
      state_hash := "state", toolchain := .object [], split_id := none, ts := "2026-01-01" }

/-- The digest of the row that opens the run. -/
def commitmentDigest (_ : String) : String :=
  "7c40138d8ecf19f7f24af0a9520289dfc8e09e9e0760865d8ff8b61736105b53"

def commitmentRace : List (StoreAction Bool) :=
  [.read true "t", .read false "t", .insert true, .commit true, .insert false]

end LedgerDesk.Ledger
