import LedgerDesk.Foundation.AppendLog
import LedgerDesk.Pipeline.Unit

/-!
# The audit chain of an organisation

A row is linked to a head that may have moved since, and its number may have been drawn before
another's that was inserted first. The trigger and the index let it in only where it continues the
chain, and then its number is the highest there is.
-/
namespace LedgerDesk.Pipeline

open Foundation Ledger

variable {sha256Hex : String → String}

/-- The row continues the rows before it. -/
structure Continues (sha256Hex : String → String) (before : List AuditRow) (row : AuditRow) :
    Prop where
  prev : row.prev_hash = (before.getLast?.map fun last => last.row_hash).getD auditGenesis
  digest : row.row_hash = auditRowHash sha256Hex row.prev_hash row.toAuditEventContent
  later : ∀ r ∈ before, r.id < row.id

/-- The rows are one chain of the organisation from `GENESIS`, in the order of their numbers. -/
structure Linear (sha256Hex : String → String) (org_id : String) (rows : List AuditRow) :
    Prop where
  chain : Positioned (Continues sha256Hex) rows
  own : ∀ r ∈ rows, r.org_id = org_id

/-- The row names a head that stood in the chain when numbers were below the bound. -/
def Rooted (rows : List AuditRow) (bound : Nat) (row : ChainedAuditEvent) : Prop :=
  row.prev_hash = auditGenesis ∨ ∃ r ∈ rows, r.row_hash = row.prev_hash ∧ r.id < bound

theorem Linear.nil {org_id : String} : Linear sha256Hex org_id [] := ⟨.nil, by simp⟩

theorem Linear.of_prefix {org_id : String} {rows more : List AuditRow}
    (linear : Linear sha256Hex org_id more) (grown : rows <+: more) :
    Linear sha256Hex org_id rows := by
  obtain ⟨rest, rfl⟩ := grown
  constructor
  · intro before row after cut
    exact linear.chain before row (after ++ rest) (by simp [cut])
  · intro r member
    exact linear.own r (List.mem_append_left rest member)

variable {rows more : List AuditRow} {row : ChainedAuditEvent} {bound bound' : Nat}
  {org_id : String}

theorem Rooted.mono (rooted : Rooted rows bound row) (grown : rows <+: more)
    (le : bound ≤ bound') : Rooted more bound' row := by
  rcases rooted with genesis | ⟨r, member, hash, below⟩
  · exact .inl genesis
  · exact .inr ⟨r, grown.subset member, hash, by omega⟩

theorem auditHead_eq_getLast? (chain : Positioned (Continues sha256Hex) rows) :
    auditHead rows = rows.getLast? := by
  rcases List.eq_nil_or_concat' rows with rfl | ⟨before, last, rfl⟩
  · rfl
  · have later := chain.last.later
    rw [auditHead, List.argmax_concat, List.getLast?_append]
    cases best : before.argmax AuditRow.id with
    | none => rfl
    | some r =>
      have below := later r (List.argmax_mem (Option.mem_def.mpr best))
      simp [below]

/-- The first row of a chain, and the successor of any other, is a child of its head. -/
theorem isSecondChild_of_rooted (chain : Positioned (Continues sha256Hex) rows)
    (genesis : row.prev_hash = auditGenesis) (filled : rows ≠ []) :
    isSecondChild rows row = true := by
  cases rows with
  | nil => exact absurd rfl filled
  | cons first rest =>
    have opens := (chain [] first rest rfl).prev
    apply List.any_eq_true.mpr
    exact ⟨first, List.mem_cons_self, by simp [opens, genesis]⟩

theorem last_of_childless (chain : Positioned (Continues sha256Hex) rows) {r : AuditRow}
    (member : r ∈ rows) (hash : r.row_hash = row.prev_hash)
    (childless : isSecondChild rows row = false) : ∃ before, rows = before ++ [r] := by
  obtain ⟨before, after, rfl⟩ := List.append_of_mem member
  cases after with
  | nil => exact ⟨before, rfl⟩
  | cons next after =>
    have follows := (chain (before ++ [r]) next after (by simp)).prev
    have second : isSecondChild (before ++ r :: next :: after) row = true := by
      apply List.any_eq_true.mpr
      refine ⟨next, by simp, ?_⟩
      simp [follows, hash]
    rw [second] at childless
    cases childless

/-- What the index lets in has the highest number. -/
theorem id_lt_of_childless (chain : Positioned (Continues sha256Hex) rows)
    (rooted : Rooted rows bound row) (childless : isSecondChild rows row = false) :
    ∀ r ∈ rows, r.id < bound := by
  rcases rooted with genesis | ⟨head, member, hash, below⟩
  · have empty : rows = [] := by
      by_contra filled
      rw [isSecondChild_of_rooted chain genesis filled] at childless
      cases childless
    simp [empty]
  · obtain ⟨before, rfl⟩ := last_of_childless chain member hash childless
    intro r among
    rcases List.mem_append.mp among with earlier | latest
    · have less := chain.last.later r earlier
      omega
    · rw [List.mem_singleton] at latest
      subst latest
      exact below

/-- A row that is let in continues the chain. -/
theorem Linear.append {id : Nat} (linear : Linear sha256Hex org_id rows)
    (own : row.org_id = org_id)
    (digest : row.row_hash = auditRowHash sha256Hex row.prev_hash row.toAuditEventContent)
    (rooted : Rooted rows id row) (links : linksToHead rows row = true)
    (childless : isSecondChild rows row = false) :
    Linear sha256Hex org_id (rows ++ [{ row with id }]) := by
  have prev : row.prev_hash = (rows.getLast?.map fun last => last.row_hash).getD auditGenesis := by
    rw [linksToHead, auditHead_eq_getLast? linear.chain] at links
    exact of_decide_eq_true links
  constructor
  · exact linear.chain.concat ⟨prev, digest, id_lt_of_childless linear.chain rooted childless⟩
  · intro r member
    rcases List.mem_append.mp member with old | new
    · exact linear.own r old
    · rw [List.mem_singleton] at new
      subst new
      exact own

/-- The head a session reads roots the row it links to it. -/
theorem rooted_of_head (rows : List AuditRow) (content : AuditEventContent)
    (counted : ∀ r ∈ rows, r.id < bound) :
    Rooted rows bound
      (linkAuditRow sha256Hex content ((auditHead rows).map fun head => head.row_hash)) := by
  cases head : auditHead rows with
  | none => exact .inl rfl
  | some r =>
    have member : r ∈ rows := List.argmax_mem (Option.mem_def.mpr head)
    exact .inr ⟨r, member, rfl, counted r member⟩

end LedgerDesk.Pipeline
