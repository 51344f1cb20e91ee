import LedgerDesk.Agents.Fixed
import LedgerDesk.Ledger.Audit
import LedgerDesk.Ledger.Chain

/-!
# What a digest is taken over

The pre-image of a row is the hash of its predecessor and the canonical text of its columns,
one behind the other. The text begins with a brace, which no hash and no genesis mark has.
-/
namespace LedgerDesk.Ledger

open Foundation LedgerDesk.Agents

/-! ### Money -/

theorem formatAud_eq (micro : Int) : formatAud micro = fixedText 6 micro := by
  simp only [formatAud, fixedText, fixedBody, String.append_assoc]
  rfl

theorem readNumeral_formatAud (micro : Int) :
    readNumeral (formatAud micro).toList = (decide (micro < 0), micro.natAbs, -6) := by
  rw [formatAud_eq, readNumeral_fixedText (by decide)]
  rfl

theorem formatAud_injective {m n : Int} (same : formatAud m = formatAud n) : m = n := by
  have read := readNumeral_formatAud m
  rw [same, readNumeral_formatAud n] at read
  simp only [Prod.mk.injEq, decide_eq_decide] at read
  omega

/-! ### Columns -/

theorem LedgerClass.text_injective {a b : LedgerClass} (same : a.text = b.text) : a = b := by
  cases a <;> cases b <;> first | rfl | exact absurd same (by decide)

theorem AgentKind.text_injective {a b : AgentKind} (same : a.text = b.text) : a = b := by
  cases a <;> cases b <;> first | rfl | exact absurd same (by decide)

theorem nullableText_injective {a b : Option String} (same : nullableText a = nullableText b) :
    a = b := by
  cases a <;> cases b <;> simp_all [nullableText]

theorem nullableInt_injective {a b : Option Int} (same : nullableInt a = nullableInt b) :
    a = b := by
  cases a <;> cases b <;> simp_all [nullableInt]

@[simp] theorem nullableText_sorted (value : Option String) :
    (nullableText value).sorted = nullableText value := by
  cases value <;> simp [nullableText, Json.sorted]

@[simp] theorem nullableInt_sorted (value : Option Int) :
    (nullableInt value).sorted = nullableInt value := by
  cases value <;> simp [nullableInt, Json.sorted]

theorem nullableText_formed (value : Option String) : (nullableText value).WellFormed := by
  cases value <;> simp [nullableText, Json.WellFormed]

theorem nullableInt_formed (value : Option Int) : (nullableInt value).WellFormed := by
  cases value <;> simp [nullableInt, Json.WellFormed, JsNumber.Canonical]

/-- The JSON columns hold JSON values. -/
def LedgerRowContent.WellFormed (row : LedgerRowContent) : Prop :=
  (row.sampling.getD .null).WellFormed ∧ row.toolchain.WellFormed ∧ row.output.WellFormed

/-- The row with the keys of its JSON columns in order. No sampling is the same as a null one. -/
def LedgerRowContent.sorted (row : LedgerRowContent) : LedgerRowContent :=
  { row with
    sampling := some (row.sampling.getD .null).sorted
    toolchain := row.toolchain.sorted
    output := row.output.sorted }

theorem coveredColumns_keys (row : LedgerRowContent) :
    (coveredColumns row).map Prod.fst =
      ["run_id", "seq", "org_id", "ticket_id", "agent", "prompt_version_id", "model_requested",
        "model_returned", "sampling", "seed", "input_hash", "input_path", "prompt_hash",
        "response_hash", "state_hash", "split_id", "toolchain", "restarts", "tokens_in",
        "tokens_out", "cost_aud", "latency_ms", "cum_tokens", "class", "output", "confidence",
        "ts"] := rfl

theorem coveredColumns_distinct (row : LedgerRowContent) :
    ((coveredColumns row).map Prod.fst).Nodup := by
  rw [coveredColumns_keys]
  decide

theorem coveredColumns_formed {row : LedgerRowContent} (formed : row.WellFormed) :
    (Json.object (coveredColumns row)).WellFormed := by
  obtain ⟨sampling, toolchain, output⟩ := formed
  rw [Json.WellFormed]
  refine ⟨coveredColumns_distinct row, ?_⟩
  simp only [coveredColumns, Json.WellFormed.MembersFormed]
  simp [Json.WellFormed, JsNumber.Canonical, nullableText_formed, nullableInt_formed, sampling,
    toolchain, output]

/-- Members of the same keys in the same order, told by the sorted object they make. -/
theorem members_of_sorted {members members' : List (String × Json)}
    (keys : members.map Prod.fst = members'.map Prod.fst) (distinct : (members.map Prod.fst).Nodup)
    (same : (Json.object members).sorted = (Json.object members').sorted) :
    (members.map fun m => (m.1, m.2.sorted)) = members'.map fun m => (m.1, m.2.sorted) := by
  have firsts : ∀ ms : List (String × Json),
      (ms.map fun m => (m.1, m.2.sorted)).map Prod.fst = ms.map Prod.fst := by
    intro ms
    rw [List.map_map]
    rfl
  have perm := (Json.sorted_object_iff distinct).mp same
  exact eq_of_same_keys (by rw [firsts, firsts, keys]) (by rwa [firsts])
    fun m member => perm.mem_iff.mp member

theorem coveredColumns_sorted_iff {row row' : LedgerRowContent} :
    (Json.object (coveredColumns row)).sorted = (Json.object (coveredColumns row')).sorted ↔
      row.sorted = row'.sorted := by
  constructor
  · intro same
    have columns := members_of_sorted (by rw [coveredColumns_keys, coveredColumns_keys])
      (coveredColumns_distinct row) same
    simp only [coveredColumns, List.map_cons, List.map_nil, List.cons.injEq, Prod.mk.injEq,
      true_and, and_true, Json.sorted, nullableText_sorted, nullableInt_sorted, Json.text.injEq,
      Json.number.injEq, JsNumber.integer.injEq, Int.natCast_inj] at columns
    obtain ⟨run, seq, org, ticket, agent, version, requested, returned, sampling, seed, input_hash,
      input_path, prompt, response, state, split, toolchain, restarts, tokens_in, tokens_out, cost,
      latency, cum, «class», output, confidence, ts⟩ := columns
    simp only [LedgerRowContent.sorted, LedgerRowContent.mk.injEq, Option.some.injEq]
    exact ⟨run, seq, org, nullableText_injective ticket, AgentKind.text_injective agent,
      nullableText_injective version, nullableText_injective requested,
      nullableText_injective returned, sampling, nullableInt_injective seed,
      nullableText_injective input_hash, nullableText_injective input_path,
      nullableText_injective prompt, nullableText_injective response, state,
      nullableText_injective split, toolchain, restarts, tokens_in, tokens_out,
      formatAud_injective cost, latency, cum, LedgerClass.text_injective «class», output,
      nullableText_injective confidence, ts⟩
  · intro same
    simp only [LedgerRowContent.sorted, LedgerRowContent.mk.injEq, Option.some.injEq] at same
    rw [Json.sorted_object_iff (coveredColumns_distinct row)]
    simp only [coveredColumns, List.map_cons, List.map_nil, nullableText_sorted,
      nullableInt_sorted, same, List.Perm.refl]

/-! ### The audit event -/

def AuditEventContent.WellFormed (row : AuditEventContent) : Prop := row.detail.WellFormed

def AuditEventContent.sorted (row : AuditEventContent) : AuditEventContent :=
  { row with detail := row.detail.sorted }

theorem auditColumns_keys (row : AuditEventContent) :
    (auditColumns row).map Prod.fst =
      ["org_id", "actor_id", "action", "object_type", "object_id", "detail", "ts"] := rfl

theorem auditColumns_distinct (row : AuditEventContent) :
    ((auditColumns row).map Prod.fst).Nodup := by
  rw [auditColumns_keys]
  decide

theorem auditColumns_formed {row : AuditEventContent} (formed : row.WellFormed) :
    (Json.object (auditColumns row)).WellFormed := by
  rw [AuditEventContent.WellFormed] at formed
  rw [Json.WellFormed]
  refine ⟨auditColumns_distinct row, ?_⟩
  simp only [auditColumns, Json.WellFormed.MembersFormed]
  simp [Json.WellFormed, nullableText_formed, formed]

theorem auditColumns_sorted_iff {row row' : AuditEventContent} :
    (Json.object (auditColumns row)).sorted = (Json.object (auditColumns row')).sorted ↔
      row.sorted = row'.sorted := by
  constructor
  · intro same
    have columns := members_of_sorted (by rw [auditColumns_keys, auditColumns_keys])
      (auditColumns_distinct row) same
    simp only [auditColumns, List.map_cons, List.map_nil, List.cons.injEq, Prod.mk.injEq,
      true_and, and_true, Json.sorted, nullableText_sorted, Json.text.injEq] at columns
    obtain ⟨org, actor, action, object_type, object_id, detail, ts⟩ := columns
    simp only [AuditEventContent.sorted, AuditEventContent.mk.injEq]
    exact ⟨org, nullableText_injective actor, action, object_type, object_id, detail, ts⟩
  · intro same
    simp only [AuditEventContent.sorted, AuditEventContent.mk.injEq] at same
    rw [Json.sorted_object_iff (auditColumns_distinct row)]
    simp only [auditColumns, List.map_cons, List.map_nil, nullableText_sorted, same,
      List.Perm.refl]

/-! ### Pre-images -/

/-- The two forms of a predecessor's hash: the mark that opens a chain, or a digest. -/
def ChainHash (hash : String) : Prop := hash = genesis ∨ isHex64 hash = true

theorem ChainHash.no_brace {hash : String} (form : ChainHash hash) : '\x7b' ∉ hash.toList := by
  rcases form with rfl | digest
  · decide
  · intro member
    rw [isHex64, Bool.and_eq_true, List.all_eq_true] at digest
    exact absurd (digest.2 _ member) (by decide)

theorem object_preimage_iff {prev prev' : String} {columns columns' : List (String × Json)}
    (form : ChainHash prev) (form' : ChainHash prev') (formed : (Json.object columns).WellFormed)
    (formed' : (Json.object columns').WellFormed) :
    prev ++ canonicalJson (.object columns) = prev' ++ canonicalJson (.object columns') ↔
      prev = prev' ∧ (Json.object columns).sorted = (Json.object columns').sorted := by
  rw [← canonicalJson_eq_iff formed formed']
  constructor
  · exact object_text_told form.no_brace form'.no_brace
  · rintro ⟨rfl, same⟩
    rw [same]

theorem row_preimage_iff {prev prev' : String} {row row' : LedgerRowContent}
    (form : ChainHash prev) (form' : ChainHash prev') (formed : row.WellFormed)
    (formed' : row'.WellFormed) :
    prev ++ canonicalRow row = prev' ++ canonicalRow row' ↔
      prev = prev' ∧ row.sorted = row'.sorted := by
  rw [canonicalRow, canonicalRow, ← coveredColumns_sorted_iff]
  exact object_preimage_iff form form' (coveredColumns_formed formed)
    (coveredColumns_formed formed')

theorem audit_preimage_iff {prev prev' : String} {row row' : AuditEventContent}
    (form : ChainHash prev) (form' : ChainHash prev') (formed : row.WellFormed)
    (formed' : row'.WellFormed) :
    prev ++ canonicalAuditRow row = prev' ++ canonicalAuditRow row' ↔
      prev = prev' ∧ row.sorted = row'.sorted := by
  rw [canonicalAuditRow, canonicalAuditRow, ← auditColumns_sorted_iff]
  exact object_preimage_iff form form' (auditColumns_formed formed) (auditColumns_formed formed')

section Digest

variable (sha256Hex : String → String)

/-- A row as it stands in `ledger_entry`: its hashes have their form, and its own verifies. -/
structure ChainedRow.Stands (row : ChainedRow) : Prop where
  formed : row.WellFormed
  shape : ledgerHashShape row = true
  verifies : verifyRowHash sha256Hex row = true

def ChainedRow.preimage (row : ChainedRow) : String :=
  row.prev_hash ++ canonicalRow row.toLedgerRowContent

/-- An event as it stands in `audit_event`. -/
structure ChainedAuditEvent.Stands (row : ChainedAuditEvent) : Prop where
  formed : row.WellFormed
  shape : auditHashShape row = true
  verifies : verifyAuditRowHash sha256Hex row = true

def ChainedAuditEvent.preimage (row : ChainedAuditEvent) : String :=
  row.prev_hash ++ canonicalAuditRow row.toAuditEventContent

variable {sha256Hex}

theorem ChainedRow.Stands.prev_form {row : ChainedRow} (stands : row.Stands sha256Hex) :
    ChainHash row.prev_hash := by
  have shape := stands.shape
  simp only [ledgerHashShape, Bool.and_eq_true, Bool.or_eq_true, beq_iff_eq] at shape
  exact shape.1.2

theorem ChainedRow.Stands.row_hash_eq {row : ChainedRow} (stands : row.Stands sha256Hex) :
    sha256Hex row.preimage = row.row_hash := by
  have verifies := stands.verifies
  simp only [verifyRowHash, Bool.and_eq_true, beq_iff_eq] at verifies
  exact verifies.2

theorem ChainedAuditEvent.Stands.prev_form {row : ChainedAuditEvent}
    (stands : row.Stands sha256Hex) : ChainHash row.prev_hash := by
  have shape := stands.shape
  simp only [auditHashShape, Bool.and_eq_true, Bool.or_eq_true, beq_iff_eq] at shape
  exact shape.1.2

theorem ChainedAuditEvent.Stands.row_hash_eq {row : ChainedAuditEvent}
    (stands : row.Stands sha256Hex) : sha256Hex row.preimage = row.row_hash := by
  have verifies := stands.verifies
  simp only [verifyAuditRowHash, Bool.and_eq_true, beq_iff_eq] at verifies
  exact verifies.2

/-- Where no two pre-images collide, one hash is of one row. -/
theorem same_row_of_same_hash {row row' : ChainedRow} (stands : row.Stands sha256Hex)
    (stands' : row'.Stands sha256Hex)
    (collision_free : sha256Hex row.preimage = sha256Hex row'.preimage →
      row.preimage = row'.preimage)
    (same : row.row_hash = row'.row_hash) :
    row.prev_hash = row'.prev_hash ∧ row.sorted = row'.sorted := by
  rw [← stands.row_hash_eq, ← stands'.row_hash_eq] at same
  exact (row_preimage_iff stands.prev_form stands'.prev_form stands.formed stands'.formed).mp
    (collision_free same)

theorem same_event_of_same_hash {row row' : ChainedAuditEvent} (stands : row.Stands sha256Hex)
    (stands' : row'.Stands sha256Hex)
    (collision_free : sha256Hex row.preimage = sha256Hex row'.preimage →
      row.preimage = row'.preimage)
    (same : row.row_hash = row'.row_hash) :
    row.prev_hash = row'.prev_hash ∧ row.sorted = row'.sorted := by
  rw [← stands.row_hash_eq, ← stands'.row_hash_eq] at same
  exact (audit_preimage_iff stands.prev_form stands'.prev_form stands.formed stands'.formed).mp
    (collision_free same)

end Digest

/-- Canonical JSON tells values apart up to the order of their keys; the pre-image of a row tells
its predecessor and its columns; and where the digest has no collision among the pre-images of the
rows that stand, two rows of one hash have one predecessor and one content. -/
theorem preimage_injective (sha256Hex : String → String) :
    (∀ v w : Json, v.WellFormed → w.WellFormed →
      (canonicalJson v = canonicalJson w ↔ v.sorted = w.sorted)) ∧
    (∀ (prev prev' : String) (row row' : LedgerRowContent), ChainHash prev → ChainHash prev' →
      row.WellFormed → row'.WellFormed →
      (prev ++ canonicalRow row = prev' ++ canonicalRow row' ↔
        prev = prev' ∧ row.sorted = row'.sorted)) ∧
    (∀ rows : Set ChainedRow, (∀ row ∈ rows, row.Stands sha256Hex) →
      Set.InjOn sha256Hex (Set.image ChainedRow.preimage rows) →
      ∀ row ∈ rows, ∀ row' ∈ rows, row.row_hash = row'.row_hash →
        row.prev_hash = row'.prev_hash ∧ row.sorted = row'.sorted) ∧
    ∀ events : Set ChainedAuditEvent, (∀ event ∈ events, event.Stands sha256Hex) →
      Set.InjOn sha256Hex (Set.image ChainedAuditEvent.preimage events) →
      ∀ event ∈ events, ∀ event' ∈ events, event.row_hash = event'.row_hash →
        event.prev_hash = event'.prev_hash ∧ event.sorted = event'.sorted := by
  refine ⟨fun v w => canonicalJson_eq_iff, fun prev prev' row row' => row_preimage_iff, ?_, ?_⟩
  · intro rows stand collision_free row member row' member' same
    exact same_row_of_same_hash (stand row member) (stand row' member')
      (collision_free (Set.mem_image_of_mem _ member) (Set.mem_image_of_mem _ member')) same
  · intro events stand collision_free event member event' member' same
    exact same_event_of_same_hash (stand event member) (stand event' member')
      (collision_free (Set.mem_image_of_mem _ member) (Set.mem_image_of_mem _ member')) same

/-- A row that files the commitment at a head, under its hash. -/
def commitmentRow (head : Option LedgerHead) (row_hash : String) : ChainedRow where
  toLedgerRowContent := commitmentJob.build "t" head
  prev_hash := (head.map LedgerHead.row_hash).getD genesis
  row_hash

def firstHash : String := "7c40138d8ecf19f7f24af0a9520289dfc8e09e9e0760865d8ff8b61736105b53"

def secondHash : String := "3092468f6a5f960527e0befaf4a72eae7fa663b9e7620ba540509622071cf61e"

def firstCommitment : ChainedRow := commitmentRow none firstHash

def secondCommitment : ChainedRow := commitmentRow (some firstCommitment.head) secondHash

/-- The digests of the two pre-images. -/
def commitmentsDigest (text : String) : String :=
  if text = firstCommitment.preimage then firstHash else secondHash

theorem commitmentRow_formed (head : Option LedgerHead) (row_hash : String) :
    (commitmentRow head row_hash).WellFormed := by
  refine ⟨?_, ?_, ?_⟩
  · change Json.null.WellFormed
    simp [Json.WellFormed]
  · change (Json.object []).WellFormed
    simp [Json.WellFormed, Json.WellFormed.MembersFormed]
  · change (Json.object [("commitment_kind", .text "seed"), ("sha256", .text "0"),
      ("covers", .text "split"), ("committed_before", .text "run")]).WellFormed
    simp [Json.WellFormed, Json.WellFormed.MembersFormed]

theorem firstCommitment_stands : firstCommitment.Stands commitmentsDigest where
  formed := commitmentRow_formed none firstHash
  shape := by decide +kernel
  verifies := by
    have digest : commitmentsDigest firstCommitment.preimage = firstHash := by
      rw [commitmentsDigest, if_pos rfl]
    rw [verifyRowHash, rowHash, ← ChainedRow.preimage, digest]
    decide +kernel

theorem secondCommitment_stands : secondCommitment.Stands commitmentsDigest where
  formed := commitmentRow_formed (some firstCommitment.head) secondHash
  shape := by decide +kernel
  verifies := by
    have told : secondCommitment.preimage ≠ firstCommitment.preimage := by
      intro same
      have prev := ((row_preimage_iff (.inr (by decide +kernel)) (.inl rfl)
        (commitmentRow_formed _ _) (commitmentRow_formed _ _)).mp same).1
      exact absurd prev (by decide +kernel)
    have digest : commitmentsDigest secondCommitment.preimage = secondHash := by
      rw [commitmentsDigest, if_neg told]
    rw [verifyRowHash, rowHash, ← ChainedRow.preimage, digest]
    decide +kernel

theorem commitments_told_by_hash :
    firstCommitment.Stands commitmentsDigest ∧ secondCommitment.Stands commitmentsDigest ∧
      (firstCommitment.row_hash = secondCommitment.row_hash →
        firstCommitment.prev_hash = secondCommitment.prev_hash ∧
          firstCommitment.sorted = secondCommitment.sorted) := by
  have stand : ∀ row ∈ ({firstCommitment, secondCommitment} : Set ChainedRow),
      row.Stands commitmentsDigest := by
    rintro row (rfl | rfl)
    · exact firstCommitment_stands
    · exact secondCommitment_stands
  have collision_free : Set.InjOn commitmentsDigest
      (Set.image ChainedRow.preimage {firstCommitment, secondCommitment}) := by
    rintro _ ⟨row, rfl | rfl, rfl⟩ _ ⟨row', rfl | rfl, rfl⟩ same
    · rfl
    · exact absurd (firstCommitment_stands.row_hash_eq.symm.trans
        (same.trans secondCommitment_stands.row_hash_eq)) (by decide)
    · exact absurd (secondCommitment_stands.row_hash_eq.symm.trans
        (same.trans firstCommitment_stands.row_hash_eq)) (by decide)
    · rfl
  refine ⟨firstCommitment_stands, secondCommitment_stands, ?_⟩
  exact (preimage_injective commitmentsDigest).2.2.1 {firstCommitment, secondCommitment} stand
    collision_free firstCommitment (.inl rfl) secondCommitment (.inr rfl)

end LedgerDesk.Ledger
