import LedgerDesk.Durable.Tables

/-!
# Durable capacity is conserved

Every reservation is the one its attempt and output call for, and a capacity row charges what is
stored. An insert with its trigger keeps both, over what its transaction sees; that they hold of
what is committed follows from the capacity rows.
-/
namespace LedgerDesk.Durable

open Foundation Foundation.CounterRow

/-! ### Extraction -/

/-- What the constraints of the attempts and the outputs keep. -/
structure Stored (attempts : List Attempt) (outputs : List Output) : Prop where
  attempts_apart : (attempts.map Attempt.key).Nodup
  outputs_apart : (outputs.map Output.key).Nodup
  associated : ∀ o ∈ outputs, ∃ a ∈ attempts, a.key = o.key

structure Accounted (e : Extraction) : Prop extends Stored e.attempts e.outputs where
  reservations_eq : e.reservations = e.attempts.map (backfilled e.outputs)
  charged_eq : e.capacity.charged_bytes = (e.reservations.map (·.charged_bytes)).sum
  within : e.capacity.charged_bytes ≤ e.capacity.capacity_bytes

theorem backfilled_key (outputs : List Output) (a : Attempt) : (backfilled outputs a).key = a.key := by
  rw [backfilled]
  split <;> rfl

theorem backfilled_charged (outputs : List Output) (a : Attempt) :
    (backfilled outputs a).charged_bytes = chargeOf outputs a := by
  rw [backfilled, chargeOf]
  split <;> rfl

/-- An attempt without an output holds its whole claim. -/
theorem backfilled_of_none {outputs : List Output} {a : Attempt}
    (none : ∀ o ∈ outputs, o.key ≠ a.key) :
    backfilled outputs a = ⟨a.job_id, a.attempt_generation, 58720256, 58720256, .reserved⟩ := by
  have missed : outputs.find? (fun o => decide (o.key = a.key)) = Option.none :=
    List.find?_eq_none.mpr fun o member => by simpa using none o member
  rw [backfilled, missed]

theorem backfilled_concat {outputs : List Output} {o : Output}
    (fresh : ∀ old ∈ outputs, old.key ≠ o.key) (a : Attempt) :
    backfilled (outputs ++ [o]) a =
      if a.key = o.key then { backfilled outputs a with state := .durable, charged_bytes := o.bytes }
      else backfilled outputs a := by
  by_cases same : a.key = o.key
  · have none : ∀ old ∈ outputs, old.key ≠ a.key := by
      rw [same]
      exact fresh
    have missed : outputs.find? (fun old => decide (old.key = a.key)) = Option.none :=
      List.find?_eq_none.mpr fun old member => by simpa using none old member
    rw [if_pos same, backfilled_of_none none, backfilled, List.find?_append, missed]
    simp [same]
  · have passed : [o].find? (fun old => decide (old.key = a.key)) = Option.none := by
      simpa using fun other => same other.symm
    rw [if_neg same, backfilled, List.find?_append, passed, Option.or_none, backfilled]

theorem installExtraction_accounted {attempts : List Attempt} {outputs : List Output}
    {e : Extraction} (stored : Stored attempts outputs)
    (installed : installExtraction attempts outputs = some e) : Accounted e := by
  rw [installExtraction] at installed
  dsimp only at installed
  split at installed
  · next permitted =>
    cases installed
    rw [ExtractionCapacity.permits, Bool.and_eq_true, decide_eq_true_iff, decide_eq_true_iff]
      at permitted
    exact { toStored := stored, reservations_eq := rfl, charged_eq := rfl, within := permitted.2 }
  · cases installed

theorem Attempt.allowed_fresh {e : Extraction} {a : Attempt} (allowed : a.allowed e = true) :
    ∀ old ∈ e.attempts, old.key ≠ a.key := by
  intro old member
  rw [Attempt.allowed, Bool.and_eq_true] at allowed
  have apart := List.all_eq_true.mp allowed.2 old member
  simp only [Bool.and_eq_true, bne_iff_ne] at apart
  exact apart.1.1.1.1

theorem Output.allowed_fresh {e : Extraction} {o : Output} (allowed : o.allowed e = true) :
    ∀ old ∈ e.outputs, old.key ≠ o.key := by
  intro old member
  rw [Output.allowed, Bool.and_eq_true] at allowed
  have apart := List.all_eq_true.mp allowed.2 old member
  simp only [Bool.and_eq_true, bne_iff_ne] at apart
  exact apart.1.1.1.2

theorem Output.allowed_associated {e : Extraction} {o : Output} (allowed : o.allowed e = true) :
    ∃ a ∈ e.attempts, a.key = o.key := by
  rw [Output.allowed, Bool.and_eq_true, Bool.and_eq_true] at allowed
  obtain ⟨a, member, same⟩ := List.any_eq_true.mp allowed.1.2
  rw [Bool.and_eq_true, beq_iff_eq] at same
  exact ⟨a, member, same.1⟩

/-- A claim adds its attempt with one reservation of the whole claim, charged. -/
theorem claim_accounted {e : Extraction} {a : Attempt} {ws : List ExtractionWrite}
    (accounted : Accounted e) (comes : e.statement (.claim a) = some ws) :
    Accounted (ws.foldl Extraction.write e) := by
  rw [Extraction.statement] at comes
  split at comes
  · next allowed =>
    have fresh := Attempt.allowed_fresh allowed
    rw [reserve_extraction_capacity] at comes
    split at comes
    · next fits =>
      simp only [Bool.and_eq_true, ExtractionCapacity.permits, decide_eq_true_iff] at fits
      cases comes
      have unsettled : ∀ o ∈ e.outputs, o.key ≠ a.key := by
        intro o member same
        obtain ⟨old, held, key⟩ := accounted.associated o member
        exact fresh old held (key.trans same)
      refine ⟨⟨?_, accounted.outputs_apart, ?_⟩, ?_, ?_, fits.1.2.2⟩
      · exact Rows.nodup_concat accounted.attempts_apart fresh
      · intro o member
        obtain ⟨old, held, key⟩ := accounted.associated o member
        exact ⟨old, List.mem_append_left _ held, key⟩
      · change e.reservations ++ [_] = (e.attempts ++ [a]).map (backfilled e.outputs)
        rw [List.map_append, List.map_singleton, backfilled_of_none unsettled,
          accounted.reservations_eq]
      · change e.capacity.charged_bytes + 58720256 = ((e.reservations ++ [_]).map _).sum
        rw [List.map_append, List.sum_append, ← accounted.charged_eq]
        simp
    · cases comes
  · cases comes

/-- The reservation that an output finds is its attempt's, and holds the whole claim. -/
theorem Accounted.found {e : Extraction} (accounted : Accounted e) {o : Output} {held : Reservation}
    (fresh : ∀ old ∈ e.outputs, old.key ≠ o.key)
    (found : e.reservations.find? (fun r => decide (r.key = o.key)) = some held) :
    held ∈ e.reservations ∧ held.key = o.key ∧ held.charged_bytes = 58720256 := by
  have key : held.key = o.key := by simpa using List.find?_some found
  have member := List.mem_of_find?_eq_some found
  refine ⟨member, key, ?_⟩
  rw [accounted.reservations_eq] at member
  obtain ⟨a, -, rfl⟩ := List.mem_map.mp member
  rw [backfilled_key] at key
  rw [backfilled_of_none]
  rw [key]
  exact fresh

theorem Accounted.reservations_apart {e : Extraction} (accounted : Accounted e) :
    (e.reservations.map Reservation.key).Nodup := by
  have keys : e.reservations.map Reservation.key = e.attempts.map Attempt.key := by
    rw [accounted.reservations_eq, List.map_map]
    exact List.map_congr_left fun a _ => backfilled_key e.outputs a
  rw [keys]
  exact accounted.attempts_apart

/-- An output replaces its attempt's claim by its own bytes. -/
theorem store_accounted {e : Extraction} {o : Output} {ws : List ExtractionWrite}
    (accounted : Accounted e) (comes : e.statement (.store o) = some ws) :
    Accounted (ws.foldl Extraction.write e) := by
  rw [Extraction.statement] at comes
  split at comes
  · next allowed =>
    have fresh := Output.allowed_fresh allowed
    have own := Output.allowed_associated allowed
    rw [settle_extraction_capacity] at comes
    split at comes
    · cases comes
    · next held found =>
      obtain ⟨member, key, whole⟩ := accounted.found fresh found
      split at comes
      · cases comes
      · split at comes
        · next fits =>
          simp only [Bool.and_eq_true, ExtractionCapacity.permits, decide_eq_true_iff] at fits
          cases comes
          refine ⟨⟨accounted.attempts_apart, ?_, ?_⟩, ?_, ?_, fits.1.2⟩
          · exact Rows.nodup_concat accounted.outputs_apart fresh
          · intro other stored
            rcases List.mem_append.mp stored with before | new
            · exact accounted.associated other before
            · rw [List.mem_singleton.mp new]
              exact own
          · change Rows.update _ _ e.reservations = e.attempts.map (backfilled (e.outputs ++ [o]))
            rw [accounted.reservations_eq, Rows.update, List.map_map]
            apply List.map_congr_left
            intro a _
            rw [backfilled_concat fresh, Function.comp_apply, backfilled_key]
            simp
          · let set := fun r : Reservation => { r with state := .durable, charged_bytes := o.bytes }
            have moved : ((Rows.update (fun r => r.key = held.key) set e.reservations).map
                (·.charged_bytes)).sum = (e.reservations.map (·.charged_bytes)).sum -
                  held.charged_bytes + (set held).charged_bytes :=
              Rows.sum_update_of_key accounted.reservations_apart member (·.charged_bytes)
            rw [key] at moved
            change e.capacity.charged_bytes - held.charged_bytes + o.bytes = _
            rw [accounted.charged_eq]
            exact moved.symm
        · cases comes
  · cases comes

/-! ### Preparation -/

def Preparation.kept (p : Preparation) : Int :=
  (p.stages.map fun s => (s.body.length : Int)).sum +
    (p.preparations.map fun row => (row.payload.length : Int)).sum +
    (p.resources.map fun r => (r.body.length : Int)).sum

structure Charged (p : Preparation) : Prop where
  charged_eq : p.charged_bytes = p.kept
  within : p.charged_bytes ≤ 67108864

theorem length_of_stores {bytes : Int} {body : Bytes} (stored : stores bytes body = true) :
    (body.length : Int) = bytes := by
  rw [stores, Bool.and_eq_true, beq_iff_eq] at stored
  exact stored.2

/-- An insert that passes was charged, and its row is within its constraints. -/
theorem charging_some {p : Preparation} {bytes : Int} {allowed : Bool} {row : PreparationWrite}
    {ws : List PreparationWrite} (comes : charging p bytes allowed row = some ws) :
    p.charged_bytes + bytes ≤ 67108864 ∧ allowed = true ∧
      ws = [.charged (p.charged_bytes + bytes), row] := by
  rw [charging, charge_preparation_bytes] at comes
  split at comes
  · cases comes
  · next charged fits =>
    split at fits
    · next room =>
      simp only [Bool.and_eq_true, decide_eq_true_iff] at room
      cases fits
      split at comes
      · next passes =>
        cases comes
        exact ⟨room.2, passes, rfl⟩
      · cases comes
    · cases fits

variable {byteDigest : Bytes → String}

theorem statement_charged {p : Preparation} {s : PreparationStatement} {ws : List PreparationWrite}
    (charged : Charged p) (comes : p.statement byteDigest s = some ws) :
    Charged (ws.foldl Preparation.write p) := by
  obtain ⟨charged_eq, within⟩ := charged
  rw [Preparation.kept] at charged_eq
  cases s with
  | stage row =>
    obtain ⟨room, passes, rfl⟩ := charging_some comes
    rw [Stage.allowed, Bool.and_eq_true, Bool.and_eq_true] at passes
    have length := length_of_stores passes.1.2
    refine ⟨?_, room⟩
    simp [Preparation.write, Preparation.kept, length]
    omega
  | preparation row =>
    obtain ⟨room, passes, rfl⟩ := charging_some comes
    rw [Prepared.allowed, Bool.and_eq_true, Bool.and_eq_true] at passes
    have length := length_of_stores passes.1.2
    refine ⟨?_, room⟩
    simp [Preparation.write, Preparation.kept, length]
    omega
  | resource row =>
    rw [Preparation.statement] at comes
    split at comes
    · cases comes
    · split at comes
      · -- The resource is retained: nothing is inserted, and no trigger fires.
        split at comes
        · cases comes
        · cases comes
          exact ⟨charged_eq, within⟩
      · obtain ⟨room, passes, rfl⟩ := charging_some comes
        rw [Resource.allowed, Bool.and_eq_true, Bool.and_eq_true] at passes
        have length := length_of_stores passes.1.2
        refine ⟨?_, room⟩
        simp [Preparation.write, Preparation.kept, length]
        omega

/-! ### Every run -/

def Good : ∀ k, Tables k → Prop
  | .extraction => Accounted
  | .preparation => Charged

theorem statement_good (k : Account) (d : Tables k) (s : Statement k) (ws : List (Write k))
    (good : Good k d) (comes : (database byteDigest).statement k d s = some ws) :
    Good k ((database byteDigest).replay k d ws) := by
  cases k with
  | extraction =>
    cases s with
    | claim row => exact claim_accounted good comes
    | store row => exact store_accounted good comes
  | preparation => exact statement_charged good comes

theorem installed_good {e : Extraction} (accounted : Accounted e) : ∀ k, Good k (installed e k)
  | .extraction => accounted
  | .preparation => ⟨rfl, show (0 : Int) ≤ 67108864 by decide⟩

/-- The attempt has exactly one reservation, which is charged what it should be. -/
theorem Accounted.reservation {e : Extraction} (accounted : Accounted e) {a : Attempt}
    (member : a ∈ e.attempts) :
    ∃ r, (e.reservations.filter fun r => r.key = a.key) = [r] ∧
      r.charged_bytes = chargeOf e.outputs a := by
  refine ⟨backfilled e.outputs a, ?_, backfilled_charged e.outputs a⟩
  have held : backfilled e.outputs a ∈ e.reservations := by
    rw [accounted.reservations_eq]
    exact List.mem_map_of_mem member
  have key := backfilled_key e.outputs a
  rw [← key]
  exact Rows.filter_of_key accounted.reservations_apart held

variable {ι : Type*} [DecidableEq ι]

/-- Over any interleaving of claims, outputs, stages, payloads and resources, with their
rollbacks: what is charged is what is claimed or stored, and within the capacity. -/
theorem durable_capacity_conserved (byteDigest : Bytes → String) {attempts : List Attempt}
    {outputs : List Output} {e : Extraction} (stored : Stored attempts outputs)
    (install : installExtraction attempts outputs = some e)
    {ts : List (Transition (World ι Account Tables Write) (Act ι Account Statement))}
    {w : World ι Account Tables Write}
    (run : Run (step (database byteDigest)) (worldStart (installed e)) ts w) :
    let extraction : Extraction := w.store .extraction
    let preparation : Preparation := w.store .preparation
    (∀ a ∈ extraction.attempts, ∃ r,
      (extraction.reservations.filter fun r => r.key = a.key) = [r] ∧
        r.charged_bytes = chargeOf extraction.outputs a) ∧
    extraction.capacity.charged_bytes = (extraction.reservations.map (·.charged_bytes)).sum ∧
    extraction.capacity.charged_bytes ≤ extraction.capacity.capacity_bytes ∧
    preparation.charged_bytes = preparation.kept ∧
    preparation.charged_bytes ≤ 67108864 := by
  have good := run_kept (database byteDigest) statement_good
    (installed_good (installExtraction_accounted stored install)) run
  have accounted : Accounted (w.store .extraction) := good .extraction
  have charged : Charged (w.store .preparation) := good .preparation
  exact ⟨fun a member => accounted.reservation member, accounted.charged_eq, accounted.within,
    charged.charged_eq, charged.within⟩

/-! A claim is charged and committed, a second transaction whose snapshot is older is aborted, and
its next attempt stores the output and a resource. -/

def firstClaim : Attempt := ⟨"job", 1, "claim", "channel", "dispatch", "normalized"⟩

def firstOutput : Output := ⟨"output", "job", 1, "channel", "channel", 2, "normalized", 1, "location"⟩

/-- The digest of the one body there is. -/
def emptyDigest (_ : Bytes) : String :=
  "e3b0c44298fc1c149afbf4c8996fb92427ae41e4649b934ca495991b7852b855"

def emptyResource : Resource := ⟨"resource", 1, 0, emptyDigest [], []⟩

def settlingActs : List (Act Nat Account Statement) :=
  [.start 0, .start 1, .execute 0 .extraction (.claim firstClaim), .commit 0,
    .execute 1 .extraction (.claim firstClaim), .start 1,
    .execute 1 .extraction (.store firstOutput),
    .execute 1 .preparation (.resource emptyResource), .commit 1]

def emptyExtraction : Extraction := ⟨[], [], [], ⟨268435456, 0⟩⟩

theorem durable_capacity_conserved_settled :
    ∃ w : World Nat Account Tables Write,
      perform (step (database emptyDigest)) (worldStart (installed emptyExtraction)) settlingActs =
        some w ∧
      (w.store .extraction : Extraction).attempts = [firstClaim] ∧
      (w.store .extraction : Extraction).capacity.charged_bytes = 3 ∧
      (∀ a ∈ (w.store .extraction : Extraction).attempts, ∃ r,
        ((w.store .extraction : Extraction).reservations.filter fun r => r.key = a.key) = [r] ∧
          r.charged_bytes = chargeOf (w.store .extraction : Extraction).outputs a) := by
  have stored : Stored [] [] := ⟨List.nodup_nil, List.nodup_nil, nofun⟩
  have install : installExtraction [] [] = some emptyExtraction := by decide
  refine ⟨_, rfl, by decide, by decide, ?_⟩
  have run := run_of_perform (step (database emptyDigest)) settlingActs
    (worldStart (installed emptyExtraction)) _ rfl
  exact (durable_capacity_conserved emptyDigest stored install run).1

end LedgerDesk.Durable
