import LedgerDesk.Gateway.Machine

/-!
# The budget ceiling

The in-flight counter is exactly the sum of the reservations that are out. The spend
query is older than the counter it is added to, so a call whose row is committed and
whose reservation is given back in between is in neither of the two.
-/
namespace LedgerDesk.Gateway

open Foundation LedgerDesk.Agents LedgerDesk.Ledger

/-- What a call holds against the ceiling in a phase. -/
def reservation (request : GatewayCall) : CallPhase → Int
  | .calling | .appending _ _ | .recorded _ _ _ | .failed _ true => request.callMicro
  | _ => 0

/-- Whether a row of the call may stand in the ledger. -/
def CallPhase.mayHaveRow : CallPhase → Bool
  | .recorded _ _ _ | .recordedHit _ _ _ | .returned _ | .failed _ _ => true
  | _ => false

section Ceiling

variable (config : GatewayConfig) {ι : Type*} [DecidableEq ι] (calls : ι → GatewayCall)

def recordedBy (s : GatewayState ι) (i : ι) : Bool :=
  s.ledger.any fun record => record.call == some i

/-- The reservation of a call whose row is not yet in the ledger. -/
def outstanding (s : GatewayState ι) (i : ι) : Int :=
  if recordedBy s i then 0 else reservation (calls i) (s.phase i)

/-- The reservation of a call whose row is in the ledger already. -/
def heldTwice (s : GatewayState ι) (i : ι) : Int :=
  if recordedBy s i then reservation (calls i) (s.phase i) else 0

/-- The rows of its scope that were committed after the spend query of the call was answered. -/
def laterRecords (s : GatewayState ι) (i : ι) : List (LedgerRecord ι) :=
  match s.phase i with
  | .asked _ seen =>
    (s.ledger.drop seen).filter fun record => inScope config (calls i) record.row
  | _ => []

def missedMicro (s : GatewayState ι) (i : ι) : Int :=
  ((laterRecords config calls s i).map fun record => record.row.cost_micro).sum

/-- What the call that wrote the row still holds in flight. -/
def stillHeld (s : GatewayState ι) (record : LedgerRecord ι) : Int :=
  match record.call with
  | some j => reservation (calls j) (s.phase j)
  | none => 0

/-- No row the spend query missed costs more than its own call still holds in flight. -/
def Covered (s : GatewayState ι) (i : ι) : Prop :=
  ∀ record ∈ laterRecords config calls s i, record.row.cost_micro ≤ stillHeld calls s record

/-- The step is the admission of the call past the budget check. -/
def Admits (tr : Transition (GatewayState ι) (GatewayAction ι)) (i : ι) : Prop :=
  tr.act = .admitCall i ∧ ∃ spentMicro seen, tr.source.phase i = .asked spentMicro seen ∧
    tr.target.phase i = .calling

variable [Fintype ι]

/-- What the check adds up: the answer of the query, the counter and the projection. -/
def projectedMicro (s : GatewayState ι) (i : ι) : Int :=
  match s.phase i with
  | .asked spentMicro _ => spentMicro + s.inFlightMicro + (calls i).callMicro
  | _ => 0

/-- Recorded cost, the reservations not yet recorded and the projection stay within the cut. -/
def CeilingHolds (s : GatewayState ι) (i : ι) : Prop :=
  spentMicroAud config (calls i) s.rows + ∑ j ∈ Finset.univ.erase i, outstanding calls s j +
    (calls i).callMicro ≤ config.cutMicro

end Ceiling

/-! ### What one step can do -/

section Steps

variable {sha256Hex : String → String} {tables : TextTables} {declared : DeclaredConfidence}
variable (config : GatewayConfig) {ι : Type*} [DecidableEq ι] {calls : ι → GatewayCall}

/-- A step of call `i` into the phase `p`: the counter moves by what the call's own
reservation moves, and the call commits at most one row. -/
structure CallMoves (calls : ι → GatewayCall) (s t : GatewayState ι)
    (i : ι) (p : CallPhase) (delta : Int) (new : List (LedgerRecord ι)) : Prop where
  ledger : t.ledger = s.ledger ++ new
  inFlight : t.inFlightMicro = s.inFlightMicro + delta
  phase : t.phase = Function.update s.phase i p
  pending : ∀ code reserved, s.phase i ≠ .failed code reserved
  balance : reservation (calls i) p = reservation (calls i) (s.phase i) + delta
  writes : (new = [] ∧ (p.mayHaveRow = false → (s.phase i).mayHaveRow = false)) ∨
    ∃ id row, new = [⟨id, row, some i⟩] ∧ (s.phase i).mayHaveRow = false ∧ p.mayHaveRow = true
  asked : ∀ spentMicro seen, p = .asked spentMicro seen →
    spentMicro = spentMicroAud config (calls i) s.rows ∧ seen = s.ledger.length

/-- A step that moves the counter by what the phase change moves the reservation. -/
theorem reserve_moves {s : GatewayState ι} {i : ι} {old p : CallPhase} {delta : Int}
    (phase : s.phase i = old)
    (balance : reservation (calls i) p = reservation (calls i) old + delta)
    (unwritten : p.mayHaveRow = false → old.mayHaveRow = false)
    (asked : ∀ spentMicro seen, p ≠ .asked spentMicro seen)
    (pending : ∀ code reserved, old ≠ .failed code reserved) :
    CallMoves config calls s ((s.reserve delta).setPhase i p) i p delta [] where
  ledger := (List.append_nil _).symm
  inFlight := rfl
  phase := rfl
  pending := by rw [phase]; exact pending
  balance := by rw [balance, phase]
  writes := .inl ⟨rfl, by rw [phase]; exact unwritten⟩
  asked spentMicro seen same := absurd same (asked spentMicro seen)

/-- A step that only changes the phase of a call. -/
theorem setPhase_moves {s : GatewayState ι} {i : ι} {old p : CallPhase} (phase : s.phase i = old)
    (balance : reservation (calls i) p = reservation (calls i) old)
    (unwritten : p.mayHaveRow = false → old.mayHaveRow = false)
    (asked : ∀ spentMicro seen, p ≠ .asked spentMicro seen)
    (pending : ∀ code reserved, old ≠ .failed code reserved) :
    CallMoves config calls s (s.setPhase i p) i p 0 [] := by
  have moves := reserve_moves config phase
    (balance.trans (add_zero _).symm) unwritten asked pending
  rwa [GatewayState.reserve, add_zero] at moves

theorem lookupStep_moves {s : GatewayState ι} {i : ι} {latency_ms : Nat}
    (phase : s.phase i = .lookingUp) : ∃ p,
    CallMoves config calls s (lookupStep sha256Hex tables config calls s i latency_ms) i p 0 [] := by
  rw [lookupStep]
  split
  · split
    · exact ⟨_, setPhase_moves config phase rfl (fun _ => rfl) nofun nofun⟩
    · exact ⟨_, setPhase_moves config phase rfl (fun _ => rfl) nofun nofun⟩
  · split
    · exact ⟨_, setPhase_moves config phase rfl (fun _ => rfl) nofun nofun⟩
    · exact ⟨_, setPhase_moves config phase rfl (fun _ => rfl) nofun nofun⟩

variable (tables) in
theorem admitStep_moves {s : GatewayState ι} {i : ι} {spentMicro : Int} {seen : Nat}
    (phase : s.phase i = .asked spentMicro seen) : ∃ p delta,
    CallMoves config calls s (admitStep tables config calls s i spentMicro) i p delta [] := by
  rw [admitStep]
  split
  · exact ⟨_, _, setPhase_moves config phase rfl (fun _ => rfl) nofun nofun⟩
  · split
    · exact ⟨_, _, setPhase_moves config phase rfl (fun _ => rfl) nofun nofun⟩
    · exact ⟨_, _, reserve_moves config phase (zero_add _).symm (fun _ => rfl) nofun nofun⟩

theorem recordStep_moves {s t : GatewayState ι} {i : ι} {id : Nat} {now : String}
    {facts : RowFacts} {next : LedgerRef → CallPhase} {old : CallPhase}
    (taken : recordStep sha256Hex s i id now facts next = some t)
    (phase : s.phase i = old) (unwritten : old.mayHaveRow = false)
    (written : ∀ ref, (next ref).mayHaveRow = true)
    (balance : ∀ ref, reservation (calls i) (next ref) = reservation (calls i) old)
    (asked : ∀ ref spentMicro seen, next ref ≠ .asked spentMicro seen)
    (pending : ∀ code reserved, old ≠ .failed code reserved) :
    ∃ p new, CallMoves config calls s t i p 0 new := by
  simp only [recordStep] at taken
  split at taken
  · cases taken
  · split at taken
    · cases taken
    · next row _ =>
      cases taken
      refine ⟨_, [⟨id, row, some i⟩], rfl, (add_zero _).symm, rfl, ?_, ?_,
        .inr ⟨id, row, rfl, ?_, ?_⟩, ?_⟩
      · rw [phase]
        exact pending
      · rw [balance, phase, add_zero]
      · rw [phase, unwritten]
      · exact written _
      · intro spentMicro seen same
        exact absurd same (asked _ spentMicro seen)

theorem resumeStep_moves {s : GatewayState ι} {i : ι} {response : ProviderResponse}
    {latency_ms : Nat} {ledger : LedgerRef}
    (phase : s.phase i = .recorded response latency_ms ledger) : ∃ p delta,
    CallMoves config calls s (resumeStep sha256Hex calls s i response latency_ms ledger)
      i p delta [] := by
  rw [resumeStep]
  refine ⟨_, _, reserve_moves config phase ?_ ?_ ?_ nofun⟩
  · split
    · exact (add_neg_cancel _).symm
    · exact (add_neg_cancel _).symm
  · split
    · exact nofun
    · exact nofun
  · split
    · exact nofun
    · exact nofun

/-- What any step does to the ledger, the counter and the phases. -/
theorem gatewayStep_moves {s t : GatewayState ι} {act : GatewayAction ι}
    (taken : gatewayStep sha256Hex tables declared config calls s act = some t) :
    (∃ i p delta new, CallMoves config calls s t i p delta new) ∨
      ∃ id row, t = s.commit id row none := by
  cases act with
  | lookup i latency_ms =>
    simp only [gatewayStep] at taken
    split at taken
    · next phase =>
      cases taken
      obtain ⟨p, moves⟩ := lookupStep_moves config phase
      exact .inl ⟨i, p, _, _, moves⟩
    · cases taken
  | spend i =>
    simp only [gatewayStep] at taken
    split at taken
    · next phase =>
      cases taken
      refine .inl ⟨i, _, 0, [], (List.append_nil _).symm, (add_zero _).symm, rfl, ?_, ?_,
        .inl ⟨rfl, ?_⟩, ?_⟩
      · rw [phase]
        exact nofun
      · rw [phase]
        rfl
      · rw [phase]
        exact fun _ => rfl
      · intro spentMicro seen same
        cases same
        exact ⟨rfl, rfl⟩
    · cases taken
  | admitCall i =>
    simp only [gatewayStep] at taken
    split at taken
    · next spentMicro seen phase =>
      cases taken
      obtain ⟨p, delta, moves⟩ := admitStep_moves tables config phase
      exact .inl ⟨i, p, delta, _, moves⟩
    · cases taken
  | providerAnswers i response latency_ms =>
    simp only [gatewayStep] at taken
    split at taken
    · next phase =>
      split at taken
      · cases taken
        exact .inl ⟨i, _, _, _, setPhase_moves config phase rfl (fun _ => rfl) nofun nofun⟩
      · cases taken
        exact .inl ⟨i, _, _, _, setPhase_moves config phase rfl (fun _ => rfl) nofun nofun⟩
    · cases taken
  | providerFails i =>
    simp only [gatewayStep] at taken
    split at taken
    · next phase =>
      cases taken
      exact .inl ⟨i, _, _, _,
        reserve_moves config phase (add_neg_cancel _).symm (fun _ => rfl) nofun nofun⟩
    · cases taken
  | timesOut i =>
    simp only [gatewayStep] at taken
    split at taken
    · next phase =>
      cases taken
      exact .inl ⟨i, _, _, _, setPhase_moves config phase rfl (fun _ => rfl) nofun nofun⟩
    · cases taken
  | record i id now =>
    simp only [gatewayStep] at taken
    split at taken
    · next response latency_ms phase =>
      obtain ⟨p, new, moves⟩ := recordStep_moves config taken phase rfl
        (fun _ => rfl) (fun _ => rfl) nofun nofun
      exact .inl ⟨i, p, 0, new, moves⟩
    · next hit latency_ms phase =>
      obtain ⟨p, new, moves⟩ := recordStep_moves config taken phase rfl
        (fun _ => rfl) (fun _ => rfl) nofun nofun
      exact .inl ⟨i, p, 0, new, moves⟩
    · cases taken
  | resume i =>
    simp only [gatewayStep] at taken
    split at taken
    · next response latency_ms ledger phase =>
      cases taken
      obtain ⟨p, delta, moves⟩ := resumeStep_moves config phase
      exact .inl ⟨i, p, delta, _, moves⟩
    · next hit latency_ms ledger phase =>
      cases taken
      exact .inl ⟨i, _, _, _, setPhase_moves config phase rfl nofun nofun nofun⟩
    · cases taken
  | storeFails i code =>
    simp only [gatewayStep] at taken
    split at taken
    · cases taken
    · split at taken
      case h_7 => cases taken
      all_goals
        cases taken
        next phase => exact .inl ⟨i, _, _, _, setPhase_moves config phase rfl nofun nofun nofun⟩
  | foreign id row =>
    simp only [gatewayStep] at taken
    split at taken
    · cases taken
    · cases taken
      exact .inr ⟨id, row, rfl⟩

/-! ### What every interleaving keeps -/

variable [Fintype ι]

variable (calls) in
structure GatewayInvariant (s : GatewayState ι) : Prop where
  accounted : s.inFlightMicro = ∑ i, reservation (calls i) (s.phase i)
  unwritten : ∀ i, (s.phase i).mayHaveRow = false →
    i ∉ s.ledger.filterMap LedgerRecord.call
  single : (s.ledger.filterMap LedgerRecord.call).Nodup
  snapshot : ∀ i spentMicro seen, s.phase i = .asked spentMicro seen → seen ≤ s.ledger.length ∧
    spentMicro = spentMicroAud config (calls i) ((s.ledger.take seen).map LedgerRecord.row)

omit [DecidableEq ι] in
theorem gatewayStart_invariant (history : List (Nat × ChainedRow)) :
    GatewayInvariant config calls (gatewayStart config history) := by
  have authors : (gatewayStart (ι := ι) config history).ledger.filterMap LedgerRecord.call = [] := by
    simp [gatewayStart, List.filterMap_map]
  have idle : ∀ i, (gatewayStart (ι := ι) config history).phase i = .lookingUp ∨
      (gatewayStart (ι := ι) config history).phase i = .asking := by
    intro i
    rw [gatewayStart]
    split
    · exact .inl rfl
    · exact .inr rfl
  refine ⟨?_, fun i _ => by simp [authors], by simp [authors], fun i spentMicro seen asked => ?_⟩
  · refine (Finset.sum_eq_zero fun i _ => ?_).symm
    rcases idle i with phase | phase <;> rw [phase] <;> rfl
  · rcases idle i with phase | phase <;> rw [phase] at asked <;> cases asked

/-- The sum of the reservations moves by what the one call's reservation moves. -/
theorem sum_reservation_update (phase : ι → CallPhase) (i : ι) (p : CallPhase) {delta : Int}
    (balance : reservation (calls i) p = reservation (calls i) (phase i) + delta) :
    ∑ j, reservation (calls j) (Function.update phase i p j) =
      ∑ j, reservation (calls j) (phase j) + delta := by
  rw [← Finset.add_sum_erase _ _ (Finset.mem_univ i),
    ← Finset.add_sum_erase (a := i) _ (fun j => reservation (calls j) (phase j))
      (Finset.mem_univ i)]
  have others : ∑ j ∈ Finset.univ.erase i, reservation (calls j) (Function.update phase i p j) =
      ∑ j ∈ Finset.univ.erase i, reservation (calls j) (phase j) := by
    refine Finset.sum_congr rfl fun j member => ?_
    rw [Function.update_of_ne (Finset.ne_of_mem_erase member)]
  rw [others, Function.update_self, balance]
  omega

theorem CallMoves.invariant {s t : GatewayState ι} {i : ι} {p : CallPhase} {delta : Int}
    {new : List (LedgerRecord ι)} (moves : CallMoves config calls s t i p delta new)
    (inv : GatewayInvariant config calls s) : GatewayInvariant config calls t := by
  have self : t.phase i = p := by rw [moves.phase, Function.update_self]
  have others : ∀ j, j ≠ i → t.phase j = s.phase j := by
    intro j other
    rw [moves.phase, Function.update_of_ne other]
  have authors : t.ledger.filterMap LedgerRecord.call =
      s.ledger.filterMap LedgerRecord.call ++ new.filterMap LedgerRecord.call := by
    rw [moves.ledger, List.filterMap_append]
  refine ⟨?_, fun j unwritten => ?_, ?_, fun j spentMicro seen asked => ?_⟩
  · rw [moves.inFlight, inv.accounted, moves.phase,
      sum_reservation_update s.phase i p moves.balance]
  · rw [authors, List.mem_append, not_or]
    by_cases same : j = i
    · subst same
      rw [self] at unwritten
      rcases moves.writes with ⟨rfl, before⟩ | ⟨id, row, rfl, before, written⟩
      · exact ⟨inv.unwritten j (before unwritten), by simp⟩
      · rw [unwritten] at written
        cases written
    · rw [others j same] at unwritten
      refine ⟨inv.unwritten j unwritten, ?_⟩
      rcases moves.writes with ⟨rfl, -⟩ | ⟨id, row, rfl, -, -⟩
      · simp
      · simp [same]
  · rw [authors]
    rcases moves.writes with ⟨rfl, -⟩ | ⟨id, row, rfl, before, -⟩
    · simpa using inv.single
    · refine List.Nodup.append inv.single (by simp) ?_
      simpa [List.disjoint_singleton] using inv.unwritten i before
  · have known : seen ≤ s.ledger.length ∧ spentMicro =
        spentMicroAud config (calls j) ((s.ledger.take seen).map LedgerRecord.row) := by
      by_cases same : j = i
      · subst same
        rw [self] at asked
        obtain ⟨rfl, rfl⟩ := moves.asked spentMicro seen asked
        refine ⟨le_rfl, ?_⟩
        rw [List.take_length]
        rfl
      · rw [others j same] at asked
        exact inv.snapshot j spentMicro seen asked
    obtain ⟨within, answer⟩ := known
    refine ⟨?_, ?_⟩
    · rw [moves.ledger, List.length_append]
      omega
    · rw [moves.ledger, List.take_append_of_le_length within]
      exact answer

omit [DecidableEq ι] in
theorem foreign_invariant {s : GatewayState ι} {id : Nat} {row : ChainedRow}
    (inv : GatewayInvariant config calls s) :
    GatewayInvariant config calls (s.commit id row none) := by
  have authors : (s.commit id row none).ledger.filterMap LedgerRecord.call =
      s.ledger.filterMap LedgerRecord.call := by
    simp [GatewayState.commit]
  refine ⟨inv.accounted, fun i unwritten => ?_, ?_, fun i spentMicro seen asked => ?_⟩
  · rw [authors]
    exact inv.unwritten i unwritten
  · rw [authors]
    exact inv.single
  · obtain ⟨within, answer⟩ := inv.snapshot i spentMicro seen asked
    refine ⟨?_, ?_⟩
    · rw [GatewayState.commit, List.length_append]
      omega
    · rw [GatewayState.commit, List.take_append_of_le_length within]
      exact answer

theorem gatewayStep_invariant {s t : GatewayState ι} {act : GatewayAction ι}
    (taken : gatewayStep sha256Hex tables declared config calls s act = some t)
    (inv : GatewayInvariant config calls s) : GatewayInvariant config calls t := by
  rcases gatewayStep_moves config taken with ⟨i, p, delta, new, moves⟩ | ⟨id, row, rfl⟩
  · exact moves.invariant config inv
  · exact foreign_invariant config inv

/-! ### The sum the check should have been about -/

theorem priceMicro_nonneg {tokens : Int} (counted : 0 ≤ tokens) (price : Nat) :
    0 ≤ priceMicro tokens price := by
  have amount : 0 ≤ tokens * price := mul_nonneg counted (Int.natCast_nonneg price)
  rw [priceMicro]
  omega

theorem callMicro_nonneg (request : GatewayCall) : 0 ≤ request.callMicro :=
  add_nonneg (priceMicro_nonneg (Int.natCast_nonneg _) _)
    (priceMicro_nonneg (Int.natCast_nonneg _) _)

theorem reservation_nonneg (request : GatewayCall) (p : CallPhase) : 0 ≤ reservation request p := by
  rw [reservation.eq_def]
  split
  all_goals first | exact callMicro_nonneg request | exact le_rfl

omit [Fintype ι] in
theorem recordedBy_of_mem {s : GatewayState ι} {i : ι}
    (member : i ∈ s.ledger.filterMap LedgerRecord.call) : recordedBy s i = true := by
  obtain ⟨record, stands, written⟩ := List.mem_filterMap.mp member
  exact List.any_eq_true.mpr ⟨record, stands, by simp [written]⟩

/-- What is still out is what the counter holds, less what it holds for recorded calls. -/
theorem sum_outstanding (s : GatewayState ι) :
    ∑ j, outstanding calls s j =
      ∑ j, reservation (calls j) (s.phase j) - ∑ j, heldTwice calls s j := by
  rw [eq_sub_iff_add_eq, ← Finset.sum_add_distrib]
  refine Finset.sum_congr rfl fun j _ => ?_
  rw [outstanding, heldTwice]
  split
  · exact zero_add _
  · exact add_zero _

theorem spentMicroAud_append (request : GatewayCall) (before after : List ChainedRow) :
    spentMicroAud config request (before ++ after) =
      spentMicroAud config request before + spentMicroAud config request after := by
  simp only [spentMicroAud, List.filter_append, List.map_append, List.sum_append]

omit [DecidableEq ι] in
/-- The recorded cost is what the query answered and what it missed. -/
theorem spent_of_asked {s : GatewayState ι} {i : ι} {spentMicro : Int} {seen : Nat}
    (inv : GatewayInvariant config calls s) (phase : s.phase i = .asked spentMicro seen) :
    spentMicroAud config (calls i) s.rows = spentMicro + missedMicro config calls s i := by
  obtain ⟨-, answer⟩ := inv.snapshot i spentMicro seen phase
  have later : missedMicro config calls s i =
      spentMicroAud config (calls i) ((s.ledger.drop seen).map LedgerRecord.row) := by
    simp only [missedMicro, laterRecords, phase, spentMicroAud, List.filter_map, List.map_map,
      Function.comp_def]
  rw [later, answer, ← spentMicroAud_append, ← List.map_append, List.take_append_drop]
  rfl

theorem ceiling_iff {s : GatewayState ι} {i : ι} {spentMicro : Int} {seen : Nat}
    (inv : GatewayInvariant config calls s) (phase : s.phase i = .asked spentMicro seen) :
    CeilingHolds config calls s i ↔
      missedMicro config calls s i ≤
        ∑ j, heldTwice calls s j + (config.cutMicro - projectedMicro calls s i) := by
  have own : outstanding calls s i = 0 := by
    rw [outstanding, phase]
    exact ite_self 0
  have others : ∑ j ∈ Finset.univ.erase i, outstanding calls s j = ∑ j, outstanding calls s j := by
    rw [← Finset.add_sum_erase _ _ (Finset.mem_univ i), own, zero_add]
  rw [CeilingHolds, others, sum_outstanding, ← inv.accounted, spent_of_asked config inv phase,
    projectedMicro, phase]
  constructor
  · intro holds
    linarith
  · intro covered
    linarith

theorem missed_le_of_covered {s : GatewayState ι} {i : ι}
    (inv : GatewayInvariant config calls s) (covered : Covered config calls s i) :
    missedMicro config calls s i ≤ ∑ j, heldTwice calls s j := by
  have later : (laterRecords config calls s i).Sublist s.ledger := by
    rw [laterRecords]
    split
    · exact List.filter_sublist.trans (List.drop_sublist _ _)
    · exact List.nil_sublist _
  have held : missedMicro config calls s i ≤
      ((laterRecords config calls s i).map (stillHeld calls s)).sum :=
    List.sum_le_sum covered
  have byCall : ∀ records : List (LedgerRecord ι),
      (records.map (stillHeld calls s)).sum =
        ((records.filterMap LedgerRecord.call).map
          fun j => reservation (calls j) (s.phase j)).sum := by
    intro records
    induction records with
    | nil => rfl
    | cons record records ih =>
      cases author : record.call with
      | none => simp [stillHeld, author, ih]
      | some j => simp [stillHeld, author, ih]
  have distinct : ((laterRecords config calls s i).filterMap LedgerRecord.call).Nodup :=
    inv.single.sublist (later.filterMap _)
  rw [byCall, ← List.sum_toFinset _ distinct] at held
  refine held.trans ?_
  have recorded : ∑ j ∈ ((laterRecords config calls s i).filterMap LedgerRecord.call).toFinset,
        reservation (calls j) (s.phase j) =
      ∑ j ∈ ((laterRecords config calls s i).filterMap LedgerRecord.call).toFinset,
        heldTwice calls s j := by
    refine Finset.sum_congr rfl fun j member => ?_
    have stands := (later.filterMap _).subset (List.mem_toFinset.mp member)
    rw [heldTwice, if_pos (recordedBy_of_mem stands)]
  rw [recorded]
  refine Finset.sum_le_sum_of_subset_of_nonneg (Finset.subset_univ _) fun j _ _ => ?_
  rw [heldTwice]
  split
  · exact reservation_nonneg _ _
  · exact le_rfl

/-! ### How a call settles its reservation -/

variable (calls) in
/-- The counter gives back the reservation of this call and of no other. -/
structure Releases (tr : Transition (GatewayState ι) (GatewayAction ι)) (i : ι) : Prop where
  counter : tr.target.inFlightMicro = tr.source.inFlightMicro - (calls i).callMicro
  taken : reservation (calls i) (tr.source.phase i) = (calls i).callMicro
  free : reservation (calls i) (tr.target.phase i) = 0
  others : ∀ j, j ≠ i → tr.target.phase j = tr.source.phase j

variable (calls) in
structure Keeps (tr : Transition (GatewayState ι) (GatewayAction ι)) (i : ι) : Prop where
  counter : tr.target.inFlightMicro = tr.source.inFlightMicro
  taken : reservation (calls i) (tr.target.phase i) = (calls i).callMicro

variable (tables calls) in
/-- How the ways a call can end without a result treat its reservation. -/
structure Settles (tr : Transition (GatewayState ι) (GatewayAction ι)) : Prop where
  providerFailed : ∀ i, tr.act = .providerFails i → Releases calls tr i
  timedOut : ∀ i, tr.act = .timesOut i → Keeps calls tr i
  refused : ∀ i response latency_ms code, tr.act = .providerAnswers i response latency_ms →
    assertResponseIsClean tables response.text (calls i) = some code → Keeps calls tr i
  unappended : ∀ i code response latency_ms, tr.act = .storeFails i code →
    tr.source.phase i = .appending response latency_ms → Keeps calls tr i

omit [Fintype ι] in
theorem gatewayStep_settles {tr : Transition (GatewayState ι) (GatewayAction ι)}
    (taken : gatewayStep sha256Hex tables declared config calls tr.source tr.act = some tr.target) :
    Settles tables calls tr := by
  refine ⟨fun i act => ?_, fun i act => ?_, fun i response latency_ms code act unclean => ?_,
    fun i code response latency_ms act appending => ?_⟩
  · simp only [act, gatewayStep] at taken
    split at taken
    · next phase =>
      rw [Option.some.injEq] at taken
      have self : tr.target.phase i = .failed .E_PROVIDER_FAILED false := by
        rw [← taken]
        exact Function.update_self _ _ _
      refine ⟨?_, by rw [phase]; rfl, by rw [self]; rfl, fun j other => ?_⟩
      · rw [← taken]
        exact (sub_eq_add_neg _ _).symm
      · rw [← taken]
        exact Function.update_of_ne other _ _
    · cases taken
  · simp only [act, gatewayStep] at taken
    split at taken
    · rw [Option.some.injEq] at taken
      have self : tr.target.phase i = .failed .E_PROVIDER_TIMEOUT true := by
        rw [← taken]
        exact Function.update_self _ _ _
      exact ⟨by rw [← taken]; rfl, by rw [self]; rfl⟩
    · cases taken
  · simp only [act, gatewayStep, unclean] at taken
    split at taken
    · rw [Option.some.injEq] at taken
      have self : tr.target.phase i = .failed code true := by
        rw [← taken]
        exact Function.update_self _ _ _
      exact ⟨by rw [← taken]; rfl, by rw [self]; rfl⟩
    · cases taken
  · simp only [act, gatewayStep, appending] at taken
    split at taken
    · cases taken
    · rw [Option.some.injEq] at taken
      have self : tr.target.phase i = .failed code true := by
        rw [← taken]
        exact Function.update_self _ _ _
      exact ⟨by rw [← taken]; rfl, by rw [self]; rfl⟩

omit [Fintype ι] in
theorem failed_of_step {s t : GatewayState ι} {act : GatewayAction ι} {i : ι}
    {code : GatewayErrorCode} {reserved : Bool}
    (taken : gatewayStep sha256Hex tables declared config calls s act = some t)
    (failed : s.phase i = .failed code reserved) : t.phase i = .failed code reserved := by
  rcases gatewayStep_moves config taken with ⟨j, p, delta, new, moves⟩ | ⟨id, row, rfl⟩
  · have other : i ≠ j := by
      rintro rfl
      exact moves.pending code reserved failed
    rw [moves.phase, Function.update_of_ne other, failed]
  · exact failed

omit [Fintype ι] in
/-- A call that failed has failed for good, with its reservation as it left it. -/
theorem failed_for_good {s u : GatewayState ι} {ts : List (Transition _ (GatewayAction ι))}
    (run : Run (gatewayStep sha256Hex tables declared config calls) s ts u) {i : ι}
    {code : GatewayErrorCode} {reserved : Bool}
    (failed : s.phase i = .failed code reserved) : u.phase i = .failed code reserved :=
  (run.invariant (P := fun s => s.phase i = .failed code reserved)
    (fun _ _ _ taken failed => failed_of_step config taken failed) failed).1

omit [Fintype ι] in
/-- An admission passed the check it was put to. -/
theorem projected_le_of_admits {tr : Transition (GatewayState ι) (GatewayAction ι)} {i : ι}
    (taken : gatewayStep sha256Hex tables declared config calls tr.source tr.act = some tr.target)
    (admits : Admits tr i) : projectedMicro calls tr.source i ≤ config.cutMicro := by
  obtain ⟨act, spentMicro, seen, phase, calling⟩ := admits
  simp only [act, gatewayStep, phase, Option.some.injEq, admitStep] at taken
  split at taken
  · rw [← taken] at calling
    simp [GatewayState.setPhase] at calling
  · next within =>
    simp only [projectedMicro, phase]
    omega

/-- The counter is exact and every call settles its own reservation once, under any
interleaving. The ceiling holds at an admission exactly if what the spend query missed
fits into what the counter holds for recorded calls and the room the check left; it does
whenever each missed row is still held for. -/
theorem gateway_ceiling {history : List (Nat × ChainedRow)} {s : GatewayState ι}
    {ts : List (Transition (GatewayState ι) (GatewayAction ι))}
    (run : Run (gatewayStep sha256Hex tables declared config calls)
      (gatewayStart config history) ts s) :
    s.inFlightMicro = ∑ i, reservation (calls i) (s.phase i) ∧
    (∀ tr ∈ ts, Settles tables calls tr) ∧
    (∀ tr ∈ ts, ∀ i code reserved, tr.target.phase i = .failed code reserved →
      ∀ us u, Run (gatewayStep sha256Hex tables declared config calls) tr.target us u →
        u.phase i = .failed code reserved) ∧
    (∀ tr ∈ ts, ∀ i, Admits tr i → (CeilingHolds config calls tr.source i ↔
      missedMicro config calls tr.source i ≤ ∑ j, heldTwice calls tr.source j +
        (config.cutMicro - projectedMicro calls tr.source i))) ∧
    ((∀ tr ∈ ts, ∀ i, Admits tr i → Covered config calls tr.source i) →
      ∀ tr ∈ ts, ∀ i, Admits tr i → CeilingHolds config calls tr.source i) := by
  obtain ⟨final, invs⟩ := run.invariant (P := GatewayInvariant config calls)
    (fun _ _ _ taken inv => gatewayStep_invariant config taken inv)
    (gatewayStart_invariant config history)
  have exact_at : ∀ tr ∈ ts, ∀ i, Admits tr i → (CeilingHolds config calls tr.source i ↔
      missedMicro config calls tr.source i ≤ ∑ j, heldTwice calls tr.source j +
        (config.cutMicro - projectedMicro calls tr.source i)) := by
    intro tr member i admits
    obtain ⟨-, spentMicro, seen, phase, -⟩ := admits
    exact ceiling_iff config (invs tr member).1 phase
  refine ⟨final.accounted, fun tr member => gatewayStep_settles config (run.steps tr member),
    fun tr _ i code reserved failed us u rest => failed_for_good config rest failed, exact_at,
    fun covered tr member i admits => ?_⟩
  have missed := missed_le_of_covered config (invs tr member).1 (covered tr member i admits)
  have room := projected_le_of_admits config (run.steps tr member) admits
  exact (exact_at tr member i admits).mpr (by linarith)

end Steps

/-! ### A late answer to the spend query -/

def raceConfig : GatewayConfig where
  run_id := "run"
  schema_version := "1"
  ruleset_hash := "r"
  kb_snapshot := "kb:none"
  toolchain := .object []
  cutMicro := 10
  scope := .run
  restarts := 0
  cache := false
  replay := false

/-- Projected at six millionths: `max_tokens` is six, at a millionth each. -/
def raceCall : GatewayCall where
  agent := .draft
  org_id := "org"
  ticket_id := none
  prompt_version_id := "p"
  prompt_text := "p"
  locale := "en"
  model_requested := "m"
  sampling := ⟨.integer 0, .integer 1, 6, none⟩
  seed := none
  input_path := "db"
  split_id := none
  pin_model := false
  price := ⟨0, 1000⟩
  body_redacted := "b"
  kb_context := []
  redaction := .object []
  canaries := []
  removals := []

def raceResponse : ProviderResponse := ⟨"m", "ok", 1, 6⟩

def asciiTables : TextTables := ⟨id, id⟩

def raceStep : GatewayState Bool → GatewayAction Bool → Option (GatewayState Bool) :=
  gatewayStep (fun _ => "7c40138d8ecf19f7f24af0a9520289dfc8e09e9e0760865d8ff8b61736105b53")
    asciiTables (fun _ => none) raceConfig (fun _ => raceCall)

def raceActs : List (GatewayAction Bool) :=
  [.spend true, .admitCall true, .spend false, .providerAnswers true raceResponse 1,
    .record true 1 "t", .resume true]

/-- The query of the second call is answered before the first call records its row, and
the second call resumes after the first has given its reservation back: six millionths
are recorded, six are projected, and the cut is ten. -/
theorem late_spend_passes_the_cut :
    ∃ s ts, Run raceStep (gatewayStart raceConfig []) ts s ∧
      ∃ tr ∈ ts, Admits tr false ∧
        ¬ CeilingHolds raceConfig (fun _ : Bool => raceCall) tr.source false := by
  obtain ⟨s, u, performed, taken, asked, calling, spent, recorded⟩ :
      ∃ s u, perform raceStep (gatewayStart raceConfig []) raceActs = some s ∧
        raceStep s (.admitCall false) = some u ∧ s.phase false = .asked 0 0 ∧
        u.phase false = .calling ∧ spentMicroAud raceConfig raceCall s.rows = 6 ∧
        recordedBy s true = true :=
    ⟨_, _, rfl, rfl, rfl, rfl, rfl, rfl⟩
  have run := (run_of_perform _ _ _ _ performed).append (.single taken)
  refine ⟨u, _, run, ⟨s, .admitCall false, u⟩, by simp, ⟨rfl, 0, 0, asked, calling⟩, ?_⟩
  have others : Finset.univ.erase false = ({true} : Finset Bool) := rfl
  have projection : raceCall.callMicro = 6 := rfl
  rw [CeilingHolds, others, Finset.sum_singleton, outstanding, recorded, if_pos rfl, spent,
    projection]
  decide

/-- A call that asks and resumes with nothing in between is covered. -/
theorem prompt_spend_keeps_the_cut :
    ∃ s ts, Run raceStep (gatewayStart raceConfig []) ts s ∧ s.inFlightMicro = 6 ∧
      s.inFlightMicro = ∑ i, reservation raceCall (s.phase i) ∧
      ∀ tr ∈ ts, ∀ i, Admits tr i →
        CeilingHolds raceConfig (fun _ : Bool => raceCall) tr.source i := by
  obtain ⟨s, u, asked, admitted, empty, counted⟩ :
      ∃ s u, raceStep (gatewayStart raceConfig []) (.spend true) = some s ∧
        raceStep s (.admitCall true) = some u ∧ s.ledger = [] ∧ u.inFlightMicro = 6 :=
    ⟨_, _, rfl, rfl, rfl, rfl⟩
  have run : Run raceStep (gatewayStart raceConfig [])
      [⟨gatewayStart raceConfig [], .spend true, s⟩, ⟨s, .admitCall true, u⟩] u :=
    .step asked (.step admitted (.done u))
  obtain ⟨accounted, -, -, -, ceiling⟩ := gateway_ceiling raceConfig run
  refine ⟨u, _, run, counted, accounted, ceiling fun tr member i admits => ?_⟩
  rcases List.mem_pair.mp member with rfl | rfl
  · cases admits.1
  · intro record later
    rw [laterRecords] at later
    split at later
    · simp [empty] at later
    · cases later

end LedgerDesk.Gateway
