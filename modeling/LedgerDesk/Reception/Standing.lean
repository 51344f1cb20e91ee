import LedgerDesk.Reception.Service

/-!
# How receptions and attempts stand together

A reception, its attempts, its originals and its receipt move in one transaction or not at all.
What a transaction can do is said once, as the one reception it touches and how that one stands
behind it; that every reception stands, and that a stopped one is never touched, follow.
-/
namespace LedgerDesk.Reception

open Foundation Foundation.Rows
open Intake (Raised)

variable {d d' : Data} {r r' : ReceptionRow} {a a' : Attempt} {target : String} {generation : Nat}

/-! ### Standing -/

def Attempt.key (a : Attempt) : String × Nat := (a.reception_id, a.generation)

@[simp] theorem Attempt.of_iff {target : String} {generation : Nat} :
    a.of target generation = true ↔ a.key = (target, generation) := by
  simp [Attempt.of, Attempt.key]

/-- The transfer into the attempt has not ended. -/
def Attempt.isOpen (a : Attempt) : Prop := a.state = .reserved ∨ a.state = .receiving

/-- The reception still takes bytes. -/
def ReceptionRow.isOpen (r : ReceptionRow) : Prop := r.state = .reserved ∨ r.state = .receiving

/-- An attempt next to its reception. -/
structure Fits (r : ReceptionRow) (a : Attempt) : Prop where
  declared : a.reserved_bytes = r.declaration.bytes
  known : a.generation ≤ r.generation
  fenced : a.generation < r.generation → a.state = .fenced
  whole : a.state = .sealed →
    a.actual_bytes = a.reserved_bytes ∧ a.actual_sha256 = some r.declaration.sha256
  staged : a.state = .sealed → r.state = .staged ∨ r.state = .received ∨ r.state = .stopped

/-- The sealed attempt of an original. -/
structure Sealed (d : Data) (target : String) (generation : Nat) (id : String) (bytes : Nat)
    (sha256 : String) (a : Attempt) : Prop where
  member : a ∈ d.attempts
  key : a.key = (target, generation)
  artifact : a.artifact_id = id
  state : a.state = .sealed
  bytes : a.reserved_bytes = bytes
  digest : a.actual_sha256 = some sha256

/-- A receipt next to its reception. -/
structure Receipted (d : Data) (r : ReceptionRow) (e : Receipt) : Prop where
  state : r.state = .received ∨ r.state = .stopped
  slot : e.effect_id = r.effect_slot
  generation : e.generation = r.generation
  bytes : e.bytes = r.declaration.bytes
  digest : e.sha256 = r.declaration.sha256
  original : ∃ a, Sealed d r.id e.generation e.artifact_id e.bytes e.sha256 a

/-- A reception in the data. -/
structure Stands (d : Data) (r : ReceptionRow) : Prop where
  generations : 1 ≤ r.generation ∧ r.generation ≤ 3
  revised : 0 < r.revision
  small : r.declaration.bytes ≤ 1048576
  stopped : r.stopped = true ↔ r.state = .stopped
  current : ∃ a ∈ d.attempts, a.key = (r.id, r.generation)
  fits : ∀ a ∈ d.attempts, a.reception_id = r.id → Fits r a
  filed : ∀ o ∈ d.artifacts, o.reception_id = r.id →
    ∃ a, Sealed d r.id o.generation o.id o.bytes o.sha256 a
  received : r.state = .received → ∃ e ∈ d.receipts, e.reception_id = r.id
  receipt : ∀ e ∈ d.receipts, e.reception_id = r.id → Receipted d r e

structure Sound (d : Data) : Prop where
  receptions_apart : (d.receptions.map ReceptionRow.id).Nodup
  attempts_apart : (d.attempts.map Attempt.key).Nodup
  receipts_apart : (d.receipts.map Receipt.reception_id).Nodup
  attempt_of : ∀ a ∈ d.attempts, ∃ r ∈ d.receptions, r.id = a.reception_id
  artifact_of : ∀ o ∈ d.artifacts, ∃ r ∈ d.receptions, r.id = o.reception_id
  receipt_of : ∀ e ∈ d.receipts, ∃ r ∈ d.receptions, r.id = e.reception_id
  stands : ∀ r ∈ d.receptions, Stands d r

theorem Sound.installed : Sound .installed where
  receptions_apart := .nil
  attempts_apart := .nil
  receipts_apart := .nil
  attempt_of := by simp [Data.installed]
  artifact_of := by simp [Data.installed]
  receipt_of := by simp [Data.installed]
  stands := by simp [Data.installed]

theorem selected_eq_ok {rows : ReceptionRow × Attempt} (found : d.selected target = .ok rows) :
    rows.1 ∈ d.receptions ∧ rows.1.id = target ∧
      rows.2 ∈ d.attempts ∧ rows.2.key = (target, rows.1.generation) := by
  rw [Data.selected] at found
  split at found
  · cases found
  · next r reception =>
    split at found
    · cases found
    · next a attempt =>
      have id : r.id = target := by simpa using List.find?_some reception
      have key : a.key = (target, r.generation) := by simpa using List.find?_some attempt
      rw [← Except.ok.inj found]
      exact ⟨List.mem_of_find?_eq_some reception, id, List.mem_of_find?_eq_some attempt, key⟩

/-- The open attempt of an open reception has no receipt. -/
theorem Stands.no_receipt (stands : Stands d r)
    (running : r.state ≠ .received) (unstopped : r.stopped = false) :
    ∀ e ∈ d.receipts, e.reception_id ≠ r.id := by
  intro e member same
  rcases (stands.receipt e member same).state with received | stopped
  · exact running received
  · rw [stands.stopped.mpr stopped] at unstopped
    cases unstopped

/-! ### One reception touched -/

/-- What a transaction leaves, told by the one reception that it touches, as that row then is. -/
structure Touches (d d' : Data) (r' : ReceptionRow) : Prop where
  receptions : ∀ r, r ∈ d'.receptions ↔ r = r' ∨ (r ∈ d.receptions ∧ r.id ≠ r'.id)
  unstopped : ∀ r ∈ d.receptions, r.id = r'.id → r.stopped = false
  declared : ∀ r ∈ d.receptions, r.id = r'.id → r'.declaration = r.declaration
  attempts : ∀ a, a.reception_id ≠ r'.id → (a ∈ d'.attempts ↔ a ∈ d.attempts)
  artifacts : ∀ o, o.reception_id ≠ r'.id → (o ∈ d'.artifacts ↔ o ∈ d.artifacts)
  receipts : ∀ e, e.reception_id ≠ r'.id → (e ∈ d'.receipts ↔ e ∈ d.receipts)
  receptions_apart : (d'.receptions.map ReceptionRow.id).Nodup
  attempts_apart : (d'.attempts.map Attempt.key).Nodup
  receipts_apart : (d'.receipts.map Receipt.reception_id).Nodup
  stands : Stands d' r'

/-- The sealed attempts of a reception are among its attempts. -/
theorem Sealed.of_attempts {target id sha256 : String} {generation bytes : Nat}
    (held : Sealed d target generation id bytes sha256 a)
    (attempts : ∀ b, b.reception_id = target → b ∈ d.attempts → b ∈ d'.attempts) :
    Sealed d' target generation id bytes sha256 a :=
  { held with member := attempts a (congrArg Prod.fst held.key) held.member }

/-- A reception stands where it and all that is of it is as it was. -/
theorem Stands.congr (stands : Stands d r)
    (attempts : ∀ a, a.reception_id = r.id → (a ∈ d'.attempts ↔ a ∈ d.attempts))
    (artifacts : ∀ o, o.reception_id = r.id → (o ∈ d'.artifacts ↔ o ∈ d.artifacts))
    (receipts : ∀ e, e.reception_id = r.id → (e ∈ d'.receipts ↔ e ∈ d.receipts)) :
    Stands d' r where
  generations := stands.generations
  revised := stands.revised
  small := stands.small
  stopped := stands.stopped
  current := by
    obtain ⟨a, member, key⟩ := stands.current
    exact ⟨a, (attempts a (congrArg Prod.fst key)).mpr member, key⟩
  fits a member own := stands.fits a ((attempts a own).mp member) own
  filed o member own := by
    obtain ⟨a, held⟩ := stands.filed o ((artifacts o own).mp member) own
    exact ⟨a, held.of_attempts fun b own => (attempts b own).mpr⟩
  received now := by
    obtain ⟨e, member, own⟩ := stands.received now
    exact ⟨e, (receipts e own).mpr member, own⟩
  receipt e member own := by
    have receipted := stands.receipt e ((receipts e own).mp member) own
    obtain ⟨a, held⟩ := receipted.original
    exact { receipted with
      original := ⟨a, held.of_attempts fun b own => (attempts b own).mpr⟩ }

theorem Touches.sound (touches : Touches d d' r') (sound : Sound d) : Sound d' where
  receptions_apart := touches.receptions_apart
  attempts_apart := touches.attempts_apart
  receipts_apart := touches.receipts_apart
  attempt_of := by
    intro a member
    by_cases own : a.reception_id = r'.id
    · exact ⟨r', (touches.receptions r').mpr (.inl rfl), own.symm⟩
    · obtain ⟨r, held, of⟩ := sound.attempt_of a ((touches.attempts a own).mp member)
      exact ⟨r, (touches.receptions r).mpr (.inr ⟨held, by rwa [of]⟩), of⟩
  artifact_of := by
    intro o member
    by_cases own : o.reception_id = r'.id
    · exact ⟨r', (touches.receptions r').mpr (.inl rfl), own.symm⟩
    · obtain ⟨r, held, of⟩ := sound.artifact_of o ((touches.artifacts o own).mp member)
      exact ⟨r, (touches.receptions r).mpr (.inr ⟨held, by rwa [of]⟩), of⟩
  receipt_of := by
    intro e member
    by_cases own : e.reception_id = r'.id
    · exact ⟨r', (touches.receptions r').mpr (.inl rfl), own.symm⟩
    · obtain ⟨r, held, of⟩ := sound.receipt_of e ((touches.receipts e own).mp member)
      exact ⟨r, (touches.receptions r).mpr (.inr ⟨held, by rwa [of]⟩), of⟩
  stands := by
    intro r member
    rcases (touches.receptions r).mp member with rfl | ⟨held, other⟩
    · exact touches.stands
    · -- Nothing of another reception has moved.
      apply (sound.stands r held).congr
      · exact fun a own => touches.attempts a (by rwa [own])
      · exact fun o own => touches.artifacts o (by rwa [own])
      · exact fun e own => touches.receipts e (by rwa [own])

/-- Intentions are beside what stands. -/
theorem Sound.intentions (sound : Sound d) (intentions : List Intention) :
    Sound { d with intentions := intentions } where
  receptions_apart := sound.receptions_apart
  attempts_apart := sound.attempts_apart
  receipts_apart := sound.receipts_apart
  attempt_of := sound.attempt_of
  artifact_of := sound.artifact_of
  receipt_of := sound.receipt_of
  stands r member :=
    (sound.stands r member).congr (fun _ _ => Iff.rfl) (fun _ _ => Iff.rfl) (fun _ _ => Iff.rfl)

/-- A stopped reception is left as it is, and so are its receipts. -/
theorem Touches.stopped (touches : Touches d d' r') (member : r ∈ d.receptions)
    (stopped : r.stopped = true) :
    r ∈ d'.receptions ∧ ∀ e ∈ d'.receipts, e.reception_id = r.id → e ∈ d.receipts := by
  have other : r.id ≠ r'.id := by
    intro same
    rw [touches.unstopped r member same] at stopped
    cases stopped
  refine ⟨(touches.receptions r).mpr (.inr ⟨member, other⟩), fun e held own => ?_⟩
  exact (touches.receipts e (by rwa [own])).mp held

/-- The reception that is put in place of another, with what is put in the place of its attempt. -/
theorem touches_of_put (sound : Sound d) (member : r ∈ d.receptions) (unstopped : r.stopped = false)
    (attempt : a ∈ d.attempts) (own : a.reception_id = r.id)
    (receptions : d'.receptions = put ReceptionRow.id r' d.receptions)
    (attempts : d'.attempts = put Attempt.key a' d.attempts) (id : r'.id = r.id)
    (declaration : r'.declaration = r.declaration) (key : a'.key = a.key)
    (artifacts : ∀ o, o.reception_id ≠ r'.id → (o ∈ d'.artifacts ↔ o ∈ d.artifacts))
    (receipts : ∀ e, e.reception_id ≠ r'.id → (e ∈ d'.receipts ↔ e ∈ d.receipts))
    (receipts_apart : (d'.receipts.map Receipt.reception_id).Nodup)
    (stands : Stands d' r') : Touches d d' r' where
  receptions := by
    intro q
    rw [receptions]
    exact mem_put ⟨r, member, id.symm⟩
  unstopped := by
    intro q held same
    rwa [eq_of_key sound.receptions_apart held member (same.trans id)]
  declared := by
    intro q held same
    rwa [eq_of_key sound.receptions_apart held member (same.trans id)]
  attempts := by
    intro b other
    have apart : b.key ≠ a'.key := by
      intro same
      rw [key] at same
      exact other ((congrArg Prod.fst same).trans (own.trans id.symm))
    rw [attempts, mem_put ⟨a, attempt, key.symm⟩]
    constructor
    · rintro (rfl | ⟨held, -⟩)
      · exact absurd rfl apart
      · exact held
    · exact fun held => .inr ⟨held, apart⟩
  artifacts := artifacts
  receipts := receipts
  receptions_apart := by
    rw [receptions]
    exact nodup_put sound.receptions_apart
  attempts_apart := by
    rw [attempts]
    exact nodup_put sound.attempts_apart
  receipts_apart := receipts_apart
  stands := stands

/-! ### What each function takes -/

/-- The open attempt of the reception, which is not stopped. -/
structure Current (d : Data) (target : String) (generation : Nat) (r : ReceptionRow) (a : Attempt) :
    Prop where
  reception : r ∈ d.receptions
  attempt : a ∈ d.attempts
  of_id : r.id = target
  of_generation : r.generation = generation
  key : a.key = (target, generation)
  unstopped : r.stopped = false

theorem Current.own (current : Current d target generation r a) : a.reception_id = r.id :=
  (congrArg Prod.fst current.key).trans current.of_id.symm

/-- The rows that an update by the reception takes. -/
theorem Current.put_reception (current : Current d target generation r a) (sound : Sound d)
    {chosen : ReceptionRow → Bool} {set : ReceptionRow → ReceptionRow} (taken : chosen r = true)
    (only : ∀ q ∈ d.receptions, chosen q = true → q.id = target) (keeps : (set r).id = r.id) :
    update chosen set d.receptions = put ReceptionRow.id (set r) d.receptions :=
  update_eq_put sound.receptions_apart current.reception taken keeps fun q member chosen =>
    (only q member chosen).trans current.of_id.symm

theorem Current.put_attempt (current : Current d target generation r a) (sound : Sound d)
    {chosen : Attempt → Bool} {set : Attempt → Attempt} (taken : chosen a = true)
    (only : ∀ b ∈ d.attempts, chosen b = true → b.key = (target, generation))
    (keeps : (set a).key = a.key) :
    update chosen set d.attempts = put Attempt.key (set a) d.attempts :=
  update_eq_put sound.attempts_apart current.attempt taken keeps fun b member chosen =>
    (only b member chosen).trans current.key.symm

/-- A statement that is done is done as it is. -/
@[simp] theorem statement_eq_ok {moves : Moves} : statement moves = .ok d ↔ moves = .ok d := by
  cases moves <;> simp [statement, Except.mapError]

theorem eq_of_consistent_receipt (done : d.consistent_receipt = .ok d') : d' = d := by
  simp only [Data.consistent_receipt, except_bind_eq_ok, ensure_eq_ok] at done
  obtain ⟨-, -, done⟩ := done
  exact (Except.ok.inj done).symm

theorem appendChunk_eq_ok {associated : Bool} {previous next : Nat} (sound : Sound d)
    (done : d.appendChunk associated target generation previous next = .ok d') :
    ∃ r a, Current d target generation r a ∧ r.isOpen ∧ a.isOpen ∧ a.actual_bytes = previous ∧
      previous < next ∧ next ≤ a.reserved_bytes ∧
      d' = { d with
        attempts := put Attempt.key { a with state := .receiving, actual_bytes := next } d.attempts
        receptions := put ReceptionRow.id { r with state := .receiving } d.receptions } := by
  simp only [Data.appendChunk, except_bind_eq_ok, statement_eq_ok] at done
  obtain ⟨chunked, recorded, checked⟩ := done
  rw [eq_of_consistent_receipt checked]
  simp only [Data.record_chunk, except_bind_eq_ok, ensure_eq_ok] at recorded
  obtain ⟨-, -, -, advances, -, found, recorded⟩ := recorded
  obtain ⟨a, attempt, taken⟩ := List.any_eq_true.mp found
  have taken' := taken
  simp only [Bool.and_eq_true, Attempt.of_iff, decide_eq_true_eq, List.any_eq_true,
    List.mem_cons, List.not_mem_nil, or_false, Bool.not_eq_true'] at taken' advances
  obtain ⟨⟨⟨⟨key, at_previous⟩, opened⟩, room⟩, r, reception, ⟨⟨of_id, of_generation⟩, unstopped⟩,
    takes⟩ := taken'
  have current : Current d target generation r a :=
    ⟨reception, attempt, of_id.trans (congrArg Prod.fst key),
      of_generation.trans (congrArg Prod.snd key), key, unstopped⟩
  refine ⟨r, a, current, takes, opened, at_previous, advances.1, room, ?_⟩
  rw [← Except.ok.inj recorded, current.put_attempt sound taken _ rfl,
    current.put_reception sound (decide_eq_true current.of_id) _ rfl]
  · simp
  · intro b _ chosen
    simp only [Bool.and_eq_true, Attempt.of_iff] at chosen
    exact chosen.1.1.1.1

/-! ### What each function leaves -/

/-- An original that was sealed is sealed, if what is put in the place of a sealed attempt is it. -/
theorem Current.sealed (current : Current d target generation r a) (sound : Sound d)
    (key : a'.key = a.key) (kept : a.state = .sealed → a' = a)
    (attempts : d'.attempts = put Attempt.key a' d.attempts) {owner id sha256 : String}
    {of bytes : Nat} {b : Attempt} (held : Sealed d owner of id bytes sha256 b) :
    Sealed d' owner of id bytes sha256 b := by
  refine { held with member := ?_ }
  rw [attempts, mem_put ⟨a, current.attempt, key.symm⟩]
  by_cases same : b.key = a'.key
  · have itself : b = a :=
      eq_of_key sound.attempts_apart held.member current.attempt (same.trans key)
    rw [itself] at held ⊢
    exact .inl (kept held.state).symm
  · exact .inr ⟨held.member, same⟩

/-- The reception stands behind a move with its attempt, if the two fit and an original or a
receipt that is added does. -/
theorem Current.stands (current : Current d target generation r a) (sound : Sound d)
    (id : r'.id = r.id) (generations : r'.generation = r.generation)
    (declaration : r'.declaration = r.declaration)
    (attempts : d'.attempts = put Attempt.key a' d.attempts) (key : a'.key = a.key)
    (revised : r.revision ≤ r'.revision) (stopped : r'.stopped = true ↔ r'.state = .stopped)
    (kept : a.state = .sealed → a' = a)
    (fits : Fits r' a')
    (filed : ∀ o ∈ d'.artifacts, o.reception_id = r.id →
      o ∈ d.artifacts ∨ Sealed d' r.id o.generation o.id o.bytes o.sha256 a')
    (received : r'.state = .received → ∃ e ∈ d'.receipts, e.reception_id = r.id)
    (receipt : ∀ e ∈ d'.receipts, e.reception_id = r.id → Receipted d' r' e) : Stands d' r' where
  generations := by
    rw [generations]
    exact (sound.stands r current.reception).generations
  revised := Nat.lt_of_lt_of_le (sound.stands r current.reception).revised revised
  small := by
    rw [declaration]
    exact (sound.stands r current.reception).small
  stopped := stopped
  current := by
    refine ⟨a', ?_, ?_⟩
    · rw [attempts]
      exact row_mem_put ⟨a, current.attempt, key.symm⟩
    · rw [key, current.key, id, generations, current.of_id, current.of_generation]
  fits := by
    intro b member own
    rw [attempts, mem_put ⟨a, current.attempt, key.symm⟩] at member
    rcases member with rfl | ⟨held, other⟩
    · exact fits
    · -- Another attempt of the reception is of an earlier generation.
      have before := (sound.stands r current.reception).fits b held (own.trans id)
      have earlier : b.generation < r.generation := by
        apply Nat.lt_of_le_of_ne before.known
        intro same
        apply other
        rw [key, current.key, ← current.of_id, ← current.of_generation, ← id, ← own, ← same]
        rfl
      have fenced := before.fenced earlier
      exact {
        declared := before.declared.trans (congrArg Declaration.bytes declaration.symm)
        known := by
          rw [generations]
          exact before.known
        fenced := fun _ => fenced
        whole := fun held => by simp [fenced] at held
        staged := fun held => by simp [fenced] at held }
  filed := by
    intro o member own
    rw [id] at own ⊢
    rcases filed o member own with old | new
    · obtain ⟨b, held⟩ := (sound.stands r current.reception).filed o old own
      exact ⟨b, current.sealed sound key kept attempts held⟩
    · exact ⟨a', new⟩
  received := by
    rw [id]
    exact received
  receipt := by
    rw [id]
    exact receipt

theorem Current.fits (current : Current d target generation r a) (sound : Sound d) : Fits r a :=
  (sound.stands r current.reception).fits a current.attempt current.own

theorem ReceptionRow.isOpen.ne {state : ReceptionState} (takes : r.isOpen)
    (other : state ≠ .reserved ∧ state ≠ .receiving) : r.state ≠ state := by
  rcases takes with now | now
  · rw [now]
    exact other.1.symm
  · rw [now]
    exact other.2.symm

theorem Attempt.isOpen.unsealed (opened : a.isOpen) : a.state ≠ .sealed := by
  rcases opened with now | now <;> simp [now]

theorem appendChunk_touches {associated : Bool} {previous next : Nat} (sound : Sound d)
    (done : d.appendChunk associated target generation previous next = .ok d') :
    ∃ r', Touches d d' r' := by
  obtain ⟨r, a, current, takes, opened, -, -, -, rfl⟩ := appendChunk_eq_ok sound done
  have fits := current.fits sound
  have none := (sound.stands r current.reception).no_receipt (takes.ne (by simp)) current.unstopped
  refine ⟨{ r with state := .receiving }, touches_of_put sound current.reception current.unstopped
    current.attempt current.own rfl rfl rfl rfl rfl (fun _ _ => Iff.rfl) (fun _ _ => Iff.rfl)
    sound.receipts_apart ?_⟩
  refine current.stands sound rfl rfl rfl rfl rfl (Nat.le_refl _) ?_ ?_ ?_ ?_ ?_ ?_
  · simp [current.unstopped]
  · exact fun held => absurd held opened.unsealed
  · exact {
      declared := fits.declared
      known := fits.known
      fenced := fun earlier => by
        have fenced := fits.fenced earlier
        rcases opened with now | now <;> simp [now] at fenced
      whole := fun held => by cases held
      staged := fun held => by cases held }
  · exact fun o member _ => .inl member
  · intro now
    cases now
  · exact fun e member own => absurd own (none e member)

theorem stageOriginal_eq_ok {reception : ReceptionRow} {attempt : Attempt} (sound : Sound d)
    (done : d.stageOriginal reception attempt = .ok d') :
    ∃ r a, Current d reception.id attempt.generation r a ∧ r.isOpen ∧ a.isOpen ∧
      a.actual_bytes = a.reserved_bytes ∧ a.artifact_id = attempt.artifact_id ∧
      reception.declaration = r.declaration ∧
      d' = { d with
        artifacts := d.artifacts ++ [⟨a.artifact_id, r.id, r.generation, r.declaration.bytes,
          r.declaration.sha256⟩]
        attempts := put Attempt.key
          { a with state := .sealed, actual_sha256 := some r.declaration.sha256 } d.attempts
        receptions := put ReceptionRow.id
          { r with state := .staged, revision := r.revision + 1 } d.receptions } := by
  simp only [Data.stageOriginal, except_bind_eq_ok, statement_eq_ok] at done
  obtain ⟨filed, inserted, staged, moved, checked⟩ := done
  rw [eq_of_consistent_receipt checked]
  simp only [Data.insertArtifact, except_bind_eq_ok, ensure_eq_ok, Bool.not_eq_true',
    List.any_eq_false, List.any_eq_true, Bool.and_eq_true, Attempt.of_iff, decide_eq_true_eq]
    at inserted
  obtain ⟨-, fresh, -, ⟨b, held, key_b, artifact_b⟩, -, -, inserted⟩ := inserted
  rw [← Except.ok.inj inserted] at moved
  simp only [Data.stage_attempt, except_bind_eq_ok, ensure_eq_ok] at moved
  obtain ⟨-, found, moved⟩ := moved
  obtain ⟨a, member, taken⟩ := List.any_eq_true.mp found
  have taken' := taken
  simp only [Bool.and_eq_true, Attempt.of_iff, decide_eq_true_eq, List.any_eq_true,
    List.mem_cons, List.not_mem_nil, or_false, Bool.not_eq_true', List.mem_append] at taken'
  obtain ⟨⟨⟨⟨key, opened⟩, whole⟩, r, row, ⟨⟨⟨⟨of_id, of_generation⟩, -⟩, unstopped⟩, takes⟩,
    digest⟩, o, original, ⟨⟨⟨id, -⟩, -⟩, bytes⟩, -⟩ := taken'
  have current : Current d reception.id attempt.generation r a :=
    ⟨row, member, of_id, of_generation.trans (congrArg Prod.snd key), key, unstopped⟩
  have artifact : a.artifact_id = attempt.artifact_id := by
    rw [eq_of_key sound.attempts_apart member held (key.trans key_b.symm), artifact_b]
  -- The original that is found is the one just filed.
  have new : o = ⟨attempt.artifact_id, reception.id, attempt.generation,
      reception.declaration.bytes, reception.declaration.sha256⟩ := by
    rcases original with old | new
    · exact absurd (id.trans artifact) (by simpa using fresh o old)
    · exact new
  have declared : reception.declaration = r.declaration := by
    have size : reception.declaration.bytes = r.declaration.bytes := by
      rw [← (current.fits sound).declared, ← bytes, new]
    cases own : reception.declaration
    cases other : r.declaration
    simp_all
  refine ⟨r, a, current, takes, opened, whole, artifact, declared, ?_⟩
  rw [← Except.ok.inj moved, current.put_attempt sound taken _ rfl,
    current.put_reception sound (decide_eq_true current.of_id) _ rfl]
  · simp only [artifact, declared, current.of_id, current.of_generation]
  · simp
  · intro b _ chosen
    simp only [Bool.and_eq_true, Attempt.of_iff] at chosen
    exact chosen.1.1.1.1

theorem stageOriginal_touches {reception : ReceptionRow} {attempt : Attempt} (sound : Sound d)
    (done : d.stageOriginal reception attempt = .ok d') : ∃ r', Touches d d' r' := by
  obtain ⟨r, a, current, takes, opened, whole, -, -, rfl⟩ := stageOriginal_eq_ok sound done
  have fits := current.fits sound
  have none := (sound.stands r current.reception).no_receipt (takes.ne (by simp)) current.unstopped
  refine ⟨_, touches_of_put sound current.reception current.unstopped current.attempt current.own
    rfl rfl rfl rfl rfl ?_ (fun _ _ => Iff.rfl) sound.receipts_apart ?_⟩
  · intro o other
    simp only [List.mem_append, List.mem_singleton, or_iff_left_iff_imp]
    rintro rfl
    exact absurd rfl other
  refine current.stands sound rfl rfl rfl rfl rfl (Nat.le_add_right _ _) ?_ ?_ ?_ ?_ ?_ ?_
  · simp [current.unstopped]
  · exact fun held => absurd held opened.unsealed
  · exact {
      declared := fits.declared
      known := fits.known
      fenced := fun earlier => by
        have fenced := fits.fenced earlier
        rcases opened with now | now <;> simp [now] at fenced
      whole := fun _ => ⟨whole, rfl⟩
      staged := fun _ => .inl rfl }
  · intro o member own
    rcases List.mem_append.mp member with old | new
    · exact .inl old
    · rw [List.mem_singleton.mp new]
      refine .inr ⟨row_mem_put ⟨a, current.attempt, rfl⟩, ?_, rfl, rfl, fits.declared, rfl⟩
      rw [current.of_id, current.of_generation]
      exact current.key
  · intro now
    cases now
  · exact fun e member own => absurd own (none e member)

/-- What a stop leaves of the attempt. -/
def Attempt.fence (a : Attempt) : Attempt :=
  if a.state = .sealed then a else { a with state := .fenced }

theorem Attempt.fence_key : a.fence.key = a.key := by
  rw [Attempt.fence]
  split <;> rfl

theorem Attempt.fence_reserved : a.fence.reserved_bytes = a.reserved_bytes := by
  rw [Attempt.fence]
  split <;> rfl

theorem Attempt.fence_actual : a.fence.actual_bytes = a.actual_bytes := by
  rw [Attempt.fence]
  split <;> rfl

/-- What an intention is asked for by. -/
def Intention.key (i : Intention) : String × Variant × String :=
  (i.principal, i.variant, i.client_key)

theorem insertIntention_eq_ok {row : Intention} (done : d.insertIntention row = .ok d') :
    (∀ i ∈ d.intentions, i.key ≠ row.key) ∧
      d' = { d with intentions := d.intentions ++ [row] } := by
  simp only [Data.insertIntention, except_bind_eq_ok, ensure_eq_ok, Bool.not_eq_true',
    List.any_eq_false, Bool.or_eq_true, Bool.and_eq_true, decide_eq_true_eq] at done
  obtain ⟨-, fresh, -, -, done⟩ := done
  refine ⟨fun i member same => fresh i member (.inr ?_), (Except.ok.inj done).symm⟩
  simpa [Intention.key, and_assoc] using same

/-- The reception that a conditional update names, with its attempt. -/
theorem Sound.current (sound : Sound d) (member : r ∈ d.receptions)
    (unstopped : r.stopped = false) : ∃ a, Current d r.id r.generation r a := by
  obtain ⟨a, held, key⟩ := (sound.stands r member).current
  exact ⟨a, member, held, rfl, rfl, key, unstopped⟩

/-- The data behind the stop of a reception with its attempt. -/
def Data.afterStop (d : Data) (r : ReceptionRow) (a : Attempt) : Data :=
  { d with
    receptions := put ReceptionRow.id
      { r with stopped := true, state := .stopped, revision := r.revision + 1 } d.receptions
    attempts := put Attempt.key a.fence d.attempts
    work := update (fun j => d.receipts.any fun e => e.reception_id = r.id && e.id = j.receipt_id)
      (fun j => { j with state := .stopped }) d.work }

theorem stop_reception_eq_ok {guard : Except Raised Unit} {expected_revision : Nat}
    (sound : Sound d)
    (moved : d.stop_reception guard target generation expected_revision = .ok d') :
    ∃ r a, Current d r.id r.generation r a ∧ r.id = target ∧ d' = d.afterStop r a := by
  simp only [Data.stop_reception, except_bind_eq_ok, ensure_eq_ok] at moved
  obtain ⟨-, -, -, found, moved⟩ := moved
  obtain ⟨r, member, taken⟩ := List.any_eq_true.mp found
  have taken' := taken
  simp only [Bool.and_eq_true, decide_eq_true_eq, Bool.not_eq_true'] at taken'
  obtain ⟨⟨⟨of_id, of_generation⟩, -⟩, unstopped⟩ := taken'
  obtain ⟨a, current⟩ := sound.current member unstopped
  have only : ∀ q ∈ d.receptions, (decide (q.id = target) && decide (q.generation = generation) &&
      decide (q.revision = expected_revision) && !q.stopped) = true → q.id = r.id := by
    intro q _ chosen
    simp only [Bool.and_eq_true, decide_eq_true_eq] at chosen
    exact chosen.1.1.1.trans of_id.symm
  have fenced : update (fun a : Attempt => a.of target generation && decide (a.state ≠ .sealed))
      (fun a => { a with state := .fenced }) d.attempts = put Attempt.key a.fence d.attempts := by
    rw [← of_id, ← of_generation]
    by_cases held : a.state = .sealed
    · rw [Attempt.fence, if_pos held, put_self sound.attempts_apart current.attempt]
      apply update_of_none
      intro b among
      by_contra chosen
      simp only [Bool.not_eq_false, Bool.and_eq_true, Attempt.of_iff, decide_eq_true_eq] at chosen
      rw [eq_of_key sound.attempts_apart among current.attempt
        (chosen.1.trans current.key.symm)] at chosen
      exact chosen.2 held
    · rw [Attempt.fence, if_neg held]
      apply current.put_attempt sound _ _ rfl
      · simp [current.key, held]
      · intro b _ chosen
        simp only [Bool.and_eq_true, Attempt.of_iff] at chosen
        exact chosen.1
  rw [← Except.ok.inj moved, current.put_reception sound taken only rfl, fenced, ← of_id]
  exact ⟨r, a, current, rfl, rfl⟩

theorem afterStop_touches (sound : Sound d) (current : Current d r.id r.generation r a)
    (intentions : List Intention) :
    Touches d { d.afterStop r a with intentions := intentions }
      { r with stopped := true, state := .stopped, revision := r.revision + 1 } := by
  have fits := current.fits sound
  have kept : a.state = .sealed → a.fence = a := fun held => if_pos held
  refine touches_of_put sound current.reception current.unstopped current.attempt current.own
    rfl rfl rfl rfl Attempt.fence_key (fun _ _ => Iff.rfl) (fun _ _ => Iff.rfl)
    sound.receipts_apart ?_
  refine current.stands sound rfl rfl rfl rfl Attempt.fence_key (Nat.le_add_right _ _) ?_ kept
    ?_ ?_ ?_ ?_
  · exact iff_of_true rfl rfl
  · by_cases held : a.state = .sealed
    · rw [kept held]
      exact { fits with staged := fun _ => .inr (.inr rfl) }
    · rw [Attempt.fence, if_neg held]
      exact {
        declared := fits.declared
        known := fits.known
        fenced := fun _ => rfl
        whole := fun held => by cases held
        staged := fun held => by cases held }
  · exact fun o member _ => .inl member
  · intro now
    cases now
  · intro e member own
    have receipted := (sound.stands r current.reception).receipt e member own
    obtain ⟨b, held⟩ := receipted.original
    exact { receipted with
      state := .inr rfl
      original := ⟨b, current.sealed sound Attempt.fence_key kept rfl held⟩ }

theorem cancel_eq_ok {guard : Except Raised Unit} {reception : ReceptionRow} {attempt : Attempt}
    {call : Call} (sound : Sound d) (done : d.cancel guard reception attempt call = .ok d') :
    ∃ r a, Current d r.id r.generation r a ∧ r.id = reception.id ∧
      (∀ i ∈ d.intentions, i.key ≠ (call.intention .cancel_reception r.id none).key) ∧
      d' = { d.afterStop r a with
        intentions := d.intentions ++ [call.intention .cancel_reception r.id none] } := by
  simp only [Data.cancel, except_bind_eq_ok, statement_eq_ok] at done
  obtain ⟨stopped, moved, noted, inserted, checked⟩ := done
  obtain ⟨fresh, rfl⟩ := insertIntention_eq_ok inserted
  rw [eq_of_consistent_receipt checked]
  obtain ⟨r, a, current, id, rfl⟩ := stop_reception_eq_ok sound moved
  rw [← id]
  exact ⟨r, a, current, rfl, fresh, rfl⟩

theorem finishStop_eq_ok {guard : Except Raised Unit} {reception : ReceptionRow} (sound : Sound d)
    (done : d.finishStop guard reception = .ok d') :
    ∃ r a, Current d r.id r.generation r a ∧ d' = d.afterStop r a := by
  simp only [Data.finishStop, except_bind_eq_ok, statement_eq_ok] at done
  obtain ⟨-, -, stopped, moved, checked⟩ := done
  rw [eq_of_consistent_receipt checked]
  obtain ⟨r, a, current, -, rfl⟩ := stop_reception_eq_ok sound moved
  exact ⟨r, a, current, rfl⟩

theorem requestStop_eq_ok {reception : ReceptionRow} {call : Call}
    (done : d.requestStop reception call = .ok d') :
    (∃ r ∈ d.receptions, r.id = reception.id) ∧
      (∀ i ∈ d.intentions, i.key ≠ (call.intention .cancel_reception reception.id none).key) ∧
      d' = { d with
        intentions := d.intentions ++ [call.intention .cancel_reception reception.id none] } := by
  simp only [Data.requestStop, except_bind_eq_ok, statement_eq_ok] at done
  obtain ⟨noted, inserted, checked⟩ := done
  rw [eq_of_consistent_receipt checked]
  obtain ⟨fresh, same⟩ := insertIntention_eq_ok inserted
  refine ⟨?_, fresh, same⟩
  simp only [Data.insertIntention, except_bind_eq_ok, ensure_eq_ok] at inserted
  obtain ⟨-, -, -, found, -⟩ := inserted
  obtain ⟨r, member, id⟩ := List.any_eq_true.mp found
  exact ⟨r, member, of_decide_eq_true id⟩

theorem recordIncomplete_eq_ok {incarnation session : String} {unresolved : Bool} (sound : Sound d)
    (done : d.recordIncomplete target generation incarnation session unresolved = .ok d') :
    d' = d ∨ ∃ r a, Current d target generation r a ∧ r.isOpen ∧ a.isOpen ∧
      d' = { d with
        receptions := put ReceptionRow.id { r with
          state := if unresolved then .uncertain else .interrupted, revision := r.revision + 1 }
          d.receptions
        attempts := put Attempt.key { a with state := .interrupted } d.attempts } := by
  rw [Data.recordIncomplete, Data.record_incomplete] at done
  split at done
  · next found =>
    split at found
    · next recorded =>
      obtain ⟨rfl, -⟩ := Prod.mk.inj found
      rw [statement_eq_ok] at done
      rw [eq_of_consistent_receipt done]
      right
      obtain ⟨r, member, taken⟩ := List.any_eq_true.mp recorded
      have taken' := taken
      simp only [Bool.and_eq_true, Attempt.of_iff, decide_eq_true_eq, List.any_eq_true,
        List.mem_cons, List.not_mem_nil, or_false, Bool.not_eq_true'] at taken'
      obtain ⟨⟨⟨⟨⟨⟨of_id, of_generation⟩, -⟩, unstopped⟩, takes⟩, a, held, ⟨key, -⟩, opened⟩, -⟩ :=
        taken'
      have current : Current d target generation r a :=
        ⟨member, held, of_id, of_generation, key.trans (by rw [of_id, of_generation]), unstopped⟩
      refine ⟨r, a, current, takes, opened, ?_⟩
      rw [current.put_reception sound taken _ rfl, current.put_attempt sound _ _ rfl]
      · simp [current.key]
      · simp
      · intro q _ chosen
        simp only [Bool.and_eq_true, decide_eq_true_eq] at chosen
        exact chosen.1.1.1.1.1.1
    · cases found
  · next found =>
    split at found
    · cases found
    · exact .inl (Except.ok.inj done ▸ (Prod.mk.inj found).1.symm)

theorem recordIncomplete_touches {incarnation session : String} {unresolved : Bool}
    (sound : Sound d)
    (done : d.recordIncomplete target generation incarnation session unresolved = .ok d') :
    d' = d ∨ ∃ r', Touches d d' r' := by
  rcases recordIncomplete_eq_ok sound done with same | ⟨r, a, current, takes, opened, rfl⟩
  · exact .inl same
  right
  have fits := current.fits sound
  have none := (sound.stands r current.reception).no_receipt (takes.ne (by simp)) current.unstopped
  refine ⟨_, touches_of_put sound current.reception current.unstopped current.attempt current.own
    rfl rfl rfl rfl rfl (fun _ _ => Iff.rfl) (fun _ _ => Iff.rfl) sound.receipts_apart ?_⟩
  refine current.stands sound rfl rfl rfl rfl rfl (Nat.le_add_right _ _) ?_ ?_ ?_ ?_ ?_ ?_
  · cases unresolved <;> simp [current.unstopped]
  · exact fun held => absurd held opened.unsealed
  · exact {
      declared := fits.declared
      known := fits.known
      fenced := fun earlier => by
        have fenced := fits.fenced earlier
        rcases opened with now | now <;> simp [now] at fenced
      whole := fun held => by cases held
      staged := fun held => by cases held }
  · exact fun o member _ => .inl member
  · cases unresolved <;> exact fun now => by cases now
  · exact fun e member own => absurd own (none e member)

/-- The receipt of a staged reception for an original, and what it was refused by otherwise. -/
structure Finalized (d : Data) (reception : ReceptionRow) (call : Call) (r : ReceptionRow)
    (a : Attempt) (e : Receipt) (o : Artifact) : Prop where
  current : Current d r.id r.generation r a
  of_id : r.id = reception.id
  staged : r.state = .staged
  none : ∀ e ∈ d.receipts, e.reception_id ≠ r.id
  original : o ∈ d.artifacts
  of_reception : o.reception_id = r.id
  own : e.reception_id = r.id
  generation : e.generation = r.generation
  of_generation : o.generation = r.generation
  slot : e.effect_id = r.effect_slot
  artifact : e.artifact_id = o.id
  bytes : e.bytes = o.bytes
  digest : e.sha256 = o.sha256
  unasked : ∀ i ∈ d.intentions,
    i.key ≠ (call.intention .finalize_reception reception.id (some reception.effect_slot)).key
  fresh : ∀ x ∈ d.receipts, x.id ≠ e.id
  idle : ∀ j ∈ d.work, j.receipt_id ≠ e.id

theorem finalize_eq_ok {reception : ReceptionRow} {attempt : Attempt} {artifact : Artifact}
    {call : Call} (sound : Sound d)
    (done : d.finalize reception attempt artifact call = .ok d') :
    ∃ r a e o, Finalized d reception call r a e o ∧ ∃ evidence,
      d' = { d with
        receptions := put ReceptionRow.id
          { r with state := .received, revision := r.revision + 1 } d.receptions
        receipts := d.receipts ++ [e]
        work := d.work ++ [⟨call.job_id, e.id, e.artifact_id, e.generation, .not_started⟩]
        intentions := d.intentions ++
          [call.intention .finalize_reception reception.id (some reception.effect_slot)]
        evidence := evidence } := by
  simp only [Data.finalize, except_bind_eq_ok, statement_eq_ok] at done
  obtain ⟨-, -, -, -, noted, inserted, seen, evident, receipted, added, worked, job, moved,
    complete, checked⟩ := done
  obtain ⟨unasked, rfl⟩ := insertIntention_eq_ok inserted
  rw [eq_of_consistent_receipt checked]
  simp only [Data.insertEvidence, except_bind_eq_ok, ensure_eq_ok] at evident
  obtain ⟨-, -, evident⟩ := evident
  rw [← Except.ok.inj evident] at added
  simp only [Data.insertReceipt, except_bind_eq_ok, ensure_eq_ok, Bool.not_eq_true',
    List.any_eq_false, List.any_eq_true, Bool.and_eq_true, decide_eq_true_eq, Bool.or_eq_true]
    at added
  obtain ⟨-, fresh, -, ⟨⟨-, o, original, ⟨⟨⟨of_reception, of_generation⟩, id⟩, bytes⟩, digest⟩, -⟩,
    added⟩ := added
  rw [← Except.ok.inj added] at job
  simp only [Data.insertWork, except_bind_eq_ok, ensure_eq_ok, Bool.not_eq_true',
    List.any_eq_false, Bool.or_eq_true, decide_eq_true_eq, not_or] at job
  obtain ⟨-, idle, -, -, job⟩ := job
  rw [← Except.ok.inj job] at complete
  simp only [Data.complete_reception, except_bind_eq_ok, ensure_eq_ok] at complete
  obtain ⟨-, found, complete⟩ := complete
  obtain ⟨r, member, taken⟩ := List.any_eq_true.mp found
  have taken' := taken
  simp only [Bool.and_eq_true, decide_eq_true_eq, List.any_eq_true, Bool.not_eq_true',
    List.mem_append, List.mem_singleton] at taken'
  obtain ⟨⟨⟨⟨⟨at_id, at_generation⟩, -⟩, staged⟩, unstopped⟩, e, receipt, ⟨⟨own, of_same⟩, slot⟩,
    -⟩ := taken'
  obtain ⟨a, current⟩ := sound.current member unstopped
  have none : ∀ e ∈ d.receipts, e.reception_id ≠ r.id := by
    intro e held same
    exact fresh e held (.inl (.inl (.inr (same.trans at_id))))
  -- The receipt that the reception is completed with is the one just added.
  have new := receipt.resolve_left fun held => none e held own
  subst new
  rw [← Except.ok.inj complete, current.put_reception sound taken ?_ rfl]
  · refine ⟨r, a, _, o, ?_, _, rfl⟩
    exact {
      current := current
      of_id := at_id
      staged := staged
      none := none
      original := original
      of_reception := of_reception.trans at_id.symm
      own := own
      generation := of_same
      of_generation := of_generation.trans of_same
      slot := slot
      artifact := id.symm
      bytes := bytes.symm
      digest := digest.symm
      unasked := unasked
      fresh := fun x held same => fresh x held (.inl (.inl (.inl same)))
      idle := fun j held => (idle j held).2 }
  · intro q _ chosen
    simp only [Bool.and_eq_true, decide_eq_true_eq] at chosen
    exact chosen.1.1.1.1.1.trans at_id.symm

theorem finalize_touches {reception : ReceptionRow} {attempt : Attempt} {artifact : Artifact}
    {call : Call} (sound : Sound d)
    (done : d.finalize reception attempt artifact call = .ok d') : ∃ r', Touches d d' r' := by
  obtain ⟨r, a, e, o, finalized, evidence, rfl⟩ := finalize_eq_ok sound done
  have current := finalized.current
  have stands := sound.stands r current.reception
  have fits := current.fits sound
  have attempts : d.attempts = put Attempt.key a d.attempts :=
    (put_self sound.attempts_apart current.attempt).symm
  -- The original was filed when the attempt was sealed, so it is as declared.
  obtain ⟨b, held⟩ := stands.filed o finalized.original finalized.of_reception
  have matched := stands.fits b held.member (congrArg Prod.fst held.key)
  have size : e.bytes = r.declaration.bytes := by
    rw [finalized.bytes, ← held.bytes, matched.declared]
  have hash : e.sha256 = r.declaration.sha256 := by
    rw [finalized.digest]
    exact Option.some_inj.mp (held.digest.symm.trans (matched.whole held.state).2)
  refine ⟨_, touches_of_put sound current.reception current.unstopped current.attempt current.own
    rfl attempts rfl rfl rfl (fun _ _ => Iff.rfl) ?_ (nodup_concat sound.receipts_apart ?_) ?_⟩
  · intro e' other
    simp only [List.mem_append, List.mem_singleton, or_iff_left_iff_imp]
    rintro rfl
    exact absurd finalized.own other
  · intro old among
    rw [finalized.own]
    exact finalized.none old among
  refine current.stands sound rfl rfl rfl attempts rfl (Nat.le_add_right _ _) ?_ (fun _ => rfl)
    ?_ ?_ ?_ ?_
  · simp [current.unstopped]
  · exact { fits with staged := fun _ => .inr (.inl rfl) }
  · exact fun o member _ => .inl member
  · exact fun _ => ⟨e, by simp, finalized.own⟩
  · intro e' member own
    rcases List.mem_append.mp member with old | new
    · exact absurd own (finalized.none e' old)
    · rw [List.mem_singleton.mp new]
      refine ⟨.inl rfl, finalized.slot, finalized.generation, size, hash, b, held.member, ?_, ?_,
        held.state, ?_, ?_⟩
      · rw [held.key, finalized.of_generation, finalized.generation]
      · rw [held.artifact, finalized.artifact]
      · rw [held.bytes, finalized.bytes]
      · rw [held.digest, finalized.digest]

/-- The attempt that a resumption adds. -/
def nextAttempt (r : ReceptionRow) (artifact_id incarnation : String) (deadline : Nat) : Attempt :=
  { reception_id := r.id, generation := r.generation + 1, artifact_id := artifact_id
    incarnation := incarnation, state := .reserved, expires_at := deadline
    reserved_bytes := r.declaration.bytes, actual_bytes := 0, actual_sha256 := none }

theorem resume_eq_ok {guard : Except Raised Unit} {reception : ReceptionRow} {attempt : Attempt}
    {call : Call} {artifact_id incarnation : String} {deadline : Nat} (sound : Sound d)
    (done : d.resume guard reception attempt call artifact_id incarnation deadline = .ok d') :
    ∃ r a, Current d r.id r.generation r a ∧ r.id = reception.id ∧ r.generation < 3 ∧
      (r.isOpen ∨ r.state = .interrupted) ∧ (∀ e ∈ d.receipts, e.reception_id ≠ r.id) ∧
      (∀ i ∈ d.intentions, i.key ≠ (call.intention .resume_reception r.id none).key) ∧ d' = { d with
        receptions := put ReceptionRow.id
          { r with state := .reserved, revision := r.revision + 1, generation := r.generation + 1 }
          d.receptions
        attempts := put Attempt.key { a with state := .fenced } d.attempts ++
          [nextAttempt r artifact_id incarnation deadline]
        intentions := d.intentions ++ [call.intention .resume_reception r.id none] } := by
  simp only [Data.resume, except_bind_eq_ok, statement_eq_ok] at done
  obtain ⟨resumed, moved, noted, inserted, checked⟩ := done
  obtain ⟨fresh, rfl⟩ := insertIntention_eq_ok inserted
  rw [eq_of_consistent_receipt checked]
  simp only [Data.resume_attempt, except_bind_eq_ok] at moved
  obtain ⟨-, -, moved⟩ := moved
  split at moved
  · cases moved
  · next r found =>
    have taken := List.find?_some found
    have member := List.mem_of_find?_eq_some found
    have taken' := taken
    simp only [Bool.and_eq_true, decide_eq_true_eq, List.mem_cons, List.not_mem_nil, or_false,
      Bool.not_eq_true', List.any_eq_false] at taken'
    obtain ⟨⟨⟨⟨⟨⟨at_id, at_generation⟩, -⟩, few⟩, unstopped⟩, takes⟩, none⟩ := taken'
    obtain ⟨a, current⟩ := sound.current member unstopped
    have only : ∀ q ∈ d.receptions, (decide (q.id = reception.id) &&
        decide (q.generation = attempt.generation) && decide (q.revision = reception.revision) &&
        decide (q.generation < 3) && !q.stopped &&
        decide (q.state ∈ [.reserved, .receiving, .interrupted]) &&
        !d.receipts.any fun e => e.reception_id = reception.id) = true → q.id = r.id := by
      intro q _ chosen
      simp only [Bool.and_eq_true, decide_eq_true_eq] at chosen
      exact chosen.1.1.1.1.1.1.trans at_id.symm
    have fenced : update (fun a : Attempt => a.of reception.id attempt.generation)
        (fun a => { a with state := .fenced }) d.attempts =
        put Attempt.key { a with state := .fenced } d.attempts := by
      rw [← at_id, ← at_generation]
      apply current.put_attempt sound _ _ rfl
      · simp [current.key]
      · exact fun b _ chosen => Attempt.of_iff.mp chosen
    rw [fenced, current.put_reception sound taken only rfl] at moved
    simp only [Data.insertAttempt, except_bind_eq_ok, ensure_eq_ok] at moved
    obtain ⟨-, -, -, -, -, -, moved⟩ := moved
    rw [← Except.ok.inj moved, ← at_id] at fresh ⊢
    rw [← at_generation]
    refine ⟨r, a, current, rfl, few, ?_, ?_, fresh, rfl⟩
    · rcases takes with now | now | now
      · exact .inl (.inl now)
      · exact .inl (.inr now)
      · exact .inr now
    · intro e held same
      exact none e held (same.trans at_id)

theorem resume_touches {guard : Except Raised Unit} {reception : ReceptionRow} {attempt : Attempt}
    {call : Call} {artifact_id incarnation : String} {deadline : Nat} (sound : Sound d)
    (done : d.resume guard reception attempt call artifact_id incarnation deadline = .ok d') :
    ∃ r', Touches d d' r' := by
  obtain ⟨r, a, current, -, few, takes, none, -, rfl⟩ := resume_eq_ok sound done
  have stood := sound.stands r current.reception
  have fits := current.fits sound
  -- A sealed attempt would have the reception staged, received or stopped.
  have unsealed : a.state ≠ .sealed := by
    intro held
    rcases fits.staged held with now | now | now <;>
      rcases takes with (other | other) | other <;> simp [now] at other
  have attempts : ∀ b : Attempt, b ∈ put Attempt.key { a with state := .fenced } d.attempts ↔
      b = { a with state := .fenced } ∨ (b ∈ d.attempts ∧ b.key ≠ a.key) :=
    fun b => mem_put ⟨a, current.attempt, rfl⟩
  have fresh : ∀ b ∈ d.attempts, b.key ≠ (r.id, r.generation + 1) := by
    intro b member same
    have known := (stood.fits b member (congrArg Prod.fst same)).known
    rw [show b.generation = r.generation + 1 from congrArg Prod.snd same] at known
    omega
  refine ⟨{ r with state := .reserved, revision := r.revision + 1, generation := r.generation + 1 },
    ?_, ?_, ?_, ?_, fun _ _ => Iff.rfl, fun _ _ => Iff.rfl, ?_, ?_, sound.receipts_apart, ?_⟩
  · exact fun q => mem_put ⟨r, current.reception, rfl⟩
  · intro q member same
    rw [eq_of_key sound.receptions_apart member current.reception same]
    exact current.unstopped
  · intro q member same
    rw [eq_of_key sound.receptions_apart member current.reception same]
  · intro b other
    have apart : b.key ≠ a.key := by
      intro same
      exact other ((congrArg Prod.fst same).trans current.own)
    have new : b ≠ nextAttempt r artifact_id incarnation deadline := by
      rintro rfl
      exact other rfl
    have old : b ≠ { a with state := .fenced } := by
      rintro rfl
      exact apart rfl
    simp [attempts, apart, new, old]
  · exact nodup_put sound.receptions_apart
  · apply nodup_concat (nodup_put sound.attempts_apart)
    intro b member
    rcases (attempts b).mp member with rfl | ⟨held, -⟩
    · exact fresh a current.attempt
    · exact fresh b held
  · exact {
      generations := ⟨Nat.le_add_left 1 _, few⟩
      revised := Nat.succ_pos _
      small := stood.small
      stopped := by simp [current.unstopped]
      current := ⟨nextAttempt r artifact_id incarnation deadline, by simp, rfl⟩
      fits := by
        intro b member own
        rcases List.mem_append.mp member with old | new
        · -- What there was before is fenced.
          have fenced : b.state = .fenced ∧ b.reserved_bytes = r.declaration.bytes ∧
              b.generation ≤ r.generation := by
            rcases (attempts b).mp old with rfl | ⟨held, other⟩
            · exact ⟨rfl, fits.declared, fits.known⟩
            · have before := stood.fits b held own
              have earlier : b.generation < r.generation := by
                apply Nat.lt_of_le_of_ne before.known
                intro same
                exact other (Prod.ext (own.trans current.own.symm)
                  (same.trans (congrArg Prod.snd current.key).symm))
              exact ⟨before.fenced earlier, before.declared, before.known⟩
          exact {
            declared := fenced.2.1
            known := Nat.le_succ_of_le fenced.2.2
            fenced := fun _ => fenced.1
            whole := fun held => by simp [fenced.1] at held
            staged := fun held => by simp [fenced.1] at held }
        · rw [List.mem_singleton.mp new]
          exact {
            declared := rfl
            known := Nat.le_refl _
            fenced := fun earlier => absurd earlier (Nat.lt_irrefl _)
            whole := fun held => by cases held
            staged := fun held => by cases held }
      filed := by
        intro o member own
        obtain ⟨b, held⟩ := stood.filed o member own
        refine ⟨b, { held with member := ?_ }⟩
        apply List.mem_append_left
        apply (attempts b).mpr
        refine .inr ⟨held.member, fun same => unsealed ?_⟩
        rw [← eq_of_key sound.attempts_apart held.member current.attempt same]
        exact held.state
      received := fun now => by cases now
      receipt := fun e member own => absurd own (none e member) }

theorem reserve_eq_ok {b : Reservation} (done : d.reserve b = .ok d') :
    (∀ q ∈ d.receptions, q.id ≠ b.id) ∧
      d.receptions.length < ReceptionBounds.receptions ∧
      d.quota + b.original.bytes ≤ ReceptionBounds.storageBytes ∧ b.original.bytes ≤ 1048576 ∧
      (∀ i ∈ d.intentions, i.key ≠ b.intention.key) ∧ d' = { d with
        receptions := d.receptions ++ [(newReception b).1]
        attempts := d.attempts ++ [(newReception b).2]
        intentions := d.intentions ++ [b.intention] } := by
  simp only [Data.reserve, except_bind_eq_ok, statement_eq_ok, ensure_eq_ok, Bool.and_eq_true,
    decide_eq_true_eq] at done
  obtain ⟨-, ⟨few, room⟩, reserved, moved, attempted, added, noted, inserted, checked⟩ := done
  obtain ⟨unasked, rfl⟩ := insertIntention_eq_ok inserted
  rw [eq_of_consistent_receipt checked]
  simp only [Data.insertReception, except_bind_eq_ok, ensure_eq_ok, Bool.not_eq_true',
    List.any_eq_false, Bool.or_eq_true, decide_eq_true_eq, not_or] at moved
  obtain ⟨-, fresh, -, -, moved⟩ := moved
  rw [← Except.ok.inj moved] at added
  simp only [Data.insertAttempt, except_bind_eq_ok, ensure_eq_ok, Bool.and_eq_true,
    decide_eq_true_eq] at added
  obtain ⟨-, -, -, -, -, ⟨⟨-, small⟩, -⟩, added⟩ := added
  rw [← Except.ok.inj added] at unasked ⊢
  exact ⟨fun q member => (fresh q member).1, few, room, small, unasked, rfl⟩

theorem reserve_touches {b : Reservation} (sound : Sound d) (done : d.reserve b = .ok d') :
    ∃ r', Touches d d' r' := by
  obtain ⟨fresh, -, -, small, -, rfl⟩ := reserve_eq_ok done
  have unattempted : ∀ a ∈ d.attempts, a.reception_id ≠ b.id := by
    intro a member same
    obtain ⟨r, held, of⟩ := sound.attempt_of a member
    exact fresh r held (of.trans same)
  refine ⟨(newReception b).1, ?_, ?_, ?_, ?_, fun _ _ => Iff.rfl, fun _ _ => Iff.rfl,
    nodup_concat sound.receptions_apart fresh, nodup_concat sound.attempts_apart ?_,
    sound.receipts_apart, ?_⟩
  · intro q
    rw [List.mem_append, List.mem_singleton, or_comm]
    exact or_congr_right (iff_self_and.mpr (fresh q))
  · exact fun q member same => absurd same (fresh q member)
  · exact fun q member same => absurd same (fresh q member)
  · intro a other
    rw [List.mem_append, List.mem_singleton, or_iff_left_iff_imp]
    rintro rfl
    exact absurd rfl other
  · exact fun a member same => unattempted a member (congrArg Prod.fst same)
  · exact {
      generations := ⟨Nat.le_refl 1, Nat.le_add_left 1 2⟩
      revised := Nat.one_pos
      small := small
      stopped := by simp [newReception]
      current := ⟨(newReception b).2, by simp, rfl⟩
      fits := by
        intro a member own
        rcases List.mem_append.mp member with old | new
        · exact absurd own (unattempted a old)
        · rw [List.mem_singleton.mp new]
          exact {
            declared := rfl
            known := Nat.le_refl _
            fenced := fun earlier => absurd earlier (Nat.lt_irrefl _)
            whole := fun held => by cases held
            staged := fun held => by cases held }
      filed := by
        intro o member own
        obtain ⟨r, held, of⟩ := sound.artifact_of o member
        exact absurd (of.trans own) (fresh r held)
      received := fun now => by cases now
      receipt := by
        intro e member own
        obtain ⟨r, held, of⟩ := sound.receipt_of e member
        exact absurd (of.trans own) (fresh r held) }

end LedgerDesk.Reception
