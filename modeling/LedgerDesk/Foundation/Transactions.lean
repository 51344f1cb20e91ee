import LedgerDesk.Foundation.Runs

/-!
# A service of snapshot transactions

Every request holds one connection. It is received under a shared or the exclusive
admission, discovers what it will lock, waits for its object locks, takes a snapshot, and
is evaluated over that snapshot alone; what it writes is committed to the store as it then
stands, or not at all. The connection keeps its locks until the answer is handed off.
-/
namespace Foundation

/-- What a request comes to over its snapshot. With an expiry, it does not commit from then on. -/
structure Evaluation (χ ω : Type*) where
  answer : ω
  changes : χ
  expiry : Option Int

/-- Why the store does not take the changes. -/
inductive Refusal where
  /-- A row was changed since the snapshot, or a key is taken: worth another try. -/
  | conflict
  | violation
  deriving DecidableEq, Repr

structure Service (δ ρ κ η χ ω γ : Type*) where
  /-- A request is received only while the store lets it. -/
  receives : δ → Int → Bool
  exclusive : ρ → Bool
  /-- Read before the locks are taken. -/
  discover : δ → ρ → κ
  keys : ρ → κ → List String
  evaluate : δ → Int → κ → ρ → η → Evaluation χ ω
  commit : δ → χ → Except Refusal δ
  retries : ρ → Nat
  failed : ω
  /-- Operations on the store itself, which take the exclusive admission. -/
  control : γ → Int → δ → Option δ

inductive Phase (δ κ ω : Type*) where
  | waiting (attempt : Nat)
  | received (attempt : Nat)
  | discovered (attempt : Nat) (found : κ)
  | opened (attempt : Nat) (found : κ) (snapshot : δ) (now : Int)
  /-- The transaction is over; the answer is not handed off, and the locks are kept. -/
  | answered (found : κ) (answer : ω)
  | done (answer : ω)

namespace Phase

variable {δ κ ω : Type*}

/-- What the request found for itself, once it holds its object locks. -/
def locked : Phase δ κ ω → Option κ
  | .opened _ found _ _ => some found
  | .answered found _ => some found
  | _ => none

/-- What the request has been answered, handed off or not. -/
def answer : Phase δ κ ω → Option ω
  | .answered _ answer => some answer
  | .done answer => some answer
  | _ => none

/-- The request holds a connection. -/
def connected : Phase δ κ ω → Bool
  | .waiting _ | .done _ => false
  | _ => true

end Phase

structure World (ι δ κ ω : Type*) where
  store : δ
  clock : Int
  /-- The requests that hold a connection. -/
  live : List ι
  phase : ι → Phase δ κ ω

inductive Act (ι η γ : Type*) where
  | receive (i : ι)
  | discover (i : ι)
  | opening (i : ι)
  | finish (i : ι) (chance : η)
  /-- The commit succeeds and its acknowledgement, or the answer, is lost. -/
  | lose (i : ι) (chance : η)
  /-- The process or the connection fails before the commit. -/
  | crash (i : ι)
  | release (i : ι)
  | control (c : γ)
  | tick (elapsed : Nat)

namespace World

variable {ι δ κ ω : Type*} [DecidableEq ι]

def setPhase (w : World ι δ κ ω) (i : ι) (phase : Phase δ κ ω) : World ι δ κ ω :=
  { w with phase := Function.update w.phase i phase }

def enter (w : World ι δ κ ω) (i : ι) : World ι δ κ ω := { w with live := i :: w.live }

def leave (w : World ι δ κ ω) (i : ι) : World ι δ κ ω :=
  { w with live := w.live.filter fun j => j != i }

def setStore (w : World ι δ κ ω) (store : δ) : World ι δ κ ω := { w with store := store }

@[simp] theorem setPhase_self (w : World ι δ κ ω) (i : ι) (p : Phase δ κ ω) :
    (w.setPhase i p).phase i = p :=
  Function.update_self _ _ _

theorem setPhase_of_ne (w : World ι δ κ ω) {i j : ι} (p : Phase δ κ ω) (other : j ≠ i) :
    (w.setPhase i p).phase j = w.phase j :=
  Function.update_of_ne other _ _

theorem mem_leave {w : World ι δ κ ω} {i j : ι} : j ∈ (w.leave i).live ↔ j ∈ w.live ∧ j ≠ i := by
  simp [leave]

end World

section

variable {ι δ ρ κ η χ ω γ : Type*} [DecidableEq ι]
variable (service : Service δ ρ κ η χ ω γ) (requests : ι → ρ)

def worldStart (store : δ) (clock : Int) : World ι δ κ ω where
  store := store
  clock := clock
  live := []
  phase _ := .waiting 0

/-- The admission a request asks for is free. -/
def admissible (w : World ι δ κ ω) (i : ι) : Bool :=
  if service.exclusive (requests i) then w.live.isEmpty
  else w.live.all fun j => !service.exclusive (requests j)

/-- No other connection holds one of the keys. -/
def unlocked (w : World ι δ κ ω) (i : ι) (found : κ) : Bool :=
  w.live.all fun j => j == i ||
    (w.phase j).locked.all fun held =>
      (service.keys (requests j) held).all fun key => key ∉ service.keys (requests i) found

def receiveStep (w : World ι δ κ ω) (i : ι) : Option (World ι δ κ ω) :=
  match w.phase i with
  | .waiting attempt =>
    if service.receives w.store w.clock && admissible service requests w i && i ∉ w.live then
      some ((w.enter i).setPhase i (.received attempt))
    else none
  | _ => none

def discoverStep (w : World ι δ κ ω) (i : ι) : Option (World ι δ κ ω) :=
  match w.phase i with
  | .received attempt =>
    some (w.setPhase i (.discovered attempt (service.discover w.store (requests i))))
  | _ => none

def openStep (w : World ι δ κ ω) (i : ι) : Option (World ι δ κ ω) :=
  match w.phase i with
  | .discovered attempt found =>
    if unlocked service requests w i found then
      some (w.setPhase i (.opened attempt found w.store w.clock))
    else none
  | _ => none

/-- The evaluation of an open request, with what it holds. -/
def evaluation (w : World ι δ κ ω) (i : ι) (chance : η) : Option (Nat × κ × Evaluation χ ω) :=
  match w.phase i with
  | .opened attempt found snapshot now =>
    some (attempt, found, service.evaluate snapshot now found (requests i) chance)
  | _ => none

/-- The clock is read once more before the commit. -/
def inTime (w : World ι δ κ ω) (e : Evaluation χ ω) : Bool := e.expiry.all fun expiry => w.clock < expiry

def finishStep (w : World ι δ κ ω) (i : ι) (chance : η) : Option (World ι δ κ ω) :=
  match evaluation service requests w i chance with
  | none => none
  | some (attempt, found, e) =>
    if inTime w e then
      match service.commit w.store e.changes with
      | .ok store => some ((w.setStore store).setPhase i (.answered found e.answer))
      | .error refusal =>
        if refusal = .conflict ∧ attempt < service.retries (requests i) then
          some ((w.leave i).setPhase i (.waiting (attempt + 1)))
        else some (w.setPhase i (.answered found service.failed))
    else some (w.setPhase i (.answered found service.failed))

def loseStep (w : World ι δ κ ω) (i : ι) (chance : η) : Option (World ι δ κ ω) :=
  match evaluation service requests w i chance with
  | none => none
  | some (_, found, e) =>
    if inTime w e then
      match service.commit w.store e.changes with
      | .ok store => some ((w.setStore store).setPhase i (.answered found service.failed))
      | .error _ => none
    else none

def crashStep (w : World ι δ κ ω) (i : ι) : Option (World ι δ κ ω) :=
  match w.phase i with
  | .waiting _ => some (w.setPhase i (.done service.failed))
  | .received _ | .discovered _ _ | .opened _ _ _ _ =>
    some ((w.leave i).setPhase i (.done service.failed))
  | _ => none

def releaseStep (w : World ι δ κ ω) (i : ι) : Option (World ι δ κ ω) :=
  match w.phase i with
  | .answered _ answer => some ((w.leave i).setPhase i (.done answer))
  | _ => none

def worldStep (w : World ι δ κ ω) : Act ι η γ → Option (World ι δ κ ω)
  | .receive i => receiveStep service requests w i
  | .discover i => discoverStep service requests w i
  | .opening i => openStep service requests w i
  | .finish i chance => finishStep service requests w i chance
  | .lose i chance => loseStep service requests w i chance
  | .crash i => crashStep service w i
  | .release i => releaseStep w i
  | .control c => if w.live.isEmpty then (service.control c w.clock w.store).map w.setStore else none
  | .tick elapsed => some { w with clock := w.clock + elapsed }

/-! ### What a step does -/

/-- The evaluation a request made over its snapshot is committed. -/
def Commits (w : World ι δ κ ω) (e : Evaluation χ ω) (store : δ) : Prop :=
  inTime w e = true ∧ service.commit w.store e.changes = .ok store

variable {service requests} {w w' : World ι δ κ ω}

omit [DecidableEq ι] in
theorem evaluation_eq_some {i : ι} {chance : η} {attempt : Nat} {found : κ} {e : Evaluation χ ω}
    (evaluated : evaluation service requests w i chance = some (attempt, found, e)) :
    ∃ snapshot now, w.phase i = .opened attempt found snapshot now ∧
      e = service.evaluate snapshot now found (requests i) chance := by
  rw [evaluation] at evaluated
  split at evaluated
  · next snapshot now opened =>
    cases evaluated
    exact ⟨snapshot, now, opened, rfl⟩
  · cases evaluated

/-- A finished request has committed, or it has to try again, or it has failed. -/
theorem finishStep_cases {i : ι} {chance : η}
    (taken : finishStep service requests w i chance = some w') :
    ∃ attempt found snapshot now, w.phase i = .opened attempt found snapshot now ∧
      ((∃ store, Commits service w (service.evaluate snapshot now found (requests i) chance) store ∧
          w' = (w.setStore store).setPhase i (.answered found
            (service.evaluate snapshot now found (requests i) chance).answer)) ∨
        w' = (w.leave i).setPhase i (.waiting (attempt + 1)) ∨
        w' = w.setPhase i (.answered found service.failed)) := by
  rw [finishStep] at taken
  split at taken
  · cases taken
  · next attempt found e evaluated =>
    obtain ⟨snapshot, now, opened, rfl⟩ := evaluation_eq_some evaluated
    refine ⟨attempt, found, snapshot, now, opened, ?_⟩
    split at taken
    · next early =>
      split at taken
      · next store committed =>
        cases taken
        exact .inl ⟨store, ⟨early, committed⟩, rfl⟩
      · split at taken
        · cases taken
          exact .inr (.inl rfl)
        · cases taken
          exact .inr (.inr rfl)
    · cases taken
      exact .inr (.inr rfl)

theorem loseStep_cases {i : ι} {chance : η}
    (taken : loseStep service requests w i chance = some w') :
    ∃ attempt found snapshot now, w.phase i = .opened attempt found snapshot now ∧
      ∃ store, Commits service w (service.evaluate snapshot now found (requests i) chance) store ∧
        w' = (w.setStore store).setPhase i (.answered found service.failed) := by
  rw [loseStep] at taken
  split at taken
  · cases taken
  · next attempt found e evaluated =>
    obtain ⟨snapshot, now, opened, rfl⟩ := evaluation_eq_some evaluated
    refine ⟨attempt, found, snapshot, now, opened, ?_⟩
    split at taken
    · next early =>
      split at taken
      · next store committed =>
        cases taken
        exact ⟨store, ⟨early, committed⟩, rfl⟩
      · cases taken
    · cases taken

/-! ### What holds of every run -/

variable (service requests)

/-- A property of the store, and a relation to every later store, that shared requests keep. -/
structure Laws (I : δ → Prop) (R : δ → δ → Prop) : Prop where
  refl : ∀ s, R s s
  commit : ∀ (i : ι) (snapshot store store' : δ) (now : Int) (found : κ) (chance : η),
    I snapshot → I store → R snapshot store →
    service.commit store (service.evaluate snapshot now found (requests i) chance).changes =
      .ok store' →
    I store' ∧ (service.exclusive (requests i) = false → ∀ old, R old store → R old store')
  control : ∀ (c : γ) (clock : Int) (store store' : δ), I store →
    service.control c clock store = some store' → I store'

/-- Connections hold their admission, and snapshots are related to the present store. -/
structure Sound (I : δ → Prop) (R : δ → δ → Prop) (w : World ι δ κ ω) : Prop where
  store : I w.store
  connected : ∀ i, (w.phase i).connected = true → i ∈ w.live
  alone : ∀ i ∈ w.live, service.exclusive (requests i) = true → ∀ j ∈ w.live, j = i
  snapshot : ∀ i attempt found snapshot now, w.phase i = .opened attempt found snapshot now →
    I snapshot ∧ R snapshot w.store ∧ now ≤ w.clock

variable {service requests} {I : δ → Prop} {R : δ → δ → Prop}

omit [DecidableEq ι] in
theorem sound_start {store : δ} {clock : Int} (initial : I store) :
    Sound service requests I R (worldStart (ι := ι) store clock) where
  store := initial
  connected := nofun
  alone := nofun
  snapshot := nofun

namespace Sound

/-- A connected request moves on to a phase that opens nothing. -/
theorem setPhase (sound : Sound service requests I R w) {i : ι} {p : Phase δ κ ω}
    (held : p.connected = true → i ∈ w.live)
    (opened : ∀ attempt found snapshot now, p = .opened attempt found snapshot now →
      I snapshot ∧ R snapshot w.store ∧ now ≤ w.clock) :
    Sound service requests I R (w.setPhase i p) where
  store := sound.store
  connected j := by
    by_cases same : j = i
    · subst same
      rw [World.setPhase_self]
      exact held
    · rw [World.setPhase_of_ne w p same]
      exact sound.connected j
  alone := sound.alone
  snapshot j := by
    by_cases same : j = i
    · subst same
      rw [World.setPhase_self]
      exact opened
    · rw [World.setPhase_of_ne w p same]
      exact sound.snapshot j

theorem leave (sound : Sound service requests I R w) {i : ι} {p : Phase δ κ ω}
    (idle : p.connected = false) (closed : ∀ attempt found snapshot now,
      p ≠ .opened attempt found snapshot now) :
    Sound service requests I R ((w.leave i).setPhase i p) where
  store := sound.store
  connected j := by
    by_cases same : j = i
    · subst same
      rw [World.setPhase_self, idle]
      exact nofun
    · rw [World.setPhase_of_ne _ p same]
      intro connected
      exact World.mem_leave.mpr ⟨sound.connected j connected, same⟩
  alone j member alone k member' :=
    sound.alone j (World.mem_leave.mp member).1 alone k (World.mem_leave.mp member').1
  snapshot j := by
    by_cases same : j = i
    · subst same
      rw [World.setPhase_self]
      exact fun attempt found snapshot now opened => absurd opened (closed _ _ _ _)
    · rw [World.setPhase_of_ne _ p same]
      exact sound.snapshot j

theorem enter (sound : Sound service requests I R w) {i : ι} {p : Phase δ κ ω}
    (free : admissible service requests w i = true) (closed : ∀ attempt found snapshot now,
      p ≠ .opened attempt found snapshot now) :
    Sound service requests I R ((w.enter i).setPhase i p) where
  store := sound.store
  connected j := by
    by_cases same : j = i
    · subst same
      exact fun _ => List.mem_cons_self
    · rw [World.setPhase_of_ne _ p same]
      exact fun connected => List.mem_cons_of_mem i (sound.connected j connected)
  alone := by
    rw [admissible] at free
    intro j member exclusive k member'
    split at free
    · -- the exclusive admission is given when nobody holds a connection
      have empty : w.live = [] := by simpa using free
      have live : ((w.enter i).setPhase i p).live = [i] := by
        change i :: w.live = [i]
        rw [empty]
      rw [live, List.mem_singleton] at member member'
      rw [member, member']
    · next shared =>
      have others : ∀ k ∈ w.live, service.exclusive (requests k) = false := by simpa using free
      rcases List.mem_cons.mp member with rfl | later
      · exact absurd exclusive shared
      · rw [others j later] at exclusive
        cases exclusive
  snapshot j := by
    by_cases same : j = i
    · subst same
      rw [World.setPhase_self]
      exact fun attempt found snapshot now opened => absurd opened (closed _ _ _ _)
    · rw [World.setPhase_of_ne _ p same]
      exact sound.snapshot j

/-- The store a request commits keeps what was promised to the requests that are open. -/
theorem committed (laws : Laws service requests I R) (sound : Sound service requests I R w)
    {i : ι} {attempt : Nat} {found : κ} {snapshot : δ} {now : Int} {chance : η} {store : δ}
    (opened : w.phase i = .opened attempt found snapshot now)
    (commits : Commits service w (service.evaluate snapshot now found (requests i) chance) store)
    (answer : ω) :
    Sound service requests I R ((w.setStore store).setPhase i (.answered found answer)) := by
  obtain ⟨standing, related, -⟩ := sound.snapshot i _ _ _ _ opened
  obtain ⟨kept, shared⟩ := laws.commit i snapshot w.store store now found chance standing
    sound.store related commits.2
  have member : i ∈ w.live := sound.connected i (by rw [opened]; rfl)
  refine ⟨kept, fun j => ?_, sound.alone, fun j => ?_⟩
  · by_cases same : j = i
    · subst same
      exact fun _ => member
    · rw [World.setPhase_of_ne _ _ same]
      exact sound.connected j
  · by_cases same : j = i
    · subst same
      rw [World.setPhase_self]
      exact nofun
    · rw [World.setPhase_of_ne _ _ same]
      intro attempt' found' snapshot' now' (opened' : w.phase j = _)
      obtain ⟨standing', related', past⟩ := sound.snapshot j _ _ _ _ opened'
      refine ⟨standing', shared ?_ snapshot' related', past⟩
      -- an exclusive request would be the only one with a connection
      rw [Bool.eq_false_iff]
      intro exclusive
      exact same (sound.alone i member exclusive j (sound.connected j (by rw [opened']; rfl)))

theorem step (laws : Laws service requests I R) (sound : Sound service requests I R w)
    {a : Act ι η γ} (taken : worldStep service requests w a = some w') :
    Sound service requests I R w' := by
  cases a with
  | receive i =>
    simp only [worldStep, receiveStep] at taken
    split at taken
    · split at taken
      · next free =>
        cases taken
        simp only [Bool.and_eq_true] at free
        exact sound.enter free.1.2 nofun
      · cases taken
    · cases taken
  | discover i =>
    simp only [worldStep, discoverStep] at taken
    split at taken
    · next received =>
      cases taken
      exact sound.setPhase (fun _ => sound.connected i (by rw [received]; rfl)) nofun
    · cases taken
  | opening i =>
    simp only [worldStep, openStep] at taken
    split at taken
    · next discovered =>
      split at taken
      · cases taken
        refine sound.setPhase (fun _ => sound.connected i (by rw [discovered]; rfl)) ?_
        rintro attempt found snapshot now ⟨⟩
        exact ⟨sound.store, laws.refl _, Int.le_refl _⟩
      · cases taken
    · cases taken
  | finish i chance =>
    obtain ⟨attempt, found, snapshot, now, opened, committed | rfl | rfl⟩ := finishStep_cases taken
    · obtain ⟨store, commits, rfl⟩ := committed
      exact sound.committed laws opened commits _
    · exact sound.leave rfl nofun
    · exact sound.setPhase (fun _ => sound.connected i (by rw [opened]; rfl)) nofun
  | lose i chance =>
    obtain ⟨attempt, found, snapshot, now, opened, store, commits, rfl⟩ := loseStep_cases taken
    exact sound.committed laws opened commits _
  | crash i =>
    simp only [worldStep, crashStep] at taken
    split at taken
    · cases taken
      exact sound.setPhase nofun nofun
    · cases taken
      exact sound.leave rfl nofun
    · cases taken
      exact sound.leave rfl nofun
    · cases taken
      exact sound.leave rfl nofun
    · cases taken
  | release i =>
    simp only [worldStep, releaseStep] at taken
    split at taken
    · cases taken
      exact sound.leave rfl nofun
    · cases taken
  | control c =>
    simp only [worldStep] at taken
    split at taken
    · next idle =>
      have empty : w.live = [] := by simpa using idle
      obtain ⟨store, controlled, rfl⟩ := Option.map_eq_some_iff.mp taken
      refine ⟨laws.control c _ _ _ sound.store controlled, sound.connected, sound.alone, ?_⟩
      intro i attempt found snapshot now opened
      have member : i ∈ w.live := sound.connected i (by rw [show w.phase i = _ from opened]; rfl)
      rw [empty] at member
      cases member
    · cases taken
  | tick elapsed =>
    cases taken
    refine ⟨sound.store, sound.connected, sound.alone, ?_⟩
    intro i attempt found snapshot now opened
    obtain ⟨standing, related, past⟩ := sound.snapshot i _ _ _ _ opened
    exact ⟨standing, related, Int.le_trans past (Int.le_add_of_nonneg_right (Int.natCast_nonneg _))⟩

/-- What a run keeps, seen from every state on the way. -/
theorem run (laws : Laws service requests I R) {ts : List (Transition (World ι δ κ ω) (Act ι η γ))}
    (run : Run (worldStep service requests) w ts w') (sound : Sound service requests I R w) :
    Sound service requests I R w' ∧ ∀ tr ∈ ts,
      Sound service requests I R tr.source ∧ Sound service requests I R tr.target :=
  run.invariant (fun _ _ _ taken sound => sound.step laws taken) sound

end Sound

/-- What a step does to the store: nothing, one commit, or one operation on the store itself
while nobody holds a connection. -/
theorem store_cases {a : Act ι η γ} (taken : worldStep service requests w a = some w') :
    w'.store = w.store ∨
    (∃ i chance attempt found snapshot now, (a = .finish i chance ∨ a = .lose i chance) ∧
      w.phase i = .opened attempt found snapshot now ∧
      Commits service w (service.evaluate snapshot now found (requests i) chance) w'.store) ∨
    ∃ c, a = .control c ∧ service.control c w.clock w.store = some w'.store := by
  cases a with
  | receive i =>
    simp only [worldStep, receiveStep] at taken
    split at taken
    · split at taken
      · cases taken
        exact .inl rfl
      · cases taken
    · cases taken
  | discover i =>
    simp only [worldStep, discoverStep] at taken
    split at taken
    · cases taken
      exact .inl rfl
    · cases taken
  | opening i =>
    simp only [worldStep, openStep] at taken
    split at taken
    · split at taken
      · cases taken
        exact .inl rfl
      · cases taken
    · cases taken
  | finish i chance =>
    obtain ⟨attempt, found, snapshot, now, opened, committed | rfl | rfl⟩ := finishStep_cases taken
    · obtain ⟨store, commits, rfl⟩ := committed
      exact .inr (.inl ⟨i, chance, attempt, found, snapshot, now, .inl rfl, opened, commits⟩)
    · exact .inl rfl
    · exact .inl rfl
  | lose i chance =>
    obtain ⟨attempt, found, snapshot, now, opened, store, commits, rfl⟩ := loseStep_cases taken
    exact .inr (.inl ⟨i, chance, attempt, found, snapshot, now, .inr rfl, opened, commits⟩)
  | crash i =>
    simp only [worldStep, crashStep] at taken
    split at taken
    all_goals cases taken
    all_goals exact .inl rfl
  | release i =>
    simp only [worldStep, releaseStep] at taken
    split at taken
    · cases taken
      exact .inl rfl
    · cases taken
  | control c =>
    simp only [worldStep] at taken
    split at taken
    · obtain ⟨store, controlled, rfl⟩ := Option.map_eq_some_iff.mp taken
      exact .inr (.inr ⟨c, rfl, controlled⟩)
    · cases taken
  | tick elapsed =>
    cases taken
    exact .inl rfl

/-- The request an action is one of. -/
def Act.request : Act ι η γ → Option ι
  | .receive i | .discover i | .opening i | .finish i _ | .lose i _ | .crash i | .release i => some i
  | .control _ | .tick _ => none

/-- Other requests stay where they are. -/
theorem phase_of_other {a : Act ι η γ} (taken : worldStep service requests w a = some w') {j : ι}
    (other : a.request ≠ some j) : w'.phase j = w.phase j := by
  have apart : ∀ i, a.request = some i → j ≠ i := by
    rintro i named rfl
    exact other named
  cases a with
  | receive i =>
    simp only [worldStep, receiveStep] at taken
    split at taken
    · split at taken
      · cases taken
        exact World.setPhase_of_ne _ _ (apart i rfl)
      · cases taken
    · cases taken
  | discover i =>
    simp only [worldStep, discoverStep] at taken
    split at taken
    · cases taken
      exact World.setPhase_of_ne _ _ (apart i rfl)
    · cases taken
  | opening i =>
    simp only [worldStep, openStep] at taken
    split at taken
    · split at taken
      · cases taken
        exact World.setPhase_of_ne _ _ (apart i rfl)
      · cases taken
    · cases taken
  | finish i chance =>
    obtain ⟨attempt, found, snapshot, now, opened, committed | rfl | rfl⟩ := finishStep_cases taken
    · obtain ⟨store, commits, rfl⟩ := committed
      exact World.setPhase_of_ne _ _ (apart i rfl)
    · exact World.setPhase_of_ne _ _ (apart i rfl)
    · exact World.setPhase_of_ne _ _ (apart i rfl)
  | lose i chance =>
    obtain ⟨attempt, found, snapshot, now, opened, store, commits, rfl⟩ := loseStep_cases taken
    exact World.setPhase_of_ne _ _ (apart i rfl)
  | crash i =>
    simp only [worldStep, crashStep] at taken
    split at taken
    all_goals cases taken
    all_goals exact World.setPhase_of_ne _ _ (apart i rfl)
  | release i =>
    simp only [worldStep, releaseStep] at taken
    split at taken
    · cases taken
      exact World.setPhase_of_ne _ _ (apart i rfl)
    · cases taken
  | control c =>
    simp only [worldStep] at taken
    split at taken
    · obtain ⟨store, controlled, rfl⟩ := Option.map_eq_some_iff.mp taken
      rfl
    · cases taken
  | tick elapsed =>
    cases taken
    rfl

/-- A request is opened over the store as it stands, and stays open while others act. -/
theorem opened_cases {a : Act ι η γ} (taken : worldStep service requests w a = some w') {i : ι}
    {attempt : Nat} {found : κ} {snapshot : δ} {now : Int}
    (opened : w'.phase i = .opened attempt found snapshot now) :
    (a.request ≠ some i ∧ w.phase i = .opened attempt found snapshot now) ∨
      (a = .opening i ∧ snapshot = w.store ∧ w'.store = w.store) := by
  by_cases mine : a.request = some i
  · cases a with
    | receive j =>
      obtain rfl := Option.some.inj mine
      simp only [worldStep, receiveStep] at taken
      split at taken
      · split at taken
        · cases taken
          rw [World.setPhase_self] at opened
          cases opened
        · cases taken
      · cases taken
    | discover j =>
      obtain rfl := Option.some.inj mine
      simp only [worldStep, discoverStep] at taken
      split at taken
      · cases taken
        rw [World.setPhase_self] at opened
        cases opened
      · cases taken
    | opening j =>
      obtain rfl := Option.some.inj mine
      simp only [worldStep, openStep] at taken
      split at taken
      · split at taken
        · cases taken
          rw [World.setPhase_self] at opened
          cases opened
          exact .inr ⟨rfl, rfl, rfl⟩
        · cases taken
      · cases taken
    | finish j chance =>
      obtain rfl := Option.some.inj mine
      obtain ⟨_, _, _, _, -, committed | rfl | rfl⟩ := finishStep_cases taken
      · obtain ⟨store, -, rfl⟩ := committed
        rw [World.setPhase_self] at opened
        cases opened
      · rw [World.setPhase_self] at opened
        cases opened
      · rw [World.setPhase_self] at opened
        cases opened
    | lose j chance =>
      obtain rfl := Option.some.inj mine
      obtain ⟨_, _, _, _, -, store, -, rfl⟩ := loseStep_cases taken
      rw [World.setPhase_self] at opened
      cases opened
    | crash j =>
      obtain rfl := Option.some.inj mine
      simp only [worldStep, crashStep] at taken
      split at taken
      all_goals cases taken
      all_goals
        rw [World.setPhase_self] at opened
        cases opened
    | release j =>
      obtain rfl := Option.some.inj mine
      simp only [worldStep, releaseStep] at taken
      split at taken
      · cases taken
        rw [World.setPhase_self] at opened
        cases opened
      · cases taken
    | control c => cases mine
    | tick elapsed => cases mine
  · rw [phase_of_other taken mine] at opened
    exact .inl ⟨mine, opened⟩

theorem idle_of_control {c : γ} (taken : worldStep service requests w (.control c) = some w') :
    w.live = [] ∧ w'.live = [] := by
  simp only [worldStep] at taken
  split at taken
  · next idle =>
    obtain ⟨store, -, rfl⟩ := Option.map_eq_some_iff.mp taken
    have empty : w.live = [] := by simpa using idle
    exact ⟨empty, empty⟩
  · cases taken

/-- What has the exclusive admission sees the store as it stands. -/
def Current (service : Service δ ρ κ η χ ω γ) (requests : ι → ρ) (w : World ι δ κ ω) : Prop :=
  ∀ i attempt found snapshot now, service.exclusive (requests i) = true →
    w.phase i = .opened attempt found snapshot now → snapshot = w.store

omit [DecidableEq ι] in
theorem current_start {store : δ} {clock : Int} :
    Current service requests (worldStart (ι := ι) store clock) := nofun

theorem Current.step (current : Current service requests w) (sound : Sound service requests I R w)
    {a : Act ι η γ} (taken : worldStep service requests w a = some w') :
    Current service requests w' := by
  intro i attempt found snapshot now exclusive opened
  rcases opened_cases taken opened with ⟨other, before⟩ | ⟨-, rfl, same⟩
  · have member : i ∈ w.live := sound.connected i (by rw [before]; rfl)
    rw [current i _ _ _ _ exclusive before]
    rcases store_cases taken with same | ⟨j, chance, _, _, _, _, acts, opened', -⟩ | ⟨c, rfl, -⟩
    · exact same.symm
    · -- nobody else has a connection
      have mine : j = i :=
        sound.alone i member exclusive j (sound.connected j (by rw [opened']; rfl))
      rcases acts with rfl | rfl
      · exact absurd (congrArg some mine) other
      · exact absurd (congrArg some mine) other
    · rw [(idle_of_control taken).1] at member
      cases member
  · exact same.symm

/-- The step answers the request. -/
def Answers (w w' : World ι δ κ ω) (i : ι) (answer : ω) : Prop :=
  (w.phase i).answer = none ∧ (w'.phase i).answer = some answer

/-- A request is answered what it came to, once that is committed, or that it failed: with
nothing committed, or with the answer lost. -/
theorem answers_cases {a : Act ι η γ} (taken : worldStep service requests w a = some w') {i : ι}
    {answer : ω} (answers : Answers w w' i answer) :
    (∃ chance attempt found snapshot now, a = .finish i chance ∧
      w.phase i = .opened attempt found snapshot now ∧
      Commits service w (service.evaluate snapshot now found (requests i) chance) w'.store ∧
      answer = (service.evaluate snapshot now found (requests i) chance).answer) ∨
    (answer = service.failed ∧ w'.store = w.store) ∨
    ∃ chance attempt found snapshot now, a = .lose i chance ∧
      w.phase i = .opened attempt found snapshot now ∧
      Commits service w (service.evaluate snapshot now found (requests i) chance) w'.store ∧
      answer = service.failed := by
  obtain ⟨before, after⟩ := answers
  by_cases mine : a.request = some i
  · cases a with
    | receive j =>
      obtain rfl := Option.some.inj mine
      simp only [worldStep, receiveStep] at taken
      split at taken
      · split at taken
        · cases taken
          rw [World.setPhase_self] at after
          cases after
        · cases taken
      · cases taken
    | discover j =>
      obtain rfl := Option.some.inj mine
      simp only [worldStep, discoverStep] at taken
      split at taken
      · cases taken
        rw [World.setPhase_self] at after
        cases after
      · cases taken
    | opening j =>
      obtain rfl := Option.some.inj mine
      simp only [worldStep, openStep] at taken
      split at taken
      · split at taken
        · cases taken
          rw [World.setPhase_self] at after
          cases after
        · cases taken
      · cases taken
    | finish j chance =>
      obtain rfl := Option.some.inj mine
      obtain ⟨attempt, found, snapshot, now, opened, committed | rfl | rfl⟩ :=
        finishStep_cases taken
      · obtain ⟨store, commits, rfl⟩ := committed
        rw [World.setPhase_self] at after
        cases after
        exact .inl ⟨chance, attempt, found, snapshot, now, rfl, opened, commits, rfl⟩
      · rw [World.setPhase_self] at after
        cases after
      · rw [World.setPhase_self] at after
        cases after
        exact .inr (.inl ⟨rfl, rfl⟩)
    | lose j chance =>
      obtain rfl := Option.some.inj mine
      obtain ⟨attempt, found, snapshot, now, opened, store, commits, rfl⟩ := loseStep_cases taken
      rw [World.setPhase_self] at after
      cases after
      exact .inr (.inr ⟨chance, attempt, found, snapshot, now, rfl, opened, commits, rfl⟩)
    | crash j =>
      obtain rfl := Option.some.inj mine
      simp only [worldStep, crashStep] at taken
      split at taken
      all_goals cases taken
      all_goals
        rw [World.setPhase_self] at after
        cases after
        exact .inr (.inl ⟨rfl, rfl⟩)
    | release j =>
      obtain rfl := Option.some.inj mine
      simp only [worldStep, releaseStep] at taken
      split at taken
      · next answered =>
        rw [answered] at before
        cases before
      · cases taken
    | control c => cases mine
    | tick elapsed => cases mine
  · rw [phase_of_other taken mine, before] at after
    cases after

end

end Foundation
