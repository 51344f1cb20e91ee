import LedgerDesk.Workspace.Machine

/-!
# What the work of a task keeps

Whatever a task does to the state, its epochs and the busy flag move together, an item comes to
offer its reception only when it is added under a new name, and an operation becomes pending only
in a slot that the task may use.
-/
namespace LedgerDesk.Workspace

open Foundation LedgerDesk.Preparation

variable (platform : Platform) (may : Slot → Prop)

/-- The item offers its reception. -/
def Controller.Offers (s : Controller) (key : ItemKey) : Prop :=
  ∃ item ∈ s.items, item.view.key = key ∧ ItemAction.receive ∈ item.view.actions

/-- The epochs and the busy flag stay, or the context has changed. -/
def EpochsMove (s s' : Controller) : Prop :=
  (s'.localEpoch = s.localEpoch ∧ s'.activityEpoch = s.activityEpoch ∧
    s'.current.busy = s.current.busy ∧ s.lifetime ≤ s'.lifetime) ∨
  (s.localEpoch < s'.localEpoch ∧ s.activityEpoch < s'.activityEpoch ∧
    s'.current.busy = false ∧ s.lifetime < s'.lifetime)

/-- A name that was drawn between two states. -/
def Drawn (s s' : Controller) (key : ItemKey) : Prop :=
  ∃ n, s.uuids ≤ n ∧ n < s'.uuids ∧ key = platform.randomUUID n

structure Keeps (s s' : Controller) : Prop where
  epochs : EpochsMove s s'
  uuids : s.uuids ≤ s'.uuids
  offers : ∀ key, s'.Offers key → s.Offers key ∨ Drawn platform s s' key
  pending : ∀ p ∈ s'.pending, p ∈ s.pending ∨ may p.1

variable {platform may} {s s' s'' : Controller}

theorem EpochsMove.trans (first : EpochsMove s s') (second : EpochsMove s' s'') :
    EpochsMove s s'' := by
  rcases first with ⟨e, a, b, l⟩ | ⟨e, a, b, l⟩ <;> rcases second with ⟨e', a', b', l'⟩ | ⟨e', a', b', l'⟩
  · exact .inl ⟨e'.trans e, a'.trans a, b'.trans b, l.trans l'⟩
  · exact .inr ⟨by omega, by omega, b', by omega⟩
  · exact .inr ⟨by omega, by omega, b'.trans b, by omega⟩
  · exact .inr ⟨by omega, by omega, b', by omega⟩

theorem Keeps.refl (s : Controller) : Keeps platform may s s where
  epochs := .inl ⟨rfl, rfl, rfl, le_refl _⟩
  uuids := le_refl _
  offers _ offered := .inl offered
  pending _ member := .inl member

theorem Keeps.trans (first : Keeps platform may s s') (second : Keeps platform may s' s'') :
    Keeps platform may s s'' where
  epochs := first.epochs.trans second.epochs
  uuids := first.uuids.trans second.uuids
  offers key offered := by
    rcases second.offers key offered with offered | ⟨n, low, high, rfl⟩
    · rcases first.offers key offered with offered | ⟨n, low, high, rfl⟩
      · exact .inl offered
      · exact .inr ⟨n, low, lt_of_lt_of_le high second.uuids, rfl⟩
    · exact .inr ⟨n, first.uuids.trans low, high, rfl⟩
  pending f member := by
    rcases second.pending f member with member | allowed
    · exact first.pending f member
    · exact .inr allowed

/-- What changes neither the items nor the pending operations. -/
theorem Keeps.of_eq (epochs : EpochsMove s s') (uuids : s'.uuids = s.uuids)
    (items : s'.items = s.items) (pending : s'.pending = s.pending) : Keeps platform may s s' where
  epochs := epochs
  uuids := uuids.ge
  offers _ offered := .inl (by rwa [Controller.Offers, items] at offered)
  pending _ member := .inl (pending ▸ member)

/-! ### The updates of the controller -/

theorem keeps_publish {patch : Snapshot → Snapshot} (busy : ∀ c, (patch c).busy = c.busy) :
    Keeps platform may s (s.publish patch) :=
  .of_eq (.inl ⟨rfl, rfl, busy _, le_refl _⟩) rfl rfl rfl

theorem Keeps.published {patch : Snapshot → Snapshot} (first : Keeps platform may s s')
    (busy : ∀ c, (patch c).busy = c.busy) : Keeps platform may s (s'.publish patch) :=
  first.trans (keeps_publish busy)

theorem keeps_notice {text : String} {tone : Tone} : Keeps platform may s (s.notice text tone) :=
  keeps_publish fun _ => rfl

theorem keeps_changeContext : Keeps platform may s s.changeContext :=
  .of_eq (.inr ⟨Nat.lt_succ_self _, Nat.lt_succ_self _, rfl, Nat.lt_succ_self _⟩) rfl rfl rfl

theorem keeps_suspendClient : Keeps platform may s s.suspendClient :=
  .of_eq (.inl ⟨rfl, rfl, rfl, Nat.le_succ _⟩) rfl rfl rfl

theorem keeps_suspend : Keeps platform may s s.suspend where
  epochs := .inr ⟨Nat.lt_succ_self _, Nat.lt_succ_self _, rfl,
    Nat.lt_of_lt_of_le (Nat.lt_succ_self _) (Nat.le_succ _)⟩
  uuids := le_refl _
  offers key := by rintro ⟨item, member, -⟩; cases member
  pending _ member := by cases member

theorem keeps_failure {fault : Fault} : Keeps platform may s (s.failure fault) := by
  cases fault with
  | staleView => exact keeps_suspend.trans keeps_notice
  | abort => exact .refl s
  | request status => exact keeps_notice
  | error message => exact keeps_notice

/-- An item that is updated offers its reception only if the update lets it. -/
theorem keeps_setItem {key : ItemKey} {set : LocalItem → LocalItem}
    (named : ∀ item, (set item).view.key = item.view.key)
    (offered : ∀ item, ItemAction.receive ∈ (set item).view.actions →
      ItemAction.receive ∈ item.view.actions) : Keeps platform may s (s.setItem key set) where
  epochs := .inl ⟨rfl, rfl, rfl, le_refl _⟩
  uuids := le_refl _
  offers k := by
    rintro ⟨item, member, rfl, receive⟩
    rcases Rows.mem_update.mp member with ⟨held, -⟩ | ⟨old, held, -, rfl⟩
    · exact .inl ⟨item, held, rfl, receive⟩
    · exact .inl ⟨old, held, (named old).symm, offered old receive⟩
  pending f member := .inl member

/-- An item of which the view stays. -/
theorem keeps_setItem_of_view {key : ItemKey} {set : LocalItem → LocalItem}
    (view : ∀ item, (set item).view = item.view) : Keeps platform may s (s.setItem key set) :=
  keeps_setItem (fun item => congrArg ItemView.key (view item)) fun item offered => view item ▸ offered

theorem keeps_update {key : ItemKey} {patch : ItemPatch}
    (without : ∀ actions, patch.actions = some actions → ItemAction.receive ∉ actions) :
    Keeps platform may s (s.update key patch) := by
  unfold Controller.update
  split
  · refine Keeps.published ?_ fun _ => rfl
    refine keeps_setItem (fun _ => rfl) fun item offered => ?_
    rw [ItemPatch.apply] at offered
    cases given : patch.actions with
    | none => simpa [given] using offered
    | some actions =>
      rw [given] at offered
      exact absurd offered (without actions given)
  · exact .refl s

theorem Keeps.updated {key : ItemKey} {patch : ItemPatch} (first : Keeps platform may s s')
    (without : ∀ actions, patch.actions = some actions → ItemAction.receive ∉ actions) :
    Keeps platform may s (s'.update key patch) :=
  first.trans (keeps_update without)

theorem keeps_adoptReceipt {key : ItemKey} {receipt : Reception} :
    Keeps platform may s (s.adoptReceipt key receipt) := by
  refine Keeps.updated ?_ ?_
  · exact keeps_setItem_of_view fun _ => rfl
  · rintro actions ⟨rfl⟩
    decide

theorem keeps_showOutcome {key : ItemKey} {outcome : ShownOutcome} :
    Keeps platform may s (s.showOutcome key outcome) := by
  unfold Controller.showOutcome
  split
  · split
    · exact keeps_publish fun _ => rfl
    · exact .refl s
  · exact .refl s

theorem keeps_setOutcome {key : ItemKey} {outcome : ShownOutcome} :
    Keeps platform may s (s.setOutcome key outcome) := by
  refine Keeps.trans ?_ keeps_showOutcome
  refine Keeps.updated ?_ ?_
  · exact keeps_setItem_of_view fun _ => rfl
  · rintro actions ⟨rfl⟩
    split <;> decide

theorem keeps_adoptEditorialResult {key : ItemKey} {response : EditorialResponse} :
    Keeps platform may s (s.adoptEditorialResult key response) := by
  unfold Controller.adoptEditorialResult
  split
  · exact .refl s
  · split
    · refine keeps_update ?_
      rintro actions ⟨rfl⟩
      decide
    · refine keeps_update ?_
      rintro actions ⟨rfl⟩
      decide
    · exact keeps_setOutcome
    · exact keeps_setOutcome
    · exact keeps_setOutcome
    · exact .refl s
    · exact .refl s

theorem keeps_actionFailed {key : ItemKey} {action : ItemAction} {fault : Fault} :
    Keeps platform may s (s.actionFailed key action fault) := by
  have shown : ∀ patch : ItemPatch, patch.actions = some [.reconcile] →
      Keeps platform may s (s.update key patch) := by
    intro patch given
    refine keeps_update fun actions is => ?_
    rw [given] at is
    cases is
    decide
  unfold Controller.actionFailed
  split
  · exact .refl s
  · split
    · split
      · exact shown _ rfl
      · exact shown _ rfl
    · exact shown _ rfl
    · split
      · exact shown _ rfl
      · exact .refl s
    · split
      · exact shown _ rfl
      · exact .refl s
    · exact .refl s

theorem keeps_setPending {slot : Slot} {frozen : Frozen} (allowed : may slot) :
    Keeps platform may s (s.setPending slot frozen) where
  epochs := .inl ⟨rfl, rfl, rfl, le_refl _⟩
  uuids := le_refl _
  offers _ offered := .inl offered
  pending f member := by
    rcases List.mem_append.mp member with kept | new
    · exact .inl (List.mem_filter.mp kept).1
    · exact .inr (List.mem_singleton.mp new ▸ allowed)

theorem keeps_deletePending {slot : Slot} : Keeps platform may s (s.deletePending slot) where
  epochs := .inl ⟨rfl, rfl, rfl, le_refl _⟩
  uuids := le_refl _
  offers _ offered := .inl offered
  pending _ member := .inl (List.mem_filter.mp member).1

theorem keeps_storage {storage : Storage} : Keeps platform may s { s with storage := storage } :=
  .of_eq (.inl ⟨rfl, rfl, rfl, le_refl _⟩) rfl rfl rfl

theorem keeps_csrf {csrf : Option String} : Keeps platform may s { s with csrf := csrf } :=
  .of_eq (.inl ⟨rfl, rfl, rfl, le_refl _⟩) rfl rfl rfl

theorem keeps_uuids : Keeps platform may s { s with uuids := s.uuids + 1 } where
  epochs := .inl ⟨rfl, rfl, rfl, le_refl _⟩
  uuids := Nat.le_succ _
  offers _ offered := .inl offered
  pending _ member := .inl member

theorem keeps_saveFailed {key : ItemKey} {fault : Fault} :
    Keeps platform may s (s.saveFailed key fault) := by
  unfold Controller.saveFailed
  split
  · exact .refl s
  · refine Keeps.published ?_ fun _ => rfl
    refine keeps_update ?_
    rintro actions ⟨rfl⟩
    decide

/-- An item that is added is under a name that was just drawn. -/
theorem keeps_add {name media : String} {bytes : Bytes} {capture : Capture}
    {profile : Option ExtractionFormat}
    (added : s.add platform name bytes capture profile media = .ok s') :
    Keeps platform may s s' := by
  unfold Controller.add at added
  split at added
  · cases added
  · split at added
    · cases added
    · cases added
      refine ⟨.inl ⟨rfl, rfl, rfl, le_refl _⟩, Nat.le_succ _, ?_, fun f member => .inl member⟩
      rintro key ⟨item, member, rfl, receive⟩
      rcases List.mem_append.mp member with held | new
      · exact .inl ⟨item, held, rfl, receive⟩
      · rw [List.mem_singleton.mp new]
        exact .inr ⟨s.uuids, le_refl _, Nat.lt_succ_self _, rfl⟩

theorem mem_recover {items : List LocalItem} {entries : List JournalEntry} {item : LocalItem}
    (member : item ∈ recover items entries) :
    item ∈ items ∨ item.view.actions = [.reconcile] := by
  induction entries generalizing items with
  | nil => exact .inl member
  | cons entry entries ih =>
    rcases ih member with held | recovered
    · split at held
      · exact .inl held
      · rcases List.mem_append.mp held with held | new
        · exact .inl held
        · rw [List.mem_singleton.mp new]
          exact .inr rfl
    · exact .inr recovered

theorem keeps_started {priorContext : Option Context} {context : Context}
    {environment : JournalEnvironment} {entries : List JournalEntry} {receiveOffered : Bool}
    {profiles : List ProfileView} : Keeps platform may s
      (s.started priorContext context environment entries receiveOffered profiles) where
  epochs := .inl ⟨rfl, rfl, rfl, le_refl _⟩
  uuids := le_refl _
  offers key := by
    rintro ⟨item, member, rfl, receive⟩
    rcases mem_recover member with held | recovered
    · exact .inl ⟨item, (List.mem_filter.mp held).1, rfl, receive⟩
    · rw [recovered] at receive
      exact absurd receive (by decide)
  pending f member := by
    rw [Controller.started] at member
    change f ∈ ite _ _ _ at member
    split at member
    · exact .inl member
    · cases member

/-! ### The rules of a task -/

/-- A task may pend an operation in a slot and send it, and be refused by what is pending there; it
reconciles some items, and what it downloads is free. -/
def mayNote (may : Slot → Prop) (reconciles : ItemKey → Prop) : Note → Prop
  | .sent slot _ => may slot
  | .refused slot _ => may slot
  | .reconciled key _ => reconciles key
  | .downloaded _ => True

/-- The rules of the tasks that keep to some slots. -/
def rules (platform : Platform) (may : Slot → Prop) (reconciles : ItemKey → Prop)
    (stale : Controller → Prop) : Async.Rules Controller Note Answer where
  stale := stale
  allows _ _ _ := True
  moves := Keeps platform may
  notes := mayNote may reconciles

section Rules

open Async

variable {reconciles : ItemKey → Prop} {stale : Controller → Prop} {epoch : Nat} {α β : Type}
variable {x : Task α} {f : α → Task β}

theorem Fine.seq (fine : Fine (rules platform may reconciles stale) x s)
    (next : ∀ a s, Fine (rules platform may reconciles stale) (f a) s) :
    Fine (rules platform may reconciles stale) (x >>= f) s := fine.bind next

theorem Looks.seq (looks : Looks (rules platform may reconciles stale) x s)
    (next : ∀ a s, ¬stale s → Looks (rules platform may reconciles stale) (f a) s) :
    Looks (rules platform may reconciles stale) (x >>= f) s := looks.bind next

theorem Idle.seq (idle : Idle x) (next : ∀ a, Idle (f a)) : Idle (x >>= f) := idle.bind next

theorem fine_modify {g : Controller → Controller} (keeps : ∀ s, Keeps platform may s (g s)) :
    Fine (rules platform may reconciles stale) (Async.modify g : Task Unit) s := ⟨keeps s, trivial⟩

theorem fine_require {holds : Bool} {message : String} :
    Fine (rules platform may reconciles stale) (require holds message) s := by
  unfold require
  split <;> trivial

theorem idle_settle {result : Except Fault α} : Idle (settle result) := by
  cases result <;> trivial

theorem idle_get : Idle (Async.get : Task Controller) := fun _ => trivial

theorem idle_require {holds : Bool} {message : String} : Idle (require holds message) := by
  unfold require
  split <;> trivial

theorem idle_fetch {call : Call} : Idle (fetch call) := fun _ => idle_settle

theorem idle_readBody {maximum : Nat} : Idle (readBody maximum) := fun _ => idle_settle

theorem idle_fingerprint {command : Command} : Idle (fingerprint platform command) :=
  fun _ => trivial

theorem idle_sha256 {bytes : Bytes} : Idle (sha256 platform bytes) := fun _ => trivial

theorem idle_assertLifetime {scope : Nat} : Idle (assertLifetime scope) := by
  intro s
  change Idle (ite _ _ _)
  split <;> trivial

theorem idle_assertContext : Idle (assertContext epoch) := by
  intro s
  change Idle (ite _ _ _)
  split <;> trivial

theorem idle_sessionVerified {expected : String} {response : Response} {body : Wire} :
    Idle (sessionVerified expected response body) := by
  unfold sessionVerified
  split
  · split <;> trivial
  · refine Idle.seq idle_require fun _ => ?_
    split
    · split <;> trivial
    · trivial

theorem idle_verifySession {expected : String} : Idle (verifySession expected) := by
  unfold verifySession
  split
  · trivial
  · refine Idle.seq idle_fetch fun response => Idle.seq idle_readBody fun body => ?_
    exact idle_sessionVerified

theorem idle_value {reading : Reading β} {response : Response} {body : Wire} :
    Idle (reading.value response body) := by
  unfold Reading.value
  split
  · split
    · split <;> trivial
    · trivial
  · split
    · trivial
    · split <;> trivial

theorem idle_assertScope {scope : Nat} : Idle (assertScope scope epoch) :=
  Idle.seq idle_assertLifetime fun _ => idle_assertContext

theorem idle_verifySessionForView {expected : String} {scope : Nat} :
    Idle (verifySessionForView expected scope epoch) :=
  Idle.seq idle_assertScope fun _ => Idle.seq idle_verifySession fun _ => idle_assertScope

theorem idle_exchange {call : Call} {reading : Reading β} {csrf : String} {scope : Nat} :
    Idle (exchange call reading csrf scope epoch) :=
  Idle.seq idle_fetch fun _ => Idle.seq idle_readBody fun _ =>
    Idle.seq idle_verifySessionForView fun _ => Idle.seq idle_value fun _ =>
      Idle.seq idle_assertScope fun _ => trivial

variable (late : ∀ s, stale s → s.localEpoch ≠ epoch)

include late

/-- Past the assertion it is not too late. -/
theorem looks_assertContext : Looks (rules platform may reconciles stale) (assertContext epoch) s := by
  change Looks _ (ite _ _ _) s
  split
  · next same => exact fun passed => late s passed same
  · trivial

theorem looks_assertScope {scope : Nat} : Looks (rules platform may reconciles stale) (assertScope scope epoch) s :=
  idle_assertLifetime.looks fun _ _ => looks_assertContext late

theorem looks_verifySessionForView {expected : String} {scope : Nat} :
    Looks (rules platform may reconciles stale) (verifySessionForView expected scope epoch) s :=
  Looks.seq (looks_assertScope late) fun _ _ _ =>
    idle_verifySession.looks fun _ _ => looks_assertScope late

theorem looks_exchange {call : Call} {reading : Reading β} {csrf : String} {scope : Nat} :
    Looks (rules platform may reconciles stale) (exchange call reading csrf scope epoch) s := by
  refine Idle.looks idle_fetch fun response s => Idle.looks idle_readBody fun body s => ?_
  refine Looks.seq (looks_verifySessionForView late) fun _ s _ => ?_
  refine Idle.looks idle_value fun value s => ?_
  exact Looks.seq (looks_assertScope late) fun _ s passed => passed

/-- Every request only looks, and its answer is taken in while it is not too late. -/
theorem looks_request {call : Call} {reading : Reading β} {keyed : Option (Slot × String)}
    (allowed : ∀ slot key, keyed = some (slot, key) → may slot) :
    Looks (rules platform may reconciles stale) (request call reading epoch keyed) s := by
  refine Looks.get ?_
  split
  · trivial
  · split
    · trivial
    · refine Idle.looks idle_get fun _ s => ?_
      refine Looks.seq (looks_verifySessionForView late) fun _ s passed => ?_
      split
      · next slot key => exact ⟨passed, allowed slot key rfl, looks_exchange late⟩
      · exact looks_exchange late

/-! ### The work of every action -/

omit late in
theorem fine_randomUUID : Fine (rules platform may reconciles stale) (randomUUID platform) s :=
  Fine.seq trivial fun _ _ => Fine.seq ⟨keeps_uuids, trivial⟩ fun _ _ => trivial

/-- A digest after which the context is asserted. -/
theorem fine_digest {digest : String} {f : String → Task α}
    (next : ∀ digest s, Fine (rules platform may reconciles stale) (f digest) s) :
    Fine (rules platform may reconciles stale) ((.await .digest fun _ => pure digest : Task String) >>=
      fun digest => assertContext epoch >>= fun _ => f digest) s := by
  intro _ s
  have look : Looks (rules platform may reconciles stale) (assertContext epoch) s := looks_assertContext late
  constructor
  · exact fun stale _ => (look.stops stale).bind
  · change Fine _ (assertContext epoch >>= fun _ => f digest) s
    exact Fine.seq look.fine fun _ s => next digest s

omit late in
theorem fine_retain {entry : JournalEntry} : Fine (rules platform may reconciles stale) (retain entry) s := by
  refine Fine.get ?_
  split
  · trivial
  · split
    · exact ⟨keeps_storage, trivial⟩
    · trivial

omit late in
theorem fine_freeze {slot : Slot} {profile : JournalProfile} {digest : String}
    {references : References} {command : Command} : Fine (rules platform may reconciles stale)
      (freeze platform slot profile digest references command) s :=
  Fine.seq fine_randomUUID fun _ _ => Fine.seq fine_randomUUID fun _ _ => trivial

theorem fine_begin {slot : Slot} {profile : JournalProfile} {references : References}
    {command : Command} {refusal : String} (allowed : may slot) : Fine (rules platform may reconciles stale)
      (begin platform slot profile references command refusal epoch) s := by
  refine fine_digest late fun digest s => ?_
  refine Fine.seq trivial fun s' s => ?_
  have rest : ∀ frozen s, Fine (rules platform may reconciles stale) (do
      retain frozen.entry
      Async.modify fun s => s.setPending slot frozen
      return frozen) s := fun frozen s =>
    Fine.seq fine_retain fun _ s => Fine.seq ⟨keeps_setPending allowed, trivial⟩ fun _ _ => trivial
  split
  · split
    · exact Fine.seq ⟨allowed, trivial⟩ fun _ _ => trivial
    · exact rest _ s
  · exact Fine.seq fine_freeze rest

omit late in
theorem fine_conclude {slot : Slot} {entry : JournalEntry} {learned : References} :
    Fine (rules platform may reconciles stale) (conclude slot entry learned) s :=
  Fine.seq fine_retain fun _ _ => ⟨keeps_deletePending, trivial⟩

theorem fine_receptionEffect {key : ItemKey} {command : Command}
    (allowed : may (key, command.body.operation)) :
    Fine (rules platform may reconciles stale) (receptionEffect platform key command epoch) s := by
  refine Fine.seq trivial fun s' s => Fine.seq fine_require fun _ s => Fine.seq fine_require fun _ s => ?_
  refine Fine.seq (fine_begin late allowed) fun frozen s => ?_
  refine Fine.seq (looks_request late ?_).fine fun value s => Fine.seq fine_conclude fun _ _ => trivial
  rintro slot key ⟨rfl⟩
  exact allowed

theorem fine_preparationEffect {key : ItemKey} {command : Command}
    (allowed : may (key, command.body.operation)) :
    Fine (rules platform may reconciles stale) (preparationEffect platform key command epoch) s := by
  refine Fine.seq fine_require fun _ s => Fine.seq trivial fun s' s => ?_
  refine Fine.seq fine_require fun _ s => Fine.seq fine_require fun _ s => ?_
  refine Fine.seq (fine_begin late allowed) fun frozen s => ?_
  refine Fine.seq (looks_request late ?_).fine fun value s => Fine.seq fine_conclude fun _ _ => trivial
  rintro slot key ⟨rfl⟩
  exact allowed

/-- A query sends nothing under a key. -/
theorem fine_query {call : Call} {reading : Reading β} :
    Fine (rules platform may reconciles stale) (request call reading epoch none) s :=
  (looks_request late fun _ _ none => by cases none).fine

theorem fine_refreshItem {key : ItemKey} :
    Fine (rules platform may reconciles stale) (refreshItem key epoch) s := by
  refine Fine.seq trivial fun s' s => ?_
  split
  · trivial
  · refine Fine.seq (fine_query late) fun answer s => ?_
    obtain ⟨current, offers⟩ := answer
    refine Fine.seq ⟨keeps_adoptReceipt, trivial⟩ fun _ s => ?_
    refine Fine.seq ⟨keeps_update ?_, trivial⟩ fun _ s => ?_
    · rintro actions ⟨rfl⟩
      split <;> split <;> decide
    · split
      · split
        · refine Fine.seq (fine_query late) fun answer s => ⟨?_, trivial⟩
          refine Keeps.updated (keeps_setItem_of_view fun _ => rfl) ?_
          rintro actions ⟨rfl⟩
          split <;> split <;> split <;> decide
        · trivial
      · trivial

theorem fine_deliveredOriginal {key : ItemKey} :
    Fine (rules platform may reconciles stale) (deliveredOriginal platform key epoch) s := by
  refine Fine.seq trivial fun s' s => ?_
  split
  · trivial
  · split
    · trivial
    · refine Fine.seq fine_require fun _ s => Fine.seq (fine_query late) fun bytes s => ?_
      exact fine_digest late fun digest s => Fine.seq fine_require fun _ _ => trivial

theorem fine_inspectOriginal {key : ItemKey} :
    Fine (rules platform may reconciles stale) (inspectOriginal platform key epoch) s := by
  refine Fine.seq (fine_deliveredOriginal late) fun delivered s => ?_
  refine Fine.seq (looks_assertContext late).fine fun _ s => ?_
  exact ⟨keeps_publish fun _ => rfl, trivial⟩

omit late in
theorem fine_settle {result : Except Fault α} : Fine (rules platform may reconciles stale) (settle result) s := by
  cases result <;> trivial

omit late in
theorem fine_openPreparation {key : ItemKey} :
    Fine (rules platform may reconciles stale) (openPreparation key) s := by
  refine Fine.seq trivial fun s' s => ?_
  split
  · trivial
  · split
    · trivial
    · split
      · trivial
      · refine Fine.seq fine_require fun _ s => Fine.seq ⟨?_, trivial⟩ fun _ s => ?_
        · refine Keeps.trans ?_ keeps_changeContext
          exact keeps_setItem_of_view fun _ => rfl
        · exact Fine.seq fine_settle fun _ s => ⟨keeps_publish fun _ => rfl, trivial⟩

theorem fine_inspectPrepared {key : ItemKey} :
    Fine (rules platform may reconciles stale) (inspectPrepared key epoch) s := by
  refine Fine.seq trivial fun s' s => ?_
  split
  · trivial
  · refine Fine.seq (fine_query late) fun answer s => Fine.seq fine_require fun _ s => ?_
    refine Fine.seq trivial fun s' s => Fine.seq ⟨keeps_setItem_of_view fun _ => rfl, trivial⟩ fun _ s => ?_
    refine Fine.seq (looks_assertContext late).fine fun _ s => ?_
    exact ⟨keeps_publish fun _ => rfl, trivial⟩

theorem fine_inspectProposal {key : ItemKey} :
    Fine (rules platform may reconciles stale) (inspectProposal key epoch) s := by
  refine Fine.seq trivial fun s' s => ?_
  split
  · trivial
  · refine Fine.seq (fine_query late) fun answer s => Fine.seq fine_require fun _ s => ?_
    refine Fine.seq ⟨keeps_setItem_of_view fun _ => rfl, trivial⟩ fun _ s => Fine.seq fine_require fun _ s => ?_
    refine Fine.seq (looks_assertContext late).fine fun _ s => ?_
    exact ⟨keeps_publish fun _ => rfl, trivial⟩

theorem fine_submit {key : ItemKey} {item : LocalItem} {bytes : Bytes} {profile : ExtractionFormat}
    {context : Context} (reserves : may (key, .reserve_reception))
    (finalizes : may (key, .finalize_reception)) :
    Fine (rules platform may reconciles stale) (submit platform key item bytes profile context epoch) s := by
  refine fine_digest late fun hash s => ?_
  refine Fine.seq ⟨keeps_setItem_of_view fun _ => rfl, trivial⟩ fun _ s => ?_
  refine Fine.seq (fine_receptionEffect late reserves) fun reserved s => ?_
  refine Fine.seq ⟨keeps_setItem_of_view fun _ => rfl, trivial⟩ fun _ s => ?_
  refine Fine.seq fine_randomUUID fun id s => Fine.seq fine_retain fun _ s => ?_
  refine Fine.seq (fine_query late) fun _ s => Fine.seq (fine_query late) fun staged s => ?_
  refine Fine.seq (fine_receptionEffect late finalizes) fun final s => ?_
  exact Fine.seq ⟨keeps_adoptReceipt, trivial⟩ fun _ s => fine_refreshItem late

theorem fine_receive {key : ItemKey} (reserves : may (key, .reserve_reception))
    (finalizes : may (key, .finalize_reception)) :
    Fine (rules platform may reconciles stale) (receive platform key epoch) s := by
  refine Fine.seq trivial fun s' s => ?_
  split
  · split
    · refine Fine.seq fine_require fun _ s => Fine.seq fine_require fun _ s => ?_
      refine Fine.seq ⟨keeps_update ?_, trivial⟩ fun _ s => fine_submit late reserves finalizes
      rintro actions ⟨rfl⟩
      decide
    · trivial
  · trivial

omit late in
theorem fine_recovered {key : ItemKey} {observed : String} :
    Fine (rules platform may reconciles stale) (recovered key observed) s := by
  refine ⟨keeps_update ?_, trivial⟩
  rintro actions ⟨rfl⟩
  decide

theorem fine_reconcileEffect {key : ItemKey} {entry : JournalEntry} :
    Fine (rules platform may reconciles stale) (reconcileEffect key entry epoch) s := by
  refine Fine.seq (fine_query late) fun effect s => Fine.seq ⟨keeps_deletePending, trivial⟩ fun _ s => ?_
  split
  · exact fine_recovered
  · exact fine_recovered
  · exact Fine.seq ⟨keeps_adoptEditorialResult, trivial⟩ fun _ s => fine_inspectProposal late
  · exact ⟨keeps_adoptEditorialResult, trivial⟩

theorem fine_reconcileAttempt {key : ItemKey} {attempt_id : String} {document : Artifact} :
    Fine (rules platform may reconciles stale) (reconcileAttempt key attempt_id document epoch) s := by
  refine Fine.seq (fine_query late) fun answer s => ?_
  split
  · refine ⟨Keeps.updated (keeps_setItem_of_view fun _ => rfl) ?_, trivial⟩
    rintro actions ⟨rfl⟩
    split <;> decide
  · exact fine_recovered

theorem fine_reconcile {key : ItemKey} :
    Fine (rules platform may reconciles stale) (reconcile key epoch) s := by
  refine Fine.seq (Fine.seq trivial fun s' s => Fine.seq fine_settle fun _ _ => trivial) fun entries s => ?_
  split
  · trivial
  · split
    · split
      · exact fine_reconcileAttempt late
      · trivial
    · exact fine_reconcileEffect late
    · have rest : ∀ receipt s, Fine (rules platform may reconciles stale) (do
          Async.modify fun s => s.adoptReceipt key receipt
          refreshItem key epoch) s := fun receipt s =>
        Fine.seq ⟨keeps_adoptReceipt, trivial⟩ fun _ s => fine_refreshItem late
      split
      · exact Fine.seq (fine_query late) rest
      · split
        · trivial
        · exact Fine.seq (fine_query late) rest

theorem fine_reconciliation {key : ItemKey} (allowed : reconciles key) :
    Fine (rules platform may reconciles stale) (reconciliation key epoch) s :=
  Fine.seq (fine_reconcile late) fun _ _ => ⟨allowed, trivial⟩

/-- What an action may do is what its item may. -/
theorem fine_perform {key : ItemKey} {action : ItemAction} {item : LocalItem}
    (reserves : action = .receive → may (key, .reserve_reception))
    (finalizes : action = .receive → may (key, .finalize_reception))
    (reconciling : action = .reconcile → reconciles key)
    (others : ∀ slot : Slot, slot.2 ≠ .reserve_reception → slot.2 ≠ .finalize_reception → may slot) :
    Fine (rules platform may reconciles stale) (perform platform key action item epoch) s := by
  cases action with
  | receive => exact fine_receive late (reserves rfl) (finalizes rfl)
  | refresh =>
    change Fine _ (item.receipt.elim _ _) s
    cases item.receipt with
    | none => trivial
    | some receipt => exact fine_refreshItem late
  | reconcile => exact fine_reconciliation late (reconciling rfl)
  | stop =>
    change Fine _ (item.receipt.elim _ _) s
    cases item.receipt with
    | none => trivial
    | some receipt =>
      refine Fine.seq (fine_receptionEffect late (others _ nofun nofun)) fun _ s => ?_
      exact Fine.seq ⟨keeps_adoptReceipt, trivial⟩ fun _ s => fine_refreshItem late
  | discard => trivial
  | inspectOriginal => exact fine_inspectOriginal late
  | prepare => exact fine_openPreparation
  | continuePreparation =>
    change Fine _ (item.staged.elim _ _) s
    cases item.staged with
    | none => trivial
    | some staged =>
      refine Fine.seq (fine_preparationEffect late (others _ nofun nofun)) fun _ s => ?_
      exact ⟨keeps_adoptEditorialResult.trans (keeps_setItem_of_view fun _ => rfl), trivial⟩
  | inspectPreparation => exact fine_inspectPrepared late
  | reviewProposal => exact fine_inspectProposal late

variable (others : ∀ slot : Slot, slot.2 ≠ .reserve_reception → slot.2 ≠ .finalize_reception → may slot)

include others

theorem fine_savedPreparation {key : ItemKey} {built : BuiltDocument} {bytes : Bytes} {hash : String}
    {context : Context} : Fine (rules platform may reconciles stale)
      (savedPreparation platform key built bytes hash context epoch) s := by
  refine Fine.seq (fine_preparationEffect late (others _ nofun nofun)) fun reserved s => ?_
  refine Fine.seq fine_randomUUID fun id s => ?_
  split
  · trivial
  · refine Fine.seq fine_retain fun _ s => Fine.seq (fine_query late) fun staged s => ?_
    split
    · trivial
    · refine Fine.seq (fine_preparationEffect late (others _ nofun nofun)) fun prepared s => ?_
      refine Fine.seq ⟨keeps_update ?_, trivial⟩ fun _ s => ⟨keeps_publish fun _ => rfl, trivial⟩
      rintro actions ⟨rfl⟩
      decide

omit others in
theorem fine_builtPreparation {extraction : ExtractionResponse} {draft : PreparationDraft}
    {context : Context} : Fine (rules platform may reconciles stale)
      (builtPreparation platform extraction draft context epoch) s := by
  unfold builtPreparation
  split
  · trivial
  · exact fine_digest late fun hash s => Fine.seq fine_require fun _ _ => trivial

theorem fine_proposeWork {key : ItemKey} {preparation : Exact} {draft : ProposalDraft} {unit : String} :
    Fine (rules platform may reconciles stale) (proposeWork platform key preparation draft unit epoch) s := by
  refine Fine.seq (fine_preparationEffect late (others _ nofun nofun)) fun response s => ?_
  exact Fine.seq ⟨keeps_adoptEditorialResult, trivial⟩ fun _ s => fine_inspectProposal late

theorem fine_confirmWork {key : ItemKey} {proposal : Exact} :
    Fine (rules platform may reconciles stale) (confirmWork platform key proposal epoch) s := by
  refine Fine.seq (fine_preparationEffect late (others _ nofun nofun)) fun response s => ?_
  exact ⟨keeps_adoptEditorialResult, trivial⟩

omit others in
theorem fine_downloadWork {record : PreparationRecord} {association : ResourceAssociation}
    {reference : Artifact} : Fine (rules platform may reconciles stale)
      (downloadWork platform record association reference epoch) s := by
  refine Fine.seq (fine_query late) fun answer s => Fine.seq fine_require fun _ s => ?_
  refine fine_digest late fun hash s => Fine.seq fine_require fun _ s => ?_
  exact ⟨trivial, trivial⟩

omit late others in
theorem keeps_proposeFailed {key : ItemKey} : Keeps platform may s (s.proposeFailed key) := by
  unfold Controller.proposeFailed
  split
  · split
    · refine Keeps.published (keeps_update ?_) fun _ => rfl
      rintro actions ⟨rfl⟩
      decide
    · exact .refl s
  · exact .refl s

omit late others in
theorem keeps_confirmFailed {key : ItemKey} : Keeps platform may s (s.confirmFailed key) := by
  unfold Controller.confirmFailed
  split
  · split
    · refine Keeps.published (keeps_update ?_) fun _ => rfl
      rintro actions ⟨rfl⟩
      decide
    · exact .refl s
  · exact .refl s

end Rules

/-! ### What is caught -/

section Caught

open Async

variable {reconciles : ItemKey → Prop} {stale : Controller → Prop} {number : Nat} {α : Type}

theorem tame_ifLatest {f : Controller → Controller} (keeps : ∀ s, Keeps platform may s (f s)) :
    Tame (rules platform may reconciles stale) (ifLatest number f) s := by
  change Tame _ (ite _ _ _) s
  split
  · exact ⟨keeps s, trivial⟩
  · trivial

/-- Too late, an activity is not the latest. -/
theorem silent_ifLatest {f : Controller → Controller} (late : ∀ s, stale s → s.activityEpoch ≠ number)
    (too : stale s) : Silent (rules platform may reconciles stale) (ifLatest number f) s := by
  change Silent _ (ite _ _ _) s
  rw [if_neg (late s too)]
  trivial

/-- Work that is fine is tame with what catches its faults. -/
theorem tame_caught {work : Task Unit} {failed : Fault → Controller → Controller}
    (late : ∀ s, stale s → s.activityEpoch ≠ number)
    (fine : Fine (rules platform may reconciles stale) work s)
    (keeps : ∀ fault s, Keeps platform may s (failed fault s)) :
    Tame (rules platform may reconciles stale) (work.tryCatch fun fault => ifLatest number (failed fault)) s :=
  fine.tame.tryCatch (fun fault _ => tame_ifLatest (keeps fault)) fun _ _ => silent_ifLatest late

end Caught

end LedgerDesk.Workspace
