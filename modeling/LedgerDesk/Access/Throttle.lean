import LedgerDesk.Access.Requests

/-!
# The law of the throttle

Over a run of requests a key's row counts the ones its window let through. A window never lets more
than its limit through, but the spacing is only asked for inside a window.
-/
namespace LedgerDesk.Access

open Foundation

/-- What a throttled route asks of a key, in seconds. -/
structure Budget where
  limit : Nat
  window : Nat
  spacing : Nat
  limit_pos : 0 < limit
  window_pos : 0 < window

structure Request where
  key : String
  now : Int
  deriving DecidableEq, Repr

/-- The table, and the requests it has let through. -/
structure Door where
  rows : List ThrottleRow
  allowed : List Request
  deriving DecidableEq, Repr

def rowOf (rows : List ThrottleRow) (key : String) : Option ThrottleRow :=
  rows.find? fun r => r.key == key

namespace Door

def attempt (budget : String → Budget) (d : Door) (r : Request) : Door :=
  let asked := budget r.key
  match throttle d.rows r.now r.key asked.limit asked.window asked.spacing with
  | none => d
  | some counted => ⟨counted.apply d.rows, d.allowed ++ [r]⟩

/-- The instants at which the key was let through. -/
def instants (d : Door) (key : String) : List Int :=
  (d.allowed.filter fun r => r.key == key).map Request.now

end Door

def served (budget : String → Budget) (requests : List Request) : Door :=
  requests.foldl (Door.attempt budget) ⟨[], []⟩

/-- The instants that fall in the window opened at `start`. -/
def during (window : Nat) (start : Int) (instants : List Int) : List Int :=
  instants.filter fun now => start ≤ now ∧ now < start + window * 1000

section Law

variable (budget : String → Budget) (requests : List Request) (key : String)

/-- The key's windows, by the instants they opened at. -/
def Opened (start : Int) : Prop :=
  ∃ earlier, earlier <+: requests ∧ ∃ row, rowOf (served budget earlier).rows key = some row ∧
    row.window_start = start

/-- No window lets more than the limit through. -/
def WindowsHold : Prop :=
  ∀ start, Opened budget requests key start →
    (during (budget key).window start ((served budget requests).instants key)).length ≤
      (budget key).limit

/-- Two requests let through one after the other are the spacing apart. -/
def Spaced : Prop :=
  ((served budget requests).instants key).IsChain fun (before now : Int) =>
    before + (budget key).spacing * 1000 ≤ now

def ThrottleLaw : Prop := WindowsHold budget requests key ∧ Spaced budget requests key

/-- Whenever a request finds its key's window run out, the last one let through is the spacing back. -/
def Rested : Prop :=
  ∀ earlier now, earlier ++ [⟨key, now⟩] <+: requests →
    ∀ row, rowOf (served budget earlier).rows key = some row →
      row.window_start + (budget key).window * 1000 ≤ now →
        row.last_at + (budget key).spacing * 1000 ≤ now

/-- The key's requests come in the order of time. -/
def InOrder : Prop :=
  requests.Pairwise fun before r => before.key = key → r.key = key → before.now ≤ r.now

end Law

/-! ### One request -/

theorem key_of_rowOf {rows : List ThrottleRow} {key : String} {row : ThrottleRow}
    (found : rowOf rows key = some row) : row.key = key := by
  simpa using List.find?_some found

theorem rowOf_insert {rows : List ThrottleRow} {row : ThrottleRow} (key : String)
    (absent : rowOf rows row.key = none) :
    rowOf (rows ++ [row]) key = if key = row.key then some row else rowOf rows key := by
  rw [rowOf, List.find?_append]
  by_cases own : key = row.key
  · subst own
    rw [rowOf] at absent
    simp [absent]
  · have other : (row.key == key) = false := by simpa using Ne.symm own
    simp [rowOf, own, other]

theorem rowOf_update {rows : List ThrottleRow} {row c : ThrottleRow} (key : String)
    (found : rowOf rows c.key = some row) :
    rowOf (rows.map fun r => if (r.key == c.key) = true then c else r) key =
      if key = c.key then some c else rowOf rows key := by
  have same_key : ((fun r => r.key == key) ∘ fun r =>
      if (r.key == c.key) = true then c else r) = fun r => r.key == key := by
    funext r
    by_cases own : r.key = c.key <;> simp [own]
  rw [rowOf, List.find?_map, same_key, ← rowOf]
  by_cases own : key = c.key
  · rw [own, found, if_pos rfl]
    simp [key_of_rowOf found]
  · rw [if_neg own]
    cases others : rowOf rows key with
    | none => rfl
    | some r => simp [key_of_rowOf others, own]

namespace Door

variable {budget : String → Budget} {d : Door} {r : Request}

/-- What a request finds and does: it is refused, it opens a window, or its window counts it. -/
theorem attempt_cases (budget : String → Budget) (d : Door) (r : Request) :
    (d.attempt budget r = d ∧ ∃ row, rowOf d.rows r.key = some row ∧
      r.now < row.window_start + (budget r.key).window * 1000) ∨
    ((d.attempt budget r).allowed = d.allowed ++ [r] ∧
      (∀ row, rowOf d.rows r.key = some row →
        row.window_start + (budget r.key).window * 1000 ≤ r.now) ∧
      ∀ key, rowOf (d.attempt budget r).rows key =
        if key = r.key then some ⟨r.key, 1, r.now, r.now⟩ else rowOf d.rows key) ∨
    ((d.attempt budget r).allowed = d.allowed ++ [r] ∧
      ∃ row, rowOf d.rows r.key = some row ∧
        r.now < row.window_start + (budget r.key).window * 1000 ∧
        row.count < (budget r.key).limit ∧
        row.last_at + (budget r.key).spacing * 1000 ≤ r.now ∧
        ∀ key, rowOf (d.attempt budget r).rows key =
          if key = r.key then some ⟨r.key, row.count + 1, row.window_start, r.now⟩
          else rowOf d.rows key) := by
  cases found : rowOf d.rows r.key with
  | none =>
    have opens : d.attempt budget r = ⟨d.rows ++ [⟨r.key, 1, r.now, r.now⟩], d.allowed ++ [r]⟩ := by
      unfold rowOf at found
      simp [attempt, throttle, found]
    refine .inr (.inl ⟨by rw [opens], nofun, fun key => ?_⟩)
    rw [opens]
    exact rowOf_insert key found
  | some row =>
    have searched : d.rows.find? (fun r' => r'.key == r.key) = some row := found
    by_cases spent : row.window_start + (budget r.key).window * 1000 ≤ r.now
    · have opens : d.attempt budget r =
          ⟨d.rows.map fun r' => if (r'.key == r.key) = true then ⟨r.key, 1, r.now, r.now⟩ else r',
            d.allowed ++ [r]⟩ := by
        have fresh : r.now - row.window_start ≥ (budget r.key).window * 1000 := by omega
        simp [attempt, throttle, searched, fresh, Change.update_apply]
      refine .inr (.inl ⟨by rw [opens], fun _ same => Option.some.inj same ▸ spent, fun key => ?_⟩)
      rw [opens]
      exact rowOf_update (c := ⟨r.key, 1, r.now, r.now⟩) key found
    · have running : ¬ r.now - row.window_start ≥ (budget r.key).window * 1000 := by omega
      by_cases refused : row.count ≥ (budget r.key).limit ∨
          r.now - row.last_at < (budget r.key).spacing * 1000
      · refine .inl ⟨?_, row, rfl, by omega⟩
        simp [attempt, throttle, searched, running, refused]
      · have counts : d.attempt budget r =
            ⟨d.rows.map fun r' => if (r'.key == r.key) = true then
                ⟨r.key, row.count + 1, row.window_start, r.now⟩ else r', d.allowed ++ [r]⟩ := by
          simp [attempt, throttle, searched, running, refused, Change.update_apply]
        refine .inr (.inr ⟨by rw [counts], row, rfl, by omega, by omega, by omega, fun key => ?_⟩)
        rw [counts]
        exact rowOf_update (c := ⟨r.key, row.count + 1, row.window_start, r.now⟩) key found

end Door

/-! ### A run of requests -/

section Run

variable {budget : String → Budget} {requests : List Request} {key : String}

theorem served_concat (budget : String → Budget) (requests : List Request) (r : Request) :
    served budget (requests ++ [r]) = (served budget requests).attempt budget r := by
  rw [served, List.foldl_append]
  rfl

theorem opened_concat_iff {r : Request} {start : Int} :
    Opened budget (requests ++ [r]) key start ↔ Opened budget requests key start ∨
      ∃ row, rowOf ((served budget requests).attempt budget r).rows key = some row ∧
        row.window_start = start := by
  simp only [Opened, List.prefix_concat_iff, or_and_right, exists_or, exists_eq_left, served_concat]
  exact or_comm

theorem Opened.of_concat {r : Request} {start : Int}
    (same : rowOf ((served budget requests).attempt budget r).rows key =
      rowOf (served budget requests).rows key)
    (opened : Opened budget (requests ++ [r]) key start) : Opened budget requests key start := by
  rcases opened_concat_iff.mp opened with earlier | ⟨row, found, started⟩
  · exact earlier
  · exact ⟨requests, List.prefix_refl _, row, same ▸ found, started⟩

theorem instants_concat {d : Door} {r : Request} :
    Door.instants ⟨d.rows, d.allowed ++ [r]⟩ key =
      d.instants key ++ if r.key = key then [r.now] else [] := by
  by_cases own : r.key = key <;> simp [Door.instants, own]

/-- What a key's row knows of the instants let through and of the windows opened. -/
structure Tracked (asked : Budget) (instants : List Int) (opened : Int → Prop)
    (row : ThrottleRow) : Prop where
  last : instants.getLast? = some row.last_at
  started : row.window_start ≤ row.last_at
  inside : ∀ now ∈ instants, now < row.window_start + asked.window * 1000
  tallied : (during asked.window row.window_start instants).length ≤ row.count
  within : row.count ≤ asked.limit
  past : ∀ start, opened start →
    start = row.window_start ∨ start + asked.window * 1000 ≤ row.window_start
  held : ∀ start, opened start → (during asked.window start instants).length ≤ asked.limit

theorem during_concat {window : Nat} {start now : Int} {instants : List Int} :
    during window start (instants ++ [now]) =
      during window start instants ++
        if start ≤ now ∧ now < start + window * 1000 then [now] else [] := by
  rw [during, List.filter_append]
  congr 1
  by_cases falls : start ≤ now ∧ now < start + window * 1000 <;> simp [falls]

theorem during_concat_of_past {window : Nat} {start now : Int} {instants : List Int}
    (past : start + window * 1000 ≤ now) :
    during window start (instants ++ [now]) = during window start instants := by
  rw [during_concat, if_neg (by omega), List.append_nil]

/-- A window opens when every instant and every window lies behind it. -/
theorem Tracked.opens {asked : Budget} {instants : List Int} {opened : Int → Prop} {now : Int}
    (key : String) (before : ∀ t ∈ instants, t < now)
    (past : ∀ start, opened start → start + asked.window * 1000 ≤ now)
    (held : ∀ start, opened start → (during asked.window start instants).length ≤ asked.limit) :
    Tracked asked (instants ++ [now]) (fun start => opened start ∨ start = now)
      ⟨key, 1, now, now⟩ := by
  have limit_pos := asked.limit_pos
  have window_pos := asked.window_pos
  have none_yet : during asked.window now instants = [] := by
    rw [during, List.filter_eq_nil_iff]
    intro t member
    have earlier := before t member
    simp only [decide_eq_true_eq]
    omega
  have one : (during asked.window now (instants ++ [now])).length ≤ 1 := by
    rw [during_concat, none_yet]
    split <;> simp
  refine ⟨List.getLast?_concat .., le_refl _, fun t member => ?_, one, limit_pos, ?_, ?_⟩
  · rcases List.mem_append.mp member with old | new
    · have earlier := before t old
      simp only
      omega
    · rw [List.mem_singleton.mp new]
      simp only
      omega
  · rintro start (old | rfl)
    · exact .inr (past start old)
    · exact .inl rfl
  · rintro start (old | rfl)
    · rw [during_concat_of_past (past start old)]
      exact held start old
    · exact le_trans one limit_pos

/-- The running window counts one more. -/
theorem Tracked.counts {asked : Budget} {instants : List Int} {opened : Int → Prop} {now : Int}
    {row : ThrottleRow} (tracked : Tracked asked instants opened row) (after : row.last_at ≤ now)
    (running : now < row.window_start + asked.window * 1000) (room : row.count < asked.limit) :
    Tracked asked (instants ++ [now]) opened
      ⟨row.key, row.count + 1, row.window_start, now⟩ := by
  have started := tracked.started
  have one_more : (during asked.window row.window_start (instants ++ [now])).length ≤
      row.count + 1 := by
    have tallied := tracked.tallied
    rw [during_concat, List.length_append]
    split <;> simp only [List.length_cons, List.length_nil] <;> omega
  refine ⟨List.getLast?_concat .., le_trans started after, fun t member => ?_, one_more, room,
    tracked.past, fun start opened => ?_⟩
  · rcases List.mem_append.mp member with old | new
    · exact tracked.inside t old
    · rw [List.mem_singleton.mp new]
      exact running
  · rcases tracked.past start opened with rfl | past
    · exact le_trans one_more room
    · rw [during_concat_of_past (by omega)]
      exact tracked.held start opened

theorem Tracked.congr {asked : Budget} {instants : List Int} {opened opened' : Int → Prop}
    {row : ThrottleRow} (tracked : Tracked asked instants opened row)
    (same : ∀ start, opened' start → opened start) : Tracked asked instants opened' row :=
  { tracked with
    past := fun start opened => tracked.past start (same start opened)
    held := fun start opened => tracked.held start (same start opened) }

/-- What a run leaves in the key's row: nothing before the key's first request. -/
def Followed (budget : String → Budget) (requests : List Request) (key : String) : Prop :=
  match rowOf (served budget requests).rows key with
  | none => (served budget requests).instants key = [] ∧ ∀ start, ¬ Opened budget requests key start
  | some row => Tracked (budget key) ((served budget requests).instants key)
      (Opened budget requests key) row

theorem Followed.unseen (followed : Followed budget requests key)
    (unseen : rowOf (served budget requests).rows key = none) :
    (served budget requests).instants key = [] ∧ ∀ start, ¬ Opened budget requests key start := by
  rw [Followed, unseen] at followed
  exact followed

theorem Followed.tracked {row : ThrottleRow} (followed : Followed budget requests key)
    (found : rowOf (served budget requests).rows key = some row) :
    Tracked (budget key) ((served budget requests).instants key)
      (Opened budget requests key) row := by
  rw [Followed, found] at followed
  exact followed

/-- A request that leaves the key's row and instants alone leaves it followed. -/
theorem Followed.of_same {r : Request} (followed : Followed budget requests key)
    (rows : rowOf ((served budget requests).attempt budget r).rows key =
      rowOf (served budget requests).rows key)
    (instants : ((served budget requests).attempt budget r).instants key =
      (served budget requests).instants key) : Followed budget (requests ++ [r]) key := by
  rw [Followed, served_concat, rows, instants]
  cases found : rowOf (served budget requests).rows key with
  | none =>
    obtain ⟨empty, unopened⟩ := followed.unseen found
    exact ⟨empty, fun start opened => unopened start (opened.of_concat rows)⟩
  | some row => exact (followed.tracked found).congr fun start opened => opened.of_concat rows

/-- Every instant let through is that of a request. -/
theorem instants_mem {now : Int} (member : now ∈ (served budget requests).instants key) :
    ⟨key, now⟩ ∈ requests := by
  induction requests using List.reverseRecOn with
  | nil => cases member
  | append_singleton requests r ih =>
    rw [served_concat] at member
    have kept_or_new : now ∈ (served budget requests).instants key ∨ (r.key = key ∧ r.now = now) := by
      rcases Door.attempt_cases budget (served budget requests) r with
        ⟨same, -⟩ | ⟨allowed, -⟩ | ⟨allowed, -⟩
      · rw [same] at member
        exact .inl member
      all_goals
        simp only [Door.instants, allowed, List.filter_append, List.map_append,
          List.mem_append] at member
        refine member.imp id fun new => ?_
        by_cases own : r.key = key <;> simp [own] at new
        exact ⟨own, new.symm⟩
    rcases kept_or_new with old | ⟨rfl, rfl⟩
    · exact List.mem_append_left _ (ih old)
    · exact List.mem_append_right _ (List.mem_singleton.mpr rfl)

theorem instants_of_allowed {d : Door} {r : Request}
    (allowed : (d.attempt budget r).allowed = d.allowed ++ [r]) :
    (d.attempt budget r).instants key = d.instants key ++ if r.key = key then [r.now] else [] := by
  rw [← instants_concat, Door.instants, Door.instants, allowed]

/-- A request for another key changes neither the key's row nor its instants. -/
theorem attempt_other (budget : String → Budget) (d : Door) {r : Request} (other : r.key ≠ key) :
    rowOf (d.attempt budget r).rows key = rowOf d.rows key ∧
      (d.attempt budget r).instants key = d.instants key := by
  rcases Door.attempt_cases budget d r with
    ⟨same, -⟩ | ⟨allowed, -, rows⟩ | ⟨allowed, row, -, -, -, -, rows⟩
  · rw [same]
    exact ⟨rfl, rfl⟩
  all_goals
    rw [rows key, if_neg (Ne.symm other), instants_of_allowed allowed, if_neg other]
    exact ⟨rfl, List.append_nil _⟩

theorem InOrder.earlier {r : Request} (ordered : InOrder (requests ++ [r]) key) :
    InOrder requests key :=
  (List.pairwise_append.mp ordered).1

theorem InOrder.le_last {r : Request} (ordered : InOrder (requests ++ [r]) key)
    (own : r.key = key) {now : Int} (member : now ∈ (served budget requests).instants key) :
    now ≤ r.now :=
  (List.pairwise_append.mp ordered).2.2 ⟨key, now⟩ (instants_mem member) r
    (List.mem_singleton.mpr rfl) rfl own

/-- Once the key's window has run out, or before its first request, everything lies behind. -/
theorem Followed.behind {now : Int} (followed : Followed budget requests key)
    (spent : ∀ row, rowOf (served budget requests).rows key = some row →
      row.window_start + (budget key).window * 1000 ≤ now) :
    (∀ t ∈ (served budget requests).instants key, t < now) ∧
      (∀ start, Opened budget requests key start → start + (budget key).window * 1000 ≤ now) ∧
      ∀ start, Opened budget requests key start →
        (during (budget key).window start ((served budget requests).instants key)).length ≤
          (budget key).limit := by
  cases found : rowOf (served budget requests).rows key with
  | none =>
    obtain ⟨empty, unopened⟩ := followed.unseen found
    rw [empty]
    exact ⟨nofun, fun start opened => absurd opened (unopened start),
      fun start opened => absurd opened (unopened start)⟩
  | some row =>
    have tracked := followed.tracked found
    have window_spent := spent row found
    refine ⟨fun t member => ?_, fun start opened => ?_, tracked.held⟩
    · have inside := tracked.inside t member
      omega
    · rcases tracked.past start opened with rfl | past <;> omega

theorem followed_of_inOrder (ordered : InOrder requests key) : Followed budget requests key := by
  induction requests using List.reverseRecOn with
  | nil =>
    refine ⟨rfl, ?_⟩
    rintro start ⟨earlier, prefixed, row, found, -⟩
    rw [List.prefix_nil.mp prefixed] at found
    cases found
  | append_singleton requests r ih =>
    have followed := ih ordered.earlier
    by_cases own : r.key = key
    · subst own
      rcases Door.attempt_cases budget (served budget requests) r with
        ⟨refused, -⟩ | ⟨allowed, spent, rows⟩ | ⟨allowed, row, found, running, room, -, rows⟩
      · exact followed.of_same (by rw [refused]) (by rw [refused])
      all_goals
        have row_now := rows r.key
        rw [if_pos rfl] at row_now
        rw [Followed, served_concat, row_now, instants_of_allowed allowed, if_pos rfl]
      · -- Whatever the key's row was, its window lies behind the request.
        obtain ⟨before, past, held⟩ := followed.behind spent
        refine (Tracked.opens r.key before past held).congr fun start opened => ?_
        refine (opened_concat_iff.mp opened).imp id ?_
        rintro ⟨row, found, rfl⟩
        exact congrArg ThrottleRow.window_start (Option.some.inj (found.symm.trans row_now))
      · -- The window runs on, and no window opens.
        have tracked := followed.tracked found
        have after : row.last_at ≤ r.now :=
          ordered.le_last rfl (List.mem_of_getLast? tracked.last)
        have counted := tracked.counts after running room
        rw [key_of_rowOf found] at counted
        refine counted.congr fun start opened => ?_
        rcases opened_concat_iff.mp opened with old | ⟨row', found', rfl⟩
        · exact old
        · refine ⟨requests, List.prefix_refl _, row, found, ?_⟩
          rw [← Option.some.inj (row_now.symm.trans found')]
    · obtain ⟨rows, instants⟩ := attempt_other budget (served budget requests) own
      exact followed.of_same rows instants

/-! ### The two halves of the law -/

theorem windowsHold_of_followed (followed : Followed budget requests key) :
    WindowsHold budget requests key := by
  intro start opened
  cases found : rowOf (served budget requests).rows key with
  | none => exact absurd opened ((followed.unseen found).2 start)
  | some row => exact (followed.tracked found).held start opened

theorem rested_concat_iff {r : Request} :
    Rested budget (requests ++ [r]) key ↔ Rested budget requests key ∧
      (r.key = key → ∀ row, rowOf (served budget requests).rows key = some row →
        row.window_start + (budget key).window * 1000 ≤ r.now →
          row.last_at + (budget key).spacing * 1000 ≤ r.now) := by
  constructor
  · intro rested
    refine ⟨fun earlier now prefixed => ?_, ?_⟩
    · exact rested earlier now (prefixed.trans (List.prefix_append ..))
    · rintro rfl
      exact rested requests r.now (List.prefix_refl _)
  · rintro ⟨rested, last⟩ earlier now prefixed
    rcases List.prefix_concat_iff.mp prefixed with whole | inside
    · obtain ⟨rfl, ends⟩ := List.append_inj' whole rfl
      obtain rfl := List.singleton_inj.mp ends
      exact last rfl
    · exact rested earlier now inside

theorem spaced_concat_iff {r : Request} {row : ThrottleRow} (own : r.key = key)
    (allowed : ((served budget requests).attempt budget r).allowed =
      (served budget requests).allowed ++ [r])
    (last : ((served budget requests).instants key).getLast? = some row.last_at) :
    Spaced budget (requests ++ [r]) key ↔ Spaced budget requests key ∧
      row.last_at + (budget key).spacing * 1000 ≤ r.now := by
  rw [Spaced, served_concat, instants_of_allowed allowed, if_pos own, List.isChain_append, last]
  simp [Spaced]

theorem spaced_iff_rested (ordered : InOrder requests key) :
    Spaced budget requests key ↔ Rested budget requests key := by
  induction requests using List.reverseRecOn with
  | nil =>
    refine iff_of_true List.IsChain.nil fun earlier now prefixed => ?_
    exact absurd (List.prefix_nil.mp prefixed) (by simp)
  | append_singleton requests r ih =>
    have followed : Followed budget requests key := followed_of_inOrder ordered.earlier
    rw [rested_concat_iff, ← ih ordered.earlier]
    by_cases own : r.key = key
    · subst own
      rcases Door.attempt_cases budget (served budget requests) r with
        ⟨refused, row, found, running⟩ | ⟨allowed, spent, -⟩ |
          ⟨allowed, row, found, running, -, apart, -⟩
      · rw [Spaced, served_concat, refused, ← Spaced]
        refine (and_iff_left fun _ row' found' spent => ?_).symm
        obtain rfl := Option.some.inj (found.symm.trans found')
        omega
      · cases found : rowOf (served budget requests).rows r.key with
        | none =>
          -- The first request of its key has none before it.
          have alone : ((served budget requests).instants r.key) = [] := (followed.unseen found).1
          rw [Spaced, served_concat, instants_of_allowed allowed, Spaced, alone]
          simp
        | some row =>
          rw [spaced_concat_iff rfl allowed (followed.tracked found).last]
          have window_spent := spent row found
          simp [window_spent]
      · -- Inside a window the throttle itself asks for the spacing.
        rw [spaced_concat_iff rfl allowed (followed.tracked found).last]
        refine and_congr_right fun _ => iff_of_true apart fun _ row' found' _ => ?_
        obtain rfl := Option.some.inj (found.symm.trans found')
        exact apart
    · obtain ⟨-, instants⟩ := attempt_other budget (served budget requests) own
      rw [Spaced, served_concat, instants, ← Spaced]
      exact (and_iff_left fun same => absurd same own).symm

end Run

/-- The windows always hold; the spacing holds exactly when no window is reopened too early. -/
theorem throttleLaw_iff_rested {budget : String → Budget} {requests : List Request} {key : String}
    (ordered : InOrder requests key) :
    WindowsHold budget requests key ∧
      (ThrottleLaw budget requests key ↔ Rested budget requests key) := by
  have windows : WindowsHold budget requests key :=
    windowsHold_of_followed (followed_of_inOrder ordered)
  refine ⟨windows, ?_⟩
  rw [ThrottleLaw, spaced_iff_rested ordered]
  exact and_iff_right windows

/-- Mail to one address: three within five minutes, half a minute apart. -/
def mailBudget : Budget := ⟨3, 300, 30, by decide, by decide⟩

/-- The window of the first request runs out ten seconds after the second one. -/
def early : List Request :=
  [⟨"mail:a", 0⟩, ⟨"mail:a", 290000⟩, ⟨"mail:a", 300000⟩]

theorem throttleLaw_iff_rested_early :
    InOrder early "mail:a" ∧ WindowsHold (fun _ => mailBudget) early "mail:a" ∧
      (ThrottleLaw (fun _ => mailBudget) early "mail:a" ↔
        Rested (fun _ => mailBudget) early "mail:a") := by
  have ordered : InOrder early "mail:a" := by
    simp [InOrder, early]
  exact ⟨ordered, throttleLaw_iff_rested ordered⟩

/-- Two requests ten seconds apart are both let through. -/
theorem spacing_lost_at_reset :
    ¬ ∀ (budget : String → Budget) (requests : List Request) (key : String),
      requests.Pairwise (fun before r => before.now ≤ r.now) → ThrottleLaw budget requests key := by
  intro always
  have spaced := (always (fun _ => mailBudget) early "mail:a" (by simp [early])).2
  have instants : (served (fun _ => mailBudget) early).instants "mail:a" = [0, 290000, 300000] := by
    decide +kernel
  rw [Spaced, instants] at spaced
  simp [mailBudget] at spaced

end LedgerDesk.Access
