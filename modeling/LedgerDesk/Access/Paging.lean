import LedgerDesk.Access.Census
import LedgerDesk.Foundation.Checks

/-!
# Reading the census to its end

A cursor stands where the page before it ended, for as long as its row is there; no other row
comes to be of its digest. So pages that follow one another over one population are the
population in its order.
-/
namespace LedgerDesk.Access

open Foundation

variable {config : AccessConfig} {reading : ReadingConfig} {stringify : Population → String}

/-! ### The population -/

instance : IsTrans Selected accountOrder where
  trans _ _ _ := le_trans (α := List ℕ)

instance : Std.Total accountOrder where
  total _ _ := le_total (α := List ℕ) _ _

theorem mem_authorisedEntries {authority : Authority} {now : Int} {viewer : Option Account}
    {surface : Surface} {candidates : List CensusEntry} {e : Selected} :
    e ∈ authorisedEntries authority now viewer surface candidates ↔
      e ∈ candidates.map CensusEntry.selected ∧ entitled authority now viewer surface e = true := by
  rw [authorisedEntries, List.mem_insertionSort, List.mem_filter]

/-- Once each, in the order of the accounts. -/
theorem authorisedEntries_sorted {authority : Authority} {now : Int} {viewer : Option Account}
    {surface : Surface} {candidates : List CensusEntry}
    (distinct : (candidates.map CensusEntry.account_id).Nodup) :
    ((authorisedEntries authority now viewer surface candidates).map Selected.account_id).Pairwise
      fun a b => Agents.codeUnits a < Agents.codeUnits b := by
  have sorted := List.pairwise_insertionSort accountOrder
    ((candidates.map CensusEntry.selected).filter (entitled authority now viewer surface))
  have keys : ((candidates.map CensusEntry.selected).map Selected.account_id).Nodup := by
    rw [List.map_map]
    exact distinct
  have kept := (List.filter_sublist (p := entitled authority now viewer surface)
    (l := candidates.map CensusEntry.selected)).map Selected.account_id
  have apart := (((List.perm_insertionSort accountOrder _).map Selected.account_id).nodup_iff).mpr
    (keys.sublist kept)
  rw [authorisedEntries, List.pairwise_map]
  rw [List.Nodup, List.pairwise_map] at apart
  exact (sorted.and apart).imp fun ⟨ordered, different⟩ =>
    lt_of_le_of_ne ordered fun same => different (Agents.codeUnits_injective same)

theorem prepare_ok {tables : CensusTables} {now : Int} {token : Option String} {p : Prepared}
    (ok : prepare config reading tables now token = .ok p) :
    ∃ surface, tables.surface = some surface ∧
      p.population.entries = authorisedEntries tables.store.authority now
        (tables.store.authority.account p.session.account_id) surface tables.census_entry := by
  obtain ⟨control, -, ok⟩ := except_bind_eq_ok.mp ok
  dsimp only at ok
  split at ok
  · cases ok
  · split at ok
    · cases ok
    · split at ok
      · cases ok
      · next surface present =>
        split at ok
        · cases ok
        · split at ok
          · cases ok
          · split at ok
            · cases ok
            · split at ok
              · cases ok
              · split at ok
                · cases ok
                · cases ok
                  exact ⟨surface, present, rfl⟩

/-! ### One page -/

/-- A cursor can be minted where the session has room for one more. -/
structure Mints (config : AccessConfig) (reading : ReadingConfig) (p : Prepared) (now : Int)
    (secret : CursorSecret) (cursors : List CensusCursor) : Prop where
  room : (unexpired p now cursors).countP (fun row => row.session_digest == p.session.digest) <
    reading.cursorLimit
  new : ∀ row ∈ unexpired p now cursors, row.digest ≠ cursorDigest config secret.value
  lasts : now < min p.expiresAt (now + reading.cursorSeconds * 1000)

theorem mint_eq_ok {p : Prepared} {now : Int} {position : Nat} {secret : CursorSecret}
    {cursors left : List CensusCursor} :
    mint config reading stringify p now position secret cursors = .ok left ↔
      Mints config reading p now secret cursors ∧
        left = unexpired p now cursors ++ [⟨cursorDigest config secret.value, p.session.account_id,
          p.session.digest, populationDigest config stringify p.population, position,
          min p.expiresAt (now + reading.cursorSeconds * 1000), now⟩] := by
  constructor
  · intro ok
    rw [mint] at ok
    split at ok
    · cases ok
    · next room =>
      split at ok
      · cases ok
      · next new =>
        split at ok
        · cases ok
        · next lasts =>
          cases ok
          refine ⟨⟨Nat.lt_of_not_le room, fun row member same => new ?_, Int.not_le.mp lasts⟩, rfl⟩
          exact List.any_eq_true.mpr ⟨row, member, beq_iff_eq.mpr same⟩
  · rintro ⟨mints, rfl⟩
    rw [mint, if_neg (Nat.not_le_of_lt mints.room), if_neg, if_neg (Int.not_le.mpr mints.lasts)]
    · intro taken
      obtain ⟨row, member, same⟩ := List.any_eq_true.mp taken
      exact mints.new row member (beq_iff_eq.mp same)

/-- What a reading is answered, where it is answered a page. -/
theorem people_eq_ok {tables : CensusTables} {now : Int} {token : Option String} {cursor : String}
    {secret : CursorSecret} {cursors left : List CensusCursor} {body : People} :
    people config reading stringify tables now token cursor secret cursors = .ok (body, left) ↔
      ∃ p position, prepare config reading tables now token = .ok p ∧
        cursorPosition config stringify p now cursor cursors = some position ∧
        cursorsLeft config reading stringify p now position secret cursors = .ok left ∧
        body = pageBody config reading stringify tables.census_entry p position secret ∧
        peopleProfile body = true := by
  constructor
  · intro ok
    obtain ⟨p, prepared, ok⟩ := except_bind_eq_ok.mp ok
    split at ok
    · cases ok
    · next position usable =>
      obtain ⟨left', leaves, ok⟩ := except_bind_eq_ok.mp ok
      dsimp only at ok
      split at ok
      · next fits =>
        cases ok
        exact ⟨p, position, prepared, usable, leaves, rfl, fits⟩
      · cases ok
  · rintro ⟨p, position, prepared, usable, leaves, rfl, fits⟩
    refine except_bind_eq_ok.mpr ⟨p, prepared, ?_⟩
    rw [usable]
    refine except_bind_eq_ok.mpr ⟨left, leaves, ?_⟩
    dsimp only
    rw [if_pos fits]

theorem secret_ne_empty (secret : CursorSecret) : secret.value ≠ "" := by
  intro empty
  have token := secret.token
  rw [empty] at token
  cases token

theorem pageBody_next {names : List CensusEntry} {p : Prepared} {position : Nat}
    {secret : CursorSecret} :
    (pageBody config reading stringify names p position secret).next_cursor = "" ↔
      p.population.entries.length ≤ position + reading.pageSize := by
  simp only [pageBody]
  split
  · next more =>
    refine iff_of_false (secret_ne_empty secret) ?_
    simp only [leavesMore, pageEnd, pageAt, decide_eq_true_eq, List.length_take,
      List.length_drop] at more
    omega
  · next last =>
    refine iff_of_true rfl ?_
    simp only [leavesMore, pageEnd, pageAt, decide_eq_true_eq, List.length_take,
      List.length_drop] at last
    omega

/-! ### Runs -/

abbrev CensusTr := Transition CensusState CensusAct

variable (config reading stringify)

/-- The digest of the cursor a reading was answered. -/
def minted (tr : CensusTr) : Option String :=
  match tr.source.answer config reading stringify tr.act with
  | some (.ok (body, _)) =>
    if body.next_cursor = "" then none else some (cursorDigest config body.next_cursor)
  | _ => none

variable {config reading stringify}

/-- A row of the cursors was there before, or is of the cursor that was answered. -/
theorem cursor_mem {s t : CensusState} {act : CensusAct}
    (taken : censusStep config reading stringify s act = some t) {row : CensusCursor}
    (member : row ∈ t.cursors) :
    row ∈ s.cursors ∨ minted config reading stringify ⟨s, act, t⟩ = some row.digest := by
  cases act with
  | tick =>
    cases taken
    exact .inl member
  | read tables token cursor secret =>
    simp only [censusStep, CensusState.answer] at taken
    cases answer : people config reading stringify tables s.clock token cursor secret s.cursors with
    | error f =>
      rw [answer] at taken
      cases taken
      exact .inl member
    | ok page =>
      obtain ⟨body, left⟩ := page
      rw [answer] at taken
      cases taken
      obtain ⟨p, position, -, -, leaves, same, -⟩ := people_eq_ok.mp answer
      rw [cursorsLeft] at leaves
      split at leaves
      · next more =>
        obtain ⟨-, rfl⟩ := mint_eq_ok.mp leaves
        rcases List.mem_append.mp member with old | last
        · exact .inl (List.mem_of_mem_filter old)
        · right
          have next : body.next_cursor = secret.value := by
            rw [same]
            exact if_pos more
          rw [List.mem_singleton.mp last, minted]
          simp only [CensusState.answer, answer]
          rw [if_neg (by rw [next]; exact secret_ne_empty secret), next]
      · cases leaves
        exact .inl member

/-- A digest that is not minted stays that of the rows it has. -/
theorem pinned_run {s u : CensusState} {ts : List CensusTr}
    (run : Run (censusStep config reading stringify) s ts u) {digest : String}
    {P : CensusCursor → Prop} (pinned : ∀ row ∈ s.cursors, row.digest = digest → P row)
    (unminted : digest ∉ ts.filterMap (minted config reading stringify)) :
    ∀ row ∈ u.cursors, row.digest = digest → P row := by
  refine (run.invariant_of (P := fun s => ∀ row ∈ s.cursors, row.digest = digest → P row)
    (fun tr => minted config reading stringify tr ≠ some digest) ?_ ?_ pinned).1
  · intro tr taken other pinned row member same
    rcases cursor_mem taken member with old | new
    · exact pinned row old same
    · rw [same] at new
      exact absurd new other
  · intro tr member same
    exact unminted (List.mem_filterMap.mpr ⟨tr, member, same⟩)

/-! ### Walks -/

/-- The reading is answered a page of what it prepared. -/
structure IsPage (config : AccessConfig) (reading : ReadingConfig) (stringify : Population → String)
    (p : Prepared) (tr : CensusTr) (cursor : String) (body : People) : Prop where
  answered : ∃ tables token secret left, tr.act = .read tables token cursor secret ∧
    prepare config reading tables tr.source.clock token = .ok p ∧
    people config reading stringify tables tr.source.clock token cursor secret tr.source.cursors =
      .ok (body, left)

/-- Readings of one population, each with the cursor the one before it was answered. -/
inductive Walk (config : AccessConfig) (reading : ReadingConfig) (stringify : Population → String)
    (population : Population) : String → List CensusTr → List People → Prop
  | one {p cursor tr body} (page : IsPage config reading stringify p tr cursor body)
      (same : p.population = population) :
      Walk config reading stringify population cursor [tr] [body]
  | more {p cursor tr body trs bodies} (page : IsPage config reading stringify p tr cursor body)
      (same : p.population = population) (follows : body.next_cursor ≠ "")
      (rest : Walk config reading stringify population body.next_cursor trs bodies) :
      Walk config reading stringify population cursor (tr :: trs) (body :: bodies)

/-- The cursor stands for the position, as long as its row is there. -/
def Stands (config : AccessConfig) (s : CensusState) (cursor : String) (position : Nat) : Prop :=
  if cursor = "" then position = 0
  else ∀ row ∈ s.cursors, row.digest = cursorDigest config cursor → row.position = position

theorem IsPage.found {p : Prepared} {tr : CensusTr} {cursor : String} {body : People}
    (page : IsPage config reading stringify p tr cursor body) :
    ∃ tables token secret left position, tr.act = .read tables token cursor secret ∧
      people config reading stringify tables tr.source.clock token cursor secret tr.source.cursors =
        .ok (body, left) ∧
      cursorPosition config stringify p tr.source.clock cursor tr.source.cursors = some position ∧
      cursorsLeft config reading stringify p tr.source.clock position secret tr.source.cursors =
        .ok left ∧
      body = pageBody config reading stringify tables.census_entry p position secret := by
  obtain ⟨tables, token, secret, left, act, prepared, answer⟩ := page.answered
  obtain ⟨p', position, prepared', usable, leaves, body, -⟩ := people_eq_ok.mp answer
  rw [prepared] at prepared'
  cases prepared'
  exact ⟨tables, token, secret, left, position, act, answer, usable, leaves, body⟩

/-- Where the cursor stands, the page begins. -/
theorem Stands.position {s : CensusState} {cursor : String} {position found : Nat} {p : Prepared}
    (stands : Stands config s cursor position)
    (usable : cursorPosition config stringify p s.clock cursor s.cursors = some found) :
    found = position := by
  rw [cursorPosition] at usable
  rw [Stands] at stands
  by_cases first : cursor = ""
  · rw [if_pos (by rw [first]; rfl), Option.some.injEq] at usable
    rw [if_pos first] at stands
    omega
  · rw [if_neg (by simpa using first)] at usable
    rw [if_neg first] at stands
    obtain ⟨row, filtered, rfl⟩ := Option.map_eq_some_iff.mp usable
    obtain ⟨looked, -⟩ := Option.filter_eq_some_iff.mp filtered
    exact stands row (List.mem_of_find?_eq_some looked) (by simpa using List.find?_some looked)

theorem page_at {p : Prepared} {tr : CensusTr} {cursor : String} {body : People}
    {position : Nat} (page : IsPage config reading stringify p tr cursor body)
    (stands : Stands config tr.source cursor position) :
    body.people.map Person.account_id =
        ((p.population.entries.drop position).take reading.pageSize).map Selected.account_id ∧
      (body.next_cursor = "" ↔ p.population.entries.length ≤ position + reading.pageSize) := by
  obtain ⟨tables, token, secret, left, found, -, -, usable, -, rfl⟩ := page.found
  obtain rfl := stands.position usable
  refine ⟨?_, pageBody_next⟩
  rw [pageBody, List.map_map]
  rfl

/-- The step leaves the cursors the page does. -/
theorem step_of_people {s t : CensusState} {tables : CensusTables} {token : Option String}
    {cursor : String} {secret : CursorSecret} {body : People} {left : List CensusCursor}
    (taken : censusStep config reading stringify s (.read tables token cursor secret) = some t)
    (answer : people config reading stringify tables s.clock token cursor secret s.cursors =
      .ok (body, left)) : t.cursors = left := by
  simp only [censusStep, CensusState.answer, answer, Option.some.injEq] at taken
  rw [← taken]

/-- The row of the cursor that a page was answered. -/
def mintedRow (config : AccessConfig) (reading : ReadingConfig) (stringify : Population → String)
    (p : Prepared) (now : Int) (position : Nat) (cursor : String) : CensusCursor :=
  ⟨cursorDigest config cursor, p.session.account_id, p.session.digest,
    populationDigest config stringify p.population, position + reading.pageSize,
    min p.expiresAt (now + reading.cursorSeconds * 1000), now⟩

/-- It is there after the reading, and no other of its digest. -/
theorem row_after {p : Prepared} {tr : CensusTr} {cursor : String} {body : People}
    (taken : censusStep config reading stringify tr.source tr.act = some tr.target)
    (page : IsPage config reading stringify p tr cursor body) (follows : body.next_cursor ≠ "") :
    ∃ position, cursorPosition config stringify p tr.source.clock cursor tr.source.cursors =
        some position ∧
      mintedRow config reading stringify p tr.source.clock position body.next_cursor ∈
        tr.target.cursors ∧
      ∀ row ∈ tr.target.cursors, row.digest = cursorDigest config body.next_cursor →
        row = mintedRow config reading stringify p tr.source.clock position body.next_cursor := by
  obtain ⟨tables, token, secret, left, position, act, answer, usable, leaves, rfl⟩ := page.found
  rw [act] at taken
  rw [cursorsLeft] at leaves
  split at leaves
  · next more =>
    have next : (pageBody config reading stringify tables.census_entry p position secret).next_cursor
        = secret.value := if_pos more
    -- a page that is not the last is a whole one
    have whole : pageEnd reading p position = position + reading.pageSize := by
      simp only [leavesMore, pageEnd, pageAt, decide_eq_true_eq, List.length_take,
        List.length_drop] at more ⊢
      omega
    obtain ⟨mints, rfl⟩ := mint_eq_ok.mp leaves
    rw [step_of_people taken answer, next, whole]
    refine ⟨position, usable, List.mem_append_right _ List.mem_cons_self, fun r member same => ?_⟩
    rcases List.mem_append.mp member with old | last
    · exact absurd same (mints.new r old)
    · exact List.mem_singleton.mp last
  · next last => exact absurd (if_neg last) follows

/-- After the reading its cursor stands where the page ended. -/
theorem stands_after {p : Prepared} {tr : CensusTr} {cursor : String} {body : People}
    {position : Nat} (taken : censusStep config reading stringify tr.source tr.act = some tr.target)
    (page : IsPage config reading stringify p tr cursor body)
    (stands : Stands config tr.source cursor position) (follows : body.next_cursor ≠ "") :
    Stands config tr.target body.next_cursor (position + reading.pageSize) := by
  obtain ⟨found, usable, -, only⟩ := row_after taken page follows
  obtain rfl := stands.position usable
  rw [Stands, if_neg follows]
  intro row member same
  rw [only row member same]
  rfl

theorem minted_of_page {p : Prepared} {tr : CensusTr} {cursor : String} {body : People}
    (page : IsPage config reading stringify p tr cursor body) (follows : body.next_cursor ≠ "") :
    minted config reading stringify tr = some (cursorDigest config body.next_cursor) := by
  obtain ⟨tables, token, secret, left, act, -, answer⟩ := page.answered
  rw [minted, act]
  simp only [CensusState.answer, answer]
  rw [if_neg follows]

theorem stands_run {s u : CensusState} {ts : List CensusTr}
    (run : Run (censusStep config reading stringify) s ts u) {cursor : String} {position : Nat}
    (stands : Stands config s cursor position)
    (unminted : cursor ≠ "" →
      cursorDigest config cursor ∉ ts.filterMap (minted config reading stringify)) :
    Stands config u cursor position := by
  rw [Stands] at stands ⊢
  split
  · next first =>
    rw [if_pos first] at stands
    exact stands
  · next later =>
    rw [if_neg later] at stands
    exact pinned_run run stands (unminted later)

/-- A walk is the population from where its cursor stands, a page for each reading. -/
theorem walk_from {population : Population} {cursor : String} {trs : List CensusTr}
    {bodies : List People} (walk : Walk config reading stringify population cursor trs bodies)
    {s u : CensusState} {ts : List CensusTr} (run : Run (censusStep config reading stringify) s ts u)
    (order : trs.Sublist ts) (fresh : (ts.filterMap (minted config reading stringify)).Nodup)
    {position : Nat} (stands : Stands config s cursor position)
    (unminted : cursor ≠ "" →
      cursorDigest config cursor ∉ ts.filterMap (minted config reading stringify)) :
    bodies.flatMap (fun body => body.people.map Person.account_id) =
        ((population.entries.drop position).take (bodies.length * reading.pageSize)).map
          Selected.account_id ∧
      (bodies.getLast?.map People.next_cursor = some "" ↔
        population.entries.length ≤ position + bodies.length * reading.pageSize) ∧
      (bodies.length = 1 ∨
        position + (bodies.length - 1) * reading.pageSize < population.entries.length) := by
  induction walk generalizing s ts position with
  | @one p cursor tr body page same =>
    subst same
    obtain ⟨pre, post, rfl⟩ := List.append_of_mem (List.singleton_sublist.mp order)
    obtain ⟨first, -, -⟩ := run.split_cons
    have here := stands_run first stands fun later minted_ => unminted later (by
      rw [List.filterMap_append]
      exact List.mem_append_left _ minted_)
    obtain ⟨ids, last⟩ := page_at page here
    simp only [List.flatMap_cons, List.flatMap_nil, List.append_nil, List.length_singleton,
      Nat.one_mul, List.getLast?_singleton, Option.map_some, Option.some.injEq]
    exact ⟨ids, last, .inl trivial⟩
  | @more p cursor tr body trs bodies page same follows rest ih =>
    subst same
    obtain ⟨xs, ys, rfl, member, rest_order⟩ := List.cons_sublist_iff.mp order
    obtain ⟨pre, mid, rfl⟩ := List.append_of_mem member
    rw [List.append_assoc, List.cons_append] at run fresh unminted
    obtain ⟨first, taken, second⟩ := run.split_cons
    have here := stands_run first stands fun later minted_ => unminted later (by
      rw [List.filterMap_append]
      exact List.mem_append_left _ minted_)
    obtain ⟨ids, last⟩ := page_at page here
    have own := minted_of_page page follows
    rw [List.filterMap_append, List.filterMap_cons_some own, List.nodup_append] at fresh
    obtain ⟨tail_fresh, distinct⟩ := List.nodup_cons.mp fresh.2.1
    obtain ⟨ids', last', bound⟩ := ih second (rest_order.trans (List.sublist_append_right mid ys))
      distinct (stands_after taken page here follows) fun _ => tail_fresh
    have goes : position + reading.pageSize < p.population.entries.length := by
      by_contra ends
      exact follows (last.mpr (by omega))
    have length : (body :: bodies).length * reading.pageSize =
        reading.pageSize + bodies.length * reading.pageSize := by
      rw [List.length_cons, Nat.succ_mul, Nat.add_comm]
    have nonempty : bodies ≠ [] := by
      rintro rfl
      cases rest
    refine ⟨?_, ?_, .inr ?_⟩
    · rw [List.flatMap_cons, ids, ids', length, List.take_add, List.map_append, List.drop_drop]
    · rw [List.getLast?_cons_of_ne_nil nonempty, last', length, Nat.add_assoc]
    · rw [List.length_cons, Nat.add_sub_cancel]
      rcases bound with alone | below
      · rw [alone, Nat.one_mul]
        exact goes
      · obtain ⟨k, count⟩ := Nat.exists_eq_succ_of_ne_zero (List.length_pos_iff.mpr nonempty).ne'
        rw [count, Nat.succ_sub_one] at below
        rw [count, Nat.succ_mul]
        omega

/-! ### Cursors that are followed, and that are refused -/

/-- A row stays until it has run out. -/
theorem row_stays {s t : CensusState} {act : CensusAct}
    (taken : censusStep config reading stringify s act = some t) {row : CensusCursor}
    (member : row ∈ s.cursors) (lasts : s.clock < row.expires_at) : row ∈ t.cursors := by
  cases act with
  | tick =>
    cases taken
    exact member
  | read tables token cursor secret =>
    simp only [censusStep, CensusState.answer] at taken
    cases answer : people config reading stringify tables s.clock token cursor secret s.cursors with
    | error f =>
      rw [answer] at taken
      cases taken
      exact member
    | ok page =>
      obtain ⟨body, left⟩ := page
      rw [answer] at taken
      cases taken
      obtain ⟨p, position, -, -, leaves, -, -⟩ := people_eq_ok.mp answer
      rw [cursorsLeft] at leaves
      split at leaves
      · obtain ⟨-, rfl⟩ := mint_eq_ok.mp leaves
        refine List.mem_append_left _ (List.mem_filter.mpr ⟨member, ?_⟩)
        simp [Int.not_le.mpr lasts]
      · cases leaves
        exact member

theorem clock_step {s t : CensusState} {act : CensusAct}
    (taken : censusStep config reading stringify s act = some t) : s.clock ≤ t.clock := by
  cases act with
  | tick elapsed =>
    cases taken
    exact Int.le_add_of_nonneg_right (Int.natCast_nonneg _)
  | read tables token cursor secret =>
    simp only [censusStep, CensusState.answer] at taken
    split at taken
    all_goals
      cases taken
      exact Int.le_refl _

theorem clock_run {s u : CensusState} {ts : List CensusTr}
    (run : Run (censusStep config reading stringify) s ts u) : s.clock ≤ u.clock := by
  induction run with
  | done => exact Int.le_refl _
  | step taken _ ih => exact (clock_step taken).trans ih

theorem row_stays_run {s u : CensusState} {ts : List CensusTr}
    (run : Run (censusStep config reading stringify) s ts u) {row : CensusCursor}
    (member : row ∈ s.cursors) (lasts : u.clock < row.expires_at) : row ∈ u.cursors := by
  induction run with
  | done => exact member
  | step taken rest ih =>
    have past := (clock_step taken).trans (clock_run rest)
    exact ih (row_stays taken member (past.trans_lt lasts)) lasts

section Later

variable {s u : CensusState} {pre post : List CensusTr} {tr later : CensusTr} {p : Prepared}
variable {cursor : String} {body : People}

/-- At any later reading, a row of the cursor is the one that was minted. -/
theorem row_later (run : Run (censusStep config reading stringify) s (pre ++ tr :: post) u)
    (fresh : ((pre ++ tr :: post).filterMap (minted config reading stringify)).Nodup)
    (page : IsPage config reading stringify p tr cursor body) (follows : body.next_cursor ≠ "")
    (member : later ∈ post) :
    ∃ position, cursorPosition config stringify p tr.source.clock cursor tr.source.cursors =
        some position ∧
      (∀ row ∈ later.source.cursors, row.digest = cursorDigest config body.next_cursor →
        row = mintedRow config reading stringify p tr.source.clock position body.next_cursor) ∧
      (later.source.clock < min p.expiresAt (tr.source.clock + reading.cursorSeconds * 1000) →
        mintedRow config reading stringify p tr.source.clock position body.next_cursor ∈
          later.source.cursors) := by
  obtain ⟨-, taken, rest⟩ := run.split_cons
  obtain ⟨xs, ys, rfl⟩ := List.append_of_mem member
  have between := (rest.split_cons).1
  obtain ⟨position, usable, present, only⟩ := row_after taken page follows
  rw [List.filterMap_append, List.filterMap_cons_some (minted_of_page page follows),
    List.nodup_append] at fresh
  have unminted := (List.nodup_cons.mp fresh.2.1).1
  rw [List.filterMap_append] at unminted
  refine ⟨position, usable, ?_, fun lasts => row_stays_run between present lasts⟩
  exact pinned_run between only fun minted_ => unminted (List.mem_append_left _ minted_)

theorem refused_later (run : Run (censusStep config reading stringify) s (pre ++ tr :: post) u)
    (fresh : ((pre ++ tr :: post).filterMap (minted config reading stringify)).Nodup)
    (page : IsPage config reading stringify p tr cursor body) (follows : body.next_cursor ≠ "")
    (member : later ∈ post) {tables : CensusTables} {token : Option String} {secret : CursorSecret}
    (act : later.act = .read tables token body.next_cursor secret) {p' : Prepared}
    (prepared : prepare config reading tables later.source.clock token = .ok p')
    (other : populationDigest config stringify p'.population ≠
      populationDigest config stringify p.population) :
    later.source.answer config reading stringify later.act =
      some (.error (.problem .unavailable)) := by
  obtain ⟨position, -, only, -⟩ := row_later run fresh page follows member
  have unusable : cursorPosition config stringify p' later.source.clock body.next_cursor
      later.source.cursors = none := by
    rw [cursorPosition, if_neg (by simpa using follows), Option.map_eq_none_iff,
      Option.filter_eq_none_iff]
    intro row looked usable
    have same := only row (List.mem_of_find?_eq_some looked) (by simpa using List.find?_some looked)
    simp only [Bool.and_eq_true, beq_iff_eq] at usable
    have digests := usable.1.1.2
    rw [same] at digests
    exact other digests.symm
  rw [act, CensusState.answer, people, prepared]
  simp only [bind, Except.bind, unusable]

theorem followed_later (run : Run (censusStep config reading stringify) s (pre ++ tr :: post) u)
    (fresh : ((pre ++ tr :: post).filterMap (minted config reading stringify)).Nodup)
    (page : IsPage config reading stringify p tr cursor body) (follows : body.next_cursor ≠ "")
    (member : later ∈ post) {p' : Prepared} (same : p'.population = p.population)
    (account : p'.session.account_id = p.session.account_id)
    (session : p'.session.digest = p.session.digest)
    (lasts : later.source.clock < min p.expiresAt (tr.source.clock + reading.cursorSeconds * 1000)) :
    ∃ position, cursorPosition config stringify p tr.source.clock cursor tr.source.cursors =
        some position ∧
      cursorPosition config stringify p' later.source.clock body.next_cursor later.source.cursors =
        some (position + reading.pageSize) := by
  obtain ⟨position, usable, only, present⟩ := row_later run fresh page follows member
  refine ⟨position, usable, ?_⟩
  -- the page was not the last one
  have within : position + reading.pageSize ≤ p.population.entries.length := by
    obtain ⟨_, _, _, _, found, -, -, usable', -, rfl⟩ := page.found
    rw [usable, Option.some.injEq] at usable'
    subst usable'
    have more := mt pageBody_next.mpr follows
    omega
  have looked : (later.source.cursors.find? fun row =>
      row.digest == cursorDigest config body.next_cursor) =
        some (mintedRow config reading stringify p tr.source.clock position body.next_cursor) := by
    cases found : later.source.cursors.find? fun row =>
        row.digest == cursorDigest config body.next_cursor with
    | none =>
      have missed := List.find?_eq_none.mp found _ (present lasts)
      simp [mintedRow] at missed
    | some row =>
      rw [only row (List.mem_of_find?_eq_some found) (by simpa using List.find?_some found)]
  rw [cursorPosition, if_neg (by simpa using follows), looked, Option.filter_some, if_pos]
  · rfl
  · simp only [mintedRow, Bool.and_eq_true, beq_iff_eq]
    rw [same]
    exact ⟨⟨⟨⟨account.symm, session.symm⟩, rfl⟩, decide_eq_true lasts⟩, decide_eq_true within⟩

end Later

/-- Whether a reading is answered a page: its cursor can be used, the session has room for the
next one if there is to be one, and the page is of its profile. -/
theorem answered_iff {tables : CensusTables} {now : Int} {token : Option String} {cursor : String}
    {secret : CursorSecret} {cursors : List CensusCursor} {p : Prepared}
    (prepared : prepare config reading tables now token = .ok p) :
    (∃ page, people config reading stringify tables now token cursor secret cursors = .ok page) ↔
      ∃ position, cursorPosition config stringify p now cursor cursors = some position ∧
        (leavesMore reading p position = true → Mints config reading p now secret cursors) ∧
        peopleProfile (pageBody config reading stringify tables.census_entry p position secret) =
          true := by
  constructor
  · rintro ⟨⟨body, left⟩, ok⟩
    obtain ⟨p', position, prepared', usable, leaves, rfl, fits⟩ := people_eq_ok.mp ok
    rw [prepared] at prepared'
    cases prepared'
    refine ⟨position, usable, fun more => ?_, fits⟩
    rw [cursorsLeft, if_pos more] at leaves
    exact (mint_eq_ok.mp leaves).1
  · rintro ⟨position, usable, mints, fits⟩
    cases more : leavesMore reading p position with
    | true =>
      exact ⟨_, people_eq_ok.mpr ⟨p, position, prepared, usable, by
        rw [cursorsLeft, if_pos more]
        exact mint_eq_ok.mpr ⟨mints more, rfl⟩, rfl, fits⟩⟩
    | false =>
      exact ⟨_, people_eq_ok.mpr ⟨p, position, prepared, usable, by
        rw [cursorsLeft, if_neg (by simp [more])], rfl, fits⟩⟩

/-- Over any run whose cursors are told apart by their digests. Readings of one population that
follow one another from the empty cursor are answered its entries, a page each, in the order of the
accounts; they end with the last entry, and not before. The entries are those the viewer is
entitled to, each once. A cursor is refused under the digest of another population; under its own,
its session goes on from where the page ended, as long as it lasts, wherever there is room for the
cursor after it. -/
theorem census_paging {s u : CensusState} {ts : List CensusTr}
    (run : Run (censusStep config reading stringify) s ts u)
    (fresh : (ts.filterMap (minted config reading stringify)).Nodup) :
    (∀ population trs bodies, Walk config reading stringify population "" trs bodies →
      trs.Sublist ts →
        bodies.flatMap (fun body => body.people.map Person.account_id) =
          (population.entries.take (bodies.length * reading.pageSize)).map Selected.account_id ∧
        (bodies.getLast?.map People.next_cursor = some "" ↔
          population.entries.length ≤ bodies.length * reading.pageSize) ∧
        (bodies.length = 1 ∨
          (bodies.length - 1) * reading.pageSize < population.entries.length)) ∧
    (∀ tables now token p, prepare config reading tables now token = .ok p →
      ∃ surface, tables.surface = some surface ∧
        (p.population.entries.map Selected.account_id).Pairwise
          (fun a b => Agents.codeUnits a < Agents.codeUnits b) ∧
        ∀ e, e ∈ p.population.entries ↔ e ∈ tables.census_entry.map CensusEntry.selected ∧
          entitled tables.store.authority now
            (tables.store.authority.account p.session.account_id) surface e = true) ∧
    (∀ pre tr post, ts = pre ++ tr :: post → ∀ p cursor body,
      IsPage config reading stringify p tr cursor body → body.next_cursor ≠ "" →
      ∀ later ∈ post, ∀ tables token secret p',
        later.act = .read tables token body.next_cursor secret →
        prepare config reading tables later.source.clock token = .ok p' →
        (populationDigest config stringify p'.population ≠
          populationDigest config stringify p.population →
            later.source.answer config reading stringify later.act =
              some (.error (.problem .unavailable))) ∧
        (p'.population = p.population → p'.session.account_id = p.session.account_id →
          p'.session.digest = p.session.digest →
          later.source.clock <
            min p.expiresAt (tr.source.clock + reading.cursorSeconds * 1000) →
          ∃ position, cursorPosition config stringify p tr.source.clock cursor tr.source.cursors =
              some position ∧
            cursorPosition config stringify p' later.source.clock body.next_cursor
              later.source.cursors = some (position + reading.pageSize))) ∧
    ∀ tables now token cursor secret cursors p, prepare config reading tables now token = .ok p →
      ((∃ page, people config reading stringify tables now token cursor secret cursors = .ok page) ↔
        ∃ position, cursorPosition config stringify p now cursor cursors = some position ∧
          (leavesMore reading p position = true → Mints config reading p now secret cursors) ∧
          peopleProfile (pageBody config reading stringify tables.census_entry p position secret) =
            true) := by
  refine ⟨?_, ?_, ?_, ?_⟩
  · intro population trs bodies walk order
    have start : Stands config s "" 0 := by simp [Stands]
    have whole := walk_from walk run order fresh start nofun
    simpa using whole
  · intro tables now token p prepared
    obtain ⟨surface, present, entries⟩ := prepare_ok prepared
    refine ⟨surface, present, ?_, fun e => ?_⟩
    · rw [entries]
      exact authorisedEntries_sorted tables.distinct
    · rw [entries]
      exact mem_authorisedEntries
  · rintro pre tr post rfl p cursor body page follows later member tables token secret p' act prepared
    exact ⟨refused_later run fresh page follows member act prepared,
      fun same account session lasts =>
        followed_later run fresh page follows member same account session lasts⟩
  · intro tables now token cursor secret cursors p prepared
    exact answered_iff prepared

/-! ### Three people -/

def peopleTables : CensusTables where
  store := deskStore
  control := some ⟨"generation", true, true, true, true, true, true⟩
  surface := some ⟨"people", "invite", "desk", "purpose", true, true, 1⟩
  census_entry := [⟨"c", "desk", "Cy", 1⟩, ⟨"a", "desk", "Ann", 1⟩, ⟨"b", "desk", "Bob", 1⟩]
  distinct := by decide

def firstSecret : CursorSecret := ⟨deskToken, by decide⟩

def secondSecret : CursorSecret := ⟨"bbbbbbbbbbbbbbbbbbbbbbbbbbbbbbbbbbbbbbbbbbb", by decide⟩

def peopleReading (pageSize cursorLimit : Nat) (page : 1 ≤ pageSize ∧ pageSize ≤ 100)
    (limit : 1 ≤ cursorLimit ∧ cursorLimit ≤ 100) : ReadingConfig :=
  ⟨"generation", 120, cursorLimit, pageSize, by decide, limit, page⟩

def plainPopulation (_ : Population) : String := "population"

def reads (cursor : String) (secret : CursorSecret) : CensusAct :=
  .read peopleTables (some "session") cursor secret

def namesOf (answer : Option (Except CensusFailure (People × List CensusCursor))) :
    Option (List String × String) :=
  (answer.bind Except.toOption).map fun page =>
    (page.1.people.map Person.account_id, page.1.next_cursor)

def thrownBy (answer : Option (Except CensusFailure (People × List CensusCursor))) :
    Option CensusFailure :=
  match answer with
  | some (.error failure) => some failure
  | _ => none

/-- A session that may hold one cursor is answered one page, and with the cursor of that page no
other, whatever is unchanged. -/
theorem census_stops : ∃ s t : CensusState,
    Run (censusStep deskConfig (peopleReading 1 1 (by decide) (by decide)) plainPopulation) s
      [⟨s, reads "" firstSecret, t⟩] t ∧
    namesOf (s.answer deskConfig (peopleReading 1 1 (by decide) (by decide)) plainPopulation
      (reads "" firstSecret)) = some (["a"], deskToken) ∧
    thrownBy (t.answer deskConfig (peopleReading 1 1 (by decide) (by decide)) plainPopulation
      (reads deskToken secondSecret)) = some (.thrown "CURSOR_BOUND") := by
  have stopped : (censusStep deskConfig (peopleReading 1 1 (by decide) (by decide)) plainPopulation
      ⟨[], 2000⟩ (reads "" firstSecret)).map (fun t => thrownBy (t.answer deskConfig
        (peopleReading 1 1 (by decide) (by decide)) plainPopulation (reads deskToken secondSecret))) =
      some (some (.thrown "CURSOR_BOUND")) := by decide +kernel
  obtain ⟨t, taken, stopped⟩ := Option.map_eq_some_iff.mp stopped
  exact ⟨⟨[], 2000⟩, t, .single taken, by decide +kernel, stopped⟩

def twoByTwo : ReadingConfig := peopleReading 2 50 (by decide) (by decide)

/-- A session that may hold more is answered all of them. -/
theorem census_of_three : ∃ s u ts population bodies,
    Run (censusStep deskConfig twoByTwo plainPopulation) s ts u ∧
      Walk deskConfig twoByTwo plainPopulation population "" ts bodies ∧
      bodies.flatMap (fun body => body.people.map Person.account_id) = ["a", "b", "c"] := by
  have prepared : ((prepare deskConfig twoByTwo peopleTables 2000 (some "session")).toOption.map
      fun p => p.population.entries.map Selected.account_id) = some ["a", "b", "c"] := by
    decide +kernel
  have answered : ((people deskConfig twoByTwo plainPopulation peopleTables 2000 (some "session") ""
      firstSecret []).toOption.map fun first => (first.1.next_cursor,
        (people deskConfig twoByTwo plainPopulation peopleTables 2000 (some "session") deskToken
          secondSecret first.2).toOption.map fun second => second.1.next_cursor)) =
      some (deskToken, some "") := by decide +kernel
  obtain ⟨p, ok, entries⟩ := Option.map_eq_some_iff.mp prepared
  obtain ⟨⟨body, left⟩, first, rest⟩ := Option.map_eq_some_iff.mp answered
  obtain ⟨next, rest⟩ := Prod.mk.inj rest
  obtain ⟨⟨body', left'⟩, second, last⟩ := Option.map_eq_some_iff.mp rest
  have ok := eq_ok_of_toOption ok
  have first := eq_ok_of_toOption first
  have second := eq_ok_of_toOption second
  dsimp only at next last second
  have follows : body.next_cursor ≠ "" := by
    rw [next]
    decide
  have page : IsPage deskConfig twoByTwo plainPopulation p
      ⟨⟨[], 2000⟩, reads "" firstSecret, ⟨left, 2000⟩⟩ "" body := ⟨_, _, _, left, rfl, ok, first⟩
  have page' : IsPage deskConfig twoByTwo plainPopulation p
      ⟨⟨left, 2000⟩, reads deskToken secondSecret, ⟨left', 2000⟩⟩ body.next_cursor body' := by
    rw [next]
    exact ⟨_, _, _, left', rfl, ok, second⟩
  have run : Run (censusStep deskConfig twoByTwo plainPopulation) ⟨[], 2000⟩
      [⟨⟨[], 2000⟩, reads "" firstSecret, ⟨left, 2000⟩⟩,
        ⟨⟨left, 2000⟩, reads deskToken secondSecret, ⟨left', 2000⟩⟩] ⟨left', 2000⟩ := by
    refine .step ?_ (.single ?_)
    · simp only [censusStep, CensusState.answer, reads, first]
    · simp only [censusStep, CensusState.answer, reads, second]
  have walk := Walk.more page rfl follows (.one page' rfl)
  refine ⟨_, _, _, p.population, _, run, walk, ?_⟩
  have whole := (census_paging run (by
    have none_ : minted deskConfig twoByTwo plainPopulation
        ⟨⟨left, 2000⟩, reads deskToken secondSecret, ⟨left', 2000⟩⟩ = none := by
      simp only [minted, CensusState.answer, reads, second, last, if_true]
    simp [none_, minted_of_page page follows])).1 p.population _ _ walk
      (List.Sublist.refl _)
  rw [whole.1, List.map_take, entries]
  rfl

end LedgerDesk.Access
