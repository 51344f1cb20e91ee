import LedgerDesk.Kb.Admitted

/-!
# What the advances make of the corpus

An admission is decided under a head that was read long before it is carried out, and its advance is
refused if the head has moved by then. So whoever admits, and wherever an attempt stops, the heads
of an organisation follow one another, and the corpus in force is the one it began with and behind
it the articles of the admissions. A first snapshot without an article could be named again, so it
has one.
-/
namespace LedgerDesk.Kb.Admission

open Foundation

variable {setting : Setting} {ι : Type*} [DecidableEq ι] {claims : ι → Claims}
  {requests : ι → AdmissionRequest} {org : String}

/-! ### The corpus in force -/

/-- What an article says, its id and its snapshot aside. -/
structure Contents where
  canonical_key : String
  title : String
  body : String
  body_sha256 : String
  citable : Bool
  deriving DecidableEq, Repr

def Article.contents (article : Article) : Contents :=
  ⟨article.canonical_key, article.title, article.body, article.body_sha256, article.citable⟩

namespace Corpus

variable (corpus : Corpus) (org : String)

def snapshot (label : String) : List Article :=
  corpus.articles.filter fun article => article.org_id = org && article.kb_snapshot = label

/-- The contents of the snapshot that the head names. -/
def inForce : List Contents :=
  match corpus.head org with
  | none => []
  | some label => (corpus.snapshot org label).map Article.contents

def admissionsOf : List AdmissionRow := corpus.admissions.filter fun a => a.org_id = org

/-- The labels the heads have had, of which the first is given. -/
def labels (first : String) : List String :=
  first :: (corpus.admissionsOf org).map AdmissionRow.snapshot_to

end Corpus

/-- Every article that is copied has an id, and nothing but its admissions moves the head of the
organisation or adds to its articles. -/
def Proper (org : String) (s : State ι) : Act ι → Bool
  | .commit i _ copies =>
    match s.phase i with
    | .locking row _ =>
      copies.length = (s.corpus.snapshot row.org_id row.output.snapshot_from).length
    | _ => true
  | .elsewhere _ _ heads articles =>
    Corpus.head { s.corpus with heads } org = s.corpus.head org &&
      articles.all fun article => article.org_id ≠ org
  | _ => true

variable {corpus corpus' : Corpus} {row : LedgerRow} {item : AdmissionRequest} {minted : String}
  {copies : List String} {label first : String}

theorem Grows.snapshot (grows : Grows corpus corpus') (org label : String) :
    corpus.snapshot org label <+: corpus'.snapshot org label := grows.articles.filter _

theorem Grows.inhabited (grows : Grows corpus corpus')
    (inhabited : corpus.snapshot org label ≠ []) : corpus'.snapshot org label ≠ [] := by
  intro empty
  have before := grows.snapshot org label
  rw [empty, List.prefix_nil] at before
  exact inhabited before

theorem inForce_congr (head : corpus'.head org = corpus.head org)
    (snapshots : ∀ label, corpus'.snapshot org label = corpus.snapshot org label) :
    corpus'.inForce org = corpus.inForce org := by
  simp only [Corpus.inForce, head, snapshots]

/-! ### One advance -/

theorem advanceChecks_spec {who : Claims} {id : Nat}
    (passed : advanceChecks corpus who id = .ok row) :
    row.org_id = who.org_id ∧ row.output.snapshot_from ≠ row.output.snapshot_to ∧
      corpus.snapshot row.org_id row.output.snapshot_to = [] := by
  unfold advanceChecks at passed
  split at passed
  · cases passed
  · split at passed
    · cases passed
    · next own =>
      split at passed
      · cases passed
      · split at passed
        · cases passed
        · next apart =>
          split at passed
          · cases passed
          · next unused =>
            cases passed
            refine ⟨not_not.mp own, apart, ?_⟩
            simpa [Corpus.snapshot] using unused

theorem lockedChecks_head (passed : lockedChecks setting corpus row item = .ok ()) :
    corpus.head row.org_id = some row.output.snapshot_from := by
  unfold lockedChecks at passed
  split at passed
  · cases passed
  · next same => exact not_not.mp same

theorem mem_copiedArticles {article : Article}
    (member : article ∈ copiedArticles corpus row copies) :
    article.org_id = row.org_id ∧ article.kb_snapshot = row.output.snapshot_to := by
  obtain ⟨⟨old, id⟩, paired, rfl⟩ := List.mem_map.mp member
  have copied := (List.of_mem_zip paired).1
  simp only [List.mem_filter, Bool.and_eq_true, decide_eq_true_eq] at copied
  exact ⟨copied.2.1, rfl⟩

theorem contents_copied (enough : copies.length =
      (corpus.snapshot row.org_id row.output.snapshot_from).length) :
    (copiedArticles corpus row copies).map Article.contents =
      (corpus.snapshot row.org_id row.output.snapshot_from).map Article.contents := by
  have same : (Article.contents ∘ fun (pair : Article × String) =>
      { pair.1 with id := pair.2, kb_snapshot := row.output.snapshot_to }) =
        Article.contents ∘ Prod.fst := rfl
  rw [copiedArticles, List.map_map]
  change List.map (Article.contents ∘ fun (pair : Article × String) =>
    { pair.1 with id := pair.2, kb_snapshot := row.output.snapshot_to }) _ = _
  rw [same, ← List.map_map, List.map_fst_zip]
  · rfl
  · exact enough.ge

/-- The new snapshot is what was copied and what was minted, where it was not there before. -/
theorem snapshot_advanced (unused : corpus.snapshot row.org_id row.output.snapshot_to = []) :
    (advanced setting corpus row item minted copies).snapshot row.org_id row.output.snapshot_to =
      copiedArticles corpus row copies ++ [mintedArticle setting row item minted] := by
  rw [Corpus.snapshot] at unused
  rw [Corpus.snapshot, advanced, List.filter_append, List.filter_append, unused, List.nil_append]
  congr 1
  · rw [List.filter_eq_self]
    intro article member
    simpa using mem_copiedArticles member
  · simp [mintedArticle]

/-- Articles of others are in no snapshot of the organisation. -/
theorem filter_of_others {articles : List Article}
    (others : ∀ article ∈ articles, article.org_id ≠ org) :
    articles.filter (fun article => article.org_id = org && article.kb_snapshot = label) = [] := by
  rw [List.filter_eq_nil_iff]
  intro article member own
  simp only [Bool.and_eq_true, decide_eq_true_eq] at own
  exact others article member own.1

theorem snapshot_advanced_of_ne (other : org ≠ row.org_id) :
    (advanced setting corpus row item minted copies).snapshot org label =
      corpus.snapshot org label := by
  have others : ∀ article ∈ copiedArticles corpus row copies, article.org_id ≠ org := by
    intro article member own
    exact other (own.symm.trans (mem_copiedArticles member).1)
  rw [Corpus.snapshot, advanced, List.filter_append, List.filter_append, filter_of_others others]
  simp [Corpus.snapshot, mintedArticle, Ne.symm other]

theorem head_advanced : (advanced setting corpus row item minted copies).head row.org_id =
    some row.output.snapshot_to := by
  simp [advanced, Corpus.head]

theorem head_advanced_of_ne (other : org ≠ row.org_id) :
    (advanced setting corpus row item minted copies).head org = corpus.head org := by
  have same : (fun head : SnapshotHead => decide
      (decide (head.org_id ≠ row.org_id) = true ∧ decide (head.org_id = org) = true)) =
        fun head => decide (head.org_id = org) := by
    funext head
    by_cases own : head.org_id = org
    · simp [own, other]
    · simp [own]
  -- Nor is it the head that was written.
  have first : decide (row.org_id = org) = false := by simpa using Ne.symm other
  simp only [Corpus.head, advanced, List.find?_cons, first, List.find?_filter, same]

theorem inForce_advanced (head : corpus.head row.org_id = some row.output.snapshot_from)
    (unused : corpus.snapshot row.org_id row.output.snapshot_to = [])
    (enough : copies.length =
      (corpus.snapshot row.org_id row.output.snapshot_from).length) :
    (advanced setting corpus row item minted copies).inForce row.org_id =
      corpus.inForce row.org_id ++ [(mintedArticle setting row item minted).contents] := by
  simp only [Corpus.inForce, head_advanced, head, snapshot_advanced unused, List.map_append,
    contents_copied enough, List.map_cons, List.map_nil]

theorem admissionsOf_advanced :
    (advanced setting corpus row item minted copies).admissionsOf row.org_id =
      corpus.admissionsOf row.org_id ++ [admissionRow setting row item minted] := by
  simp [Corpus.admissionsOf, advanced, admissionRow]

theorem admissionsOf_advanced_of_ne (other : org ≠ row.org_id) :
    (advanced setting corpus row item minted copies).admissionsOf org =
      corpus.admissionsOf org := by
  simp [Corpus.admissionsOf, advanced, admissionRow, Ne.symm other]

/-! ### What a call has read -/

/-- The head that the call goes by. -/
def AdmitPhase.reads : AdmitPhase → Option String
  | .admissible head | .visible head _ => some head
  | .labelled _ output | .unrecorded _ output | .refusedRow output => some output.snapshot_from
  | _ => none

/-- The row that the call is about to carry out. -/
def AdmitPhase.held : AdmitPhase → Option LedgerRow
  | .locking row _ => some row
  | _ => none

/-- What a step of a call takes from the corpus. -/
structure Enters (corpus : Corpus) (who : Claims) (before after : AdmitPhase) : Prop where
  reads : ∀ label, after.reads = some label →
    before.reads = some label ∨ corpus.head who.org_id = some label
  locks : ∀ row, after.held = some row → ∃ id, advanceChecks corpus who id = .ok row

theorem Enters.keeps {who : Claims} {before after : AdmitPhase}
    (reads : after.reads = before.reads) (held : after.held = none) :
    Enters corpus who before after where
  reads label own := .inl (reads ▸ own)
  locks row own := by
    rw [held] at own
    cases own

theorem Enters.quiet {who : Claims} {before after : AdmitPhase} (reads : after.reads = none)
    (held : after.held = none) : Enters corpus who before after where
  reads label own := by
    rw [reads] at own
    cases own
  locks row own := by
    rw [held] at own
    cases own

variable {s t : State ι} {act : Act ι}

theorem admitStep_enters {i : ι} (taken : admitStep setting claims requests s act = some t)
    (own : act.call = some i) : Enters s.corpus (claims i) (s.phase i) (t.phase i) := by
  cases act with
  | elsewhere gaps users heads articles => cases own
  | start j runtime_snapshot =>
    cases own
    simp only [admitStep] at taken
    split at taken
    · cases taken
      rw [State.enter_self]
      unfold startCall
      split
      · exact .quiet rfl rfl
      · next head found =>
        split
        · exact .quiet rfl rfl
        · split
          · exact .quiet rfl rfl
          -- The head is read here, and only carried along from here on.
          · refine ⟨fun label reads => .inr ?_, fun row held => ?_⟩
            · cases reads
              exact found
            · cases held
    · cases taken
  | readGap j =>
    cases own
    simp only [admitStep] at taken
    split at taken
    · next head under =>
      cases taken
      rw [State.enter_self, under]
      unfold readGapOf
      split
      · exact .quiet rfl rfl
      · split
        · exact .quiet rfl rfl
        · exact .keeps rfl rfl
    · cases taken
  | label j day =>
    cases own
    simp only [admitStep] at taken
    split at taken
    · next head gap under =>
      split at taken
      · cases taken
        rw [State.enter_self]
        exact .quiet rfl rfl
      · cases taken
        rw [State.enter_self, under]
        exact .keeps rfl rfl
    · cases taken
  | readStanding j =>
    cases own
    simp only [admitStep] at taken
    split at taken
    · next gap output under =>
      split at taken
      · cases taken
        rw [State.enter_self]
        exact .quiet rfl rfl
      · cases taken
        rw [State.enter_self, under]
        exact .keeps rfl rfl
    · cases taken
  | append j id =>
    cases own
    simp only [admitStep, appendStep] at taken
    split at taken
    · next gap output under =>
      split at taken
      · cases taken
        rw [State.enter_self, under]
        exact .keeps rfl rfl
      · split at taken
        · cases taken
          rw [State.enter_self]
          exact .quiet rfl rfl
        · cases taken
    · cases taken
  | failAppend j =>
    cases own
    simp only [admitStep] at taken
    split at taken
    · next gap output under =>
      cases taken
      rw [State.enter_self, under]
      exact .keeps rfl rfl
    · cases taken
  | readAgain j =>
    cases own
    simp only [admitStep] at taken
    split at taken
    · split at taken
      · cases taken
        rw [State.enter_self]
        exact .quiet rfl rfl
      · cases taken
        rw [State.enter_self]
        exact .quiet rfl rfl
    · cases taken
  | advance j =>
    cases own
    simp only [admitStep] at taken
    split at taken
    · next id resumed under =>
      split at taken
      · cases taken
        rw [State.enter_self]
        exact .quiet rfl rfl
      -- The one way to a row that is about to be carried out.
      · next row passed =>
        cases taken
        rw [State.enter_self]
        refine ⟨fun label reads => ?_, fun row held => ?_⟩
        · cases reads
        · cases held
          exact ⟨id, passed⟩
    · cases taken
  | commit j minted copies =>
    cases own
    simp only [admitStep, commitStep] at taken
    split at taken
    · split at taken
      · cases taken
        rw [State.enter_self]
        exact .quiet rfl rfl
      · split at taken
        · cases taken
          rw [State.enter_self]
          exact .quiet rfl rfl
        · cases taken
    · cases taken
  | crash j =>
    cases own
    simp only [admitStep] at taken
    split at taken
    · cases taken
      rw [State.enter_self]
      exact .quiet rfl rfl
    · cases taken

/-- A step is of one call. -/
theorem Moves.others {j : ι} (moves : Moves setting claims requests s act t)
    (other : act.call ≠ some j) : t.phase j = s.phase j := by
  cases moves with
  | @computed act i phase own quiet sound =>
    have apart : j ≠ i := fun same => other (same ▸ own)
    exact Function.update_of_ne apart ..
  | @appended i id gap output under fresh =>
    have apart : j ≠ i := fun same => other (same ▸ rfl)
    exact Function.update_of_ne apart ..
  | @committed i minted copies row resumed under passed fresh =>
    have apart : j ≠ i := fun same => other (same ▸ rfl)
    exact Function.update_of_ne apart ..
  | elsewhere => rfl

/-! ### The history of an organisation -/

/-- The admission put in force an article that says this, under its digest. -/
def Puts (corpus : Corpus) (a : AdmissionRow) (contents : Contents) : Prop :=
  contents.body_sha256 = a.content_hash ∧
    ∃ article, corpus.article a.article_id = some article ∧ article.contents = contents

theorem Puts.grows {a : AdmissionRow} {contents : Contents} (grows : Grows corpus corpus')
    (puts : Puts corpus a contents) : Puts corpus' a contents := by
  obtain ⟨digest, article, found, same⟩ := puts
  exact ⟨digest, article, grows.article found, same⟩

/-- The heads follow one another, and the corpus in force is the first one and what was admitted. -/
structure History (corpus : Corpus) (org first : String) (base : List Contents) : Prop where
  linked : ∃ last, corpus.head org = some last ∧
    (corpus.admissionsOf org).map AdmissionRow.snapshot_from ++ [last] = corpus.labels org first
  apart : (corpus.labels org first).Nodup
  inhabited : ∀ label ∈ corpus.labels org first, corpus.snapshot org label ≠ []
  told : ∀ a ∈ corpus.admissionsOf org, ∃ row, corpus.row a.ledger_ref = some row ∧
    a.snapshot_to = row.output.snapshot_to
  forced : ∃ admitted, corpus.inForce org = base ++ admitted ∧
    List.Forall₂ (Puts corpus) (corpus.admissionsOf org) admitted

/-- And a row that a call is about to carry out names a snapshot that is not there, or a head that
was left. -/
structure Linear (claims : ι → Claims) (requests : ι → AdmissionRequest) (org first : String)
    (base : List Contents) (s : State ι) : Prop extends History s.corpus org first base where
  phases : ∀ i, PhaseSound requests s.corpus i (s.phase i)
  read : ∀ i label, (claims i).org_id = org → (s.phase i).reads = some label →
    s.corpus.snapshot org label ≠ []
  rows : ∀ row ∈ s.corpus.ledger, row.org_id = org →
    s.corpus.snapshot org row.output.snapshot_from ≠ []
  locks : ∀ i row, (s.phase i).held = some row → row.org_id = org →
    s.corpus.snapshot org row.output.snapshot_to = [] ∨
      s.corpus.head org ≠ some row.output.snapshot_from

variable {base : List Contents}

theorem History.head_inhabited (history : History corpus org first base)
    (head : corpus.head org = some label) : corpus.snapshot org label ≠ [] := by
  obtain ⟨last, found, linked⟩ := history.linked
  obtain rfl := Option.some.inj (found.symm.trans head)
  apply history.inhabited
  rw [← linked]
  exact List.mem_append_right _ (List.mem_singleton.mpr rfl)

theorem History.kept (history : History corpus org first base) (grows : Grows corpus corpus')
    (head : corpus'.head org = corpus.head org)
    (snapshots : ∀ label, corpus'.snapshot org label = corpus.snapshot org label)
    (admissions : corpus'.admissionsOf org = corpus.admissionsOf org) :
    History corpus' org first base := by
  have labels : corpus'.labels org first = corpus.labels org first := by
    rw [Corpus.labels, admissions]
    rfl
  constructor
  · rw [head, admissions, labels]
    exact history.linked
  · rw [labels]
    exact history.apart
  · intro label member
    rw [snapshots]
    exact history.inhabited label (labels ▸ member)
  · intro a member
    rw [admissions] at member
    obtain ⟨row, found, leads⟩ := history.told a member
    exact ⟨row, grows.row found, leads⟩
  · obtain ⟨admitted, same, puts⟩ := history.forced
    rw [inForce_congr head snapshots, admissions]
    exact ⟨admitted, same, puts.imp fun a contents here => here.grows grows⟩

/-- The advance of a row whose snapshot is not there yet. -/
theorem History.advanced (history : History corpus row.org_id first base)
    (grows : Grows corpus (advanced setting corpus row item minted copies))
    (standing : corpus.row row.id = some row)
    (head : corpus.head row.org_id = some row.output.snapshot_from)
    (unused : corpus.snapshot row.org_id row.output.snapshot_to = [])
    (enough : copies.length =
      (corpus.snapshot row.org_id row.output.snapshot_from).length)
    (fresh : corpus.fresh (minted :: copies) = true) :
    History (advanced setting corpus row item minted copies) row.org_id first base := by
  have labels : (Admission.advanced setting corpus row item minted copies).labels row.org_id first =
      corpus.labels row.org_id first ++ [row.output.snapshot_to] := by
    rw [Corpus.labels, admissionsOf_advanced, List.map_append]
    rfl
  constructor
  · obtain ⟨last, found, linked⟩ := history.linked
    obtain rfl := Option.some.inj (found.symm.trans head)
    refine ⟨row.output.snapshot_to, head_advanced, ?_⟩
    rw [labels, ← linked, admissionsOf_advanced, List.map_append]
    rfl
  · rw [labels, List.nodup_append]
    refine ⟨history.apart, List.nodup_singleton _, ?_⟩
    -- A label that was a head names a snapshot that is there.
    rintro label member other new rfl
    rw [List.mem_singleton.mp new] at member
    exact history.inhabited _ member unused
  · intro label member
    rw [labels, List.mem_append, List.mem_singleton] at member
    rcases member with old | rfl
    · exact grows.inhabited (history.inhabited label old)
    · rw [snapshot_advanced unused]
      simp
  · intro a member
    rw [admissionsOf_advanced, List.mem_append, List.mem_singleton] at member
    rcases member with old | rfl
    · obtain ⟨before, found, leads⟩ := history.told a old
      exact ⟨before, grows.row found, leads⟩
    · exact ⟨row, grows.row standing, rfl⟩
  · obtain ⟨admitted, same, puts⟩ := history.forced
    refine ⟨admitted ++ [(mintedArticle setting row item minted).contents], ?_, ?_⟩
    · rw [inForce_advanced head unused enough, same, List.append_assoc]
    · rw [admissionsOf_advanced]
      refine List.rel_append (puts.imp fun a contents here => here.grows grows) ?_
      refine .cons ⟨rfl, _, article_minted fresh, rfl⟩ .nil

omit [DecidableEq ι] in
/-- What a step that moves no head of the organisation keeps. -/
theorem Linear.kept (linear : Linear claims requests org first base s)
    (grows : Grows s.corpus t.corpus)
    (phases : ∀ i, PhaseSound requests t.corpus i (t.phase i))
    (enters : ∀ i, t.phase i = s.phase i ∨ Enters s.corpus (claims i) (s.phase i) (t.phase i))
    (head : t.corpus.head org = s.corpus.head org)
    (snapshots : ∀ label, t.corpus.snapshot org label = s.corpus.snapshot org label)
    (admissions : t.corpus.admissionsOf org = s.corpus.admissionsOf org)
    (rows : ∀ row ∈ t.corpus.ledger, row.org_id = org → row ∈ s.corpus.ledger ∨
      ∃ i, (claims i).org_id = org ∧ (s.phase i).reads = some row.output.snapshot_from) :
    Linear claims requests org first base t where
  toHistory := linear.toHistory.kept grows head snapshots admissions
  phases := phases
  read i label own reads := by
    rw [snapshots]
    rcases enters i with same | enters
    · exact linear.read i label own (same ▸ reads)
    · rcases enters.reads label reads with before | current
      · exact linear.read i label own before
      · exact linear.head_inhabited (own ▸ current)
  rows row member own := by
    rw [snapshots]
    rcases rows row member own with before | ⟨i, ofOrg, reads⟩
    · exact linear.rows row before own
    · exact linear.read i _ ofOrg reads
  locks i row held own := by
    rw [snapshots, head]
    rcases enters i with same | enters
    · exact linear.locks i row (same ▸ held) own
    -- The row was held against the articles in this step.
    · obtain ⟨id, passed⟩ := enters.locks row held
      have unused := (advanceChecks_spec passed).2.2
      rw [own] at unused
      exact .inl unused

omit [DecidableEq ι] in
/-- What an advance of the organisation keeps. -/
theorem Linear.committed {i : ι} {resumed : Bool}
    (linear : Linear claims requests row.org_id first base s)
    (under : s.phase i = .locking row resumed)
    (passed : lockedChecks setting s.corpus row (requests i) = .ok ())
    (fresh : s.corpus.fresh (minted :: copies) = true)
    (enough : copies.length =
      (s.corpus.snapshot row.org_id row.output.snapshot_from).length)
    (corpus : t.corpus = advanced setting s.corpus row (requests i) minted copies)
    (grows : Grows s.corpus t.corpus)
    (phases : ∀ i, PhaseSound requests t.corpus i (t.phase i))
    (enters : ∀ i, t.phase i = s.phase i ∨ (t.phase i).reads = none ∧ (t.phase i).held = none) :
    Linear claims requests row.org_id first base t ∧
      s.corpus.inForce row.org_id <+: t.corpus.inForce row.org_id := by
  have head := lockedChecks_head passed
  have standing : s.corpus.row row.id = some row := by
    have sound := linear.phases i
    rwa [under] at sound
  have unused : s.corpus.snapshot row.org_id row.output.snapshot_to = [] := by
    rcases linear.locks i row (by rw [under]; rfl) rfl with unused | moved
    · exact unused
    · exact absurd head moved
  have next : t.corpus.head row.org_id = some row.output.snapshot_to := by
    rw [corpus]
    exact head_advanced
  refine ⟨⟨?_, phases, ?_, ?_, ?_⟩, ?_⟩
  · rw [corpus] at grows ⊢
    exact linear.toHistory.advanced grows standing head unused enough fresh
  · intro j label own reads
    rcases enters j with same | ⟨none, -⟩
    · exact grows.inhabited (linear.read j label own (same ▸ reads))
    · rw [none] at reads
      cases reads
  · intro other member own
    rw [corpus] at member
    exact grows.inhabited (linear.rows other member own)
  · -- Whoever else is about to advance was told a head that has been left.
    intro j other held own
    rcases enters j with same | ⟨-, none⟩
    · right
      rw [next, Ne, Option.some.injEq]
      intro moved
      have sound := linear.phases j
      have sound' : s.corpus.row other.id = some other := by
        rw [same] at held
        cases found : s.phase j with
        | locking row' resumed' =>
          rw [found] at held sound
          cases held
          exact sound
        | _ =>
          rw [found] at held
          cases held
      have used := linear.rows other (List.mem_of_find?_eq_some sound') own
      rw [← moved] at used
      exact used unused
    · rw [none] at held
      cases held
  · rw [corpus, inForce_advanced head unused enough]
    exact List.prefix_append _ _

theorem Linear.step (linear : Linear claims requests org first base s)
    (proper : Proper org s act = true) (taken : admitStep setting claims requests s act = some t) :
    Linear claims requests org first base t ∧ s.corpus.inForce org <+: t.corpus.inForce org := by
  have moves := admitStep_moves taken
  have grows := moves.grows
  have phases := moves.phases linear.phases
  have enters : ∀ i, t.phase i = s.phase i ∨
      Enters s.corpus (claims i) (s.phase i) (t.phase i) := by
    intro i
    by_cases own : act.call = some i
    · exact .inr (admitStep_enters taken own)
    · exact .inl (moves.others own)
  cases moves with
  | computed own quiet sound =>
    refine ⟨linear.kept grows phases enters rfl (fun _ => rfl) rfl ?_, List.prefix_rfl⟩
    exact fun row member _ => .inl member
  | @appended i id gap output under new =>
    refine ⟨linear.kept grows phases enters rfl (fun _ => rfl) rfl ?_, List.prefix_rfl⟩
    intro row member own
    rcases List.mem_append.mp member with before | added
    · exact .inl before
    · obtain rfl := List.mem_singleton.mp added
      refine .inr ⟨i, own, ?_⟩
      rw [under]
      rfl
  | @committed i minted copies row resumed under passed fresh =>
    by_cases own : row.org_id = org
    · subst own
      have enough : copies.length =
          (s.corpus.snapshot row.org_id row.output.snapshot_from).length := by
        simpa [Proper, under] using proper
      apply linear.committed under passed fresh enough rfl grows phases
      intro j
      by_cases same : j = i
      · subst same
        rw [State.enter_self]
        exact .inr ⟨rfl, rfl⟩
      · exact .inl (Function.update_of_ne same ..)
    -- An advance of another organisation.
    · have other := Ne.symm own
      have head : (advanced setting s.corpus row (requests i) minted copies).head org =
          s.corpus.head org := head_advanced_of_ne other
      have snapshots : ∀ label, (advanced setting s.corpus row (requests i) minted copies).snapshot
          org label = s.corpus.snapshot org label := fun label => snapshot_advanced_of_ne other
      refine ⟨linear.kept grows phases enters head snapshots (admissionsOf_advanced_of_ne other)
        fun row member _ => .inl member, ?_⟩
      have same := inForce_congr head snapshots
      exact same ▸ List.prefix_rfl
  | @elsewhere gaps users heads articles =>
    simp only [Proper, Bool.and_eq_true, decide_eq_true_eq, List.all_eq_true] at proper
    obtain ⟨head, others⟩ := proper
    have snapshots : ∀ label, Corpus.snapshot { s.corpus with
        gaps, users, heads, articles := s.corpus.articles ++ articles } org label =
          s.corpus.snapshot org label := by
      intro label
      rw [Corpus.snapshot, List.filter_append, filter_of_others others, List.append_nil]
      rfl
    refine ⟨linear.kept grows phases enters head snapshots rfl fun row member _ => .inl member, ?_⟩
    have same : Corpus.inForce { s.corpus with
        gaps, users, heads, articles := s.corpus.articles ++ articles } org =
          s.corpus.inForce org := inForce_congr head snapshots
    exact same ▸ List.prefix_rfl

omit [DecidableEq ι] in
theorem Linear.begin (head : corpus.head org = some first)
    (inhabited : corpus.snapshot org first ≠ []) :
    Linear claims requests org first (corpus.inForce org) (begin corpus) where
  linked := ⟨first, head, rfl⟩
  apart := List.nodup_singleton _
  inhabited label member := by
    obtain rfl := List.mem_singleton.mp member
    exact inhabited
  told a member := by cases member
  forced := ⟨[], (List.append_nil _).symm, .nil⟩
  phases i := trivial
  read i label own reads := by cases reads
  rows row member := by cases member
  locks i row held := by cases held

variable {ts us : List (Transition (State ι) (Act ι))}

theorem run_linear (run : Run (admitStep setting claims requests) s ts t)
    (proper : ∀ tr ∈ ts, Proper org tr.source tr.act = true)
    (linear : Linear claims requests org first base s) :
    Linear claims requests org first base t ∧ s.corpus.inForce org <+: t.corpus.inForce org := by
  refine (run.invariant_of (P := fun u => Linear claims requests org first base u ∧
    s.corpus.inForce org <+: u.corpus.inForce org) _ ?_ proper ⟨linear, List.prefix_rfl⟩).1
  rintro tr taken proper ⟨linear, before⟩
  obtain ⟨linear', step⟩ := linear.step proper taken
  exact ⟨linear', before.trans step⟩

/-- An admission's row of the chain is of no other admission. -/
theorem History.refs_apart (history : History corpus org first base) :
    ((corpus.admissionsOf org).map AdmissionRow.ledger_ref).Nodup := by
  -- A row of the chain names one label, and no label comes twice.
  have told : (corpus.admissionsOf org).map AdmissionRow.snapshot_to =
      ((corpus.admissionsOf org).map AdmissionRow.ledger_ref).map fun id =>
        ((corpus.row id).map fun row => row.output.snapshot_to).getD "" := by
    rw [List.map_map]
    apply List.map_congr_left
    intro a member
    obtain ⟨row, found, leads⟩ := history.told a member
    simp [found, leads]
  have apart := (List.nodup_cons.mp history.apart).2
  rw [told] at apart
  exact apart.of_map

/-- Whoever admits and wherever attempts stop, the heads of an organisation are a chain in which no
label comes twice, the corpus in force is the one it began with and behind it exactly the articles
of the admissions in their order, what is in force stays in force, and no row of the chain is
carried out twice. -/
theorem advances_linear (head : corpus.head org = some first)
    (inhabited : corpus.snapshot org first ≠ [])
    (earlier : Run (admitStep setting claims requests) (begin corpus) ts s)
    (later : Run (admitStep setting claims requests) s us t)
    (proper : ∀ tr ∈ ts ++ us, Proper org tr.source tr.act = true) :
    (∃ last, t.corpus.head org = some last ∧
      (t.corpus.admissionsOf org).map AdmissionRow.snapshot_from ++ [last] =
        first :: (t.corpus.admissionsOf org).map AdmissionRow.snapshot_to) ∧
      (first :: (t.corpus.admissionsOf org).map AdmissionRow.snapshot_to).Nodup ∧
      (∃ admitted, t.corpus.inForce org = corpus.inForce org ++ admitted ∧
        List.Forall₂ (Puts t.corpus) (t.corpus.admissionsOf org) admitted) ∧
      s.corpus.inForce org <+: t.corpus.inForce org ∧
      ((t.corpus.admissionsOf org).map AdmissionRow.ledger_ref).Nodup := by
  obtain ⟨before, -⟩ := run_linear earlier
    (fun tr member => proper tr (List.mem_append_left _ member)) (.begin head inhabited)
  obtain ⟨linear, kept⟩ := run_linear later
    (fun tr member => proper tr (List.mem_append_right _ member)) before
  exact ⟨linear.linked, linear.apart, linear.forced, kept, linear.refs_apart⟩

/-! ### Two admissions that were decided under one head -/

section Raced

def racedCorpus : Corpus :=
  { resumedCorpus with articles := [⟨"Z", "org", "kb-1", "hours", "Hours", "Nine to five.",
      "Nine to five.", true⟩] }

def racedRequests (i : Fin 2) : AdmissionRequest :=
  if i.val = 0 then resumedRequest "access" true
  else { resumedRequest "reset" true with body := "Call us." }

def racedStep : State (Fin 2) → Act (Fin 2) → Option (State (Fin 2)) :=
  admitStep resumedSetting (fun _ => ⟨"ana", "org"⟩) racedRequests

def decidedActs : List (Act (Fin 2)) :=
  [⟨0, by decide⟩, ⟨1, by decide⟩].flatMap fun i =>
    [.start i "kb-1", .readGap i, .label i "2026-01-01", .readStanding i, .append i i.val,
      .advance i]

def carriedActs : List (Act (Fin 2)) :=
  [.commit ⟨0, by decide⟩ "A" ["B"], .commit ⟨1, by decide⟩ "C" ["D"]]

/-- The second is refused, and nothing of the first is lost. -/
theorem advances_linear_raced : ∃ ts us s t, Run racedStep (begin racedCorpus) ts s ∧
    Run racedStep s us t ∧ t.phase ⟨1, by decide⟩ = .refused .E_KB_SNAPSHOT_MOVED ∧
    ∃ admitted, t.corpus.inForce "org" = racedCorpus.inForce "org" ++ admitted ∧
      admitted.length = 1 := by
  have performed : ((perform racedStep (begin racedCorpus) decidedActs).any fun s =>
      (perform racedStep s carriedActs).any fun t =>
        (transitions racedStep (begin racedCorpus) decidedActs ++
          transitions racedStep s carriedActs).all (fun tr => Proper "org" tr.source tr.act) &&
        (t.corpus.admissionsOf "org").length = 1 &&
        t.phase ⟨1, by decide⟩ = .refused .E_KB_SNAPSHOT_MOVED) = true := by
    decide +kernel
  simp only [Option.any_eq_true, Bool.and_eq_true, decide_eq_true_eq] at performed
  obtain ⟨s, decided, t, carried, ⟨proper, one⟩, refused⟩ := performed
  have earlier := run_of_perform _ _ _ _ decided
  have later := run_of_perform _ _ _ _ carried
  have head : racedCorpus.head "org" = some "kb-1" := rfl
  obtain ⟨-, -, ⟨admitted, same, puts⟩, -⟩ :=
    advances_linear head (by decide) earlier later (List.all_eq_true.mp proper)
  exact ⟨_, _, s, t, earlier, later, refused, admitted, same, puts.length_eq.symm.trans one⟩

end Raced

end LedgerDesk.Kb.Admission
