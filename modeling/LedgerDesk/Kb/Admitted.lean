import LedgerDesk.Kb.Admission

/-!
# What the chain says of an admission

The row of an admission is written from the row of the chain, and the article from the request of
whoever carried it out. They agree as long as the row was written for the same request, or for one
that names the same key and the same flag.
-/
namespace LedgerDesk.Kb.Admission

open Foundation

variable {setting : Setting} {ι : Type*} [DecidableEq ι] {claims : ι → Claims}
  {requests : ι → AdmissionRequest}

/-- What is told of a document by its request alone. -/
structure Terms where
  canonical_key : String
  citable : Bool
  deriving DecidableEq, Repr

def AdmissionRequest.terms (request : AdmissionRequest) : Terms :=
  ⟨request.canonical_key, request.citable⟩

def AdmissionOutput.terms (output : AdmissionOutput) : Terms :=
  ⟨output.canonical_key, output.citable⟩

def Article.terms (article : Article) : Terms := ⟨article.canonical_key, article.citable⟩

/-- The call has put the row on the chain. -/
def Recorded (ts : List (Transition (State ι) (Act ι))) (i : ι) (id : Nat) : Prop :=
  ∃ tr ∈ ts, tr.act = .append i id ∧ tr.target.phase i = .standing id false

/-- The call has carried out the admission of the row. -/
def CarriedOut (ts : List (Transition (State ι) (Act ι))) (i : ι) (id : Nat) : Prop :=
  ∃ tr ∈ ts, ∃ minted copies resumed, tr.act = .commit i minted copies ∧
    tr.target.phase i = .admitted id minted resumed

/-- The admission, the row of the chain that it references, and the article that it put in force. -/
structure Witnessed (corpus : Corpus) (admission : AdmissionRow) (row : LedgerRow)
    (article : Article) : Prop where
  row : corpus.row admission.ledger_ref = some row
  article : corpus.article admission.article_id = some article

/-- What the advance takes from the row, or checks. -/
structure Corroborated (admission : AdmissionRow) (row : LedgerRow) (article : Article) : Prop where
  digest : article.body_sha256 = row.output.content_hash
  provenance : admission.provenance = row.output.provenance
  approved_by : admission.approved_by = row.output.approved_by
  snapshot_from : admission.snapshot_from = row.output.snapshot_from
  snapshot_to : admission.snapshot_to = row.output.snapshot_to

variable {s t : State ι} {act : Act ι}

theorem State.enter_self (s : State ι) (i : ι) (phase : AdmitPhase) :
    (s.enter i phase).phase i = phase := Function.update_self ..

/-! ### Rows and articles that stay -/

theorem find?_append_of_some {α : Type*} {p : α → Bool} {xs ys : List α} {a : α}
    (found : xs.find? p = some a) : (xs ++ ys).find? p = some a := by
  rw [List.find?_append, found, Option.some_or]

/-- Nothing is taken back. -/
structure Grows (corpus corpus' : Corpus) : Prop where
  ledger : corpus.ledger <+: corpus'.ledger
  articles : corpus.articles <+: corpus'.articles
  admissions : corpus.admissions <+: corpus'.admissions

theorem Grows.refl (corpus : Corpus) : Grows corpus corpus :=
  ⟨List.prefix_rfl, List.prefix_rfl, List.prefix_rfl⟩

theorem Grows.row {corpus corpus' : Corpus} {id : Nat} {row : LedgerRow}
    (grows : Grows corpus corpus') (found : corpus.row id = some row) :
    corpus'.row id = some row := by
  obtain ⟨more, same⟩ := grows.ledger
  rw [Corpus.row, ← same]
  exact find?_append_of_some found

theorem Grows.article {corpus corpus' : Corpus} {id : String} {article : Article}
    (grows : Grows corpus corpus') (found : corpus.article id = some article) :
    corpus'.article id = some article := by
  obtain ⟨more, same⟩ := grows.articles
  rw [Corpus.article, ← same]
  exact find?_append_of_some found

theorem Witnessed.grows {corpus corpus' : Corpus} {admission : AdmissionRow} {row : LedgerRow}
    {article : Article} (grows : Grows corpus corpus')
    (witnessed : Witnessed corpus admission row article) :
    Witnessed corpus' admission row article where
  row := grows.row witnessed.row
  article := grows.article witnessed.article

theorem row_id {corpus : Corpus} {id : Nat} {row : LedgerRow} (found : corpus.row id = some row) :
    row.id = id := by
  have own := List.find?_some found
  exact of_decide_eq_true own

/-! ### What a step does -/

/-- A call is here because it has just written. -/
def AdmitPhase.written : AdmitPhase → Bool
  | .standing _ resumed => !resumed
  | .admitted _ _ _ => true
  | _ => false

/-- What a call holds is of its own request, or stands in the table. -/
def PhaseSound (requests : ι → AdmissionRequest) (corpus : Corpus) (i : ι) : AdmitPhase → Prop
  | .labelled _ output | .unrecorded _ output | .refusedRow output =>
    output.terms = (requests i).terms
  | .locking row _ => corpus.row row.id = some row
  | _ => True

/-- The call whose step it is. -/
def Act.call : Act ι → Option ι
  | .start i _ | .readGap i | .label i _ | .readStanding i | .append i _ | .failAppend i
  | .readAgain i | .advance i | .commit i _ _ | .crash i => some i
  | .elsewhere _ _ _ _ => none

/-- A step computes, or puts a row on the chain, or carries an admission out, or is another's. -/
inductive Moves (setting : Setting) (claims : ι → Claims) (requests : ι → AdmissionRequest)
    (s : State ι) : Act ι → State ι → Prop
  | computed {act i phase} (own : act.call = some i) (quiet : phase.written = false)
      (sound : PhaseSound requests s.corpus i (s.phase i) → PhaseSound requests s.corpus i phase) :
      Moves setting claims requests s act (s.enter i phase)
  | appended {i id gap output} (under : s.phase i = .unrecorded gap output)
      (fresh : s.corpus.row id = none) :
      Moves setting claims requests s (.append i id)
        (State.enter { s with
          corpus := { s.corpus with
            ledger := s.corpus.ledger ++ [⟨id, (claims i).org_id, some gap.ticket_id, output⟩] } }
          i (.standing id false))
  | committed {i minted copies row resumed} (under : s.phase i = .locking row resumed)
      (passed : lockedChecks setting s.corpus row (requests i) = .ok ())
      (fresh : s.corpus.fresh (minted :: copies) = true) :
      Moves setting claims requests s (.commit i minted copies)
        (State.enter { s with corpus := advanced setting s.corpus row (requests i) minted copies } i
          (.admitted row.id minted resumed))
  | elsewhere {gaps users heads articles} :
      Moves setting claims requests s (.elsewhere gaps users heads articles)
        { s with
          corpus := { s.corpus with gaps, users, heads, articles := s.corpus.articles ++ articles } }

theorem advanceChecks_eq_ok {corpus : Corpus} {who : Claims} {id : Nat} {row : LedgerRow}
    (passed : advanceChecks corpus who id = .ok row) : corpus.row id = some row := by
  unfold advanceChecks at passed
  split at passed
  · cases passed
  · next found =>
    split at passed
    · cases passed
    · split at passed
      · cases passed
      · split at passed
        · cases passed
        · split at passed
          · cases passed
          · cases passed
            exact found

theorem appendStep_moves {i : ι} {id : Nat}
    (taken : appendStep claims s i id (s.phase i) = some t) :
    Moves setting claims requests s (.append i id) t := by
  unfold appendStep at taken
  split at taken
  · next gap output under =>
    split at taken
    · cases taken
      refine .computed rfl rfl fun sound => ?_
      rw [under] at sound
      exact sound
    · split at taken
      · next fresh =>
        cases taken
        exact .appended under (Option.isNone_iff_eq_none.mp fresh)
      · cases taken
  · cases taken

theorem commitStep_moves {i : ι} {minted : String} {copies : List String}
    (taken : commitStep setting requests s i minted copies (s.phase i) = some t) :
    Moves setting claims requests s (.commit i minted copies) t := by
  unfold commitStep at taken
  split at taken
  · next row resumed under =>
    split at taken
    · cases taken
      exact .computed rfl rfl fun _ => trivial
    · next passed =>
      split at taken
      · next fresh =>
        cases taken
        exact .committed under passed fresh
      · cases taken
  · cases taken

theorem admitStep_moves (taken : admitStep setting claims requests s act = some t) :
    Moves setting claims requests s act t := by
  cases act with
  | append i id => exact appendStep_moves taken
  | commit i minted copies => exact commitStep_moves taken
  | elsewhere gaps users heads articles =>
    simp only [admitStep] at taken
    split at taken
    · cases taken
      exact .elsewhere
    · cases taken
  | start i runtime_snapshot =>
    simp only [admitStep] at taken
    split at taken
    · cases taken
      unfold startCall
      split
      · exact .computed rfl rfl fun _ => trivial
      · split
        · exact .computed rfl rfl fun _ => trivial
        · split
          · exact .computed rfl rfl fun _ => trivial
          · exact .computed rfl rfl fun _ => trivial
    · cases taken
  | readGap i =>
    simp only [admitStep] at taken
    split at taken
    · cases taken
      unfold readGapOf
      split
      · exact .computed rfl rfl fun _ => trivial
      · split
        · exact .computed rfl rfl fun _ => trivial
        · exact .computed rfl rfl fun _ => trivial
    · cases taken
  | label i day =>
    simp only [admitStep] at taken
    split at taken
    · split at taken
      · cases taken
        exact .computed rfl rfl fun _ => trivial
      · cases taken
        exact .computed rfl rfl fun _ => rfl
    · cases taken
  | readStanding i =>
    simp only [admitStep] at taken
    split at taken
    · next gap output under =>
      split at taken
      · cases taken
        exact .computed rfl rfl fun _ => trivial
      · cases taken
        refine .computed rfl rfl fun sound => ?_
        rw [under] at sound
        exact sound
    · cases taken
  | failAppend i =>
    simp only [admitStep] at taken
    split at taken
    · next gap output under =>
      cases taken
      refine .computed rfl rfl fun sound => ?_
      rw [under] at sound
      exact sound
    · cases taken
  | readAgain i =>
    simp only [admitStep] at taken
    split at taken
    · split at taken
      · cases taken
        exact .computed rfl rfl fun _ => trivial
      · cases taken
        exact .computed rfl rfl fun _ => trivial
    · cases taken
  | advance i =>
    simp only [admitStep] at taken
    split at taken
    · split at taken
      · cases taken
        exact .computed rfl rfl fun _ => trivial
      · next row passed =>
        cases taken
        have found := advanceChecks_eq_ok passed
        refine .computed rfl rfl fun _ => ?_
        change s.corpus.row row.id = some row
        rw [row_id found]
        exact found
    · cases taken
  | crash i =>
    simp only [admitStep] at taken
    split at taken
    · cases taken
      exact .computed rfl rfl fun _ => trivial
    · cases taken

theorem Moves.grows (moves : Moves setting claims requests s act t) :
    Grows s.corpus t.corpus := by
  cases moves with
  | computed own quiet sound => exact Grows.refl _
  | appended under fresh => exact ⟨List.prefix_append _ _, List.prefix_rfl, List.prefix_rfl⟩
  | committed under passed fresh =>
    refine ⟨List.prefix_rfl, ?_, List.prefix_append _ _⟩
    simp only [State.enter, advanced, List.append_assoc]
    exact List.prefix_append _ _
  | elsewhere => exact ⟨List.prefix_rfl, List.prefix_append _ _, List.prefix_rfl⟩

omit [DecidableEq ι] in
theorem PhaseSound.grows {corpus corpus' : Corpus} {i : ι} {phase : AdmitPhase}
    (grows : Grows corpus corpus') (sound : PhaseSound requests corpus i phase) :
    PhaseSound requests corpus' i phase := by
  cases phase with
  | locking row resumed => exact grows.row sound
  | _ => exact sound

/-- What a call holds stays sound. -/
theorem Moves.phases (moves : Moves setting claims requests s act t)
    (sound : ∀ i, PhaseSound requests s.corpus i (s.phase i)) (i : ι) :
    PhaseSound requests t.corpus i (t.phase i) := by
  have kept := (sound i).grows moves.grows
  cases moves with
  | @computed act j phase own quiet enters =>
    by_cases same : i = j
    · subst same
      simpa only [State.enter, Function.update_self] using enters (sound i)
    · simpa only [State.enter, Function.update_of_ne same] using kept
  | @appended j id gap output under fresh =>
    by_cases same : i = j
    · subst same
      simp only [State.enter, Function.update_self]
      trivial
    · simpa only [State.enter, Function.update_of_ne same] using kept
  | @committed j minted copies row resumed under passed fresh =>
    by_cases same : i = j
    · subst same
      simp only [State.enter, Function.update_self]
      trivial
    · simpa only [State.enter, Function.update_of_ne same] using kept
  | elsewhere => exact kept

/-! ### Who wrote what -/

omit [DecidableEq ι] in
theorem Recorded.later {ts us : List (Transition (State ι) (Act ι))} {i : ι} {id : Nat}
    (recorded : Recorded ts i id) : Recorded (ts ++ us) i id := by
  obtain ⟨tr, member, acts⟩ := recorded
  exact ⟨tr, List.mem_append_left _ member, acts⟩

omit [DecidableEq ι] in
theorem CarriedOut.later {ts us : List (Transition (State ι) (Act ι))} {i : ι} {id : Nat}
    (carried : CarriedOut ts i id) : CarriedOut (ts ++ us) i id := by
  obtain ⟨tr, member, acts⟩ := carried
  exact ⟨tr, List.mem_append_left _ member, acts⟩

/-- What the tables hold and what has been done are the same. -/
structure Accounted (requests : ι → AdmissionRequest) (ts : List (Transition (State ι) (Act ι)))
    (s : State ι) : Prop where
  phases : ∀ i, PhaseSound requests s.corpus i (s.phase i)
  rows : ∀ id row, s.corpus.row id = some row →
    ∃ j, Recorded ts j id ∧ row.output.terms = (requests j).terms
  recorded : ∀ j id, Recorded ts j id →
    ∃ row, s.corpus.row id = some row ∧ row.output.terms = (requests j).terms
  admissions : ∀ a ∈ s.corpus.admissions, ∃ row article, Witnessed s.corpus a row article ∧
    Corroborated a row article ∧ ∃ i, CarriedOut ts i a.ledger_ref ∧
      article.terms = (requests i).terms
  carried : ∀ i id, CarriedOut ts i id → ∃ a ∈ s.corpus.admissions, a.ledger_ref = id ∧
    ∃ article, s.corpus.article a.article_id = some article ∧ article.terms = (requests i).terms

variable {ts : List (Transition (State ι) (Act ι))}

theorem lockedChecks_digest {corpus : Corpus} {row : LedgerRow} {item : AdmissionRequest}
    (passed : lockedChecks setting corpus row item = .ok ()) :
    row.output.content_hash = setting.sha256Hex item.body := by
  unfold lockedChecks at passed
  split at passed
  · cases passed
  · split at passed
    · cases passed
    · split at passed
      · cases passed
      · split at passed
        · cases passed
        · split at passed
          · cases passed
          · next same => exact not_not.mp same

/-- The article that is minted is found under its id. -/
theorem article_minted {corpus : Corpus} {row : LedgerRow} {item : AdmissionRequest}
    {minted : String} {copies : List String} (fresh : corpus.fresh (minted :: copies) = true) :
    (advanced setting corpus row item minted copies).article minted =
      some (mintedArticle setting row item minted) := by
  simp only [Corpus.fresh, Bool.and_eq_true, decide_eq_true_eq, List.nodup_cons, List.all_cons,
    Option.isNone_iff_eq_none] at fresh
  obtain ⟨⟨other, -⟩, absent, -⟩ := fresh
  have uncopied : (copiedArticles corpus row copies).find? (fun article => article.id = minted) =
      none := by
    rw [List.find?_eq_none]
    intro article member own
    obtain ⟨⟨old, id⟩, paired, rfl⟩ := List.mem_map.mp member
    have same : id = minted := of_decide_eq_true own
    subst same
    exact other (List.of_mem_zip paired).2
  rw [Corpus.article] at absent
  rw [Corpus.article, advanced, List.find?_append, List.find?_append, absent, uncopied]
  simp [mintedArticle]

omit [DecidableEq ι] in
theorem recorded_append {tr : Transition (State ι) (Act ι)} {i : ι} {id : Nat} :
    Recorded (ts ++ [tr]) i id ↔
      Recorded ts i id ∨ tr.act = .append i id ∧ tr.target.phase i = .standing id false := by
  simp [Recorded, or_and_right, exists_or]

omit [DecidableEq ι] in
theorem carriedOut_append {tr : Transition (State ι) (Act ι)} {i : ι} {id : Nat} :
    CarriedOut (ts ++ [tr]) i id ↔ CarriedOut ts i id ∨ ∃ minted copies resumed,
      tr.act = .commit i minted copies ∧ tr.target.phase i = .admitted id minted resumed := by
  simp [CarriedOut, or_and_right, exists_or]

omit [DecidableEq ι] in
/-- Where nothing is written but articles of others, nothing is to be told anew. -/
theorem Accounted.kept (accounted : Accounted requests ts s) (grows : Grows s.corpus t.corpus)
    (phases : ∀ i, PhaseSound requests t.corpus i (t.phase i))
    (ledger : t.corpus.ledger = s.corpus.ledger)
    (admissions : t.corpus.admissions = s.corpus.admissions)
    (unrecorded : ∀ j id, act = .append j id → t.phase j ≠ .standing id false)
    (uncarried : ∀ i minted copies, act = .commit i minted copies →
      ∀ id resumed, t.phase i ≠ .admitted id minted resumed) :
    Accounted requests (ts ++ [⟨s, act, t⟩]) t where
  phases := phases
  rows id row found := by
    rw [Corpus.row, ledger] at found
    obtain ⟨j, recorded, terms⟩ := accounted.rows id row found
    exact ⟨j, recorded.later, terms⟩
  recorded j id recorded := by
    rcases recorded_append.mp recorded with before | ⟨acts, here⟩
    · obtain ⟨row, found, terms⟩ := accounted.recorded j id before
      exact ⟨row, grows.row found, terms⟩
    · exact absurd here (unrecorded j id acts)
  admissions a member := by
    rw [admissions] at member
    obtain ⟨row, article, witnessed, corroborated, i, carried, terms⟩ :=
      accounted.admissions a member
    exact ⟨row, article, witnessed.grows grows, corroborated, i, carried.later, terms⟩
  carried i id carried := by
    rcases carriedOut_append.mp carried with before | ⟨minted, copies, resumed, acts, here⟩
    · obtain ⟨a, member, own, article, found, terms⟩ := accounted.carried i id before
      exact ⟨a, admissions ▸ member, own, article, grows.article found, terms⟩
    · exact absurd here (uncarried i minted copies acts id resumed)

theorem Accounted.appended {i : ι} {id : Nat} {gap : GapRow} {output : AdmissionOutput}
    (accounted : Accounted requests ts s) (under : s.phase i = .unrecorded gap output)
    (fresh : s.corpus.row id = none)
    (isNext : t = State.enter { s with
      corpus := { s.corpus with
        ledger := s.corpus.ledger ++ [⟨id, (claims i).org_id, some gap.ticket_id, output⟩] } }
      i (.standing id false))
    (grows : Grows s.corpus t.corpus) (phases : ∀ i, PhaseSound requests t.corpus i (t.phase i)) :
    Accounted requests (ts ++ [⟨s, .append i id, t⟩]) t := by
  have own : output.terms = (requests i).terms := by
    have held := accounted.phases i
    rw [under] at held
    exact held
  have here : t.phase i = .standing id false := by
    rw [isNext]
    exact State.enter_self ..
  have ledger : t.corpus.ledger =
      s.corpus.ledger ++ [⟨id, (claims i).org_id, some gap.ticket_id, output⟩] := by rw [isNext]; rfl
  have admissions : t.corpus.admissions = s.corpus.admissions := by rw [isNext]; rfl
  have added : t.corpus.row id = some ⟨id, (claims i).org_id, some gap.ticket_id, output⟩ := by
    rw [Corpus.row] at fresh
    rw [Corpus.row, ledger, List.find?_append, fresh]
    simp
  constructor
  · exact phases
  · intro id' row found
    by_cases same : id' = id
    · subst same
      rw [added, Option.some.injEq] at found
      subst found
      exact ⟨i, recorded_append.mpr (.inr ⟨rfl, here⟩), own⟩
    · -- the row was there before
      rw [Corpus.row, ledger, List.find?_append, Option.or_eq_some_iff] at found
      rcases found with before | ⟨-, new⟩
      · obtain ⟨j, recorded, terms⟩ := accounted.rows id' row before
        exact ⟨j, recorded.later, terms⟩
      · simp [Ne.symm same] at new
  · intro j id' recorded
    rcases recorded_append.mp recorded with before | ⟨acts, -⟩
    · obtain ⟨row, found, terms⟩ := accounted.recorded j id' before
      exact ⟨row, grows.row found, terms⟩
    · cases acts
      exact ⟨_, added, own⟩
  · intro a member
    rw [admissions] at member
    obtain ⟨row, article, witnessed, corroborated, j, carried, terms⟩ :=
      accounted.admissions a member
    exact ⟨row, article, witnessed.grows grows, corroborated, j, carried.later, terms⟩
  · intro j id' carried
    rcases carriedOut_append.mp carried with before | ⟨minted, copies, resumed, acts, -⟩
    · obtain ⟨a, member, ref, article, found, terms⟩ := accounted.carried j id' before
      exact ⟨a, admissions ▸ member, ref, article, grows.article found, terms⟩
    · cases acts

theorem Accounted.committed {i : ι} {row : LedgerRow} {minted : String} {copies : List String}
    {resumed : Bool} (accounted : Accounted requests ts s) (under : s.phase i = .locking row resumed)
    (passed : lockedChecks setting s.corpus row (requests i) = .ok ())
    (fresh : s.corpus.fresh (minted :: copies) = true)
    (isNext : t = State.enter { s with
      corpus := advanced setting s.corpus row (requests i) minted copies } i
      (.admitted row.id minted resumed))
    (grows : Grows s.corpus t.corpus) (phases : ∀ i, PhaseSound requests t.corpus i (t.phase i)) :
    Accounted requests (ts ++ [⟨s, .commit i minted copies, t⟩]) t := by
  have standing : s.corpus.row row.id = some row := by
    have held := accounted.phases i
    rw [under] at held
    exact held
  have here : t.phase i = .admitted row.id minted resumed := by
    rw [isNext]
    exact State.enter_self ..
  have corpus : t.corpus = advanced setting s.corpus row (requests i) minted copies := by rw [isNext]; rfl
  have admitted : t.corpus.article minted = some (mintedArticle setting row (requests i) minted) := by
    rw [corpus]
    exact article_minted fresh
  have carries : CarriedOut (ts ++ [⟨s, .commit i minted copies, t⟩]) i row.id :=
    carriedOut_append.mpr (.inr ⟨minted, copies, resumed, rfl, here⟩)
  have filed : admissionRow setting row (requests i) minted ∈ t.corpus.admissions := by
    rw [corpus]
    exact List.mem_append_right _ (List.mem_singleton.mpr rfl)
  constructor
  · exact phases
  · intro id found' found
    rw [corpus] at found
    obtain ⟨j, recorded, terms⟩ := accounted.rows id found' found
    exact ⟨j, recorded.later, terms⟩
  · intro j id recorded
    rcases recorded_append.mp recorded with before | ⟨acts, -⟩
    · obtain ⟨row', found, terms⟩ := accounted.recorded j id before
      exact ⟨row', grows.row found, terms⟩
    · cases acts
  · intro a member
    rw [corpus, advanced] at member
    rcases List.mem_append.mp member with old | new
    · obtain ⟨row', article, witnessed, corroborated, j, carried, terms⟩ :=
        accounted.admissions a old
      exact ⟨row', article, witnessed.grows grows, corroborated, j, carried.later, terms⟩
    · rw [List.mem_singleton] at new
      subst new
      refine ⟨row, _, ⟨grows.row standing, admitted⟩, ?_, i, carries, rfl⟩
      exact ⟨(lockedChecks_digest passed).symm, rfl, rfl, rfl, rfl⟩
  · intro j id carried
    rcases carriedOut_append.mp carried with before | ⟨minted', copies', resumed', acts, there⟩
    · obtain ⟨a, member, ref, article, found, terms⟩ := accounted.carried j id before
      exact ⟨a, grows.admissions.subset member, ref, article, grows.article found, terms⟩
    · cases acts
      rw [here] at there
      cases there
      exact ⟨_, filed, rfl, _, admitted, rfl⟩

theorem Moves.accounted (moves : Moves setting claims requests s act t)
    (accounted : Accounted requests ts s) : Accounted requests (ts ++ [⟨s, act, t⟩]) t := by
  have grows := moves.grows
  have phases := moves.phases accounted.phases
  cases moves with
  | @computed act i phase own quiet sound =>
    have entered : ∀ {j}, some j = some i → (s.enter i phase).phase j = phase := by
      intro j same
      cases same
      exact State.enter_self ..
    apply accounted.kept grows phases rfl rfl
    · rintro j id rfl here
      rw [entered own] at here
      rw [here] at quiet
      cases quiet
    · rintro j minted copies rfl id resumed here
      rw [entered own] at here
      rw [here] at quiet
      cases quiet
  | appended under fresh => exact accounted.appended under fresh rfl grows phases
  | committed under passed fresh => exact accounted.committed under passed fresh rfl grows phases
  | elsewhere => exact accounted.kept grows phases rfl rfl nofun nofun

theorem accounted_run {corpus : Corpus}
    (run : Run (admitStep setting claims requests) (begin corpus) ts t) :
    Accounted requests ts t := by
  have initial : Accounted requests [] (begin corpus : State ι) :=
    { phases := fun _ => trivial
      rows := fun _ _ found => nomatch found
      recorded := fun _ _ ⟨_, member, _⟩ => nomatch member
      admissions := fun _ member => nomatch member
      carried := fun _ _ ⟨_, member, _⟩ => nomatch member }
  have through := run.traced (P := fun ts s => Accounted requests ts s)
    (fun _ _ _ _ taken accounted => (admitStep_moves taken).accounted accounted) [] initial
  simpa using through

/-! ### Every run -/

/-- Whoever carries an admission out asks for it as whoever put it on the chain did. -/
def SameTerms (requests : ι → AdmissionRequest) (ts : List (Transition (State ι) (Act ι))) : Prop :=
  ∀ i j id, Recorded ts j id → CarriedOut ts i id →
    (requests i).canonical_key = (requests j).canonical_key ∧
      (requests i).citable = (requests j).citable

/-- Every admission has its row and its article. The digest, the provenance, the approver and the
labels are the row's in every run; the key and the flag are the row's exactly if nobody has carried
an admission out under other terms than it was put on the chain. -/
theorem admissions_agree_iff {corpus : Corpus}
    (run : Run (admitStep setting claims requests) (begin corpus) ts t) :
    (∀ a ∈ t.corpus.admissions, ∃ row article, Witnessed t.corpus a row article ∧
      Corroborated a row article) ∧
      ((∀ a ∈ t.corpus.admissions, ∀ row article, Witnessed t.corpus a row article →
        article.canonical_key = row.output.canonical_key ∧ article.citable = row.output.citable) ↔
        SameTerms requests ts) := by
  have accounted := accounted_run run
  refine ⟨fun a member => ?_, fun agree i j id recorded carried => ?_, fun same a member => ?_⟩
  · obtain ⟨row, article, witnessed, corroborated, -⟩ := accounted.admissions a member
    exact ⟨row, article, witnessed, corroborated⟩
  · obtain ⟨a, member, rfl, article, found, ofCaller⟩ := accounted.carried i id carried
    obtain ⟨row, stands, ofWriter⟩ := accounted.recorded j _ recorded
    obtain ⟨key, citable⟩ := agree a member row article ⟨stands, found⟩
    have terms : (requests i).terms = (requests j).terms := by
      rw [← ofCaller, ← ofWriter, Article.terms, AdmissionOutput.terms, key, citable]
    exact ⟨congrArg Terms.canonical_key terms, congrArg Terms.citable terms⟩
  · intro row article witnessed
    obtain ⟨row', article', own, -, i, carried, ofCaller⟩ := accounted.admissions a member
    obtain rfl : row = row' := Option.some.inj (witnessed.row.symm.trans own.row)
    obtain rfl : article = article' := Option.some.inj (witnessed.article.symm.trans own.article)
    obtain ⟨j, recorded, ofWriter⟩ := accounted.rows _ row witnessed.row
    obtain ⟨key, citable⟩ := same i j _ recorded carried
    have terms : article.terms = row.output.terms := by
      rw [ofCaller, ofWriter, AdmissionRequest.terms, AdmissionRequest.terms, key, citable]
    exact ⟨congrArg Terms.canonical_key terms, congrArg Terms.citable terms⟩

/-! ### An attempt that is resumed under other terms -/

section Resumed

def resumedSetting : Setting where
  sha256Hex text := text
  derivedUuid text := text
  redact text := ⟨text, 0⟩
  matchPolicyFlags _ _ := []

def resumedCorpus : Corpus where
  gaps := [⟨"G", "org", "T", .OPEN⟩]
  users := [⟨"ana", "org"⟩]
  heads := [⟨"org", "kb-1"⟩]
  articles := []
  ledger := []
  admissions := []

def resumedRequest (canonical_key : String) (citable : Bool) : AdmissionRequest where
  gap_id := "G"
  canonical_key
  title := "Locked accounts"
  body := "Reset it."
  citable
  provenance := ⟨"manual", "2026-01-01", "public"⟩

local instance twoNeZero : NeZero 2 := ⟨by decide⟩

/-- Two attempts at one gap and one body. -/
def resumedRequests (second : AdmissionRequest) (i : Fin 2) : AdmissionRequest :=
  if i = 0 then resumedRequest "access" true else second

/-- The first attempt stops behind its row. -/
def resumedActs : List (Act (Fin 2)) :=
  [.start 0 "kb-1", .readGap 0, .label 0 "2026-01-01", .readStanding 0, .append 0 7, .crash 0,
    .start 1 "kb-1", .readGap 1, .label 1 "2026-01-01", .readStanding 1, .advance 1,
    .commit 1 "A" []]

def resumedStep (second : AdmissionRequest) : State (Fin 2) → Act (Fin 2) → Option (State (Fin 2)) :=
  admitStep resumedSetting (fun _ => ⟨"ana", "org"⟩) (resumedRequests second)

/-- A draft nobody may cite is in force, and the chain says that it may be cited under another
key. -/
theorem resumed_under_other_terms : ∃ ts t,
    Run (resumedStep (resumedRequest "internal" false)) (begin resumedCorpus) ts t ∧
    ∃ a ∈ t.corpus.admissions, ∃ row article, Witnessed t.corpus a row article ∧
      article.canonical_key = "internal" ∧ row.output.canonical_key = "access" ∧
      article.citable = false ∧ row.output.citable = true := by
  have performed : ((perform (resumedStep (resumedRequest "internal" false)) (begin resumedCorpus)
      resumedActs).any fun t =>
      t.corpus.admissions.any fun a => (t.corpus.row a.ledger_ref).any fun row =>
        (t.corpus.article a.article_id).any fun article =>
          article.canonical_key = "internal" && row.output.canonical_key = "access" &&
            !article.citable && row.output.citable) = true := by
    decide +kernel
  simp only [Option.any_eq_true, List.any_eq_true, Bool.and_eq_true, decide_eq_true_eq,
    Bool.not_eq_true'] at performed
  obtain ⟨t, ran, a, member, row, stands, article, found, ⟨⟨key, key'⟩, flag⟩, flag'⟩ := performed
  exact ⟨_, t, run_of_perform _ _ _ _ ran, a, member, row, article, ⟨stands, found⟩, key, key',
    flag, flag'⟩

/-- Under the same terms they agree. -/
theorem resumed_under_same_terms : ∃ ts t,
    Run (resumedStep (resumedRequest "access" true)) (begin resumedCorpus) ts t ∧
    t.corpus.admissions ≠ [] ∧
      ∀ a ∈ t.corpus.admissions, ∀ row article, Witnessed t.corpus a row article →
        article.canonical_key = row.output.canonical_key ∧
          article.citable = row.output.citable := by
  have performed : ((perform (resumedStep (resumedRequest "access" true)) (begin resumedCorpus)
      resumedActs).any fun t => !t.corpus.admissions.isEmpty) = true := by
    decide +kernel
  simp only [Option.any_eq_true, Bool.not_eq_true', List.isEmpty_eq_false_iff] at performed
  obtain ⟨t, ran, admitted⟩ := performed
  have run := run_of_perform _ _ _ _ ran
  refine ⟨_, t, run, admitted, (admissions_agree_iff run).2.mpr fun i j id _ _ => ?_⟩
  have same : ∀ i, resumedRequests (resumedRequest "access" true) i = resumedRequest "access" true :=
    fun i => ite_self _
  rw [same, same]
  exact ⟨rfl, rfl⟩

end Resumed

end LedgerDesk.Kb.Admission
