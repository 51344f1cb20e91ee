import LedgerDesk.Drafting.Envelope
import LedgerDesk.Foundation.Joined

/-!
# What a draft takes from an excerpt

The overlap of a draft and an excerpt is looked for in the words of both, joined by spaces, so the
outermost words of a run may be parts of longer ones. A verbatim run is looked for window by
window, which is to compare the longest common run with the window.
-/
namespace LedgerDesk.Drafting

open Foundation Agents Gateway

/-! ### Windows -/

theorem mem_windowsOf {α : Type*} {count : Nat} {items run : List α} :
    run ∈ windowsOf count items ↔ run.length = count ∧ run <:+: items := by
  simp only [windowsOf, List.mem_filter, List.mem_map, List.mem_tails, decide_eq_true_eq]
  constructor
  · rintro ⟨⟨tail, ends, rfl⟩, length⟩
    exact ⟨length, (List.take_prefix count tail).isInfix.trans ends.isInfix⟩
  · rintro ⟨rfl, lies⟩
    refine ⟨?_, rfl⟩
    obtain ⟨tail, begins, ends⟩ := List.infix_iff_prefix_suffix.mp lies
    exact ⟨tail, ends, (List.prefix_iff_eq_take.mp begins).symm⟩

/-! ### Words -/

section Words

variable (tables : TextTables)

/-- Some run of the excerpt's words, of the length that is looked for, stands in the draft. -/
def SharesRun (count : Nat) (draft excerpt : List String) : Prop :=
  ∃ run, run.length = min count excerpt.length ∧ run <:+: excerpt ∧ run <:+: draft

/-- Some such run stands there with its first word and its last in part, perhaps. -/
def SharesPart (count : Nat) (draft excerpt : List String) : Prop :=
  ∃ run, run.length = min count excerpt.length ∧ run <:+: excerpt ∧
    LiesIn (run.map String.toList) (draft.map String.toList)

variable {tables}

theorem splitOnP_within {α : Type*} {apart : α → Bool} {items piece : List α}
    (member : piece ∈ items.splitOnP apart) : ∀ c ∈ piece, apart c = false := by
  induction items generalizing piece with
  | nil =>
    rw [List.splitOnP_nil, List.mem_singleton] at member
    simp [member]
  | cons c items ih =>
    rw [List.splitOnP_cons_eq_if_modifyHead] at member
    split at member
    · rcases List.mem_cons.mp member with rfl | later
      · simp
      · exact ih later
    · next inside =>
      cases pieces : items.splitOnP apart with
      | nil => exact absurd pieces (List.splitOnP_ne_nil _ _)
      | cons first rest =>
        rw [pieces, List.modifyHead_cons, List.mem_cons] at member
        rcases member with rfl | later
        · intro d within
          rcases List.mem_cons.mp within with rfl | within
          · simpa using inside
          · exact ih (by simp [pieces]) d within
        · exact ih (by simp [pieces, later])

/-- The words of a text are not empty, and no space is in one. -/
theorem words_unseparated (text : String) :
    Unseparated ' ' ((words tables text).map String.toList) := by
  intro word member
  simp only [words, List.map_map, List.mem_map, List.mem_filter] at member
  obtain ⟨piece, ⟨split, present⟩, rfl⟩ := member
  simp only [Function.comp_apply, String.toList_ofList]
  refine ⟨by simpa using present, fun space => ?_⟩
  have apart := splitOnP_within split ' ' space
  revert apart
  decide

theorem Unseparated.of_infix {χ : Type*} {sep : χ} {ws ds : List (List χ)}
    (told : Unseparated sep ds) (lies : ws <:+: ds) : Unseparated sep ws :=
  fun w member => told w (lies.subset member)

theorem intercalate_toList (items : List String) :
    (" ".intercalate items).toList = joined ' ' (items.map String.toList) := by
  rw [String.toList_intercalate]
  rfl

/-- The joined words of a run lie in the joined words of the draft as its words do. -/
theorem includes_joined {draft run : List String}
    (told : Unseparated ' ' (run.map String.toList))
    (others : Unseparated ' ' (draft.map String.toList)) :
    includes (" ".intercalate draft) (" ".intercalate run) = true ↔
      LiesIn (run.map String.toList) (draft.map String.toList) := by
  rw [includes, decide_eq_true_eq, intercalate_toList, intercalate_toList,
    joined_infix_iff told others]

/-- The windows of a text that has a word: its runs of the length that is looked for, joined. -/
theorem mem_windows {text window : String} {count : Nat} :
    window ∈ windows tables text count ↔ words tables text ≠ [] ∧
      ∃ run, run.length = min count (words tables text).length ∧ run <:+: words tables text ∧
        window = " ".intercalate run := by
  simp only [windows]
  split
  · next none => simp [List.isEmpty_iff.mp none]
  · next some =>
    have present : words tables text ≠ [] := by simpa using some
    split
    · next short =>
      rw [List.mem_singleton, min_eq_right short.le]
      constructor
      · rintro rfl
        exact ⟨present, _, rfl, List.infix_rfl, rfl⟩
      · rintro ⟨-, run, length, lies, rfl⟩
        rw [lies.sublist.eq_of_length length]
    · next long =>
      rw [min_eq_left (not_lt.mp long), List.mem_map]
      constructor
      · rintro ⟨run, member, rfl⟩
        obtain ⟨length, lies⟩ := mem_windowsOf.mp member
        exact ⟨present, run, length, lies, rfl⟩
      · rintro ⟨-, run, length, lies, rfl⟩
        exact ⟨run, mem_windowsOf.mpr ⟨length, lies⟩, rfl⟩

/-- What the substring search finds: a run whose outermost words may be parts of longer ones. -/
theorem overlapsExcerpt_iff {draft excerpt : String} {count : Nat} (positive : 1 ≤ count) :
    overlapsExcerpt tables draft excerpt count = true ↔
      words tables excerpt ≠ [] ∧
        SharesPart count (words tables draft) (words tables excerpt) := by
  have told : ∀ {run}, run <:+: words tables excerpt → Unseparated ' ' (run.map String.toList) :=
    fun lies => Unseparated.of_infix (words_unseparated excerpt) (lies.map _)
  have empty_iff : ∀ text : String, text ≠ "" ↔ text.toList ≠ [] := by
    intro text
    rw [ne_eq, ne_eq, String.toList_eq_nil_iff]
  simp only [overlapsExcerpt, Bool.and_eq_true, decide_eq_true_eq, List.any_eq_true, mem_windows]
  constructor
  · rintro ⟨-, window, ⟨present, run, length, lies, rfl⟩, -, found⟩
    exact ⟨present, run, length, lies, (includes_joined (told lies) (words_unseparated draft)).mp
      found⟩
  · rintro ⟨present, run, length, lies, inside⟩
    have found := (includes_joined (told lies) (words_unseparated draft)).mpr inside
    have some : run ≠ [] := by
      have least := List.length_pos_iff.mpr present
      rw [← List.length_pos_iff, length]
      omega
    have window : " ".intercalate run ≠ "" := by
      obtain ⟨first, rest, rfl⟩ := List.exists_cons_of_ne_nil some
      rw [empty_iff, intercalate_toList]
      exact joined_ne_nil (told lies)
    refine ⟨?_, _, ⟨present, run, length, lies, rfl⟩, window, found⟩
    rw [empty_iff] at window ⊢
    rw [includes, decide_eq_true_eq] at found
    intro none
    exact window (List.infix_nil.mp (none ▸ found))

theorem SharesRun.part {count : Nat} {draft excerpt : List String}
    (shares : SharesRun count draft excerpt) : SharesPart count draft excerpt := by
  obtain ⟨run, length, lies, stands⟩ := shares
  exact ⟨run, length, lies, LiesIn.of_infix (stands.map _)⟩

/-- The search finds a run of an excerpt only because parts of the draft's words are words of it. -/
def PartsOnly (count : Nat) (draft excerpt : List String) : Prop :=
  SharesPart count draft excerpt ∧ ¬ SharesRun count draft excerpt

theorem overlaps_whole_iff {draft excerpt : String} {count : Nat} (positive : 1 ≤ count) :
    (overlapsExcerpt tables draft excerpt count = true ↔
        SharesRun count (words tables draft) (words tables excerpt)) ↔
      words tables excerpt ≠ [] ∧
        ¬ PartsOnly count (words tables draft) (words tables excerpt) := by
  rw [overlapsExcerpt_iff positive, PartsOnly]
  by_cases none : words tables excerpt = []
  · have vacuous : SharesRun count (words tables draft) (words tables excerpt) :=
      ⟨[], by simp [none], List.nil_infix, List.nil_infix⟩
    constructor
    · intro agree
      exact absurd none (agree.mpr vacuous).1
    · rintro ⟨present, -⟩
      exact absurd none present
  · have part := @SharesRun.part count (words tables draft) (words tables excerpt)
    tauto

/-- A grounded draft carries of every source it cites a run of words, the outermost in part
perhaps. -/
theorem part_of_grounded {sources : List KbExcerpt} {citations : List String} {draftText : String}
    {modelSaysGrounded : Bool} (grounded : (evaluateGrounding tables sources citations draftText
      modelSaysGrounded).grounded = true) {kb_id : String} (cited : kb_id ∈ citations) :
    ∃ excerpt, offeredExcerpt sources kb_id = some excerpt ∧ words tables excerpt ≠ [] ∧
      SharesPart overlapWords (words tables draftText) (words tables excerpt) := by
  have offered := (cited_of_grounded grounded).2 kb_id cited
  obtain ⟨excerpt, found⟩ := Option.isSome_iff_exists.mp (offeredExcerpt_isSome.mpr offered)
  refine ⟨excerpt, found, ?_⟩
  simp only [evaluateGrounding, Bool.and_eq_true, List.isEmpty_iff] at grounded
  have supported := List.filter_eq_nil_iff.mp grounded.1.2.2 kb_id (List.mem_eraseDups.mpr cited)
  simp only [found, Option.any_some, Bool.not_eq_true', Bool.not_eq_false] at supported
  exact (overlapsExcerpt_iff (by decide)).mp supported

/-- The overlap is one of whole words where the excerpt has a word and no run of its words is
found by parts of the draft's words alone; and then a grounded draft shares whole words with each
source it cites. -/
theorem overlap_word_exact_iff :
    (∀ (draft excerpt : String) (count : Nat), 1 ≤ count →
      ((overlapsExcerpt tables draft excerpt count = true ↔
          SharesRun count (words tables draft) (words tables excerpt)) ↔
        words tables excerpt ≠ [] ∧
          ¬ PartsOnly count (words tables draft) (words tables excerpt))) ∧
    ∀ (sources : List KbExcerpt) (citations : List String) (draftText : String)
      (modelSaysGrounded : Bool), (evaluateGrounding tables sources citations draftText
        modelSaysGrounded).grounded = true →
      ∀ kb_id ∈ citations, ∃ excerpt, offeredExcerpt sources kb_id = some excerpt ∧
        (SharesRun overlapWords (words tables draftText) (words tables excerpt) ↔
          ¬ PartsOnly overlapWords (words tables draftText) (words tables excerpt)) := by
  refine ⟨fun draft excerpt count positive => overlaps_whole_iff positive, ?_⟩
  intro sources citations draftText modelSaysGrounded grounded kb_id cited
  obtain ⟨excerpt, found, -, part⟩ := part_of_grounded grounded cited
  refine ⟨excerpt, found, fun shares only => only.2 shares, fun whole => ?_⟩
  by_contra apart
  exact whole ⟨part, apart⟩

/-- The last word of the excerpt begins a longer word of the draft. -/
theorem overlap_within_word :
    ¬ ∀ (tables : TextTables) (draft excerpt : String) (count : Nat), 1 ≤ count →
      (overlapsExcerpt tables draft excerpt count = true ↔
        SharesRun count (words tables draft) (words tables excerpt)) := by
  intro exact_words
  have found := (exact_words ⟨id, id⟩ "the cardholder pays"
    "the card" overlapWords (by decide)).mp (by decide +kernel)
  obtain ⟨run, length, lies, stands⟩ := found
  have whole := lies.sublist.eq_of_length (length.trans (by decide +kernel))
  subst whole
  revert stands
  decide +kernel

end Words

/-! ### Verbatim runs -/

/-- The length of the longest run that two texts have in common. -/
def longestCommonRun (a b : List Nat) : Nat :=
  ((a.tails.flatMap List.inits).filter fun run => run <:+: b).foldr (fun run n => max run.length n) 0

theorem le_foldr_max {runs : List (List Nat)} {n : Nat} :
    n ≤ runs.foldr (fun run n => max run.length n) 0 ↔ n = 0 ∨ ∃ run ∈ runs, n ≤ run.length := by
  induction runs with
  | nil => simp
  | cons run runs ih =>
    rw [List.foldr_cons, le_max_iff, ih, List.exists_mem_cons_iff]
    tauto

/-- The longest common run reaches a length exactly if some common run does. -/
theorem le_longestCommonRun {a b : List Nat} {n : Nat} :
    n ≤ longestCommonRun a b ↔ ∃ run, n ≤ run.length ∧ run <:+: a ∧ run <:+: b := by
  have mem_runs : ∀ run, run ∈ a.tails.flatMap List.inits ↔ run <:+: a := by
    intro run
    simp only [List.mem_flatMap, List.mem_tails, List.mem_inits, List.infix_iff_prefix_suffix]
    tauto
  simp only [longestCommonRun, le_foldr_max, List.mem_filter, mem_runs, decide_eq_true_eq]
  constructor
  · rintro (rfl | ⟨run, ⟨lies, stands⟩, long⟩)
    · exact ⟨[], Nat.zero_le _, List.nil_infix, List.nil_infix⟩
    · exact ⟨run, long, lies, stands⟩
  · rintro ⟨run, long, lies, stands⟩
    exact .inr ⟨run, ⟨lies, stands⟩, long⟩

/-- The scan by windows is the comparison with the longest common run. -/
theorem sharesVerbatimRun_iff {haystack needle : String} {minimum : Nat} :
    sharesVerbatimRun haystack needle minimum = true ↔
      minimum ≤ longestCommonRun (codeUnits (normaliseRun needle))
        (codeUnits (normaliseRun haystack)) := by
  rw [le_longestCommonRun]
  simp only [sharesVerbatimRun, Bool.and_eq_true, Bool.not_eq_true', Bool.or_eq_false_iff,
    decide_eq_false_iff_not, List.any_eq_true, mem_windowsOf, decide_eq_true_eq, not_lt]
  constructor
  · rintro ⟨-, run, ⟨length, lies⟩, stands⟩
    exact ⟨run, length.ge, lies, stands⟩
  · rintro ⟨run, long, lies, stands⟩
    -- a window of a longer run is a run of both
    have cut : run.take minimum <:+: run := (List.take_prefix minimum run).isInfix
    refine ⟨⟨long.trans lies.length_le, long.trans stands.length_le⟩, run.take minimum, ⟨?_, ?_⟩, ?_⟩
    · rw [List.length_take, min_eq_left long]
    · exact cut.trans lies
    · exact cut.trans stands

theorem checkVerbatim_eq_ok {sources : List KbExcerpt} {kb_ids : List String} {reply : String}
    (passed : checkVerbatim sources kb_ids reply = .ok ()) :
    ∀ source ∈ sources, source.kb_id ∉ kb_ids →
      sharesVerbatimRun reply source.excerpt verbatimRunMin = false := by
  unfold checkVerbatim at passed
  split at passed
  · cases passed
  · next missed =>
    intro source member uncited
    have apart := List.find?_eq_none.mp missed source member
    simpa [uncited] using apart

/-- An accepted draft cites what it was given, and has no long run in common with what it was given
and does not cite. -/
theorem verbatim_copying_refused :
    (∀ (haystack needle : String) (minimum : Nat),
      sharesVerbatimRun haystack needle minimum =
        decide (minimum ≤ longestCommonRun (codeUnits (normaliseRun needle))
          (codeUnits (normaliseRun haystack)))) ∧
    ∀ (parseJson : String → Option Json) (text : String) (sources : List KbExcerpt)
      (envelope : DraftEnvelope), parseDraftEnvelope parseJson text sources = .ok envelope →
      (∀ kb_id ∈ envelope.kb_ids, ∃ source ∈ sources, source.kb_id = kb_id) ∧
      ∀ source ∈ sources, source.kb_id ∉ envelope.kb_ids →
        ¬ ∃ run, 64 ≤ run.length ∧ run <:+: codeUnits (normaliseRun source.excerpt) ∧
          run <:+: codeUnits (normaliseRun envelope.text) := by
  refine ⟨fun haystack needle minimum => ?_, fun parseJson text sources envelope parsed => ?_⟩
  · rw [Bool.eq_iff_iff, sharesVerbatimRun_iff, decide_eq_true_eq]
  refine ⟨fun kb_id cited => ?_, fun source offered uncited => ?_⟩
  · exact List.mem_map.mp (parseDraftEnvelope_offered parsed kb_id cited)
  · simp only [parseDraftEnvelope] at parsed
    obtain ⟨⟨confidence, block⟩, -, parsed⟩ := except_bind_eq_ok.mp parsed
    obtain ⟨reply, -, parsed⟩ := except_bind_eq_ok.mp parsed
    obtain ⟨kb_ids, -, parsed⟩ := except_bind_eq_ok.mp parsed
    obtain ⟨⟨⟩, -, parsed⟩ := except_bind_eq_ok.mp parsed
    obtain ⟨⟨⟩, apart, parsed⟩ := except_bind_eq_ok.mp parsed
    cases parsed
    have unshared := checkVerbatim_eq_ok apart source offered uncited
    rw [← Bool.not_eq_true, sharesVerbatimRun_iff, le_longestCommonRun] at unshared
    exact unshared

end LedgerDesk.Drafting
