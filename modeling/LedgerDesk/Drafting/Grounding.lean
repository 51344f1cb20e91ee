import LedgerDesk.Gateway.Call
import LedgerDesk.Ledger.PromotionRow

/-!
# Grounding

Whether a draft stands on the sources that travelled with it: a conjunction of four conditions
that are computed and one that is the validator's, who can withhold it and not grant it.
-/
namespace LedgerDesk.Drafting

open Agents Gateway
open Ledger (isJsSpace)

/-! ### Texts -/

/-- `text.replace(/\s+/g, ' ')`. -/
def collapseSpace (text : List Char) : List Char :=
  text.foldr (fun c rest =>
    if isJsSpace c then if rest.head? = some ' ' then rest else ' ' :: rest else c :: rest) []

/-- Whitespace collapsed to single spaces, and none at either end. -/
def normaliseRun (text : String) : String :=
  let collapsed := (collapseSpace text.toList).dropWhile isJsSpace
  String.ofList (collapsed.reverse.dropWhile isJsSpace).reverse

def isWordChar (c : Char) : Bool := ('a' ≤ c && c ≤ 'z') || c.isDigit

/-- Every run of `count` consecutive items, in order. -/
def windowsOf {α : Type*} (count : Nat) (items : List α) : List (List α) :=
  (items.tails.map (List.take count)).filter fun run => run.length = count

def verbatimRunMin : Nat := 64

/-- Counted in code units, as the lengths of the source are. -/
def sharesVerbatimRun (haystack needle : String) (minimum : Nat) : Bool :=
  let needle := codeUnits (normaliseRun needle)
  let haystack := codeUnits (normaliseRun haystack)
  !(needle.length < minimum || haystack.length < minimum) &&
    (windowsOf minimum needle).any fun run => decide (run <:+: haystack)

def overlapWords : Nat := 6

section Words

variable (tables : TextTables)

/-- The text as bare words: in lower case, and without punctuation. -/
def words (text : String) : List String :=
  let runs := (tables.toLowerCase (normaliseRun text)).toList.splitOnP fun c => !isWordChar c
  (runs.filter (!·.isEmpty)).map String.ofList

/-- The stream itself, where it is shorter than one window. -/
def windows (text : String) (count : Nat) : List String :=
  let tokens := words tables text
  if tokens.isEmpty then []
  else if tokens.length < count then [" ".intercalate tokens]
  else (windowsOf count tokens).map (" ".intercalate ·)

def overlapsExcerpt (draft excerpt : String) (count : Nat) : Bool :=
  let haystack := " ".intercalate (words tables draft)
  haystack ≠ "" && (windows tables excerpt count).any fun window =>
    window ≠ "" && includes haystack window

end Words

/-! ### The verdict -/

/-- What stands before the last colon. -/
def canonicalKeyOf (kb_id : String) : String :=
  let units := kb_id.toList
  if ':' ∈ units then String.ofList ((units.reverse.dropWhile (· ≠ ':')).tail.reverse) else kb_id

/-- The keys under which two excerpts differ, sorted. -/
def conflictingKeys (sources : List KbExcerpt) : List String :=
  let keys := (sources.map fun source => canonicalKeyOf source.kb_id).eraseDups
  let bodies (key : String) :=
    ((sources.filter fun source => canonicalKeyOf source.kb_id = key).map
      fun source => normaliseRun source.excerpt).eraseDups
  (keys.filter fun key => 1 < (bodies key).length).mergeSort
    fun a b => decide (codeUnits a ≤ codeUnits b)

structure GroundingConjuncts where
  sources_present : Bool
  citations_present : Bool
  citations_offered : Bool
  citations_overlap : Bool
  /-- A veto. -/
  model_agrees : Bool
  deriving DecidableEq, Repr

structure GroundingVerdict where
  grounded : Bool
  conjuncts : GroundingConjuncts
  unsupported_citations : List String
  conflicting_keys : List String
  deriving DecidableEq, Repr

/-- The excerpt under an identifier. Of two sources of one identifier the later counts. -/
def offeredExcerpt (sources : List KbExcerpt) (kb_id : String) : Option String :=
  (sources.reverse.find? fun source => source.kb_id = kb_id).map KbExcerpt.excerpt

def evaluateGrounding (tables : TextTables) (sources : List KbExcerpt) (citations : List String)
    (draftText : String) (modelSaysGrounded : Bool) : GroundingVerdict :=
  let cited := citations.eraseDups
  let citations_present := !cited.isEmpty
  let citations_offered :=
    citations_present && cited.all fun kb_id => (offeredExcerpt sources kb_id).isSome
  -- what was never offered has failed the condition before this one
  let unsupported_citations := cited.filter fun kb_id =>
    (offeredExcerpt sources kb_id).any fun excerpt =>
      !overlapsExcerpt tables draftText excerpt overlapWords
  let conjuncts : GroundingConjuncts :=
    { sources_present := !sources.isEmpty
      citations_present
      citations_offered
      citations_overlap := citations_offered && unsupported_citations.isEmpty
      model_agrees := modelSaysGrounded }
  { grounded := conjuncts.sources_present && conjuncts.citations_present &&
      conjuncts.citations_offered && conjuncts.citations_overlap && conjuncts.model_agrees
    conjuncts
    unsupported_citations
    conflicting_keys := conflictingKeys sources }

variable {tables : TextTables} {sources : List KbExcerpt} {citations : List String}
  {draftText : String}

/-- The model withholds and does not grant. -/
theorem not_grounded_of_veto :
    (evaluateGrounding tables sources citations draftText false).grounded = false := by
  simp [evaluateGrounding]

theorem offeredExcerpt_isSome {kb_id : String} :
    (offeredExcerpt sources kb_id).isSome = true ↔ kb_id ∈ sources.map KbExcerpt.kb_id := by
  simp [offeredExcerpt]

/-- A grounded draft names a source at least, and none that it was not given. -/
theorem cited_of_grounded {modelSaysGrounded : Bool}
    (grounded : (evaluateGrounding tables sources citations draftText
      modelSaysGrounded).grounded = true) :
    citations ≠ [] ∧ ∀ kb_id ∈ citations, kb_id ∈ sources.map KbExcerpt.kb_id := by
  simp only [evaluateGrounding, Bool.and_eq_true] at grounded
  obtain ⟨⟨⟨⟨-, present⟩, offered⟩, -⟩, -⟩ := grounded
  constructor
  · rintro rfl
    simp at present
  · intro kb_id member
    have named := List.all_eq_true.mp offered.2 kb_id (List.mem_eraseDups.mpr member)
    exact offeredExcerpt_isSome.mp named

end LedgerDesk.Drafting
