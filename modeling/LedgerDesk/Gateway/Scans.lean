import LedgerDesk.Foundation.JsonUnits
import LedgerDesk.Gateway.Canary

/-!
# What leaves and what is taken

A call redacts its material, writes its request out and searches what it wrote before the provider
is asked; an answer is searched before it is kept. Both searches read the JSON text and not the
strings it stands for: they find what is written out, and pass over what is spelled otherwise.
-/
namespace LedgerDesk.Gateway.Wire

open Foundation Agents
open Foundation.JsonUnits (Numeral Spells quoted stringify units isHigh isLow)

inductive ErrorCode where
  | E_CONFIG_INVALID
  | E_CANARY_NOT_REDACTED
  | E_EMPTY_AFTER_REDACTION
  | E_CANARY_EGRESS
  | E_PII_EGRESS
  | E_CANARY_IN_RESPONSE
  | E_PII_IN_RESPONSE
  deriving DecidableEq, Repr

structure Sampling where
  temperature : Numeral
  top_p : Numeral
  max_tokens : Numeral
  stop : Option (List (List Nat))

/-- What leaves the process. -/
structure ProviderRequest where
  model : List Nat
  system : List Nat
  user : List Nat
  sampling : Sampling
  seed : Option Numeral

structure KbExcerpt where
  kb_id : List Nat
  excerpt : List Nat
  deriving DecidableEq, Repr

structure GatewayCall where
  body : List Nat
  literals : List (List Nat)
  kb_context : List KbExcerpt
  prompt_text : List Nat
  model_requested : List Nat
  sampling : Sampling
  seed : Option Numeral

def Sampling.json (sampling : Sampling) : JsonUnits.Json :=
  .object
    ([ (units "temperature", .number sampling.temperature),
       (units "top_p", .number sampling.top_p),
       (units "max_tokens", .number sampling.max_tokens) ] ++
      match sampling.stop with
      | some stop => [(units "stop", .array (stop.map .text))]
      | none => [])

def ProviderRequest.json (request : ProviderRequest) : JsonUnits.Json :=
  .object
    [ (units "model", .text request.model),
      (units "system", .text request.system),
      (units "user", .text request.user),
      (units "sampling", request.sampling.json),
      (units "seed", match request.seed with
        | some seed => .number seed
        | none => .null) ]

/-- `canonicalJson` of the enquiry and its sources, the names of the members in order. -/
def renderUserMessage (body : List Nat) (kb : List KbExcerpt) : List Nat :=
  stringify (.object
    [ (units "enquiry", .text body),
      (units "sources", .array (kb.map fun entry =>
        .object [(units "excerpt", .text entry.excerpt), (units "kb_id", .text entry.kb_id)])) ])

/-! ### The material of a call -/

/-- What redaction leaves of a call, and what is not to be seen again. -/
structure Material where
  body_redacted : List Nat
  kb_context : List KbExcerpt
  canaries : List (List Nat)
  removals : List Removed
  deriving DecidableEq

/-- The token, and every value planted with it. -/
def canaryValues (token : CanaryToken) : List (List Nat) :=
  token.text :: canarySpecs.map fun canary => canary.value token.text

section Pieces

open Foundation.Regex Regex

def literally (text : String) : Regex Nat := chain (text.toList.map one)

/-- `\[REDACTED:(?:…)\]`. -/
def markerPattern : Pattern Nat :=
  ⟨none, chain [literally "[REDACTED:", choice ([.literal, .email, .card, .account, .phone, .id].map
    fun kind => literally (kindName kind)), one ']'], rfl⟩

def withoutMarkers (text : List Nat) : List Nat := marked [32] (markerPattern.scan isWord 0 [] text)

def excerptSeparator : String := "\n<<ledgerdesk-source>>\n"

def separatorPattern : Pattern Nat := ⟨none, literally excerptSeparator, rfl⟩

/-- The stretches between the matches. -/
def between : List (Piece Nat) → List (List Nat)
  | [] => [[]]
  | .taken _ :: pieces => [] :: between pieces
  | .kept c :: pieces =>
    match between pieces with
    | [] => [[c]]
    | first :: others => (c :: first) :: others

/-- `body.split(EXCERPT_SEPARATOR)`. -/
def splitExcerpts (text : List Nat) : List (List Nat) :=
  between (separatorPattern.scan isWord 0 [] text)

end Pieces

section Call

variable (tables : CaseTables) (token : CanaryToken) (call : GatewayCall)

def joinedExcerpts : List Nat :=
  (codeUnits excerptSeparator).intercalate (call.kb_context.map KbExcerpt.excerpt)

/-- The text a pass publishes. -/
def publish (text : List Nat) : Except ErrorCode (List Nat) :=
  match clearedPass tables.canonicalize token text call.literals with
  | some cleared => .ok cleared.text
  | none => .error .E_CANARY_NOT_REDACTED

/-- Everything a pass takes out, what was planted among it. -/
def removedBy (text : List Nat) : List Removed :=
  (redact tables.canonicalize (text ++ canaryBlock token.text) call.literals).removed

/-- Steps 1 and 2 of a call. -/
def material : Except ErrorCode Material := do
  if call.literals.any fun literal => (trim literal).length < minLiteralLength then
    throw .E_CONFIG_INVALID
  let body ← publish tables token call call.body
  if trim (withoutMarkers body) = [] then throw .E_EMPTY_AFTER_REDACTION
  if call.kb_context = [] then
    return ⟨body, [], canaryValues token, removedBy tables token call call.body⟩
  let text ← publish tables token call (joinedExcerpts call)
  let pieces := splitExcerpts text
  if pieces.length ≠ call.kb_context.length then throw .E_CONFIG_INVALID
  return ⟨body, call.kb_context.zipWith (fun entry piece => ⟨entry.kb_id, piece⟩) pieces,
    canaryValues token,
    removedBy tables token call call.body ++ removedBy tables token call (joinedExcerpts call)⟩

def providerRequest (prepared : Material) : ProviderRequest where
  model := call.model_requested
  system := call.prompt_text
  user := renderUserMessage prepared.body_redacted prepared.kb_context
  sampling := call.sampling
  seed := call.seed

def outbound (request : ProviderRequest) : List Nat := stringify request.json

def includesAny (text : List Nat) (values : List (List Nat)) : Bool :=
  values.any fun value => decide (value <:+: text)

/-- Step 5: the request that is handed across, if any is. The cache and the ceiling come before it
and may refuse the call; what is handed across they do not change. -/
def egress : Except ErrorCode ProviderRequest := do
  let prepared ← material tables token call
  let request := providerRequest call prepared
  if includesAny (outbound request) prepared.canaries then throw .E_CANARY_EGRESS
  if (Redaction.findLeak tables (outbound request) prepared.removals).isSome then
    throw .E_PII_EGRESS
  return request

/-- Step 7, and the same for an answer out of the chain. -/
def assertResponseIsClean (text : List Nat) (prepared : Material) : Except ErrorCode Unit := do
  if includesAny text prepared.canaries then throw .E_CANARY_IN_RESPONSE
  if (Redaction.findLeak tables text prepared.removals).isSome then throw .E_PII_IN_RESPONSE

end Call

/-! ### What a search passes over -/

/-- A value whose lower case depends on what stands around it: it has a capital sigma, or half of a
pair at one of its ends. -/
def Bends (value : List Nat) : Prop :=
  0x3A3 ∈ value ∨ (∃ c ∈ value.head?, isLow c = true) ∨ ∃ c ∈ value.getLast?, isHigh c = true

/-- What the searches rely on beside the letters of the first half of the byte. -/
structure FoldingTables extends CaseTables where
  canonicalize_space : ∀ {u v}, canonicalize u = canonicalize v → Gateway.isSpace u = Gateway.isSpace v
  toLowerCase_inside : ∀ {part text}, ¬ Bends part → part <:+: text →
    toLowerCase part <:+: toLowerCase text

/-- The string has a canary or a value that was taken out. -/
def Material.Exposes (prepared : Material) (string : List Nat) : Prop :=
  (∃ value ∈ prepared.canaries, value <:+: string) ∨
    ∃ removal ∈ prepared.removals, removal.literal <:+: string

/-- Somewhere in the string the value is spelled with an escape, or with letters that bend. -/
def Disguised (bends : Prop) (value string inner : List Nat) : Prop :=
  ∃ before after front spelled back, string = before ++ value ++ after ∧
    inner = front ++ spelled ++ back ∧ Spells before front ∧ Spells value spelled ∧
    Spells after back ∧ (spelled ≠ value ∨ bends)

/-- The text has the string with a canary or a value in it that is not written out. -/
def Material.Disguises (prepared : Material) (text string : List Nat) : Prop :=
  ∃ inner, quoted inner <:+: text ∧
    ((∃ value ∈ prepared.canaries, Disguised False value string inner) ∨
      ∃ removal ∈ prepared.removals,
        Disguised (Bends (trim removal.literal)) removal.literal string inner)

theorem Disguised.inside {bends : Prop} {value string inner : List Nat}
    (disguised : Disguised bends value string inner) : value <:+: string := by
  obtain ⟨before, after, -, -, -, rfl, -⟩ := disguised
  exact List.infix_append ..

/-- A value in a string that the text shows is written out in the text, or disguised. -/
theorem disguised_of_unseen {bends : Prop} {value string text : List Nat}
    (shown : JsonUnits.Shows text string) (inside : value <:+: string) (unseen : value <:+: text → bends) :
    ∃ inner, quoted inner <:+: text ∧ Disguised bends value string inner := by
  obtain ⟨inner, there, spells⟩ := shown
  obtain ⟨before, after, rfl⟩ := inside
  obtain ⟨head, back, rfl, spells_head, spells_back⟩ := spells.split
  obtain ⟨front, spelled, rfl, spells_front, spells_value⟩ := spells_head.split
  refine ⟨_, there, before, after, front, spelled, back, rfl, rfl, spells_front, spells_value,
    spells_back, ?_⟩
  by_cases plain : spelled = value
  · subst plain
    have within : spelled <:+: quoted (front ++ spelled ++ back) :=
      ⟨'"'.toNat :: front, back ++ ['"'.toNat], by simp [quoted]⟩
    exact .inr (unseen (within.trans there))
  · exact .inl plain

/-! ### What is searched for -/

/-- The search looks for the value: something of it stays when it is trimmed, and of a literal
enough. -/
structure Sought (removal : Removed) : Prop where
  shown : trim removal.literal ≠ []
  long : removal.kind = .literal → minLiteralLength ≤ (trim removal.literal).length

theorem sameLetters_of_spells {canonicalize : Nat → Nat} {literal m : List Nat}
    (spells : (spelledOut canonicalize literal).Spells m) : SameLetters canonicalize literal m := by
  induction literal generalizing m with
  | nil => exact congrArg (List.map canonicalize) spells
  | cons c literal ih =>
    obtain ⟨first, later, ⟨u, same, rfl⟩, others, rfl⟩ := spells
    exact congrArg₂ List.cons (eq_of_beq same) (ih others)

theorem sameLetters_of_match {canonicalize : Nat → Nat} {literal m : List Nat} {rule : Rule}
    (made : literalRule canonicalize literal = some rule) (spells : rule.pattern.body.Spells m) :
    SameLetters canonicalize literal m := by
  cases literal with
  | nil => cases made
  | cons c literal =>
    obtain rfl := Option.some.inj made
    exact sameLetters_of_spells spells

/-- A literal that was taken out has as many letters as the one that was named, and no space around
it. -/
theorem sought_of_literal {tables : FoldingTables} {literal : List Nat} {removal : Removed}
    (long : minLiteralLength ≤ (trim literal).length)
    (same : SameLetters tables.canonicalize (trim literal) removal.literal) : Sought removal := by
  have some_ : trim literal ≠ [] := by
    intro none
    rw [none] at long
    exact absurd long (by decide)
  obtain ⟨u, rest, rest', v, opens, shown, closes, shown'⟩ := ends_of_trim some_
  have front := same
  rw [SameLetters, opens, List.map_cons] at front
  obtain ⟨w, m, first, turned, -⟩ := List.map_eq_cons_iff.mp front
  have back := same
  rw [SameLetters, closes, List.map_append] at back
  obtain ⟨m', last, ends, -, turned'⟩ := List.map_eq_append_iff.mp back
  obtain ⟨w', rfl, same_last⟩ := List.map_eq_singleton_iff.mp turned'
  have whole : trim removal.literal = removal.literal := trim_of_shown first
    ((tables.canonicalize_space turned).trans shown) ends
    ((tables.canonicalize_space same_last).trans shown')
  have length := congrArg List.length same
  rw [List.length_map, List.length_map] at length
  refine ⟨?_, fun _ => ?_⟩
  · rw [whole, first]
    exact List.cons_ne_nil w m
  · rw [whole, length]
    exact long

theorem kind_of_mem {rule : Rule} (listed : rule ∈ redactionRules) : rule.kind ≠ .literal := by
  simp only [redactionRules, List.mem_cons, List.not_mem_nil, or_false] at listed
  rcases listed with rfl | rfl | rfl | rfl | rfl | rfl | rfl | rfl | rfl | rfl | rfl
  all_goals decide

theorem sought_of_removed {tables : FoldingTables} {token : CanaryToken} {call : GatewayCall}
    (long : ∀ literal ∈ call.literals, minLiteralLength ≤ (trim literal).length) {text : List Nat}
    {removal : Removed} (member : removal ∈ removedBy tables.toCaseTables token call text) :
    Sought removal := by
  rw [removedBy, redact_eq] at member
  rcases of_mem_removed_run member with before | ⟨rule, listed, kind, spells⟩
  · rcases of_mem_removed_run before with none | ⟨rule, listed, kind, spells⟩
    · cases none
    · obtain ⟨literal, among, made⟩ := List.mem_filterMap.mp listed
      obtain ⟨named, member, rfl⟩ := mem_orderedLiterals among
      exact sought_of_literal (long named member) (sameLetters_of_match made spells)
  · obtain ⟨u, inside, shows⟩ := (seams_of_mem listed).shows _ spells
    have shown : Gateway.isSpace u = false := by
      rcases shows with digit | rfl
      · exact (isDigit_caseless digit).2.2
      · rfl
    refine ⟨List.ne_nil_of_mem (mem_trim inside shown), fun literal => ?_⟩
    exact absurd (kind.symm.trans literal) (kind_of_mem listed)

/-! ### The searches -/

section Searches

variable {tables : FoldingTables} {prepared : Material} {text : List Nat}

/-- Neither search finds anything. -/
structure Unseen (tables : FoldingTables) (text : List Nat) (prepared : Material) : Prop where
  canaries : ∀ value ∈ prepared.canaries, ¬ value <:+: text
  removals : Redaction.findLeak tables.toCaseTables text prepared.removals = none

theorem Unseen.bends (unseen : Unseen tables text prepared) {removal : Removed}
    (member : removal ∈ prepared.removals) (sought : Sought removal)
    (inside : removal.literal <:+: text) : Bends (trim removal.literal) := by
  by_contra steady
  have missed := List.find?_eq_none.mp unseen.removals removal member
  refine missed ?_
  have found := tables.toLowerCase_inside steady ((trim_isInfix _).trans inside)
  exact Redaction.leaks_iff.mpr ⟨sought.shown, sought.long, found⟩

/-- Of a text in which nothing is found, a string has a value exactly if it has one disguised. -/
theorem Unseen.exposes_iff (unseen : Unseen tables text prepared)
    (sought : ∀ removal ∈ prepared.removals, Sought removal) {string : List Nat}
    (shown : JsonUnits.Shows text string) :
    prepared.Exposes string ↔ prepared.Disguises text string := by
  constructor
  · rintro (⟨value, member, inside⟩ | ⟨removal, member, inside⟩)
    · obtain ⟨inner, there, disguised⟩ :=
        disguised_of_unseen shown inside (unseen.canaries value member)
      exact ⟨inner, there, .inl ⟨value, member, disguised⟩⟩
    · obtain ⟨inner, there, disguised⟩ :=
        disguised_of_unseen shown inside (unseen.bends member (sought removal member))
      exact ⟨inner, there, .inr ⟨removal, member, disguised⟩⟩
  · rintro ⟨inner, -, ⟨value, member, disguised⟩ | ⟨removal, member, disguised⟩⟩
    · exact .inl ⟨value, member, disguised.inside⟩
    · exact .inr ⟨removal, member, disguised.inside⟩

end Searches

/-! ### The searches of a call -/

section Calls

variable {tables : FoldingTables} {token : CanaryToken} {call : GatewayCall} {prepared : Material}

theorem sought_of_material (made : material tables.toCaseTables token call = .ok prepared) :
    ∀ removal ∈ prepared.removals, Sought removal := by
  simp only [material] at made
  split at made
  · cases made
  next short =>
  have long : ∀ literal ∈ call.literals, minLiteralLength ≤ (trim literal).length := by
    intro literal member
    by_contra few
    exact short (List.any_eq_true.mpr ⟨literal, member, decide_eq_true (not_le.mp few)⟩)
  have body : ∀ removal ∈ removedBy tables.toCaseTables token call call.body, Sought removal :=
    fun removal member => sought_of_removed long member
  cases first : publish tables.toCaseTables token call call.body with
  | error code => rw [first] at made; cases made
  | ok published =>
  simp only [first, bind, Except.bind, pure, Except.pure] at made
  split at made
  · cases made
  split at made
  · cases made
    exact body
  cases second : publish tables.toCaseTables token call (joinedExcerpts call) with
  | error code => rw [second] at made; cases made
  | ok text =>
  simp only [second] at made
  split at made
  · cases made
  · cases made
    intro removal member
    rcases List.mem_append.mp member with here | there
    · exact body removal here
    · exact sought_of_removed long there

theorem unseen_of_silent {text : List Nat} (canaries : ¬ includesAny text prepared.canaries = true)
    (removals : ¬ (Redaction.findLeak tables.toCaseTables text prepared.removals).isSome = true) :
    Unseen tables text prepared := by
  refine ⟨fun value member inside => ?_, Option.not_isSome_iff_eq_none.mp removals⟩
  exact canaries (List.any_eq_true.mpr ⟨value, member, decide_eq_true inside⟩)

theorem unseen_of_clean {text : List Nat}
    (accepted : assertResponseIsClean tables.toCaseTables text prepared = .ok ()) :
    Unseen tables text prepared := by
  simp only [assertResponseIsClean] at accepted
  split at accepted
  · cases accepted
  next canaries =>
    simp only [pure, Except.pure] at accepted
    split at accepted
    · cases accepted
    next removals => exact unseen_of_silent canaries removals

theorem unseen_of_egress {request : ProviderRequest}
    (made : material tables.toCaseTables token call = .ok prepared)
    (sent : egress tables.toCaseTables token call = .ok request) :
    Unseen tables (outbound request) prepared := by
  simp only [egress, made, bind, Except.bind, pure, Except.pure] at sent
  split at sent
  · cases sent
  next canaries =>
    split at sent
    · cases sent
    next removals =>
      cases sent
      exact unseen_of_silent canaries removals

end Calls

/-- Of what is handed to the provider, and of an answer that is taken, no string has a canary or a
value that was taken out, unless the text has it disguised: spelled with an escape, or in letters
whose lower case goes by their neighbours. -/
theorem scans_pass_over (tables : FoldingTables) (token : CanaryToken) (call : GatewayCall)
    (prepared : Material) (made : material tables.toCaseTables token call = .ok prepared) :
    (∀ request, egress tables.toCaseTables token call = .ok request →
      ∀ string ∈ request.json.strings,
        ¬ prepared.Exposes string ↔ ¬ prepared.Disguises (outbound request) string) ∧
    ∀ text json, JsonUnits.Json.Document json text →
      assertResponseIsClean tables.toCaseTables text prepared = .ok () →
      ∀ string ∈ json.strings, ¬ prepared.Exposes string ↔ ¬ prepared.Disguises text string := by
  have sought := sought_of_material made
  refine ⟨fun request sent string member => ?_, fun text json document accepted string member => ?_⟩
  · have shown := (JsonUnits.document_stringify request.json).shows member
    exact not_congr ((unseen_of_egress made sent).exposes_iff sought shown)
  · exact not_congr ((unseen_of_clean accepted).exposes_iff sought (document.shows member))

/-! ### A name with quotes in it -/

/-- Raised or not, a space stays one and a letter does not become one. -/
theorem isSpace_of_raised {u v : Nat}
    (same : (if isLower u then u - 32 else u) = if isLower v then v - 32 else v) :
    Gateway.isSpace u = Gateway.isSpace v := by
  have shown : ∀ w, isLower w = true ∨ isUpper w = true → Gateway.isSpace w = false := by
    intro w letter
    refine isAlnum_shown ?_
    rw [isAlnum]
    rcases letter with lower | upper
    · rw [lower, Bool.or_true]
    · rw [upper, Bool.or_true, Bool.true_or]
  have raised : ∀ w, isLower w = true → isUpper (w - 32) = true := by
    intro w lower
    simp only [isLower, isUpper, Bool.and_eq_true, decide_eq_true_eq] at *
    omega
  split at same <;> split at same
  · next left right => rw [shown u (.inl left), shown v (.inl right)]
  · next left right => rw [shown u (.inl left), shown v (.inr (same ▸ raised u left))]
  · next left right => rw [shown v (.inl right), shown u (.inr (same ▸ raised v right))]
  · rw [same]

/-- The folding of texts that have no letters beyond the first half of the byte. -/
def asciiTables : FoldingTables where
  canonicalize u := if isLower u then u - 32 else u
  toLowerCase text := text.map lowerUnit
  toLowerCase_ascii _ _ := rfl
  canonicalize_space := isSpace_of_raised
  toLowerCase_inside _ inside := inside.map lowerUnit

def quotedName : List Nat := units "Ann \"Bo\" Lee"

/-- A call that names the customer, by a prompt that names the customer too. -/
def namedCall : GatewayCall where
  body := units "This is Ann \"Bo\" Lee."
  literals := [quotedName]
  kb_context := []
  prompt_text := units "Write to Ann \"Bo\" Lee."
  model_requested := units "model"
  sampling := ⟨⟨units "0", rfl⟩, ⟨units "1", rfl⟩, ⟨units "64", rfl⟩, none⟩
  seed := none

def sampleToken : CanaryToken := ⟨codeUnits "0f4a", by decide⟩

def namedMaterial : Material where
  body_redacted := units "This is [REDACTED:literal]."
  kb_context := []
  canaries := canaryValues sampleToken
  removals :=
    [⟨.literal, quotedName⟩, ⟨.email, units "ld-canary-0f4a@canary.invalid"⟩,
      ⟨.account, units "DE89 3704 0044 0532 0130 00"⟩, ⟨.card, units "4111 1111 1111 1111"⟩,
      ⟨.phone, units "0400 000 000"⟩, ⟨.id, units "123 456 782"⟩]

/-- An answer that has the name. -/
def namingAnswer : JsonUnits.Json := .object [(units "text", .text quotedName)]

/-- What the passes and the scans come to, all of it computed at once. -/
theorem named_runs :
    material asciiTables.toCaseTables sampleToken namedCall = .ok namedMaterial ∧
      includesAny (outbound (providerRequest namedCall namedMaterial)) namedMaterial.canaries =
        false ∧
      (Redaction.findLeak asciiTables.toCaseTables
        (outbound (providerRequest namedCall namedMaterial)) namedMaterial.removals).isSome =
          false ∧
      assertResponseIsClean asciiTables.toCaseTables (stringify namingAnswer) namedMaterial =
        .ok () ∧
      stringify namingAnswer = units "\x7b\"text\":\"Ann \\\"Bo\\\" Lee\"\x7d" ∧
      (units "Write to Ann \"Bo\" Lee.") ∈
        (providerRequest namedCall namedMaterial).json.strings := by
  decide +kernel

theorem namedMaterial_made :
    material asciiTables.toCaseTables sampleToken namedCall = .ok namedMaterial :=
  named_runs.1

theorem named_sent : egress asciiTables.toCaseTables sampleToken namedCall =
    .ok (providerRequest namedCall namedMaterial) := by
  obtain ⟨made, canaries, removals, -⟩ := named_runs
  simp only [egress, made, bind, Except.bind, canaries, removals, Bool.false_eq_true,
    if_false, pure, Except.pure]

theorem naming_accepted : assertResponseIsClean asciiTables.toCaseTables (stringify namingAnswer)
    namedMaterial = .ok () :=
  named_runs.2.2.2.1

theorem scans_pass_over_named :
    namedMaterial.Disguises (units "\x7b\"text\":\"Ann \\\"Bo\\\" Lee\"\x7d") quotedName := by
  have written := named_runs.2.2.2.2.1
  have exposed : namedMaterial.Exposes quotedName :=
    .inr ⟨⟨.literal, quotedName⟩, List.mem_cons_self, List.infix_rfl⟩
  have passed := (scans_pass_over asciiTables sampleToken namedCall namedMaterial
    namedMaterial_made).2 _ namingAnswer (JsonUnits.document_stringify namingAnswer) naming_accepted
    quotedName (by decide)
  rw [← written]
  by_contra plain
  exact passed.mpr plain exposed

/-- A request leaves with the name in its prompt, and an answer with the name is taken. -/
theorem named_passes : ∃ (tables : FoldingTables) (token : CanaryToken) (call : GatewayCall)
    (prepared : Material), material tables.toCaseTables token call = .ok prepared ∧
    (∃ request, egress tables.toCaseTables token call = .ok request ∧
      ∃ string ∈ request.json.strings, prepared.Exposes string) ∧
    ∃ text json, JsonUnits.Json.Document json text ∧
      assertResponseIsClean tables.toCaseTables text prepared = .ok () ∧
      ∃ string ∈ json.strings, prepared.Exposes string := by
  have prompt : namedMaterial.Exposes (units "Write to Ann \"Bo\" Lee.") :=
    .inr ⟨⟨.literal, quotedName⟩, List.mem_cons_self, by decide⟩
  have name : namedMaterial.Exposes quotedName :=
    .inr ⟨⟨.literal, quotedName⟩, List.mem_cons_self, List.infix_rfl⟩
  refine ⟨asciiTables, sampleToken, namedCall, namedMaterial, namedMaterial_made, ?_, ?_⟩
  · exact ⟨_, named_sent, _, named_runs.2.2.2.2.2, prompt⟩
  · exact ⟨_, namingAnswer, JsonUnits.document_stringify namingAnswer, naming_accepted, quotedName,
      by decide, name⟩

end LedgerDesk.Gateway.Wire
