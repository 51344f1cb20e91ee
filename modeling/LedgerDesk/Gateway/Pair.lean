import LedgerDesk.Gateway.Scans

/-!
# The pair of a draft

Before a draft is asked for, its call and the call that will judge it are priced together, on the
material as it stands: the body and the sources before redaction, and a filler for a draft that is
still to be written. Each call is priced again on what it sends.
-/
namespace LedgerDesk.Gateway.Wire

open Foundation Agents
open Foundation.JsonUnits (Numeral units quoted quoteUnits)

/-! ### Prices -/

/-- Four code units to a token, rounded up. -/
def estimateTokens (text : List Nat) : Nat := (text.length + 3) / 4

/-- The estimated input, and `max_tokens` for the response. -/
def projectionMicro (price : ModelPrice) (system user : List Nat) (max_tokens : Nat) : Int :=
  priceMicro (estimateTokens system + estimateTokens user : Nat) price.input_micro_per_1k +
    priceMicro max_tokens price.output_micro_per_1k

structure ProviderResponse where
  model : List Nat
  text : List Nat
  tokens_in : Nat
  tokens_out : Nat

def costMicro (price : ModelPrice) (response : ProviderResponse) : Int :=
  priceMicro response.tokens_in price.input_micro_per_1k +
    priceMicro response.tokens_out price.output_micro_per_1k

structure CeilingConfig where
  pricing : List Nat → Option ModelPrice
  cutMicro : Int
  cache : Bool
  replay : Bool

/-- What the chain has recorded in the scope, and what this process holds in flight. -/
structure Books where
  spentMicro : Int
  inFlightMicro : Int
  deriving DecidableEq

namespace Books

def committedMicro (books : Books) : Int := books.spentMicro + books.inFlightMicro

def record (books : Books) (micro : Int) : Books :=
  { books with spentMicro := books.spentMicro + micro }

@[simp] theorem committedMicro_record (books : Books) (micro : Int) :
    (books.record micro).committedMicro = books.committedMicro + micro :=
  Int.add_right_comm ..

def hold (books : Books) (micro : Int) : Books :=
  { books with inFlightMicro := books.inFlightMicro + micro }

end Books

/-- What a call is refused with. -/
inductive Refusal where
  | material (code : ErrorCode)
  | gateway (code : GatewayErrorCode)
  | E_MODEL_PRICE_UNKNOWN
  deriving DecidableEq, Repr

/-! ### A set of calls, before any of them is made -/

structure BudgetProbe where
  model_requested : List Nat
  prompt_text : List Nat
  body : List Nat
  kb_context : List KbExcerpt
  max_tokens : Nat

def BudgetProbe.micro (price : ModelPrice) (probe : BudgetProbe) : Int :=
  projectionMicro price probe.prompt_text (renderUserMessage probe.body probe.kb_context)
    probe.max_tokens

section Ceiling

variable (tables : CaseTables) (config : CeilingConfig) (books : Books)

/-- The ceiling has no room for a projection. -/
def Exhausted (micro : Int) : Prop :=
  books.committedMicro ≥ config.cutMicro ∨ books.committedMicro + micro > config.cutMicro

instance (micro : Int) : Decidable (Exhausted config books micro) :=
  inferInstanceAs (Decidable (_ ∨ _))

def wouldAdmit (probes : List BudgetProbe) : Except Refusal Unit := do
  if config.replay then return
  let projectedMicro ← probes.foldlM (fun sum probe =>
    match config.pricing probe.model_requested with
    | none => .error .E_MODEL_PRICE_UNKNOWN
    | some price => .ok (sum + probe.micro price)) (0 : Int)
  if Exhausted config books projectedMicro then throw (.gateway .E_BUDGET_EXHAUSTED)

/-! ### One call -/

/-- A call that bounds its answer by a whole number. -/
structure PricedCall extends GatewayCall where
  max_tokens : Nat
  pin_model : Bool
  spelled : sampling.max_tokens.lexeme = units (toString max_tokens)

inductive ProviderReply where
  | answered (response : ProviderResponse)
  | failed
  | timedOut

/-- What a call meets on its way. -/
structure Occasion where
  token : CanaryToken
  /-- The text of the row that answers the call, when the chain has one. -/
  cached : Option (List Nat)
  reply : ProviderReply
  /-- The row is written. -/
  appended : Bool

structure CallResult where
  response_text : List Nat
  body_redacted : List Nat
  kb_context_redacted : List KbExcerpt
  cost_micro : Int
  cached : Bool
  deriving DecidableEq

def callMicro (price : ModelPrice) (request : PricedCall) (prepared : Material) : Int :=
  projectionMicro price request.prompt_text
    (renderUserMessage prepared.body_redacted prepared.kb_context) request.max_tokens

/-- Step 3, where the chain has an answer. -/
def fromChain (met : Occasion) (prepared : Material) (text : List Nat) :
    Except Refusal CallResult × Books :=
  match assertResponseIsClean tables text prepared with
  | .error code => (.error (.material code), books)
  | .ok () =>
    if met.appended then
      (.ok ⟨text, prepared.body_redacted, prepared.kb_context, 0, true⟩, books)
    else (.error (.gateway .E_LEDGER_WRITE_FAILED), books)

/-- Steps 4 to 8. -/
def fromProvider (request : PricedCall) (met : Occasion) (price : ModelPrice)
    (prepared : Material) : Except Refusal CallResult × Books :=
  let projected := callMicro price request prepared
  if Exhausted config books projected then (.error (.gateway .E_BUDGET_EXHAUSTED), books)
  else
    match egress tables met.token request.toGatewayCall with
    | .error code => (.error (.material code), books)
    | .ok _ =>
      match met.reply with
      | .failed => (.error (.gateway .E_PROVIDER_FAILED), books)
      | .timedOut => (.error (.gateway .E_PROVIDER_TIMEOUT), books.hold projected)
      | .answered response =>
        match assertResponseIsClean tables response.text prepared with
        | .error code => (.error (.material code), books.hold projected)
        | .ok () =>
          if met.appended then
            let cost := costMicro price response
            if request.pin_model && response.model != request.model_requested then
              (.error (.gateway .E_MODEL_UNEXPECTED), books.record cost)
            else
              (.ok ⟨response.text, prepared.body_redacted, prepared.kb_context, cost, false⟩,
                books.record cost)
          else (.error (.gateway .E_LEDGER_WRITE_FAILED), books.hold projected)

/-- A call, and the books after it. -/
def call (request : PricedCall) (met : Occasion) : Except Refusal CallResult × Books :=
  if request.literals.any fun literal => (trim literal).length < minLiteralLength then
    (.error (.material .E_CONFIG_INVALID), books)
  else
    match config.pricing request.model_requested with
    | none => (.error .E_MODEL_PRICE_UNKNOWN, books)
    | some price =>
      match material tables met.token request.toGatewayCall with
      | .error code => (.error (.material code), books)
      | .ok prepared =>
        match if config.replay || config.cache then met.cached else none with
        | some text => fromChain tables books met prepared text
        | none =>
          if config.replay then (.error (.gateway .E_REPLAY_CACHE_MISS), books)
          else fromProvider tables config books request met price prepared

end Ceiling

/-! ### The two calls of a draft -/

structure DraftTicket where
  body_raw : List Nat
  customer_name : Option (List Nat)
  account_reference : Option (List Nat)

/-- The models of the two agents, and their prompts. -/
structure DraftRuntime where
  draftModel : List Nat
  validateModel : List Nat
  draftPrompt : List Nat
  validatePrompt : List Nat

def draftMaxTokens : Nat := 1536

def validateMaxTokens : Nat := 512

theorem zero_shown : Foundation.JsonUnits.isNumber (units "0") = true := rfl

theorem one_shown : Foundation.JsonUnits.isNumber (units "1") = true := rfl

/-- `temperature` 0 and `top_p` 1. -/
def steady (max_tokens : Numeral) : Sampling :=
  ⟨⟨units "0", zero_shown⟩, ⟨units "1", one_shown⟩, max_tokens, none⟩

def DraftTicket.literals (ticket : DraftTicket) : List (List Nat) :=
  ([ticket.customer_name, ticket.account_reference].filterMap id).filter fun value =>
    8 ≤ (trim value).length

section Pair

variable (runtime : DraftRuntime) (ticket : DraftTicket) (kb_context : List KbExcerpt)

def draftProbe : BudgetProbe where
  model_requested := runtime.draftModel
  prompt_text := runtime.draftPrompt
  body := ticket.body_raw
  kb_context := kb_context
  max_tokens := draftMaxTokens

/-- The draft does not exist yet. -/
def validateProbe : BudgetProbe where
  model_requested := runtime.validateModel
  prompt_text := runtime.validatePrompt
  body := List.replicate (draftMaxTokens * 4) 'x'.toNat
  kb_context := kb_context
  max_tokens := validateMaxTokens

def pairProbes : List BudgetProbe :=
  [draftProbe runtime ticket kb_context, validateProbe runtime kb_context]

/-- The first attempt at a draft. -/
def draftCall : PricedCall where
  body := ticket.body_raw
  literals := ticket.literals
  kb_context := kb_context
  prompt_text := runtime.draftPrompt
  model_requested := runtime.draftModel
  sampling := steady ⟨units "1536", rfl⟩
  seed := some ⟨units "0", zero_shown⟩
  max_tokens := draftMaxTokens
  pin_model := true
  spelled := rfl

/-- The draft is what this call is about. -/
def validateCall (text : List Nat) : PricedCall where
  body := text
  literals := ticket.literals
  kb_context := kb_context
  prompt_text := runtime.validatePrompt
  model_requested := runtime.validateModel
  sampling := steady ⟨units "512", rfl⟩
  seed := some ⟨units "0", zero_shown⟩
  max_tokens := validateMaxTokens
  pin_model := true
  spelled := rfl

end Pair

/-! ### What is projected -/

theorem priceMicro_mono {tokens tokens' : Int} (micro : Nat) (more : tokens ≤ tokens') :
    priceMicro tokens micro ≤ priceMicro tokens' micro := by
  have scaled : tokens * micro ≤ tokens' * micro := Int.mul_le_mul_of_nonneg_right more (by simp)
  rw [priceMicro, priceMicro]
  omega

theorem priceMicro_nonneg (tokens micro : Nat) : 0 ≤ priceMicro tokens micro := by
  have scaled : (0 : Int) ≤ tokens * micro := by positivity
  rw [priceMicro]
  omega

theorem priceMicro_pos {tokens micro : Nat} (some_ : 0 < tokens) (priced : 0 < micro) :
    0 < priceMicro tokens micro := by
  have scaled : (0 : Int) < tokens * micro := by positivity
  rw [priceMicro]
  omega

theorem projectionMicro_mono {price : ModelPrice} {system user user' : List Nat} {max_tokens : Nat}
    (more : estimateTokens user ≤ estimateTokens user') :
    projectionMicro price system user max_tokens ≤
      projectionMicro price system user' max_tokens := by
  refine Int.add_le_add_right (priceMicro_mono _ ?_) _
  omega

/-- A call of a model that is not free is projected at something. -/
theorem projectionMicro_pos {price : ModelPrice} {system user : List Nat} {max_tokens : Nat}
    (asks : 0 < max_tokens) (written : 0 < user.length)
    (priced : 0 < price.input_micro_per_1k ∨ 0 < price.output_micro_per_1k) :
    0 < projectionMicro price system user max_tokens := by
  have input :=
    priceMicro_nonneg (estimateTokens system + estimateTokens user) price.input_micro_per_1k
  have output := priceMicro_nonneg max_tokens price.output_micro_per_1k
  rw [projectionMicro]
  rcases priced with priced | priced
  · have tokens : 0 < estimateTokens system + estimateTokens user := by
      rw [estimateTokens, estimateTokens]
      omega
    have positive := priceMicro_pos tokens priced
    omega
  · have positive := priceMicro_pos asks priced
    omega

/-! ### What a step can do -/

section Steps

variable {tables : CaseTables} {config : CeilingConfig} {books after : Books}

/-- Two calls are let through together only where the ceiling has room for both. -/
theorem room_of_wouldAdmit {first second : BudgetProbe}
    (accepted : wouldAdmit config books [first, second] = .ok ()) : config.replay = true ∨
      ∃ price price', config.pricing first.model_requested = some price ∧
        config.pricing second.model_requested = some price' ∧
        books.committedMicro < config.cutMicro ∧
        books.committedMicro + (first.micro price + second.micro price') ≤ config.cutMicro := by
  rw [wouldAdmit] at accepted
  split at accepted
  · next replay => exact .inl replay
  right
  cases one : config.pricing first.model_requested with
  | none => simp [one, bind, Except.bind, List.foldlM] at accepted
  | some price =>
  cases two : config.pricing second.model_requested with
  | none => simp [one, two, bind, Except.bind, List.foldlM] at accepted
  | some price' =>
  refine ⟨price, price', rfl, rfl, ?_⟩
  simp only [List.foldlM, one, two, bind, Except.bind, pure, Except.pure, Int.zero_add] at accepted
  split at accepted
  · cases accepted
  · next room =>
    rw [Exhausted, not_or] at room
    omega

theorem wouldAdmit_of_room {first second : BudgetProbe} {price price' : ModelPrice}
    (priced : config.pricing first.model_requested = some price)
    (priced' : config.pricing second.model_requested = some price')
    (below : books.committedMicro < config.cutMicro)
    (room : books.committedMicro + (first.micro price + second.micro price') ≤ config.cutMicro) :
    wouldAdmit config books [first, second] = .ok () := by
  have spare : ¬Exhausted config books (first.micro price + second.micro price') := by
    rw [Exhausted]
    omega
  rw [wouldAdmit]
  split
  · rfl
  · simp only [List.foldlM, priced, priced', bind, Except.bind, pure, Except.pure, Int.zero_add,
      if_neg spare]

/-- The projection of a call where it is priced and its material is there. -/
structure Priced (tables : CaseTables) (config : CeilingConfig) (request : PricedCall)
    (token : CanaryToken) (price : ModelPrice) (prepared : Material) : Prop where
  price : config.pricing request.model_requested = some price
  material : material tables token request.toGatewayCall = .ok prepared

/-- A call is refused for the ceiling only where the ceiling has no room for its projection. -/
theorem exhausted_of_call {request : PricedCall} {met : Occasion}
    (refused : (call tables config books request met).1 = .error (.gateway .E_BUDGET_EXHAUSTED)) :
    config.replay = false ∧ ∃ price prepared,
      Priced tables config request met.token price prepared ∧
      Exhausted config books (callMicro price request prepared) := by
  rw [call] at refused
  split at refused
  · cases refused
  split at refused
  · cases refused
  next price priced =>
  split at refused
  · cases refused
  next prepared made =>
  split at refused
  · rw [fromChain] at refused
    split at refused
    · cases refused
    · split at refused <;> cases refused
  split at refused
  · cases refused
  next live =>
  refine ⟨by simpa using live, price, prepared, ⟨priced, made⟩, ?_⟩
  simp only [fromProvider] at refused
  split at refused
  · assumption
  split at refused
  · cases refused
  split at refused
  · cases refused
  · cases refused
  split at refused
  · cases refused
  split at refused
  · split at refused <;> cases refused
  · cases refused

theorem call_of_exhausted {request : PricedCall} {met : Occasion} {price : ModelPrice}
    {prepared : Material} (long : ∀ literal ∈ request.literals,
      minLiteralLength ≤ (trim literal).length)
    (known : Priced tables config request met.token price prepared) (missed : met.cached = none)
    (live : config.replay = false)
    (full : Exhausted config books (callMicro price request prepared)) :
    (call tables config books request met).1 = .error (.gateway .E_BUDGET_EXHAUSTED) := by
  have kept : ¬(request.literals.any fun literal => (trim literal).length < minLiteralLength) =
      true := by
    simpa using long
  rw [call, if_neg kept, known.price]
  simp only [known.material, missed, ite_self, live, Bool.false_eq_true, if_false, fromProvider,
    if_pos full]

/-- A call that returns has recorded nothing, or what its answer cost. -/
theorem books_of_call {request : PricedCall} {met : Occasion} {result : CallResult}
    (returned : call tables config books request met = (.ok result, after)) : after = books ∨
      ∃ price prepared response, Priced tables config request met.token price prepared ∧
        met.reply = .answered response ∧ after = books.record (costMicro price response) := by
  rw [call] at returned
  split at returned
  · cases returned
  split at returned
  · cases returned
  next price priced =>
  split at returned
  · cases returned
  next prepared made =>
  split at returned
  · left
    rw [fromChain] at returned
    split at returned
    · cases returned
    · split at returned <;> cases returned
      rfl
  split at returned
  · cases returned
  simp only [fromProvider] at returned
  split at returned
  · cases returned
  split at returned
  · cases returned
  split at returned
  · cases returned
  · cases returned
  next response answered =>
  split at returned
  · cases returned
  split at returned
  · split at returned <;> cases returned
    exact .inr ⟨price, prepared, response, ⟨priced, made⟩, answered, rfl⟩
  · cases returned

end Steps

/-! ### The length of a message -/

theorem length_renderUserMessage (body : List Nat) (kb : List KbExcerpt) :
    (renderUserMessage body kb).length =
      (quoteUnits body).length + (renderUserMessage [] kb).length := by
  simp only [renderUserMessage, JsonUnits.stringify, JsonUnits.stringifyMembers, quoted, quoteUnits,
    List.length_cons, List.length_append, List.length_nil]
  omega

theorem renderUserMessage_pos (body : List Nat) (kb : List KbExcerpt) :
    0 < (renderUserMessage body kb).length := by
  rw [renderUserMessage, JsonUnits.stringify]
  simp

/-- Letters that need no escape are written as they are. -/
theorem quoteUnits_replicate {u : Nat} (plain : JsonUnits.quoteUnit u = [u])
    (whole : JsonUnits.isHigh u = false) (n : Nat) :
    quoteUnits (List.replicate n u) = List.replicate n u := by
  induction n with
  | zero => rfl
  | succ n ih =>
    cases n with
    | zero => exact plain
    | succ n =>
      rw [List.replicate_succ, List.replicate_succ, quoteUnits, whole, Bool.false_and,
        if_neg Bool.false_ne_true, plain, ← List.replicate_succ, ih]
      rfl

/-! ### The pair -/

section Pair

variable {tables : CaseTables} {config : CeilingConfig} {books : Books} {runtime : DraftRuntime}
variable {ticket : DraftTicket} {kb_context : List KbExcerpt}

/-- What the call sends is projected at no more than its probe. -/
def Fits (tables : CaseTables) (config : CeilingConfig) (request : PricedCall)
    (token : CanaryToken) (probe : BudgetProbe) : Prop :=
  ∀ price prepared, Priced tables config request token price prepared →
    callMicro price request prepared ≤ probe.micro price

/-- The provider reports no more than the call was projected at. -/
def FairlyCharged (tables : CaseTables) (config : CeilingConfig) (request : PricedCall)
    (met : Occasion) : Prop :=
  ∀ price prepared response, Priced tables config request met.token price prepared →
    met.reply = .answered response → costMicro price response ≤ callMicro price request prepared

theorem micro_nonneg (price : ModelPrice) (probe : BudgetProbe) : 0 ≤ probe.micro price :=
  Int.add_nonneg (priceMicro_nonneg _ _) (priceMicro_nonneg _ _)

theorem fits_draft {token : CanaryToken} (shorter : ∀ prepared,
    material tables token (draftCall runtime ticket kb_context).toGatewayCall = .ok prepared →
      estimateTokens (renderUserMessage prepared.body_redacted prepared.kb_context) ≤
        estimateTokens (renderUserMessage ticket.body_raw kb_context)) :
    Fits tables config (draftCall runtime ticket kb_context) token
      (draftProbe runtime ticket kb_context) :=
  fun _ prepared priced => projectionMicro_mono (shorter prepared priced.material)

/-- A draft whose text, once redacted, is written as a string of no more letters than the filler
has fits, where nothing is taken out of the sources. -/
theorem fits_validate {token : CanaryToken} {text : List Nat} (short : ∀ prepared,
    material tables token (validateCall runtime ticket kb_context text).toGatewayCall =
      .ok prepared → (quoteUnits prepared.body_redacted).length ≤ draftMaxTokens * 4 ∧
        prepared.kb_context = kb_context) :
    Fits tables config (validateCall runtime ticket kb_context text) token
      (validateProbe runtime kb_context) := by
  intro price prepared priced
  obtain ⟨few, same⟩ := short prepared priced.material
  refine projectionMicro_mono ?_
  have filler : (renderUserMessage (validateProbe runtime kb_context).body kb_context).length =
      draftMaxTokens * 4 + (renderUserMessage [] kb_context).length := by
    rw [length_renderUserMessage, validateProbe, quoteUnits_replicate rfl rfl,
      List.length_replicate]
  have drafted := length_renderUserMessage prepared.body_redacted kb_context
  change estimateTokens (renderUserMessage prepared.body_redacted prepared.kb_context) ≤
    estimateTokens (renderUserMessage (validateProbe runtime kb_context).body kb_context)
  rw [same, estimateTokens, estimateTokens]
  omega

/-- Calls that are let through as a pair, and that send no more than was priced, are not refused for
the ceiling: the draft is not, and after it its validation is not, unless the draft has used up
exactly what was left and the validation is free. -/
theorem pair_admitted (accepted : wouldAdmit config books (pairProbes runtime ticket kb_context) =
    .ok ()) {met : Occasion} (fits : Fits tables config (draftCall runtime ticket kb_context)
      met.token (draftProbe runtime ticket kb_context)) :
    (call tables config books (draftCall runtime ticket kb_context) met).1 ≠
        .error (.gateway .E_BUDGET_EXHAUSTED) ∧
      ∀ result after text met',
        call tables config books (draftCall runtime ticket kb_context) met = (.ok result, after) →
        FairlyCharged tables config (draftCall runtime ticket kb_context) met →
        Fits tables config (validateCall runtime ticket kb_context text) met'.token
          (validateProbe runtime kb_context) →
        (after.committedMicro < config.cutMicro ∨
          ∀ price, config.pricing runtime.validateModel = some price →
            0 < price.input_micro_per_1k ∨ 0 < price.output_micro_per_1k) →
        (call tables config after (validateCall runtime ticket kb_context text) met').1 ≠
          .error (.gateway .E_BUDGET_EXHAUSTED) := by
  rcases room_of_wouldAdmit accepted with replay | ⟨price, price', priced, priced', below, room⟩
  · constructor
    · intro refused
      exact absurd replay (by simp [(exhausted_of_call refused).1])
    · intro _ _ _ _ _ _ _ _ refused
      exact absurd replay (by simp [(exhausted_of_call refused).1])
  have later := micro_nonneg price' (validateProbe runtime kb_context)
  constructor
  · intro refused
    obtain ⟨-, own, prepared, known, full⟩ := exhausted_of_call refused
    obtain rfl : price = own := Option.some.inj (priced.symm.trans known.price)
    have within_ := fits price prepared known
    rw [Exhausted] at full
    omega
  · intro result after text met' returned fair fits' left refused
    obtain ⟨-, own, prepared, known, full⟩ := exhausted_of_call refused
    obtain rfl : price' = own := Option.some.inj (priced'.symm.trans known.price)
    have within_ := fits' price' prepared known
    -- The draft has cost no more than its own probe was priced at.
    have spent : after.committedMicro ≤
        books.committedMicro + (draftProbe runtime ticket kb_context).micro price := by
      rcases books_of_call returned with rfl | ⟨drawn, material_, response, known, answered, rfl⟩
      · have own := micro_nonneg price (draftProbe runtime ticket kb_context)
        omega
      · obtain rfl : price = drawn := Option.some.inj (priced.symm.trans known.price)
        have cost := fair price material_ response known answered
        have own := fits price material_ known
        rw [Books.committedMicro_record]
        omega
    have used : after.committedMicro = config.cutMicro ∧
        callMicro price' (validateCall runtime ticket kb_context text) prepared ≤ 0 := by
      rw [Exhausted] at full
      omega
    rcases left with left | charged
    · omega
    · have positive : 0 < projectionMicro price' runtime.validatePrompt
          (renderUserMessage prepared.body_redacted prepared.kb_context) validateMaxTokens :=
        projectionMicro_pos (by decide) (renderUserMessage_pos _ _) (charged price' priced')
      exact absurd used.2 (not_le.mpr positive)

end Pair

/-! ### Two runs -/

/-- The prompts and the models are no part of what is redacted. -/
theorem material_congr {tables : CaseTables} {token : CanaryToken} {a b : GatewayCall}
    (body : a.body = b.body) (literals : a.literals = b.literals)
    (kb_context : a.kb_context = b.kb_context) :
    material tables token a = material tables token b := by
  simp only [material, publish, joinedExcerpts, removedBy, body, literals, kb_context]

def fixtureRuntime (draftPrompt validatePrompt : List Nat) : DraftRuntime where
  draftModel := units "fixture-draft-large"
  validateModel := units "fixture-validate-small"
  draftPrompt := draftPrompt
  validatePrompt := validatePrompt

/-- The prices of the two fixture models. -/
def fixturePricing (draft validate : ModelPrice) (model : List Nat) : Option ModelPrice :=
  if model = units "fixture-draft-large" then some draft
  else if model = units "fixture-validate-small" then some validate
  else none

theorem fixturePricing_draft (draft validate : ModelPrice) :
    fixturePricing draft validate (units "fixture-draft-large") = some draft := by
  rw [fixturePricing, if_pos rfl]

theorem fixturePricing_validate (draft validate : ModelPrice) :
    fixturePricing draft validate (units "fixture-validate-small") = some validate := by
  rw [fixturePricing, if_neg (by decide), if_pos rfl]

def plainTicket : DraftTicket where
  body_raw := units "Where is my order?"
  customer_name := some (units "Annabel Lee")
  account_reference := none

def plainSource : List KbExcerpt := [⟨units "policy/orders", units "Orders take a week."⟩]

def plainConfig : CeilingConfig where
  pricing := fixturePricing ⟨4000, 16000⟩ ⟨1000, 4000⟩
  cutMicro := 100000
  cache := true
  replay := false

/-- The provider answers with a text. -/
def answering (text : String) (tokens_in tokens_out : Nat) : Occasion where
  token := sampleToken
  cached := none
  reply := .answered ⟨units "fixture-draft-large", units text, tokens_in, tokens_out⟩
  appended := true

def plainRuntime : DraftRuntime :=
  fixtureRuntime (units "Write a reply.") (units "Judge the reply.")

/-- What redaction leaves of a call. -/
def leaves (token : CanaryToken) (request : PricedCall) : Option (List Nat × List KbExcerpt) :=
  (material asciiTables.toCaseTables token request.toGatewayCall).toOption.map fun prepared =>
    (prepared.body_redacted, prepared.kb_context)

theorem leaves_of_material {token : CanaryToken} {request : PricedCall} {prepared : Material}
    (made : material asciiTables.toCaseTables token request.toGatewayCall = .ok prepared) :
    leaves token request = some (prepared.body_redacted, prepared.kb_context) := by
  rw [leaves, made]
  rfl

theorem pair_admitted_plain :
    (call asciiTables.toCaseTables plainConfig ⟨0, 0⟩
        (draftCall plainRuntime plainTicket plainSource)
        (answering "It takes a week." 40 10)).1 ≠ .error (.gateway .E_BUDGET_EXHAUSTED) ∧
      (call asciiTables.toCaseTables plainConfig ⟨320, 0⟩
        (validateCall plainRuntime plainTicket plainSource (units "It takes a week."))
        (answering "grounded" 40 10)).1 ≠ .error (.gateway .E_BUDGET_EXHAUSTED) := by
  have accepted : wouldAdmit plainConfig ⟨0, 0⟩ (pairProbes plainRuntime plainTicket plainSource) =
      .ok () := by
    decide +kernel
  have drafted : leaves sampleToken (draftCall plainRuntime plainTicket plainSource) =
      some (plainTicket.body_raw, plainSource) := by
    decide +kernel
  have judged : leaves sampleToken
      (validateCall plainRuntime plainTicket plainSource (units "It takes a week.")) =
        some (units "It takes a week.", plainSource) := by
    decide +kernel
  have returned : call asciiTables.toCaseTables plainConfig ⟨0, 0⟩
      (draftCall plainRuntime plainTicket plainSource) (answering "It takes a week." 40 10) =
        (.ok ⟨units "It takes a week.", plainTicket.body_raw, plainSource, 320, false⟩,
          ⟨320, 0⟩) := by
    decide +kernel
  have fair : FairlyCharged asciiTables.toCaseTables plainConfig
      (draftCall plainRuntime plainTicket plainSource) (answering "It takes a week." 40 10) := by
    intro price prepared response known answered
    obtain rfl : (⟨4000, 16000⟩ : ModelPrice) = price := Option.some.inj known.price
    cases answered
    have input := priceMicro_nonneg (estimateTokens plainRuntime.draftPrompt + estimateTokens
      (renderUserMessage prepared.body_redacted prepared.kb_context)) 4000
    have output : priceMicro draftMaxTokens 16000 = 24576 := by decide
    have projected := Int.add_le_add input output.ge
    exact le_trans (by decide) projected
  have shorter : Fits asciiTables.toCaseTables plainConfig
      (draftCall plainRuntime plainTicket plainSource) sampleToken
      (draftProbe plainRuntime plainTicket plainSource) := by
    refine fits_draft fun prepared made => ?_
    have left := Option.some.inj ((leaves_of_material made).symm.trans drafted)
    obtain ⟨body, sources⟩ := Prod.mk.inj left
    rw [body, sources]
  have short : Fits asciiTables.toCaseTables plainConfig
      (validateCall plainRuntime plainTicket plainSource (units "It takes a week.")) sampleToken
      (validateProbe plainRuntime plainSource) := by
    refine fits_validate fun prepared made => ?_
    have left := Option.some.inj ((leaves_of_material made).symm.trans judged)
    obtain ⟨body, sources⟩ := Prod.mk.inj left
    rw [body, sources]
    decide
  obtain ⟨first, second⟩ :=
    @pair_admitted _ _ _ _ _ _ accepted (answering "It takes a week." 40 10) shorter
  exact ⟨first, second _ _ _ (answering "grounded" 40 10) returned fair short (.inl (by decide))⟩

/-- A body that redaction makes longer. -/
def shortTicket : DraftTicket where
  body_raw := units "account 12345"
  customer_name := none
  account_reference := none

/-- What is left is what the pair is priced at. -/
def tightConfig (runtime : DraftRuntime) : CeilingConfig where
  pricing := fixturePricing ⟨1000000, 0⟩ ⟨0, 1⟩
  cutMicro := (draftProbe runtime shortTicket []).micro ⟨1000000, 0⟩ + 1
  cache := true
  replay := false

/-- Whatever the prompts are, a pair is let through of which the first half is refused. -/
theorem pair_refused : ¬∃ prompts : List Nat × List Nat, ∀ (tables : CaseTables)
    (config : CeilingConfig) (books : Books) (ticket : DraftTicket) (kb_context : List KbExcerpt)
    (met : Occasion),
    wouldAdmit config books
        (pairProbes (fixtureRuntime prompts.1 prompts.2) ticket kb_context) = .ok () →
      (call tables config books
        (draftCall (fixtureRuntime prompts.1 prompts.2) ticket kb_context) met).1 ≠
          .error (.gateway .E_BUDGET_EXHAUSTED) := by
  rintro ⟨⟨draftPrompt, validatePrompt⟩, holds⟩
  let runtime := fixtureRuntime draftPrompt validatePrompt
  have unpriced : ∀ tokens : Int, priceMicro tokens 0 = 0 := by
    intro tokens
    rw [priceMicro, Nat.cast_zero, Int.mul_zero]
    rfl
  have free : (validateProbe runtime []).micro ⟨0, 1⟩ = 1 := by
    have output : priceMicro validateMaxTokens 1 = 1 := by decide
    rw [BudgetProbe.micro, projectionMicro, unpriced, Int.zero_add]
    exact output
  have drafts : (tightConfig runtime).pricing runtime.draftModel = some ⟨1000000, 0⟩ :=
    fixturePricing_draft ⟨1000000, 0⟩ ⟨0, 1⟩
  have judges : (tightConfig runtime).pricing runtime.validateModel = some ⟨0, 1⟩ :=
    fixturePricing_validate ⟨1000000, 0⟩ ⟨0, 1⟩
  have accepted : wouldAdmit (tightConfig runtime) ⟨0, 0⟩ (pairProbes runtime shortTicket []) =
      .ok () := by
    have own := micro_nonneg ⟨1000000, 0⟩ (draftProbe runtime shortTicket [])
    refine wouldAdmit_of_room drafts judges ?_ ?_
    · simp only [Books.committedMicro, tightConfig]
      omega
    · simp only [Books.committedMicro, tightConfig, free]
      omega
  refine holds asciiTables.toCaseTables _ _ _ _ (answering "" 0 0) accepted ?_
  have same : material asciiTables.toCaseTables sampleToken
      (draftCall runtime shortTicket []).toGatewayCall =
        material asciiTables.toCaseTables sampleToken
          (draftCall plainRuntime shortTicket []).toGatewayCall := material_congr rfl rfl rfl
  have marked : leaves sampleToken (draftCall plainRuntime shortTicket []) =
      some (units "account [REDACTED:account]", []) := by
    decide +kernel
  cases made : material asciiTables.toCaseTables sampleToken
      (draftCall plainRuntime shortTicket []).toGatewayCall with
  | error code =>
    rw [leaves, made] at marked
    cases marked
  | ok prepared =>
  obtain ⟨body, sources⟩ :=
    Prod.mk.inj (Option.some.inj ((leaves_of_material made).symm.trans marked))
  have known : Priced asciiTables.toCaseTables (tightConfig runtime)
      (draftCall runtime shortTicket []) sampleToken ⟨1000000, 0⟩ prepared :=
    ⟨drafts, same.trans made⟩
  refine call_of_exhausted (fun literal member => absurd member List.not_mem_nil) known rfl rfl ?_
  have longer : estimateTokens (renderUserMessage prepared.body_redacted prepared.kb_context) =
      estimateTokens (renderUserMessage shortTicket.body_raw []) + 4 := by
    rw [body, sources]
    decide +kernel
  have more : (draftProbe runtime shortTicket []).micro ⟨1000000, 0⟩ + 4000 =
      callMicro ⟨1000000, 0⟩ (draftCall runtime shortTicket []) prepared := by
    have probe : (draftProbe runtime shortTicket []).micro ⟨1000000, 0⟩ =
        projectionMicro ⟨1000000, 0⟩ draftPrompt (renderUserMessage shortTicket.body_raw [])
          draftMaxTokens := rfl
    have own : callMicro ⟨1000000, 0⟩ (draftCall runtime shortTicket []) prepared =
        projectionMicro ⟨1000000, 0⟩ draftPrompt
          (renderUserMessage prepared.body_redacted prepared.kb_context) draftMaxTokens := rfl
    rw [probe, own, projectionMicro, projectionMicro, unpriced, longer, priceMicro, priceMicro]
    push_cast
    omega
  right
  rw [← more]
  simp only [Books.committedMicro, tightConfig]
  omega

end LedgerDesk.Gateway.Wire
