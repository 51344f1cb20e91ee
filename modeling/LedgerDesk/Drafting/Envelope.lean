import LedgerDesk.Drafting.Grounding
import LedgerDesk.Foundation.Checks
import LedgerDesk.Triage.Cycle

/-!
# The envelopes of a draft and of its validation

Both readers are strict: a key the contract does not publish, another agent's block, or a field of
another type refuses the answer. A draft is refused as well for a source it was not given, and for
a long run out of a source that it does not cite.
-/
namespace LedgerDesk.Drafting

open Foundation Agents Gateway
open Ledger (isJsSpace)
open Triage (AgentErrorCode)

structure AgentError where
  code : AgentErrorCode
  message : String
  detail : List (String × Json) := []

abbrev Members := List (String × Json)

def refuse {α : Type*} (message : String) (detail : Members := []) : Except AgentError α :=
  .error ⟨.E_SCHEMA, message, detail⟩

def refuseGrounding {α : Type*} (message : String) (detail : Members := []) : Except AgentError α :=
  .error ⟨.E_NO_GROUNDING, message, detail⟩

def kindOf : Option Json → String
  | none => "undefined"
  | some .null => "null"
  | some (.array _) => "array"
  | some (.object _) => "object"
  | some (.text _) => "string"
  | some (.number _) => "number"
  | some (.boolean _) => "boolean"

def countJson (n : Nat) : Json := .number (.integer n)

/-- Between 0 and 1. What is not an integer is `0.digits × 10 ^ point`. -/
def JsNumber.inUnit : JsNumber → Bool
  | .integer value => value = 0 || value = 1
  | .decimal negative _ point => !negative && point ≤ 0

def rootKeys : List String :=
  ["schema_version", "agent", "confidence", "triage", "draft", "validate"]

/-- What one of the readers has of its own. -/
structure Reader where
  agent : String
  otherWriter : String
  foreignBlocks : List String
  noBlock : String
  notObject : String
  unpublishedKey : String
  incomplete : String
  keys : List String

namespace Reader

variable (reader : Reader) (parseJson : String → Option Json)

def checkRootKeys (envelope : Members) : Except AgentError Unit :=
  match envelope.find? fun entry => entry.1 ∉ rootKeys with
  | some entry => refuse "the envelope carries a key the contract does not publish"
      [("key", .text entry.1)]
  | none => .ok ()

def checkVersion (envelope : Members) : Except AgentError Unit :=
  match envelope.lookup "schema_version" with
  | some (.text "1.0") => .ok ()
  | other => refuse "the envelope does not declare schema_version 1.0"
      [("schema_version_type", .text (kindOf other))]

def checkWriter (envelope : Members) : Except AgentError Unit :=
  match envelope.lookup "agent" with
  | some (.text agent) =>
    if agent = reader.agent then .ok ()
    else refuse reader.otherWriter [("agent", .text agent), ("agent_type", .text "string")]
  | other => refuse reader.otherWriter [("agent", .null), ("agent_type", .text (kindOf other))]

def checkForeign (envelope : Members) : Except AgentError Unit :=
  match reader.foreignBlocks.find? fun block => (envelope.lookup block).isSome with
  | some block => refuse "the envelope carries a block belonging to another agent"
      [("foreign_block", .text block)]
  | none => .ok ()

def readConfidence (envelope : Members) : Except AgentError JsNumber :=
  match envelope.lookup "confidence" with
  | some (.number confidence) =>
    if JsNumber.inUnit confidence then .ok confidence
    else refuse "the declared confidence is outside [0, 1]" [("confidence", .number confidence)]
  | other => refuse "the envelope declares no numeric confidence"
      [("confidence_type", .text (kindOf other))]

def readBlock (envelope : Members) : Except AgentError Members :=
  match envelope.lookup reader.agent with
  | none => refuse reader.noBlock [("missing_block", .text reader.agent)]
  | some (.object block) =>
    match block.find? fun entry => entry.1 ∉ reader.keys with
    | some entry => refuse reader.unpublishedKey [("key", .text entry.1)]
    | none =>
      match reader.keys.find? fun key => (block.lookup key).isNone with
      | some key => refuse reader.incomplete [("missing_key", .text key)]
      | none => .ok block
  | other => refuse reader.notObject [(reader.agent ++ "_type", .text (kindOf other))]

def readMembers (envelope : Members) : Except AgentError (JsNumber × Members) := do
  checkRootKeys envelope
  checkVersion envelope
  reader.checkWriter envelope
  reader.checkForeign envelope
  let confidence ← readConfidence envelope
  let block ← reader.readBlock envelope
  return (confidence, block)

/-- The confidence and the reader's own block. -/
def read (text : String) : Except AgentError (JsNumber × Members) :=
  match parseJson text with
  | none => refuse "the response text is not JSON, and it is never parsed leniently"
      [("response_length", countJson (codeUnits text).length)]
  | some (.object envelope) => reader.readMembers envelope
  | some other => refuse "the response is not a JSON object"
      [("response_type", .text (kindOf (some other)))]

end Reader

/-! ### The draft -/

def draftTextMax : Nat := 4096

def draftReader : Reader where
  agent := "draft"
  otherWriter := "the envelope was not written by the drafting agent"
  foreignBlocks := ["triage", "validate"]
  noBlock := "the envelope carries no draft block, so it answers nothing"
  notObject := "the draft block is not an object"
  unpublishedKey := "the draft block carries a key the contract does not publish"
  incomplete := "the draft block is incomplete"
  keys := ["text", "kb_ids"]

/-- The published alphabet, and from 1 to 128 of it. -/
def isKbId (value : String) : Bool :=
  let units := value.toList
  0 < units.length && units.length ≤ 128 && units.all fun c =>
    c.isAlphanum || c = ':' || c = '_' || c = '/' || c = '-'

structure DraftEnvelope where
  confidence : JsNumber
  text : String
  kb_ids : List String

def readReply (block : Members) : Except AgentError String :=
  let refusal (length : Json) (kind : Option Json) : Except AgentError String :=
    refuse "the reply is not a non-empty string within the published length"
      [("text_type", .text (kindOf kind)), ("text_length", length),
        ("maximum", countJson draftTextMax)]
  match block.lookup "text" with
  | some (.text reply) =>
    if reply.toList.all isJsSpace || draftTextMax < (codeUnits reply).length then
      refusal (countJson (codeUnits reply).length) (some (.text reply))
    else .ok reply
  | other => refusal .null other

/-- The identifiers of the published form, or the first that is not. -/
def readKbIds : List Json → Except AgentError (List String)
  | [] => .ok []
  | .text value :: rest =>
    if isKbId value then (readKbIds rest).map (value :: ·)
    else refuse "a cited identifier is not of the published form"
      [("kb_id_type", .text "string"), ("kb_id_length", countJson (codeUnits value).length)]
  | value :: _ => refuse "a cited identifier is not of the published form"
      [("kb_id_type", .text (kindOf (some value))), ("kb_id_length", .null)]

def readCitations (block : Members) : Except AgentError (List String) :=
  match block.lookup "kb_ids" with
  | some (.array (first :: rest)) => (readKbIds (first :: rest)).map List.eraseDups
  | some (.array []) => refuse "the draft cites no source, and the contract requires at least one"
      [("kb_ids_type", .text "array"), ("kb_ids_length", countJson 0)]
  | other => refuse "the draft cites no source, and the contract requires at least one"
      [("kb_ids_type", .text (kindOf other)), ("kb_ids_length", .null)]

def checkOffered (sources : List KbExcerpt) (kb_ids : List String) : Except AgentError Unit :=
  match kb_ids.find? fun kb_id => kb_id ∉ sources.map KbExcerpt.kb_id with
  | some kb_id => refuseGrounding "the draft cites a source this call was not given"
      [("kb_id", .text kb_id),
        ("offered", .array ((sources.map KbExcerpt.kb_id).eraseDups.map .text))]
  | none => .ok ()

def checkVerbatim (sources : List KbExcerpt) (kb_ids : List String) (reply : String) :
    Except AgentError Unit :=
  match sources.find? fun source =>
      source.kb_id ∉ kb_ids && sharesVerbatimRun reply source.excerpt verbatimRunMin with
  | some source => refuseGrounding "the draft reproduces a source it does not cite"
      [("kb_id", .text source.kb_id), ("run_minimum", countJson verbatimRunMin)]
  | none => .ok ()

/-- The sources are those that travelled. -/
def parseDraftEnvelope (parseJson : String → Option Json) (text : String)
    (sources : List KbExcerpt) : Except AgentError DraftEnvelope := do
  let (confidence, block) ← draftReader.read parseJson text
  let reply ← readReply block
  let kb_ids ← readCitations block
  checkOffered sources kb_ids
  checkVerbatim sources kb_ids reply
  return { confidence, text := reply, kb_ids }

/-! ### The validation -/

def validateReader : Reader where
  agent := "validate"
  otherWriter := "the envelope was not written by the grounding validator"
  foreignBlocks := ["triage", "draft"]
  noBlock := "the envelope carries no validate block, so it judges nothing"
  notObject := "the validate block is not an object"
  unpublishedKey := "the validate block carries a key the contract does not publish"
  incomplete := "the validate block is incomplete"
  keys := ["grounded", "unsupported_claims"]

structure ValidateEnvelope where
  confidence : JsNumber
  grounded : Bool
  unsupported_claims : List String

def readClaims : List Json → Except AgentError (List String)
  | [] => .ok []
  | .text claim :: rest => (readClaims rest).map (claim :: ·)
  | claim :: _ => refuse "an unsupported claim is not a string"
      [("claim_type", .text (kindOf (some claim)))]

def readVerdict (confidence : JsNumber) (block : Members) : Except AgentError ValidateEnvelope :=
  match block.lookup "grounded", block.lookup "unsupported_claims" with
  | some (.boolean grounded), some (.array items) =>
    (readClaims items).bind fun claims =>
      if grounded && !claims.isEmpty then
        refuse "the verdict says grounded and lists claims that are not supported"
          [("claim_count", countJson claims.length)]
      else .ok { confidence, grounded, unsupported_claims := claims }
  | some (.boolean _), other => refuse "the unsupported claims are not an array"
      [("claims_type", .text (kindOf other))]
  | other, _ => refuse "the grounding verdict is not a boolean"
      [("grounded_type", .text (kindOf other))]

def parseValidateEnvelope (parseJson : String → Option Json) (text : String) :
    Except AgentError ValidateEnvelope := do
  let (confidence, block) ← validateReader.read parseJson text
  readVerdict confidence block

/-! ### What is read -/

theorem checkOffered_eq_ok {sources : List KbExcerpt} {kb_ids : List String}
    (passed : checkOffered sources kb_ids = .ok ()) :
    ∀ kb_id ∈ kb_ids, kb_id ∈ sources.map KbExcerpt.kb_id := by
  unfold checkOffered at passed
  split at passed
  · cases passed
  · next missed =>
    intro kb_id member
    have offered := List.find?_eq_none.mp missed kb_id member
    simpa using offered

/-- What an accepted draft cites it was given. -/
theorem parseDraftEnvelope_offered {parseJson : String → Option Json} {text : String}
    {sources : List KbExcerpt} {envelope : DraftEnvelope}
    (parsed : parseDraftEnvelope parseJson text sources = .ok envelope) :
    ∀ kb_id ∈ envelope.kb_ids, kb_id ∈ sources.map KbExcerpt.kb_id := by
  simp only [parseDraftEnvelope] at parsed
  obtain ⟨⟨confidence, block⟩, -, parsed⟩ := except_bind_eq_ok.mp parsed
  obtain ⟨reply, -, parsed⟩ := except_bind_eq_ok.mp parsed
  obtain ⟨kb_ids, -, parsed⟩ := except_bind_eq_ok.mp parsed
  obtain ⟨⟨⟩, offered, parsed⟩ := except_bind_eq_ok.mp parsed
  obtain ⟨⟨⟩, -, parsed⟩ := except_bind_eq_ok.mp parsed
  cases parsed
  exact checkOffered_eq_ok offered

end LedgerDesk.Drafting
