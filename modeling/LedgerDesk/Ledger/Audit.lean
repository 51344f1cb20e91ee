import LedgerDesk.Ledger.Row

/-! The security events of the chokepoint, and the chain they are written into. -/
namespace LedgerDesk.Ledger

open LedgerDesk.Agents

def auditGenesis : String := "GENESIS"

/-- Every column of `audit_event` except `id`, `prev_hash` and `row_hash`. -/
structure AuditEventContent where
  org_id : String
  actor_id : Option String
  action : String
  object_type : String
  object_id : String
  detail : Json
  ts : String

structure ChainedAuditEvent extends AuditEventContent where
  prev_hash : String
  row_hash : String

def auditColumns (row : AuditEventContent) : List (String × Json) :=
  [ ("org_id", .text row.org_id),
    ("actor_id", nullableText row.actor_id),
    ("action", .text row.action),
    ("object_type", .text row.object_type),
    ("object_id", .text row.object_id),
    ("detail", row.detail),
    ("ts", .text row.ts) ]

def canonicalAuditRow (row : AuditEventContent) : String :=
  canonicalJson (.object (auditColumns row))

section Digest

variable (sha256Hex : String → String)

def auditRowHash (prevHash : String) (row : AuditEventContent) : String :=
  sha256Hex (prevHash ++ canonicalAuditRow row)

/-- The head is the hash of the organisation's last event, if it has one. -/
def linkAuditRow (row : AuditEventContent) (head : Option String) : ChainedAuditEvent :=
  let prev_hash := head.getD auditGenesis
  { toAuditEventContent := row, prev_hash, row_hash := auditRowHash sha256Hex prev_hash row }

/-- Recomputes the digest of an event read back and compares it to the stored one. -/
def verifyAuditRowHash (row : ChainedAuditEvent) : Bool :=
  isHex64 row.row_hash &&
    auditRowHash sha256Hex row.prev_hash row.toAuditEventContent == row.row_hash

end Digest

/-- `audit_hash_shape`. -/
def auditHashShape (row : ChainedAuditEvent) : Bool :=
  isHex64 row.row_hash && (row.prev_hash == auditGenesis || isHex64 row.prev_hash) &&
    row.row_hash != row.prev_hash

end LedgerDesk.Ledger
