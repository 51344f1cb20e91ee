import LedgerDesk.Access.Sessions

/-!
# The census

The people of the authenticated reading, a page at a time. A cursor is a row that names the
population it was minted under, by a digest of everything the page was selected from, and the
position its page ended at.
-/
namespace LedgerDesk.Access

open Foundation

structure Surface where
  id : String
  permission_id : String
  scope_ref : String
  purpose_ref : String
  enabled : Bool
  policy_ready : Bool
  revision : Nat
  deriving DecidableEq, Repr

structure CensusEntry where
  account_id : String
  scope_ref : String
  display_name : String
  revision : Nat
  deriving DecidableEq, Repr

structure CensusCursor where
  digest : String
  account_id : String
  session_digest : String
  population_digest : String
  position : Nat
  expires_at : Int
  created_at : Int
  deriving DecidableEq, Repr

/-- `material_trial.control`. -/
structure ReadingControl where
  generation : String
  active : Bool
  capture_ready : Bool
  processing_ready : Bool
  conservation_ready : Bool
  trace_ready : Bool
  destination_ready : Bool
  deriving DecidableEq, Repr

/-- `authenticatedReadingConfig`, as far as the census reads it. -/
structure ReadingConfig where
  generation : String
  cursorSeconds : Nat
  cursorLimit : Nat
  pageSize : Nat
  seconds_bounded : 1 ≤ cursorSeconds ∧ cursorSeconds ≤ 300
  limit_bounded : 1 ≤ cursorLimit ∧ cursorLimit ≤ 100
  page_bounded : 1 ≤ pageSize ∧ pageSize ≤ 100

/-- What a page is read from, but for the cursors. Of the tables of the reading, the surface of
the census and its entries, of which an account has one. -/
structure CensusTables where
  store : AccessStore
  control : Option ReadingControl
  surface : Option Surface
  census_entry : List CensusEntry
  distinct : (census_entry.map CensusEntry.account_id).Nodup

/-- An entry as the population has it. -/
structure Selected where
  account_id : String
  scope_ref : String
  revision : Nat
  deriving DecidableEq, Repr

def CensusEntry.selected (e : CensusEntry) : Selected := ⟨e.account_id, e.scope_ref, e.revision⟩

/-- What the digest of a population is taken of. -/
structure Population where
  generation : String
  pageSize : Nat
  surface_id : String
  scope_ref : String
  purpose_ref : String
  surface_revision : Nat
  grants : List GrantRecord
  supports : List SupportDefinition
  investitures : List Investiture
  revalidationEvents : List RevalidationEvent
  resolutions : List InvestitureResolution
  entries : List Selected

/-- What is answered, or thrown. -/
inductive CensusFailure where
  | problem (error : AccessError)
  | thrown (message : String)
  deriving DecidableEq, Repr

structure Person where
  account_id : String
  display_name : String
  deriving DecidableEq, Repr

structure People where
  people : List Person
  revision : Option Nat
  next_cursor : String
  deriving DecidableEq, Repr

/-- Everything that precedes the cursor. -/
structure Prepared where
  session : SessionRow
  population : Population
  expiresAt : Int

/-- `randomBytes(32).toString('base64url')`. -/
structure CursorSecret where
  value : String
  token : isToken value = true

section Census

variable (config : AccessConfig) (reading : ReadingConfig) (stringify : Population → String)

/-- `a.account_id < b.account_id`, or the same. -/
def accountOrder (a b : Selected) : Prop := Agents.codeUnits a.account_id ≤ Agents.codeUnits b.account_id

instance : DecidableRel accountOrder := fun a b =>
  inferInstanceAs (Decidable (Agents.codeUnits a.account_id ≤ Agents.codeUnits b.account_id))

/-- The entry is of the surface's scope, and the viewer may exercise the permission there. -/
def entitled (authority : Authority) (now : Int) (viewer : Option Account) (surface : Surface)
    (e : Selected) : Bool :=
  authority.contains surface.scope_ref e.scope_ref &&
    (authority.allows now viewer surface.permission_id .exercise e.scope_ref).holds

def authorisedEntries (authority : Authority) (now : Int) (viewer : Option Account)
    (surface : Surface) (candidates : List CensusEntry) : List Selected :=
  ((candidates.map CensusEntry.selected).filter
    (entitled authority now viewer surface)).insertionSort accountOrder

def snapshotBound (authority : Authority) : Bool :=
  [authority.accounts.length, authority.permissions.length, authority.scopes.length,
    authority.supports.length, authority.grants.length, authority.investitures.length,
    authority.rules.length, authority.revalidationEvents.length,
    authority.resolutions.length].all fun length => length ≤ 1000

/-- The viewer may read the surface for its purpose, with what the reading lasts to. -/
def surfaceMaximum (authority : Authority) (now : Int) (viewer : Option Account) (surface : Surface) :
    String × List Int :=
  if (authority.activeScope surface.scope_ref).any fun s => s.purpose_ref == surface.purpose_ref then
    (authority.readingMaximum now viewer surface.permission_id surface.scope_ref surface.purpose_ref,
      (authority.allows now viewer surface.permission_id .exercise surface.scope_ref).bounds)
  else ("NONE", [])

/-- `currentReadingControl`. -/
def currentReadingControl (control : Option ReadingControl) : Except CensusFailure ReadingControl :=
  match control with
  | none => .error (.thrown "CURRENT_CONTROL_MISSING")
  | some c =>
    if c.generation != reading.generation || !c.active || !c.capture_ready || !c.processing_ready ||
        !c.conservation_ready || !c.trace_ready || !c.destination_ready then
      .error (.thrown "CURRENT_CONTROL_UNVERIFIED")
    else .ok c

def prepare (tables : CensusTables) (now : Int) (token : Option String) :
    Except CensusFailure Prepared := do
  let control ← currentReadingControl reading tables.control
  let deployment := tables.store.deployment
  if !deployment.startupAllowed now then .error (.thrown "RECEPTION_UNAVAILABLE")
  else
    match readingSession config tables.store now token with
    | none => .error (.problem .unauthenticated)
    | some (session, _) =>
      match tables.surface with
      | none => .error (.problem .technical_failure)
      | some surface =>
        if !surface.policy_ready then .error (.problem .technical_failure)
        else if !surface.enabled then .error (.problem .unavailable)
        else
          let authority := tables.store.authority
          if !snapshotBound authority then .error (.thrown "AUTHORITY_SNAPSHOT_BOUND")
          else
            let viewer := authority.account session.account_id
            let (maximum, bounds) := surfaceMaximum authority now viewer surface
            if maximum == "NONE" then .error (.problem .unavailable)
            else if 1000 < tables.census_entry.length then .error (.thrown "CENSUS_BOUND")
            else
              .ok {
                session
                population := {
                  generation := control.generation, pageSize := reading.pageSize
                  surface_id := surface.id, scope_ref := surface.scope_ref
                  purpose_ref := surface.purpose_ref, surface_revision := surface.revision
                  grants := authority.grants, supports := authority.supports
                  investitures := authority.investitures
                  revalidationEvents := authority.revalidationEvents
                  resolutions := authority.resolutions
                  entries := authorisedEntries authority now viewer surface tables.census_entry }
                expiresAt := min (min deployment.rootUntil session.expires_at) (deadline bounds) }

def populationDigest (population : Population) : String :=
  config.digest ("census-population:" ++ stringify population)

def cursorDigest (cursor : String) : String := config.digest ("census-cursor:" ++ cursor)

/-- The position a cursor stands for, where it may be used. -/
def cursorPosition (p : Prepared) (now : Int) (cursor : String) (cursors : List CensusCursor) :
    Option Nat :=
  if cursor == "" then some 0
  else
    ((cursors.find? fun row => row.digest == cursorDigest config cursor).filter fun row =>
      row.account_id == p.session.account_id && row.session_digest == p.session.digest &&
        row.population_digest == populationDigest config stringify p.population &&
        now < row.expires_at && row.position ≤ p.population.entries.length).map (·.position)

def hexValue (c : Char) : Option Nat :=
  if c.isDigit then some (c.toNat - 48)
  else if 'a' ≤ c ∧ c ≤ 'f' then some (c.toNat - 87)
  else if 'A' ≤ c ∧ c ≤ 'F' then some (c.toNat - 55)
  else none

/-- `parseInt(text, 16)` of a digest: the digits it begins with. -/
def parseHex (text : List Char) : Option Nat :=
  match (text.takeWhile fun c => (hexValue c).isSome).filterMap hexValue with
  | [] => none
  | digits => some (digits.foldl (fun value digit => 16 * value + digit) 0)

def plainText (minimum maximum : Nat) (value : String) : Bool :=
  decide (minimum ≤ value.length) && decide (value.length ≤ maximum) && value.toList.all fun c =>
    !(c.toNat ≤ 8 || c.toNat == 11 || c.toNat == 12 || (14 ≤ c.toNat && c.toNat ≤ 31) ||
      c.toNat == 127)

/-- `validateAccess('people', 'response', …)`. -/
def peopleProfile (body : People) : Bool :=
  decide (body.people.length ≤ 100) &&
    (body.people.all fun p => isRef p.account_id && plainText 1 200 p.display_name) &&
    (body.revision.any fun revision => 1 ≤ revision && isSafeInteger revision) &&
    plainText 0 512 body.next_cursor

def personOf (names : List CensusEntry) (e : Selected) : Person :=
  ⟨e.account_id, ((names.find? fun n => n.account_id == e.account_id).map
    (·.display_name)).getD ""⟩

/-- The cursors, but for those of the session that have run out. -/
def unexpired (p : Prepared) (now : Int) (cursors : List CensusCursor) : List CensusCursor :=
  cursors.filter fun row => !(row.session_digest == p.session.digest && row.expires_at ≤ now)

/-- The cursor the rest of the population is left to, beside those of other sessions and those
that have not run out. -/
def mint (p : Prepared) (now : Int) (position : Nat) (secret : CursorSecret)
    (cursors : List CensusCursor) : Except CensusFailure (List CensusCursor) :=
  let kept := unexpired p now cursors
  let expires_at := min p.expiresAt (now + reading.cursorSeconds * 1000)
  if reading.cursorLimit ≤ kept.countP fun row => row.session_digest == p.session.digest then
    .error (.thrown "CURSOR_BOUND")
  else if kept.any fun row => row.digest == cursorDigest config secret.value then
    .error (.thrown "census_cursor_pkey")
  else if expires_at ≤ now then .error (.thrown "census_cursor_check")
  else
    .ok (kept ++ [⟨cursorDigest config secret.value, p.session.account_id, p.session.digest,
      populationDigest config stringify p.population, position, expires_at, now⟩])

def pageAt (p : Prepared) (position : Nat) : List Selected :=
  (p.population.entries.drop position).take reading.pageSize

def pageEnd (p : Prepared) (position : Nat) : Nat := position + (pageAt reading p position).length

def leavesMore (p : Prepared) (position : Nat) : Bool :=
  decide (pageEnd reading p position < p.population.entries.length)

def pageBody (names : List CensusEntry) (p : Prepared) (position : Nat) (secret : CursorSecret) :
    People where
  people := (pageAt reading p position).map (personOf names)
  revision :=
    (parseHex ((populationDigest config stringify p.population).toList.take 12)).map (· + 1)
  next_cursor := if leavesMore reading p position then secret.value else ""

def cursorsLeft (p : Prepared) (now : Int) (position : Nat) (secret : CursorSecret)
    (cursors : List CensusCursor) : Except CensusFailure (List CensusCursor) :=
  if leavesMore reading p position then
    mint config reading stringify p now (pageEnd reading p position) secret cursors
  else .ok cursors

/-- A page of people, with the cursors it leaves. -/
def people (tables : CensusTables) (now : Int) (token : Option String) (cursor : String)
    (secret : CursorSecret) (cursors : List CensusCursor) :
    Except CensusFailure (People × List CensusCursor) := do
  let p ← prepare config reading tables now token
  match cursorPosition config stringify p now cursor cursors with
  | none => .error (.problem .unavailable)
  | some position =>
    let left ← cursorsLeft config reading stringify p now position secret cursors
    let body := pageBody config reading stringify tables.census_entry p position secret
    if peopleProfile body then .ok (body, left) else .error (.thrown "CENSUS_PROFILE")

end Census

/-! ### Runs -/

structure CensusState where
  cursors : List CensusCursor
  clock : Int

/-- One reading of the census, over the tables as they are then, or time that passes. -/
inductive CensusAct where
  | read (tables : CensusTables) (token : Option String) (cursor : String) (secret : CursorSecret)
  | tick (elapsed : Nat)

section Runs

variable (config : AccessConfig) (reading : ReadingConfig) (stringify : Population → String)

/-- What a reading comes to. What is thrown is rolled back, and what is answered without a page
leaves the cursors as they are. -/
def CensusState.answer (s : CensusState) :
    CensusAct → Option (Except CensusFailure (People × List CensusCursor))
  | .read tables token cursor secret =>
    some (people config reading stringify tables s.clock token cursor secret s.cursors)
  | .tick _ => none

def censusStep (s : CensusState) (act : CensusAct) : Option CensusState :=
  match act with
  | .read _ _ _ _ =>
    match s.answer config reading stringify act with
    | some (.ok (_, cursors)) => some { s with cursors }
    | _ => some s
  | .tick elapsed => some { s with clock := s.clock + elapsed }

end Runs

end LedgerDesk.Access
