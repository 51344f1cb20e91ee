import LedgerDesk.Access.Canonical
import LedgerDesk.Foundation.GuardedWalk

/-!
# The authority snapshot

The rows `InvitationAuthority` loads, and the evaluations it makes over them at an
instant. An evaluation answers, and it enters the instants it depends on into the deadline.
-/
namespace LedgerDesk.Access

open Foundation

inductive Family where
  | application
  | material_governance
  deriving DecidableEq, Repr

inductive Faculty where
  | exercise
  | grant
  deriving DecidableEq, Repr

inductive SupportKind where
  | domain
  | delegated
  deriving DecidableEq, Repr

structure Account where
  id : String
  person_ref : String
  restricted : Bool
  revision : Nat
  office : Option String
  deriving DecidableEq, Repr

structure PermissionDefinition where
  id : String
  label : String
  family : Family
  revision : Nat
  active : Bool
  requires_investiture : Bool
  deriving DecidableEq, Repr

structure ScopeDefinition where
  id : String
  parent_id : Option String
  label : String
  purpose_ref : String
  revision : Nat
  active : Bool
  deriving DecidableEq, Repr

structure SupportDefinition where
  id : String
  kind : SupportKind
  authority_id : Option String
  label : String
  expires_at : Int
  active : Bool
  revision : Nat
  deriving DecidableEq, Repr

structure GrantRecord where
  id : String
  account_id : String
  permission_id : String
  faculty : Faculty
  scope_ref : String
  support_ref : String
  expires_at : Int
  withdrawn : Bool
  revision : Nat
  deriving DecidableEq, Repr

/-- `termination` of a declaration, as far as its shape is recognised. -/
inductive Termination where
  | expires (at_ : Option Int)
  | revalidate (eventRef : Option String)
  | other
  deriving DecidableEq, Repr

/-- `continuousObligationAcceptanceRef`, which may be null but not absent. -/
inductive AcceptanceRef where
  | null
  | text (value : String)
  | other
  deriving DecidableEq, Repr

/-- The declaration of an investiture. A field that is not of its type is `none`. -/
structure Declaration where
  holderPersonRef : Option String
  revision : Option Int
  startsAt : Option Int
  termination : Termination
  issuerPersonRef : Option String
  issuerCapacityRef : Option String
  functionRef : Option String
  purposeRef : Option String
  maximumGradeRef : Option String
  independenceDeclarationRef : Option String
  replacementOrChallengeProcedureRef : Option String
  continuousObligationAcceptanceRef : AcceptanceRef
  matters : Option (List (Option String))
  partitions : Option (List (Option String))
  risks : Option (List (Option String))
  populationRef : Option String
  deriving DecidableEq, Repr

structure Investiture where
  id : String
  person_ref : String
  permission_id : String
  scope_ref : String
  declaration : Declaration
  expires_at : Int
  active : Bool
  revision : Nat
  deriving DecidableEq, Repr

structure Incompatibility where
  id : String
  first_permission : String
  second_permission : String
  scope_ref : String
  active : Bool
  deriving DecidableEq, Repr

structure RevalidationEvent where
  id : String
  current_until : Int
  satisfied : Bool
  deriving DecidableEq, Repr

structure InvestitureResolution where
  scope_ref : String
  permission_id : String
  selected_id : String
  active : Bool
  deriving DecidableEq, Repr

structure Authority where
  accounts : List Account
  permissions : List PermissionDefinition
  scopes : List ScopeDefinition
  supports : List SupportDefinition
  grants : List GrantRecord
  investitures : List Investiture
  rules : List Incompatibility
  revalidationEvents : List RevalidationEvent
  resolutions : List InvestitureResolution

/-! ### Declarations -/

def maxSafeInteger : Int := 9007199254740991

def isSafeInteger (n : Int) : Bool := decide (-maxSafeInteger ≤ n ∧ n ≤ maxSafeInteger)

def isRefStart (c : Char) : Bool := c.isAlphanum

def isRefRest (c : Char) : Bool :=
  c.isAlphanum || c == '.' || c == '_' || c == ':' || c == '-'

/-- `/^[A-Za-z0-9][A-Za-z0-9._:-]{0,127}$/`. -/
def isRef (value : String) : Bool :=
  match value.toList with
  | [] => false
  | c :: rest => isRefStart c && rest.all isRefRest && rest.length ≤ 127

def refField (value : Option String) : Bool := value.any isRef

def refList (value : Option (List (Option String))) : Bool := value.any fun refs => refs.all refField

/-- The instant a declaration lasts to, as its termination and the events have it. -/
def declarationDeadline (declaration : Declaration) (events : List RevalidationEvent) :
    Option Int :=
  match declaration.termination with
  | .expires at_ => at_.filter isSafeInteger
  | .revalidate (some eventRef) =>
    match events.filter fun e => e.id == eventRef && e.satisfied with
    | [e] => if isSafeInteger e.current_until then some e.current_until else none
    | _ => none
  | _ => none

def acceptanceWellFormed : AcceptanceRef → Bool
  | .null => true
  | .text value => isRef value
  | .other => false

def declarationWellFormed (d : Declaration) : Bool :=
  [d.issuerPersonRef, d.issuerCapacityRef, d.functionRef, d.purposeRef, d.maximumGradeRef,
    d.independenceDeclarationRef, d.replacementOrChallengeProcedureRef].all refField &&
    acceptanceWellFormed d.continuousObligationAcceptanceRef &&
    [d.matters, d.partitions, d.risks].all refList && refField d.populationRef

/-- What different maximum grades and purposes are told apart by. -/
def signature (i : Investiture) : Option String × Option String :=
  (i.declaration.purposeRef, i.declaration.maximumGradeRef)

/-- Different signatures are not merged: a scoped resolution selects one declaration. -/
def resolveDeclarations (current : List Investiture) (resolutions : List InvestitureResolution)
    (permission scope : String) : List Investiture :=
  match (current.map signature).dedup with
  | [] => []
  | [_] => current
  | _ =>
    let applicable := resolutions.filter fun r =>
      r.active && r.scope_ref == scope && r.permission_id == permission &&
        current.any fun i => i.id == r.selected_id
    match (applicable.map (·.selected_id)).dedup with
    | [selected] => current.filter fun i => i.id == selected
    | _ => []

/-! ### Verdicts -/

/-- A person, a permission and a scope whose declarations were resolved. -/
structure Consulted where
  person : String
  permission : String
  scope : String
  deriving DecidableEq, Repr

/-- What an evaluation answers, the instants it entered into the deadline, and the
declarations a positive answer rests on. -/
structure Verdict where
  holds : Bool
  bounds : List Int
  relied : List Consulted
  deriving DecidableEq, Repr

namespace Verdict

def of (holds : Bool) : Verdict := ⟨holds, [], []⟩

/-- The evaluation also entered these instants. -/
def entering (v : Verdict) (bounds : List Int) : Verdict := ⟨v.holds, bounds ++ v.bounds, v.relied⟩

/-- `&&`: the second is evaluated only where the first holds. -/
def andThen (v w : Verdict) : Verdict :=
  if v.holds then ⟨w.holds, v.bounds ++ w.bounds, v.relied ++ w.relied⟩ else v

/-- `||`: the second is evaluated only where the first fails. -/
def orElse (v w : Verdict) : Verdict :=
  if v.holds then v else ⟨w.holds, v.bounds ++ w.bounds, w.relied⟩

end Verdict

/-- The deadline starts at the largest safe integer and only comes down. -/
def deadline (bounds : List Int) : Int := bounds.foldl min maxSafeInteger

theorem lt_deadline {bounds : List Int} {t : Int} (early : t < deadline bounds) :
    ∀ b ∈ bounds, t < b := by
  have folded : ∀ (bounds : List Int) (first : Int), t < bounds.foldl min first →
      t < first ∧ ∀ b ∈ bounds, t < b := by
    intro bounds
    induction bounds with
    | nil => exact fun first early => ⟨early, nofun⟩
    | cons b bounds ih =>
      intro first early
      obtain ⟨below, rest⟩ := ih (min first b) early
      refine ⟨below.trans_le (min_le_left first b), fun c member => ?_⟩
      rcases List.mem_cons.mp member with rfl | later
      · exact below.trans_le (min_le_right first c)
      · exact rest c later
  exact (folded bounds maxSafeInteger early).2

/-- A grant or a support, as `visited` tells them apart. -/
inductive Node where
  | support (id : String)
  | grant (id : String)
  deriving DecidableEq, Repr

def visitBound : Nat := 32

namespace Authority

variable (a : Authority)

def account (id : String) : Option Account := a.accounts.find? (·.id == id)

def permission (id : String) : Option PermissionDefinition := a.permissions.find? (·.id == id)

def activeScope (id : String) : Option ScopeDefinition :=
  a.scopes.find? fun s => s.id == id && s.active

def support (id : String) : Option SupportDefinition := a.supports.find? (·.id == id)

def grant (id : String) : Option GrantRecord := a.grants.find? (·.id == id)

/-- Up the parents of the child, through active scopes, to the parent. -/
def contains (parent child : String) : Bool :=
  guardedWalk (fun n => n != "" && (a.activeScope n).isSome) (fun n => n == parent)
    (fun n => (a.activeScope n).bind (·.parent_id)) visitBound [] child

def applicable (now : Int) (person permission scope : String) (i : Investiture) : Bool :=
  i.active && i.person_ref == person && i.permission_id == permission && now < i.expires_at &&
    a.contains i.scope_ref scope && i.declaration.holderPersonRef == some person &&
    i.declaration.revision == some (i.revision : Int) &&
    i.declaration.startsAt.any (fun startsAt => isSafeInteger startsAt && startsAt ≤ now) &&
    now < (declarationDeadline i.declaration a.revalidationEvents).getD 0 &&
    declarationWellFormed i.declaration

def applicableInvestitures (now : Int) (person permission scope : String) : List Investiture :=
  (a.investitures.filter (a.applicable now person permission scope)).insertionSort
    fun i j => scalarOrder i.id j.id

/-- The declarations in force for a person, a permission and a scope. -/
def currentDeclarations (now : Int) (person permission scope : String) : List Investiture :=
  resolveDeclarations (a.applicableInvestitures now person permission scope) a.resolutions
    permission scope

def investitureBounds (i : Investiture) : List Int :=
  [i.expires_at, (declarationDeadline i.declaration a.revalidationEvents).getD 0]

def investitureAllows (now : Int) (account : Account) (permission scope : String) : Verdict :=
  match a.permission permission with
  | none => .of false
  | some p =>
    if !p.requires_investiture then .of true
    else
      let current := a.currentDeclarations now account.person_ref permission scope
      ⟨!current.isEmpty, current.flatMap a.investitureBounds,
        [⟨account.person_ref, permission, scope⟩]⟩

/-! ### Grants and supports -/

mutual

def supportAlive (now : Int) (visited : List Node) (id : String) : Verdict :=
  match a.support id with
  | none => .of false
  | some s =>
    if _ : s.active = true ∧ now < s.expires_at ∧ visited.length < visitBound ∧
        Node.support id ∉ visited then
      Verdict.entering
        (match s.kind with
        | .domain => .of true
        | .delegated =>
          match s.authority_id.bind a.grant with
          | none => .of false
          | some g => grantAlive now (.support id :: visited) g)
        [s.expires_at]
    else .of false
termination_by visitBound - visited.length
decreasing_by simp only [List.length_cons]; omega

def grantAlive (now : Int) (visited : List Node) (g : GrantRecord) : Verdict :=
  if _ : g.withdrawn = false ∧ now < g.expires_at ∧ Node.grant g.id ∉ visited ∧
      visited.length < visitBound then
    Verdict.entering
      (match a.account g.account_id, a.permission g.permission_id with
      | some account, some p =>
        if !account.restricted && p.active && a.contains g.scope_ref g.scope_ref then
          (a.investitureAllows now account g.permission_id g.scope_ref).andThen
            (supportAlive now (.grant g.id :: visited) g.support_ref)
        else .of false
      | _, _ => .of false)
      [g.expires_at]
  else .of false
termination_by visitBound - visited.length
decreasing_by simp only [List.length_cons]; omega

end

/-- `grants.some(…)`: evaluated up to the first grant that carries. -/
def anyGrant (now : Int) (carries : GrantRecord → Bool) : List GrantRecord → Verdict
  | [] => .of false
  | g :: grants =>
    if carries g then (a.grantAlive now [] g).orElse (anyGrant now carries grants)
    else anyGrant now carries grants

def carries (account : Account) (permission : String) (faculty : Faculty) (scope : String)
    (g : GrantRecord) : Bool :=
  g.account_id == account.id && g.permission_id == permission && g.faculty == faculty &&
    a.contains g.scope_ref scope

def allows (now : Int) (account : Option Account) (permission : String) (faculty : Faculty)
    (scope : String) : Verdict :=
  match account with
  | none => .of false
  | some account =>
    if account.restricted then .of false
    else
      (a.investitureAllows now account permission scope).andThen
        (a.anyGrant now (a.carries account permission faculty scope) a.grants)

/-! ### Reading, compiling and separation -/

def grades : List String := ["NONE", "EXISTENCE", "REFERENCE", "EXCERPT", "CONTENT"]

/-- The ceiling the declarations in force put on a reading for a purpose. -/
def declaredGrade (current : List Investiture) (purpose : String) : String :=
  match current with
  | [] => "NONE"
  | i :: _ =>
    if current.any (fun i => i.declaration.purposeRef != some purpose) then "NONE"
    else
      let grade := i.declaration.maximumGradeRef.getD ""
      if grade ∈ grades then grade else "NONE"

/-- The grade of a reading; its bounds are those of `allows`. -/
def readingMaximum (now : Int) (account : Option Account) (permission scope purpose : String) :
    String :=
  if (a.allows now account permission .exercise scope).holds then
    match account, a.permission permission with
    | some account, some p =>
      if p.requires_investiture then
        declaredGrade (a.currentDeclarations now account.person_ref permission scope) purpose
      else "CONTENT"
    | _, _ => "CONTENT"
  else "NONE"

end Authority

structure GrantSelector where
  permission_id : String
  exercise_or_grant : Faculty
  scope_ref : String
  support_ref : String
  deriving DecidableEq, Repr

structure DeclarationRef where
  declaration_ref : String
  revision : Nat
  deriving DecidableEq, Repr

structure InvitationTerm extends GrantSelector where
  permission_label : String
  scope_label : String
  purpose_ref : String
  support_label : String
  continuity : SupportKind
  permission_revision : Nat
  scope_revision : Nat
  support_revision : Nat
  expires_at : Int
  authority_declarations : List DeclarationRef
  deriving DecidableEq, Repr

/-- A permission over a scope, held or to be held. -/
structure Capability where
  permission_id : String
  scope_ref : String
  deriving DecidableEq, Repr

def GrantRecord.capability (g : GrantRecord) : Capability := ⟨g.permission_id, g.scope_ref⟩

def GrantSelector.capability (g : GrantSelector) : Capability := ⟨g.permission_id, g.scope_ref⟩

/-- The terms `compile` answers with, or none, with the instants it entered. -/
structure Compiled where
  terms : Option (List InvitationTerm)
  bounds : List Int
  relied : List Consulted

namespace Authority

variable (a : Authority)

def selectorKey (g : GrantSelector) : String × Faculty × String :=
  (g.permission_id, g.exercise_or_grant, g.scope_ref)

/-- A delegated support has to rest on the issuer's own power to grant there. -/
def parentCarries (account : Account) (support : SupportDefinition) (g : GrantSelector) : Bool :=
  support.kind == .domain || (support.authority_id.bind a.grant).any fun parent =>
    parent.account_id == account.id && parent.permission_id == g.permission_id &&
      parent.faculty == .grant && a.contains parent.scope_ref g.scope_ref

def authorityDeclarations (now : Int) (account : Account) (g : GrantSelector) :
    List DeclarationRef :=
  ["invite", g.permission_id].flatMap fun id =>
    if (a.permission id).any (·.requires_investiture) then
      (a.applicableInvestitures now account.person_ref id g.scope_ref).map fun i =>
        ⟨i.id, i.revision⟩
    else []

def termOf (now : Int) (account : Account) (g : GrantSelector) (p : PermissionDefinition)
    (s : ScopeDefinition) (support : SupportDefinition) : InvitationTerm where
  toGrantSelector := g
  permission_label := p.label
  scope_label := s.label
  purpose_ref := s.purpose_ref
  support_label := support.label
  continuity := support.kind
  permission_revision := p.revision
  scope_revision := s.revision
  support_revision := support.revision
  expires_at := support.expires_at
  authority_declarations := a.authorityDeclarations now account g

def selectorVerdict (now : Int) (account : Option Account) (g : GrantSelector) : Verdict :=
  (a.supportAlive now [] g.support_ref).andThen
    ((a.allows now account "invite" .exercise g.scope_ref).andThen
      (a.allows now account g.permission_id .grant g.scope_ref))

def compileFrom (now : Int) (account : Option Account) (family : Family)
    (seen : List (String × Faculty × String)) : List GrantSelector → Compiled
  | [] => ⟨some [], [], []⟩
  | g :: selectors =>
    if selectorKey g ∈ seen then ⟨none, [], []⟩
    else
      match a.permissions.find? (fun p => p.id == g.permission_id && p.active && p.family == family),
        a.activeScope g.scope_ref, a.support g.support_ref, account with
      | some p, some s, some support, some issuer =>
        let verdict := a.selectorVerdict now account g
        if verdict.holds && a.parentCarries issuer support g then
          let rest := compileFrom now account family (selectorKey g :: seen) selectors
          ⟨rest.terms.map (a.termOf now issuer g p s support :: ·), verdict.bounds ++ rest.bounds,
            verdict.relied ++ rest.relied⟩
        else ⟨none, verdict.bounds, verdict.relied⟩
      | _, _, _, _ => ⟨none, [], []⟩

def compile (now : Int) (account : Option Account) (family : Family)
    (selectors : List GrantSelector) : Compiled :=
  a.compileFrom now account family [] selectors

def heldBy (person : String) (g : GrantRecord) : Bool :=
  a.accounts.any fun account => account.id == g.account_id && account.person_ref == person

/-- The grants a person's accounts hold and that are alive. -/
def aliveGrants (now : Int) (person : String) : List GrantRecord :=
  a.grants.filter fun g => a.heldBy person g && (a.grantAlive now [] g).holds

/-- A declared function is not a grant, but the separation rules cover both. -/
def existing (now : Int) (person : String) : List Capability :=
  (a.aliveGrants now person).map GrantRecord.capability ++
    (a.investitures.filter fun i =>
      (a.applicableInvestitures now person i.permission_id i.scope_ref).any (·.id == i.id)).map
      fun i => ⟨i.permission_id, i.scope_ref⟩

def overlaps (x y : String) : Bool := a.contains x y || a.contains y x

def prohibits (x y : Capability) : Bool :=
  a.rules.any fun r =>
    r.active &&
      (r.first_permission == x.permission_id && r.second_permission == y.permission_id ||
        r.second_permission == x.permission_id && r.first_permission == y.permission_id) &&
      a.overlaps r.scope_ref x.scope_ref && a.overlaps r.scope_ref y.scope_ref &&
      a.overlaps x.scope_ref y.scope_ref

/-- A new grant may not create or reinforce a prohibited accumulation. -/
def incompatible (now : Int) (person : String) (additions : List GrantSelector) : Verdict where
  holds :=
    let added := additions.map GrantSelector.capability
    added.any fun x => (a.existing now person ++ added).any fun y => a.prohibits x y
  bounds := (a.grants.filter (a.heldBy person)).flatMap fun g => (a.grantAlive now [] g).bounds
  relied := []

end Authority

end LedgerDesk.Access
