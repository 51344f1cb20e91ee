import LedgerDesk.Foundation.JsonValue
import LedgerDesk.Foundation.PathTemplate

/-!
# Route paths

The paths of the access routes and of the intake routes, as they are built from parameters and resolved
again. No two templates that a resolver tries match the same path, and a value holds none of the letters
that a resolver turns away. So what has been built resolves to its route and its parameters, and what has
been resolved is built to the same text.
-/
namespace LedgerDesk.Contracts

open Foundation Foundation.JsonUnits Foundation.PathTemplate

/-! ### Parameters -/

/-- A record of texts. -/
structure Parameters where
  entries : List (List Nat × List Nat)
  distinct : (entries.map Prod.fst).Nodup

/-- `parameters[name] ?? ''`. -/
def Parameters.value (parameters : Parameters) (name : List Nat) : List Nat :=
  (parameters.entries.lookup name).getD []

/-- `Object.fromEntries`: of two entries with one key the later is kept. -/
def fromEntries : List (List Nat × List Nat) → Parameters
  | [] => ⟨[], List.nodup_nil⟩
  | e :: rest =>
    if fresh : e.1 ∈ (fromEntries rest).entries.map Prod.fst then fromEntries rest
    else ⟨e :: (fromEntries rest).entries, List.nodup_cons.mpr ⟨fresh, (fromEntries rest).distinct⟩⟩

theorem fromEntries_entries {l : List (List Nat × List Nat)} (distinct : (l.map Prod.fst).Nodup) :
    (fromEntries l).entries = l := by
  induction l with
  | nil => rfl
  | cons e rest ih =>
    rw [List.map_cons, List.nodup_cons] at distinct
    have kept := ih distinct.2
    rw [fromEntries, dif_neg (by rw [kept]; exact distinct.1)]
    exact congrArg (List.cons e) kept

theorem Parameters.value_of_mem {parameters : Parameters} {name value : List Nat}
    (member : (name, value) ∈ parameters.entries) : parameters.value name = value := by
  have distinct := parameters.distinct
  rw [Parameters.value]
  generalize parameters.entries = entries at member distinct
  induction entries with
  | nil => cases member
  | cons e rest ih =>
    rw [List.map_cons, List.nodup_cons] at distinct
    rcases List.mem_cons.mp member with rfl | later
    · rw [List.lookup_cons_self, Option.getD_some]
    · have other : (name == e.1) = false := by
        rw [beq_eq_false_iff_ne]
        rintro rfl
        exact distinct.1 (List.mem_map.mpr ⟨_, later, rfl⟩)
      rw [show e = (e.1, e.2) from rfl, List.lookup_cons, other]
      exact ih later distinct.2

/-- A name without a value reads as the empty text. -/
theorem Parameters.value_of_not_mem {parameters : Parameters} {name : List Nat}
    (absent : name ∉ parameters.entries.map Prod.fst) : parameters.value name = [] := by
  rw [Parameters.value, List.lookup_eq_none_iff.mpr]
  · rfl
  · intro e member
    rw [bne_iff_ne]
    rintro rfl
    exact absent (List.mem_map_of_mem member)

/-- Exactly these names, each with a value that is taken for it. -/
def Parameters.Assigns (parameters : Parameters) (names : List (List Nat))
    (accepts : List Nat → List Nat → Bool) : Prop :=
  (parameters.entries.map Prod.fst).Perm names ∧ ∀ e ∈ parameters.entries, accepts e.1 e.2 = true

/-- Two records of the same entries. -/
def Parameters.Same (a b : Parameters) : Prop := a.entries.Perm b.entries

theorem Parameters.entries_of_names {parameters : Parameters} {names : List (List Nat)}
    (keys : (parameters.entries.map Prod.fst).Perm names) :
    (names.map fun name => (name, parameters.value name)).Perm parameters.entries := by
  have read : (parameters.entries.map Prod.fst).map (fun name => (name, parameters.value name)) =
      parameters.entries := by
    rw [List.map_map]
    conv_rhs => rw [← List.map_id parameters.entries]
    apply List.map_congr_left
    intro e member
    exact congrArg (Prod.mk e.1) (Parameters.value_of_mem member)
  rw [← read]
  exact (keys.map _).symm.trans (by rw [read])

/-! ### Building and matching -/

/-- The path of a template, unless there is another number of parameters or one is not taken. -/
def buildPath (path : List Nat) (accepts : List Nat → List Nat → Bool) (parameters : Parameters) :
    Option (List Nat) :=
  let names := names (pieces path)
  if parameters.entries.length ≠ names.length ∨
      names.any (fun k => !accepts k (parameters.value k)) = true then none
  else some (fill (pieces path) parameters.value)

/-- The parameters a path gives a template. -/
def matchPath (path url : List Nat) : Option Parameters :=
  (matchPieces (pieces path) url).map fun values => fromEntries ((names (pieces path)).zip values)

/-- A template that can be built and resolved: straight, with every name once. -/
structure Template (path : List Nat) : Prop where
  straight : Straight (pieces path)
  distinct : (names (pieces path)).Nodup

instance (path : List Nat) : Decidable (Template path) :=
  decidable_of_iff (Straight (pieces path) ∧ (names (pieces path)).Nodup)
    ⟨fun h => ⟨h.1, h.2⟩, fun h => ⟨h.straight, h.distinct⟩⟩

section Build

variable {path : List Nat} {accepts : List Nat → List Nat → Bool}

/-- Only identifiers are taken. -/
def Careful (accepts : List Nat → List Nat → Bool) : Prop :=
  ∀ name value, accepts name value = true → isIdentifier value = true

theorem Parameters.Assigns.valid {parameters : Parameters} {names : List (List Nat)}
    (assigns : parameters.Assigns names accepts) (careful : Careful accepts) : ∀ name ∈ names, isIdentifier (parameters.value name) = true := by
  intro name member
  obtain ⟨e, entry, rfl⟩ := List.mem_map.mp (assigns.1.mem_iff.mpr member)
  rw [Parameters.value_of_mem entry]
  exact careful _ _ (assigns.2 e entry)

theorem buildPath_eq_some {parameters : Parameters} {url : List Nat} (template : Template path)
    (careful : Careful accepts) : buildPath path accepts parameters = some url ↔
      parameters.Assigns (names (pieces path)) accepts ∧ fill (pieces path) parameters.value = url := by
  rw [buildPath]
  split
  · next refused =>
    constructor
    · intro built
      cases built
    · rintro ⟨⟨keys, taken⟩, -⟩
      exfalso
      rcases refused with other | bad
      · exact other (by rw [← keys.length_eq, List.length_map])
      · obtain ⟨k, member, bad⟩ := List.any_eq_true.mp bad
        obtain ⟨e, entry, rfl⟩ := List.mem_map.mp (keys.mem_iff.mpr member)
        rw [Parameters.value_of_mem entry, taken e entry] at bad
        cases bad
  · next fine =>
    rw [not_or, not_not, List.any_eq_true] at fine
    obtain ⟨count, fine⟩ := fine
    have taken : ∀ k ∈ names (pieces path), accepts k (parameters.value k) = true := by
      intro k member
      by_contra bad
      exact fine ⟨k, member, by simpa using bad⟩
    have keyed : ∀ k ∈ names (pieces path), k ∈ parameters.entries.map Prod.fst := by
      intro k member
      by_contra absent
      have empty := careful k _ (taken k member)
      rw [Parameters.value_of_not_mem absent] at empty
      cases empty
    -- As many keys as names, and every name among them.
    have keys : (names (pieces path)).Perm (parameters.entries.map Prod.fst) :=
      (template.distinct.subperm keyed).perm_of_length_le (by rw [List.length_map, count])
    rw [Option.some.injEq]
    constructor
    · intro same
      refine ⟨⟨keys.symm, ?_⟩, same⟩
      intro e entry
      have here := taken e.1 (keys.mem_iff.mpr (List.mem_map_of_mem entry))
      rwa [Parameters.value_of_mem entry] at here
    · exact And.right

theorem matchPath_eq_some {url : List Nat} {parameters : Parameters} (template : Template path)
    (matched : matchPath path url = some parameters) :
    parameters.entries.map Prod.fst = names (pieces path) ∧
      (∀ e ∈ parameters.entries, isIdentifier e.2 = true) ∧
      Fits (pieces path) url ((names (pieces path)).map parameters.value) := by
  obtain ⟨values, found, rfl⟩ := Option.map_eq_some_iff.mp matched
  have fits := fits_of_match found
  have keys : ((names (pieces path)).zip values).map Prod.fst = names (pieces path) :=
    List.map_fst_zip fits.length.ge
  have entries := fromEntries_entries (l := (names (pieces path)).zip values) (by
    rw [keys]
    exact template.distinct)
  have read : (names (pieces path)).map (fromEntries ((names (pieces path)).zip values)).value =
      values := by
    apply List.ext_getElem (by rw [List.length_map, fits.length])
    intro i below below'
    rw [List.getElem_map]
    apply Parameters.value_of_mem
    rw [entries, ← List.getElem_zip (h := by
      rw [List.length_zip]
      rw [List.length_map] at below
      omega)]
    exact List.getElem_mem _
  refine ⟨by rw [entries, keys], ?_, by rwa [read]⟩
  rw [entries]
  intro e member
  exact fits.valid e.2 (List.of_mem_zip member).2

/-- What has been built gives its template the parameters it was built from. -/
theorem matchPath_of_build {parameters : Parameters} {url : List Nat} (template : Template path)
    (careful : Careful accepts) (built : buildPath path accepts parameters = some url) :
    ∃ resolved, matchPath path url = some resolved ∧ resolved.Same parameters := by
  obtain ⟨assigns, filled⟩ := (buildPath_eq_some template careful).mp built
  have fits := fits_fill (assigns.valid careful)
  rw [filled] at fits
  refine ⟨_, by rw [matchPath, (match_iff template.straight).mpr fits, Option.map_some], ?_⟩
  have zipped : (names (pieces path)).zip ((names (pieces path)).map parameters.value) =
      (names (pieces path)).map fun name => (name, parameters.value name) := by
    simpa using List.zip_map' (f := id) (g := parameters.value) (l := names (pieces path))
  rw [Parameters.Same, zipped, fromEntries_entries]
  · exact Parameters.entries_of_names assigns.1
  · simpa [Function.comp_def] using template.distinct

/-- What a template matches is built from what it gives, when the values are taken. -/
theorem build_of_matchPath {parameters : Parameters} {url : List Nat} (template : Template path)
    (careful : Careful accepts) (matched : matchPath path url = some parameters)
    (taken : ∀ e ∈ parameters.entries, accepts e.1 e.2 = true) :
    buildPath path accepts parameters = some url := by
  obtain ⟨keys, -, fits⟩ := matchPath_eq_some template matched
  rw [buildPath_eq_some template careful]
  exact ⟨⟨by rw [keys], taken⟩, fits.fill rfl⟩

/-- Templates that stand apart match no path in common. -/
theorem matchPath_apart {path' url : List Nat} {parameters parameters' : Parameters}
    (template : Template path) (template' : Template path')
    (different : apart (pieces path) (pieces path') = true)
    (matched : matchPath path url = some parameters) : matchPath path' url ≠ some parameters' := by
  intro matched'
  exact not_fits_of_apart template.straight template'.straight different
    (matchPath_eq_some template matched).2.2 (matchPath_eq_some template' matched').2.2

end Build

/-! ### What no path has -/

/-- `/[?%#\\]/`. -/
def isTurnedAway (c : Nat) : Bool :=
  c == '?'.toNat || c == '%'.toNat || c == '#'.toNat || c == '\\'.toNat

theorem not_turnedAway_of_isIdentifier {value : List Nat} (valid : isIdentifier value = true) :
    ∀ c ∈ value, isTurnedAway c = false := by
  intro c member
  have plain : isAlnum c = true ∨ c = 46 ∨ c = 95 ∨ c = 58 ∨ c = 45 := by
    cases value with
    | nil => cases member
    | cons d rest =>
      simp only [isIdentifier, Bool.and_eq_true, List.all_eq_true, Bool.or_eq_true, beq_iff_eq] at valid
      rcases List.mem_cons.mp member with rfl | member
      · exact Or.inl valid.1.1
      · have := valid.2 c member
        tauto
  rw [Bool.eq_false_iff]
  intro away
  simp only [isTurnedAway, Bool.or_eq_true, beq_iff_eq] at away
  rcases away with ((rfl | rfl) | rfl) | rfl <;> revert plain <;> decide

def letters (ps : List Piece) : List Nat :=
  ps.filterMap fun p => match p with
    | .letter c => some c
    | .parameter _ => none

/-- A letter that stands for itself in a pattern. -/
def isPatternLetter (c : Nat) : Bool := isAlnum c || c == '/'.toNat || c == '-'.toNat

theorem not_turnedAway_of_isPatternLetter {c : Nat} (plain : isPatternLetter c = true) :
    isTurnedAway c = false := by
  rw [Bool.eq_false_iff]
  intro away
  simp only [isTurnedAway, Bool.or_eq_true, beq_iff_eq] at away
  rcases away with ((rfl | rfl) | rfl) | rfl <;> revert plain <;> decide

theorem fill_clean {ps : List Piece} {value : List Nat → List Nat}
    (plain : ∀ c ∈ letters ps, isPatternLetter c = true)
    (valid : ∀ name ∈ names ps, isIdentifier (value name) = true) :
    (fill ps value).any isTurnedAway = false := by
  rw [List.any_eq_false]
  intro c member
  rw [Bool.not_eq_true]
  obtain ⟨p, piece, inside⟩ := List.mem_flatMap.mp member
  cases p with
  | letter d =>
    rw [List.mem_singleton.mp inside]
    exact not_turnedAway_of_isPatternLetter (plain d (List.mem_filterMap.mpr ⟨_, piece, rfl⟩))
  | parameter name =>
    refine not_turnedAway_of_isIdentifier (valid name ?_) c inside
    exact List.mem_filterMap.mpr ⟨_, piece, rfl⟩

theorem fill_start {start : List Nat} {ps : List Piece} (begins : start.map .letter <+: ps)
    (value : List Nat → List Nat) : start.isPrefixOf (fill ps value) = true := by
  obtain ⟨rest, rfl⟩ := begins
  rw [List.isPrefixOf_iff_prefix]
  refine ⟨fill rest value, ?_⟩
  rw [fill, fill, List.flatMap_append, List.flatMap_map]
  congr 1
  exact (List.flatMap_singleton' start).symm

/-! ### The tables -/

inductive Consumer where
  | t02
  | t03
  | t04
  deriving DecidableEq, Repr

inductive AccessRoute where
  | reception | activationChallenge | activateMaster | login | logout | recoveryChallenge
  | recoverCredential | issueInvitation | amendInvitation | invitationView | invitationChallenge
  | verifyInvitationEmail | acceptInvitation | initialCredential | withdrawInvitation
  | withdrawGrant | currentSession | capabilities | people | operationResult
  deriving DecidableEq, Repr

/-- `Object.entries(ACCESS_ROUTES)`: the routes in the order of the table. -/
def accessRoutes : List AccessRoute :=
  [.reception, .activationChallenge, .activateMaster, .login, .logout, .recoveryChallenge,
    .recoverCredential, .issueInvitation, .amendInvitation, .invitationView,
    .invitationChallenge, .verifyInvitationEmail, .acceptInvitation, .initialCredential,
    .withdrawInvitation, .withdrawGrant, .currentSession, .capabilities, .people,
    .operationResult]

structure AccessDefinition where
  path : List Nat
  consumer : Consumer

def AccessRoute.definition : AccessRoute → AccessDefinition
  | .reception => ⟨units "/api/access/v1/reception", .t02⟩
  | .activationChallenge => ⟨units "/api/access/v1/activation/challenges", .t02⟩
  | .activateMaster => ⟨units "/api/access/v1/activation/complete", .t02⟩
  | .login => ⟨units "/api/access/v1/sessions", .t02⟩
  | .logout => ⟨units "/api/access/v1/sessions/logout", .t02⟩
  | .recoveryChallenge => ⟨units "/api/access/v1/recovery/challenges", .t02⟩
  | .recoverCredential => ⟨units "/api/access/v1/recovery/complete", .t02⟩
  | .issueInvitation => ⟨units "/api/access/v1/invitations", .t03⟩
  | .amendInvitation => ⟨units "/api/access/v1/invitations/:invitation_id/amend", .t03⟩
  | .invitationView => ⟨units "/api/access/v1/invitations/:invitation_id", .t03⟩
  | .invitationChallenge => ⟨units "/api/access/v1/invitations/:invitation_id/challenges", .t03⟩
  | .verifyInvitationEmail => ⟨units "/api/access/v1/invitation-proofs/:challenge_id/verify", .t03⟩
  | .acceptInvitation => ⟨units "/api/access/v1/invitations/:invitation_id/accept", .t03⟩
  | .initialCredential => ⟨units "/api/access/v1/account/initial-credential", .t03⟩
  | .withdrawInvitation => ⟨units "/api/access/v1/invitations/:invitation_id/withdraw", .t03⟩
  | .withdrawGrant => ⟨units "/api/access/v1/grants/:grant_id/withdraw", .t03⟩
  | .currentSession => ⟨units "/api/access/v1/session", .t02⟩
  | .capabilities => ⟨units "/api/access/v1/capabilities", .t02⟩
  | .people => ⟨units "/api/access/v1/people", .t04⟩
  | .operationResult => ⟨units "/api/access/v1/operations/:operation_id", .t03⟩

inductive IntakeRoute where
  | profiles | reserveReception | uploadOriginal | finalizeReception | lookupOperation
  | resumeReception | cancelReception | reception | original | extraction | reservePreparation
  | uploadPreparation | finalizePreparation | preparation | resource | difference | propose
  | constitute
  deriving DecidableEq, Repr

structure RouteDefinition where
  method : List Nat
  path : List Nat

def route (method path : String) : RouteDefinition :=
  ⟨units method, units "/api/intake" ++ units path⟩

def IntakeRoute.definition : IntakeRoute → RouteDefinition
  | .profiles => route "GET" "/profiles"
  | .reserveReception => route "POST" "/receptions"
  | .uploadOriginal => route "POST" "/receptions/:id/attempts/:generation/original"
  | .finalizeReception => route "POST" "/receptions/:id/finalize"
  | .lookupOperation => route "POST" "/operations/lookup"
  | .resumeReception => route "POST" "/receptions/:id/resume"
  | .cancelReception => route "POST" "/receptions/:id/cancel"
  | .reception => route "GET" "/receptions/:id"
  | .original => route "GET" "/receptions/:id/original"
  | .extraction => route "GET" "/extractions/:id"
  | .reservePreparation => route "POST" "/preparation-attempts"
  | .uploadPreparation => route "POST" "/preparation-attempts/:id/content"
  | .finalizePreparation => route "POST" "/preparation-attempts/:id/finalize"
  | .preparation => route "GET" "/preparations/:id/revisions/:revision"
  | .resource => route "GET" "/preparations/:id/revisions/:revision/resources/:resource_id"
  | .difference => route "GET" "/differences/:id"
  | .propose => route "POST" "/preparations/:id/revisions/:revision/proposals"
  | .constitute => route "POST" "/constitutions"

/-- `RECEPTION_ROUTES`. -/
def receptionRoutes : List IntakeRoute :=
  [.profiles, .reserveReception, .uploadOriginal, .finalizeReception, .lookupOperation,
    .resumeReception, .cancelReception, .reception, .original]

/-! ### The builders and the resolvers -/

def routeId (text : List Nat) : Bool := isIdentifier text

def accessPath (route : AccessRoute) (parameters : Parameters) : Option (List Nat) :=
  buildPath route.definition.path (fun _ value => routeId value) parameters

/-- One route, tried on the path. -/
def resolveAs (url : List Nat) (route : AccessRoute) : Option (AccessRoute × Parameters) :=
  if route.definition.consumer ≠ .t02 ∧ route.definition.consumer ≠ .t03 then none
  else (matchPath route.definition.path url).map fun parameters => (route, parameters)

def resolveAccessPath (url : List Nat) : Option (AccessRoute × Parameters) :=
  if url.any isTurnedAway = true then none else accessRoutes.findSome? (resolveAs url)

def generationName : List Nat := units "generation"

def revisionName : List Nat := units "revision"

/-- `/^[1-9][0-9]*$/`. -/
def isCount : List Nat → Bool
  | [] => false
  | d :: rest => isDigit d && d != 48 && rest.all isDigit

section Intake

variable {ν : Type} (N : Numbers ν)

/-- `revision(Number(text))`: a safe integer above zero. -/
def revisionOf (text : List Nat) : Bool := (N.natural (N.ofText text)).any fun k => decide (0 < k)

/-- What a parameter of an intake route may be. -/
def acceptsIntake (name value : List Nat) : Bool :=
  isIdentifier value &&
    (decide (name ≠ generationName ∧ name ≠ revisionName) || isCount value && revisionOf N value)

def intakePath (key : IntakeRoute) (parameters : Parameters) : Option (List Nat) :=
  buildPath key.definition.path (acceptsIntake N) parameters

/-- The generation a path names, unless it is no revision. -/
def generationRefused (parameters : Parameters) : Bool :=
  let generation := parameters.value generationName
  decide (generation ≠ []) && (!isCount generation || !revisionOf N generation)

/-- The routes that are left, each tried on the path. -/
def resolveAmong (method raw : List Nat) : List IntakeRoute → Option (IntakeRoute × Parameters)
  | [] => none
  | key :: rest =>
    if key.definition.method ≠ method then resolveAmong method raw rest
    else match matchPath key.definition.path raw with
      | none => resolveAmong method raw rest
      | some parameters => if generationRefused N parameters = true then none else some (key, parameters)

def resolveReceptionPath (method raw : List Nat) : Option (IntakeRoute × Parameters) :=
  if !(units "/api/intake/").isPrefixOf raw || raw.any isTurnedAway then none
  else resolveAmong N method raw receptionRoutes

end Intake

/-! ### What the tables are -/

theorem AccessRoute.listed (route : AccessRoute) : route ∈ accessRoutes := by
  cases route <;> decide

/-- The paths of the table can be built and resolved, and no two of them match a path in common. -/
theorem access_table :
    (∀ path ∈ accessRoutes.map fun route => route.definition.path,
      Template path ∧ ∀ c ∈ letters (pieces path), isPatternLetter c = true) ∧
    (accessRoutes.map fun route => route.definition.path).Pairwise fun p q =>
      apart (pieces p) (pieces q) = true := by
  simp only [accessRoutes, List.map_cons, List.map_nil, AccessRoute.definition, units]
  -- The kernel is slow to decode a text, so the characters are spelled out for it.
  repeat rw [String.toList_ofList]
  decide +kernel

theorem access_templates (route : AccessRoute) : Template route.definition.path :=
  (access_table.1 _ (List.mem_map_of_mem route.listed)).1

theorem access_letters (route : AccessRoute) :
    ∀ c ∈ letters (pieces route.definition.path), isPatternLetter c = true :=
  (access_table.1 _ (List.mem_map_of_mem route.listed)).2

theorem access_apart : accessRoutes.Pairwise fun a b =>
    apart (pieces a.definition.path) (pieces b.definition.path) = true :=
  List.pairwise_map.mp access_table.2

theorem reception_table : ∀ path ∈ receptionRoutes.map fun key => key.definition.path,
    Template path ∧ (∀ c ∈ letters (pieces path), isPatternLetter c = true) ∧
      (units "/api/intake/").map .letter <+: pieces path ∧
      revisionName ∉ names (pieces path) := by
  simp only [receptionRoutes, List.map_cons, List.map_nil, IntakeRoute.definition, route,
    revisionName, units]
  repeat rw [String.toList_ofList]
  decide +kernel

/-- Two routes of one method; routes of different methods may share a path. -/
theorem reception_apart : receptionRoutes.Pairwise fun a b =>
    a.definition.method = b.definition.method →
      apart (pieces a.definition.path) (pieces b.definition.path) = true := by
  refine List.pairwise_map (f := fun key : IntakeRoute => key.definition)
    (R := fun p q => p.method = q.method → apart (pieces p.path) (pieces q.path) = true) |>.mp ?_
  simp only [receptionRoutes, List.map_cons, List.map_nil, IntakeRoute.definition, route, units]
  repeat rw [String.toList_ofList]
  decide +kernel

section Listed

variable {key : IntakeRoute} (member : key ∈ receptionRoutes)

include member

theorem reception_templates : Template key.definition.path :=
  (reception_table _ (List.mem_map_of_mem member)).1

theorem reception_letters : ∀ c ∈ letters (pieces key.definition.path), isPatternLetter c = true :=
  (reception_table _ (List.mem_map_of_mem member)).2.1

theorem reception_start : (units "/api/intake/").map .letter <+: pieces key.definition.path :=
  (reception_table _ (List.mem_map_of_mem member)).2.2.1

theorem reception_names : revisionName ∉ names (pieces key.definition.path) :=
  (reception_table _ (List.mem_map_of_mem member)).2.2.2

end Listed

/-! ### Access routes -/

/-- The routes the access service answers. -/
def AccessRoute.Answered (route : AccessRoute) : Prop :=
  route.definition.consumer = .t02 ∨ route.definition.consumer = .t03

instance (route : AccessRoute) : Decidable route.Answered :=
  inferInstanceAs (Decidable (_ ∨ _))

/-- What a route's parameters may be. -/
def AccessRoute.Takes (route : AccessRoute) (parameters : Parameters) : Prop :=
  parameters.Assigns (names (pieces route.definition.path)) fun _ value => routeId value

theorem routeId_careful : Careful fun _ value => routeId value := fun _ _ valid => valid

theorem accessPath_eq_some {route : AccessRoute} {parameters : Parameters} {url : List Nat} :
    accessPath route parameters = some url ↔ route.Takes parameters ∧
      fill (pieces route.definition.path) parameters.value = url :=
  buildPath_eq_some (access_templates route) routeId_careful

/-- Of the routes that are tried none before this one matches. -/
theorem access_found {routes : List AccessRoute} {url : List Nat} {route : AccessRoute}
    {parameters : Parameters}
    (separate : routes.Pairwise fun a b =>
      apart (pieces a.definition.path) (pieces b.definition.path) = true)
    (member : route ∈ routes) (answered : route.Answered)
    (matched : matchPath route.definition.path url = some parameters) :
    routes.findSome? (resolveAs url) = some (route, parameters) := by
  have tried : ¬(route.definition.consumer ≠ .t02 ∧ route.definition.consumer ≠ .t03) := by
    rintro ⟨first, second⟩
    exact answered.elim first second
  induction routes with
  | nil => cases member
  | cons first rest ih =>
    rw [List.pairwise_cons] at separate
    rw [List.findSome?_cons, resolveAs]
    rcases List.mem_cons.mp member with rfl | later
    · rw [if_neg tried, matched, Option.map_some]
    · have passed : matchPath first.definition.path url = none := by
        cases other : matchPath first.definition.path url with
        | none => rfl
        | some parameters' =>
          exact absurd matched (matchPath_apart (access_templates first)
            (access_templates route) (separate.1 route later) other)
      rw [passed, Option.map_none, ite_self]
      exact ih separate.2 later

theorem access_built {route : AccessRoute} {parameters : Parameters} {url : List Nat}
    (answered : route.Answered) (built : accessPath route parameters = some url) :
    ∃ resolved, resolveAccessPath url = some (route, resolved) ∧ resolved.Same parameters := by
  obtain ⟨resolved, matched, same⟩ :=
    matchPath_of_build (access_templates route) routeId_careful built
  obtain ⟨takes, filled⟩ := accessPath_eq_some.mp built
  have clean := fill_clean (access_letters route) (takes.valid routeId_careful)
  rw [filled] at clean
  refine ⟨resolved, ?_, same⟩
  rw [resolveAccessPath, if_neg (by rw [clean]; decide)]
  exact access_found access_apart route.listed answered matched

theorem access_resolved {url : List Nat} {route : AccessRoute} {parameters : Parameters}
    (resolved : resolveAccessPath url = some (route, parameters)) :
    route.Answered ∧ accessPath route parameters = some url := by
  rw [resolveAccessPath] at resolved
  split at resolved
  · cases resolved
  · obtain ⟨r, member, found⟩ := List.exists_of_findSome?_eq_some resolved
    rw [resolveAs] at found
    split at found
    · cases found
    · next tried =>
      obtain ⟨p, matched, pair⟩ := Option.map_eq_some_iff.mp found
      cases pair
      have template := access_templates route
      refine ⟨?_, build_of_matchPath template routeId_careful matched
        (matchPath_eq_some template matched).2.1⟩
      by_contra neither
      exact tried (not_or.mp neither)

/-! ### Reception routes -/

section Reception

variable {ν : Type} {N : Numbers ν}

def IntakeRoute.Takes (N : Numbers ν) (key : IntakeRoute) (parameters : Parameters) : Prop :=
  parameters.Assigns (names (pieces key.definition.path)) (acceptsIntake N)

theorem acceptsIntake_careful : Careful (acceptsIntake N) := by
  intro name value taken
  rw [acceptsIntake, Bool.and_eq_true] at taken
  exact taken.1

theorem intakePath_eq_some {key : IntakeRoute} {parameters : Parameters} {raw : List Nat}
    (member : key ∈ receptionRoutes) : intakePath N key parameters = some raw ↔
      key.Takes N parameters ∧ fill (pieces key.definition.path) parameters.value = raw :=
  buildPath_eq_some (reception_templates member) acceptsIntake_careful

/-- A generation that is taken is not refused. -/
theorem generation_taken {parameters : Parameters} {names : List (List Nat)}
    (assigns : parameters.Assigns names (acceptsIntake N)) : generationRefused N parameters = false := by
  rw [Bool.eq_false_iff]
  intro refused
  simp only [generationRefused, Bool.and_eq_true, decide_eq_true_eq] at refused
  have entry : generationName ∈ parameters.entries.map Prod.fst := by
    by_contra absent
    exact refused.1 (Parameters.value_of_not_mem absent)
  obtain ⟨e, entry, named⟩ := List.mem_map.mp entry
  have taken := assigns.2 e entry
  rw [← named, Parameters.value_of_mem entry] at refused
  rw [acceptsIntake, named] at taken
  simp only [ne_eq, not_true_eq_false, false_and, decide_false, Bool.false_or,
    Bool.and_eq_true] at taken
  rw [taken.2.1, taken.2.2] at refused
  exact absurd refused.2 (by decide)

/-- What a reception path gives its template is taken, unless its generation is refused. -/
theorem taken_of_matchPath {key : IntakeRoute} {parameters : Parameters} {raw : List Nat}
    (member : key ∈ receptionRoutes) (matched : matchPath key.definition.path raw = some parameters)
    (fine : generationRefused N parameters = false) :
    ∀ e ∈ parameters.entries, acceptsIntake N e.1 e.2 = true := by
  intro e entry
  obtain ⟨keys, valid, -⟩ := matchPath_eq_some (reception_templates member) matched
  have value := Parameters.value_of_mem entry
  have identifier := valid e entry
  rw [acceptsIntake, identifier, Bool.true_and, Bool.or_eq_true, decide_eq_true_eq, Bool.and_eq_true]
  by_cases generation : e.1 = generationName
  · right
    rw [generation] at value
    rw [generationRefused, value] at fine
    have some_text : e.2 ≠ [] := by
      intro empty
      rw [empty] at identifier
      cases identifier
    simpa [some_text] using fine
  · left
    refine ⟨generation, ?_⟩
    intro revision
    -- No reception template names a revision.
    apply reception_names member
    rw [← keys, ← revision]
    exact List.mem_map_of_mem entry

theorem reception_found {keys : List IntakeRoute} {raw : List Nat} {key : IntakeRoute}
    {parameters : Parameters} (known : ∀ k ∈ keys, k ∈ receptionRoutes)
    (separate : keys.Pairwise fun a b => a.definition.method = b.definition.method →
      apart (pieces a.definition.path) (pieces b.definition.path) = true)
    (member : key ∈ keys) (matched : matchPath key.definition.path raw = some parameters)
    (fine : generationRefused N parameters = false) :
    resolveAmong N key.definition.method raw keys = some (key, parameters) := by
  induction keys with
  | nil => cases member
  | cons first rest ih =>
    rw [List.pairwise_cons] at separate
    have later := ih (fun k below => known k (List.mem_cons_of_mem _ below)) separate.2
    rw [resolveAmong]
    rcases List.mem_cons.mp member with rfl | below
    · rw [if_neg (not_not.mpr rfl), matched]
      exact if_neg (by rw [fine]; decide)
    · split
      · exact later below
      · next same =>
        have passed : matchPath first.definition.path raw = none := by
          cases other : matchPath first.definition.path raw with
          | none => rfl
          | some parameters' =>
            exact absurd matched (matchPath_apart
              (reception_templates (known first (List.mem_cons_self ..)))
              (reception_templates (known key member))
              (separate.1 key below (not_not.mp same)) other)
        rw [passed]
        exact later below

theorem among_resolved {keys : List IntakeRoute} {method raw : List Nat} {key : IntakeRoute}
    {parameters : Parameters} (resolved : resolveAmong N method raw keys = some (key, parameters)) :
    key ∈ keys ∧ key.definition.method = method ∧
      matchPath key.definition.path raw = some parameters ∧ generationRefused N parameters = false := by
  induction keys with
  | nil => cases resolved
  | cons first rest ih =>
    rw [resolveAmong] at resolved
    split at resolved
    · obtain ⟨below, found⟩ := ih resolved
      exact ⟨List.mem_cons_of_mem _ below, found⟩
    · next same =>
      split at resolved
      · obtain ⟨below, found⟩ := ih resolved
        exact ⟨List.mem_cons_of_mem _ below, found⟩
      · next p matched =>
        split at resolved
        · cases resolved
        · next fine =>
          cases resolved
          exact ⟨List.mem_cons_self .., not_not.mp same, matched, by simpa using fine⟩

theorem reception_built {key : IntakeRoute} {parameters : Parameters} {raw : List Nat}
    (member : key ∈ receptionRoutes) (built : intakePath N key parameters = some raw) :
    ∃ resolved, resolveReceptionPath N key.definition.method raw = some (key, resolved) ∧
      resolved.Same parameters := by
  have template := reception_templates member
  obtain ⟨resolved, matched, same⟩ := matchPath_of_build template acceptsIntake_careful built
  obtain ⟨takes, filled⟩ := (intakePath_eq_some member).mp built
  have clean := fill_clean (reception_letters member) (takes.valid acceptsIntake_careful)
  have begins := fill_start (reception_start member) parameters.value
  rw [filled] at clean begins
  obtain ⟨keys, -, -⟩ := matchPath_eq_some template matched
  have taken : resolved.Assigns (names (pieces key.definition.path)) (acceptsIntake N) :=
    ⟨by rw [keys], fun e entry => takes.2 e (same.mem_iff.mp entry)⟩
  refine ⟨resolved, ?_, same⟩
  rw [resolveReceptionPath, begins, clean]
  exact reception_found (fun _ known => known) reception_apart member matched (generation_taken taken)

theorem reception_resolved {method raw : List Nat} {key : IntakeRoute} {parameters : Parameters}
    (resolved : resolveReceptionPath N method raw = some (key, parameters)) :
    key ∈ receptionRoutes ∧ key.definition.method = method ∧
      intakePath N key parameters = some raw := by
  rw [resolveReceptionPath] at resolved
  split at resolved
  · cases resolved
  · obtain ⟨member, asked, matched, fine⟩ := among_resolved resolved
    exact ⟨member, asked, build_of_matchPath (reception_templates member) acceptsIntake_careful
      matched (taken_of_matchPath member matched fine)⟩

end Reception

end LedgerDesk.Contracts
