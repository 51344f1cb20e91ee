import LedgerDesk.Agents.Injective
import LedgerDesk.Reading.Projection

/-!
# What a reading gives away

A reading is the work of the materials whose grant reaches a reference, and for a list of whether one
may be known to exist. Every other material is hidden: it leaves nothing in the body, in the order or
in the status. What is shown stays within its grant, and is granted until the expiry passes.
-/
namespace LedgerDesk.Reading

open Agents (Json codeUnits codeUnits_injective)

/-! ### What a projection holds -/

theorem item_of_all_mapM {α β : Type} {read : α → Option β} {items : List α} {values : List β}
    (all : items.mapM read = some values) {value : β} (member : value ∈ values) :
    ∃ item ∈ items, read item = some value := by
  induction items generalizing values with
  | nil =>
    cases all
    cases member
  | cons item items ih =>
    rw [List.mapM_cons] at all
    simp only [Option.bind_eq_bind, Option.bind_eq_some_iff, Option.pure_def,
      Option.some.injEq] at all
    obtain ⟨first, read_first, rest, read_rest, rfl⟩ := all
    rcases List.mem_cons.mp member with rfl | later
    · exact ⟨item, List.mem_cons_self, read_first⟩
    · obtain ⟨found, among, reads⟩ := ih read_rest later
      exact ⟨found, List.mem_cons_of_mem _ among, reads⟩

section Projected

variable {material : StoredMaterial} {grant : Grant}

/-- What is shown of a material is within its grant. -/
structure Within (material : StoredMaterial) (grant : Grant) (projection : Projection) : Prop where
  reference : projection.reference = material.reference
  kind : projection.view.kind.level ≤ grant.maximum.level
  metadata : ∀ key, projection.metadata.has key →
    key ∈ grant.metadata ∧ (material.metadata.lookup key.text).isSome
  fragments : ∀ fragment ∈ projection.view.fragments,
    fragment.fragment_id ∈ grant.fragmentIds ∧
      fragment.text.toList <:+: material.originalText.toList ∧
      (fragment.locator.isSome → fragment.fragment_id ∈ grant.fragmentLocatorIds)
  content : ∀ language text, projection.view = .CONTENT language text →
    language = material.originalLanguage ∧ text = material.originalText

theorem text_injective : Function.Injective MetadataKey.text := by
  intro a b same
  cases a <;> cases b <;> first | rfl | (exfalso; revert same; decide)

/-- A key that is shown is granted, and stored. -/
theorem permittedMetadata_lookup {key : MetadataKey} {value : Json}
    (found : (permittedMetadata material grant).lookup key.text = some value) :
    key ∈ grant.metadata ∧ material.metadata.lookup key.text = some value := by
  obtain ⟨before, after, whole, -⟩ := List.lookup_eq_some_iff.mp found
  have among : (key.text, value) ∈ permittedMetadata material grant := by
    rw [whole]
    simp
  obtain ⟨other, -, kept⟩ := List.mem_filterMap.mp among
  split at kept
  · next granted =>
    obtain ⟨stored, at_key, pair⟩ := Option.map_eq_some_iff.mp kept
    obtain ⟨same_text, same_value⟩ := Prod.mk.inj pair
    obtain rfl := text_injective same_text
    exact ⟨granted, same_value ▸ at_key⟩
  · cases kept

theorem optionalField_some {α : Type} {members : List (String × Json)} {key : String}
    {read : Json → Option α} {value : Option α} (found : optionalField members key read = some value)
    (present : value.isSome) : (members.lookup key).isSome := by
  rw [optionalField] at found
  split at found
  · cases found
    cases present
  · next stored known => rw [known]; rfl

theorem readMetadata_has {members : List (String × Json)} {metadata : Metadata}
    (shown : readMetadata members = some metadata) {key : MetadataKey} (has : metadata.has key) :
    (members.lookup key.text).isSome := by
  simp only [readMetadata, Option.bind_eq_bind, Option.bind_eq_some_iff, Option.pure_def,
    Option.some.injEq] at shown
  obtain ⟨title, title_read, locator, locator_read, state, state_read, classification,
    classification_read, conditions, conditions_read, rfl⟩ := shown
  cases key with
  | title => exact optionalField_some title_read has
  | locator => exact optionalField_some locator_read has
  | editorial_state => exact optionalField_some state_read has
  | classification => exact optionalField_some classification_read has
  | reading_conditions => exact optionalField_some conditions_read has

/-- A fragment that is kept is granted, and has a locator only if that is. -/
theorem permittedFragments_granted {fragments : List RawFragment}
    (kept : permittedFragments material grant = some fragments) {fragment : RawFragment}
    (member : fragment ∈ fragments) :
    fragment.fragment_id ∈ grant.fragmentIds ∧
      (fragment.locator.isSome → fragment.fragment_id ∈ grant.fragmentLocatorIds) := by
  simp only [permittedFragments, Option.bind_eq_bind, Option.bind_eq_some_iff, Option.pure_def,
    Option.some.injEq] at kept
  obtain ⟨turns, all, rfl⟩ := kept
  obtain ⟨turned, among, rfl⟩ : ∃ turned ∈ turns, turned = some fragment :=
    ⟨_, List.mem_filterMap.mp member |>.choose_spec.1, List.mem_filterMap.mp member |>.choose_spec.2⟩
  obtain ⟨raw, -, read⟩ := item_of_all_mapM all among
  obtain ⟨id, -, rest⟩ := Option.bind_eq_some_iff.mp read
  split at rest
  · cases rest
  · next id known =>
    -- The locator is there only where the grant lists the fragment.
    split_ifs at rest with refused listed
    all_goals simp only [Option.some.injEq, reduceCtorEq] at rest
    all_goals subst rest
    · exact ⟨refused, fun _ => listed⟩
    · exact ⟨refused, nofun⟩

theorem anyForeign_false {fragments : List RawFragment}
    (own : anyForeign material fragments = some false) {fragment : RawFragment}
    (member : fragment ∈ fragments) {text : String} (reads : fragment.text.bind text? = some text) :
    text.toList <:+: material.originalText.toList := by
  induction fragments with
  | nil => cases member
  | cons first rest ih =>
    rw [anyForeign] at own
    split at own
    · cases own
    · cases own
    · next stored _ stored_text =>
      split_ifs at own with nothing
      · cases own
      · simp only [Option.bind_eq_bind, Option.bind_eq_some_iff] at own
        obtain ⟨included, includes_text, own⟩ := own
        split_ifs at own with outside
        · cases own
        · rcases List.mem_cons.mp member with rfl | later
          · rw [stored_text] at reads
            cases stored with
            | text value =>
              obtain rfl : value = text := Option.some.inj reads
              simp only [includes, coerced, Option.map_some, Option.some.injEq] at includes_text
              rw [← includes_text] at outside
              simpa using outside
            | null => cases reads
            | boolean => cases reads
            | number => cases reads
            | array => cases reads
            | object => cases reads
          · exact ih own later

theorem readFragment_eq {raw : RawFragment} {fragment : Fragment}
    (read : readFragment raw = some fragment) :
    fragment.fragment_id = raw.fragment_id ∧ raw.text.bind text? = some fragment.text ∧
      (fragment.locator.isSome → raw.locator.isSome) := by
  simp only [readFragment, Option.bind_eq_bind, Option.bind_eq_some_iff] at read
  obtain ⟨text, text_read, rest⟩ := read
  cases at_locator : raw.locator with
  | none =>
    rw [at_locator] at rest
    obtain rfl := Option.some.inj rest
    exact ⟨rfl, Option.bind_eq_some_iff.mpr text_read, nofun⟩
  | some value =>
    rw [at_locator] at rest
    obtain ⟨locator, -, made⟩ := Option.bind_eq_some_iff.mp rest
    obtain rfl := Option.some.inj made
    exact ⟨rfl, Option.bind_eq_some_iff.mpr text_read, fun _ => rfl⟩

/-- A projection of a kind that is let through is the material's own, of that kind. -/
theorem validateDetail_eq {kind : Disclosure} {metadata : List (String × Json)}
    {fragments : List RawFragment} {projection : Projection}
    (shown : validateDetail material kind metadata fragments = some projection) :
    projection.reference = material.reference ∧ readMetadata metadata = some projection.metadata ∧
      match kind with
      | .CONTENT => projection.view = .CONTENT material.originalLanguage material.originalText
      | .EXCERPT => ∃ shown, fragments.mapM readFragment = some shown ∧
          projection.view = .EXCERPT material.originalLanguage shown
      | _ => projection.view = .REFERENCE := by
  simp only [validateDetail, Option.bind_eq_bind, Option.bind_eq_some_iff] at shown
  obtain ⟨metadata_shown, metadata_read, rest⟩ := shown
  cases kind with
  | CONTENT =>
    obtain ⟨view, view_read, rest⟩ := Option.bind_eq_some_iff.mp rest
    obtain ⟨-, -, made⟩ := Option.bind_eq_some_iff.mp rest
    obtain rfl := Option.some.inj made
    exact ⟨rfl, metadata_read, (Option.some.inj view_read).symm⟩
  | EXCERPT =>
    obtain ⟨view, view_read, rest⟩ := Option.bind_eq_some_iff.mp rest
    obtain ⟨-, -, made⟩ := Option.bind_eq_some_iff.mp rest
    obtain rfl := Option.some.inj made
    obtain ⟨read, all, rfl⟩ := Option.map_eq_some_iff.mp view_read
    exact ⟨rfl, metadata_read, read, all, rfl⟩
  | NONE | EXISTENCE | REFERENCE =>
    obtain ⟨view, view_read, rest⟩ := Option.bind_eq_some_iff.mp rest
    obtain ⟨-, -, made⟩ := Option.bind_eq_some_iff.mp rest
    obtain rfl := Option.some.inj made
    exact ⟨rfl, metadata_read, (Option.some.inj view_read).symm⟩

/-- What one kind offers. -/
structure Offered (material : StoredMaterial) (grant : Grant) (metadata : List (String × Json))
    (fragments : List RawFragment) (kind : Disclosure) (result : Projected) : Prop where
  reaches : kind.level ≤ grant.maximum.level
  own : kind = .EXCERPT → result.invalid = false → anyForeign material fragments = some false
  projection : ∀ projection, result.projection = some projection →
    result.invalid = false ∧ validateDetail material kind metadata fragments = some projection

/-- What is validated is offered. -/
theorem validated_offered {metadata : List (String × Json)} {fragments : List RawFragment}
    {kind : Disclosure} {result : Projected} (reaches : kind.level ≤ grant.maximum.level)
    (own : kind = .EXCERPT → anyForeign material fragments = some false)
    (offered : (match validateDetail material kind metadata fragments with
      | some projection => some (some (⟨some projection, false⟩ : Projected))
      | none => some (some ⟨none, true⟩)) = some (some result)) :
    Offered material grant metadata fragments kind result := by
  cases shown : validateDetail material kind metadata fragments with
  | none =>
    rw [shown] at offered
    obtain rfl := Option.some.inj (Option.some.inj offered)
    exact ⟨reaches, fun _ => nofun, nofun⟩
  | some projection =>
    rw [shown] at offered
    obtain rfl := Option.some.inj (Option.some.inj offered)
    exact ⟨reaches, fun excerpt _ => own excerpt, fun other same => ⟨rfl, same ▸ shown⟩⟩

theorem offer_some {metadata : List (String × Json)} {fragments : List RawFragment}
    {kind : Disclosure} {kindText : String} {result : Projected}
    (offered : offer material grant metadata fragments kind kindText = some (some result)) :
    Offered material grant metadata fragments kind result := by
  rw [offer] at offered
  split at offered
  · cases offered
  · next within =>
    have reaches := not_lt.mp within
    obtain ⟨met, -, offered⟩ := Option.bind_eq_some_iff.mp offered
    split at offered
    · cases offered
    · by_cases excerpt : kind = .EXCERPT
      · rw [if_pos excerpt] at offered
        split_ifs at offered with none_kept repeated
        · cases offered
        · obtain rfl := Option.some.inj (Option.some.inj offered)
          exact ⟨reaches, fun _ => nofun, nofun⟩
        · obtain ⟨foreign, known, offered⟩ := Option.bind_eq_some_iff.mp offered
          cases foreign with
          | true =>
            obtain rfl := Option.some.inj (Option.some.inj offered)
            exact ⟨reaches, fun _ => nofun, nofun⟩
          | false => exact validated_offered reaches (fun _ => known) offered
      · rw [if_neg excerpt] at offered
        exact validated_offered reaches (fun is_excerpt => absurd is_excerpt excerpt) offered

theorem offerFirst_some {metadata : List (String × Json)} {fragments : List RawFragment}
    {kinds : List (Disclosure × String)} {result : Projected}
    (offered : offerFirst material grant metadata fragments kinds = some result) :
    result = ⟨none, false⟩ ∨ ∃ kind, Offered material grant metadata fragments kind result := by
  induction kinds with
  | nil => exact .inl (Option.some.inj offered).symm
  | cons kind kinds ih =>
    rw [offerFirst] at offered
    obtain ⟨first, turned, offered⟩ := Option.bind_eq_some_iff.mp offered
    cases first with
    | some shown =>
      obtain rfl := Option.some.inj offered
      exact .inr ⟨kind.1, offer_some turned⟩
    | none => exact ih offered

/-- What is projected is in order, and within the grant. -/
theorem projected_within {action : ReadingAction} {result : Projected} {projection : Projection}
    (known : projected material grant action = some result)
    (shown : result.projection = some projection) :
    result.invalid = false ∧ 2 ≤ grant.maximum.level ∧ Within material grant projection := by
  rw [projected] at known
  split at known
  · obtain rfl := Option.some.inj known
    cases shown
  · next reaches =>
    obtain ⟨fragments, kept, known⟩ := Option.bind_eq_some_iff.mp known
    rcases offerFirst_some known with rfl | ⟨kind, offered⟩
    · cases shown
    obtain ⟨valid, detail⟩ := offered.projection projection shown
    obtain ⟨reference, metadata, view⟩ := validateDetail_eq detail
    have shows : ∀ key, projection.metadata.has key →
        key ∈ grant.metadata ∧ (material.metadata.lookup key.text).isSome := by
      intro key has
      obtain ⟨value, found⟩ := Option.isSome_iff_exists.mp (readMetadata_has metadata has)
      obtain ⟨granted, stored⟩ := permittedMetadata_lookup found
      exact ⟨granted, by rw [stored]; rfl⟩
    refine ⟨valid, not_lt.mp reaches, ?_⟩
    cases kind with
    | CONTENT =>
      refine ⟨reference, by rw [view]; exact offered.reaches, shows, ?_, ?_⟩
      · rw [view]
        nofun
      · intro language text same
        obtain ⟨rfl, rfl⟩ := View.CONTENT.inj (view.symm.trans same)
        exact ⟨rfl, rfl⟩
    | EXCERPT =>
      obtain ⟨read, all, view⟩ := view
      refine ⟨reference, by rw [view]; exact offered.reaches, shows, ?_, ?_⟩
      · rw [view]
        intro fragment member
        obtain ⟨raw, among, reads⟩ := item_of_all_mapM all member
        obtain ⟨same_id, text, locator⟩ := readFragment_eq reads
        obtain ⟨granted, listed⟩ := permittedFragments_granted kept among
        rw [same_id]
        exact ⟨granted, anyForeign_false (offered.own rfl valid) among text,
          fun present => listed (locator present)⟩
      · intro language text same
        cases view.symm.trans same
    | NONE | EXISTENCE | REFERENCE =>
      refine ⟨reference, by rw [view]; exact not_lt.mp reaches, shows, ?_, ?_⟩
      · rw [view]
        nofun
      · intro language text same
        cases view.symm.trans same

theorem projected_low (material : StoredMaterial) (action : ReadingAction) (low : grant.maximum.level < 2) :
    projected material grant action = some ⟨none, false⟩ := by
  rw [projected, if_pos low]
  rfl

end Projected

/-! ### The work of one material -/

def Response.projections : Response → List Projection
  | .list items _ => items
  | .detail projection => [projection]
  | .problem _ => []

section Population

variable (context : ReadingContext) (operation : ReadingOperation) (now : Option ℚ)

/-- What the policy of a material of the context allows. -/
def allowed (material : StoredMaterial) : Option Grant :=
  if inContext context material then
    (evaluatePolicy context operation.kind material.policy now).grant
  else none

/-- It is allowed as a reference or more. -/
def disclosable (material : StoredMaterial) : Bool :=
  (allowed context operation now material).any fun grant => 2 ≤ grant.maximum.level

/-- Only that it exists is allowed. -/
def signals (material : StoredMaterial) : Bool :=
  (allowed context operation now material).any fun grant => grant.maximum = .EXISTENCE

def shown (material : StoredMaterial) : Option Projection := do
  let grant ← allowed context operation now material
  let prepared ← projected material grant operation.kind
  prepared.projection

def spoils (material : StoredMaterial) : Bool :=
  ((allowed context operation now material).bind fun grant =>
    projected material grant operation.kind).any Projected.invalid

variable {context operation now}

theorem allowed_eq_some {material : StoredMaterial} {grant : Grant} :
    allowed context operation now material = some grant ↔
      inContext context material = true ∧
        evaluatePolicy context operation.kind material.policy now = ⟨.ALLOWED, some grant⟩ := by
  rw [allowed]
  split
  · next within =>
    refine ⟨fun found => ⟨within, evaluatePolicy_grant found⟩, fun h => ?_⟩
    rw [h.2]
  · next outside =>
    constructor
    · nofun
    · exact fun h => absurd h.1 outside

/-- The turn of a material that nothing is granted of. -/
theorem turn_refused (acc : Prepared) {material : StoredMaterial}
    (refused : allowed context operation now material = none) :
    (turn context operation now acc material).visible = acc.visible ∧
      (turn context operation now acc material).invalid = acc.invalid ∧
      (turn context operation now acc material).existence = acc.existence ∧
      (turn context operation now acc material).earliestExpiry = acc.earliestExpiry := by
  rw [allowed] at refused
  rw [turn]
  split
  · exact ⟨rfl, rfl, rfl, rfl⟩
  · next within =>
    rw [if_pos (by simpa using within)] at refused
    simp only [refused, and_self]

theorem turn_granted {acc : Prepared} {material : StoredMaterial} {grant : Grant}
    (granted : allowed context operation now material = some grant) :
    turn context operation now acc material = grantTurn operation acc material grant := by
  obtain ⟨within, decided⟩ := allowed_eq_some.mp granted
  rw [turn, if_neg (by simp [within])]
  simp only [decided]

variable (context operation now) in
theorem turn_adds (acc : Prepared) (material : StoredMaterial) :
    (turn context operation now acc material).visible =
        acc.visible ++ (shown context operation now material).toList ∧
      (turn context operation now acc material).invalid =
        (acc.invalid || spoils context operation now material) ∧
      (turn context operation now acc material).existence =
        (acc.existence || signals context operation now material) := by
  cases granted : allowed context operation now material with
  | none =>
    obtain ⟨visible, invalid, existence, -⟩ := turn_refused acc granted
    simp [visible, invalid, existence, shown, spoils, signals, granted]
  | some grant =>
    rw [turn_granted granted, grantTurn]
    by_cases only : grant.maximum = .EXISTENCE
    · have nothing := projected_low material operation.kind
        (show grant.maximum.level < 2 by rw [only]; decide)
      simp [shown, spoils, signals, granted, nothing, only]
    · cases known : projected material grant operation.kind with
      | none => simp [shown, spoils, signals, granted, known, only]
      | some prepared =>
        cases invalid : prepared.invalid with
        | true =>
          -- What is spoiled shows no projection.
          have hidden : prepared.projection = none := by
            by_contra present
            obtain ⟨projection, is_shown⟩ := Option.ne_none_iff_exists'.mp present
            have valid := (projected_within known is_shown).1
            rw [invalid] at valid
            cases valid
          simp [shown, spoils, signals, granted, known, only, invalid, hidden]
        | false =>
          cases at_projection : prepared.projection with
          | none => simp [shown, spoils, signals, granted, known, only, invalid, at_projection]
          | some projection =>
            simp [shown, spoils, signals, granted, known, only, invalid, at_projection]

variable (context operation now) in
theorem foldl_adds (acc : Prepared) (population : List StoredMaterial) :
    (population.foldl (turn context operation now) acc).visible =
        acc.visible ++ population.filterMap (shown context operation now) ∧
      (population.foldl (turn context operation now) acc).invalid =
        (acc.invalid || population.any (spoils context operation now)) ∧
      (population.foldl (turn context operation now) acc).existence =
        (acc.existence || population.any (signals context operation now)) := by
  induction population generalizing acc with
  | nil => simp
  | cons material population ih =>
    obtain ⟨visible, invalid, existence⟩ := turn_adds context operation now acc material
    obtain ⟨rest_visible, rest_invalid, rest_existence⟩ :=
      ih (turn context operation now acc material)
    rw [List.foldl_cons, rest_visible, rest_invalid, rest_existence, visible, invalid, existence]
    refine ⟨?_, ?_, ?_⟩
    · cases is_shown : shown context operation now material <;> simp [is_shown]
    · rw [List.any_cons, Bool.or_assoc]
    · rw [List.any_cons, Bool.or_assoc]

/-! ### The expiry -/

/-- The expiry is no later than the ending. -/
def Covers (expiry ending : Option ℚ) : Prop :=
  ∀ limit ∈ ending, ∃ first ∈ expiry, first ≤ limit

theorem covers_earlier (expiry : Option ℚ) (ending : ℚ) :
    Covers (earlier expiry ending) (some ending) := by
  rintro limit ⟨⟩
  cases expiry with
  | none => exact ⟨ending, rfl, le_refl _⟩
  | some first => exact ⟨_, rfl, min_le_right _ _⟩

theorem Covers.earlier {expiry ending : Option ℚ} (covers : Covers expiry ending) (other : ℚ) :
    Covers (earlier expiry other) ending := by
  intro limit is_limit
  obtain ⟨first, rfl, before⟩ := covers limit is_limit
  exact ⟨_, rfl, (min_le_left _ _).trans before⟩

theorem grantTurn_expiry {acc : Prepared} {material : StoredMaterial} {grant : Grant}
    {prepared : Projected} (known : projected material grant operation.kind = some prepared) :
    (grantTurn operation acc material grant).earliestExpiry =
      match grant.validUntil with
      | some ending =>
        if contributes operation material grant prepared then earlier acc.earliestExpiry ending
        else acc.earliestExpiry
      | none => acc.earliestExpiry := by
  rw [grantTurn, known]
  dsimp only
  split
  · rfl
  · split
    · rfl
    · cases prepared.projection <;> rfl

theorem Covers.turn {acc : Prepared} {ending : Option ℚ} (covers : Covers acc.earliestExpiry ending)
    (material : StoredMaterial) :
    Covers (turn context operation now acc material).earliestExpiry ending := by
  cases granted : allowed context operation now material with
  | none =>
    rw [(turn_refused acc granted).2.2.2]
    exact covers
  | some grant =>
    rw [turn_granted granted]
    cases known : projected material grant operation.kind with
    | none =>
      rw [grantTurn, known]
      exact covers
    | some prepared =>
      rw [grantTurn_expiry known]
      cases grant.validUntil with
      | none => exact covers
      | some other =>
        dsimp only
        split
        · exact covers.earlier other
        · exact covers

theorem Covers.foldl {acc : Prepared} {ending : Option ℚ} (covers : Covers acc.earliestExpiry ending)
    (population : List StoredMaterial) :
    Covers (population.foldl (Reading.turn context operation now) acc).earliestExpiry ending := by
  induction population generalizing acc with
  | nil => exact covers
  | cons material population ih => exact ih (covers.turn material)

/-- The expiry covers every material that the response is about. -/
theorem covers_of_contributes {population : List StoredMaterial} {material : StoredMaterial}
    {grant : Grant} {prepared : Projected} (member : material ∈ population)
    (granted : allowed context operation now material = some grant)
    (known : projected material grant operation.kind = some prepared)
    (counts : contributes operation material grant prepared = true) (acc : Prepared) :
    Covers (population.foldl (turn context operation now) acc).earliestExpiry grant.validUntil := by
  induction population generalizing acc with
  | nil => cases member
  | cons first population ih =>
    rcases List.mem_cons.mp member with rfl | later
    · refine Covers.foldl ?_ population
      rw [turn_granted granted, grantTurn_expiry known]
      cases grant.validUntil with
      | none => nofun
      | some ending =>
        dsimp only
        rw [if_pos counts]
        exact covers_earlier acc.earliestExpiry ending
    · exact ih later _

/-! ### Two populations -/

theorem ordinalLe_iff {a b : Projection} : ordinalLe a b = true ↔
    codeUnits a.reference.1 < codeUnits b.reference.1 ∨
      a.reference.1 = b.reference.1 ∧ codeUnits a.reference.2 ≤ codeUnits b.reference.2 := by
  simp [ordinalLe]

theorem ordinalLe_antisymm {a b : Projection} (le : ordinalLe a b = true)
    (ge : ordinalLe b a = true) : a.reference = b.reference := by
  rw [ordinalLe_iff] at le ge
  rcases le with below | ⟨same, le⟩
  · rcases ge with above | ⟨same, -⟩
    · exact absurd above (not_lt.mpr below.le)
    · rw [same] at below
      exact absurd below (lt_irrefl _)
  · rcases ge with above | ⟨-, ge⟩
    · rw [same] at above
      exact absurd above (lt_irrefl _)
    · exact Prod.ext same (codeUnits_injective (le_antisymm le ge))

theorem ordinalLe_trans (a b c : Projection) (ab : ordinalLe a b = true)
    (bc : ordinalLe b c = true) : ordinalLe a c = true := by
  rw [ordinalLe_iff] at ab bc ⊢
  rcases ab with ab | ⟨same, ab⟩
  · rcases bc with bc | ⟨same', -⟩
    · exact .inl (ab.trans bc)
    · exact .inl (same' ▸ ab)
  · rcases bc with bc | ⟨same', bc⟩
    · exact .inl (same ▸ bc)
    · exact .inr ⟨same.trans same', ab.trans bc⟩

theorem ordinalLe_total (a b : Projection) : (ordinalLe a b || ordinalLe b a) = true := by
  rw [Bool.or_eq_true, ordinalLe_iff, ordinalLe_iff]
  rcases lt_trichotomy (codeUnits a.reference.1) (codeUnits b.reference.1) with below | same | above
  · exact .inl (.inl below)
  · have unit := codeUnits_injective same
    rcases le_total (codeUnits a.reference.2) (codeUnits b.reference.2) with le | ge
    · exact .inl (.inr ⟨unit, le⟩)
    · exact .inr (.inr ⟨unit.symm, ge⟩)
  · exact .inr (.inl above)

/-- Of references that are all different, the order they come in leaves no trace. -/
theorem mergeSort_eq_of_perm {a b : List Projection} (moved : a.Perm b)
    (apart : (a.map Projection.reference).Nodup) :
    a.mergeSort ordinalLe = b.mergeSort ordinalLe := by
  have ordered := fun xs : List Projection =>
    List.pairwise_mergeSort ordinalLe_trans ordinalLe_total xs
  refine List.Perm.eq_of_pairwise ?_ (ordered a) (ordered b)
    (((List.mergeSort_perm a _).trans moved).trans (List.mergeSort_perm b _).symm)
  intro x y in_a in_b le ge
  refine List.inj_on_of_nodup_map apart (List.mem_mergeSort.mp in_a)
    (moved.mem_iff.mpr (List.mem_mergeSort.mp in_b)) (ordinalLe_antisymm le ge)

theorem find?_eq_of_perm {a b : List Projection} (moved : a.Perm b)
    (apart : (a.map Projection.reference).Nodup) (reference : ExactRequest) :
    (a.find? fun p => p.reference = reference) = b.find? fun p => p.reference = reference := by
  cases found : a.find? fun p => p.reference = reference with
  | none =>
    rw [List.find?_eq_none] at found
    exact (List.find?_eq_none.mpr fun p member => found p (moved.mem_iff.mpr member)).symm
  | some projection =>
    have here : projection.reference = reference := by simpa using List.find?_some found
    have member := List.mem_of_find?_eq_some found
    cases other : b.find? fun p => p.reference = reference with
    | none =>
      have missing := List.find?_eq_none.mp other projection (moved.mem_iff.mp member)
      simp [here] at missing
    | some chosen =>
      have there : chosen.reference = reference := by simpa using List.find?_some other
      have among := moved.mem_iff.mpr (List.mem_of_find?_eq_some other)
      rw [List.inj_on_of_nodup_map apart member among (here.trans there.symm)]

theorem respond_eq_of_perm {a b : Prepared} (moved : a.visible.Perm b.visible)
    (invalid : a.invalid = b.invalid) (existence : operation = .list → a.existence = b.existence) :
    respond operation a = respond operation b := by
  have apart_iff := (moved.map Projection.reference).nodup_iff
  simp only [respond, invalid]
  by_cases apart : (a.visible.map Projection.reference).Nodup
  · simp only [apart, apart_iff.mp apart, decide_true, Bool.not_true, Bool.or_false]
    cases operation with
    | list => rw [mergeSort_eq_of_perm moved apart, existence rfl]
    | exact reference =>
      dsimp only
      rw [find?_eq_of_perm moved apart reference]
  · have apart' : ¬(b.visible.map Projection.reference).Nodup := mt apart_iff.mpr apart
    simp [apart, apart']

theorem shown_disclosable {material : StoredMaterial} {projection : Projection}
    (is_shown : shown context operation now material = some projection) :
    disclosable context operation now material = true := by
  obtain ⟨grant, granted, rest⟩ := Option.bind_eq_some_iff.mp is_shown
  obtain ⟨prepared, known, at_projection⟩ := Option.bind_eq_some_iff.mp rest
  rw [disclosable, granted]
  simpa using (projected_within known at_projection).2.1

theorem spoils_disclosable {material : StoredMaterial}
    (spoiled : spoils context operation now material = true) :
    disclosable context operation now material = true := by
  rw [spoils] at spoiled
  obtain ⟨prepared, known, invalid⟩ := (Option.any_eq_true _ _).mp spoiled
  obtain ⟨grant, granted, known⟩ := Option.bind_eq_some_iff.mp known
  rw [disclosable, granted]
  by_contra low
  rw [projected_low _ _ (by simpa using low)] at known
  obtain rfl := Option.some.inj known
  cases invalid

theorem filterMap_disclosable (population : List StoredMaterial) :
    (population.filter (disclosable context operation now)).filterMap
        (shown context operation now) =
      population.filterMap (shown context operation now) := by
  induction population with
  | nil => rfl
  | cons material population ih =>
    rw [List.filter_cons]
    split
    · rw [List.filterMap_cons, List.filterMap_cons, ih]
    · next hidden =>
      have nothing : shown context operation now material = none := by
        by_contra present
        obtain ⟨projection, is_shown⟩ := Option.ne_none_iff_exists'.mp present
        exact hidden (shown_disclosable is_shown)
      rw [List.filterMap_cons, nothing, ih]

theorem any_disclosable (population : List StoredMaterial) :
    (population.filter (disclosable context operation now)).any (spoils context operation now) =
      population.any (spoils context operation now) := by
  rw [List.any_filter]
  congr 1
  funext material
  cases spoiled : spoils context operation now material with
  | false => rw [Bool.and_false]
  | true => rw [spoils_disclosable spoiled, Bool.and_true]

/-- The response is the work of what may be disclosed, and of the signal. -/
theorem response_eq_of_perm {a b : List StoredMaterial}
    (same : (a.filter (disclosable context operation now)).Perm
      (b.filter (disclosable context operation now)))
    (signal : operation = .list →
      a.any (signals context operation now) = b.any (signals context operation now)) :
    (prepareReading context operation now a).response =
      (prepareReading context operation now b).response := by
  obtain ⟨visible_a, invalid_a, existence_a⟩ :=
    foldl_adds context operation now .empty a
  obtain ⟨visible_b, invalid_b, existence_b⟩ :=
    foldl_adds context operation now .empty b
  refine respond_eq_of_perm ?_ ?_ fun is_list => ?_
  · rw [visible_a, visible_b, ← filterMap_disclosable a, ← filterMap_disclosable b]
    exact (same.filterMap _).append_left _
  · rw [invalid_a, invalid_b, ← any_disclosable a, ← any_disclosable b, same.any_eq]
  · rw [existence_a, existence_b, signal is_list]

/-! ### What is disclosed -/

theorem visible_of_disclosed {acc : Prepared} {projection : Projection}
    (disclosed : projection ∈ (respond operation acc).projections) :
    projection ∈ acc.visible ∧
      ∀ reference, operation = .exact reference → projection.reference = reference := by
  rw [respond.eq_def] at disclosed
  split at disclosed
  · cases disclosed
  · split at disclosed
    · dsimp only at disclosed
      split at disclosed
      · exact ⟨List.mem_mergeSort.mp disclosed, nofun⟩
      · cases disclosed
    · split at disclosed
      · next reference _ found =>
        obtain rfl := List.mem_singleton.mp disclosed
        refine ⟨List.mem_of_find?_eq_some found, fun other same => ?_⟩
        obtain rfl := ReadingOperation.exact.inj same
        simpa using List.find?_some found
      · cases disclosed

/-- Until the expiry has passed, the policy of the material allows the same. -/
def Lasts (context : ReadingContext) (operation : ReadingOperation) (now : Option ℚ)
    (material : StoredMaterial) (grant : Grant) (expiry : Option ℚ) : Prop :=
  ∀ instant ∈ now, ∀ later, instant ≤ later → (∀ ending ∈ expiry, later < ending) →
    evaluatePolicy context operation.kind material.policy (some later) = ⟨.ALLOWED, some grant⟩

theorem lasts_of_covers {material : StoredMaterial} {grant : Grant} {expiry : Option ℚ}
    (granted : allowed context operation now material = some grant)
    (covers : Covers expiry grant.validUntil) :
    Lasts context operation now material grant expiry := by
  rintro instant rfl later after before
  refine evaluatePolicy_later after (fun limit is_limit => ?_) (allowed_eq_some.mp granted).2
  obtain ⟨first, is_first, le⟩ := covers limit is_limit
  exact (before first is_first).trans_le le

/-- A disclosed projection is of a material that is granted it, for as long as the expiry says. -/
theorem disclosed_within {population : List StoredMaterial} {projection : Projection}
    (disclosed : projection ∈ (prepareReading context operation now population).response.projections) :
    ∃ material ∈ population, ∃ grant, allowed context operation now material = some grant ∧
      Within material grant projection ∧
      Lasts context operation now material grant
        (prepareReading context operation now population).earliestExpiry := by
  obtain ⟨visible, asked⟩ := visible_of_disclosed disclosed
  rw [(foldl_adds _ _ _ .empty population).1] at visible
  obtain ⟨material, member, is_shown⟩ := List.mem_filterMap.mp visible
  obtain ⟨grant, granted, rest⟩ := Option.bind_eq_some_iff.mp is_shown
  obtain ⟨prepared, known, at_projection⟩ := Option.bind_eq_some_iff.mp rest
  have within := (projected_within known at_projection).2.2
  refine ⟨material, member, grant, granted, within, lasts_of_covers granted ?_⟩
  refine covers_of_contributes member granted known ?_ .empty
  cases operation with
  | list => simp [contributes, at_projection]
  | exact reference => simp [contributes, at_projection, ← within.reference, asked reference rfl]

/-- So is the signal that something exists. -/
theorem signal_lasts {population : List StoredMaterial} (is_list : operation = .list)
    {material : StoredMaterial} (member : material ∈ population) {grant : Grant}
    (granted : allowed context operation now material = some grant)
    (only : grant.maximum = .EXISTENCE) :
    Lasts context operation now material grant
      (prepareReading context operation now population).earliestExpiry := by
  have known := projected_low material operation.kind
    (show grant.maximum.level < 2 by rw [only]; decide)
  refine lasts_of_covers granted (covers_of_contributes member granted known ?_ .empty)
  simp [contributes, is_list, only]

end Population

/-- What is hidden leaves no trace in a response, whatever the order of the population; and what is
shown is within its grant, for as long as the expiry says. -/
theorem prepareReading_noninterference (context : ReadingContext) (operation : ReadingOperation)
    (now : Option ℚ) :
    (∀ a b : List StoredMaterial,
      (a.filter (disclosable context operation now)).Perm
          (b.filter (disclosable context operation now)) →
        (operation = .list →
          a.any (signals context operation now) = b.any (signals context operation now)) →
        (prepareReading context operation now a).response =
          (prepareReading context operation now b).response) ∧
      ∀ population : List StoredMaterial,
        (∀ projection ∈ (prepareReading context operation now population).response.projections,
          ∃ material ∈ population, ∃ grant, allowed context operation now material = some grant ∧
            Within material grant projection ∧
            Lasts context operation now material grant
              (prepareReading context operation now population).earliestExpiry) ∧
          (operation = .list → ∀ material ∈ population, ∀ grant,
            allowed context operation now material = some grant → grant.maximum = .EXISTENCE →
              Lasts context operation now material grant
                (prepareReading context operation now population).earliestExpiry) := by
  refine ⟨fun a b same signal => response_eq_of_perm same signal, fun population => ⟨?_, ?_⟩⟩
  · intro projection disclosed
    exact disclosed_within disclosed
  · intro is_list material member grant granted only
    exact signal_lasts is_list member granted only

/-! ### A hidden material beside a shown one -/

/-- The binding of the context and the action, as a policy writes it. -/
def bound (context : ReadingContext) (action : ReadingAction) : Json :=
  .object (("action", .text action.text) :: context.keys.map fun key => (key.1, .text key.2))

def deskContext : ReadingContext :=
  { deploymentId := "desk", scopeId := "refunds", subjectId := "reader", surface := "panel",
    purpose := "answer", generation := "1" }

/-- A policy of one row, which its tier evaluates as it says. -/
def deskPolicy (evaluation : String) : Json :=
  let binding := bound deskContext .exact
  let grant := Json.object
    [("binding", binding), ("maximum", .text "CONTENT"), ("metadata", .array [.text "editorial_state"]),
      ("fragmentIds", .array []), ("fragmentLocatorIds", .array []),
      ("validFrom", .number (.integer 0)), ("validUntil", .number (.integer 10))]
  .object [("unit", .array [.object
      [("binding", binding), ("evaluation", .text evaluation), ("grant", grant)]]),
    ("inherited", .array []), ("general", .array [])]

def deskMaterial (version evaluation : String) : StoredMaterial :=
  { deploymentId := "desk", scopeId := "refunds", reference := ("window", version)
    originalLanguage := .en, originalText := "Thirty days."
    metadata := [("title", .text "Refunds"), ("editorial_state", .text "PUBLISHED")]
    fragments := []
    requirements := [("CONTENT", .object [("metadata", .array [.text "editorial_state"])])]
    policy := deskPolicy evaluation }

theorem prepareReading_noninterference_hidden :
    (prepareReading deskContext (.exact ("window", "1")) (some 5)
        [deskMaterial "2" "DENY", deskMaterial "1" "GRANT"]).response =
      .detail ⟨("window", "1"), ⟨none, none, some "PUBLISHED", none, none⟩,
        .CONTENT .en "Thirty days."⟩ := by
  refine ((prepareReading_noninterference deskContext (.exact ("window", "1")) (some 5)).1
    _ [deskMaterial "1" "GRANT"] (List.Perm.of_eq ?_) nofun).trans ?_
  · have denied : disclosable deskContext (.exact ("window", "1")) (some 5)
        (deskMaterial "2" "DENY") = false := by decide +kernel
    rw [List.filter_cons, if_neg (by rw [denied]; exact Bool.false_ne_true)]
  · decide +kernel

end LedgerDesk.Reading
