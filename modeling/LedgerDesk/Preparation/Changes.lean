import LedgerDesk.Preparation.Producer

/-!
# Declared changes

What a successful construction makes of the selected material: every element, relation and
condition is as its source has it, or is named by a difference.
-/
namespace LedgerDesk.Preparation

open Foundation

/-! ### The selection, in the sources' terms -/

/-- The places of a source element, under the name its source has among the inputs. -/
def SourceOrigin.places (inputAlias : String) : SourceOrigin → List Localizer
  | .stretch range =>
    [⟨inputAlias, .bytes, "original:" ++ rangeText range.bytes, some range.bytes,
      some range.code_points⟩]
  | .extracted antecedents =>
    antecedents.map fun loc => ⟨inputAlias, loc.kind, loc.coordinates, loc.byte_range, none⟩
  | .prepared antecedents =>
    antecedents.map fun loc => { loc with input_id := join inputAlias loc.input_id }

namespace MappedSource

variable (source : MappedSource)

/-- What the reservation selects of the source, in order. -/
def selections (selection : List Selection) : List Selection :=
  selection.filter fun s => s.input_id = source.input.id

/-- The element the row selects, under its local id. -/
def selectedElement (s : Selection) : Option Element :=
  (source.content.elements.find? fun e => e.id = s.element_id).map fun e =>
    ⟨s.local_id, e.body, e.origin.places source.input.id⟩

/-- The relation with both its ends selected, under local ids. -/
def selectedRelation (selection : List Selection) (relation : Relation) : Option Relation :=
  match selectedBy (source.selections selection) relation.source,
    selectedBy (source.selections selection) relation.target with
  | some s, some t =>
    some { relation with
      id := join source.input.id relation.id, source := s.local_id, target := t.local_id }
  | _, _ => none

/-- The unit has an element that is selected. -/
def unitSelected (selection : List Selection) (unit : PreparedUnit) : Bool :=
  unit.elements.any fun id => (selectedBy (source.selections selection) id).isSome

/-- The condition of this id, under the name of its source. -/
def conditionOf (id : String) : Option Condition :=
  (source.content.conditions.find? fun c => c.id = id).map fun c =>
    { c with id := join source.input.id id }

/-- The local id of an element, if it is selected. -/
def localOf (selection : List Selection) (id : String) : Option String :=
  (selectedBy (source.selections selection) id).map Selection.local_id

def localUnit (selection : List Selection) (unit : PreparedUnit) : PreparedUnit :=
  { unit with
    elements := unit.elements.filterMap (source.localOf selection)
    conditions := unit.conditions.map (join source.input.id) }

/-- The unit under local ids, if it is selected of, and its conditions. -/
def selectedUnit (selection : List Selection) (unit : PreparedUnit) :
    Option (PreparedUnit × List Condition) :=
  if source.unitSelected selection unit then
    some (source.localUnit selection unit, unit.conditions.filterMap source.conditionOf)
  else none

def selectedUnits (selection : List Selection) : List (PreparedUnit × List Condition) :=
  source.content.units.filterMap (source.selectedUnit selection)

end MappedSource

/-- The selected elements of all the sources. -/
def selectedElements (selection : List Selection) (sourceMap : List MappedSource) :
    List (Option Element) :=
  sourceMap.flatMap fun source => (source.selections selection).map source.selectedElement

def selectedRelations (selection : List Selection) (sourceMap : List MappedSource) :
    List Relation :=
  sourceMap.flatMap fun source =>
    source.content.relations.filterMap (source.selectedRelation selection)

/-- The conditions of every unit that is selected of, each as often as it is one of a unit's. -/
def selectedConditions (selection : List Selection) (sourceMap : List MappedSource) :
    List Condition :=
  sourceMap.flatMap fun source => (source.selectedUnits selection).flatMap Prod.snd

theorem joined_eq_ok {a b c : String} (ok : joined a b = .ok c) : c = join a b := by
  rw [joined] at ok
  split at ok
  · exact (Except.ok.inj ok).symm
  · cases ok

theorem mapOrigin_eq_ok {inputAlias : String} {origin : SourceOrigin} {locs : List Localizer}
    (ok : mapOrigin inputAlias origin = .ok locs) : locs = origin.places inputAlias := by
  cases origin with
  | stretch range => exact (Except.ok.inj ok).symm
  | extracted antecedents => exact (Except.ok.inj ok).symm
  | prepared antecedents =>
    have read := map_eq_of_mapM ok
      (g := fun loc : Localizer => { loc with input_id := join inputAlias loc.input_id }) (h := id)
      fun loc loc' one => by
        obtain ⟨input_id, name, done⟩ := except_bind_eq_ok.mp one
        rw [← joined_eq_ok name]
        exact Except.ok.inj done
    rw [List.map_id] at read
    exact read.symm

theorem mapSelection_eq_ok {source : MappedSource} {s : Selection}
    {picked : Element × Option ResourceAssociation}
    (ok : mapSelection source.input.id source.content s = .ok picked) :
    source.selectedElement s = some picked.1 := by
  rw [mapSelection] at ok
  rw [MappedSource.selectedElement]
  split at ok
  · cases ok
  · next original found =>
    obtain ⟨association, -, rest⟩ := except_bind_eq_ok.mp ok
    obtain ⟨antecedents, places, done⟩ := except_bind_eq_ok.mp rest
    cases done
    rw [found, mapOrigin_eq_ok places]
    rfl

theorem selectedElement_id {source : MappedSource} {s : Selection} {e : Element}
    (selected : source.selectedElement s = some e) : s.local_id = e.id := by
  obtain ⟨original, -, rfl⟩ := Option.map_eq_some_iff.mp selected
  rfl

theorem mapRelation_eq_ok {source : MappedSource} {selection : List Selection}
    {relation : Relation} {taken : Option Relation}
    (ok : mapRelation source.input.id (source.selections selection) relation = .ok taken) :
    source.selectedRelation selection relation = taken := by
  rw [mapRelation] at ok
  rw [MappedSource.selectedRelation]
  split at ok
  · next s t from_selected to_selected =>
    obtain ⟨name, named, done⟩ := except_bind_eq_ok.mp ok
    cases done
    simp only [from_selected, to_selected, joined_eq_ok named]
  · next none_from none_to =>
    cases ok
    simp only [none_from]
  · cases ok

theorem mapConditions_eq_ok {source : MappedSource} {ids : List String}
    {conditions : List Condition}
    (ok : ids.mapM (mapCondition source.input.id source.content) = .ok conditions) :
    ids.map source.conditionOf = conditions.map some := by
  apply map_eq_of_mapM ok
  intro id condition one
  rw [mapCondition] at one
  rw [MappedSource.conditionOf]
  split at one
  · cases one
  · next found =>
    obtain ⟨name, named, done⟩ := except_bind_eq_ok.mp one
    cases done
    rw [found, joined_eq_ok named]
    rfl

theorem mapUnit_eq_ok {source : MappedSource} {selection : List Selection} {unit : PreparedUnit}
    {taken : Option (PreparedUnit × List Condition)}
    (ok : mapUnit source.input.id source.content (source.selections selection) unit = .ok taken) :
    source.selectedUnit selection unit = taken ∧
      (source.unitSelected selection unit = true →
        (∀ id ∈ unit.elements, (selectedBy (source.selections selection) id).isSome = true) ∧
        ∀ id ∈ unit.conditions, ∃ condition, source.conditionOf id = some condition) := by
  rw [mapUnit] at ok
  rw [MappedSource.selectedUnit, MappedSource.unitSelected]
  split at ok
  · next none_selected =>
    cases ok
    rw [Bool.not_eq_true'] at none_selected
    simp only [none_selected, Bool.false_eq_true, ↓reduceIte, false_imp_iff, and_self]
  · next some_selected =>
    simp only [except_bind_eq_ok, ensure_eq_ok] at ok
    obtain ⟨_, closed, _, -, names, named, conditions, read, done⟩ := ok
    cases done
    rw [Bool.not_eq_true', Bool.not_eq_false] at some_selected
    have of_source := mapConditions_eq_ok read
    have ids : unit.conditions.map (join source.input.id) = names := by
      have each := map_eq_of_mapM (g := join source.input.id) (h := id) named
        fun a b one => (joined_eq_ok one).symm
      rwa [List.map_id] at each
    have filtered : unit.conditions.filterMap source.conditionOf = conditions := by
      have through : unit.conditions.filterMap source.conditionOf =
          (unit.conditions.map source.conditionOf).filterMap id := by
        rw [List.filterMap_map]
        rfl
      rw [through, of_source]
      simp
    simp only [some_selected, ↓reduceIte, MappedSource.localUnit, ids, filtered, forall_const]
    refine ⟨rfl, List.all_eq_true.mp closed, fun id member => ?_⟩
    have among := List.mem_map_of_mem (f := source.conditionOf) member
    rw [of_source] at among
    obtain ⟨condition, -, same⟩ := List.mem_map.mp among
    exact ⟨condition, same.symm⟩

/-- One turn of the loop adds what is selected of its source. -/
theorem mapSource_eq_ok {selection : List Selection} {acc next : Mapped} {source : MappedSource}
    (ok : mapSource selection acc source = .ok next) :
    next.elements.map some =
        acc.elements.map some ++ (source.selections selection).map source.selectedElement ∧
      next.relations =
        acc.relations ++ source.content.relations.filterMap (source.selectedRelation selection) ∧
      next.sourceUnits = acc.sourceUnits ++ (source.selectedUnits selection).map Prod.fst ∧
      next.conditions =
        ((source.selectedUnits selection).flatMap Prod.snd).foldl pushCondition acc.conditions ∧
      next.elements.map Element.id =
        acc.elements.map Element.id ++ (source.selections selection).map Selection.local_id ∧
      ∀ unit ∈ source.content.units, source.unitSelected selection unit = true →
        (∀ id ∈ unit.elements, (selectedBy (source.selections selection) id).isSome = true) ∧
        ∀ id ∈ unit.conditions, ∃ condition, source.conditionOf id = some condition := by
  simp only [mapSource, except_bind_eq_ok] at ok
  obtain ⟨parents, -, _, -, components, -, incidents, -, interruptions, -, picked, read, relations,
    related, units, kept, done⟩ := ok
  cases done
  have taken := map_eq_of_mapM (g := source.selectedUnit selection) (h := id) kept
    fun unit taken one => (mapUnit_eq_ok one).1
  rw [List.map_id] at taken
  have reduced : units.reduceOption = source.selectedUnits selection := by
    rw [← taken, List.reduceOption, List.filterMap_map]
    rfl
  refine ⟨?_, ?_, by rw [reduced], by rw [reduced], ?_, ?_⟩
  · have elements := map_eq_of_mapM (g := source.selectedElement)
      (h := fun picked : Element × Option ResourceAssociation => some picked.1) read
      fun s picked one => mapSelection_eq_ok one
    rw [List.map_append, List.map_map]
    exact congrArg _ elements.symm
  · have taken := map_eq_of_mapM (g := source.selectedRelation selection) (h := id) related
      fun relation taken one => mapRelation_eq_ok one
    rw [List.map_id] at taken
    simp only [← taken, List.reduceOption, List.filterMap_map, Function.id_comp]
  · have ids := map_eq_of_mapM (g := Selection.local_id)
      (h := fun picked : Element × Option ResourceAssociation => picked.1.id) read
      fun s picked one => selectedElement_id (mapSelection_eq_ok one)
    rw [List.map_append, List.map_map]
    exact congrArg _ ids.symm
  · intro unit member
    obtain ⟨taken, one⟩ := exists_of_mapM kept member
    exact (mapUnit_eq_ok one).2

theorem foldSources_eq_ok {selection : List Selection} {acc mapped : Mapped}
    {sourceMap : List MappedSource}
    (ok : sourceMap.foldlM (mapSource selection) acc = .ok mapped) :
    mapped.elements.map some = acc.elements.map some ++ selectedElements selection sourceMap ∧
      mapped.relations = acc.relations ++ selectedRelations selection sourceMap ∧
      mapped.sourceUnits = acc.sourceUnits ++
        sourceMap.flatMap (fun source => (source.selectedUnits selection).map Prod.fst) ∧
      mapped.conditions = (selectedConditions selection sourceMap).foldl pushCondition
        acc.conditions ∧
      mapped.elements.map Element.id = acc.elements.map Element.id ++
        sourceMap.flatMap (fun source => (source.selections selection).map Selection.local_id) ∧
      ∀ source ∈ sourceMap, ∀ unit ∈ source.content.units,
        source.unitSelected selection unit = true →
        (∀ id ∈ unit.elements, (selectedBy (source.selections selection) id).isSome = true) ∧
        ∀ id ∈ unit.conditions, ∃ condition, source.conditionOf id = some condition := by
  induction sourceMap generalizing acc with
  | nil =>
    cases ok
    simp [selectedElements, selectedRelations, selectedConditions]
  | cons source sources ih =>
    obtain ⟨next, one, rest⟩ := foldlM_cons_eq_ok.mp ok
    obtain ⟨elements, relations, units, conditions, ids, closed⟩ := mapSource_eq_ok one
    obtain ⟨elements', relations', units', conditions', ids', closed'⟩ := ih rest
    refine ⟨?_, ?_, ?_, ?_, ?_, ?_⟩
    · rw [elements', elements, List.append_assoc]
      rfl
    · rw [relations', relations, List.append_assoc]
      rfl
    · rw [units', units, List.append_assoc]
      rfl
    · rw [conditions', conditions, ← List.foldl_append]
      rfl
    · rw [ids', ids, List.append_assoc]
      rfl
    · exact List.forall_mem_cons.mpr ⟨closed, closed'⟩

/-! ### A construction that succeeds -/

/-- The stages of a construction that succeeds. -/
structure Constructed (codec : Codec) (args : ConstructArgs) (production : Production)
    (sourceMap : List MappedSource) (mapped observed : Mapped) : Prop where
  input : checkProductionInput codec args = .ok ()
  admitted : admitSources codec args = .ok sourceMap
  mapping : mapSources args sourceMap = .ok mapped
  changes : args.document.checkChanges mapped = .ok ()
  observing : args.document.observe args.staged mapped = .ok observed
  units : args.document.checkUnits observed = .ok ()
  payload : production.record.payload = args.document.payloadOf observed
  differences : production.record.differences.map (fun d => d.body.affected) =
    args.document.differences.map DifferenceDraft.affected

section Construct

variable {codec : Codec} {args : ConstructArgs} {production : Production}

theorem sealDraft_affected {sourceMap : List MappedSource} {target : Target}
    {draft : DifferenceDraft × Nat} {record : DifferenceRecord}
    (ok : sealDraft codec args sourceMap target draft = .ok record) :
    draft.1.affected = record.body.affected := by
  simp only [sealDraft, sealDifference, except_bind_eq_ok] at ok
  obtain ⟨before, -, id, -, _, -, reference, -, done⟩ := ok
  cases done
  rfl

theorem constructed (ok : constructPreparation codec args = .ok production) :
    ∃ sourceMap mapped observed, Constructed codec args production sourceMap mapped observed := by
  simp only [constructPreparation, except_bind_eq_ok] at ok
  obtain ⟨_, input, sourceMap, admitted, mapped, mapping, _, changes, observed, observing, _, units,
    bytes, -, artifact, -, differences, sealing, ⟨record, sealedBytes⟩, sealed, bodies, -, _, -,
    done⟩ := ok
  cases done
  simp only [sealPreparation, except_bind_eq_ok] at sealed
  obtain ⟨_, -, _, -, _, -, _, -, _, -, reference, -, done⟩ := sealed
  cases done
  refine ⟨sourceMap, mapped, observed, ⟨input, admitted, mapping, changes, observing, units, rfl, ?_⟩⟩
  have drafts := map_eq_of_mapM (g := DifferenceDraft.affected ∘ Prod.fst)
    (h := fun record : DifferenceRecord => record.body.affected) sealing
    fun draft record one => sealDraft_affected one
  rw [← drafts, ← List.map_map, List.zipIdx_map_fst]

variable {sourceMap : List MappedSource} {mapped observed : Mapped}

/-- Some difference that was recorded names the row. -/
def Production.names (production : Production) (kind : AffectedKind) (id : String) : Prop :=
  ∃ difference ∈ production.record.differences, ⟨kind, id⟩ ∈ difference.body.affected

namespace Constructed

variable (built : Constructed codec args production sourceMap mapped observed)

include built

theorem names {kind : AffectedKind} {id : String}
    (affected : args.document.affected kind id = true) : production.names kind id := by
  simp only [Document.affected, List.any_eq_true, decide_eq_true_eq] at affected
  obtain ⟨draft, member, row, named, rfl⟩ := affected
  have among : draft.affected ∈ production.record.differences.map fun d => d.body.affected := by
    rw [built.differences]
    exact List.mem_map_of_mem member
  obtain ⟨record, recorded, same⟩ := List.mem_map.mp among
  exact ⟨record, recorded, same ▸ named⟩

theorem folded :
    sourceMap.foldlM (mapSource args.reservation.selection) Mapped.empty = .ok mapped := by
  have mapping := built.mapping
  simp only [mapSources, except_bind_eq_ok] at mapping
  obtain ⟨mapped', folded, _, -, done⟩ := mapping
  cases done
  exact folded

theorem document : isDocument args.document = true ∧ validateReservation args.reservation = true := by
  have input := built.input
  simp only [checkProductionInput, except_bind_eq_ok, ensure_eq_ok, Bool.and_eq_true] at input
  obtain ⟨_, ⟨⟨⟨reserved, documented⟩, -⟩, -⟩, -⟩ := input
  exact ⟨documented, reserved⟩

theorem documentIds : (args.document.elements.map Element.id).Nodup ∧
    (args.document.relations.map Relation.id).Nodup ∧
    (args.document.conditions.map Condition.id).Nodup := by
  have documented := built.document.1
  simp only [isDocument, Bool.and_eq_true, distinct_iff] at documented
  exact ⟨documented.2.1.1.1, documented.2.1.1.2, documented.2.1.2⟩

/-- The sources are named once each. -/
theorem sourceIds : (sourceMap.map fun source => source.input.id).Nodup := by
  have admitted := built.admitted
  simp only [admitSources, except_bind_eq_ok, ensure_eq_ok, Bool.and_eq_true, distinct_iff] at admitted
  obtain ⟨_, ⟨-, nodup⟩, sources, read, _, -, done⟩ := admitted
  cases done
  have inputs := map_eq_of_mapM (g := fun s : RetainedSource => s.input.id)
    (h := fun source : MappedSource => source.input.id) read fun s source one => by
      rw [admitSource] at one
      split at one
      · cases one
      · simp only [except_bind_eq_ok] at one
        obtain ⟨_, -, content, -, done⟩ := one
        cases done
        rfl
  rwa [← inputs]

/-- The selected elements have ids of their own. -/
theorem elementIds : (mapped.elements.map Element.id).Nodup := by
  have reserved := built.document.2
  simp only [validateReservation, Bool.and_eq_true, distinct_iff] at reserved
  have localIds : (args.reservation.selection.map Selection.local_id).Nodup := reserved.1.1.2
  rw [(foldSources_eq_ok built.folded).2.2.2.2.1]
  simp only [Mapped.empty, List.map_nil, List.nil_append, List.nodup_flatMap]
  constructor
  · intro source _
    exact localIds.sublist (List.filter_sublist.map _)
  · have apart := List.pairwise_map.mp built.sourceIds
    refine apart.imp fun {source other} differ => ?_
    intro id first second
    obtain ⟨s, selected, rfl⟩ := List.mem_map.mp first
    obtain ⟨t, chosen, same⟩ := List.mem_map.mp second
    obtain ⟨member, of_source⟩ := List.mem_filter.mp selected
    obtain ⟨member', of_other⟩ := List.mem_filter.mp chosen
    have once : t = s := List.inj_on_of_nodup_map localIds member' member same
    rw [decide_eq_true_eq] at of_source of_other
    rw [← of_source, ← of_other, once] at differ
    exact differ rfl

end Constructed

end Construct

/-! ### What the checks let pass -/

namespace Document

variable {d : Document}

theorem changed_eq_ok {kind : AffectedKind} {id : String} {u : Unit} :
    d.changed kind id = .ok u ↔ d.transformation ≠ .exact_selection ∧ d.affected kind id = true := by
  rw [changed]
  split
  · next undeclared =>
    simp only [Bool.or_eq_true, decide_eq_true_eq, Bool.not_eq_true'] at undeclared
    constructor
    · intro passed
      cases passed
    · rintro ⟨other, affected⟩
      rcases undeclared with exact | unaffected
      · exact absurd exact other
      · rw [affected] at unaffected
        cases unaffected
  · next declared =>
    simp only [Bool.or_eq_true, decide_eq_true_eq, Bool.not_eq_true', not_or,
      Bool.not_eq_false] at declared
    exact ⟨fun _ => declared, fun _ => rfl⟩

theorem transformed_cases (d : Document) (id : String) :
    (∃ t ∈ d.transforms, t.source = id ∧ d.transformed id = t.target) ∨
      (∀ t ∈ d.transforms, t.source ≠ id) ∧ d.transformed id = id := by
  rw [transformed]
  cases found : d.transforms.find? fun t => t.source = id with
  | some t =>
    left
    have source := List.find?_some found
    exact ⟨t, List.mem_of_find?_eq_some found, by simpa using source, rfl⟩
  | none =>
    right
    refine ⟨fun t member same => ?_, rfl⟩
    have missed := List.find?_eq_none.mp found t member
    simp [same] at missed

/-- A selected element is there, as it was or with its change declared, or it has been taken to
another. -/
theorem checkKept_cases {before : Element} {u : Unit} (ok : d.checkKept before = .ok u) :
    (∃ after ∈ d.elements, after.id = before.id ∧
        (before = after ∨
          d.transformation ≠ .exact_selection ∧ d.affected .element before.id = true)) ∨
      ((∀ after ∈ d.elements, after.id ≠ before.id) ∧ d.transformed before.id ≠ before.id ∧
        d.transformation ≠ .exact_selection) := by
  rw [checkKept] at ok
  split at ok
  · next missing =>
    simp only [except_bind_eq_ok, ensure_eq_ok, decide_eq_true_eq, changed_eq_ok] at ok
    obtain ⟨_, other, _, ⟨declared, -⟩, -⟩ := ok
    refine .inr ⟨fun after member same => ?_, other, declared⟩
    have missed := List.find?_eq_none.mp missing after member
    simp [same] at missed
  · next after found =>
    left
    have same := List.find?_some found
    refine ⟨after, List.mem_of_find?_eq_some found, by simpa using same, ?_⟩
    simp only [except_bind_eq_ok] at ok
    obtain ⟨_, -, ok⟩ := ok
    split at ok
    · exact .inr (changed_eq_ok.mp ok)
    · next equal => exact .inl (not_not.mp equal)

/-- An element the selection does not have is declared, and names stretches of what was taken to
it, none of them literally. -/
theorem checkAuthored_cases {elements : List Element} {after : Element} {u : Unit}
    (ok : d.checkAuthored elements after = .ok u) :
    (∃ e ∈ elements, e.id = after.id) ∨
      (d.transformation ≠ .exact_selection ∧ d.affected .element after.id = true ∧
        ∀ loc ∈ after.antecedents, loc.kind = .nonliteral) := by
  rw [checkAuthored] at ok
  split at ok
  · next known =>
    left
    simpa using known
  · right
    simp only [except_bind_eq_ok, changed_eq_ok, ensure_eq_ok] at ok
    obtain ⟨_, declared, _, authored, -⟩ := ok
    refine ⟨declared.1, declared.2, fun loc member => ?_⟩
    simp only [authoredFrom, Bool.and_eq_true, List.all_eq_true, decide_eq_true_eq] at authored
    exact (authored.2 loc member).1

section Context

variable {ρ : Type} [DecidableEq ρ] {kind : AffectedKind} {id : ρ → String}
variable {mayBecome : ρ → ρ → Bool} {mayBeNew : ρ → Bool} {before after : List ρ} {u : Unit}

theorem checkContext_eq_ok (ok : d.checkContext kind id mayBecome mayBeNew before after = .ok u) :
    (∀ row ∈ before, ∃ next ∈ after, id next = id row ∧
      (row = next ∨ d.affected kind (id row) = true ∧ mayBecome row next = true)) ∧
    ∀ row ∈ after, (∃ x ∈ before, id x = id row) ∨ d.affected kind (id row) = true := by
  simp only [checkContext, except_bind_eq_ok, checkEach_eq_ok] at ok
  obtain ⟨_, retained, added⟩ := ok
  constructor
  · intro row member
    have passed := retained row member
    rw [checkRetained] at passed
    split at passed
    · cases passed
    · next next found =>
      have same := List.find?_some found
      refine ⟨next, List.mem_of_find?_eq_some found, by simpa using same, ?_⟩
      split at passed
      · next equal => exact .inl equal
      · simp only [except_bind_eq_ok, changed_eq_ok, ensure_eq_ok] at passed
        obtain ⟨_, declared, may⟩ := passed
        exact .inr ⟨declared.2, may⟩
  · intro row member
    have passed := added row member
    rw [checkAdded] at passed
    split at passed
    · next known =>
      left
      simpa using known
    · simp only [except_bind_eq_ok, ensure_eq_ok] at passed
      obtain ⟨_, -, affected⟩ := passed
      exact .inr affected

/-- A row is as each of its id before it was, or is named. -/
theorem named_of_context (nodup : (after.map id).Nodup)
    (ok : d.checkContext kind id mayBecome mayBeNew before after = .ok u) :
    ∀ row ∈ after, ((∃ x ∈ before, id x = id row) ∧ ∀ x ∈ before, id x = id row → row = x) ∨
      d.affected kind (id row) = true := by
  obtain ⟨retained, added⟩ := checkContext_eq_ok ok
  intro row member
  rcases added row member with known | affected
  · by_cases named : d.affected kind (id row) = true
    · exact .inr named
    · refine .inl ⟨known, fun x earlier same => ?_⟩
      obtain ⟨next, present, same_id, equal | ⟨affected, -⟩⟩ := retained x earlier
      · have once : next = row := List.inj_on_of_nodup_map nodup present member (same_id.trans same)
        rw [equal, once]
      · exact absurd (same ▸ affected) named
  · exact .inr affected

end Context

end Document

/-! ### Every change is declared -/

/-- Lists of one order of names are equal if the rows of the one are rows of the other. -/
theorem eq_of_map_eq {α β : Type*} {f : α → β} {l l' : List α} (same : l.map f = l'.map f)
    (nodup : (l'.map f).Nodup) (among : ∀ a ∈ l, a ∈ l') : l = l' := by
  have lengths : l.length = l'.length := by
    simpa only [List.length_map] using congrArg List.length same
  apply List.ext_getElem lengths
  intro i below below'
  have at_i : f l[i] = f l'[i] := by
    have pointwise := congrArg (fun names => names[i]?) same
    simpa [below, below'] using pointwise
  exact List.inj_on_of_nodup_map nodup (among _ (List.getElem_mem below)) (List.getElem_mem below')
    at_i

theorem mem_pushConditions {conditions : List Condition} {acc : List Condition} {c : Condition}
    (member : c ∈ conditions.foldl pushCondition acc) : c ∈ acc ∨ c ∈ conditions := by
  induction conditions generalizing acc with
  | nil => exact .inl member
  | cons condition rest ih =>
    rcases ih member with pushed | later
    · rw [pushCondition] at pushed
      split at pushed
      · exact .inl pushed
      · rcases List.mem_append.mp pushed with earlier | new
        · exact .inl earlier
        · exact .inr (List.mem_singleton.mp new ▸ List.mem_cons_self)
    · exact .inr (List.mem_cons_of_mem _ later)

/-- No element is the source of two transformations. -/
theorem sources_nodup {d : Document} {elements : List Element} {u : Unit}
    (some_declared : d.transforms ≠ []) (ok : d.checkTransformations elements = .ok u) :
    (d.transforms.map Transformation.source).Nodup := by
  simp only [Document.checkTransformations, ensure_eq_ok, Bool.or_eq_true, List.isEmpty_iff,
    Bool.and_eq_true, distinct_iff] at ok
  rcases ok with none_declared | ⟨⟨-, nodup⟩, -⟩
  · exact absurd none_declared some_declared
  · exact nodup

/-- Without a transformation the elements are the selected ones, in their order. -/
theorem exact_elements {d : Document} {mapped : Mapped} (exact : d.transformation = .exact_selection)
    (nodup : (mapped.elements.map Element.id).Nodup) (nodup' : (d.elements.map Element.id).Nodup)
    (ok : d.checkChanges mapped = .ok ()) : d.elements = mapped.elements := by
  simp only [Document.checkChanges, except_bind_eq_ok, checkEach_eq_ok] at ok
  obtain ⟨_, mapping, _, order, _, kept, _, authored, -⟩ := ok
  have no_transforms : d.transforms = [] := by
    simp only [Document.checkTransformations, ensure_eq_ok, exact, reduceCtorEq, decide_false,
      Bool.false_and, Bool.or_false, List.isEmpty_iff] at mapping
    exact mapping
  have found : ∀ before ∈ mapped.elements, before ∈ d.elements := by
    intro before member
    rcases Document.checkKept_cases (kept before member) with
      ⟨after, present, -, equal | ⟨other, -⟩⟩ | ⟨-, moved, -⟩
    · exact equal ▸ present
    · exact absurd exact other
    · rcases d.transformed_cases before.id with ⟨t, declared, -⟩ | ⟨-, stays⟩
      · rw [no_transforms] at declared
        cases declared
      · exact absurd stays moved
  have known : ∀ after ∈ d.elements, ∃ e ∈ mapped.elements, e.id = after.id := by
    intro after member
    rcases Document.checkAuthored_cases (authored after member) with known | ⟨other, -⟩
    · exact known
    · exact absurd exact other
  have ids_mem : ∀ id, id ∈ mapped.elements.map Element.id ↔ id ∈ d.elements.map Element.id := by
    intro id
    simp only [List.mem_map]
    constructor
    · rintro ⟨e, member, rfl⟩
      exact ⟨e, found e member, rfl⟩
    · rintro ⟨e, member, rfl⟩
      exact known e member
  have lengths : mapped.elements.length = d.elements.length := by
    have perm := (List.perm_ext_iff_of_nodup nodup nodup').mpr ids_mem
    simpa only [List.length_map] using perm.length_eq
  have ids : mapped.elements.map Element.id = d.elements.map Element.id := by
    by_contra differ
    -- another order would be a change of each element, and none may be declared
    rw [Document.checkOrder, if_pos] at order
    · cases elements : mapped.elements with
      | nil =>
        rw [elements] at lengths differ
        rw [List.eq_nil_of_length_eq_zero lengths.symm] at differ
        exact differ rfl
      | cons e rest =>
        rw [elements, checkEach_eq_ok] at order
        exact (Document.changed_eq_ok.mp (order e List.mem_cons_self)).1 exact
    · have present : ∀ e ∈ mapped.elements, ∃ next ∈ d.elements, next.id = e.id :=
        fun e member => ⟨e, found e member, rfl⟩
      simp only [no_transforms, List.isEmpty_nil, lengths, Bool.and_eq_true, decide_eq_true_eq,
        List.all_eq_true, List.any_eq_true, true_and]
      exact ⟨present, differ⟩
  exact (eq_of_map_eq ids nodup' found).symm

/-- A preparation declares its changes. With an exact selection the elements are the selected ones,
in order. Otherwise whatever is not as its source has it is named by a difference that was recorded;
every selected element is there or is the source of one transformation and no other; every relation
between selected elements is there, as it was or with its ends taken along; and every literal place
is one of a selected element's, unless it is a corrected element that names it. -/
theorem construction_declares {codec : Codec} {args : ConstructArgs} {production : Production}
    (ok : constructPreparation codec args = .ok production) :
    ∃ sourceMap elements,
      admitSources codec args = .ok sourceMap ∧
      elements.map some = selectedElements args.reservation.selection sourceMap ∧
      (args.document.transformation = .exact_selection →
        production.record.payload.elements = elements) ∧
      (∀ e ∈ production.record.payload.elements, e ∈ elements ∨ production.names .element e.id) ∧
      (∀ r ∈ production.record.payload.relations,
        ((∃ m ∈ selectedRelations args.reservation.selection sourceMap, m.id = r.id) ∧
          ∀ m ∈ selectedRelations args.reservation.selection sourceMap, m.id = r.id → r = m) ∨
        production.names .relation r.id) ∧
      (∀ c ∈ production.record.payload.conditions,
        c ∈ selectedConditions args.reservation.selection sourceMap ∨
        production.names .condition c.id) ∧
      (∀ e ∈ elements, (∃ e' ∈ production.record.payload.elements, e'.id = e.id) ∨
        ∃ t ∈ production.record.payload.transformations.getD [], t.source = e.id ∧
          ∀ t' ∈ production.record.payload.transformations.getD [], t'.source = e.id → t' = t) ∧
      (∀ m ∈ selectedRelations args.reservation.selection sourceMap,
        ∃ r ∈ production.record.payload.relations, r.id = m.id ∧ (r = m ∨
          r.role = m.role ∧ r.scope = m.scope ∧ r.source = args.document.transformed m.source ∧
            r.target = args.document.transformed m.target)) ∧
      ∀ e ∈ production.record.payload.elements, ∀ loc ∈ e.antecedents, loc.kind ≠ .nonliteral →
        (∃ b ∈ elements, loc ∈ b.antecedents) ∨ ∃ b ∈ elements, b.id = e.id ∧ b ≠ e := by
  obtain ⟨sourceMap, mapped, observed, built⟩ := constructed ok
  obtain ⟨elements, relations, -, conditions, -⟩ := foldSources_eq_ok built.folded
  simp only [Mapped.empty, List.map_nil, List.nil_append] at elements relations conditions
  have changes := built.changes
  simp only [Document.checkChanges, except_bind_eq_ok, checkEach_eq_ok] at changes
  obtain ⟨_, mapping, _, -, _, kept, _, authored, _, related, conditioned⟩ := changes
  obtain ⟨elementIds, relationIds, conditionIds⟩ := built.documentIds
  have transforms : production.record.payload.transformations.getD [] = args.document.transforms := by
    rw [built.payload]
    simp only [Document.payloadOf]
    split
    · next none_declared => exact (List.isEmpty_iff.mp none_declared).symm
    · rfl
  refine ⟨sourceMap, mapped.elements, built.admitted, elements, ?_, ?_, ?_, ?_, ?_, ?_, ?_⟩
  · intro exact
    rw [built.payload]
    exact exact_elements exact built.elementIds elementIds built.changes
  · intro e member
    rw [built.payload] at member
    rcases Document.checkAuthored_cases (authored e member) with ⟨before, selected, same⟩ |
      ⟨-, affected, -⟩
    · rcases Document.checkKept_cases (kept before selected) with
        ⟨after, present, same', equal | ⟨-, affected⟩⟩ | ⟨gone, -⟩
      · have once : after = e :=
          List.inj_on_of_nodup_map elementIds present member (same'.trans same)
        exact .inl (once ▸ equal ▸ selected)
      · exact .inr (built.names (same ▸ affected))
      · exact absurd same.symm (gone e member)
    · exact .inr (built.names affected)
  · intro r member
    rw [built.payload] at member
    rw [← relations]
    rcases Document.named_of_context relationIds related r member with unchanged | affected
    · exact .inl unchanged
    · exact .inr (built.names affected)
  · intro c member
    rw [built.payload] at member
    rcases Document.named_of_context conditionIds conditioned c member with ⟨⟨x, kept, same⟩, all⟩ |
      affected
    · rw [all x kept same]
      rw [conditions] at kept
      rcases mem_pushConditions kept with none_before | selected
      · cases none_before
      · exact .inl selected
    · exact .inr (built.names affected)
  · intro e selected
    rw [transforms, built.payload]
    rcases Document.checkKept_cases (kept e selected) with ⟨after, present, same, -⟩ | ⟨-, moved, -⟩
    · exact .inl ⟨after, present, same⟩
    · right
      rcases args.document.transformed_cases e.id with ⟨t, declared, source, -⟩ | ⟨-, stays⟩
      · refine ⟨t, declared, source, fun t' declared' source' => ?_⟩
        have once := sources_nodup (List.ne_nil_of_mem declared) mapping
        exact List.inj_on_of_nodup_map once declared' declared (source'.trans source.symm)
      · exact absurd stays moved
  · intro m member
    rw [← relations] at member
    rw [built.payload]
    obtain ⟨r, present, same, unchanged | ⟨-, becomes⟩⟩ :=
      (Document.checkContext_eq_ok related).1 m member
    · exact ⟨r, present, same, .inl unchanged.symm⟩
    · simp only [Document.relationMayBecome, Bool.and_eq_true, decide_eq_true_eq] at becomes
      obtain ⟨⟨⟨source, target⟩, role⟩, scope⟩ := becomes
      exact ⟨r, present, same, .inr ⟨role, scope, source, target⟩⟩
  · intro e member loc among literal
    rw [built.payload] at member
    rcases Document.checkAuthored_cases (authored e member) with ⟨before, selected, same⟩ |
      ⟨-, -, nonliteral⟩
    · by_cases equal : before = e
      · exact .inl ⟨before, selected, equal ▸ among⟩
      · exact .inr ⟨before, selected, same, equal⟩
    · exact absurd (nonliteral loc among) literal

/-! ### Two documents over one source -/

def someDigest : String := "aaaaaaaaaaaaaaaaaaaaaaaaaaaaaaaaaaaaaaaaaaaaaaaaaaaaaaaaaaaaaaaa"

def refTo (id : String) : Exact := ⟨id, 1, someDigest⟩

/-- Two texts, one of which holds only with the other. -/
def ruleContent : ExtractionContent where
  original := ⟨"original", 1, 26, someDigest⟩
  source := refTo "output"
  format_profile := .text_utf8
  elements := [
    ⟨"rule", .text "Rule Q.", .stretch ⟨(6, 14), (6, 14)⟩⟩,
    ⟨"exception", .text "Under Z, R.", .stretch ⟨(14, 26), (14, 26)⟩⟩]
  relations := [⟨"context", "rule", "exception", .indispensable, "under Z", .observed⟩]
  resources := []
  components := [⟨"text", .completed, .partialCoverage, .unchecked, [], []⟩]
  incidents := []
  inventory := .unknown

/-- One digest for every text, and one document. -/
def plainCodec (document : Document) : Codec where
  sha256Hex _ := someDigest
  decodeExtractionContent _ := some ruleContent
  readPreparationDocument _ := some document
  payloadBytes _ := []
  descriptorBytes _ := []
  differenceBytes _ := []

def wholeUnit (elements : List String) : PreparedUnit where
  id := "unit"
  elements := elements
  conditions := []
  inseparable_group := none
  classification := ⟨⟨none, some "open"⟩, ⟨none, some "open"⟩, ⟨none, some "open"⟩⟩
  examination := ⟨.classifiable, "whole"⟩
  coverage := ⟨["input:text"], false, "whole"⟩

def ruleElement (text : String) (kind : LocatorKind) (place : Range) (id : String) : Element :=
  ⟨id, .text text, [⟨"input", kind, "original:" ++ rangeText place, some place, some place⟩]⟩

def ruleArgs (document : Document) : ConstructArgs where
  reservation := {
    inputs := [⟨"input", refTo "accepted", some "job"⟩]
    base := none
    selection := [⟨"input", "rule", "rule", none, none⟩,
      ⟨"input", "exception", "exception", none, none⟩]
    documentBytes := 0
    documentSha256 := someDigest
    context := ⟨"scope", "purpose", refTo "treatment"⟩ }
  document := document
  staged := ⟨"staged", 1, 0, someDigest⟩
  stagedBytes := []
  sources := [⟨⟨"input", refTo "accepted", ⟨"normalized", 1, 0, someDigest⟩,
    some ⟨"job", refTo "receipt", ruleContent.original, ruleContent.source⟩⟩, [], none⟩]
  id := "prepared"
  revision := 1
  artifactId := "payload"
  operation := refTo "operation"
  actor := "actor"
  recordedAt := 1
  resourceBodies := []

def ruleRelation : Relation := ⟨"input:context", "rule", "exception", .indispensable, "under Z", .observed⟩

/-- The rule is corrected, and its new text is said to stand where the original has nothing. -/
def inventing : Document where
  transformation := .correction
  elements := [ruleElement "Rule S." .bytes (900, 999) "rule",
    ruleElement "Under Z, R." .bytes (14, 26) "exception"]
  relations := [ruleRelation]
  conditions := []
  units := [wholeUnit ["rule", "exception"]]
  differences := [⟨["input"], .correction, .cleanup, "corrected", [⟨.element, "rule"⟩]⟩]
  transformations := none
  observation := none

/-- The rule is kept and taken to another text as well. -/
def keeping : Document where
  transformation := .synthesis
  elements := [ruleElement "Rule Q." .bytes (6, 14) "rule",
    ruleElement "Under Z, R." .bytes (14, 26) "exception",
    ruleElement "Use Q." .nonliteral (6, 14) "authored"]
  relations := [ruleRelation]
  conditions := []
  units := [wholeUnit ["rule", "exception", "authored"]]
  differences := [⟨["input"], .synthesis, .redaction, "summed up", [⟨.element, "authored"⟩]⟩]
  transformations := some [⟨"rule", "authored"⟩]
  observation := none

theorem exists_of_toOption {α β : Type} {x : Prepares α} {f : α → β} {b : β}
    (observed : x.toOption.map f = some b) : ∃ a, x = .ok a ∧ f a = b := by
  cases x with
  | error fault => cases observed
  | ok a => exact ⟨a, rfl, Option.some.inj observed⟩

/-! ### A construction by its parts -/

section Parts

variable {codec : Codec} {args : ConstructArgs} {sourceMap : List MappedSource}
  {mapped : Mapped}

theorem eq_ok_of_isSome {α : Type} {x : Prepares α} (some : x.toOption.isSome = true) :
    ∃ a, x = .ok a := by
  cases x with
  | error fault => cases some
  | ok a => exact ⟨a, rfl⟩

/-- The request and the document are valid on their own. -/
theorem checkProductionInput_of_valid (reserved : validateReservation args.reservation = true)
    (document : isDocument args.document = true)
    (same : args.reservation.documentBytes = args.staged.bytes ∧
      args.reservation.documentSha256 = args.staged.sha256)
    (staged : artifactFor codec args.staged.id args.staged.generation args.stagedBytes =
      .ok args.staged)
    (read : codec.readPreparationDocument args.stagedBytes = some args.document) :
    checkProductionInput codec args = .ok () := by
  simp [checkProductionInput, reserved, document, same, staged, read, ensure, bind, Except.bind]

/-- What sealing asks of the records of the differences and of the descriptor. -/
def sealable (codec : Codec) (args : ConstructArgs) (payload : Payload) (artifact : Artifact)
    (differences : List DifferenceRecord) : Bool :=
  differences.all (fun d => differenceMatches codec d payload.inputs
      ⟨args.id, args.revision, artifact⟩) &&
    distinct (differences.map fun d => d.reference.id) &&
    isDescriptor
      { id := args.id
        revision := args.revision
        payload := artifact
        inputs := payload.inputs
        differences := differences.map DifferenceRecord.reference
        operation := args.operation
        actor := args.actor
        recorded_at := args.recordedAt } && identifier args.id && isRevision args.revision

/-- A construction of a document that observes nothing, from sources without resources. -/
theorem constructs (input : checkProductionInput codec args = .ok ())
    (admitted : admitSources codec args = .ok sourceMap)
    (mapping : mapSources args sourceMap = .ok mapped)
    (changes : args.document.checkChanges mapped = .ok ())
    (silent : args.document.observation = none) (bare : mapped.resources = [])
    (units : args.document.checkUnits mapped = .ok ())
    (shaped : isPayload (args.document.payloadOf mapped) = true)
    (empty : codec.payloadBytes (args.document.payloadOf mapped) = [])
    {artifact : Artifact} (made : artifactFor codec args.artifactId args.revision [] = .ok artifact)
    (sealing : ((args.document.differences.zipIdx.mapM
      (sealDraft codec args sourceMap ⟨args.id, args.revision, artifact⟩)).toOption.any
        (sealable codec args (args.document.payloadOf mapped) artifact)) = true) :
    ∃ production, constructPreparation codec args = .ok production := by
  obtain ⟨differences, drafting, fine⟩ := (Option.any_eq_true _ _).mp sealing
  obtain ⟨found, drafted, same⟩ := exists_of_toOption (f := id) (by rw [drafting]; rfl)
  obtain rfl : found = differences := same
  have encoded : encodePayload codec (args.document.payloadOf mapped) = .ok [] := by
    simp [encodePayload, shaped, empty]
  have observing : args.document.observe args.staged mapped = .ok mapped := by
    rw [Document.observe, silent]
  simp only [sealable, Bool.and_eq_true] at fine
  obtain ⟨⟨⟨⟨matching, apart⟩, described⟩, named⟩, revised⟩ := fine
  obtain ⟨sealed, sealing⟩ : ∃ out,
      sealPreparation codec args (args.document.payloadOf mapped) found = .ok out := by
    simp only [sealPreparation, except_bind_eq_ok, ensure_eq_ok]
    exact ⟨_, _, encoded, _, made, (), matching, (), apart, (), described, _,
      by rw [referenceFor, named, revised]; rfl, rfl⟩
  simp only [constructPreparation, except_bind_eq_ok, ensure_eq_ok]
  refine ⟨_, _, input, _, admitted, _, mapping, _, changes, _, observing, _, units, _, encoded, _,
    made, _, drafted, _, sealing, [], ?_, (), ?_, rfl⟩
  · rw [bare]
    rfl
  · simp

end Parts

def ruleSource : MappedSource where
  input := ⟨"input", refTo "accepted", ⟨"normalized", 1, 0, someDigest⟩,
    some ⟨"job", refTo "receipt", ruleContent.original, ruleContent.source⟩⟩
  content := ruleContent.asSource

/-- What the selection takes of the source. -/
def ruleMapped : Mapped :=
  (mapSources (ruleArgs inventing) [ruleSource]).toOption.getD Mapped.empty

/-- What the arguments come to whatever the document is, all of it computed at once. -/
theorem rule_runs :
    (∀ id ∈ ["staged", "payload", "prepared-payload"],
      artifactReference ⟨id, 1, 0, someDigest⟩ = true) ∧
    validateReservation (ruleArgs inventing).reservation = true ∧
    (admitSources (plainCodec inventing) (ruleArgs inventing)).toOption.map id =
      some [ruleSource] ∧
    (mapSources (ruleArgs inventing) [ruleSource]).toOption.isSome = true ∧
    ruleMapped.resources = [] := by
  decide +kernel

/-- The artifact of a document or of a payload without bytes. -/
theorem artifact_made {document : Document} : ∀ id ∈ ["staged", "payload", "prepared-payload"],
    artifactFor (plainCodec document) id 1 [] = .ok ⟨id, 1, 0, someDigest⟩ := by
  intro id member
  exact if_pos (rule_runs.1 id member)

/-- The source is admitted whatever the document is. -/
theorem rule_admitted (document : Document) :
    admitSources (plainCodec document) (ruleArgs document) = .ok [ruleSource] := by
  obtain ⟨found, admitted, same⟩ := exists_of_toOption rule_runs.2.2.1
  obtain rfl : found = [ruleSource] := same
  exact admitted

theorem rule_mapped (document : Document) :
    mapSources (ruleArgs document) [ruleSource] = .ok ruleMapped := by
  obtain ⟨mapped, mapping⟩ := eq_ok_of_isSome rule_runs.2.2.2.1
  have taken : ruleMapped = mapped := by
    rw [ruleMapped, mapping]
    rfl
  rw [taken]
  exact mapping

/-- A document over the source that is valid and changes nothing it does not declare. -/
def passes (document : Document) : Bool :=
  isDocument document && (document.checkChanges ruleMapped).toOption.isSome &&
    (document.checkUnits ruleMapped).toOption.isSome &&
    isPayload (document.payloadOf ruleMapped) &&
    (document.differences.zipIdx.mapM
      (sealDraft (plainCodec document) (ruleArgs document) [ruleSource]
        ⟨"prepared", 1, "payload", 1, 0, someDigest⟩)).toOption.any
          (sealable (plainCodec document) (ruleArgs document) (document.payloadOf ruleMapped)
            ⟨"payload", 1, 0, someDigest⟩)

theorem rule_constructs {document : Document} (silent : document.observation = none)
    (fine : passes document = true) : ∃ production mapped,
      constructPreparation (plainCodec document) (ruleArgs document) = .ok production ∧
        production.record.payload = document.payloadOf mapped := by
  simp only [passes, Bool.and_eq_true] at fine
  obtain ⟨⟨⟨⟨valid, changed⟩, covered⟩, shaped⟩, sealing⟩ := fine
  obtain ⟨_, changes⟩ := eq_ok_of_isSome changed
  obtain ⟨_, units⟩ := eq_ok_of_isSome covered
  have reserved : validateReservation (ruleArgs document).reservation = true := rule_runs.2.1
  have input : checkProductionInput (plainCodec document) (ruleArgs document) = .ok () :=
    checkProductionInput_of_valid reserved valid ⟨rfl, rfl⟩ (artifact_made _ List.mem_cons_self) rfl
  obtain ⟨production, made⟩ := constructs input (rule_admitted document) (rule_mapped document) changes
    silent rule_runs.2.2.2.2 units shaped rfl (artifact_made "payload" (List.mem_cons_of_mem _ List.mem_cons_self)) sealing
  obtain ⟨_, _, mapped, built⟩ := constructed made
  exact ⟨production, mapped, made, built.payload⟩

/-- What the two documents come to, computed at once. -/
theorem documents_run :
    passes inventing = true ∧ passes keeping = true ∧
    selectedElements (ruleArgs inventing).reservation.selection [ruleSource] =
      [some (ruleElement "Rule Q." .bytes (6, 14) "rule"),
        some (ruleElement "Under Z, R." .bytes (14, 26) "exception")] ∧
    selectedRelations (ruleArgs keeping).reservation.selection [ruleSource] = [ruleRelation] ∧
    (∀ loc ∈ (ruleElement "Rule S." .bytes (900, 999) "rule").antecedents,
      ∀ b ∈ [ruleElement "Rule Q." .bytes (6, 14) "rule",
        ruleElement "Under Z, R." .bytes (14, 26) "exception"], loc ∉ b.antecedents) ∧
    ruleRelation.source ≠ keeping.transformed ruleRelation.source := by
  decide +kernel

theorem inventing_constructs : ∃ production,
    constructPreparation (plainCodec inventing) (ruleArgs inventing) = .ok production ∧
      production.record.payload.elements = inventing.elements := by
  obtain ⟨production, _, made, payload⟩ := rule_constructs rfl documents_run.1
  exact ⟨production, made, congrArg Payload.elements payload⟩

theorem keeping_constructs : ∃ production,
    constructPreparation (plainCodec keeping) (ruleArgs keeping) = .ok production ∧
      production.record.payload.relations = keeping.relations := by
  obtain ⟨production, _, made, payload⟩ := rule_constructs rfl documents_run.2.1
  exact ⟨production, made, congrArg Payload.relations payload⟩

/-- A correction gives its element a place that nothing selected has, and a relation stays with an
element that is both kept and taken to another. -/
theorem invented_place :
    (∃ production sourceMap,
      constructPreparation (plainCodec inventing) (ruleArgs inventing) = .ok production ∧
      admitSources (plainCodec inventing) (ruleArgs inventing) = .ok sourceMap ∧
      ∃ e ∈ production.record.payload.elements, ∃ loc ∈ e.antecedents, loc.kind = .bytes ∧
        ∀ b, some b ∈ selectedElements (ruleArgs inventing).reservation.selection sourceMap →
          loc ∉ b.antecedents) ∧
    ∃ production sourceMap,
      constructPreparation (plainCodec keeping) (ruleArgs keeping) = .ok production ∧
      admitSources (plainCodec keeping) (ruleArgs keeping) = .ok sourceMap ∧
      ∃ m ∈ selectedRelations (ruleArgs keeping).reservation.selection sourceMap,
        ∀ r ∈ production.record.payload.relations, r.id = m.id →
          r.source ≠ keeping.transformed m.source := by
  constructor
  · obtain ⟨production, built, elements⟩ := inventing_constructs
    refine ⟨production, [ruleSource], built, rule_admitted inventing,
      ruleElement "Rule S." .bytes (900, 999) "rule", ?_, _, List.mem_singleton_self _, rfl, ?_⟩
    · rw [elements]
      exact List.mem_cons_self
    · rw [documents_run.2.2.1]
      intro b member
      refine documents_run.2.2.2.2.1 _ (List.mem_singleton_self _) b ?_
      simpa using member
  · obtain ⟨production, built, relations⟩ := keeping_constructs
    refine ⟨production, [ruleSource], built, rule_admitted keeping, ruleRelation, ?_, ?_⟩
    · rw [documents_run.2.2.2.1]
      exact List.mem_singleton_self _
    · rw [relations]
      intro r member _
      rw [List.mem_singleton.mp member]
      exact documents_run.2.2.2.2.2

theorem construction_declares_correction : ∃ production,
    constructPreparation (plainCodec inventing) (ruleArgs inventing) = .ok production ∧
      ∃ elements : List Element, ∀ e ∈ production.record.payload.elements,
        e ∈ elements ∨ production.names .element e.id := by
  obtain ⟨production, built, -⟩ := inventing_constructs
  obtain ⟨_, elements, _, _, _, named, _⟩ := construction_declares built
  exact ⟨production, built, elements, named⟩

end LedgerDesk.Preparation
