import LedgerDesk.Preparation.Changes

/-!
# Obligations of a base

A unit of a preparation that is selected of brings its conditions and its inseparable group. The
producer checks the conditions of elements that stay. What it leaves to the document is stated
here: names that do not run together, elements that are taken to others, and groups.
-/
namespace LedgerDesk.Preparation

open Foundation

namespace MappedSource

variable (source : MappedSource)

/-- The unit is one of the source's, has a selected element and carries the condition. -/
structure Obliges (selection : List Selection) (unit : PreparedUnit) (id : String) : Prop where
  of_source : unit ∈ source.content.units
  selected : source.unitSelected selection unit = true
  condition : id ∈ unit.conditions

/-- An element of a selected unit, by its local id. -/
structure Brings (selection : List Selection) (unit : PreparedUnit) (localId : String) : Prop where
  of_source : unit ∈ source.content.units
  selected : source.unitSelected selection unit = true
  element : ∃ id ∈ unit.elements, source.localOf selection id = some localId

end MappedSource

/-- The element stays under its local id, or is taken to the other. -/
def Document.reaches (d : Document) (localId id : String) : Prop :=
  id = localId ∨ ∃ t ∈ d.transforms, t.source = localId ∧ t.target = id

/-- Two elements are in units of one inseparable group. -/
def ShareGroup (units : List PreparedUnit) (id id' : String) : Prop :=
  ∃ unit ∈ units, ∃ unit' ∈ units, id ∈ unit.elements ∧ id' ∈ unit'.elements ∧
    ∃ group, unit.inseparable_group = some group ∧ unit'.inseparable_group = some group

section Obligations

variable (selection : List Selection) (sourceMap : List MappedSource) (d : Document)

/-- No two conditions that oblige come under one name. -/
def NamesApart : Prop :=
  ∀ source ∈ sourceMap, ∀ source' ∈ sourceMap, ∀ unit unit' id id',
    source.Obliges selection unit id → source'.Obliges selection unit' id' →
    join source.input.id id = join source'.input.id id' → source = source' ∧ id = id'

/-- Two elements of one inseparable group of a source, wherever they have come to. -/
def GroupsKept (elements : List Element) (units : List PreparedUnit) : Prop :=
  ∀ source ∈ sourceMap, ∀ unit unit' localId localId' group,
    source.Brings selection unit localId → source.Brings selection unit' localId' →
    unit.inseparable_group = some group → unit'.inseparable_group = some group →
    ∀ e ∈ elements, ∀ e' ∈ elements, d.reaches localId e.id → d.reaches localId' e'.id →
      ShareGroup units e.id e'.id

/-- What the document has to see to by itself: the names do not run together, a unit that an
element is taken to lists the conditions it comes with, and groups stay together. -/
structure Guarded : Prop where
  apart : NamesApart selection sourceMap
  carried : ∀ source ∈ sourceMap, ∀ unit id localId, source.Obliges selection unit id →
    source.Brings selection unit localId → ∀ t ∈ d.transforms, t.source = localId →
    ∀ new ∈ d.units, t.target ∈ new.elements → join source.input.id id ∈ new.conditions
  grouped : GroupsKept selection sourceMap d d.elements d.units

/-- The obligations of the base hold of what was produced. -/
structure Upheld (production : Production) : Prop where
  apart : NamesApart selection sourceMap
  occurs : ∀ source ∈ sourceMap, ∀ unit id, source.Obliges selection unit id →
    ∃ condition ∈ production.record.payload.conditions, condition.id = join source.input.id id ∧
      (production.names .condition condition.id ∨
        ∃ original, source.conditionOf id = some original ∧ condition.text = original.text ∧
          condition.scope = original.scope)
  listed : ∀ source ∈ sourceMap, ∀ unit id localId, source.Obliges selection unit id →
    source.Brings selection unit localId → ∀ new ∈ production.record.payload.units,
    (∃ e ∈ new.elements, d.reaches localId e) → join source.input.id id ∈ new.conditions
  grouped : GroupsKept selection sourceMap d production.record.payload.elements
    production.record.payload.units

end Obligations

/-! ### The conditions that are kept -/

theorem pushCondition_id {conditions : List Condition} {c : Condition} :
    ∃ kept ∈ pushCondition conditions c, kept.id = c.id := by
  rw [pushCondition]
  split
  · next there =>
    simpa using there
  · exact ⟨c, by simp, rfl⟩

theorem mem_pushConditions_of_acc {conditions acc : List Condition} {c : Condition}
    (member : c ∈ acc) : c ∈ conditions.foldl pushCondition acc := by
  induction conditions generalizing acc with
  | nil => exact member
  | cons condition rest ih =>
    apply ih
    rw [pushCondition]
    split
    · exact member
    · exact List.mem_append_left _ member

/-- Some condition is kept under the name of every one that comes. -/
theorem pushConditions_id {conditions acc : List Condition} {c : Condition}
    (member : c ∈ conditions) : ∃ kept ∈ conditions.foldl pushCondition acc, kept.id = c.id := by
  induction conditions generalizing acc with
  | nil => cases member
  | cons condition rest ih =>
    rcases List.mem_cons.mp member with rfl | later
    · obtain ⟨kept, pushed, same⟩ := @pushCondition_id acc c
      have later := @mem_pushConditions_of_acc rest _ kept pushed
      exact ⟨kept, later, same⟩
    · exact ih later

theorem mem_selectedConditions {selection : List Selection} {sourceMap : List MappedSource}
    {c : Condition} : c ∈ selectedConditions selection sourceMap ↔
      ∃ source ∈ sourceMap, ∃ unit id, source.Obliges selection unit id ∧
        source.conditionOf id = some c := by
  simp only [selectedConditions, MappedSource.selectedUnits, List.mem_flatMap, List.mem_filterMap]
  constructor
  · rintro ⟨source, member, ⟨taken, conditions⟩, ⟨unit, of_source, selected⟩, among⟩
    rw [MappedSource.selectedUnit] at selected
    split at selected
    · next chosen =>
      cases selected
      obtain ⟨id, listed, condition⟩ := List.mem_filterMap.mp among
      exact ⟨source, member, unit, id, ⟨of_source, chosen, listed⟩, condition⟩
    · cases selected
  · rintro ⟨source, member, unit, id, obliges, condition⟩
    refine ⟨source, member, (source.localUnit selection unit,
      unit.conditions.filterMap source.conditionOf), ⟨unit, obliges.of_source, ?_⟩, ?_⟩
    · rw [MappedSource.selectedUnit, if_pos obliges.selected]
    · exact List.mem_filterMap.mpr ⟨id, obliges.condition, condition⟩

theorem conditionOf_id {source : MappedSource} {id : String} {c : Condition}
    (found : source.conditionOf id = some c) : c.id = join source.input.id id := by
  obtain ⟨original, -, rfl⟩ := Option.map_eq_some_iff.mp found
  rfl

theorem observe_sourceUnits {d : Document} {staged : Artifact} {mapped observed : Mapped}
    (ok : d.observe staged mapped = .ok observed) : observed.sourceUnits = mapped.sourceUnits := by
  rw [Document.observe] at ok
  split at ok
  · exact (Except.ok.inj ok) ▸ rfl
  · simp only [except_bind_eq_ok] at ok
    obtain ⟨_, -, _, -, _, -, _, -, done⟩ := ok
    cases done
    rfl

namespace Constructed

variable {codec : Codec} {args : ConstructArgs} {production : Production}
variable {sourceMap : List MappedSource} {mapped observed : Mapped}
variable (built : Constructed codec args production sourceMap mapped observed)

include built

/-- A unit that has an element of a source unit lists its conditions. -/
theorem lists {source : MappedSource} (member : source ∈ sourceMap) {unit : PreparedUnit}
    {id localId : String} (obliges : source.Obliges args.reservation.selection unit id)
    (brings : source.Brings args.reservation.selection unit localId) {new : PreparedUnit}
    (drafted : new ∈ args.document.units) (has : localId ∈ new.elements) :
    join source.input.id id ∈ new.conditions := by
  have units := built.units
  simp only [Document.checkUnits, except_bind_eq_ok, checkEach_eq_ok] at units
  obtain ⟨_, -, each⟩ := units
  have passed := each new drafted
  simp only [Document.checkUnit, except_bind_eq_ok, ensure_eq_ok] at passed
  obtain ⟨_, -, listed⟩ := passed
  have taken := (foldSources_eq_ok built.folded).2.2.1
  obtain ⟨element, of_unit, here⟩ := brings.element
  have among : source.localUnit args.reservation.selection unit ∈ observed.sourceUnits := by
    rw [observe_sourceUnits built.observing, taken]
    apply List.mem_append_right
    have here : (source.localUnit args.reservation.selection unit,
        unit.conditions.filterMap source.conditionOf) ∈
        source.selectedUnits args.reservation.selection := by
      apply List.mem_filterMap.mpr
      refine ⟨unit, obliges.of_source, ?_⟩
      rw [MappedSource.selectedUnit, if_pos obliges.selected]
    exact List.mem_flatMap.mpr ⟨source, member, List.mem_map_of_mem here⟩
  have shares : localId ∈ (source.localUnit args.reservation.selection unit).elements :=
    List.mem_filterMap.mpr ⟨element, of_unit, here⟩
  by_contra missing
  -- an unlisted condition of a unit that has the element is what the check looks for
  rw [Bool.not_eq_true', List.any_eq_false] at listed
  apply listed _ among
  rw [Bool.and_eq_true, List.any_eq_true, List.any_eq_true]
  exact ⟨⟨localId, shares, decide_eq_true has⟩,
    _, List.mem_map_of_mem obliges.condition, decide_eq_true missing⟩

/-- A condition that obliges is kept under its name, as it is or as a difference says, if the name
is its own. -/
theorem occurs (apart : NamesApart args.reservation.selection sourceMap) {source : MappedSource}
    (member : source ∈ sourceMap) {unit : PreparedUnit} {id : String}
    (obliges : source.Obliges args.reservation.selection unit id) :
    ∃ condition ∈ args.document.conditions, condition.id = join source.input.id id ∧
      (production.names .condition condition.id ∨
        ∃ original, source.conditionOf id = some original ∧ condition.text = original.text ∧
          condition.scope = original.scope) := by
  obtain ⟨-, -, -, conditions, -, closed⟩ := foldSources_eq_ok built.folded
  obtain ⟨original, found⟩ := (closed source member unit obliges.of_source obliges.selected).2 id
    obliges.condition
  have comes : original ∈ selectedConditions args.reservation.selection sourceMap :=
    mem_selectedConditions.mpr ⟨source, member, unit, id, obliges, found⟩
  obtain ⟨kept, pushed, same⟩ : ∃ kept ∈ (selectedConditions args.reservation.selection
      sourceMap).foldl pushCondition Mapped.empty.conditions, kept.id = original.id :=
    pushConditions_id comes
  -- the one kept under the name is this one, as no other comes under it
  have own : kept = original := by
    rcases mem_pushConditions pushed with none_before | selected
    · cases none_before
    · obtain ⟨source', member', unit', id', obliges', found'⟩ := mem_selectedConditions.mp selected
      have names : join source.input.id id = join source'.input.id id' := by
        rw [← conditionOf_id found, ← conditionOf_id found', same]
      obtain ⟨rfl, rfl⟩ := apart source member source' member' _ _ _ _ obliges obliges' names
      exact Option.some.inj (found'.symm.trans found)
  rw [← conditions, own] at pushed
  have changes := built.changes
  simp only [Document.checkChanges, except_bind_eq_ok] at changes
  obtain ⟨_, -, _, -, _, -, _, -, _, -, conditioned⟩ := changes
  obtain ⟨next, present, same_id, unchanged | ⟨affected, -⟩⟩ :=
    (Document.checkContext_eq_ok conditioned).1 original pushed
  · exact ⟨next, present, same_id.trans (conditionOf_id found),
      .inr ⟨original, found, by rw [unchanged], by rw [unchanged]⟩⟩
  · refine ⟨next, present, same_id.trans (conditionOf_id found), .inl ?_⟩
    rw [same_id]
    exact built.names affected

end Constructed

/-- The obligations of the base hold of what is produced exactly if the document sees to what the
producer does not check. -/
theorem obligations_upheld {codec : Codec} {args : ConstructArgs} {production : Production}
    (ok : constructPreparation codec args = .ok production) :
    ∃ sourceMap, admitSources codec args = .ok sourceMap ∧
      (Upheld args.reservation.selection sourceMap args.document production ↔
        Guarded args.reservation.selection sourceMap args.document) := by
  obtain ⟨sourceMap, mapped, observed, built⟩ := constructed ok
  refine ⟨sourceMap, built.admitted, ?_⟩
  constructor
  · intro upheld
    refine ⟨upheld.apart, ?_, ?_⟩
    · intro source member unit id localId obliges brings t declared taken new drafted has
      apply upheld.listed source member unit id localId obliges brings new
      · rw [built.payload]
        exact drafted
      · exact ⟨t.target, has, .inr ⟨t, declared, taken, rfl⟩⟩
    · have grouped := upheld.grouped
      rwa [built.payload] at grouped
  · intro guarded
    refine ⟨guarded.apart, ?_, ?_, ?_⟩
    · intro source member unit id obliges
      rw [built.payload]
      exact built.occurs guarded.apart member obliges
    · rw [built.payload]
      rintro source member unit id localId obliges brings new drafted ⟨e, has, stays | moved⟩
      · exact built.lists member obliges brings drafted (stays ▸ has)
      · obtain ⟨t, declared, taken, target⟩ := moved
        exact guarded.carried source member unit id localId obliges brings t declared taken new drafted
          (target ▸ has)
    · rw [built.payload]
      exact guarded.grouped

/-! ### One base under two aliases -/

/-- Two texts of one inseparable group, under two conditions. -/
def baseUnit : PreparedUnit :=
  { wholeUnit ["rule", "exception"] with
    conditions := ["b:c", "c"]
    inseparable_group := some "rules" }

def basePayload : Payload where
  inputs := [⟨"input", refTo "accepted", ⟨"normalized", 1, 0, someDigest⟩,
    some ⟨"job", refTo "receipt", ⟨"original", 1, 26, someDigest⟩, refTo "output"⟩⟩]
  elements := [ruleElement "Rule Q." .bytes (6, 14) "rule",
    ruleElement "Under Z, R." .bytes (14, 26) "exception"]
  relations := []
  resources := []
  resource_associations := []
  conditions := [⟨"b:c", "if Z", "all"⟩, ⟨"c", "unless W", "all"⟩]
  units := [baseUnit]
  components := [⟨"input:text", .completed, .partialCoverage, .unchecked, [], []⟩]
  incidents := []
  inventory := .unknown
  interruptions := []
  transformations := none

def baseRecord : PreparedRecord where
  reference := refTo "base"
  descriptor := ⟨"base", 1, ⟨"payload", 1, 0, someDigest⟩, basePayload.inputs, [], refTo "earlier",
    "actor", 1⟩
  payload := basePayload
  differences := []

def baseArgs (document : Document) : ConstructArgs where
  reservation := {
    inputs := [⟨"a", refTo "base", none⟩, ⟨"a:b", refTo "base", none⟩]
    base := some (refTo "base")
    selection := [⟨"a", "rule", "rule", none, none⟩, ⟨"a", "exception", "exception", none, none⟩,
      ⟨"a:b", "rule", "rule-2", none, none⟩, ⟨"a:b", "exception", "exception-2", none, none⟩]
    documentBytes := 0
    documentSha256 := someDigest
    context := ⟨"scope", "purpose", refTo "treatment"⟩ }
  document := document
  staged := ⟨"staged", 1, 0, someDigest⟩
  stagedBytes := []
  sources := ["a", "a:b"].map fun id =>
    ⟨⟨id, refTo "base", ⟨"payload", 1, 0, someDigest⟩, none⟩, [], some baseRecord⟩
  id := "prepared"
  revision := 1
  artifactId := "prepared-payload"
  operation := refTo "operation"
  actor := "actor"
  recordedAt := 1
  resourceBodies := []

def baseElement (inputAlias text : String) (kind : LocatorKind) (place : Range) (id : String) :
    Element :=
  ⟨id, .text text, [⟨join inputAlias "input", kind, "original:" ++ rangeText place, some place,
    some place⟩]⟩

/-- The rule is taken to another text, which stands alone and unconditionally. -/
def regrouping : Document where
  transformation := .synthesis
  elements := [baseElement "a" "Rule Q." .bytes (6, 14) "rule",
    baseElement "a" "Under Z, R." .bytes (14, 26) "exception",
    baseElement "a:b" "Rule Q." .bytes (6, 14) "rule-2",
    baseElement "a:b" "Under Z, R." .bytes (14, 26) "exception-2",
    baseElement "a" "Use Q." .nonliteral (6, 14) "authored"]
  relations := []
  conditions := [⟨"a:b:c", "if Z", "all"⟩, ⟨"a:c", "unless W", "all"⟩, ⟨"a:b:b:c", "if Z", "all"⟩]
  units := [{ wholeUnit ["rule", "exception", "rule-2", "exception-2"] with
      conditions := ["a:b:c", "a:c", "a:b:b:c"]
      coverage := ⟨["a:input:text"], false, "whole"⟩ },
    { wholeUnit ["authored"] with
      id := "summary"
      coverage := ⟨["a:input:text"], false, "whole"⟩ }]
  differences := [⟨["a"], .synthesis, .redaction, "summed up", [⟨.element, "authored"⟩]⟩]
  transformations := some [⟨"rule", "authored"⟩]
  observation := none

/-- The base as either alias has it. -/
def baseSource (inputAlias : String) : MappedSource where
  input := ⟨inputAlias, refTo "base", ⟨"payload", 1, 0, someDigest⟩, none⟩
  content := basePayload.asSource

theorem baseSource_obliges {inputAlias id : String} (taken : inputAlias ∈ ["a", "a:b"])
    (listed : id ∈ baseUnit.conditions) : (baseSource inputAlias).Obliges
      (baseArgs regrouping).reservation.selection baseUnit id := by
  refine ⟨List.mem_singleton_self _, ?_, listed⟩
  simp only [List.mem_cons, List.not_mem_nil, or_false] at taken
  rcases taken with rfl | rfl <;> decide +kernel

theorem baseSource_brings {localId : String} (taken : localId ∈ ["rule", "exception"]) :
    (baseSource "a").Brings (baseArgs regrouping).reservation.selection baseUnit localId := by
  refine ⟨List.mem_singleton_self _, by decide +kernel, localId, taken, ?_⟩
  simp only [List.mem_cons, List.not_mem_nil, or_false] at taken
  rcases taken with rfl | rfl <;> decide +kernel

/-- What the selection takes of the base. -/
def baseMapped : Mapped :=
  (mapSources (baseArgs regrouping) (["a", "a:b"].map baseSource)).toOption.getD Mapped.empty

theorem base_admits : (admitSources (plainCodec regrouping) (baseArgs regrouping)).toOption.map id =
    some (["a", "a:b"].map baseSource) := by
  decide +kernel

/-- What the document comes to, computed at once. -/
theorem regrouping_runs :
    validateReservation (baseArgs regrouping).reservation = true ∧
    isDocument regrouping = true ∧
    (mapSources (baseArgs regrouping) (["a", "a:b"].map baseSource)).toOption.isSome = true ∧
    baseMapped.resources = [] ∧
    (regrouping.checkChanges baseMapped).toOption.isSome = true ∧
    (regrouping.checkUnits baseMapped).toOption.isSome = true ∧
    isPayload (regrouping.payloadOf baseMapped) = true ∧
    ((regrouping.differences.zipIdx.mapM
      (sealDraft (plainCodec regrouping) (baseArgs regrouping) (["a", "a:b"].map baseSource)
        ⟨"prepared", 1, "prepared-payload", 1, 0, someDigest⟩)).toOption.any
          (sealable (plainCodec regrouping) (baseArgs regrouping) (regrouping.payloadOf baseMapped)
            ⟨"prepared-payload", 1, 0, someDigest⟩)) = true := by
  decide +kernel

/-- The base is admitted under either alias. -/
theorem base_admitted : admitSources (plainCodec regrouping) (baseArgs regrouping) =
    .ok (["a", "a:b"].map baseSource) := by
  obtain ⟨found, admitted, same⟩ := exists_of_toOption base_admits
  obtain rfl : found = ["a", "a:b"].map baseSource := same
  exact admitted

theorem regrouping_constructs : ∃ production,
    constructPreparation (plainCodec regrouping) (baseArgs regrouping) = .ok production ∧
      production.record.payload.conditions = regrouping.conditions ∧
      production.record.payload.units = regrouping.units ∧
      (production.record.differences.flatMap fun d => d.body.affected) =
        [⟨.element, "authored"⟩] := by
  obtain ⟨reserved, valid, some, bare, changed, covered, shaped, sealing⟩ := regrouping_runs
  obtain ⟨mapped, mapping⟩ := eq_ok_of_isSome some
  have taken : baseMapped = mapped := by
    rw [baseMapped, mapping]
    rfl
  obtain ⟨_, changes⟩ := eq_ok_of_isSome changed
  obtain ⟨_, units⟩ := eq_ok_of_isSome covered
  obtain ⟨production, made⟩ := constructs
    (checkProductionInput_of_valid reserved valid ⟨rfl, rfl⟩
      (artifact_made _ List.mem_cons_self) rfl)
    base_admitted (taken ▸ mapping) changes rfl bare units shaped rfl
    (artifact_made "prepared-payload" (by simp)) sealing
  obtain ⟨_, _, _, built⟩ := constructed made
  refine ⟨production, made, congrArg Payload.conditions built.payload,
    congrArg Payload.units built.payload, ?_⟩
  rw [List.flatMap_def, built.differences]
  rfl

/-- A condition is nowhere, as another has its name; a text made of an obliged one is without its
condition; and what was inseparable is in no group. -/
theorem regrouped_base : ∃ production sourceMap,
    constructPreparation (plainCodec regrouping) (baseArgs regrouping) = .ok production ∧
    admitSources (plainCodec regrouping) (baseArgs regrouping) = .ok sourceMap ∧
    (∃ source ∈ sourceMap, ∃ unit id original,
      source.Obliges (baseArgs regrouping).reservation.selection unit id ∧
      source.conditionOf id = some original ∧
      ∀ condition ∈ production.record.payload.conditions, condition.id = original.id →
        condition.text ≠ original.text ∧ ¬production.names .condition condition.id) ∧
    (∃ source ∈ sourceMap, ∃ unit id localId,
      source.Obliges (baseArgs regrouping).reservation.selection unit id ∧
      source.Brings (baseArgs regrouping).reservation.selection unit localId ∧
      ∃ new ∈ production.record.payload.units,
        (∃ e ∈ new.elements, regrouping.reaches localId e) ∧
        join source.input.id id ∉ new.conditions) ∧
    ∃ source ∈ sourceMap, ∃ unit localId localId' group,
      source.Brings (baseArgs regrouping).reservation.selection unit localId ∧
      source.Brings (baseArgs regrouping).reservation.selection unit localId' ∧
      unit.inseparable_group = some group ∧
      ¬ShareGroup production.record.payload.units localId localId' := by
  obtain ⟨production, built, conditions, units, affected⟩ := regrouping_constructs
  have first : baseSource "a" ∈ ["a", "a:b"].map baseSource := List.mem_cons_self
  have second : baseSource "a:b" ∈ ["a", "a:b"].map baseSource :=
    List.mem_cons_of_mem _ List.mem_cons_self
  have unnamed : ∀ id, ¬production.names .condition id := by
    rintro id ⟨difference, recorded, named⟩
    have among : ⟨.condition, id⟩ ∈ production.record.differences.flatMap
        fun d => d.body.affected := List.mem_flatMap.mpr ⟨difference, recorded, named⟩
    rw [affected, List.mem_singleton] at among
    cases among
  refine ⟨production, ["a", "a:b"].map baseSource, built, base_admitted, ?_, ?_, ?_⟩
  · refine ⟨baseSource "a:b", second, baseUnit, "c", ⟨"a:b:c", "unless W", "all"⟩,
      baseSource_obliges (by decide) (by decide), by decide +kernel, ?_⟩
    rw [conditions]
    intro condition member same
    refine ⟨?_, unnamed _⟩
    simp only [regrouping, List.mem_cons, List.not_mem_nil, or_false] at member
    rcases member with rfl | rfl | rfl
    · decide
    · exact absurd same (by decide)
    · exact absurd same (by decide)
  · refine ⟨baseSource "a", first, baseUnit, "c", "rule", baseSource_obliges (by decide) (by decide),
      baseSource_brings (by decide), ?_⟩
    rw [units]
    refine ⟨_, List.mem_cons_of_mem _ List.mem_cons_self, ⟨"authored", List.mem_cons_self, .inr ?_⟩,
      List.not_mem_nil⟩
    exact ⟨⟨"rule", "authored"⟩, List.mem_cons_self, rfl, rfl⟩
  · refine ⟨baseSource "a", first, baseUnit, "rule", "exception", "rules",
      baseSource_brings (by decide), baseSource_brings (by decide), rfl, ?_⟩
    rw [units]
    rintro ⟨unit, member, -, -, -, -, group, has, -⟩
    simp only [regrouping, wholeUnit, List.mem_cons, List.not_mem_nil, or_false] at member
    rcases member with rfl | rfl <;> cases has

theorem obligations_upheld_regrouping : ∃ production,
    constructPreparation (plainCodec regrouping) (baseArgs regrouping) = .ok production ∧
      ∃ sourceMap, Upheld (baseArgs regrouping).reservation.selection sourceMap regrouping production ↔
        Guarded (baseArgs regrouping).reservation.selection sourceMap regrouping := by
  obtain ⟨production, built, -⟩ := regrouping_constructs
  obtain ⟨sourceMap, -, exactly⟩ := obligations_upheld built
  exact ⟨production, built, sourceMap, exactly⟩

end LedgerDesk.Preparation
