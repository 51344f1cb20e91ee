import LedgerDesk.Preparation.Selected

/-!
# The producer accepts the document of the browser

Every change the browser makes of the selected material is declared in its document, and what comes
of the document is within the contract.
-/
namespace LedgerDesk.Preparation

open Foundation

variable {content : ExtractionContent} {draft : PreparationDraft} {outcome : ExaminationOutcome}
  {picked : List (Element × Bool)} {retained : List (Option Relation)} {declared : List Relation}
  {d : Document} {input : Input}

/-! ### Declared changes -/

structure DocumentFacts (d : Document) : Prop where
  elementsFew : d.elements.length ≤ Bounds.entries
  elementShaped : ∀ e ∈ d.elements, isElement e = true
  relationShaped : isArray isRelation Bounds.entries d.relations = true
  conditionShaped : isArray isCondition Bounds.entries d.conditions = true
  unitShaped : isArray isUnit Bounds.units d.units = true
  differenceShaped : ∀ x ∈ d.differences, isDifferenceDraft x = true
  elements : (d.elements.map Element.id).Nodup
  relations : (d.relations.map Relation.id).Nodup
  conditions : (d.conditions.map Condition.id).Nodup
  units : (d.units.map PreparedUnit.id).Nodup

theorem documentFacts (valid : isDocument d = true) : DocumentFacts d := by
  simp only [isDocument, Bool.and_eq_true, distinct_iff] at valid
  obtain ⟨⟨⟨⟨⟨⟨⟨elements, relationShaped⟩, conditionShaped⟩, unitShaped⟩, differences⟩, -⟩, -⟩,
    ⟨⟨elementIds, relations⟩, conditions⟩, units⟩ := valid
  simp only [isArray, Bool.and_eq_true, decide_eq_true_iff, List.all_eq_true] at elements differences
  exact {
    elementsFew := elements.1
    elementShaped := elements.2
    differenceShaped := differences.2
    elements := elementIds
    relationShaped, conditionShaped, unitShaped, relations, conditions, units }

namespace Drafted

variable (drafted : Drafted content draft outcome picked retained declared d)

include drafted

theorem affected_nonempty {a : Affected} (member : a ∈ draftAffected draft picked) :
    d.transformation = .correction ∧
      d.differences = [⟨["source"], .correction, .cleanup, draft.changeReason,
        draftAffected draft picked⟩] := by
  have nonempty : (draftAffected draft picked).isEmpty = false :=
    List.isEmpty_eq_false_iff_exists_mem.mpr ⟨a, member⟩
  rw [drafted.document, draftDocument, nonempty]
  exact ⟨rfl, rfl⟩

theorem affected_of {a : Affected} (member : a ∈ draftAffected draft picked) :
    d.affected a.kind a.id = true := by
  rw [Document.affected, (drafted.affected_nonempty member).2]
  simp only [List.any_cons, List.any_nil, Bool.or_false, List.any_eq_true]
  exact ⟨a, member, decide_eq_true rfl⟩

theorem changed_of {a : Affected} (member : a ∈ draftAffected draft picked) :
    d.changed a.kind a.id = .ok () := by
  rw [Document.changed, drafted.affected_of member, (drafted.affected_nonempty member).1]
  rfl

/-- Where an element is not as its source has it, the document says so. -/
theorem kept {source : ExtractionElement} (member : source ∈ selectedOf content draft) :
    d.checkKept (sourceElement source) = .ok () := by
  obtain ⟨p, among, held, one⟩ := drafted.element_of member
  obtain ⟨id, places, resource, unchanged⟩ := correctElement_eq_ok one
  have found : (d.elements.find? fun e => e.id = (sourceElement source).id) = some p.1 := by
    have same : (sourceElement source).id = p.1.id := id.symm
    rw [same]
    exact Rows.find?_of_key (documentFacts drafted.valid).elements held
  rw [Document.checkKept, found]
  dsimp only
  by_cases equal : sourceElement source = p.1
  · simp [equal, ensure, bind, Except.bind, pure, Except.pure]
  · have changes : p.2 = true := by
      by_contra same
      exact equal (unchanged (by simpa using same)).symm
    have noted : (⟨.element, p.1.id⟩ : Affected) ∈ draftAffected draft picked := by
      rw [draftAffected, List.append_assoc]
      refine List.mem_append_left _ (List.mem_map.mpr ⟨p, List.mem_filter.mpr ⟨among, changes⟩, rfl⟩)
    have passes := drafted.changed_of noted
    -- A resource has no correction, so an element that changed is none.
    have text : (sourceElement source).body.resource?.isSome = false := by
      rw [correctElement] at one
      split at one
      · cases one
        exact absurd rfl equal
      · split at one
        · next old was => rw [sourceElement, was]; rfl
        · cases one
    change d.changed .element p.1.id = .ok () at passes
    rw [id] at passes
    change d.changed .element (sourceElement source).id = .ok () at passes
    rw [text, Bool.false_and, if_pos equal, passes]
    rfl

theorem element_named (e : Element) (member : e ∈ d.elements) :
    (((selectedOf content draft).map sourceElement).any fun before => before.id = e.id) = true := by
  obtain ⟨source, held, p, -, rfl, one⟩ := drafted.source_of member
  refine List.any_eq_true.mpr ⟨sourceElement source, List.mem_map_of_mem held, ?_⟩
  exact decide_eq_true (correctElement_eq_ok one).1.symm

theorem transforms_nil : d.transforms = [] := by
  rw [drafted.document]
  rfl

theorem checkOrder_ok : d.checkOrder ((selectedOf content draft).map sourceElement) = .ok () := by
  have same : ((selectedOf content draft).map sourceElement).map Element.id =
      d.elements.map Element.id := by
    rw [drafted.ids, List.map_map]
    rfl
  rw [Document.checkOrder, if_neg]
  simp [same]

theorem relations_eq : d.relations = retained.reduceOption ++ declared := by
  rw [drafted.document]
  rfl

theorem conditions_eq : d.conditions = draft.conditions := by
  rw [drafted.document]
  rfl

/-- A dependency that the draft declares is the browser's own, and declared as such. -/
theorem declared_affected {r : Relation} (member : r ∈ declared) :
    r.origin = .prepared ∧ d.affected .relation r.id = true := by
  obtain ⟨dependency, held, one⟩ := source_of_mapM drafted.dependencies member
  obtain ⟨id, -, -, origin⟩ := declareDependency_eq_ok one
  have noted : (⟨.relation, dependency.id⟩ : Affected) ∈ draftAffected draft picked := by
    rw [draftAffected]
    exact List.mem_append_left _ (List.mem_append_right _ (List.mem_map.mpr ⟨_, held, rfl⟩))
  rw [id]
  exact ⟨origin, drafted.affected_of noted⟩

theorem checkRelations_ok : d.checkRelations retained.reduceOption = .ok () := by
  have facts := documentFacts drafted.valid
  simp only [Document.checkRelations, Document.checkContext, except_bind_eq_ok, checkEach_eq_ok]
  refine ⟨(), fun row member => ?_, fun row member => ?_⟩
  · have held : row ∈ d.relations := by
      rw [drafted.relations_eq]
      exact List.mem_append_left _ member
    rw [Document.checkRetained, Rows.find?_of_key facts.relations held]
    exact if_pos rfl
  · rw [Document.checkAdded]
    split
    · rfl
    · next fresh =>
      rw [drafted.relations_eq] at member
      rcases List.mem_append.mp member with before | new
      · exact absurd (List.any_eq_true.mpr ⟨row, before, decide_eq_true rfl⟩) fresh
      · obtain ⟨origin, affected⟩ := drafted.declared_affected new
        simp [origin, affected, ensure, bind, Except.bind]

theorem checkConditions_ok : d.checkConditions [] = .ok () := by
  simp only [Document.checkConditions, Document.checkContext, except_bind_eq_ok, checkEach_eq_ok]
  refine ⟨(), by simp, fun row member => ?_⟩
  rw [drafted.conditions_eq] at member
  have noted : (⟨.condition, row.id⟩ : Affected) ∈ draftAffected draft picked := by
    rw [draftAffected]
    exact List.mem_append_right _ (List.mem_map.mpr ⟨row, member, rfl⟩)
  have affected := drafted.affected_of noted
  simp [Document.checkAdded, affected, ensure, bind, Except.bind]

/-- Everything the browser changes is declared. -/
theorem checkChanges_ok :
    d.checkChanges (browserMapped content draft input retained.reduceOption) = .ok () := by
  have transformations :
      d.checkTransformations ((selectedOf content draft).map sourceElement) = .ok () := by
    rw [Document.checkTransformations, drafted.transforms_nil]
    rfl
  simp only [Document.checkChanges, except_bind_eq_ok]
  refine ⟨(), transformations, (), drafted.checkOrder_ok, (), ?_, (), ?_, (),
    drafted.checkRelations_ok, drafted.checkConditions_ok⟩
  · rw [checkEach_eq_ok]
    intro before member
    obtain ⟨source, held, rfl⟩ := List.mem_map.mp member
    exact drafted.kept held
  · rw [checkEach_eq_ok]
    intro after member
    rw [Document.checkAuthored, if_pos]
    exact drafted.element_named after member

theorem observe_ok (staged : Artifact) (mapped : Mapped) : d.observe staged mapped = .ok mapped := by
  rw [drafted.document]
  rfl

theorem units_eq : d.units = [draftUnit content draft outcome (picked.map Prod.fst)] := by
  rw [drafted.document]
  rfl

theorem unit_elements : (draftUnit content draft outcome (picked.map Prod.fst)).elements =
    d.elements.map Element.id := by
  rw [drafted.elements_eq]
  rfl

/-- The one unit has every element, and names the components of the source. -/
theorem checkUnits_ok (claim : draft.coverage.completeSourceClaim = false)
    (components : content.components ≠ []) :
    d.checkUnits (browserMapped content draft input retained.reduceOption) = .ok () := by
  have facts := documentFacts drafted.valid
  have flat : d.units.flatMap PreparedUnit.elements = d.elements.map Element.id := by
    rw [drafted.units_eq, List.flatMap_singleton, drafted.unit_elements]
  simp only [Document.checkUnits, except_bind_eq_ok, ensure_eq_ok, checkEach_eq_ok]
  refine ⟨(), ?_, fun unit member => ?_⟩
  · rw [flat, List.Nodup.dedup facts.elements, List.length_map, drafted.units_eq, Bool.and_eq_true]
    refine ⟨decide_eq_true rfl, List.all_eq_true.mpr fun e held => ?_⟩
    refine List.any_eq_true.mpr ⟨_, List.mem_singleton_self _, decide_eq_true ?_⟩
    rw [drafted.unit_elements]
    exact List.mem_map_of_mem held
  · rw [drafted.units_eq] at member
    rw [List.mem_singleton.mp member]
    simp only [Document.checkUnit, except_bind_eq_ok, ensure_eq_ok]
    refine ⟨(), ?_, rfl⟩
    simp [draftUnit, claim, components]

end Drafted

/-! ### The payload -/

section Resources

theorem mem_pushResources {rs acc : List Artifact} {r : Artifact} :
    r ∈ rs.foldl pushResource acc ↔ r ∈ acc ∨ r ∈ rs := by
  induction rs generalizing acc with
  | nil => simp
  | cons first rest ih =>
    rw [List.foldl_cons, ih, pushResource, List.mem_cons]
    split
    · next held =>
      constructor
      · exact fun among => among.imp_right .inr
      · rintro (among | rfl | among)
        · exact .inl among
        · exact .inl held
        · exact .inr among
    · rw [List.mem_append, List.mem_singleton, or_assoc]

theorem nodup_pushResources {rs acc : List Artifact} (apart : acc.Nodup) :
    (rs.foldl pushResource acc).Nodup := by
  induction rs generalizing acc with
  | nil => exact apart
  | cons first rest ih =>
    rw [List.foldl_cons, pushResource]
    split
    · exact ih apart
    · next fresh => exact ih (List.nodup_append_comm.mp (List.nodup_cons.mpr ⟨fresh, apart⟩))

theorem length_pushResources (rs acc : List Artifact) :
    (rs.foldl pushResource acc).length ≤ acc.length + rs.length := by
  induction rs generalizing acc with
  | nil => simp
  | cons first rest ih =>
    rw [List.foldl_cons, pushResource, List.length_cons]
    split
    · have below := ih acc
      omega
    · have below := ih (acc ++ [first])
      simp only [List.length_append, List.length_singleton] at below
      omega

theorem mem_selectedAssociations {a : ResourceAssociation} :
    a ∈ selectedAssociations content draft ↔ ∃ e ∈ selectedOf content draft,
      ∃ r, e.body.resource? = some r ∧ a = ⟨e.id, e.id, r⟩ := by
  simp only [selectedAssociations, List.mem_filterMap, associationOf, Option.map_eq_some_iff]
  constructor
  · rintro ⟨e, member, r, resource, rfl⟩
    exact ⟨e, member, r, resource, rfl⟩
  · rintro ⟨e, member, r, resource, rfl⟩
    exact ⟨e, member, r, resource, rfl⟩

/-- The names of the elements that bring a resource, in the order of the elements. -/
theorem selectedAssociations_ids (name : ResourceAssociation → String)
    (names : ∀ e r, name ⟨e, e, r⟩ = e) :
    ((selectedAssociations content draft).map name).Sublist
      ((selectedOf content draft).map ExtractionElement.id) := by
  rw [selectedAssociations]
  induction selectedOf content draft with
  | nil => exact .slnil
  | cons e rest ih =>
    rw [List.filterMap_cons, associationOf]
    cases e.body.resource? with
    | none => exact ih.cons _
    | some r =>
      simp only [Option.map_some, List.map_cons, names]
      exact ih.cons_cons _

theorem selectedAssociations_artifacts :
    (selectedAssociations content draft).map ResourceAssociation.artifact =
      (selectedOf content draft).filterMap fun e => e.body.resource? := by
  rw [selectedAssociations, List.map_filterMap]
  congr 1
  funext e
  rw [associationOf, Option.map_map]
  cases e.body.resource? <;> rfl

/-- A resource of the payload is one of a selected element, and among those of the content. -/
theorem mem_resources (facts : ContentFacts content) {r : Artifact}
    (member : r ∈ ((selectedAssociations content draft).map ResourceAssociation.artifact).foldl
      pushResource []) :
    (∃ e ∈ selectedOf content draft, e.body.resource? = some r) ∧ r ∈ content.resources := by
  rcases mem_pushResources.mp member with none | among
  · cases none
  · obtain ⟨a, held, rfl⟩ := List.mem_map.mp among
    obtain ⟨e, selected, r, resource, rfl⟩ := mem_selectedAssociations.mp held
    refine ⟨⟨e, selected, resource⟩, ?_⟩
    have placed := facts.elementPlaced e (mem_selectedOf.mp selected).1
    have shaped := facts.elementShaped e (mem_selectedOf.mp selected).1
    rw [ExtractionContent.elementPlaced] at placed
    rw [ExtractionContent.elementShaped] at shaped
    cases origin : e.origin with
    | stretch range =>
      -- Only a text has a stretch of the original.
      simp only [origin, Bool.and_eq_true] at shaped
      cases body : e.body <;> simp [body, Body.isText, Body.resource?] at shaped resource
    | located antecedents =>
      simp only [origin, Bool.and_eq_true, resource, Option.all_some, decide_eq_true_iff] at placed
      exact placed.2

theorem association_shaped (facts : ContentFacts content) {a : ResourceAssociation}
    (member : a ∈ selectedAssociations content draft) :
    identifier a.local_id = true ∧ identifier a.element_id = true ∧
      artifactReference a.artifact = true := by
  obtain ⟨e, selected, r, resource, rfl⟩ := mem_selectedAssociations.mp member
  have shaped := facts.elementShaped e (mem_selectedOf.mp selected).1
  rw [ExtractionContent.elementShaped, Bool.and_eq_true, Bool.and_eq_true] at shaped
  refine ⟨shaped.1.1, shaped.1.1, ?_⟩
  have body := shaped.1.2
  cases is : e.body with
  | text text => simp [is, Body.resource?] at resource
  | table table => simp [is, Body.resource?] at resource
  | resource artifact =>
    rw [is, isBody] at body
    rw [is, Body.resource?] at resource
    exact Option.some.inj resource ▸ body

end Resources

namespace Drafted

variable (drafted : Drafted content draft outcome picked retained declared d)

include drafted

theorem resources_eq : d.elements.map (fun e => e.body.resource?) =
    (selectedOf content draft).map fun e => e.body.resource? := by
  rw [drafted.elements_eq, List.map_map]
  exact (map_eq_of_mapM drafted.elements
    fun source p one => (correctElement_eq_ok one).2.2.1.symm).symm

theorem mem_elements_of_selected {id : String}
    (element : ∃ e ∈ content.elements, e.id = id) (selected : id ∈ draft.selected) :
    ∃ e ∈ d.elements, e.id = id := by
  obtain ⟨source, member, rfl⟩ := element
  obtain ⟨p, -, held, one⟩ := drafted.element_of (mem_selectedOf.mpr ⟨member, selected⟩)
  exact ⟨p.1, held, (correctElement_eq_ok one).1⟩

/-- The names that the draft selects are elements of the content. -/
theorem selected_element {id : String} (facts : ContentFacts content) (selected : id ∈ draft.selected) :
    ∃ e ∈ content.elements, e.id = id := by
  have ids : ((selectedOf content draft).map ExtractionElement.id).Nodup :=
    selectedOf_apart facts.toNamed
  have inside : (selectedOf content draft).map ExtractionElement.id ⊆ draft.selected.dedup := by
    intro id member
    obtain ⟨e, held, rfl⟩ := List.mem_map.mp member
    exact List.mem_dedup.mpr (mem_selectedOf.mp held).2
  have count : draft.selected.dedup.length ≤
      ((selectedOf content draft).map ExtractionElement.id).length := by
    rw [← drafted.covered, ← drafted.ids, drafted.elements_eq]
    simp
  have all := (List.subperm_of_subset ids inside).perm_of_length_le count
  have member := all.mem_iff.mpr (List.mem_dedup.mpr selected)
  obtain ⟨e, held, rfl⟩ := List.mem_map.mp member
  exact ⟨e, (mem_selectedOf.mp held).1, rfl⟩

theorem relation_ends (facts : ContentFacts content) {r : Relation} (member : r ∈ d.relations) :
    (∃ e ∈ d.elements, e.id = r.source) ∧ ∃ e ∈ d.elements, e.id = r.target := by
  have selected : r.source ∈ draft.selected ∧ r.target ∈ draft.selected := by
    rw [drafted.relations_eq] at member
    rcases List.mem_append.mp member with kept | new
    · obtain ⟨taken, among, is⟩ := List.mem_filterMap.mp kept
      obtain ⟨relation, -, one⟩ := source_of_mapM drafted.relations among
      rcases retainRelation_eq_ok one with ⟨left, right, rfl⟩ | ⟨-, -, rfl⟩
      · cases is
        exact ⟨left, right⟩
      · cases is
    · obtain ⟨dependency, -, one⟩ := source_of_mapM drafted.dependencies new
      obtain ⟨-, left, right, -⟩ := declareDependency_eq_ok one
      exact ⟨left, right⟩
  exact ⟨drafted.mem_elements_of_selected (drafted.selected_element facts selected.1) selected.1,
    drafted.mem_elements_of_selected (drafted.selected_element facts selected.2) selected.2⟩

end Drafted

/-- The payload that comes of the document. -/
def browserPayload (content : ExtractionContent) (draft : PreparationDraft) (input : Input)
    (d : Document) : Payload :=
  d.payloadOf (browserMapped content draft input [])

/-- What the payload takes from the source. -/
structure SourceFits (content : ExtractionContent) (input : Input) : Prop where
  valid : isExtractionContent content = true
  shaped : isInput input = true
  name : input.id = "source"
  names : NamesFit content

namespace Drafted

variable (drafted : Drafted content draft outcome picked retained declared d)

theorem join_injective (inputAlias : String) : Function.Injective (join inputAlias) := by
  intro a b same
  have chars := congrArg String.toList same
  simp only [join, String.toList_append, List.append_assoc, List.append_cancel_left_eq] at chars
  exact String.toList_inj.mp chars

include drafted

theorem associations_length :
    (selectedAssociations content draft).length =
      (d.elements.filter fun e => e.body.resource?.isSome).length := by
  have counted : (selectedAssociations content draft).length =
      ((selectedOf content draft).map fun e => e.body.resource?).countP Option.isSome := by
    rw [← List.length_map (f := ResourceAssociation.artifact), selectedAssociations_artifacts,
      List.length_filterMap_eq_countP, List.countP_map]
    rfl
  rw [counted, ← drafted.resources_eq, List.countP_map, ← List.countP_eq_length_filter]
  rfl

theorem association_element {a : ResourceAssociation}
    (member : a ∈ selectedAssociations content draft) :
    ∃ e ∈ d.elements, e.id = a.element_id ∧ e.body.resource? = some a.artifact := by
  obtain ⟨source, selected, r, resource, rfl⟩ := mem_selectedAssociations.mp member
  obtain ⟨p, -, held, one⟩ := drafted.element_of selected
  obtain ⟨id, -, same, -⟩ := correctElement_eq_ok one
  exact ⟨p.1, held, id, same.trans resource⟩

theorem associations_few : (selectedAssociations content draft).length ≤ Bounds.entries := by
  rw [drafted.associations_length]
  exact (List.length_filter_le _ _).trans (documentFacts drafted.valid).elementsFew

theorem payload_shaped (fits : SourceFits content input) :
    (browserPayload content draft input d).shaped = true := by
  have facts := contentFacts fits.valid
  have document := documentFacts drafted.valid
  have associations : isArray (fun association : ResourceAssociation =>
      identifier association.local_id && identifier association.element_id &&
        artifactReference association.artifact) Bounds.entries
      (selectedAssociations content draft) = true := by
    simp only [isArray, Bool.and_eq_true, decide_eq_true_iff, List.all_eq_true]
    refine ⟨drafted.associations_few, fun a member => ?_⟩
    obtain ⟨id, element, artifact⟩ := association_shaped facts member
    exact ⟨⟨id, element⟩, artifact⟩
  have resources : isArray artifactReference Bounds.entries
      (((selectedAssociations content draft).map ResourceAssociation.artifact).foldl
        pushResource []) = true := by
    simp only [isArray, Bool.and_eq_true, decide_eq_true_iff, List.all_eq_true]
    refine ⟨?_, fun r member => facts.resourceShaped r (mem_resources facts member).2⟩
    have short := length_pushResources
      ((selectedAssociations content draft).map ResourceAssociation.artifact) []
    rw [List.length_map, List.length_nil, Nat.zero_add] at short
    exact short.trans drafted.associations_few
  have components : isArray isComponent Bounds.entries (content.components.map joinedComponent) = true := by
    simp only [isArray, Bool.and_eq_true, decide_eq_true_iff, List.all_eq_true]
    refine ⟨by rw [List.length_map]; exact facts.componentsFew, fun c member => ?_⟩
    obtain ⟨row, held, rfl⟩ := List.mem_map.mp member
    have shaped := facts.componentShaped row held
    rw [isComponent, Bool.and_eq_true, Bool.and_eq_true] at shaped ⊢
    refine ⟨⟨fits.names.component row held, shaped.1.2⟩, ?_⟩
    have listed := shaped.2
    simp only [isArray, Bool.and_eq_true, decide_eq_true_iff, List.all_eq_true] at listed
    simp only [joinedComponent, isArray, Bool.and_eq_true, decide_eq_true_iff, List.all_eq_true,
      List.length_map]
    refine ⟨listed.1, fun id listed => ?_⟩
    obtain ⟨old, named, rfl⟩ := List.mem_map.mp listed
    obtain ⟨i, incident, rfl, -⟩ := (incidentsMatch_iff.mp facts.incidentsMatch).2 row held old named
    exact fits.names.incident i incident
  have incidents : isArray isIncident Bounds.entries (content.incidents.map joinedIncident) = true := by
    simp only [isArray, Bool.and_eq_true, decide_eq_true_iff, List.all_eq_true]
    refine ⟨by rw [List.length_map]; exact facts.incidentsFew, fun i member => ?_⟩
    obtain ⟨row, held, rfl⟩ := List.mem_map.mp member
    have shaped := facts.incidentShaped row held
    obtain ⟨c, there, id, -⟩ := (incidentsMatch_iff.mp facts.incidentsMatch).1 row held
    simp only [isIncident, Bool.and_eq_true] at shaped
    simp only [joinedIncident, isIncident, Bool.and_eq_true]
    refine ⟨⟨⟨fits.names.incident row held, ?_⟩, shaped.1.2⟩, shaped.2⟩
    rw [← id]
    exact fits.names.component c there
  have elements : isArray isElement Bounds.entries d.elements = true := by
    simp only [isArray, Bool.and_eq_true, decide_eq_true_iff, List.all_eq_true]
    exact ⟨document.elementsFew, document.elementShaped⟩
  have inputs : isNonempty isInput Bounds.inputs [input] = true := by
    simp [isNonempty, isArray, fits.shaped, Bounds.inputs]
  have transforms := drafted.transforms_nil
  simp only [Payload.shaped, browserPayload, Document.payloadOf, browserMapped, Bool.and_eq_true]
  refine ⟨⟨⟨⟨⟨⟨⟨⟨⟨⟨inputs, elements⟩, document.relationShaped⟩, resources⟩, associations⟩,
    document.conditionShaped⟩, document.unitShaped⟩, components⟩, incidents⟩, rfl⟩, ?_⟩
  rw [transforms]
  rfl

theorem payload_idsDistinct (fits : SourceFits content input) :
    (browserPayload content draft input d).idsDistinct = true := by
  have facts := contentFacts fits.valid
  have document := documentFacts drafted.valid
  have resources : ((((selectedAssociations content draft).map ResourceAssociation.artifact).foldl
      pushResource []).map Artifact.id).Nodup := by
    refine (nodup_pushResources List.nodup_nil).map_on fun r held r' held' same => ?_
    exact Rows.eq_of_key facts.resources (mem_resources facts held).2 (mem_resources facts held').2
      same
  have components : ((content.components.map joinedComponent).map Component.id).Nodup := by
    have ids : (content.components.map joinedComponent).map Component.id =
        (content.components.map Component.id).map (join "source") := by
      rw [List.map_map, List.map_map]
      rfl
    rw [ids]
    exact facts.components.map (join_injective "source")
  have incidents : ((content.incidents.map joinedIncident).map Incident.id).Nodup := by
    have ids : (content.incidents.map joinedIncident).map Incident.id =
        (content.incidents.map Incident.id).map (join "source") := by
      rw [List.map_map, List.map_map]
      rfl
    rw [ids]
    exact facts.incidents.map (join_injective "source")
  simp only [Payload.idsDistinct, browserPayload, Document.payloadOf, browserMapped,
    Bool.and_eq_true, distinct_iff]
  exact ⟨⟨⟨⟨⟨⟨⟨List.nodup_singleton _, document.elements⟩, document.relations⟩, resources⟩,
    document.conditions⟩, document.units⟩, components⟩, incidents⟩

theorem payload_elementsPlaced (fits : SourceFits content input) :
    (browserPayload content draft input d).elementsPlaced = true := by
  refine List.all_eq_true.mpr fun e member => List.all_eq_true.mpr fun loc among => ?_
  obtain ⟨source, -, p, -, rfl, one⟩ := drafted.source_of member
  rw [(correctElement_eq_ok one).2.1] at among
  have place : loc.input_id = "source" := by
    cases origin : source.origin with
    | stretch range =>
      rw [origin, sourcePlaces, List.mem_singleton] at among
      rw [among]
    | located antecedents =>
      rw [origin, sourcePlaces] at among
      obtain ⟨old, -, rfl⟩ := List.mem_map.mp among
      rfl
  refine List.any_eq_true.mpr ⟨input, List.mem_singleton_self _, decide_eq_true ?_⟩
  rw [fits.name, place]

theorem payload_resourcesUsed (fits : SourceFits content input) :
    (browserPayload content draft input d).resourcesUsed = true := by
  have facts := contentFacts fits.valid
  rw [Payload.resourcesUsed, Bool.and_eq_true]
  constructor
  · refine List.all_eq_true.mpr fun e member => ?_
    obtain ⟨source, selected, p, -, rfl, one⟩ := drafted.source_of member
    rw [(correctElement_eq_ok one).2.2.1]
    cases resource : source.body.resource? with
    | none => rfl
    | some r =>
      refine decide_eq_true (mem_pushResources.mpr
        (.inr (List.mem_map.mpr ⟨⟨source.id, source.id, r⟩, ?_, rfl⟩)))
      exact mem_selectedAssociations.mpr ⟨source, selected, r, resource, rfl⟩
  · refine List.all_eq_true.mpr fun r member => ?_
    obtain ⟨⟨source, selected, resource⟩, -⟩ := mem_resources facts member
    obtain ⟨p, -, held, one⟩ := drafted.element_of selected
    refine List.any_eq_true.mpr ⟨p.1, held, decide_eq_true ?_⟩
    rw [(correctElement_eq_ok one).2.2.1, resource]

theorem payload_resourcesAssociated (fits : SourceFits content input) :
    (browserPayload content draft input d).resourcesAssociated = true := by
  have facts := contentFacts fits.valid
  have apart : ((selectedOf content draft).map ExtractionElement.id).Nodup :=
    selectedOf_apart facts.toNamed
  simp only [Payload.resourcesAssociated, browserPayload, Document.payloadOf, browserMapped,
    Bool.and_eq_true, distinct_iff]
  refine ⟨⟨⟨?_, ?_⟩, decide_eq_true drafted.associations_length⟩, List.all_eq_true.mpr fun a member => ?_⟩
  · exact apart.sublist (selectedAssociations_ids _ fun _ _ => rfl)
  · exact apart.sublist (selectedAssociations_ids _ fun _ _ => rfl)
  · obtain ⟨e, held, id, resource⟩ := drafted.association_element member
    refine List.any_eq_true.mpr ⟨e, held, ?_⟩
    rw [Bool.and_eq_true, decide_eq_true_iff, decide_eq_true_iff]
    exact ⟨id, resource⟩

theorem payload_relationsPlaced (fits : SourceFits content input) :
    (browserPayload content draft input d).relationsPlaced = true := by
  refine List.all_eq_true.mpr fun r member => ?_
  obtain ⟨⟨e, held, id⟩, e', held', id'⟩ := drafted.relation_ends (contentFacts fits.valid) member
  rw [Bool.and_eq_true]
  exact ⟨List.any_eq_true.mpr ⟨e, held, decide_eq_true id⟩,
    List.any_eq_true.mpr ⟨e', held', decide_eq_true id'⟩⟩

omit drafted in
theorem payload_incidentsMatch (fits : SourceFits content input) :
    Preparation.incidentsMatch (content.components.map joinedComponent)
      (content.incidents.map joinedIncident) = true := by
  obtain ⟨listed, there⟩ := incidentsMatch_iff.mp (contentFacts fits.valid).incidentsMatch
  refine incidentsMatch_iff.mpr ⟨?_, ?_⟩
  · intro i member
    obtain ⟨row, held, rfl⟩ := List.mem_map.mp member
    obtain ⟨c, among, id, lists⟩ := listed row held
    exact ⟨joinedComponent c, List.mem_map_of_mem among, congrArg (join "source") id,
      List.mem_map_of_mem lists⟩
  · intro c member id lists
    obtain ⟨row, held, rfl⟩ := List.mem_map.mp member
    obtain ⟨old, named, rfl⟩ := List.mem_map.mp lists
    obtain ⟨i, among, rfl, component⟩ := there row held old named
    exact ⟨joinedIncident i, List.mem_map_of_mem among, rfl, congrArg (join "source") component⟩

theorem payload_unitsPlaced :
    (browserPayload content draft input d).unitsPlaced = true := by
  have document := documentFacts drafted.valid
  refine List.all_eq_true.mpr fun unit member => ?_
  change unit ∈ d.units at member
  rw [drafted.units_eq] at member
  rw [List.mem_singleton.mp member]
  simp only [Bool.and_eq_true, distinct_iff, List.all_eq_true]
  refine ⟨⟨⟨⟨?_, ?_⟩, ?_⟩, ?_⟩, ?_⟩
  · rw [drafted.unit_elements]
    exact document.elements
  · change (draft.conditions.map Condition.id).Nodup
    rw [← drafted.conditions_eq]
    exact document.conditions
  · intro id listed
    rw [drafted.unit_elements] at listed
    obtain ⟨e, held, rfl⟩ := List.mem_map.mp listed
    exact List.any_eq_true.mpr ⟨e, held, decide_eq_true rfl⟩
  · intro id listed
    obtain ⟨c, held, rfl⟩ := List.mem_map.mp (show id ∈ draft.conditions.map Condition.id from listed)
    rw [← drafted.conditions_eq] at held
    exact List.any_eq_true.mpr ⟨c, held, decide_eq_true rfl⟩
  · intro id listed
    obtain ⟨c, held, rfl⟩ := List.mem_map.mp
      (show id ∈ content.components.map fun c => "source:" ++ c.id from listed)
    exact List.any_eq_true.mpr ⟨joinedComponent c, List.mem_map_of_mem held,
      decide_eq_true (join_source c.id)⟩

/-- What comes of the document is within the contract, but for the size of its tables. -/
theorem payload_valid (fits : SourceFits content input)
    (tables : (browserPayload content draft input d).tablesBounded = true) :
    isPayload (browserPayload content draft input d) = true := by
  have transformations :
      (browserPayload content draft input d).transformationsPlaced = true := by
    rw [Payload.transformationsPlaced, browserPayload, Document.payloadOf]
    dsimp only
    rw [drafted.transforms_nil]
    rfl
  rw [isPayload, drafted.payload_shaped fits, drafted.payload_idsDistinct fits,
    drafted.payload_elementsPlaced fits, drafted.payload_resourcesUsed fits,
    drafted.payload_resourcesAssociated fits, drafted.payload_relationsPlaced fits,
    drafted.payload_unitsPlaced, transformations, tables]
  have incidents := payload_incidentsMatch fits
  simp [browserPayload, Document.payloadOf, browserMapped, incidents, Payload.interruptionsPlaced]

end Drafted

/-! ### The construction -/

/-- The document is staged, and the input and the selection are reserved for it; the service has
resolved the input to the extraction that the browser had. -/
structure Sent (codec : Codec) (extraction : ExtractionResponse) (content : ExtractionContent)
    (built : BuiltDocument) (input : Input) (bytes : Bytes) (args : ConstructArgs) : Prop where
  shown : extraction.result.bind ExtractionResult.content = some content
  inputs : args.reservation.inputs = built.inputs
  base : args.reservation.base = none
  selection : args.reservation.selection = built.selection
  declared : args.reservation.documentBytes = args.staged.bytes ∧
    args.reservation.documentSha256 = args.staged.sha256
  context : identifier args.reservation.context.scope_id = true ∧
    identifier args.reservation.context.purpose_id = true ∧
    exactReference args.reservation.context.treatment_revision = true
  document : args.document = built.document
  staged : artifactFor codec args.staged.id args.staged.generation args.stagedBytes = .ok args.staged
  reads : codec.readPreparationDocument args.stagedBytes = some built.document
  source : args.sources = [⟨input, bytes, none⟩]
  resolved : extraction.result.map ExtractionResult.effect = some input.reference
  material : ∃ receipt, input.extraction =
    some ⟨extraction.id, receipt, content.original, content.source⟩
  held : bytes.length = input.source_artifact.bytes ∧
    codec.sha256Hex bytes = input.source_artifact.sha256
  decodes : codec.decodeExtractionContent bytes = some content
  ids : identifier args.id = true ∧ isRevision args.revision = true ∧
    identifier args.artifactId = true ∧ exactReference args.operation = true ∧
    identifier args.actor = true ∧ isInteger args.recordedAt = true

/-- The resources that the payload keeps are at hand, and everything is within its size. -/
structure SizesFit (codec : Codec) (payload : Payload) (args : ConstructArgs) : Prop where
  tables : payload.tablesBounded = true
  bodies : ∀ r ∈ payload.resources, ∃ body,
    (args.resourceBodies.find? fun b => b.artifact = r) = some body ∧
      body.bytes.length = r.bytes ∧ codec.sha256Hex body.bytes = r.sha256
  kept : (payload.resources.map Artifact.bytes).sum + (codec.payloadBytes payload).length ≤
    Bounds.payloadBytes
  difference : identifier
    (join args.id ("r" ++ toString args.revision ++ ":difference-" ++ toString 0)) = true

section Construct

variable {codec : Codec} {extraction : ExtractionResponse} {built : BuiltDocument} {bytes : Bytes}
  {args : ConstructArgs}

theorem artifactFor_facts {id : String} {generation : Nat} {bytes : Bytes} {artifact : Artifact}
    (made : artifactFor codec id generation bytes = .ok artifact) :
    artifact = ⟨id, generation, bytes.length, codec.sha256Hex bytes⟩ ∧
      artifactReference artifact = true := by
  rw [artifactFor] at made
  split at made
  · next valid =>
    cases made
    exact ⟨rfl, valid⟩
  · cases made

theorem sent_reservation (sent : Sent codec extraction content built input bytes args)
    (fits : SourceFits content input)
    (drafted : Drafted content draft outcome picked retained declared built.document)
    (selection : built.selection = selectionRows content draft)
    (inputs : built.inputs = [⟨"source", input.reference, some extraction.id⟩]) :
    validateReservation args.reservation = true := by
  have facts := contentFacts fits.valid
  have apart : ((selectedOf content draft).map ExtractionElement.id).Nodup :=
    selectedOf_apart facts.toNamed
  obtain ⟨receipt, material⟩ := sent.material
  have shaped := fits.shaped
  rw [isInput, material] at shaped
  simp only [Bool.and_eq_true] at shaped
  have staged := (artifactFor_facts sent.staged).2
  simp only [artifactReference, isArtifact, Bool.and_eq_true, decide_eq_true_iff] at staged
  have rows : isArray isSelection Bounds.entries (selectionRows content draft) = true := by
    simp only [isArray, Bool.and_eq_true, decide_eq_true_iff, List.all_eq_true]
    constructor
    · have few := (documentFacts drafted.valid).elementsFew
      rw [drafted.elements_eq, List.length_map] at few
      rw [selectionRows, List.length_map, (mapM_eq_ok.mp drafted.elements).length_eq]
      exact few
    · intro s member
      obtain ⟨e, selected, rfl⟩ := List.mem_map.mp member
      have shaped := facts.elementShaped e (mem_selectedOf.mp selected).1
      rw [ExtractionContent.elementShaped, Bool.and_eq_true, Bool.and_eq_true] at shaped
      have id := shaped.1.1
      cases resource : e.body.resource? with
      | none =>
        simp [isSelection, selectionRow, id, resource, isOptional]
        decide
      | some r =>
        have among := mem_selectedAssociations.mpr ⟨e, selected, r, resource, rfl⟩
        have artifact := (association_shaped facts among).2.2
        simp [isSelection, selectionRow, id, resource, isOptional, artifact]
        decide
  have locals : ((selectionRows content draft).map Selection.local_id).Nodup := by
    rw [selectionRows, List.map_map]
    exact apart
  have resources : ((selectionRows content draft).filterMap Selection.local_resource_id).Nodup := by
    have ids : (selectionRows content draft).filterMap Selection.local_resource_id =
        (selectedAssociations content draft).map ResourceAssociation.local_id := by
      rw [selectionRows, selectedAssociations, List.filterMap_map, List.map_filterMap]
      congr 1
      funext e
      rw [associationOf, Option.map_map]
      rfl
    rw [ids]
    exact apart.sublist (selectedAssociations_ids _ fun _ _ => rfl)
  have placed : ((selectionRows content draft).all fun row =>
      ([(⟨"source", input.reference, some extraction.id⟩ : Selector)].any fun i =>
        i.id = row.input_id) && decide (row.resource.isSome = row.local_resource_id.isSome)) = true := by
    refine List.all_eq_true.mpr fun s member => ?_
    obtain ⟨e, -, rfl⟩ := List.mem_map.mp member
    simp [selectionRow]
  simp only [validateReservation, sent.inputs, inputs, sent.base, sent.selection, selection,
    sent.declared.1, sent.declared.2, sent.context, Bool.and_eq_true, distinct_iff]
  refine ⟨⟨⟨⟨⟨⟨⟨⟨?_, rfl⟩, rows⟩, ⟨staged.1.2.1, decide_eq_true staged.1.2.2⟩, staged.2⟩,
    ⟨trivial, trivial⟩, trivial⟩, List.nodup_singleton _⟩, locals⟩, placed⟩, resources⟩
  have name : identifier "source" = true := by decide
  simp [isNonempty, isArray, isSelector, isOptional, shaped, Bounds.inputs, name]

theorem sent_input (sent : Sent codec extraction content built input bytes args)
    (reserved : validateReservation args.reservation = true)
    (document : isDocument built.document = true) : checkProductionInput codec args = .ok () := by
  simp only [checkProductionInput, except_bind_eq_ok, ensure_eq_ok]
  refine ⟨(), ?_, args.staged, sent.staged, (), by simp, ?_⟩
  · simp [reserved, sent.document, document, sent.declared]
  · simp [sent.reads, sent.document, ensure_eq_ok]

theorem sent_sources (sent : Sent codec extraction content built input bytes args)
    (fits : SourceFits content input)
    (inputs : built.inputs = [⟨"source", input.reference, some extraction.id⟩]) :
    admitSources codec args = .ok [⟨input, content.asSource⟩] := by
  obtain ⟨receipt, material⟩ := sent.material
  have exact : exactSource codec ⟨input, bytes, none⟩ = .ok content.asSource := by
    simp only [exactSource, except_bind_eq_ok, ensure_eq_ok, material, sent.decodes]
    refine ⟨(), by simp [fits.shaped, sent.held], (), by simp [fits.valid], rfl⟩
  have admitted : admitSource codec args ⟨input, bytes, none⟩ = .ok ⟨input, content.asSource⟩ := by
    have found : (args.reservation.inputs.find? fun x => x.id = input.id) =
        some ⟨"source", input.reference, some extraction.id⟩ := by
      rw [sent.inputs, inputs, fits.name]
      rfl
    rw [admitSource]
    dsimp only
    rw [found]
    simp only [except_bind_eq_ok, ensure_eq_ok]
    refine ⟨(), ?_, _, exact, rfl⟩
    simp [Selector.kind, Input.kind, material]
  have lengths : args.sources.length = args.reservation.inputs.length := by
    rw [sent.source, sent.inputs, inputs]
    rfl
  simp only [admitSources, except_bind_eq_ok, ensure_eq_ok]
  refine ⟨(), ?_, [⟨input, content.asSource⟩], ?_, (), ?_, rfl⟩
  · rw [decide_eq_true lengths, sent.source, Bool.true_and, distinct_iff]
    exact List.nodup_singleton _
  · rw [sent.source, List.mapM_cons, admitted]
    rfl
  · rw [sent.base]
    rfl

theorem sent_mapped (sent : Sent codec extraction content built input bytes args)
    (fits : SourceFits content input)
    (drafted : Drafted content draft outcome picked retained declared built.document)
    (selection : built.selection = selectionRows content draft) :
    mapSources args [⟨input, content.asSource⟩] =
      .ok (browserMapped content draft input retained.reduceOption) := by
  have names : ∀ r ∈ retained.reduceOption, identifier r.id = true := by
    intro r member
    have held : r ∈ built.document.relations := by
      rw [drafted.relations_eq]
      exact List.mem_append_left _ member
    have shaped := (documentFacts drafted.valid).relationShaped
    simp only [isArray, Bool.and_eq_true, List.all_eq_true] at shaped
    have relation := shaped.2 r held
    rw [isRelation, Bool.and_eq_true, Bool.and_eq_true, Bool.and_eq_true] at relation
    exact relation.1.1.1
  have one := mapSource_browser (contentFacts fits.valid) fits.names fits.name drafted.relations names
  simp only [mapSources, except_bind_eq_ok, ensure_eq_ok, sent.selection, selection]
  refine ⟨_, ?_, (), by simp [browserMapped, Bounds.inputs], rfl⟩
  rw [List.foldlM_cons, one]
  rfl

/-- The body of the difference that a draft of the browser comes to. -/
def browserDifference (args : ConstructArgs) (input : Input) (target : Target)
    (draft : DifferenceDraft) : DifferenceBody where
  before := [⟨input.reference, input.source_artifact⟩]
  after := target
  method := draft.method
  transformation := draft.transformation
  affected := draft.affected
  reason := draft.reason
  actor := args.actor
  recorded_at := args.recordedAt

def browserRecord (codec : Codec) (args : ConstructArgs) (input : Input) (target : Target)
    (draft : DifferenceDraft) : DifferenceRecord where
  reference := ⟨join args.id ("r" ++ toString args.revision ++ ":difference-" ++ toString 0), 1,
    codec.sha256Hex (codec.differenceBytes (browserDifference args input target draft))⟩
  body := browserDifference args input target draft

variable (digests : ∀ bytes, isDigest (codec.sha256Hex bytes) = true)

variable (codec) in
theorem referenceFor_eq {id : String} {revision : Nat} (body : Bytes) (name : identifier id = true)
    (number : isRevision revision = true) :
    referenceFor codec id revision body = .ok ⟨id, revision, codec.sha256Hex body⟩ := by
  rw [referenceFor, name, number]
  rfl

include digests in
theorem artifactFor_eq {id : String} {generation : Nat} {bytes : Bytes} (name : identifier id = true)
    (number : isRevision generation = true) (few : bytes.length ≤ artifactBytes) :
    artifactFor codec id generation bytes =
        .ok ⟨id, generation, bytes.length, codec.sha256Hex bytes⟩ ∧
      artifactReference ⟨id, generation, bytes.length, codec.sha256Hex bytes⟩ = true := by
  have valid : artifactReference ⟨id, generation, bytes.length, codec.sha256Hex bytes⟩ = true := by
    have small : bytes.length < 2 ^ 53 := by
      rw [artifactBytes] at few
      omega
    simp only [artifactReference, isArtifact, isInteger, Bool.and_eq_true, decide_eq_true_iff]
    exact ⟨⟨⟨name, number⟩, small, few⟩, digests bytes⟩
  rw [artifactFor]
  exact ⟨if_pos valid, valid⟩

section Differences

variable {target : Target} {x : DifferenceDraft}

theorem browserDifference_valid (sent : Sent codec extraction content built input bytes args)
    (fits : SourceFits content input) (after : isTarget target = true)
    (shaped : isDifferenceDraft x = true) :
    isDifference (browserDifference args input target x) = true := by
  obtain ⟨receipt, material⟩ := sent.material
  have resolved := fits.shaped
  rw [isInput, material] at resolved
  simp only [Bool.and_eq_true] at resolved
  rw [isDifferenceDraft, Bool.and_eq_true, Bool.and_eq_true] at shaped
  simp only [isDifference, browserDifference, Bool.and_eq_true]
  refine ⟨⟨⟨⟨⟨?_, after⟩, shaped.2⟩, shaped.1.2⟩, sent.ids.2.2.2.2.1⟩, sent.ids.2.2.2.2.2⟩
  simp [isNonempty, isArray, resolved, arrayMax]

theorem sealDraft_browser (sent : Sent codec extraction content built input bytes args)
    (fits : SourceFits content input) (after : isTarget target = true)
    (shaped : isDifferenceDraft x = true) (before : x.before = ["source"])
    (name : identifier
      (join args.id ("r" ++ toString args.revision ++ ":difference-" ++ toString 0)) = true) :
    sealDraft codec args [⟨input, content.asSource⟩] target (x, 0) =
      .ok (browserRecord codec args input target x) := by
  have valid := browserDifference_valid sent fits after shaped
  have mapped : x.before.mapM (differenceBefore [⟨input, content.asSource⟩]) =
      .ok [⟨input.reference, input.source_artifact⟩] := by
    have found : ([(⟨input, content.asSource⟩ : MappedSource)].find? fun s => s.input.id = "source") =
        some ⟨input, content.asSource⟩ := by
      simp [fits.name]
    rw [before, List.mapM_cons, differenceBefore, found]
    rfl
  simp only [sealDraft, except_bind_eq_ok]
  refine ⟨_, mapped, _, joined_eq name, ?_⟩
  simp only [sealDifference, except_bind_eq_ok, ensure_eq_ok]
  exact ⟨(), valid, _, referenceFor_eq codec _ name (by decide), rfl⟩

include digests in
theorem browserRecord_matches (sent : Sent codec extraction content built input bytes args)
    (fits : SourceFits content input) (after : isTarget target = true)
    (shaped : isDifferenceDraft x = true)
    (name : identifier
      (join args.id ("r" ++ toString args.revision ++ ":difference-" ++ toString 0)) = true) :
    exactReference (browserRecord codec args input target x).reference = true ∧
      differenceMatches codec (browserRecord codec args input target x) [input] target = true := by
  have valid := browserDifference_valid sent fits after shaped
  have one : isRevision 1 = true := by decide
  have reference : exactReference (browserRecord codec args input target x).reference = true := by
    simp only [exactReference, browserRecord, Bool.and_eq_true]
    exact ⟨⟨name, one⟩, digests _⟩
  refine ⟨reference, ?_⟩
  have remade := referenceFor_eq codec
    (codec.differenceBytes (browserDifference args input target x)) name one
  rw [differenceMatches, reference]
  simp only [browserRecord, valid, remade, Bool.and_eq_true, distinct_iff]
  simp [browserDifference]

end Differences

/-- The differences of the document, sealed: one if anything is changed, and none otherwise. -/
theorem sent_differences {target : Target}
    (sent : Sent codec extraction content built input bytes args) (fits : SourceFits content input)
    (drafted : Drafted content draft outcome picked retained declared built.document)
    (after : isTarget target = true)
    (name : identifier
      (join args.id ("r" ++ toString args.revision ++ ":difference-" ++ toString 0)) = true) :
    ∃ x, (built.document.differences = [] ∨
        built.document.differences = [x] ∧ x.before = ["source"] ∧ isDifferenceDraft x = true) ∧
      built.document.differences.zipIdx.mapM
          (sealDraft codec args [⟨input, content.asSource⟩] target) =
        .ok (built.document.differences.map (browserRecord codec args input target)) := by
  by_cases same : (draftAffected draft picked).isEmpty = true
  · have none : built.document.differences = [] := by
      rw [drafted.document, draftDocument, same]
      rfl
    rw [none]
    exact ⟨⟨[], .correction, .cleanup, "", []⟩, .inl rfl, rfl⟩
  · have one : built.document.differences =
        [⟨["source"], .correction, .cleanup, draft.changeReason, draftAffected draft picked⟩] := by
      have changes : (draftAffected draft picked).isEmpty = false := by simpa using same
      rw [drafted.document, draftDocument, changes]
      rfl
    have shaped := (documentFacts drafted.valid).differenceShaped
    rw [one] at shaped ⊢
    have valid := shaped _ (List.mem_singleton_self _)
    refine ⟨_, .inr ⟨rfl, rfl, valid⟩, ?_⟩
    rw [List.zipIdx_singleton, List.mapM_cons, sealDraft_browser sent fits after valid rfl name]
    rfl

include digests in
theorem sent_sealed {payload : Payload} {target : Target}
    (sent : Sent codec extraction content built input bytes args) (fits : SourceFits content input)
    (drafted : Drafted content draft outcome picked retained declared built.document)
    (inputs : payload.inputs = [input]) (valid : isPayload payload = true)
    (small : (codec.payloadBytes payload).length ≤ Bounds.payloadBytes)
    (target_eq : target = ⟨args.id, args.revision, ⟨args.artifactId, args.revision,
      (codec.payloadBytes payload).length, codec.sha256Hex (codec.payloadBytes payload)⟩⟩)
    (after : isTarget target = true)
    (name : identifier
      (join args.id ("r" ++ toString args.revision ++ ":difference-" ++ toString 0)) = true) :
    ∃ record, sealPreparation codec args payload
        (built.document.differences.map (browserRecord codec args input target)) =
      .ok (record, codec.payloadBytes payload) ∧ record.payload = payload := by
  have encoded : encodePayload codec payload = .ok (codec.payloadBytes payload) := by
    rw [encodePayload, valid, if_neg (by simp), if_neg (Nat.not_lt.mpr small)]
  obtain ⟨made, artifact⟩ := artifactFor_eq digests sent.ids.2.2.1 sent.ids.2.1 small
  obtain ⟨x, differences, -⟩ := sent_differences sent fits drafted after name
  have matching : ((built.document.differences.map (browserRecord codec args input target)).all
      fun d => differenceMatches codec d payload.inputs target) = true := by
    rw [inputs]
    rcases differences with none | ⟨one, -, shaped⟩
    · rw [none]
      rfl
    · rw [one]
      simp [(browserRecord_matches digests sent fits after shaped name).2]
  have apart : distinct ((built.document.differences.map
      (browserRecord codec args input target)).map fun d => d.reference.id) = true := by
    rcases differences with none | ⟨one, -, -⟩
    · rw [none]
      rfl
    · rw [one, distinct_iff]
      exact List.nodup_singleton _
  have references : isArray exactReference arrayMax ((built.document.differences.map
      (browserRecord codec args input target)).map DifferenceRecord.reference) = true := by
    rcases differences with none | ⟨one, -, shaped⟩
    · rw [none]
      rfl
    · rw [one]
      simp [isArray, arrayMax, (browserRecord_matches digests sent fits after shaped name).1]
  have descriptor : isDescriptor ⟨args.id, args.revision, target.payload, payload.inputs,
      (built.document.differences.map (browserRecord codec args input target)).map
        DifferenceRecord.reference, args.operation, args.actor, args.recordedAt⟩ = true := by
    have there : isNonempty isInput Bounds.inputs payload.inputs = true := by
      rw [inputs]
      simp [isNonempty, isArray, fits.shaped, Bounds.inputs]
    have own : isTarget ⟨args.id, args.revision, target.payload⟩ = true := by
      rw [target_eq] at after ⊢
      exact after
    simp only [isDescriptor, own, there, references, sent.ids, Bool.and_true]
  simp only [sealPreparation, except_bind_eq_ok, ensure_eq_ok]
  rw [target_eq] at matching descriptor ⊢
  refine ⟨_, ⟨_, encoded, _, made, (), ?_, (), ?_, (), descriptor, _,
    referenceFor_eq codec _ sent.ids.1 sent.ids.2.1, rfl⟩, rfl⟩
  · exact matching
  · rw [← target_eq]
    exact apart

theorem resourceBodies_found {rs : List Artifact}
    (available : ∀ r ∈ rs, ∃ body, (args.resourceBodies.find? fun b => b.artifact = r) = some body ∧
      body.bytes.length = r.bytes ∧ codec.sha256Hex body.bytes = r.sha256) :
    ∃ bodies, rs.mapM (resourceBody codec args) = .ok bodies ∧
      (bodies.map fun r => r.bytes.length) = rs.map Artifact.bytes := by
  induction rs with
  | nil => exact ⟨[], rfl, rfl⟩
  | cons r rs ih =>
    obtain ⟨found, there, length, digest⟩ := available r List.mem_cons_self
    obtain ⟨bodies, read, lengths⟩ := ih fun r member => available r (List.mem_cons_of_mem _ member)
    have one : resourceBody codec args r = .ok ⟨r, found.bytes⟩ := by
      rw [resourceBody, there]
      simp [length, digest]
    refine ⟨⟨r, found.bytes⟩ :: bodies, ?_, by rw [List.map_cons, List.map_cons, lengths, length]⟩
    rw [List.mapM_cons, one, read]
    rfl

include digests in
/-- What the browser makes of an accepted extraction and a draft, the producer prepares. -/
theorem browser_document_accepted
    (made : preparationDocument extraction draft = .ok built)
    (claim : draft.coverage.completeSourceClaim = false)
    (sent : Sent codec extraction content built input bytes args) (fits : SourceFits content input)
    (components : content.components ≠ [])
    (fit : SizesFit codec (browserPayload content draft input built.document) args) :
    ∃ production, constructPreparation codec args = .ok production ∧
      production.record.payload.elements = built.document.elements ∧
      production.record.payload.relations = built.document.relations ∧
      production.record.payload.conditions = built.document.conditions ∧
      production.record.payload.units = built.document.units := by
  obtain ⟨result, content', outcome, there, shown, builds, selection, inputs⟩ :=
    preparationDocument_built made
  have same : content' = content := by
    have known := sent.shown
    rw [there, Option.bind_some, shown] at known
    exact Option.some.inj known
  subst same
  obtain ⟨picked, retained, declared, drafted⟩ := buildDocument_drafted builds
  have inputs : built.inputs = [⟨"source", input.reference, some extraction.id⟩] := by
    have resolved := sent.resolved
    rw [there, Option.map_some, Option.some.injEq] at resolved
    rw [inputs, resolved]
  have reserved := sent_reservation sent fits drafted selection inputs
  have valid := drafted.payload_valid fits fit.tables
  have small : (codec.payloadBytes (browserPayload content' draft input built.document)).length ≤
      Bounds.payloadBytes := by
    have kept := fit.kept
    omega
  obtain ⟨artifact, reference⟩ := artifactFor_eq digests sent.ids.2.2.1 sent.ids.2.1 small
  have after : isTarget ⟨args.id, args.revision, ⟨args.artifactId, args.revision,
      (codec.payloadBytes (browserPayload content' draft input built.document)).length,
      codec.sha256Hex (codec.payloadBytes (browserPayload content' draft input built.document))⟩⟩ =
      true := by
    rw [isTarget, sent.ids.1, sent.ids.2.1, reference]
    rfl
  obtain ⟨x, -, differences⟩ := sent_differences sent fits drafted after fit.difference
  obtain ⟨record, seals, is⟩ := sent_sealed digests sent fits drafted rfl valid small rfl after
    fit.difference
  obtain ⟨bodies, read, lengths⟩ := resourceBodies_found fit.bodies
  have encoded : encodePayload codec (browserPayload content' draft input built.document) =
      .ok (codec.payloadBytes (browserPayload content' draft input built.document)) := by
    rw [encodePayload, valid, if_neg (by simp), if_neg (Nat.not_lt.mpr small)]
  refine ⟨⟨record, codec.payloadBytes (browserPayload content' draft input built.document), bodies⟩, ?_,
    by rw [is]; rfl, by rw [is]; rfl, by rw [is]; rfl, by rw [is]; rfl⟩
  simp only [constructPreparation, except_bind_eq_ok, ensure_eq_ok, sent.document]
  refine ⟨(), sent_input sent reserved drafted.valid, _, sent_sources sent fits inputs, _,
    sent_mapped sent fits drafted selection, (), drafted.checkChanges_ok, _,
    drafted.observe_ok args.staged _, (), drafted.checkUnits_ok claim components, _, encoded, _,
    artifact, _, differences, _, seals, _, read, (), ?_, rfl⟩
  rw [lengths]
  exact decide_eq_true fit.kept

end Construct

/-! ### A rule with its exception, corrected -/

def shownExtraction (content : ExtractionContent) : ExtractionResponse :=
  ⟨"job", .content, some ⟨refTo "accepted", some content⟩⟩

def correctingDraft : PreparationDraft where
  selected := ["rule", "exception"]
  corrections := [("rule", "Rule S.")]
  classification := ⟨⟨none, "open"⟩, ⟨none, "open"⟩, ⟨none, "open"⟩⟩
  conditions := [⟨"inside", "Inside the area.", "area"⟩]
  dependencies := [⟨"needs", "exception", "rule", true⟩]
  examination := ⟨some .classifiable, "whole"⟩
  coverage := ⟨false, "whole"⟩
  changeReason := "corrected"

def browserCodec (content : ExtractionContent) (document : Document) : Codec :=
  { plainCodec document with decodeExtractionContent := fun _ => some content }

def browserInput (content : ExtractionContent) : Input where
  id := "source"
  reference := refTo "accepted"
  source_artifact := ⟨"normalized", 1, 0, someDigest⟩
  extraction := some ⟨"job", refTo "receipt", content.original, content.source⟩

def browserArgs (content : ExtractionContent) (built : BuiltDocument) : ConstructArgs where
  reservation := {
    inputs := built.inputs
    base := none
    selection := built.selection
    documentBytes := 0
    documentSha256 := someDigest
    context := ⟨"scope", "purpose", refTo "treatment"⟩ }
  document := built.document
  staged := ⟨"staged", 1, 0, someDigest⟩
  stagedBytes := []
  sources := [⟨browserInput content, [], none⟩]
  id := "prepared"
  revision := 1
  artifactId := "payload"
  operation := refTo "operation"
  actor := "actor"
  recordedAt := 1
  resourceBodies := []

theorem stagedArtifact_made {codec : Codec} (hashes : ∀ bytes, codec.sha256Hex bytes = someDigest) :
    artifactFor codec "staged" 1 [] = .ok ⟨"staged", 1, 0, someDigest⟩ := by
  have valid := rule_runs.1 "staged" List.mem_cons_self
  simp [artifactFor, hashes, valid]

theorem browserArgs_sent (content : ExtractionContent) (built : BuiltDocument) :
    Sent (browserCodec content built.document) (shownExtraction content) content built
      (browserInput content) [] (browserArgs content built) where
  shown := rfl
  inputs := rfl
  base := rfl
  selection := rfl
  declared := ⟨rfl, rfl⟩
  context := (by decide +kernel : identifier "scope" = true ∧ identifier "purpose" = true ∧
    exactReference (refTo "treatment") = true)
  document := rfl
  staged := stagedArtifact_made fun _ => rfl
  reads := rfl
  source := rfl
  resolved := rfl
  material := ⟨refTo "receipt", rfl⟩
  held := ⟨rfl, rfl⟩
  decodes := rfl
  ids := (by decide +kernel : identifier "prepared" = true ∧ isRevision 1 = true ∧
    identifier "payload" = true ∧ exactReference (refTo "operation") = true ∧
    identifier "actor" = true ∧ isInteger 1 = true)

/-- A content that has no component to cover. -/
def bareContent : ExtractionContent := { ruleContent with components := [] }

theorem browserSource_fits {content : ExtractionContent} (member : content ∈ [ruleContent, bareContent]) :
    SourceFits content (browserInput content) := by
  have checked : ∀ content ∈ [ruleContent, bareContent],
      isExtractionContent content = true ∧ isInput (browserInput content) = true ∧
        (∀ c ∈ content.components, identifier (join "source" c.id) = true) ∧
        ∀ i ∈ content.incidents, identifier (join "source" i.id) = true := by
    decide +kernel
  obtain ⟨valid, shaped, component, incident⟩ := checked content member
  exact ⟨valid, shaped, rfl, component, incident⟩

def refusal {α : Type} : Prepares α → Option PreparationFault
  | .error fault => some fault
  | .ok _ => none

theorem error_of_refusal {α : Type} {x : Prepares α} {fault : PreparationFault}
    (refused : refusal x = some fault) : x = .error fault := by
  cases x with
  | error other => exact congrArg _ (Option.some.inj refused)
  | ok a => cases refused

/-- The document that the browser makes of the draft. -/
def correctedBuilt (content : ExtractionContent) : Option BuiltDocument :=
  (preparationDocument (shownExtraction content) correctingDraft).toOption

theorem built_of_toOption {content : ExtractionContent} {built : BuiltDocument}
    (made : correctedBuilt content = some built) :
    preparationDocument (shownExtraction content) correctingDraft = .ok built := by
  rw [correctedBuilt] at made
  cases is : preparationDocument (shownExtraction content) correctingDraft with
  | error fault =>
    rw [is] at made
    cases made
  | ok other =>
    rw [is] at made
    exact congrArg _ (Option.some.inj made)

theorem browserSizes_fit {content : ExtractionContent} {built : BuiltDocument}
    (member : content ∈ [ruleContent, bareContent]) (made : correctedBuilt content = some built) :
    SizesFit (browserCodec content built.document)
      (browserPayload content correctingDraft (browserInput content) built.document)
      (browserArgs content built) := by
  have checked : ∀ content ∈ [ruleContent, bareContent], (correctedBuilt content).all fun built =>
      (browserPayload content correctingDraft (browserInput content) built.document).tablesBounded &&
        (browserPayload content correctingDraft (browserInput content) built.document).resources.isEmpty := by
    decide +kernel
  have holds := checked content member
  rw [made, Option.all_some, Bool.and_eq_true, List.isEmpty_iff] at holds
  refine ⟨holds.1, ?_, ?_, (by decide +kernel : identifier
    (join "prepared" ("r" ++ toString 1 ++ ":difference-" ++ toString 0)) = true)⟩
  · rw [holds.2]
    simp
  · rw [holds.2]
    exact Nat.zero_le _

/-- Without a component the producer refuses the unit, whose coverage names none. -/
theorem componentless_document_refused : ∃ built,
    preparationDocument (shownExtraction bareContent) correctingDraft = .ok built ∧
      SourceFits bareContent (browserInput bareContent) ∧
      Sent (browserCodec bareContent built.document) (shownExtraction bareContent) bareContent built
        (browserInput bareContent) [] (browserArgs bareContent built) ∧
      SizesFit (browserCodec bareContent built.document)
        (browserPayload bareContent correctingDraft (browserInput bareContent) built.document)
        (browserArgs bareContent built) ∧
      constructPreparation (browserCodec bareContent built.document) (browserArgs bareContent built) =
        .error (.change "PREPARATION_COVERAGE_CLAIM") := by
  have computed : (correctedBuilt bareContent).any fun built =>
      refusal (constructPreparation (browserCodec bareContent built.document)
        (browserArgs bareContent built)) = some (.change "PREPARATION_COVERAGE_CLAIM") := by
    decide +kernel
  obtain ⟨built, made, refused⟩ := (Option.any_eq_true _ _).mp computed
  have member : bareContent ∈ [ruleContent, bareContent] := by simp
  exact ⟨built, built_of_toOption made, browserSource_fits member, browserArgs_sent bareContent built,
    browserSizes_fit member made, error_of_refusal (of_decide_eq_true refused)⟩

theorem browser_document_accepted_correction : ∃ built production,
    preparationDocument (shownExtraction ruleContent) correctingDraft = .ok built ∧
      constructPreparation (browserCodec ruleContent built.document)
        (browserArgs ruleContent built) = .ok production ∧
      production.record.payload.elements = built.document.elements := by
  have computed : (correctedBuilt ruleContent).isSome = true := by decide +kernel
  obtain ⟨built, made⟩ := Option.isSome_iff_exists.mp computed
  have member : ruleContent ∈ [ruleContent, bareContent] := by simp
  have digests : ∀ bytes,
      isDigest ((browserCodec ruleContent built.document).sha256Hex bytes) = true :=
    fun _ => (by decide +kernel : isDigest someDigest = true)
  obtain ⟨production, constructs, elements, -⟩ := browser_document_accepted digests
    (built_of_toOption made) rfl (browserArgs_sent ruleContent built) (browserSource_fits member)
    (by decide) (browserSizes_fit member made)
  exact ⟨built, production, built_of_toOption made, constructs, elements⟩

end LedgerDesk.Preparation
