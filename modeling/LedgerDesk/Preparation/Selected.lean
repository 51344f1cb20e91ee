import LedgerDesk.Foundation.Rows
import LedgerDesk.Preparation.Browser
import LedgerDesk.Preparation.Changes

/-!
# What the browser and the producer select

Over the one extraction that the browser had, the producer takes the elements and relations that
the browser selected, under the same names and places.
-/
namespace LedgerDesk.Preparation

open Foundation

/-! ### The document -/

/-- A selected element as its source has it. -/
def sourceElement (source : ExtractionElement) : Element :=
  ⟨source.id, source.body, sourcePlaces source.origin⟩

/-- What the parts of a document come from. -/
structure Drafted (content : ExtractionContent) (draft : PreparationDraft)
    (outcome : ExaminationOutcome) (picked : List (Element × Bool))
    (retained : List (Option Relation)) (declared : List Relation) (d : Document) : Prop where
  elements : (selectedOf content draft).mapM (correctElement draft.corrections) = .ok picked
  covered : picked.length = draft.selected.dedup.length
  relations : content.relations.mapM (retainRelation draft.selected) = .ok retained
  dependencies : draft.dependencies.mapM (declareDependency draft.selected) = .ok declared
  document : d = draftDocument content draft outcome picked (retained.reduceOption ++ declared)
  valid : isDocument d = true

theorem buildDocument_drafted {content : ExtractionContent} {draft : PreparationDraft}
    {outcome : ExaminationOutcome} {d : Document} (ok : buildDocument content draft outcome = .ok d) :
    ∃ picked retained declared, Drafted content draft outcome picked retained declared d := by
  simp only [buildDocument, except_bind_eq_ok, ensure_eq_ok, decide_eq_true_iff] at ok
  obtain ⟨picked, elements, _, covered, retained, relations, declared, dependencies, _, -, _, valid,
    done⟩ := ok
  cases done
  exact ⟨picked, retained, declared, elements, covered, relations, dependencies, rfl, valid⟩

theorem preparationDocument_built {extraction : ExtractionResponse} {draft : PreparationDraft}
    {built : BuiltDocument} (ok : preparationDocument extraction draft = .ok built) :
    ∃ result content outcome, extraction.result = some result ∧ result.content = some content ∧
      buildDocument content draft outcome = .ok built.document ∧
      built.selection = (selectedOf content draft).map selectionRow ∧
      built.inputs = [⟨"source", result.effect, some extraction.id⟩] := by
  rw [preparationDocument] at ok
  split at ok
  · cases ok
  · next result there =>
    split at ok
    · next content outcome held examined =>
      split at ok
      · cases ok
      · obtain ⟨document, made, done⟩ := except_bind_eq_ok.mp ok
        cases done
        exact ⟨result, content, outcome, there, held, made, rfl, rfl⟩
    · cases ok

/-- The correction of an element keeps its name and places, and what it is a text or a resource. -/
theorem correctElement_eq_ok {corrections : List (String × String)} {source : ExtractionElement}
    {picked : Element × Bool} (ok : correctElement corrections source = .ok picked) :
    picked.1.id = source.id ∧ picked.1.antecedents = sourcePlaces source.origin ∧
      picked.1.body.resource? = source.body.resource? ∧
      (picked.2 = false → picked.1 = sourceElement source) := by
  rw [correctElement] at ok
  split at ok
  · cases ok
    exact ⟨rfl, rfl, rfl, fun _ => rfl⟩
  · next text corrected =>
    split at ok
    · next old was =>
      cases ok
      refine ⟨rfl, rfl, by rw [was]; rfl, fun same => ?_⟩
      have equal : text = old := by simpa using same
      rw [sourceElement, was, equal]
    · cases ok

theorem retainRelation_eq_ok {selected : List String} {relation : Relation} {taken : Option Relation}
    (ok : retainRelation selected relation = .ok taken) :
    (relation.source ∈ selected ∧ relation.target ∈ selected ∧
        taken = some { relation with id := "source:" ++ relation.id }) ∨
      relation.source ∉ selected ∧ relation.target ∉ selected ∧ taken = none := by
  rw [retainRelation] at ok
  split at ok
  · cases ok
  · next together =>
    have both : relation.source ∈ selected ↔ relation.target ∈ selected := by simpa using together
    split at ok
    · next taken_source =>
      exact .inl ⟨taken_source, both.mp taken_source, (Except.ok.inj ok).symm⟩
    · next left =>
      exact .inr ⟨left, fun other => left (both.mpr other), (Except.ok.inj ok).symm⟩

theorem declareDependency_eq_ok {selected : List String} {draft : DependencyDraft}
    {relation : Relation} (ok : declareDependency selected draft = .ok relation) :
    relation.id = draft.id ∧ relation.source ∈ selected ∧ relation.target ∈ selected ∧
      relation.origin = .prepared := by
  rw [declareDependency] at ok
  split at ok
  · cases ok
  · next ends =>
    rw [not_or, not_not, not_not] at ends
    cases ok
    exact ⟨rfl, ends.1, ends.2, rfl⟩

theorem join_source (id : String) : join "source" id = "source:" ++ id := by
  rw [join]
  rfl

namespace Drafted

variable {content : ExtractionContent} {draft : PreparationDraft} {outcome : ExaminationOutcome}
  {picked : List (Element × Bool)} {retained : List (Option Relation)} {declared : List Relation}
  {d : Document}

section

variable (drafted : Drafted content draft outcome picked retained declared d)

include drafted

theorem elements_eq : d.elements = picked.map Prod.fst := by rw [drafted.document]; rfl

theorem ids : d.elements.map Element.id = (selectedOf content draft).map ExtractionElement.id := by
  rw [drafted.elements_eq, List.map_map]
  exact (map_eq_of_mapM drafted.elements fun source p one => (correctElement_eq_ok one).1.symm).symm

/-- Every selected element is in the document, changed only where it is declared. -/
theorem element_of {source : ExtractionElement} (member : source ∈ selectedOf content draft) :
    ∃ p ∈ picked, p.1 ∈ d.elements ∧ correctElement draft.corrections source = .ok p := by
  obtain ⟨p, among, one⟩ := mem_of_mapM drafted.elements member
  refine ⟨p, among, ?_, one⟩
  rw [drafted.elements_eq]
  exact List.mem_map_of_mem among

theorem source_of {e : Element} (member : e ∈ d.elements) :
    ∃ source ∈ selectedOf content draft, ∃ p ∈ picked, p.1 = e ∧
      correctElement draft.corrections source = .ok p := by
  rw [drafted.elements_eq] at member
  obtain ⟨p, among, rfl⟩ := List.mem_map.mp member
  obtain ⟨source, held, one⟩ := source_of_mapM drafted.elements among
  exact ⟨source, held, p, among, rfl, one⟩

end

end Drafted

/-! ### The selection of the producer -/

section Selecting

variable {content : ExtractionContent} {draft : PreparationDraft}

/-- The names of a content that holds are each given once. -/
structure Named (content : ExtractionContent) : Prop where
  elements : (content.elements.map ExtractionElement.id).Nodup
  relations : (content.relations.map Relation.id).Nodup
  resources : (content.resources.map Artifact.id).Nodup
  components : (content.components.map Component.id).Nodup
  incidents : (content.incidents.map Incident.id).Nodup

structure ContentFacts (content : ExtractionContent) : Prop extends Named content where
  original : artifactReference content.original = true
  source : exactReference content.source = true
  elementShaped : ∀ e ∈ content.elements, ExtractionContent.elementShaped e = true
  resourceShaped : ∀ r ∈ content.resources, artifactReference r = true
  componentsFew : content.components.length ≤ 10000
  componentShaped : ∀ c ∈ content.components, isComponent c = true
  incidentsFew : content.incidents.length ≤ 10000
  incidentShaped : ∀ i ∈ content.incidents, isIncident i = true
  elementPlaced : ∀ e ∈ content.elements, content.elementPlaced e = true
  relationEnds : ∀ r ∈ content.relations, (∃ e ∈ content.elements, e.id = r.source) ∧
    ∃ e ∈ content.elements, e.id = r.target
  incidentsMatch : Preparation.incidentsMatch content.components content.incidents = true

theorem contentFacts (valid : isExtractionContent content = true) : ContentFacts content := by
  simp only [isExtractionContent, isArray, Bool.and_eq_true, decide_eq_true_iff, distinct_iff,
    List.all_eq_true, List.any_eq_true] at valid
  obtain ⟨⟨⟨⟨⟨⟨⟨⟨⟨⟨original, source⟩, -, elementShaped⟩, -⟩, -, resourceShaped⟩, componentsFew,
    componentShaped⟩, incidentsFew, incidentShaped⟩, ⟨⟨⟨elements, relations⟩, resources⟩, components⟩,
    incidents⟩, elementPlaced⟩, relationEnds⟩, incidentsMatch⟩ := valid
  exact {
    elements, relations, resources, components, incidents, original, source, elementShaped
    resourceShaped, componentsFew, incidentsFew, incidentShaped, elementPlaced, incidentsMatch
    componentShaped := fun c member => (componentShaped c member).1
    relationEnds := relationEnds }

theorem mem_selectedOf {e : ExtractionElement} :
    e ∈ selectedOf content draft ↔ e ∈ content.elements ∧ e.id ∈ draft.selected := by
  simp [selectedOf]

theorem selectedOf_apart (named : Named content) :
    ((selectedOf content draft).map ExtractionElement.id).Nodup :=
  named.elements.sublist (List.filter_sublist.map _)

def selectionRows (content : ExtractionContent) (draft : PreparationDraft) : List Selection :=
  (selectedOf content draft).map selectionRow

/-- Every row of the selection is of the one source. -/
theorem selectionRows_filter :
    ((selectionRows content draft).filter fun s => s.input_id = "source") =
      selectionRows content draft := by
  refine List.filter_eq_self.mpr fun s member => ?_
  obtain ⟨e, -, rfl⟩ := List.mem_map.mp member
  rfl

theorem selectionRows_elements :
    (selectionRows content draft).map Selection.element_id =
      (selectedOf content draft).map ExtractionElement.id := by
  rw [selectionRows, List.map_map]
  rfl

theorem selectedBy_of_selected (named : Named content) {e : ExtractionElement}
    (member : e ∈ selectedOf content draft) :
    selectedBy (selectionRows content draft) e.id = some (selectionRow e) := by
  have apart : ((selectionRows content draft).map Selection.element_id).Nodup := by
    rw [selectionRows_elements]
    exact selectedOf_apart named
  exact Rows.find?_of_key apart (List.mem_map_of_mem member)

theorem selectedBy_of_not_selected {id : String} (left : id ∉ draft.selected) :
    selectedBy (selectionRows content draft) id = none := by
  refine List.find?_eq_none.mpr fun s member same => left ?_
  obtain ⟨e, held, rfl⟩ := List.mem_map.mp member
  have equal : e.id = id := of_decide_eq_true same
  rw [← equal]
  exact (mem_selectedOf.mp held).2

/-- An element with a resource brings it, under the element's own name. -/
def associationOf (source : ExtractionElement) : Option ResourceAssociation :=
  source.body.resource?.map fun r => ⟨source.id, source.id, r⟩

theorem mapOrigin_source (origin : ExtractionOrigin) :
    mapOrigin "source" (match origin with
      | .stretch range => .stretch range
      | .located antecedents => .extracted antecedents) = .ok (sourcePlaces origin) := by
  cases origin with
  | located antecedents => rfl
  | stretch range =>
    rw [sourcePlaces, mapOrigin, rangeText]
    simp only [String.append_assoc]

theorem mapSelection_source (facts : ContentFacts content) {source : ExtractionElement}
    (member : source ∈ selectedOf content draft) :
    mapSelection "source" content.asSource (selectionRow source) =
      .ok (sourceElement source, associationOf source) := by
  have apart : (content.asSource.elements.map SourceElement.id).Nodup := by
    have ids : content.asSource.elements.map SourceElement.id =
        content.elements.map ExtractionElement.id := by
      rw [ExtractionContent.asSource, List.map_map]
      rfl
    rw [ids]
    exact facts.elements
  have held : (⟨source.id, source.body, match source.origin with
      | .stretch range => .stretch range
      | .located antecedents => .extracted antecedents⟩ : SourceElement) ∈
      content.asSource.elements :=
    List.mem_map_of_mem (mem_selectedOf.mp member).1
  have found := Rows.find?_of_key apart held
  rw [mapSelection, show (selectionRow source).element_id = source.id from rfl, found]
  dsimp only
  rw [mapOrigin_source, selectResource]
  cases resource : source.body.resource? with
  | none => simp [selectionRow, associationOf, sourceElement, resource, bind, Except.bind, pure, Except.pure]
  | some r => simp [selectionRow, associationOf, sourceElement, resource, bind, Except.bind, pure, Except.pure]

theorem joined_eq {a b : String} (names : identifier (join a b) = true) :
    joined a b = .ok (join a b) := by
  rw [joined, if_pos names]

/-- A relation that the browser retains, the producer takes, under the same name. -/
theorem mapRelation_source (facts : ContentFacts content) {relation : Relation}
    {taken : Option Relation} (member : relation ∈ content.relations)
    (ok : retainRelation draft.selected relation = .ok taken)
    (names : ∀ r ∈ taken, identifier r.id = true) :
    mapRelation "source" (selectionRows content draft) relation = .ok taken := by
  obtain ⟨⟨from_, held, from_id⟩, to_, held', to_id⟩ := facts.relationEnds relation member
  rw [mapRelation]
  rcases retainRelation_eq_ok ok with ⟨left, right, rfl⟩ | ⟨left, right, rfl⟩
  · rw [← from_id] at left
    rw [← to_id] at right
    have selected := selectedBy_of_selected facts.toNamed (mem_selectedOf.mpr ⟨held, left⟩)
    have selected' := selectedBy_of_selected facts.toNamed (mem_selectedOf.mpr ⟨held', right⟩)
    rw [from_id] at selected
    rw [to_id] at selected'
    have name : identifier (join "source" relation.id) = true := by
      rw [join_source]
      exact names _ rfl
    rw [selected, selected']
    dsimp only
    rw [joined_eq name, join_source]
    simp [bind, Except.bind, pure, Except.pure, selectionRow, from_id, to_id]
  · rw [selectedBy_of_not_selected left, selectedBy_of_not_selected right]

def joinedComponent (row : Component) : Component :=
  { row with id := join "source" row.id, incidents := row.incidents.map (join "source") }

def joinedIncident (row : Incident) : Incident :=
  { row with id := join "source" row.id, component := join "source" row.component }

/-- Every name of a component or an incident is still an identifier under the source's. -/
structure NamesFit (content : ExtractionContent) : Prop where
  component : ∀ c ∈ content.components, identifier (join "source" c.id) = true
  incident : ∀ i ∈ content.incidents, identifier (join "source" i.id) = true

theorem incidentsMatch_iff {components : List Component} {incidents : List Incident} :
    Preparation.incidentsMatch components incidents = true ↔
      (∀ i ∈ incidents, ∃ c ∈ components, c.id = i.component ∧ i.id ∈ c.incidents) ∧
        ∀ c ∈ components, ∀ id ∈ c.incidents, ∃ i ∈ incidents, i.id = id ∧ i.component = c.id := by
  simp [Preparation.incidentsMatch]

theorem mapComponent_source (facts : ContentFacts content) (fit : NamesFit content)
    {row : Component} (member : row ∈ content.components) :
    mapComponent "source" row = .ok (joinedComponent row) := by
  have incidents : row.incidents.mapM (joined "source") = .ok (row.incidents.map (join "source")) :=
    mapM_of_forall fun id listed => by
      obtain ⟨i, held, rfl, -⟩ := (incidentsMatch_iff.mp facts.incidentsMatch).2 row member id listed
      exact joined_eq (fit.incident i held)
  rw [mapComponent, joined_eq (fit.component row member), incidents]
  rfl

theorem mapIncident_source (facts : ContentFacts content) (fit : NamesFit content)
    {row : Incident} (member : row ∈ content.incidents) :
    mapIncident "source" row = .ok (joinedIncident row) := by
  obtain ⟨c, held, id, -⟩ := (incidentsMatch_iff.mp facts.incidentsMatch).1 row member
  have component : joined "source" row.component = .ok (join "source" row.component) := by
    rw [← id]
    exact joined_eq (fit.component c held)
  rw [mapIncident, joined_eq (fit.incident row member), component]
  rfl

/-- The resources of the selected elements, each once. -/
def pushResource (resources : List Artifact) (r : Artifact) : List Artifact :=
  if r ∈ resources then resources else resources ++ [r]

def selectedAssociations (content : ExtractionContent) (draft : PreparationDraft) :
    List ResourceAssociation :=
  (selectedOf content draft).filterMap associationOf

/-- What the producer selects, as the browser selected it. -/
def browserMapped (content : ExtractionContent) (draft : PreparationDraft) (input : Input)
    (relations : List Relation) : Mapped where
  inputs := [input]
  elements := (selectedOf content draft).map sourceElement
  relations := relations
  components := content.components.map joinedComponent
  incidents := content.incidents.map joinedIncident
  conditions := []
  resources := ((selectedAssociations content draft).map ResourceAssociation.artifact).foldl
    pushResource []
  associations := selectedAssociations content draft
  interruptions := []
  sourceUnits := []
  inventory := content.inventory

theorem mapSource_browser (facts : ContentFacts content) (fit : NamesFit content) {input : Input}
    (name : input.id = "source") {retained : List (Option Relation)}
    (relations : content.relations.mapM (retainRelation draft.selected) = .ok retained)
    (names : ∀ r ∈ retained.reduceOption, identifier r.id = true) :
    mapSource (selectionRows content draft) .empty ⟨input, content.asSource⟩ =
      .ok (browserMapped content draft input retained.reduceOption) := by
  have components : content.components.mapM (mapComponent "source") =
      .ok (content.components.map joinedComponent) :=
    mapM_of_forall fun row member => mapComponent_source facts fit member
  have incidents : content.incidents.mapM (mapIncident "source") =
      .ok (content.incidents.map joinedIncident) :=
    mapM_of_forall fun row member => mapIncident_source facts fit member
  have picked : (selectionRows content draft).mapM (mapSelection "source" content.asSource) =
      .ok ((selectedOf content draft).map fun e => (sourceElement e, associationOf e)) := by
    rw [mapM_eq_ok, selectionRows, List.forall₂_map_left_iff, List.forall₂_map_right_iff,
      List.forall₂_same]
    exact fun e member => mapSelection_source facts member
  have related : content.relations.mapM (mapRelation "source" (selectionRows content draft)) =
      .ok retained := by
    refine mapM_of_mapM relations ?_
    intro relation member taken among ok
    refine mapRelation_source facts member ok fun r is => names r ?_
    rw [Option.mem_def] at is
    exact List.mem_filterMap.mpr ⟨taken, among, is⟩
  have distinctRows : distinct ((selectionRows content draft).map Selection.element_id) = true := by
    rw [distinct_iff, selectionRows_elements]
    exact selectedOf_apart facts.toNamed
  have associations :
      ((selectedOf content draft).map fun e => (sourceElement e, associationOf e)).filterMap Prod.snd =
        selectedAssociations content draft := by
    rw [List.filterMap_map]
    rfl
  simp only [mapSource, except_bind_eq_ok, name, selectionRows_filter, ensure_eq_ok]
  refine ⟨[], rfl, (), distinctRows, _, components, _, incidents, [], rfl, _, picked, _, related, [],
    rfl, ?_⟩
  rw [associations]
  simp only [Mapped.empty, browserMapped, List.nil_append, List.map_map]
  cases unknown : content.inventory <;>
    simp [ExtractionContent.asSource, unknown, Function.comp_def, List.reduceOption, pure,
      Except.pure] <;> rfl

end Selecting

end LedgerDesk.Preparation
