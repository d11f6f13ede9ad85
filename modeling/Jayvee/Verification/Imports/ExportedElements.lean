import Jayvee.Model.ImportResolver
import Jayvee.Foundation.Exec

/-! # The exported elements of a document -/

namespace Jayvee

open Foundation

/-! ## Loaded documents -/

theorem uri_of_getDocument {documents : List LangiumDocument} {uri : String}
    {document : LangiumDocument} (h : getDocument documents uri = some document) :
    document.uri = uri := by
  have hfound := List.find?_some h
  simpa using hfound

theorem getContainerModel_mem {documents : List LangiumDocument} {uri : String}
    {model : JayveeModel} (h : getContainerModel documents uri = some model) :
    uri ∈ documents.map LangiumDocument.uri := by
  obtain ⟨document, hdocument, _⟩ := Option.bind_eq_some_iff.mp h
  rw [← uri_of_getDocument hdocument]
  exact List.mem_map_of_mem (List.mem_of_find?_eq_some hdocument)

namespace JayveeImportResolver

variable {this : JayveeImportResolver}

theorem getContainerModel_of_resolveImport {importDefinition : ImportDefinition}
    {model : JayveeModel} (h : this.resolveImport importDefinition = some model) :
    getContainerModel this.documents model.document = some model := by
  simp only [resolveImport, resolveImportedDocument, Option.bind_eq_bind,
    Option.bind_eq_some_iff] at h
  obtain ⟨document, ⟨uri, _, hdocument⟩, hmodel⟩ := h
  rw [getContainerModel, document.document_eq model hmodel, uri_of_getDocument hdocument,
    hdocument]
  exact hmodel

/-! ## Publish statements -/

variable (this) in
/-- The element is published, in its definition or by a publish statement of its document. -/
def IsExported (element : ExportableElement) : Prop :=
  element.isPublished ∨ ∃ model, getContainerModel this.documents element.document = some model ∧
    ∃ exportDefinition ∈ model.exports, exportDefinition.element = some element

theorem isElementExported_spec {element : ExportableElement}
    (h : (getContainerModel this.documents element.document).isSome) :
    ∃ isExported, this.isElementExported element = .ok isExported ∧
      (isExported ↔ this.IsExported element) := by
  obtain ⟨model, hmodel⟩ := Option.isSome_iff_exists.mp h
  unfold isElementExported IsExported
  by_cases hpublished : element.isPublished
  · exact ⟨true, by simp [hpublished], by simp [hpublished]⟩
  · exact ⟨_, by simp only [hpublished, hmodel]; rfl, by simp [hpublished, hmodel]⟩

variable (this) in
/-- A publish statement offers an element under a name. -/
def Offers (exportDefinition : ExportDefinition) (details : ExportDetails) : Prop :=
  ∃ element, exportDefinition.element = some element ∧ this.IsExported element ∧
    details = ⟨element, exportDefinition.alias.getD element.name⟩

/-- What is linked has a container. -/
theorem getExportDetails_spec {exportDefinition : ExportDefinition}
    (h : ∀ element, exportDefinition.element = some element →
      (getContainerModel this.documents element.document).isSome) :
    ∃ details, this.getExportDetails exportDefinition = .ok details ∧
      ∀ d, details = some d ↔ this.Offers exportDefinition d := by
  unfold getExportDetails followExportDefinitionChain Offers
  cases helement : exportDefinition.element with
  | none => exact ⟨none, rfl, by simp⟩
  | some element =>
      obtain ⟨isExported, hrun, hexported⟩ := isElementExported_spec (h element helement)
      cases isExported with
      | false => exact ⟨none, by simp [hrun]; rfl, by simpa using hexported⟩
      | true =>
          refine ⟨_, by simp [hrun]; rfl, ?_⟩
          have hexported : this.IsExported element := hexported.mp rfl
          simp [hexported, eq_comm]

/-! ## All exports -/

variable (this) in
/-- The details are exported by a model, by a published definition or a publish statement. -/
def Exports (model : JayveeModel) (details : ExportDetails) : Prop :=
  (∃ node ∈ model.exportableElements, node.isPublished ∧ details = ⟨node, node.name⟩) ∨
  ∃ exportDefinition ∈ model.exports, this.Offers exportDefinition details

theorem mapM_getExportDetails (exports : List ExportDefinition)
    (h : ∀ exportDefinition ∈ exports, ∀ element, exportDefinition.element = some element →
      (getContainerModel this.documents element.document).isSome) :
    ∃ details, exports.mapM this.getExportDetails = .ok details ∧
      ∀ d, some d ∈ details ↔ ∃ exportDefinition ∈ exports, this.Offers exportDefinition d := by
  induction exports with
  | nil => exact ⟨[], rfl, by simp⟩
  | cons exportDefinition exports ih =>
      obtain ⟨first, hfirst, hoffers⟩ := getExportDetails_spec (h exportDefinition (by simp))
      obtain ⟨details, hdetails, hmem⟩ := ih fun x hx => h x (by simp [hx])
      refine ⟨first :: details, ?_, ?_⟩
      · rw [List.mapM_cons, hfirst, hdetails]
        rfl
      · intro d
        simp [hmem, ← hoffers, eq_comm]

/-- The exported elements of a loaded document can always be computed. -/
theorem getExportedElements_spec {uri : String} {model : JayveeModel}
    (h : getContainerModel this.documents uri = some model) :
    ∃ published, this.getExportedElements model = .ok published ∧
      ∀ details, details ∈ published ↔ this.Exports model details := by
  obtain ⟨details, hdetails, hmem⟩ := mapM_getExportDetails model.exports <| by
    intro x hx element helement
    obtain ⟨container, hcontainer, _⟩ := this.containers uri model h x hx element helement
    rw [hcontainer]
    rfl
  unfold getExportedElements
  rw [hdetails]
  refine ⟨_, rfl, ?_⟩
  intro d
  have hexports : d ∈ details.filterMap id ↔
      ∃ exportDefinition ∈ model.exports, this.Offers exportDefinition d := by
    simp [← hmem]
  have hdefinitions : d ∈ (model.exportableElements.filter ExportableElement.isPublished).map
        (fun node => (⟨node, node.name⟩ : ExportDetails)) ↔
      ∃ node ∈ model.exportableElements, node.isPublished ∧ d = ⟨node, node.name⟩ := by
    simp only [List.mem_map, List.mem_filter, and_assoc, eq_comm (a := d)]
  unfold Exports
  split
  · rw [List.mem_append, hexports, hdefinitions, or_comm]
  · rw [List.mem_append, hexports, hdefinitions]

end JayveeImportResolver

end Jayvee
