import Jayvee.Model.Ast

/-! # Imports and exports -/

namespace Jayvee

/-! ## Loaded documents -/

/-- The parse result is `none` if it is no Jayvee model. -/
structure LangiumDocument where
  uri : String
  parseResult : Option JayveeModel
  document_eq : ∀ model, parseResult = some model → model.document = uri

/-- A document with the given parse result. -/
def LangiumDocument.parsed (model : JayveeModel) : LangiumDocument where
  uri := model.document
  parseResult := some model
  document_eq := by
    rintro _ ⟨⟩
    rfl

/-- `LangiumDocuments.getDocument`. -/
def getDocument (documents : List LangiumDocument) (uri : String) : Option LangiumDocument :=
  documents.find? fun document => document.uri == uri

/-- The container of a node in the document with the URI. -/
def getContainerModel (documents : List LangiumDocument) (uri : String) : Option JayveeModel :=
  (getDocument documents uri).bind LangiumDocument.parseResult

/-- The loaded documents, and how a path is resolved relative to the directory of a document.
A publish statement refers to an exportable element of one of the documents. -/
structure JayveeImportResolver where
  documents : List LangiumDocument
  resolvePath : (uri path : String) → String
  containers : ∀ uri model, getContainerModel documents uri = some model →
    ∀ exportDefinition ∈ model.exports, ∀ element, exportDefinition.element = some element →
      ∃ container, getContainerModel documents element.document = some container ∧
        element ∈ container.exportableElements

/-! ## Exported elements -/

structure ExportDetails where
  element : ExportableElement
  exportName : String
  deriving DecidableEq, Repr

structure ImportDetails where
  element : ExportableElement
  importName : String
  deriving DecidableEq, Repr

namespace JayveeImportResolver

section Exports

variable (this : JayveeImportResolver)

/-- Whether an element is published, in its definition or by a publish statement. -/
def isElementExported (element : ExportableElement) : Except JsError Bool :=
  if element.isPublished then
    .ok true
  else
    match getContainerModel this.documents element.document with
    | none => .error (.assertionError
        s!"Could not get container of exportable element {element.name}")
    | some model => .ok (model.exports.any fun exportDefinition =>
        exportDefinition.element == some element)

def followExportDefinitionChain (exportDefinition : ExportDefinition) :
    Except JsError (Option ExportableElement) :=
  match exportDefinition.element with
  | none => .ok none
  | some referenced => do
      let isExported ← this.isElementExported referenced
      if !isExported then
        return none
      return some referenced

/-- What a publish statement adds to the exported elements. -/
def getExportDetails (exportDefinition : ExportDefinition) :
    Except JsError (Option ExportDetails) := do
  match ← this.followExportDefinitionChain exportDefinition with
  | none => return none
  | some originalDefinition =>
      return some ⟨originalDefinition, exportDefinition.alias.getD originalDefinition.name⟩

/-- Inside of pipelines, nothing is published. -/
def getExportedElements (model : JayveeModel) : Except JsError (List ExportDetails) := do
  let definitions := (model.exportableElements.filter ExportableElement.isPublished).map
    fun node => ⟨node, node.name⟩
  let details ← model.exports.mapM this.getExportDetails
  let exports := details.filterMap id
  return if model.exportsComeFirst then exports ++ definitions else definitions ++ exports

end Exports

/-! ## Imports -/

section Imports

variable (this : JayveeImportResolver)

def resolveImportUri (importDefinition : ImportDefinition) : Option String :=
  if importDefinition.path.length = 0 then
    none
  else
    some (this.resolvePath importDefinition.document importDefinition.path)

def resolveImportedDocument (importDefinition : ImportDefinition) : Option LangiumDocument := do
  let resolvedUri ← this.resolveImportUri importDefinition
  getDocument this.documents resolvedUri

def resolveImport (importDefinition : ImportDefinition) : Option JayveeModel := do
  let resolvedDocument ← this.resolveImportedDocument importDefinition
  resolvedDocument.parseResult

/-- The elements that named imports find, each under its alias. -/
def getNamedElements (publishedElements : List ExportDetails)
    (namedImports : List NamedImportElement) : List ImportDetails :=
  namedImports.filterMap fun namedImport => do
    let matchingExportedElement ←
      publishedElements.find? fun x => x.exportName == namedImport.element
    return ⟨matchingExportedElement.element, namedImport.alias.getD namedImport.element⟩

def getImportedElementsFromDocument (importDefinition : ImportDefinition)
    (importedDocument : JayveeModel) : Except JsError (List ImportDetails) := do
  let publishedElements ← this.getExportedElements importedDocument
  if importDefinition.useAll then
    return publishedElements.map fun exportDetails =>
      ⟨exportDetails.element, exportDetails.exportName⟩
  return getNamedElements publishedElements importDefinition.usedElements

def getImportedElements (model : JayveeModel) : Except JsError (List ImportDetails) := do
  let importedElements ← model.imports.mapM fun importDefinition =>
    match this.resolveImport importDefinition with
    | none => .ok []
    | some importedDocument =>
        this.getImportedElementsFromDocument importDefinition importedDocument
  return importedElements.flatten

end Imports

end JayveeImportResolver

end Jayvee
