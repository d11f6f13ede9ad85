import Jayvee.Model.ImportResolver

/-! # Loading of imported files -/

namespace Jayvee

/-! ## Services -/

/-- What the import of files uses of its environment. The file system may refuse to read, and a
text is parsed as the document at the given URI. -/
structure JayveeServices where
  fileExtensions : List String
  fsPath : (uri : String) → String
  readFile : (uri : String) → Option String
  fromString : (file uri : String) → LangiumDocument
  resolvePath : (uri path : String) → String
  fromString_uri : ∀ file uri, (fromString file uri).uri = uri

namespace JayveeServices

variable (services : JayveeServices)

def resolveImportUri (importDefinition : ImportDefinition) : Option String :=
  if importDefinition.path.length = 0 then
    none
  else
    some (services.resolvePath importDefinition.document importDefinition.path)

def findUnresolvedImportURIs (documents : List LangiumDocument) (model : JayveeModel) :
    List String :=
  (model.imports.filterMap services.resolveImportUri).filter fun uri =>
    (getDocument documents uri).isNone

/-! ## Loading -/

def loadFileFromUri (uri : String) : Option String :=
  services.readFile uri

def hasAllowedFileExtension (importURI : String) : Bool :=
  services.fileExtensions.any fun ext => (services.fsPath importURI).endsWith ext

def hasDocument (documents : List LangiumDocument) (uri : String) : Bool :=
  (getDocument documents uri).isSome

/-- What is done about documents whose content is indexed, given how an import is loaded. It
stops at the first document that is no Jayvee model. `none` if it does not end. -/
def onIndexedContent (loadDocumentFromFs : String → List LangiumDocument →
    Option (List LangiumDocument)) :
    (docs documents : List LangiumDocument) → Option (List LangiumDocument)
  | [], documents => some documents
  | doc :: docs, documents =>
      match doc.parseResult with
      | none => some documents
      | some model => do
          let importURIs := services.findUnresolvedImportURIs documents model
          let documents ← importURIs.foldlM (fun documents importURI =>
            loadDocumentFromFs importURI documents) documents
          onIndexedContent loadDocumentFromFs docs documents

/-- Building the document of a file indexes its content, which loads what it imports. Only then
the document is added to the loaded documents. `none` if `fuel` nested builds were not enough. -/
def loadDocumentFromFs : (fuel : Nat) → (importURI : String) →
    (documents : List LangiumDocument) → Option (List LangiumDocument)
  | 0, _, _ => none
  | fuel + 1, importURI, documents =>
      if !services.hasAllowedFileExtension importURI then
        some documents
      else
        match services.loadFileFromUri importURI with
        | none => some documents
        | some file => do
            let document := services.fromString file importURI
            let documents ←
              services.onIndexedContent (loadDocumentFromFs fuel) [document] documents
            return if hasDocument documents document.uri then documents
              else documents ++ [document]

/-- The listener that loads the imports of documents which are built. -/
def addDynamicFileImport (fuel : Nat) (docs documents : List LangiumDocument) :
    Option (List LangiumDocument) :=
  services.onIndexedContent (services.loadDocumentFromFs fuel) docs documents

end JayveeServices

end Jayvee
