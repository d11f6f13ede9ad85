import Jayvee.Model.ImportResolver
import Jayvee.Model.PipelineValidation

/-! # Validation of imports and exports -/

namespace Jayvee

open Foundation

variable (importResolver : JayveeImportResolver)

/-! ## Import definitions -/

def hasErrorOccurred : Validation Bool := do
  let diagnostics ← Exec.get
  return diagnostics.any fun diagnostic => diagnostic.severity == .error

def checkPathExists (importDefinition : ImportDefinition) : Validation Unit :=
  match importResolver.resolveImport importDefinition with
  | none =>
      accept .error
        s!"Import from \"{importDefinition.path}\" could not be resolved. Check if the file exists in the given location."
        { node := .importDefinition importDefinition, property := some "path" }
  | some _ => return

/-- The names that can be imported: an alias counts whatever its element is. -/
def getExportNames (resolvedImport : JayveeModel) : List String :=
  let exportedViaElementDefinition :=
    (resolvedImport.exportableElements.filter ExportableElement.isPublished).map
      ExportableElement.name
  let exportedViaExportDefinition := resolvedImport.exports.filterMap fun x =>
    match x.alias with
    | some exportAlias => some exportAlias
    | none => x.element.map ExportableElement.name
  exportedViaElementDefinition ++ exportedViaExportDefinition

/-- Reports the named import with the given index if it cannot be found. -/
def checkImportedElementExists (importDefinition : ImportDefinition) (allExports : List String)
    (usedElement : NamedImportElement × Nat) : Validation Unit :=
  let (namedImport, i) := usedElement
  if allExports.contains namedImport.element then
    return
  else
    accept .error
      s!"Could not find published element {namedImport.element} in file \"{importDefinition.path}\". Check if the element exists and has been correctly published."
      { node := .importDefinition importDefinition, property := some "usedElements", index := some i }

def checkImportedElementsExist (importDefinition : ImportDefinition) : Validation Unit :=
  match importResolver.resolveImport importDefinition with
  | none => return
  | some resolvedImport =>
      Exec.forEach importDefinition.usedElements.zipIdx
        (checkImportedElementExists importDefinition (getExportNames resolvedImport))

structure ImportChainTrace where
  isCyclic : Bool
  path : List ImportDefinition

/-- The visited documents are shared by all branches of the walk. -/
def analyzeImportChain : (fuel : Nat) → (importDefinition : ImportDefinition) →
    Exec (List String) JsError (List ImportChainTrace)
  | 0, _ => Exec.diverge
  | fuel + 1, importDefinition =>
      match importResolver.resolveImport importDefinition with
      | none => return [⟨false, [importDefinition]⟩]
      | some importedModel => do
          let visitedDocumentUris ← Exec.get
          let currentVisitedUri := importedModel.document
          if visitedDocumentUris.contains currentVisitedUri then
            return [⟨true, [importDefinition]⟩]
          else
            Exec.modify fun visitedDocumentUris => visitedDocumentUris ++ [currentVisitedUri]
            let downwardAnalysisResults ← importedModel.imports.mapM (analyzeImportChain fuel)
            return downwardAnalysisResults.flatten.map fun r =>
              ⟨r.isCyclic, importDefinition :: r.path⟩

def checkCyclicImportChain (fuel : Nat) (importDefinition : ImportDefinition) :
    Validation Unit := do
  let cycleAnalysisTraces ← Exec.isolate [] (analyzeImportChain importResolver fuel importDefinition)
  match cycleAnalysisTraces.filter ImportChainTrace.isCyclic with
  | [] => return
  | cycle :: _ =>
      let shownImportChain := " -> ".intercalate (cycle.path.map fun x => s!"\"{x.path}\"")
      accept .error
        s!"Import from \"{importDefinition.path}\" leads to import cycle: {shownImportChain}"
        { node := .importDefinition importDefinition }

def checkElementImportedOnlyOnce (importDefinition : ImportDefinition) : Validation Unit :=
  let importedElements := importDefinition.usedElements
  Exec.forEach importedElements.zipIdx fun (importedElement, i) =>
    let occurrencesInSameImportDefinition :=
      (importedElements.filter fun x => x.element == importedElement.element).length
    if occurrencesInSameImportDefinition > 1 then
      accept .error
        s!"Element {importedElement.element} is imported {occurrencesInSameImportDefinition} times from file \"{importDefinition.path}\". Remove the duplicate import."
        { node := .importDefinition importDefinition, property := some "usedElements"
          index := some i }
    else
      return

def checkFileImportedOnlyOnce (importDefinition : ImportDefinition) : Validation Unit :=
  let currentImportUri := importResolver.resolveImportUri importDefinition
  let allImportsInDocument :=
    ((getContainerModel importResolver.documents importDefinition.document).map
      JayveeModel.imports).getD []
  let occurrencesImportsFromPath := (allImportsInDocument.filter fun x =>
    importResolver.resolveImportUri x == currentImportUri).length
  if occurrencesImportsFromPath ≤ 1 then
    return
  else
    accept .error
      s!"Found {occurrencesImportsFromPath} import statements for file \"{importDefinition.path}\". Combine both import statements."
      { node := .importDefinition importDefinition, property := some "path" }

def validateImportDefinition (fuel : Nat) (importDefinition : ImportDefinition) :
    Validation Unit := do
  checkPathExists importResolver importDefinition
  if ← hasErrorOccurred then
    return
  checkImportedElementsExist importResolver importDefinition
  checkCyclicImportChain importResolver fuel importDefinition
  checkElementImportedOnlyOnce importDefinition
  checkFileImportedOnlyOnce importResolver importDefinition

/-! ## Export definitions -/

def checkIsAlreadyPublished (exportDefinition : ExportDefinition) : Validation Unit :=
  match exportDefinition.element with
  | none => return
  | some originalDefinition =>
      if originalDefinition.isPublished then
        accept .error
          s!"Element {originalDefinition.name} is already published at its definition."
          { node := .exportDefinition exportDefinition }
      else
        return

def checkUniqueAlias (exportDefinition : ExportDefinition) : Validation Unit :=
  match exportDefinition.alias with
  | none => return
  | some exportAlias =>
      match getContainerModel importResolver.documents exportDefinition.document with
      | none => Exec.throw (.assertionError "The expression evaluated to a falsy value")
      | some model => do
          let allExports ← Exec.ofExcept (importResolver.getExportedElements model)
          let elementsWithSameName := allExports.filter fun e => e.exportName == exportAlias
          if elementsWithSameName.length = 0 then
            Exec.throw (.assertionError "Could not find the export definition itself in exports")
          let isAliasUnique := elementsWithSameName.length = 1
          if ¬ isAliasUnique then
            accept .error
              s!"This alias is ambiguous. There is another element published element with the same name \"{exportAlias}\"."
              { node := .exportDefinition exportDefinition, property := some "alias" }

def validateExportDefinition (exportDefinition : ExportDefinition) : Validation Unit := do
  checkIsAlreadyPublished exportDefinition
  checkUniqueAlias importResolver exportDefinition

/-! ## Models -/

/-- The named nodes of the root of a document. -/
def getRootLevelElements (model : JayveeModel) :
    Except JsError (List (String × AstNode)) := do
  let importedElements ← importResolver.getImportedElements model
  return (model.pipelines.map fun node => (node.name, .pipeline node)) ++
    (model.exportableElements.map fun node => (node.name, .exportableElement node)) ++
    importedElements.map fun node => (node.importName, .exportableElement node.element)

/-- The named nodes inside of a pipeline. -/
def getElementsInPipeline (ast : Ast) (pipeline : PipelineDefinition) :
    List (String × AstNode) :=
  (pipeline.blocks.map fun node => (ast.blockName node, .block node)) ++
  (pipeline.constraints.filterMap fun node =>
    ast.constraints[node]?.map fun definition => (definition.name, .constraint node)) ++
  (pipeline.transforms.filterMap fun node =>
    ast.transforms[node]?.map fun definition => (definition.name, .transform node)) ++
  pipeline.valueTypes.filterMap fun node =>
    ast.valuetypes[node]?.map fun definition => (definition.name, .valuetype node)

def validateJayveeModel (ast : Ast) (model : JayveeModel) : Validation Unit := do
  let allElementsRootLevel ← Exec.ofExcept (getRootLevelElements importResolver model)
  checkUniqueNames allElementsRootLevel
  Exec.forEach model.pipelines fun pipeline =>
    checkUniqueNames (getElementsInPipeline ast pipeline)

end Jayvee
