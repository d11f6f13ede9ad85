import Jayvee.Verification.Imports.CyclicImports

/-! # Import validation and import resolution -/

namespace Jayvee

open Foundation

variable {importResolver : JayveeImportResolver}

/-! ## The names that are published -/

/-- A publish statement makes its element available under the name, whether or not it can be
followed to an exported element. -/
def NamesExport (exportDefinition : ExportDefinition) (name : String) : Prop :=
  exportDefinition.alias = some name ∨
  exportDefinition.alias = none ∧ ∃ element, exportDefinition.element = some element ∧
    element.name = name

/-- The publish statement can be followed to an exported element. -/
def CanBeFollowed (importResolver : JayveeImportResolver) (exportDefinition : ExportDefinition) :
    Prop :=
  ∃ element, exportDefinition.element = some element ∧ importResolver.IsExported element

/-- A published definition or a publish statement that can be followed has the name. -/
def IsAvailable (importResolver : JayveeImportResolver) (model : JayveeModel) (name : String) :
    Prop :=
  (∃ node ∈ model.exportableElements, node.isPublished ∧ node.name = name) ∨
  ∃ exportDefinition ∈ model.exports, NamesExport exportDefinition name ∧
    CanBeFollowed importResolver exportDefinition

theorem isAvailable_iff {model : JayveeModel} {name : String} :
    IsAvailable importResolver model name ↔
      ∃ details, importResolver.Exports model details ∧ details.exportName = name := by
  unfold IsAvailable JayveeImportResolver.Exports
  constructor
  · rintro (⟨node, hnode, hpublished, hname⟩ | ⟨x, hx, hnames, element, helement, hexported⟩)
    · exact ⟨_, .inl ⟨node, hnode, hpublished, rfl⟩, hname⟩
    · refine ⟨_, .inr ⟨x, hx, element, helement, hexported, rfl⟩, ?_⟩
      obtain halias | ⟨halias, _, helement', hname⟩ := hnames
      · simp [halias]
      · cases helement.symm.trans helement'
        simpa [halias] using hname
  · rintro ⟨_, ⟨node, hnode, hpublished, rfl⟩ | ⟨x, hx, element, helement, hexported, rfl⟩, hname⟩
    · exact .inl ⟨node, hnode, hpublished, hname⟩
    · refine .inr ⟨x, hx, ?_, element, helement, hexported⟩
      cases halias : x.alias with
      | none => exact .inr ⟨halias, element, helement, by simpa [halias] using hname⟩
      | some exportAlias => exact .inl (by simpa [halias] using hname)

theorem mem_getExportNames {model : JayveeModel} {name : String} :
    name ∈ getExportNames model ↔
      (∃ node ∈ model.exportableElements, node.isPublished ∧ node.name = name) ∨
      ∃ exportDefinition ∈ model.exports, NamesExport exportDefinition name := by
  unfold getExportNames NamesExport
  simp only [List.mem_append, List.mem_map, List.mem_filter, List.mem_filterMap, and_assoc]
  apply or_congr Iff.rfl
  apply exists_congr
  intro exportDefinition
  apply and_congr Iff.rfl
  cases exportDefinition.alias with
  | none => simp
  | some exportAlias => simp

/-! ## The two paths -/

/-- The check has reported the imported element with the index as missing. -/
def IsReportedMissing (diagnostics : List Diagnostic) (index : Nat) : Prop :=
  ∃ diagnostic ∈ diagnostics, diagnostic.severity = .error ∧ diagnostic.info.index = some index

/-- What the check reports for one imported element. -/
theorem checkImportedElementExists_appends (importDefinition : ImportDefinition)
    (allExports : List String) :
    ∃ log : NamedImportElement × Nat → List Diagnostic,
      (∀ usedElement before, checkImportedElementExists importDefinition allExports usedElement
        before = some (.ok (), before ++ log usedElement)) ∧
      (∀ usedElement, ∀ diagnostic ∈ log usedElement,
        diagnostic.severity = .error ∧ diagnostic.info.index = some usedElement.2) ∧
      ∀ usedElement, log usedElement ≠ [] ↔ usedElement.1.element ∉ allExports := by
  refine ⟨fun usedElement => if usedElement.1.element ∈ allExports then [] else [⟨.error,
    s!"Could not find published element {usedElement.1.element} in file \"{importDefinition.path}\". Check if the element exists and has been correctly published.",
    { node := .importDefinition importDefinition, property := some "usedElements"
      index := some usedElement.2 }⟩], ?_, ?_, ?_⟩
  · rintro ⟨namedImport, i⟩ before
    by_cases hmem : namedImport.element ∈ allExports
    · simp [checkImportedElementExists, hmem]
    · simp [checkImportedElementExists, hmem, accept]
  · rintro ⟨namedImport, i⟩ diagnostic hdiagnostic
    by_cases hmem : namedImport.element ∈ allExports
    · simp [hmem] at hdiagnostic
    · simp only [hmem, if_false, List.mem_singleton] at hdiagnostic
      simp [hdiagnostic]
  · rintro ⟨namedImport, i⟩
    by_cases hmem : namedImport.element ∈ allExports
    · simp [hmem]
    · simp [hmem]

theorem checkImportedElementsExist_spec (importDefinition : ImportDefinition)
    {model : JayveeModel} (hmodel : importResolver.resolveImport importDefinition = some model) :
    ∃ reported, checkImportedElementsExist importResolver importDefinition [] =
        some (.ok (), reported) ∧
      ∀ index namedImport, importDefinition.usedElements[index]? = some namedImport →
        (IsReportedMissing reported index ↔ namedImport.element ∉ getExportNames model) := by
  obtain ⟨log, hrun, hlog, hne⟩ :=
    checkImportedElementExists_appends importDefinition (getExportNames model)
  refine ⟨importDefinition.usedElements.zipIdx.flatMap log, ?_, ?_⟩
  · unfold checkImportedElementsExist
    rw [hmodel]
    exact Exec.forEach_of_append hrun []
  · intro index namedImport hget
    have hmem : (namedImport, index) ∈ importDefinition.usedElements.zipIdx :=
      List.mem_zipIdx_iff_getElem?.mpr hget
    rw [← hne (namedImport, index)]
    constructor
    · rintro ⟨diagnostic, hdiagnostic, _, hindex⟩ hnil
      obtain ⟨⟨other, i⟩, hother, hin⟩ := List.mem_flatMap.mp hdiagnostic
      have hi : i = index := Option.some.inj ((hlog _ _ hin).2.symm.trans hindex)
      subst hi
      cases (List.mem_zipIdx_iff_getElem?.mp hother).symm.trans hget
      simp [hnil] at hin
    · intro hnonempty
      obtain ⟨diagnostic, hin⟩ := List.exists_mem_of_ne_nil _ hnonempty
      exact ⟨diagnostic, List.mem_flatMap.mpr ⟨_, hmem, hin⟩, hlog _ _ hin⟩

theorem getNamedElements_eq_flatMap (published : List ExportDetails)
    (namedImports : List NamedImportElement) :
    JayveeImportResolver.getNamedElements published namedImports =
      namedImports.flatMap fun namedImport =>
        JayveeImportResolver.getNamedElements published [namedImport] := by
  induction namedImports with
  | nil => rfl
  | cons namedImport namedImports ih =>
      rw [List.flatMap_cons, ← ih]
      exact List.filterMap_append (l := [namedImport])

theorem getNamedElements_eq_nil_iff {published : List ExportDetails}
    {namedImport : NamedImportElement} :
    JayveeImportResolver.getNamedElements published [namedImport] = [] ↔
      ∀ details ∈ published, details.exportName ≠ namedImport.element := by
  cases hfound : published.find? fun x => x.exportName == namedImport.element with
  | none =>
      have hnone := List.find?_eq_none.mp hfound
      simpa [JayveeImportResolver.getNamedElements, hfound] using hnone
  | some details =>
      have hname := List.find?_some hfound
      simp only [JayveeImportResolver.getNamedElements, hfound, List.filterMap_cons]
      simp only [beq_iff_eq] at hname
      simpa using ⟨details, List.mem_of_find?_eq_some hfound, hname⟩

/-- For a name, the check and the resolution agree if and only if the name is available, or no
publish statement has it. -/
theorem importValidation_agrees_iff (importResolver : JayveeImportResolver)
    (importDefinition : ImportDefinition) (model : JayveeModel)
    (hmodel : importResolver.resolveImport importDefinition = some model)
    (hnamed : importDefinition.useAll = false) :
    ∃ reported published,
      checkImportedElementsExist importResolver importDefinition [] = some (.ok (), reported) ∧
      importResolver.getExportedElements model = .ok published ∧
      importResolver.getImportedElementsFromDocument importDefinition model = .ok
        (importDefinition.usedElements.flatMap fun namedImport =>
          JayveeImportResolver.getNamedElements published [namedImport]) ∧
      ∀ index namedImport, importDefinition.usedElements[index]? = some namedImport →
        ((IsReportedMissing reported index ↔
            JayveeImportResolver.getNamedElements published [namedImport] = []) ↔
          (IsAvailable importResolver model namedImport.element ∨
            ∀ exportDefinition ∈ model.exports,
              ¬ NamesExport exportDefinition namedImport.element)) := by
  obtain ⟨reported, hcheck, hreported⟩ := checkImportedElementsExist_spec importDefinition hmodel
  obtain ⟨published, hpublished, hmem⟩ := JayveeImportResolver.getExportedElements_spec
    (JayveeImportResolver.getContainerModel_of_resolveImport hmodel)
  refine ⟨reported, published, hcheck, hpublished, ?_, ?_⟩
  · unfold JayveeImportResolver.getImportedElementsFromDocument
    rw [hpublished, hnamed]
    exact congrArg Except.ok (getNamedElements_eq_flatMap _ _)
  · intro index namedImport hget
    have havailable : JayveeImportResolver.getNamedElements published [namedImport] = [] ↔
        ¬ IsAvailable importResolver model namedImport.element := by
      rw [getNamedElements_eq_nil_iff, isAvailable_iff]
      simp [hmem]
    have hnames : namedImport.element ∈ getExportNames model ↔
        IsAvailable importResolver model namedImport.element ∨
          ∃ exportDefinition ∈ model.exports,
            NamesExport exportDefinition namedImport.element := by
      rw [mem_getExportNames]
      constructor
      · rintro (hdefinition | hexport)
        · exact .inl (.inl hdefinition)
        · exact .inr hexport
      · rintro ((hdefinition | ⟨x, hx, hname, _⟩) | hexport)
        · exact .inl hdefinition
        · exact .inr ⟨x, hx, hname⟩
        · exact .inr hexport
    rw [hreported index namedImport hget, havailable, hnames]
    by_cases h : IsAvailable importResolver model namedImport.element
    · simp [h]
    · simp [h]

/-! ## Accepted import definitions -/

/-- The check only adds to what is reported, and adds no error exactly if the condition holds. -/
def Checks (check : Validation Unit) (condition : Prop) : Prop :=
  ∀ before, ∃ reported, check before = some (.ok (), before ++ reported) ∧
    ((∀ diagnostic ∈ reported, diagnostic.severity ≠ .error) ↔ condition)

namespace Checks

variable {check next : Validation Unit} {condition nextCondition : Prop}

theorem bind (hcheck : Checks check condition) (hnext : Checks next nextCondition) :
    Checks (check >>= fun _ => next) (condition ∧ nextCondition) := by
  intro before
  obtain ⟨reported, hrun, hnone⟩ := hcheck before
  obtain ⟨reported', hrun', hnone'⟩ := hnext (before ++ reported)
  refine ⟨reported ++ reported', ?_, ?_⟩
  · rw [Exec.bind_of_ok hrun, hrun', List.append_assoc]
  · rw [List.forall_mem_append, hnone, hnone']

theorem congr (hcheck : Checks check condition) (h : condition ↔ nextCondition) :
    Checks check nextCondition := by
  intro before
  obtain ⟨reported, hrun, hnone⟩ := hcheck before
  exact ⟨reported, hrun, hnone.trans h⟩

/-- A check that reports one error if the condition fails. -/
theorem ite [Decidable condition] (message : String) (info : DiagnosticInfo) :
    Checks (if condition then return else accept .error message info) condition := by
  intro before
  by_cases h : condition
  · exact ⟨[], by simp [h], by simp [h]⟩
  · exact ⟨[_], by simp only [h, if_false]; rfl, by simp [h]⟩

/-- A check of each element of a list. -/
theorem forEach {α : Type} {xs : List α} {body : α → Validation Unit} {holds : α → Prop}
    (h : ∀ x, Checks (body x) (holds x)) :
    Checks (Exec.forEach xs body) (∀ x ∈ xs, holds x) := by
  induction xs with
  | nil => exact fun before => ⟨[], by simp, by simp⟩
  | cons x xs ih =>
      rw [Exec.forEach_cons]
      exact ((h x).bind ih).congr (by simp)

theorem forEach_zipIdx {α : Type} {xs : List α} {body : α × Nat → Validation Unit}
    {holds : α → Prop} (h : ∀ x, Checks (body x) (holds x.1)) :
    Checks (Exec.forEach xs.zipIdx body) (∀ x ∈ xs, holds x) :=
  (forEach h).congr (by simp [List.forall_mem_iff_getElem])

end Checks

section Accepted

variable {importDefinition : ImportDefinition} {model : JayveeModel}

theorem checkImportedElementsExist_checks
    (hmodel : importResolver.resolveImport importDefinition = some model) :
    Checks (checkImportedElementsExist importResolver importDefinition)
      (∀ usedElement ∈ importDefinition.usedElements,
        usedElement.element ∈ getExportNames model) := by
  unfold checkImportedElementsExist
  rw [hmodel]
  apply Checks.forEach_zipIdx
  intro usedElement
  exact (Checks.ite _ _).congr List.contains_iff_mem

theorem checkElementImportedOnlyOnce_checks :
    Checks (checkElementImportedOnlyOnce importDefinition)
      (importDefinition.usedElements.map NamedImportElement.element).Nodup := by
  have hcount : ∀ name, (importDefinition.usedElements.map NamedImportElement.element).count name =
      (importDefinition.usedElements.filter fun x => x.element == name).length := by
    intro name
    rw [List.count_eq_countP, List.countP_map, List.countP_eq_length_filter]
    rfl
  have hnodup : (∀ usedElement ∈ importDefinition.usedElements, ¬ (importDefinition.usedElements.filter
      fun x => x.element == usedElement.element).length > 1) ↔
        (importDefinition.usedElements.map NamedImportElement.element).Nodup := by
    simp only [List.nodup_iff_count_le_one, ← hcount, not_lt]
    constructor
    · intro h name
      by_cases hname : name ∈ importDefinition.usedElements.map NamedImportElement.element
      · obtain ⟨usedElement, hused, rfl⟩ := List.mem_map.mp hname
        exact h usedElement hused
      · rw [List.count_eq_zero_of_not_mem hname]
        exact Nat.zero_le 1
    · exact fun h usedElement _ => h usedElement.element
  refine Checks.congr (Checks.forEach_zipIdx ?_) hnodup
  rintro ⟨usedElement, i⟩
  dsimp only
  rw [← ite_not]
  exact Checks.ite _ _

theorem checkFileImportedOnlyOnce_checks
    (hmodel : getContainerModel importResolver.documents importDefinition.document = some model) :
    Checks (checkFileImportedOnlyOnce importResolver importDefinition)
      ((model.imports.filter fun x => importResolver.resolveImportUri x ==
        importResolver.resolveImportUri importDefinition).length ≤ 1) := by
  unfold checkFileImportedOnlyOnce
  rw [hmodel]
  exact Checks.ite _ _

variable (importResolver importDefinition) in
/-- The path leads to a document without running into a cycle or into a document twice, the imported
names are different and can be found, and no other import of the document has the path. -/
def IsAcceptable : Prop :=
  (∃ model, importResolver.resolveImport importDefinition = some model ∧
    ∀ usedElement ∈ importDefinition.usedElements,
      usedElement.element ∈ getExportNames model) ∧
  (¬ importResolver.LeadsToCycle importDefinition ∧
    ¬ importResolver.LeadsToSharedDocument importDefinition) ∧
  (importDefinition.usedElements.map NamedImportElement.element).Nodup ∧
  ∀ model, getContainerModel importResolver.documents importDefinition.document = some model →
    (model.imports.filter fun x => importResolver.resolveImportUri x ==
      importResolver.resolveImportUri importDefinition).length ≤ 1

/-- An import definition is validated to the end, and without an error if and only if it is
acceptable. -/
theorem validateImportDefinition_accepts_iff {fuel : Nat}
    (hfuel : importResolver.documents.length < fuel)
    (hmodel : getContainerModel importResolver.documents importDefinition.document = some model) :
    ∃ reported, validateImportDefinition importResolver fuel importDefinition [] =
        some (.ok (), reported) ∧
      ((∀ diagnostic ∈ reported, diagnostic.severity ≠ .error) ↔
        IsAcceptable importResolver importDefinition) := by
  unfold IsAcceptable
  cases hresolved : importResolver.resolveImport importDefinition with
  | none =>
      obtain ⟨diagnostic, hpath, herror⟩ : ∃ diagnostic,
          checkPathExists importResolver importDefinition [] = some (.ok (), [diagnostic]) ∧
            diagnostic.severity = .error := by
        rw [checkPathExists, hresolved]
        exact ⟨_, rfl, rfl⟩
      refine ⟨[diagnostic], ?_, by simp [herror]⟩
      have hoccurred : hasErrorOccurred [diagnostic] = some (.ok true, [diagnostic]) := by
        show some (Except.ok ([diagnostic].any fun x => x.severity == .error), [diagnostic]) = _
        simp [herror]
      rw [validateImportDefinition, Exec.bind_of_ok hpath, Exec.bind_of_ok hoccurred]
      rfl
  | some resolvedImport =>
      have hpath : checkPathExists importResolver importDefinition [] = some (.ok (), []) := by
        rw [checkPathExists, hresolved]
        rfl
      have hcyclic : Checks (checkCyclicImportChain importResolver fuel importDefinition)
          (¬ importResolver.LeadsToCycle importDefinition ∧
            ¬ importResolver.LeadsToSharedDocument importDefinition) := by
        intro before
        obtain ⟨reported, hrun, herror⟩ :=
          checkCyclicImportChain_spec importDefinition hfuel before
        exact ⟨reported, hrun, by rw [← not_or, ← herror]; simp⟩
      obtain ⟨reported, hrun, hnone⟩ := (checkImportedElementsExist_checks hresolved).bind
        (hcyclic.bind (checkElementImportedOnlyOnce_checks.bind
          (checkFileImportedOnlyOnce_checks hmodel))) []
      refine ⟨reported, ?_, ?_⟩
      · rw [validateImportDefinition, Exec.bind_of_ok hpath]
        exact hrun
      · rw [hnone]
        simp [hmodel]

end Accepted

/-- `publish valuetype A ...; publish Unknown as B;` where `Unknown` does not resolve. -/
def aliasLibrary : JayveeModel where
  document := "library.jv"
  imports := []
  exports := [⟨"library.jv", none, some "B"⟩]
  exportableElements := [⟨"library.jv", 0, "A", true⟩]
  pipelines := []
  exportsComeFirst := false
  exports_document := by simp

def aliasResolver : JayveeImportResolver where
  documents := [.parsed aliasLibrary]
  resolvePath := fun _ path => path
  containers := by
    intro uri model hmodel exportDefinition hexport element helement
    obtain ⟨document, hdocument, hparsed⟩ := Option.bind_eq_some_iff.mp hmodel
    cases List.mem_singleton.mp (List.mem_of_find?_eq_some hdocument)
    cases hparsed
    cases List.mem_singleton.mp hexport
    cases helement

/-- `use { A, B } from 'library.jv';` -/
def aliasImport : ImportDefinition :=
  ⟨"main.jv", false, [⟨"A", none⟩, ⟨"B", none⟩], "library.jv"⟩

theorem importValidation_agrees_aliasImport :
    aliasResolver.resolveImport aliasImport = some aliasLibrary ∧ aliasImport.useAll = false ∧
    ∃ reported published,
      checkImportedElementsExist aliasResolver aliasImport [] = some (.ok (), reported) ∧
      aliasResolver.getExportedElements aliasLibrary = .ok published ∧
      aliasResolver.getImportedElementsFromDocument aliasImport aliasLibrary = .ok
        (aliasImport.usedElements.flatMap fun namedImport =>
          JayveeImportResolver.getNamedElements published [namedImport]) ∧
      ∀ index namedImport, aliasImport.usedElements[index]? = some namedImport →
        ((IsReportedMissing reported index ↔
            JayveeImportResolver.getNamedElements published [namedImport] = []) ↔
          (IsAvailable aliasResolver aliasLibrary namedImport.element ∨
            ∀ exportDefinition ∈ aliasLibrary.exports,
              ¬ NamesExport exportDefinition namedImport.element)) :=
  ⟨rfl, rfl, importValidation_agrees_iff aliasResolver aliasImport aliasLibrary rfl rfl⟩

/-- Nothing is found for `B`, and nothing is reported. -/
theorem not_importValidation_agrees_aliasImport :
    ¬ ∀ (importResolver : JayveeImportResolver) (importDefinition : ImportDefinition)
      (model : JayveeModel), importResolver.resolveImport importDefinition = some model →
      importDefinition.useAll = false → ∃ reported published,
      checkImportedElementsExist importResolver importDefinition [] = some (.ok (), reported) ∧
      importResolver.getExportedElements model = .ok published ∧
      ∀ index namedImport, importDefinition.usedElements[index]? = some namedImport →
        (IsReportedMissing reported index ↔
          JayveeImportResolver.getNamedElements published [namedImport] = []) := by
  intro h
  obtain ⟨reported, published, hcheck, hpublished, hagrees⟩ :=
    h aliasResolver aliasImport aliasLibrary rfl rfl
  have hnothing : checkImportedElementsExist aliasResolver aliasImport [] = some (.ok (), []) := rfl
  have hfound : aliasResolver.getExportedElements aliasLibrary =
      .ok [⟨⟨"library.jv", 0, "A", true⟩, "A"⟩] := rfl
  cases hnothing.symm.trans hcheck
  cases hfound.symm.trans hpublished
  obtain ⟨_, hmem, _⟩ := (hagrees 1 ⟨"B", none⟩ rfl).mpr rfl
  cases hmem

end Jayvee
