import Jayvee.Verification.Imports.ImportedElements
import Jayvee.Verification.Pipeline.Validation

/-! # Exports without ambiguity -/

namespace Jayvee

open Foundation

variable {importResolver : JayveeImportResolver} {model : JayveeModel}

/-! ## The check of one publish statement -/

/-- The validation ends without throwing. -/
def NeverThrows (validation : Validation Unit) : Prop :=
  ∀ before, ∃ after, validation before = some (.ok (), after)

/-- The validation ends and reports no error. -/
def ValidatesWithoutError (validation : Validation Unit) : Prop :=
  ∃ diagnostics, validation [] = some (.ok (), diagnostics) ∧
    ∀ diagnostic ∈ diagnostics, diagnostic.severity ≠ .error

theorem checkIsAlreadyPublished_returns (exportDefinition : ExportDefinition)
    (before : List Diagnostic) :
    ∃ reported, checkIsAlreadyPublished exportDefinition before =
      some (.ok (), before ++ reported) := by
  unfold checkIsAlreadyPublished
  cases exportDefinition.element with
  | none => exact ⟨[], by simp⟩
  | some originalDefinition =>
      by_cases hpublished : originalDefinition.isPublished
      · exact ⟨_, by simp only [hpublished, if_true]; rfl⟩
      · exact ⟨[], by simp [hpublished]⟩

section Alias

variable {published : List ExportDetails} {exportDefinition : ExportDefinition}
  {exportAlias : String} (hmodel : getContainerModel importResolver.documents model.document =
    some model) (hpublished : importResolver.getExportedElements model = .ok published)
  (hexport : exportDefinition ∈ model.exports)
  (halias : exportDefinition.alias = some exportAlias)
include hmodel hpublished hexport halias

/-- The alias of a publish statement is looked up among all exports of its document. -/
theorem checkUniqueAlias_eq (before : List Diagnostic) :
    checkUniqueAlias importResolver exportDefinition before =
      match published.filter fun e => e.exportName == exportAlias with
      | [] => some (.error (.assertionError
          "Could not find the export definition itself in exports"), before)
      | [_] => some (.ok (), before)
      | _ => some (.ok (), before ++ [⟨.error,
          s!"This alias is ambiguous. There is another element published element with the same name \"{exportAlias}\".",
          { node := .exportDefinition exportDefinition, property := some "alias" }⟩]) := by
  unfold checkUniqueAlias
  rw [halias]
  dsimp only
  rw [model.exports_document _ hexport, hmodel]
  dsimp only
  rw [hpublished, Exec.bind_of_ok (Exec.ofExcept_apply _ _)]
  cases hsame : published.filter fun e => e.exportName == exportAlias with
  | nil => simp [Exec.bind_apply]
  | cons first others =>
      cases others with
      | nil => simp
      | cons second others =>
          simp [accept]

/-- Without an error, the alias has one entry only. -/
theorem eq_of_validatesWithoutError
    (h : ValidatesWithoutError (validateExportDefinition importResolver exportDefinition))
    {details details' : ExportDetails} (hdetails : details ∈ published)
    (hdetails' : details' ∈ published) (hname : details.exportName = exportAlias)
    (hname' : details'.exportName = exportAlias) : details = details' := by
  obtain ⟨diagnostics, hrun, hnone⟩ := h
  obtain ⟨_, middle, _, hrun⟩ := Exec.bind_eq_ok_iff.mp hrun
  have hcheck := checkUniqueAlias_eq hmodel hpublished hexport halias middle
  rw [hrun] at hcheck
  have hmem : details ∈ published.filter fun e => e.exportName == exportAlias := by
    simp [hdetails, hname]
  have hmem' : details' ∈ published.filter fun e => e.exportName == exportAlias := by
    simp [hdetails', hname']
  cases hsame : published.filter fun e => e.exportName == exportAlias with
  | nil => simp [hsame] at hmem
  | cons first others =>
      cases others with
      | nil =>
          rw [hsame] at hmem hmem'
          rw [List.mem_singleton.mp hmem, List.mem_singleton.mp hmem']
      | cons second others =>
          rw [hsame] at hcheck
          cases hcheck
          exact (hnone _ (List.mem_append_right _ List.mem_cons_self) rfl).elim

end Alias

/-- A publish statement is validated without a throw if and only if its alias is available. -/
theorem validateExportDefinition_neverThrows_iff
    (hmodel : getContainerModel importResolver.documents model.document = some model)
    {exportDefinition : ExportDefinition} (hexport : exportDefinition ∈ model.exports) :
    NeverThrows (validateExportDefinition importResolver exportDefinition) ↔
      ∀ exportAlias, exportDefinition.alias = some exportAlias →
        IsAvailable importResolver model exportAlias := by
  obtain ⟨published, hpublished, hmem⟩ :=
    JayveeImportResolver.getExportedElements_spec hmodel
  unfold NeverThrows validateExportDefinition
  cases halias : exportDefinition.alias with
  | none =>
      have hnone : checkUniqueAlias importResolver exportDefinition = pure () := by
        rw [checkUniqueAlias, halias]
      constructor
      · rintro _ _ ⟨⟩
      · intro _ before
        obtain ⟨reported, hrun⟩ := checkIsAlreadyPublished_returns exportDefinition before
        exact ⟨_, by rw [Exec.bind_of_ok hrun, hnone]; rfl⟩
  | some exportAlias =>
      have havailable : IsAvailable importResolver model exportAlias ↔
          (published.filter fun e => e.exportName == exportAlias) ≠ [] := by
        rw [isAvailable_iff, Ne, List.filter_eq_nil_iff]
        simp [hmem]
      have hcheck := checkUniqueAlias_eq hmodel hpublished hexport halias
      constructor
      · rintro h _ ⟨⟩
        rw [havailable]
        intro hnil
        obtain ⟨after, hafter⟩ := h []
        obtain ⟨reported, hrun⟩ := checkIsAlreadyPublished_returns exportDefinition []
        rw [Exec.bind_of_ok hrun, hcheck, hnil] at hafter
        cases hafter
      · intro h before
        have hne := havailable.mp (h exportAlias rfl)
        obtain ⟨reported, hrun⟩ := checkIsAlreadyPublished_returns exportDefinition before
        rw [Exec.bind_of_ok hrun, hcheck]
        cases hsame : published.filter fun e => e.exportName == exportAlias with
        | nil => exact (hne hsame).elim
        | cons first others =>
            cases others with
            | nil => exact ⟨_, rfl⟩
            | cons second others => exact ⟨_, rfl⟩

/-! ## The names of the root level -/

/-- What is reported about one name. -/
def uniqueNamesLog (nodes : List (String × AstNode)) (nodeName : String) : List Diagnostic :=
  let nodesWithName := nodes.filter fun node => node.1 == nodeName
  if nodesWithName.length > 1 then
    nodesWithName.map fun node => ⟨.error, s!"The name \"{nodeName}\" needs to be unique.",
      { node := node.2, property := some "name" }⟩
  else
    []

theorem checkUniqueNames_eq (nodes : List (String × AstNode)) (before : List Diagnostic) :
    checkUniqueNames nodes before =
      some (.ok (), before ++ (nodes.map Prod.fst).eraseDups.flatMap (uniqueNamesLog nodes)) := by
  apply Exec.forEach_of_append
  intro nodeName s
  unfold uniqueNamesLog
  by_cases hmany : (nodes.filter fun node => node.1 == nodeName).length > 1
  · simp only [hmany, if_true, List.map_eq_flatMap]
    exact Exec.forEach_of_append (fun _ _ => rfl) s
  · simp only [hmany, if_false, List.append_nil]
    rfl

theorem checkUniqueNames_moves (nodes : List (String × AstNode)) :
    Exec.Moves StillReported (checkUniqueNames nodes) := by
  intro before _ _ hrun
  rw [checkUniqueNames_eq] at hrun
  cases hrun
  exact List.subset_append_left _ _

/-- If names are reported as unique, nodes at different places have different names. -/
theorem checkUniqueNames_nodup {nodes : List (String × AstNode)} {before after : List Diagnostic}
    (hrun : checkUniqueNames nodes before = some (.ok (), after))
    (hnone : ∀ diagnostic ∈ after, diagnostic.severity ≠ .error) :
    (nodes.map Prod.fst).Nodup := by
  rw [checkUniqueNames_eq] at hrun
  cases hrun
  rw [List.nodup_iff_count]
  intro nodeName
  by_contra hmany
  have hlength : (nodes.filter fun node => node.1 == nodeName).length > 1 := by
    rw [List.count_eq_countP, List.countP_map, List.countP_eq_length_filter] at hmany
    exact Nat.lt_of_not_le hmany
  obtain ⟨node, hnode⟩ := List.exists_mem_of_length_pos (Nat.lt_trans Nat.zero_lt_one hlength)
  have hname : node.1 = nodeName := by simpa using (List.mem_filter.mp hnode).2
  apply hnone ⟨.error, s!"The name \"{nodeName}\" needs to be unique.",
    { node := node.2, property := some "name" }⟩ _ rfl
  apply List.mem_append_right
  apply List.mem_flatMap.mpr
  refine ⟨nodeName, ?_, ?_⟩
  · rw [List.mem_eraseDups, ← hname]
    exact List.mem_map_of_mem (List.mem_filter.mp hnode).1
  · rw [uniqueNamesLog, if_pos hlength]
    exact List.mem_map_of_mem hnode

/-- The exportable elements of a validated document have different names. -/
theorem exportableElements_nodup {ast : Ast}
    (h : ValidatesWithoutError (validateJayveeModel importResolver ast model)) :
    (model.exportableElements.map ExportableElement.name).Nodup := by
  obtain ⟨diagnostics, hrun, hnone⟩ := h
  obtain ⟨elements, _, helements, hrun⟩ := Exec.bind_eq_ok_iff.mp hrun
  cases helements' : getRootLevelElements importResolver model with
  | error error =>
      rw [helements'] at helements
      cases helements
  | ok all =>
      rw [helements'] at helements
      cases helements
      obtain ⟨imported, _, hall⟩ := except_bind_eq_ok_iff.mp helements'
      obtain ⟨_, after, hunique, hpipelines⟩ := Exec.bind_eq_ok_iff.mp hrun
      have hkept : StillReported after diagnostics :=
        Exec.Moves.forEach (fun pipeline => checkUniqueNames_moves _) _ _ _ hpipelines
      have hnodup := checkUniqueNames_nodup hunique fun d hd => hnone d (hkept hd)
      cases hall
      simp only [List.map_append, List.map_map] at hnodup
      exact (List.nodup_append.mp (List.nodup_append.mp hnodup).1).2.1

/-! ## Ambiguous names -/

section Ambiguity

variable (importResolver : JayveeImportResolver) (ast : Ast) (model : JayveeModel)

/-- The model and all its publish statements are validated without an error. -/
def ModelValidates : Prop :=
  ValidatesWithoutError (validateJayveeModel importResolver ast model) ∧
  ∀ exportDefinition ∈ model.exports,
    ValidatesWithoutError (validateExportDefinition importResolver exportDefinition)

/-- No two different elements are exported under the same name. -/
def ExportsUnambiguously : Prop :=
  ∀ published, importResolver.getExportedElements model = .ok published →
    ∀ details ∈ published, ∀ details' ∈ published,
      details.exportName = details'.exportName → details.element = details'.element

/-- The element is exported under its own name. -/
def ExportsPlainly (element : ExportableElement) : Prop :=
  importResolver.Exports model ⟨element, element.name⟩ ∧
  ((element ∈ model.exportableElements ∧ element.isPublished) ∨
    ∃ exportDefinition ∈ model.exports, exportDefinition.alias = none ∧
      exportDefinition.element = some element)

/-- An imported element that is published under its own name does not share it with another
element that is. -/
def ReexportsHaveOwnNames : Prop :=
  ∀ element element', ExportsPlainly importResolver model element →
    ExportsPlainly importResolver model element' → element ∉ model.exportableElements →
    element.name = element'.name → element = element'

end Ambiguity

/-- An exported name is the alias of a publish statement, or the name of the element. -/
theorem JayveeImportResolver.Exports.alias_or_plain {details : ExportDetails}
    (h : importResolver.Exports model details) :
    (∃ exportDefinition ∈ model.exports, exportDefinition.alias = some details.exportName) ∨
    (ExportsPlainly importResolver model details.element ∧
      details.exportName = details.element.name) := by
  have hexports := h
  obtain ⟨node, hnode, hpublished, rfl⟩ | ⟨x, hx, element, helement, hexported, rfl⟩ := h
  · exact .inr ⟨⟨hexports, .inl ⟨hnode, hpublished⟩⟩, rfl⟩
  · cases halias : x.alias with
    | none =>
        rw [halias] at hexports
        exact .inr ⟨⟨hexports, .inr ⟨x, hx, halias, helement⟩⟩, rfl⟩
    | some exportAlias => exact .inl ⟨x, hx, halias⟩

/-- Elements of the document itself are told apart by the check of its names. -/
theorem eq_of_plain (hnodup : (model.exportableElements.map ExportableElement.name).Nodup)
    {element element' : ExportableElement} (helement : element ∈ model.exportableElements)
    (helement' : element' ∈ model.exportableElements) (hname : element.name = element'.name) :
    element = element' :=
  List.inj_on_of_nodup_map hnodup helement helement' hname

theorem exportsUnambiguously_iff
    (hmodel : getContainerModel importResolver.documents model.document = some model) {ast : Ast}
    (h : ModelValidates importResolver ast model) :
    ExportsUnambiguously importResolver model ↔ ReexportsHaveOwnNames importResolver model := by
  obtain ⟨published, hpublished, hmem⟩ :=
    JayveeImportResolver.getExportedElements_spec hmodel
  constructor
  · intro hunambiguous element element' hplain hplain' _ hname
    exact hunambiguous published hpublished _ ((hmem _).mpr hplain.1) _ ((hmem _).mpr hplain'.1)
      hname
  · intro hown published' hpublished' details hdetails details' hdetails' hname
    cases hpublished.symm.trans hpublished'
    have hsame : ∀ x ∈ model.exports, x.alias = some details.exportName →
        details.element = details'.element := by
      intro x hx halias
      rw [eq_of_validatesWithoutError hmodel hpublished hx halias (h.2 x hx) hdetails hdetails'
        rfl hname.symm]
    obtain ⟨x, hx, halias⟩ | ⟨hplain, hnamed⟩ := ((hmem details).mp hdetails).alias_or_plain
    · exact hsame x hx halias
    · obtain ⟨x, hx, halias⟩ | ⟨hplain', hnamed'⟩ := ((hmem details').mp hdetails').alias_or_plain
      · exact hsame x hx (hname ▸ halias)
      · have hnames : details.element.name = details'.element.name := by
          rw [← hnamed, hname, hnamed']
        by_cases hlocal : details.element ∈ model.exportableElements
        · by_cases hlocal' : details'.element ∈ model.exportableElements
          · exact eq_of_plain (exportableElements_nodup h.1) hlocal hlocal' hnames
          · exact (hown _ _ hplain' hplain hlocal' hnames.symm).symm
        · exact hown _ _ hplain hplain' hlocal hnames

/-- The publish statements of a document are validated without a throw, and validated documents
export no name twice, if and only if every alias is available and re-exported elements keep
names of their own. -/
theorem exports_unambiguous_iff (importResolver : JayveeImportResolver) (ast : Ast)
    (model : JayveeModel)
    (hmodel : getContainerModel importResolver.documents model.document = some model) :
    (∀ exportDefinition ∈ model.exports,
        NeverThrows (validateExportDefinition importResolver exportDefinition)) ∧
      (ModelValidates importResolver ast model → ExportsUnambiguously importResolver model) ↔
    (∀ exportDefinition ∈ model.exports, ∀ exportAlias,
        exportDefinition.alias = some exportAlias →
        IsAvailable importResolver model exportAlias) ∧
      (ModelValidates importResolver ast model → ReexportsHaveOwnNames importResolver model) := by
  apply and_congr
  · apply forall₂_congr
    intro exportDefinition hexport
    exact validateExportDefinition_neverThrows_iff hmodel hexport
  · apply forall_congr'
    intro h
    exact exportsUnambiguously_iff hmodel h

/-- `valuetype A ...; publish A;` -/
def originModel : JayveeModel where
  document := "origin.jv"
  imports := []
  exports := [⟨"origin.jv", some ⟨"origin.jv", 0, "A", false⟩, none⟩]
  exportableElements := [⟨"origin.jv", 0, "A", false⟩]
  pipelines := []
  exportsComeFirst := false
  exports_document := by simp

/-- `use { A as B } from 'origin.jv'; publish valuetype A ...; publish B;` -/
def reexportModel : JayveeModel where
  document := "main.jv"
  imports := [⟨"main.jv", false, [⟨"A", some "B"⟩], "origin.jv"⟩]
  exports := [⟨"main.jv", some ⟨"origin.jv", 0, "A", false⟩, none⟩]
  exportableElements := [⟨"main.jv", 0, "A", true⟩]
  pipelines := []
  exportsComeFirst := false
  exports_document := by simp

def reexportResolver : JayveeImportResolver where
  documents := [.parsed originModel, .parsed reexportModel]
  resolvePath := fun _ path => path
  containers := by
    intro uri model hmodel exportDefinition hexport element helement
    obtain ⟨document, hdocument, hparsed⟩ := Option.bind_eq_some_iff.mp hmodel
    have hmem := List.mem_of_find?_eq_some hdocument
    obtain rfl | rfl : document = .parsed originModel ∨ document = .parsed reexportModel := by
      simpa using hmem
    · cases hparsed
      cases List.mem_singleton.mp hexport
      cases helement
      exact ⟨originModel, rfl, List.mem_singleton.mpr rfl⟩
    · cases hparsed
      cases List.mem_singleton.mp hexport
      cases helement
      exact ⟨originModel, rfl, List.mem_singleton.mpr rfl⟩

theorem modelValidates_reexportModel : ModelValidates reexportResolver emptyAst reexportModel := by
  refine ⟨⟨[], rfl, by simp⟩, ?_⟩
  intro exportDefinition hexport
  cases List.mem_singleton.mp hexport
  exact ⟨[], rfl, by simp⟩

/-- `use { A } from 'origin.jv'; publish valuetype C ...; valuetype D ...; publish A;
publish D as B;` -/
def aliasedModel : JayveeModel where
  document := "aliased.jv"
  imports := [⟨"aliased.jv", false, [⟨"A", none⟩], "origin.jv"⟩]
  exports := [⟨"aliased.jv", some ⟨"origin.jv", 0, "A", false⟩, none⟩,
    ⟨"aliased.jv", some ⟨"aliased.jv", 1, "D", false⟩, some "B"⟩]
  exportableElements := [⟨"aliased.jv", 0, "C", true⟩, ⟨"aliased.jv", 1, "D", false⟩]
  pipelines := []
  exportsComeFirst := false
  exports_document := by simp

def aliasedResolver : JayveeImportResolver where
  documents := [.parsed originModel, .parsed aliasedModel]
  resolvePath := fun _ path => path
  containers := by
    intro uri model hmodel exportDefinition hexport element helement
    obtain ⟨document, hdocument, hparsed⟩ := Option.bind_eq_some_iff.mp hmodel
    have hmem := List.mem_of_find?_eq_some hdocument
    obtain rfl | rfl : document = .parsed originModel ∨ document = .parsed aliasedModel := by
      simpa using hmem
    · cases hparsed
      cases List.mem_singleton.mp hexport
      cases helement
      exact ⟨originModel, rfl, List.mem_singleton.mpr rfl⟩
    · cases hparsed
      rcases List.mem_pair.mp hexport with rfl | rfl
      · cases helement
        exact ⟨originModel, rfl, List.mem_singleton.mpr rfl⟩
      · cases helement
        exact ⟨aliasedModel, rfl, by simp [aliasedModel]⟩

theorem modelValidates_aliasedModel : ModelValidates aliasedResolver emptyAst aliasedModel := by
  refine ⟨⟨[], rfl, by simp⟩, ?_⟩
  intro exportDefinition hexport
  rcases List.mem_pair.mp hexport with rfl | rfl
  · exact ⟨[], rfl, by simp⟩
  · exact ⟨[], rfl, by simp⟩

theorem isAvailable_aliasedModel : IsAvailable aliasedResolver aliasedModel "B" := by
  have hexport : (⟨"aliased.jv", some ⟨"aliased.jv", 1, "D", false⟩, some "B"⟩ :
      ExportDefinition) ∈ aliasedModel.exports := by
    simp [aliasedModel]
  exact .inr ⟨_, hexport, .inl rfl, _, rfl, .inr ⟨aliasedModel, rfl, _, hexport, rfl⟩⟩

/-- `A` and `C` are exported under their own names. -/
theorem eq_of_exportsPlainly_aliasedModel {element : ExportableElement}
    (h : ExportsPlainly aliasedResolver aliasedModel element) :
    element = ⟨"origin.jv", 0, "A", false⟩ ∨ element = ⟨"aliased.jv", 0, "C", true⟩ := by
  obtain ⟨_, ⟨hlocal, hpublished⟩ | ⟨exportDefinition, hexport, halias, helement⟩⟩ := h
  · rcases List.mem_pair.mp hlocal with rfl | rfl
    · exact .inr rfl
    · cases hpublished
  · rcases List.mem_pair.mp hexport with rfl | rfl
    · cases helement
      exact .inl rfl
    · cases halias

theorem reexportsHaveOwnNames_aliasedModel :
    ReexportsHaveOwnNames aliasedResolver aliasedModel := by
  intro element element' hplain hplain' _ hname
  rcases eq_of_exportsPlainly_aliasedModel hplain with rfl | rfl <;>
    rcases eq_of_exportsPlainly_aliasedModel hplain' with rfl | rfl
  · rfl
  · simp at hname
  · simp at hname
  · rfl

theorem exports_unambiguous_aliasedModel :
    (∀ exportDefinition ∈ aliasedModel.exports,
        NeverThrows (validateExportDefinition aliasedResolver exportDefinition)) ∧
      ExportsUnambiguously aliasedResolver aliasedModel := by
  have havailable : ∀ exportDefinition ∈ aliasedModel.exports, ∀ exportAlias,
      exportDefinition.alias = some exportAlias →
      IsAvailable aliasedResolver aliasedModel exportAlias := by
    intro exportDefinition hexport exportAlias halias
    rcases List.mem_pair.mp hexport with rfl | rfl
    · cases halias
    · cases halias
      exact isAvailable_aliasedModel
  obtain ⟨hthrows, hunambiguous⟩ :=
    (exports_unambiguous_iff aliasedResolver emptyAst aliasedModel rfl).mpr
      ⟨havailable, fun _ => reexportsHaveOwnNames_aliasedModel⟩
  exact ⟨hthrows, hunambiguous modelValidates_aliasedModel⟩

/-- An alias of an unresolved reference makes the validation throw, and re-exported elements get
their original names back. -/
theorem not_exports_unambiguous_reexportModel :
    (¬ ∀ (importResolver : JayveeImportResolver) (model : JayveeModel),
      getContainerModel importResolver.documents model.document = some model →
      ∀ exportDefinition ∈ model.exports,
        NeverThrows (validateExportDefinition importResolver exportDefinition)) ∧
    ¬ ∀ (importResolver : JayveeImportResolver) (ast : Ast) (model : JayveeModel),
      getContainerModel importResolver.documents model.document = some model →
      ModelValidates importResolver ast model → ExportsUnambiguously importResolver model := by
  constructor
  · intro h
    obtain ⟨after, hafter⟩ := h aliasResolver aliasLibrary rfl
      ⟨"library.jv", none, some "B"⟩ (List.mem_singleton.mpr rfl) []
    have hthrows : (validateExportDefinition aliasResolver ⟨"library.jv", none, some "B"⟩ []).map
        (fun out => out.1.isOk) = some false := rfl
    rw [hafter] at hthrows
    cases hthrows
  · intro h
    have hunambiguous := h reexportResolver emptyAst reexportModel rfl modelValidates_reexportModel
    have hsame := hunambiguous _ rfl ⟨⟨"main.jv", 0, "A", true⟩, "A"⟩ (by decide)
      ⟨⟨"origin.jv", 0, "A", false⟩, "A"⟩ (by decide) rfl
    revert hsame
    decide

end Jayvee
