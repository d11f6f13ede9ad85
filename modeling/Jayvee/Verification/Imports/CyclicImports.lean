import Jayvee.Foundation.Walk
import Jayvee.Model.ImportValidation
import Jayvee.Verification.Imports.ExportedElements

/-! # The check for cyclic imports -/

namespace Jayvee

open Foundation

/-! ## The import graph -/

namespace JayveeImportResolver

variable (this : JayveeImportResolver)

/-- The URI of the document that an import statement resolves to. -/
def importedUri (importDefinition : ImportDefinition) : Option String :=
  (this.resolveImport importDefinition).map JayveeModel.document

/-- The documents that the import statements of a document resolve to, one for each of them. -/
def importedUris (uri : String) : List String :=
  match getContainerModel this.documents uri with
  | none => []
  | some model => model.imports.filterMap this.importedUri

/-- The import graph that can be reached from the target of the import contains a cycle. -/
def LeadsToCycle (importDefinition : ImportDefinition) : Prop :=
  ∃ target, this.importedUri importDefinition = some target ∧
    ReachesCycle this.importedUris target

/-- Two import statements that can be reached from the target of the import resolve to the same
document. -/
def LeadsToSharedDocument (importDefinition : ImportDefinition) : Prop :=
  ∃ target, this.importedUri importDefinition = some target ∧
    ReachesJoin this.importedUris target

end JayveeImportResolver

variable {importResolver : JayveeImportResolver}

theorem importedUris_eq {importDefinition : ImportDefinition} {model : JayveeModel}
    (h : importResolver.resolveImport importDefinition = some model) :
    importResolver.importedUris model.document =
      model.imports.filterMap importResolver.importedUri := by
  rw [JayveeImportResolver.importedUris, JayveeImportResolver.getContainerModel_of_resolveImport h]

theorem document_mem_of_resolveImport {importDefinition : ImportDefinition} {model : JayveeModel}
    (h : importResolver.resolveImport importDefinition = some model) :
    model.document ∈ importResolver.documents.map LangiumDocument.uri :=
  getContainerModel_mem (JayveeImportResolver.getContainerModel_of_resolveImport h)

theorem uri_mem_of_edge {uri uri' : String} (h : Edge importResolver.importedUris uri uri') :
    uri ∈ importResolver.documents.map LangiumDocument.uri := by
  unfold Edge JayveeImportResolver.importedUris at h
  cases hmodel : getContainerModel importResolver.documents uri with
  | none => simp [hmodel] at h
  | some model => exact getContainerModel_mem hmodel

/-! ## The walk along the imports -/

section Steps

variable {fuel : Nat} {importDefinition : ImportDefinition} {visited : List String}

theorem analyzeImportChain_of_unresolved
    (h : importResolver.resolveImport importDefinition = none) :
    analyzeImportChain importResolver (fuel + 1) importDefinition visited =
      some (.ok [⟨false, [importDefinition]⟩], visited) := by
  simp [analyzeImportChain, h]

theorem analyzeImportChain_of_visited {model : JayveeModel}
    (h : importResolver.resolveImport importDefinition = some model)
    (hmem : model.document ∈ visited) :
    analyzeImportChain importResolver (fuel + 1) importDefinition visited =
      some (.ok [⟨true, [importDefinition]⟩], visited) := by
  simp only [analyzeImportChain, h]
  rw [Exec.bind_of_ok (Exec.get_apply visited)]
  simp [hmem]

/-- The traces of the imports of one document. -/
def analyzeImports (importResolver : JayveeImportResolver) (fuel : Nat)
    (imports : List ImportDefinition) : Exec (List String) JsError (List ImportChainTrace) := do
  let downwardAnalysisResults ← imports.mapM (analyzeImportChain importResolver fuel)
  return downwardAnalysisResults.flatten

theorem analyzeImportChain_of_new {model : JayveeModel}
    (h : importResolver.resolveImport importDefinition = some model)
    (hmem : model.document ∉ visited) :
    analyzeImportChain importResolver (fuel + 1) importDefinition visited =
      (analyzeImports importResolver fuel model.imports >>= fun traces =>
        pure (traces.map fun r => ⟨r.isCyclic, importDefinition :: r.path⟩))
        (visited ++ [model.document]) := by
  simp only [analyzeImportChain, h, analyzeImports, bind_assoc, pure_bind]
  rw [Exec.bind_of_ok (Exec.get_apply visited)]
  simp only [List.contains_eq_mem, hmem, decide_false, Bool.false_eq_true, if_false]
  rw [Exec.bind_of_ok (Exec.modify_apply _ _)]

end Steps

/-- From `visited`, the analysis returns traces and the documents it has visited in addition,
as a walk that meets a document again exactly if a trace is cyclic. -/
def Analyzes (importResolver : JayveeImportResolver) (imports : List ImportDefinition)
    (visited : List String)
    (out : Option (Except JsError (List ImportChainTrace) × List String)) : Prop :=
  ∃ traces entered repeated, out = some (.ok traces, visited ++ entered) ∧
    Walk importResolver.importedUris (imports.filterMap importResolver.importedUri) visited
      entered repeated ∧
    ((∃ trace ∈ traces, trace.isCyclic) ↔ repeated ≠ [])

theorem importedUri_mem {importDefinition : ImportDefinition} {uri : String}
    (h : importResolver.importedUri importDefinition = some uri) :
    uri ∈ importResolver.documents.map LangiumDocument.uri := by
  obtain ⟨model, hmodel, rfl⟩ := Option.map_eq_some_iff.mp h
  exact document_mem_of_resolveImport hmodel

/-- Only loaded documents are entered. -/
theorem entered_subset {imports : List ImportDefinition} {before entered repeated : List String}
    (h : Walk importResolver.importedUris (imports.filterMap importResolver.importedUri) before
      entered repeated) : entered ⊆ importResolver.documents.map LangiumDocument.uri := by
  intro uri huri
  rcases List.mem_append.mp (h.met.mem_iff.mpr (List.mem_append_left _ huri)) with hstart | hmet
  · obtain ⟨_, _, himport⟩ := List.mem_filterMap.mp hstart
    exact importedUri_mem himport
  · obtain ⟨_, _, hsuccessor⟩ := List.mem_flatMap.mp hmet
    unfold JayveeImportResolver.importedUris at hsuccessor
    split at hsuccessor
    · cases hsuccessor
    · obtain ⟨_, _, himport⟩ := List.mem_filterMap.mp hsuccessor
      exact importedUri_mem himport

/-- One import statement after the other. -/
theorem mapM_analyzes {fuel : Nat}
    (ih : ∀ (importDefinition : ImportDefinition) (visited : List String), visited.Nodup →
      visited ⊆ importResolver.documents.map LangiumDocument.uri →
      importResolver.documents.length < fuel + visited.length →
      Analyzes importResolver [importDefinition] visited
        (analyzeImportChain importResolver fuel importDefinition visited))
    (imports : List ImportDefinition) (visited : List String) (hnodup : visited.Nodup)
    (hvisited : visited ⊆ importResolver.documents.map LangiumDocument.uri)
    (hfuel : importResolver.documents.length < fuel + visited.length) :
    Analyzes importResolver imports visited
      (analyzeImports importResolver fuel imports visited) := by
  induction imports generalizing visited with
  | nil => exact ⟨[], [], [], by rw [List.append_nil]; rfl, .nil hnodup, by simp⟩
  | cons importDefinition imports ihImports =>
      obtain ⟨traces, entered, repeated, hrun, hwalk, hcyclic⟩ :=
        ih importDefinition visited hnodup hvisited hfuel
      have hvisited' := List.append_subset.mpr ⟨hvisited, entered_subset hwalk⟩
      obtain ⟨traces', entered', repeated', hrun', hwalk', hcyclic'⟩ :=
        ihImports (visited ++ entered) hwalk.nodup hvisited'
          (by rw [List.length_append]; omega)
      obtain ⟨lists, _, hlists, hflatten⟩ := Exec.bind_eq_ok_iff.mp hrun'
      cases hflatten
      refine ⟨traces ++ lists.flatten, entered ++ entered', repeated ++ repeated', ?_, ?_, ?_⟩
      · rw [analyzeImports, List.mapM_cons, bind_assoc, Exec.bind_of_ok hrun, bind_assoc,
          Exec.bind_of_ok hlists, ← List.append_assoc]
        rfl
      · have happend := hwalk.append hwalk'
        rwa [← List.filterMap_append] at happend
      · simp only [List.mem_append, or_and_right, exists_or, hcyclic, hcyclic', Ne,
          List.append_eq_nil_iff, not_and_or]

/-- The number of documents that are not visited bounds the depth of the recursion. -/
theorem analyzeImportChain_analyzes (importResolver : JayveeImportResolver) (fuel : Nat) (importDefinition : ImportDefinition)
    (visited : List String) (hnodup : visited.Nodup)
    (hvisited : visited ⊆ importResolver.documents.map LangiumDocument.uri)
    (hfuel : importResolver.documents.length < fuel + visited.length) :
    Analyzes importResolver [importDefinition] visited
      (analyzeImportChain importResolver fuel importDefinition visited) := by
  induction fuel generalizing importDefinition visited with
  | zero =>
      have hle := (List.subperm_of_subset hnodup hvisited).length_le
      rw [List.length_map] at hle
      omega
  | succ fuel ih =>
      cases hmodel : importResolver.resolveImport importDefinition with
      | none =>
          have hnone : importResolver.importedUri importDefinition = none := by
            rw [JayveeImportResolver.importedUri, hmodel, Option.map_none]
          refine ⟨[⟨false, [importDefinition]⟩], [], [], ?_, ?_, by simp⟩
          · rw [List.append_nil]
            exact analyzeImportChain_of_unresolved hmodel
          · rw [List.filterMap_cons_none hnone]
            exact .nil hnodup
      | some model =>
          have hsome : importResolver.importedUri importDefinition = some model.document := by
            rw [JayveeImportResolver.importedUri, hmodel, Option.map_some]
          by_cases hmem : model.document ∈ visited
          · refine ⟨[⟨true, [importDefinition]⟩], [], [model.document], ?_, ?_, by simp⟩
            · rw [List.append_nil]
              exact analyzeImportChain_of_visited hmodel hmem
            · rw [List.filterMap_cons_some hsome]
              exact .again hnodup hmem
          · have hnodup' : (visited ++ [model.document]).Nodup :=
              hnodup.append (List.nodup_singleton _) (by simpa using hmem)
            have hnew : [model.document] ⊆ importResolver.documents.map LangiumDocument.uri := by
              intro uri huri
              cases List.mem_singleton.mp huri
              exact document_mem_of_resolveImport hmodel
            obtain ⟨traces, entered, repeated, hrun, hwalk, hcyclic⟩ :=
              mapM_analyzes ih model.imports _ hnodup' (List.append_subset.mpr ⟨hvisited, hnew⟩)
                (by rw [List.length_append, List.length_singleton]; omega)
            rw [← importedUris_eq hmodel] at hwalk
            refine ⟨traces.map fun r => ⟨r.isCyclic, importDefinition :: r.path⟩,
              model.document :: entered, repeated, ?_, ?_, ?_⟩
            · rw [analyzeImportChain_of_new hmodel hmem, Exec.bind_of_ok hrun]
              simp
            · rw [List.filterMap_cons_some hsome]
              exact .enter hwalk
            · simpa using hcyclic

/-! ## The diagnostics -/

theorem isCyclic_iff_leads {importDefinition : ImportDefinition}
    {entered repeated : List String}
    (h : Walk importResolver.importedUris
      ([importDefinition].filterMap importResolver.importedUri) [] entered repeated) :
    repeated ≠ [] ↔ importResolver.LeadsToCycle importDefinition ∨
      importResolver.LeadsToSharedDocument importDefinition := by
  unfold JayveeImportResolver.LeadsToCycle JayveeImportResolver.LeadsToSharedDocument
  cases htarget : importResolver.importedUri importDefinition with
  | none =>
      rw [List.filterMap_cons_none htarget] at h
      have hrepeated : repeated = [] := by
        apply List.eq_nil_iff_forall_not_mem.mpr
        intro uri huri
        have hentered : uri ∈ entered := by simpa using h.repeated_mem uri huri
        obtain ⟨s, hs, _⟩ := h.reachable uri hentered
        cases hs
      simp [hrepeated]
  | some target =>
      rw [List.filterMap_cons_some htarget] at h
      simpa using h.repeated_ne_nil_iff

/-- The check adds nothing but the error of a cyclic trace. -/
theorem checkCyclicImportChain_spec (importDefinition : ImportDefinition) {fuel : Nat}
    (hfuel : importResolver.documents.length < fuel) (before : List Diagnostic) :
    ∃ reported, checkCyclicImportChain importResolver fuel importDefinition before =
        some (.ok (), before ++ reported) ∧
      ((∃ d ∈ reported, d.severity = .error) ↔
        importResolver.LeadsToCycle importDefinition ∨
        importResolver.LeadsToSharedDocument importDefinition) := by
  obtain ⟨traces, entered, repeated, hrun, hwalk, hcyclic⟩ :=
    analyzeImportChain_analyzes importResolver fuel importDefinition []
      List.nodup_nil (List.nil_subset _) (by simpa using hfuel)
  have hisolated : Exec.isolate [] (analyzeImportChain importResolver fuel importDefinition)
      before = some (.ok traces, before) := by
    rw [Exec.isolate, hrun]
    rfl
  rw [← isCyclic_iff_leads hwalk, ← hcyclic, checkCyclicImportChain, Exec.bind_of_ok hisolated]
  cases hcycles : traces.filter ImportChainTrace.isCyclic with
  | nil =>
      refine ⟨[], by simp, ?_⟩
      have hnone := List.filter_eq_nil_iff.mp hcycles
      simpa using hnone
  | cons cycle cycles =>
      refine ⟨[_], rfl, ?_⟩
      have hcycle : cycle ∈ traces.filter ImportChainTrace.isCyclic := by simp [hcycles]
      obtain ⟨hmem, hcyclic⟩ := List.mem_filter.mp hcycle
      simp only [List.mem_singleton, exists_eq_left, true_iff]
      exact ⟨cycle, hmem, hcyclic⟩

/-- The check always ends. Its result is exact if and only if there is a cycle, or no document
is imported twice. -/
theorem checkCyclicImportChain_exact_iff (importResolver : JayveeImportResolver)
    (importDefinition : ImportDefinition) (fuel : Nat)
    (hfuel : importResolver.documents.length < fuel) :
    ∃ reported, checkCyclicImportChain importResolver fuel importDefinition [] =
        some (.ok (), reported) ∧
      (((∃ d ∈ reported, d.severity = .error) ↔
          importResolver.LeadsToCycle importDefinition) ↔
        importResolver.LeadsToCycle importDefinition ∨
        ¬ importResolver.LeadsToSharedDocument importDefinition) := by
  obtain ⟨reported, hrun, herror⟩ :=
    checkCyclicImportChain_spec importDefinition hfuel []
  refine ⟨reported, hrun, ?_⟩
  rw [herror]
  tauto

/-- A document that imports everything from the given paths. -/
def importingDocument (uri : String) (paths : List String) : LangiumDocument :=
  .parsed
    { document := uri
      imports := paths.map fun path => ⟨uri, true, [], path⟩
      exports := []
      exportableElements := []
      pipelines := []
      exportsComeFirst := false
      exports_document := by simp }

/-- Documents that only import each other, by their URIs. -/
def importingDocuments (documents : List (String × List String)) : JayveeImportResolver where
  documents := documents.map fun document => importingDocument document.1 document.2
  resolvePath := fun _ path => path
  containers := by
    intro uri model hmodel exportDefinition hexport
    obtain ⟨document, hdocument, hparsed⟩ := Option.bind_eq_some_iff.mp hmodel
    obtain ⟨_, _, rfl⟩ := List.mem_map.mp (List.mem_of_find?_eq_some hdocument)
    cases hparsed
    cases hexport

/-- Both `b.jv` and `c.jv` import `d.jv`. -/
def diamondImports : JayveeImportResolver :=
  importingDocuments
    [("a.jv", ["b.jv", "c.jv"]), ("b.jv", ["d.jv"]), ("c.jv", ["d.jv"]), ("d.jv", [])]

def importOfDiamond : ImportDefinition :=
  ⟨"main.jv", true, [], "a.jv"⟩

theorem checkCyclicImportChain_exact_diamond :
    diamondImports.documents.length < 5 ∧ ∃ reported,
      checkCyclicImportChain diamondImports 5 importOfDiamond [] = some (.ok (), reported) ∧
      (((∃ d ∈ reported, d.severity = .error) ↔
          diamondImports.LeadsToCycle importOfDiamond) ↔
        diamondImports.LeadsToCycle importOfDiamond ∨
        ¬ diamondImports.LeadsToSharedDocument importOfDiamond) :=
  ⟨by decide, checkCyclicImportChain_exact_iff diamondImports importOfDiamond 5 (by decide)⟩

theorem diamondImports_acyclic : Acyclic (Edge diamondImports.importedUris) := by
  apply acyclic_of_rank fun uri => if uri = "a.jv" then 0 else if uri = "d.jv" then 2 else 1
  intro a b hab
  have ha : a ∈ ["a.jv", "b.jv", "c.jv", "d.jv"] := uri_mem_of_edge hab
  obtain rfl | rfl | rfl | rfl : a = "a.jv" ∨ a = "b.jv" ∨ a = "c.jv" ∨ a = "d.jv" := by
    simpa using ha
  · have hb : b ∈ ["b.jv", "c.jv"] := hab
    obtain rfl | rfl : b = "b.jv" ∨ b = "c.jv" := by simpa using hb
    · decide
    · decide
  · have hb : b ∈ ["d.jv"] := hab
    cases List.mem_singleton.mp hb
    decide
  · have hb : b ∈ ["d.jv"] := hab
    cases List.mem_singleton.mp hb
    decide
  · cases hab

theorem diamondImports_shared : diamondImports.LeadsToSharedDocument importOfDiamond := by
  refine ⟨"a.jv", rfl, "b.jv", "c.jv", 0, 0, "d.jv", .single ?_, .single ?_, rfl, rfl, by simp⟩
  · show "b.jv" ∈ ["b.jv", "c.jv"]
    simp
  · show "c.jv" ∈ ["b.jv", "c.jv"]
    simp

/-- `d.jv` is reached a second time, which is reported as a cycle. -/
theorem not_checkCyclicImportChain_exact_diamond :
    ¬ ∀ (importResolver : JayveeImportResolver) (importDefinition : ImportDefinition)
      (fuel : Nat), importResolver.documents.length < fuel →
      ∃ reported, checkCyclicImportChain importResolver fuel importDefinition [] =
          some (.ok (), reported) ∧
        ((∃ d ∈ reported, d.severity = .error) ↔
          importResolver.LeadsToCycle importDefinition) := by
  intro h
  obtain ⟨reported, hrun, hexact⟩ := h diamondImports importOfDiamond 5 (by decide)
  have hlength : diamondImports.documents.length < 5 := by decide
  obtain ⟨reported', hrun', hspec⟩ := checkCyclicImportChain_spec importOfDiamond hlength []
  cases hrun.symm.trans hrun'
  obtain ⟨target, _, uri, _, hcycle⟩ := hexact.mp (hspec.mpr (.inr diamondImports_shared))
  exact diamondImports_acyclic uri hcycle

end Jayvee
