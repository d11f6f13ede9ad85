import Jayvee.Foundation.Digraph
import Jayvee.Foundation.Loop
import Jayvee.Model.DynamicFileImport
import Jayvee.Verification.Imports.CyclicImports

/-! # The files that are loaded for imports -/

namespace Jayvee

open Foundation Relation

/-! ## Files and their imports -/

/-- The URIs of loaded documents. -/
def loadedUris (documents : List LangiumDocument) : Set String :=
  {uri | uri ∈ documents.map LangiumDocument.uri}

namespace JayveeServices

variable (services : JayveeServices)

/-- What a file would be loaded as. `none` if it is not loaded at all. -/
def documentAt (uri : String) : Option LangiumDocument :=
  if services.hasAllowedFileExtension uri then
    (services.loadFileFromUri uri).map fun file => services.fromString file uri
  else
    none

def IsLoadable (uri : String) : Prop :=
  ∃ document, services.documentAt uri = some document

def importURIs (document : LangiumDocument) : List String :=
  match document.parseResult with
  | none => []
  | some model => model.imports.filterMap services.resolveImportUri

/-- The file imports another one that can be loaded. -/
def Imports (uri imported : String) : Prop :=
  ∃ document, services.documentAt uri = some document ∧
    imported ∈ services.importURIs document ∧ services.IsLoadable imported

/-- A file imports another one that is not loaded yet. -/
abbrev NewImport (documents : List LangiumDocument) : String → String → Prop :=
  Avoiding services.Imports (loadedUris documents)

/-- A document comes after everything it imports. -/
def ImportsComeFirst (documents added : List LangiumDocument) : Prop :=
  ∀ before document after, added = before ++ document :: after →
    ∀ uri ∈ services.importURIs document, services.IsLoadable uri →
      uri ∈ loadedUris (documents ++ before)

end JayveeServices

section Uris

variable {documents added : List LangiumDocument} {uri : String}

@[simp] theorem mem_loadedUris :
    uri ∈ loadedUris documents ↔ ∃ document ∈ documents, document.uri = uri :=
  List.mem_map

theorem mem_loadedUris_append :
    uri ∈ loadedUris (documents ++ added) ↔
      uri ∈ loadedUris documents ∨ uri ∈ loadedUris added := by
  simp only [loadedUris, Set.mem_ofPred_eq, List.map_append, List.mem_append]

theorem loadedUris_subset_append : loadedUris documents ⊆ loadedUris (documents ++ added) :=
  fun _ h => mem_loadedUris_append.mpr (.inl h)

theorem getDocument_isSome_iff : (getDocument documents uri).isSome ↔ uri ∈ loadedUris documents := by
  simp [getDocument, List.find?_isSome]

end Uris

variable {services : JayveeServices} {documents added : List LangiumDocument}
  {document : LangiumDocument} {uri : String} {fuel : Nat}

theorem documentAt_uri (h : services.documentAt uri = some document) : document.uri = uri := by
  unfold JayveeServices.documentAt at h
  split at h
  · obtain ⟨file, -, rfl⟩ := Option.map_eq_some_iff.mp h
    exact services.fromString_uri file uri
  · cases h

/-! ## One step of the loader -/

/-- The imports of a document that are not loaded yet. -/
def unresolvedImports (services : JayveeServices) (documents : List LangiumDocument)
    (document : LangiumDocument) : List String :=
  (services.importURIs document).filter fun uri => (getDocument documents uri).isNone

/-- Loads one file after the other. -/
def loadAll (services : JayveeServices) (fuel : Nat) (uris : List String)
    (documents : List LangiumDocument) : Option (List LangiumDocument) :=
  uris.foldlM (fun documents uri => services.loadDocumentFromFs fuel uri documents) documents

theorem mem_unresolvedImports :
    uri ∈ unresolvedImports services documents document ↔
      uri ∈ services.importURIs document ∧ uri ∉ loadedUris documents := by
  rw [unresolvedImports, List.mem_filter, ← getDocument_isSome_iff]
  simp

theorem loadDocumentFromFs_of_none (h : services.documentAt uri = none) :
    services.loadDocumentFromFs (fuel + 1) uri documents = some documents := by
  unfold JayveeServices.documentAt at h
  cases hallowed : services.hasAllowedFileExtension uri with
  | false => simp [JayveeServices.loadDocumentFromFs, hallowed]
  | true =>
      rw [hallowed, if_pos rfl, Option.map_eq_none_iff] at h
      simp [JayveeServices.loadDocumentFromFs, hallowed, h]

/-- Building one document loads its imports. -/
theorem onIndexedContent_cons {model : JayveeModel} (docs : List LangiumDocument)
    (h : document.parseResult = some model) :
    services.addDynamicFileImport fuel (document :: docs) documents =
      (loadAll services fuel (unresolvedImports services documents document) documents).bind
        (services.addDynamicFileImport fuel docs) := by
  simp only [JayveeServices.addDynamicFileImport, JayveeServices.onIndexedContent, h]
  rw [unresolvedImports, JayveeServices.importURIs, h]
  rfl

theorem onIndexedContent_of_none (docs : List LangiumDocument)
    (h : document.parseResult = none) :
    services.addDynamicFileImport fuel (document :: docs) documents = some documents := by
  simp only [JayveeServices.addDynamicFileImport, JayveeServices.onIndexedContent, h]

theorem onIndexedContent_singleton :
    services.addDynamicFileImport fuel [document] documents =
      loadAll services fuel (unresolvedImports services documents document) documents := by
  cases h : document.parseResult with
  | none =>
      rw [onIndexedContent_of_none [] h, unresolvedImports, JayveeServices.importURIs, h]
      rfl
  | some model =>
      rw [onIndexedContent_cons [] h]
      exact Option.bind_fun_some _

/-- A file is loaded after its unresolved imports, unless it is loaded by then. -/
theorem loadDocumentFromFs_of_some {document : LangiumDocument}
    (h : services.documentAt uri = some document) :
    services.loadDocumentFromFs (fuel + 1) uri documents =
      (loadAll services fuel (unresolvedImports services documents document) documents).map
        fun documents => if JayveeServices.hasDocument documents uri then documents
          else documents ++ [document] := by
  have huri := documentAt_uri h
  unfold JayveeServices.documentAt at h
  cases hallowed : services.hasAllowedFileExtension uri with
  | false => simp [hallowed] at h
  | true =>
      rw [hallowed, if_pos rfl] at h
      obtain ⟨file, hfile, rfl⟩ := Option.map_eq_some_iff.mp h
      rw [← onIndexedContent_singleton, Option.map_eq_bind]
      simp only [JayveeServices.loadDocumentFromFs, hallowed, hfile, huri]
      rfl

/-! ## More fuel, and more documents -/

theorem loadDocumentFromFs_mono {fuel fuel' : Nat} {uri : String}
    {documents documents' : List LangiumDocument} (hle : fuel ≤ fuel')
    (h : services.loadDocumentFromFs fuel uri documents = some documents') :
    services.loadDocumentFromFs fuel' uri documents = some documents' := by
  induction fuel generalizing fuel' uri documents documents' with
  | zero => cases h
  | succ fuel ih =>
      obtain ⟨fuel', rfl⟩ : ∃ k, fuel' = k + 1 := ⟨fuel' - 1, by omega⟩
      cases hdocument : services.documentAt uri with
      | none =>
          rw [loadDocumentFromFs_of_none hdocument] at h ⊢
          exact h
      | some document =>
          rw [loadDocumentFromFs_of_some hdocument, Option.map_eq_some_iff] at h ⊢
          obtain ⟨loaded, hloaded, heq⟩ := h
          exact ⟨loaded, foldlM_mono (fun uri _ _ => ih (by omega)) hloaded, heq⟩

theorem loadDocumentFromFs_grows {fuel : Nat} {uri : String}
    {documents documents' : List LangiumDocument}
    (h : services.loadDocumentFromFs fuel uri documents = some documents') :
    loadedUris documents ⊆ loadedUris documents' := by
  induction fuel generalizing uri documents documents' with
  | zero => cases h
  | succ fuel ih =>
      cases hdocument : services.documentAt uri with
      | none =>
          rw [loadDocumentFromFs_of_none hdocument] at h
          cases h
          exact subset_rfl
      | some document =>
          rw [loadDocumentFromFs_of_some hdocument, Option.map_eq_some_iff] at h
          obtain ⟨loaded, hloaded, heq⟩ := h
          have hgrows : loadedUris documents ⊆ loadedUris loaded :=
            foldlM_invariant (I := fun s => loadedUris documents ⊆ loadedUris s)
              (fun uri _ s t hs ht => hs.trans (ih ht)) subset_rfl hloaded
          split at heq
          · cases heq
            exact hgrows
          · cases heq
            exact hgrows.trans loadedUris_subset_append

theorem exists_loadAll {uris : List String} (base : Set String)
    (hends : ∀ uri ∈ uris, ∀ documents, base ⊆ loadedUris documents →
      ∃ fuel documents', services.loadDocumentFromFs fuel uri documents = some documents')
    (hbase : base ⊆ loadedUris documents) :
    ∃ fuel documents', loadAll services fuel uris documents = some documents' :=
  exists_foldlM (I := fun documents => base ⊆ loadedUris documents)
    (fun _ _ _ _ _ hle h => loadDocumentFromFs_mono hle h)
    (fun _ _ _ _ hs h => hs.trans (loadDocumentFromFs_grows h)) hends hbase

/-- A file from which no endless chain of imports starts is loaded, whatever else has been
loaded in the meantime. -/
theorem exists_loadDocumentFromFs {base : List LangiumDocument}
    (h : Acc (Function.swap (services.NewImport base)) uri) :
    ∀ documents, loadedUris base ⊆ loadedUris documents →
      ∃ fuel documents', services.loadDocumentFromFs fuel uri documents = some documents' := by
  induction h with
  | intro uri _ ih =>
      intro documents hbase
      cases hdocument : services.documentAt uri with
      | none => exact ⟨1, documents, loadDocumentFromFs_of_none hdocument⟩
      | some document =>
          obtain ⟨fuel, loaded, hloaded⟩ :
              ∃ fuel loaded, loadAll services fuel
                (unresolvedImports services documents document) documents = some loaded := by
            refine exists_loadAll (loadedUris base) ?_ hbase
            intro imported himported documents' hbase'
            obtain ⟨hmem, hnew⟩ := mem_unresolvedImports.mp himported
            cases hloadable : services.documentAt imported with
            | none => exact ⟨1, documents', loadDocumentFromFs_of_none hloadable⟩
            | some _ =>
                refine ih imported ⟨⟨document, hdocument, hmem, _, hloadable⟩, ?_⟩ documents' hbase'
                exact fun hmem => hnew (hbase hmem)
          refine ⟨fuel + 1, ?_⟩
          rw [loadDocumentFromFs_of_some hdocument, hloaded]
          exact ⟨_, rfl⟩

/-! ## What a run loads -/

/-- The documents that are added for imports, in the order in which they are loaded. -/
structure Loads (services : JayveeServices) (documents : List LangiumDocument)
    (imports : List String) (added : List LangiumDocument) : Prop where
  imports_loaded : ∀ uri ∈ imports, services.IsLoadable uri →
    uri ∈ loadedUris (documents ++ added)
  read : ∀ document ∈ added, services.documentAt document.uri = some document
  nodup : (added.map LangiumDocument.uri).Nodup
  new : ∀ document ∈ added, document.uri ∉ loadedUris documents
  importsComeFirst : services.ImportsComeFirst documents added
  reached : ∀ document ∈ added, ∃ uri ∈ imports, services.IsLoadable uri ∧
    uri ∉ loadedUris documents ∧ ReflTransGen (services.NewImport documents) uri document.uri
  ends : ∀ document ∈ added, Acc (Function.swap (services.NewImport documents)) document.uri

namespace Loads

variable {imports imports' : List String} {added' : List LangiumDocument}

theorem nil (h : ∀ uri ∈ imports, services.IsLoadable uri → uri ∈ loadedUris documents) :
    Loads services documents imports [] where
  imports_loaded := by simpa using h
  read := by simp
  nodup := by simp
  new := by simp
  importsComeFirst := by simp [JayveeServices.ImportsComeFirst]
  reached := by simp
  ends := by simp

/-- Nothing is added if every file that can be loaded is loaded already. -/
theorem eq_nil (h : Loads services documents imports added)
    (hloaded : ∀ uri ∈ imports, services.IsLoadable uri → uri ∈ loadedUris documents) :
    added = [] := by
  rw [List.eq_nil_iff_forall_not_mem]
  intro document hdocument
  obtain ⟨uri, huri, hloadable, hnew, -⟩ := h.reached document hdocument
  exact hnew (hloaded uri huri hloadable)

/-- Imports that are loaded already can be left out. -/
theorem of_unresolved (h : Loads services documents (unresolvedImports services documents document)
    added) : Loads services documents (services.importURIs document) added where
  imports_loaded := by
    intro uri huri hloadable
    by_cases hloaded : uri ∈ loadedUris documents
    · exact loadedUris_subset_append hloaded
    · exact h.imports_loaded uri (mem_unresolvedImports.mpr ⟨huri, hloaded⟩) hloadable
  read := h.read
  nodup := h.nodup
  new := h.new
  importsComeFirst := h.importsComeFirst
  reached := by
    intro document hdocument
    obtain ⟨uri, huri, hreached⟩ := h.reached document hdocument
    exact ⟨uri, (mem_unresolvedImports.mp huri).1, hreached⟩
  ends := h.ends

theorem importsComeFirst_append (h : services.ImportsComeFirst documents added)
    (h' : services.ImportsComeFirst (documents ++ added) added') :
    services.ImportsComeFirst documents (added ++ added') := by
  intro before document after hsplit uri huri hloadable
  rcases List.append_eq_append_iff.mp hsplit with ⟨rest, rfl, hrest⟩ | ⟨rest, rfl, hrest⟩
  · have := h' rest document after hrest uri huri hloadable
    rwa [List.append_assoc] at this
  · cases rest with
    | nil =>
        have := h' [] document after hrest.symm uri huri hloadable
        simpa using this
    | cons first rest =>
        cases hrest
        exact h before document rest rfl uri huri hloadable

/-- One run after the other. -/
theorem append (h : Loads services documents imports added)
    (h' : Loads services (documents ++ added) imports' added') :
    Loads services documents (imports ++ imports') (added ++ added') where
  imports_loaded := by
    intro uri huri hloadable
    rw [← List.append_assoc]
    rcases List.mem_append.mp huri with huri | huri
    · exact loadedUris_subset_append (h.imports_loaded uri huri hloadable)
    · exact h'.imports_loaded uri huri hloadable
  read := by
    intro document hdocument
    rcases List.mem_append.mp hdocument with hdocument | hdocument
    · exact h.read document hdocument
    · exact h'.read document hdocument
  nodup := by
    rw [List.map_append, List.nodup_append]
    refine ⟨h.nodup, h'.nodup, ?_⟩
    intro uri huri uri' huri' heq
    obtain ⟨document, hdocument, rfl⟩ := List.mem_map.mp huri'
    exact h'.new document hdocument (mem_loadedUris_append.mpr (.inr (heq ▸ huri)))
  new := by
    intro document hdocument
    rcases List.mem_append.mp hdocument with hdocument | hdocument
    · exact h.new document hdocument
    · exact fun hmem => h'.new document hdocument (loadedUris_subset_append hmem)
  importsComeFirst := importsComeFirst_append h.importsComeFirst h'.importsComeFirst
  reached := by
    intro document hdocument
    rcases List.mem_append.mp hdocument with hdocument | hdocument
    · obtain ⟨uri, huri, hreached⟩ := h.reached document hdocument
      exact ⟨uri, List.mem_append_left _ huri, hreached⟩
    · obtain ⟨uri, huri, hloadable, hnew, hreached⟩ := h'.reached document hdocument
      exact ⟨uri, List.mem_append_right _ huri, hloadable,
        fun hmem => hnew (loadedUris_subset_append hmem),
        reflTransGen_avoiding_anti loadedUris_subset_append hreached⟩
  ends := by
    intro document hdocument
    rcases List.mem_append.mp hdocument with hdocument | hdocument
    · exact h.ends document hdocument
    · refine acc_avoiding_of_larger ?_ (h'.ends document hdocument)
      intro uri huri hnew
      obtain ⟨document, hdocument, rfl⟩ :=
        mem_loadedUris.mp ((mem_loadedUris_append.mp huri).resolve_left hnew)
      exact h.ends document hdocument

/-- A file whose imports have been loaded does not import itself along the way. -/
theorem ends_of_imports (h : Loads services documents (services.importURIs document) added)
    (hdocument : services.documentAt uri = some document) :
    Acc (Function.swap (services.NewImport documents)) uri := by
  refine Acc.intro uri fun imported himported => ?_
  obtain ⟨⟨other, hother, hmem, hloadable⟩, hnew⟩ := himported
  cases hdocument.symm.trans hother
  obtain ⟨loaded, hloaded, rfl⟩ := mem_loadedUris.mp
    ((mem_loadedUris_append.mp (h.imports_loaded imported hmem hloadable)).resolve_left hnew)
  exact h.ends loaded hloaded

theorem not_mem_of_imports (h : Loads services documents (services.importURIs document) added)
    (hdocument : services.documentAt uri = some document) : uri ∉ loadedUris added := by
  intro hmem
  obtain ⟨loaded, hloaded, rfl⟩ := mem_loadedUris.mp hmem
  obtain ⟨imported, himported, hloadable, hnew, hreached⟩ := h.reached loaded hloaded
  refine not_transGen_of_acc (h.ends_of_imports hdocument) (TransGen.head' ?_ hreached)
  exact ⟨⟨document, hdocument, himported, hloadable⟩, hnew⟩

/-- The document of a file, after its imports. -/
theorem concat (h : Loads services documents (services.importURIs document) added)
    (hdocument : services.documentAt uri = some document) (hnew : uri ∉ loadedUris documents) :
    Loads services documents [uri] (added ++ [document]) := by
  have huri := documentAt_uri hdocument
  subst huri
  have hend := h.ends_of_imports hdocument
  have hother := h.not_mem_of_imports hdocument
  refine ⟨?_, ?_, ?_, ?_, ?_, ?_, ?_⟩
  · intro uri hmem _
    cases List.mem_singleton.mp hmem
    exact mem_loadedUris.mpr ⟨document, by simp, rfl⟩
  · intro other hmem
    rcases List.mem_append.mp hmem with hmem | hmem
    · exact h.read other hmem
    · cases List.mem_singleton.mp hmem
      exact hdocument
  · rw [List.map_append, List.nodup_append]
    refine ⟨h.nodup, by simp, ?_⟩
    intro uri hmem uri' hmem' heq
    cases List.mem_singleton.mp hmem'
    exact hother (heq ▸ hmem)
  · intro other hmem
    rcases List.mem_append.mp hmem with hmem | hmem
    · exact h.new other hmem
    · cases List.mem_singleton.mp hmem
      exact hnew
  · refine importsComeFirst_append h.importsComeFirst ?_
    intro before other after hsplit uri himport hloadable
    obtain ⟨rfl, rfl⟩ : before = [] ∧ other = document := by
      cases before with
      | nil => exact ⟨rfl, (List.cons.inj hsplit).1.symm⟩
      | cons _ _ => simp at hsplit
    simpa using h.imports_loaded uri himport hloadable
  · intro other hmem
    refine ⟨document.uri, List.mem_singleton_self _, ⟨document, hdocument⟩, hnew, ?_⟩
    rcases List.mem_append.mp hmem with hmem | hmem
    · obtain ⟨imported, himported, hloadable, hnew', hreached⟩ := h.reached other hmem
      exact hreached.head ⟨⟨document, hdocument, himported, hloadable⟩, hnew'⟩
    · cases List.mem_singleton.mp hmem
      exact .refl
  · intro other hmem
    rcases List.mem_append.mp hmem with hmem | hmem
    · exact h.ends other hmem
    · cases List.mem_singleton.mp hmem
      exact hend

end Loads

/-! ## Runs of the loader -/

/-- If the file is loaded already, so is everything it imports. -/
def IsSettled (services : JayveeServices) (documents : List LangiumDocument) (uri : String) :
    Prop :=
  uri ∈ loadedUris documents → ∀ document, services.documentAt uri = some document →
    ∀ imported ∈ services.importURIs document, services.IsLoadable imported →
      imported ∈ loadedUris documents

/-- What was loaded in the meantime was loaded with its imports. -/
theorem Loads.isSettled {imports : List String} (h : Loads services documents imports added)
    (hnew : uri ∉ loadedUris documents) : IsSettled services (documents ++ added) uri := by
  intro huri document hdocument imported himported hloadable
  obtain ⟨loaded, hloaded, rfl⟩ := mem_loadedUris.mp
    ((mem_loadedUris_append.mp huri).resolve_left hnew)
  cases hdocument.symm.trans (h.read loaded hloaded)
  obtain ⟨before, after, rfl⟩ := List.mem_iff_append.mp hloaded
  have := h.importsComeFirst before document after rfl imported himported hloadable
  rw [← List.append_assoc]
  exact loadedUris_subset_append this

/-- Loading a file adds documents to the given ones. -/
def LoadsFile (services : JayveeServices) (fuel : Nat) : Prop :=
  ∀ uri documents documents', IsSettled services documents uri →
    services.loadDocumentFromFs fuel uri documents = some documents' →
    ∃ added, documents' = documents ++ added ∧ Loads services documents [uri] added

/-- The imports are computed before the first of them is loaded, so that one of them may be
loaded again. -/
theorem loads_of_loadAll (hfile : LoadsFile services fuel) {uris imports : List String}
    {documents' : List LangiumDocument} (hnew : ∀ uri ∈ uris, uri ∉ loadedUris documents)
    (hloads : Loads services documents imports added)
    (h : loadAll services fuel uris (documents ++ added) = some documents') :
    ∃ added', documents' = documents ++ added' ∧
      Loads services documents (imports ++ uris) added' := by
  induction uris generalizing imports added with
  | nil =>
      cases h
      exact ⟨added, rfl, by simpa using hloads⟩
  | cons uri uris ih =>
      obtain ⟨loaded, hloaded, hrest⟩ := foldlM_cons_eq_some.mp h
      obtain ⟨added', rfl, hadded'⟩ := hfile uri (documents ++ added) loaded
        (hloads.isSettled (hnew uri List.mem_cons_self)) hloaded
      rw [List.append_assoc] at hrest
      obtain ⟨added'', rfl, hadded''⟩ :=
        ih (fun uri huri => hnew uri (List.mem_cons_of_mem _ huri)) (hloads.append hadded') hrest
      exact ⟨added'', rfl, by simpa using hadded''⟩

theorem loads_imports (hfile : LoadsFile services fuel) {documents' : List LangiumDocument}
    (h : loadAll services fuel (unresolvedImports services documents document) documents =
      some documents') :
    ∃ added, documents' = documents ++ added ∧
      Loads services documents (services.importURIs document) added := by
  have hnone : Loads services documents [] [] := Loads.nil (by simp)
  obtain ⟨added, rfl, hloads⟩ := loads_of_loadAll hfile
    (fun uri huri => (mem_unresolvedImports.mp huri).2) hnone (by rwa [List.append_nil])
  exact ⟨added, rfl, Loads.of_unresolved (by simpa using hloads)⟩

/-- The induction is on the number of nested builds. -/
theorem loadsFile (services : JayveeServices) (fuel : Nat) : LoadsFile services fuel := by
  induction fuel with
  | zero =>
      intro uri documents documents' _ h
      cases h
  | succ fuel ih =>
      intro uri documents documents' hsettled h
      cases hdocument : services.documentAt uri with
      | none =>
          rw [loadDocumentFromFs_of_none hdocument] at h
          cases h
          refine ⟨[], by simp, Loads.nil fun other hother hloadable => ?_⟩
          cases List.mem_singleton.mp hother
          obtain ⟨document, hdocument'⟩ := hloadable
          cases hdocument.symm.trans hdocument'
      | some document =>
          rw [loadDocumentFromFs_of_some hdocument, Option.map_eq_some_iff] at h
          obtain ⟨loaded, hloaded, heq⟩ := h
          obtain ⟨added, rfl, hloads⟩ := loads_imports ih hloaded
          have hother := hloads.not_mem_of_imports hdocument
          by_cases huri : uri ∈ loadedUris documents
          · -- the file is loaded for a second time
            obtain rfl := hloads.eq_nil (hsettled huri document hdocument)
            refine ⟨[], ?_, Loads.nil fun other hmem _ => ?_⟩
            · rw [JayveeServices.hasDocument, List.append_nil,
                if_pos (getDocument_isSome_iff.mpr huri)] at heq
              rw [← heq, List.append_nil]
            · cases List.mem_singleton.mp hmem
              exact huri
          · refine ⟨added ++ [document], ?_, hloads.concat hdocument huri⟩
            have hmem : uri ∉ loadedUris (documents ++ added) := by
              rw [mem_loadedUris_append, not_or]
              exact ⟨huri, hother⟩
            rw [JayveeServices.hasDocument, if_neg (by rwa [getDocument_isSome_iff])] at heq
            rw [← heq, List.append_assoc]

/-- The listener stops at the first document that is no Jayvee model. -/
def importedBy (services : JayveeServices) (docs : List LangiumDocument) : List String :=
  (docs.takeWhile fun doc => doc.parseResult.isSome).flatMap services.importURIs

theorem loads_of_addDynamicFileImport {docs documents' : List LangiumDocument}
    (h : services.addDynamicFileImport fuel docs documents = some documents') :
    ∃ added, documents' = documents ++ added ∧
      Loads services documents (importedBy services docs) added := by
  induction docs generalizing documents with
  | nil =>
      cases h
      exact ⟨[], by simp, Loads.nil (by simp [importedBy])⟩
  | cons doc docs ih =>
      cases hmodel : doc.parseResult with
      | none =>
          rw [onIndexedContent_of_none docs hmodel] at h
          cases h
          exact ⟨[], by simp, Loads.nil (by simp [importedBy, hmodel])⟩
      | some model =>
          rw [onIndexedContent_cons docs hmodel, Option.bind_eq_some_iff] at h
          obtain ⟨loaded, hloaded, hrest⟩ := h
          obtain ⟨added, rfl, hloads⟩ := loads_imports (loadsFile services fuel) hloaded
          obtain ⟨added', rfl, hloads'⟩ := ih hrest
          refine ⟨added ++ added', by rw [List.append_assoc], ?_⟩
          simpa [importedBy, hmodel] using hloads.append hloads'

theorem addDynamicFileImport_mono {fuel fuel' : Nat} {docs documents' : List LangiumDocument}
    (hle : fuel ≤ fuel')
    (h : services.addDynamicFileImport fuel docs documents = some documents') :
    services.addDynamicFileImport fuel' docs documents = some documents' := by
  induction docs generalizing documents with
  | nil => exact h
  | cons doc docs ih =>
      cases hmodel : doc.parseResult with
      | none =>
          rw [onIndexedContent_of_none docs hmodel] at h ⊢
          exact h
      | some model =>
          rw [onIndexedContent_cons docs hmodel, Option.bind_eq_some_iff] at h ⊢
          obtain ⟨loaded, hloaded, hrest⟩ := h
          exact ⟨loaded, foldlM_mono (fun _ _ _ => loadDocumentFromFs_mono hle) hloaded, ih hrest⟩

theorem exists_addDynamicFileImport {docs base : List LangiumDocument}
    (hends : ∀ uri ∈ importedBy services docs, services.IsLoadable uri → uri ∉ loadedUris base →
      Acc (Function.swap (services.NewImport base)) uri)
    (hbase : loadedUris base ⊆ loadedUris documents) :
    ∃ fuel documents', services.addDynamicFileImport fuel docs documents = some documents' := by
  induction docs generalizing documents with
  | nil => exact ⟨0, documents, rfl⟩
  | cons doc docs ih =>
      cases hmodel : doc.parseResult with
      | none => exact ⟨0, documents, onIndexedContent_of_none docs hmodel⟩
      | some model =>
          have himported : importedBy services (doc :: docs) =
              services.importURIs doc ++ importedBy services docs := by
            simp [importedBy, hmodel]
          rw [himported] at hends
          obtain ⟨fuel, loaded, hloaded⟩ : ∃ fuel loaded, loadAll services fuel
              (unresolvedImports services documents doc) documents = some loaded := by
            refine exists_loadAll (loadedUris base) ?_ hbase
            intro uri huri documents' hbase'
            obtain ⟨hmem, hnew⟩ := mem_unresolvedImports.mp huri
            cases hdocument : services.documentAt uri with
            | none => exact ⟨1, documents', loadDocumentFromFs_of_none hdocument⟩
            | some document =>
                exact exists_loadDocumentFromFs (hends uri (List.mem_append_left _ hmem)
                  ⟨document, hdocument⟩ fun hmem => hnew (hbase hmem)) documents' hbase'
          have hgrows : loadedUris base ⊆ loadedUris loaded :=
            foldlM_invariant (I := fun s => loadedUris base ⊆ loadedUris s)
              (fun _ _ _ _ hs ht => hs.trans (loadDocumentFromFs_grows ht)) hbase hloaded
          obtain ⟨fuel', documents', hrest⟩ :=
            ih (fun uri huri => hends uri (List.mem_append_right _ huri)) hgrows
          refine ⟨max fuel fuel', documents', ?_⟩
          rw [onIndexedContent_cons docs hmodel, Option.bind_eq_some_iff]
          refine ⟨loaded, ?_, addDynamicFileImport_mono (Nat.le_max_right fuel fuel') hrest⟩
          exact foldlM_mono
            (fun _ _ _ => loadDocumentFromFs_mono (Nat.le_max_left fuel fuel')) hloaded

/-- From the file, imports lead on forever without meeting a document that is loaded. -/
def StartsEndlessChain (services : JayveeServices) (documents : List LangiumDocument)
    (uri : String) : Prop :=
  ∃ chain : Nat → String, chain 0 = uri ∧
    ∀ n, services.Imports (chain n) (chain (n + 1)) ∧ chain (n + 1) ∉ loadedUris documents

theorem acc_iff_not_startsEndlessChain :
    Acc (Function.swap (services.NewImport documents)) uri ↔
      ¬ StartsEndlessChain services documents uri := by
  rw [← not_iff_not, not_not, not_acc_iff_exists_descending_chain]
  rfl

/-- A file has to be loaded if an import of the documents leads to it along files that are not
loaded yet. -/
def IsImportedBy (services : JayveeServices) (docs documents : List LangiumDocument)
    (uri : String) : Prop :=
  ∃ imported ∈ importedBy services docs, services.IsLoadable imported ∧
    imported ∉ loadedUris documents ∧ ReflTransGen (services.NewImport documents) imported uri

theorem Loads.mem_iff {docs : List LangiumDocument}
    (h : Loads services documents (importedBy services docs) added) :
    uri ∈ loadedUris added ↔ IsImportedBy services docs documents uri := by
  constructor
  · intro huri
    obtain ⟨document, hdocument, rfl⟩ := mem_loadedUris.mp huri
    exact h.reached document hdocument
  · rintro ⟨imported, himported, hloadable, hnew, hreached⟩
    induction hreached with
    | refl =>
        exact (mem_loadedUris_append.mp (h.imports_loaded imported himported hloadable)).resolve_left
          hnew
    | tail _ hstep ih =>
        obtain ⟨⟨document, hdocument, hmem, hloadable⟩, hnew'⟩ := hstep
        obtain ⟨loaded, hloaded, rfl⟩ := mem_loadedUris.mp ih
        cases hdocument.symm.trans (h.read loaded hloaded)
        obtain ⟨before, after, rfl⟩ := List.mem_iff_append.mp hloaded
        have hbefore := (mem_loadedUris_append.mp
          (h.importsComeFirst before document after rfl _ hmem hloadable)).resolve_left hnew'
        exact mem_loadedUris_append.mpr (.inl hbefore)

/-- Loading the imports of documents ends exactly if none of them starts an endless chain of
imports between files which are not loaded yet. Then every file that has to be loaded is added
once, as it is read, and after everything it imports. -/
theorem addDynamicFileImport_loads (services : JayveeServices)
    (docs documents : List LangiumDocument) :
    ((∃ fuel documents',
        services.addDynamicFileImport fuel docs documents = some documents') ↔
      ∀ uri ∈ importedBy services docs, services.IsLoadable uri → uri ∉ loadedUris documents →
        ¬ StartsEndlessChain services documents uri) ∧
    ∀ fuel documents', services.addDynamicFileImport fuel docs documents = some documents' →
      ∃ added, documents' = documents ++ added ∧
        (∀ uri, uri ∈ added.map LangiumDocument.uri ↔
          IsImportedBy services docs documents uri) ∧
        (added.map LangiumDocument.uri).Nodup ∧
        (∀ document ∈ added, services.documentAt document.uri = some document) ∧
        services.ImportsComeFirst documents added := by
  refine ⟨⟨?_, ?_⟩, ?_⟩
  · rintro ⟨fuel, documents', h⟩ uri huri hloadable hnew
    obtain ⟨added, rfl, hloads⟩ := loads_of_addDynamicFileImport h
    obtain ⟨document, hdocument, rfl⟩ := mem_loadedUris.mp
      ((mem_loadedUris_append.mp (hloads.imports_loaded uri huri hloadable)).resolve_left hnew)
    exact acc_iff_not_startsEndlessChain.mp (hloads.ends document hdocument)
  · intro h
    refine exists_addDynamicFileImport ?_ (Set.Subset.refl (loadedUris documents))
    intro uri huri hloadable hnew
    exact acc_iff_not_startsEndlessChain.mpr (h uri huri hloadable hnew)
  · intro fuel documents' h
    obtain ⟨added, rfl, hloads⟩ := loads_of_addDynamicFileImport h
    exact ⟨added, rfl, fun uri => hloads.mem_iff, hloads.nodup, hloads.read,
      hloads.importsComeFirst⟩

/-! ## A shared import -/

/-- The files `b` and `c` import `d`. The files `d` and `e` import each other. -/
def sharedFiles : List (String × String) :=
  [("b.jv", "d.jv"), ("c.jv", "d.jv"), ("d.jv", "e.jv"), ("e.jv", "d.jv")]

/-- The text of a file is the path that it imports. -/
def sharedServices : JayveeServices where
  fileExtensions := [".jv"]
  fsPath uri := uri
  readFile uri := sharedFiles.lookup uri
  fromString file uri := importingDocument uri [file]
  resolvePath _ path := path
  fromString_uri _ _ := rfl

/-- The file `e` is loaded already. -/
def sharedDocuments : List LangiumDocument :=
  [importingDocument "a.jv" ["b.jv", "c.jv"], importingDocument "e.jv" ["d.jv"]]

theorem sharedServices_imports {uri imported : String} (h : sharedServices.Imports uri imported) :
    (uri, imported) ∈ sharedFiles := by
  obtain ⟨document, hdocument, himported, _⟩ := h
  unfold JayveeServices.documentAt at hdocument
  split at hdocument
  · obtain ⟨file, hfile, rfl⟩ := Option.map_eq_some_iff.mp hdocument
    have hpath : file ≠ "" ∧ file = imported := by
      simpa [sharedServices, JayveeServices.importURIs, importingDocument, LangiumDocument.parsed,
        JayveeServices.resolveImportUri] using (List.mem_filterMap.mp himported)
    obtain ⟨before, after, hsplit, _⟩ := List.lookup_eq_some_iff.mp hfile
    rw [← hpath.2, hsplit]
    exact List.mem_append_right _ List.mem_cons_self
  · cases hdocument

/-- From `b` and `c` on, only `d` is new. -/
theorem sharedServices_not_startsEndlessChain (uri : String) :
    ¬ StartsEndlessChain sharedServices sharedDocuments uri := by
  rintro ⟨chain, _, hchain⟩
  have hloaded : ∀ n, chain (n + 1) ≠ "e.jv" := by
    intro n he
    exact (hchain n).2 (mem_loadedUris.mpr
      ⟨importingDocument "e.jv" ["d.jv"], by simp [sharedDocuments], he.symm⟩)
  have hd : chain 1 = "d.jv" := by
    have hfirst := sharedServices_imports (hchain 0).1
    simp only [sharedFiles, List.mem_cons, Prod.mk.injEq, List.not_mem_nil, or_false] at hfirst
    have hne := hloaded 0
    rcases hfirst with ⟨_, h⟩ | ⟨_, h⟩ | ⟨_, h⟩ | ⟨_, h⟩
    · exact h
    · exact h
    · exact (hne h).elim
    · exact h
  have hsecond := sharedServices_imports (hchain 1).1
  rw [hd] at hsecond
  simp only [sharedFiles, List.mem_cons, Prod.mk.injEq, List.not_mem_nil, or_false,
    String.reduceEq, false_and, true_and, false_or] at hsecond
  exact hloaded 1 hsecond

theorem addDynamicFileImport_loads_shared :
    (∃ fuel documents', sharedServices.addDynamicFileImport fuel
      [importingDocument "a.jv" ["b.jv", "c.jv"]] sharedDocuments = some documents') ∧
    ∃ added, sharedServices.addDynamicFileImport 3 [importingDocument "a.jv" ["b.jv", "c.jv"]]
        sharedDocuments = some (sharedDocuments ++ added) ∧
      added.map LangiumDocument.uri = ["d.jv", "b.jv", "c.jv"] ∧
      (∀ uri, uri ∈ ["d.jv", "b.jv", "c.jv"] ↔ IsImportedBy sharedServices
        [importingDocument "a.jv" ["b.jv", "c.jv"]] sharedDocuments uri) ∧
      sharedServices.ImportsComeFirst sharedDocuments added := by
  obtain ⟨hends, hloads⟩ := addDynamicFileImport_loads sharedServices
    [importingDocument "a.jv" ["b.jv", "c.jv"]] sharedDocuments
  refine ⟨hends.mpr fun uri _ _ _ => sharedServices_not_startsEndlessChain uri, ?_⟩
  have huris : (sharedServices.addDynamicFileImport 3
      [importingDocument "a.jv" ["b.jv", "c.jv"]] sharedDocuments).map
      (List.map LangiumDocument.uri) = some ["a.jv", "e.jv", "d.jv", "b.jv", "c.jv"] := by
    decide +kernel
  obtain ⟨documents', hrun, hmap⟩ := Option.map_eq_some_iff.mp huris
  obtain ⟨added, rfl, hadded, _, _, hfirst⟩ := hloads 3 documents' hrun
  have heq : added.map LangiumDocument.uri = ["d.jv", "b.jv", "c.jv"] := by
    simpa [sharedDocuments, importingDocument, LangiumDocument.parsed] using hmap
  exact ⟨added, hrun, heq, fun uri => by rw [← heq, hadded], hfirst⟩

end Jayvee
