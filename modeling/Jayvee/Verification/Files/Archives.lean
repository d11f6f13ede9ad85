import Jayvee.Model.FileExecutors
import Jayvee.Verification.Files.ReadYourWrites
import Jayvee.Verification.Execution.Properties

/-! # The files of an archive -/

namespace Jayvee

open Foundation Namespace ExecutionContext

/-! ## Adding files -/

namespace InMemoryFileSystem

variable {T : Type} {this : InMemoryFileSystem T}

/-- A path below the root that ends with the name of the file. -/
def HasPlace (file : String × FileSystemFile T) : Prop :=
  ∃ parts, processPath file.1 = some parts ∧ 1 < parts.length ∧
    parts.getLast? = some file.2.name

theorem processedCalls_cons_of_some {path : String} {file : FileSystemFile T}
    {parts : List String} (files : List (String × FileSystemFile T))
    (h : processPath path = some parts) :
    processedCalls ((path, file) :: files) = (parts, file) :: processedCalls files := by
  simp [processedCalls, h]

/-- A file that has a place can be stored in a file system without files. -/
theorem stores_construct_iff {path : String} {file : FileSystemFile T} {parts : List String}
    (h : processPath path = some parts) :
    Stores FileSystemFile.name (construct : InMemoryFileSystem T).rootDirectory.space parts file ↔
      HasPlace (path, file) := by
  constructor
  · rintro ⟨hlength, hlast, -⟩
    exact ⟨parts, h, hlength, hlast⟩
  · rintro ⟨parts', h', hlength, hlast⟩
    cases h.symm.trans h'
    obtain ⟨rest, rfl⟩ := exists_cons_of_processPath h
    have hrest : rest ≠ [] := by
      intro hnil
      simp [hnil] at hlength
    refine ⟨hlength, hlast, ?_⟩
    simp [FileSystemNode.space, construct, FileSystemNode.entries_directory hrest]

/-- The paths of the files name different places. -/
def DistinctPlaces (files : List (String × FileSystemFile T)) : Prop :=
  (files.map fun file => processPath file.1).Nodup

theorem allStored_construct_iff {files : List (String × FileSystemFile T)}
    (hpaths : ∀ file ∈ files, (processPath file.1).isSome) :
    AllStored FileSystemFile.name (construct : InMemoryFileSystem T).rootDirectory.space
        (processedCalls files) ↔
      (∀ file ∈ files, HasPlace file) ∧ DistinctPlaces files := by
  have hparts : (processedCalls files).map (fun call => some call.1) =
      files.map fun file => processPath file.1 := by
    induction files with
    | nil => rfl
    | cons file files ih =>
        obtain ⟨parts, h⟩ := Option.isSome_iff_exists.mp (hpaths file List.mem_cons_self)
        rw [processedCalls_cons_of_some files h, List.map_cons, List.map_cons, h,
          ih fun other hother => hpaths other (List.mem_cons_of_mem _ hother)]
  rw [allStored_iff, DistinctPlaces, ← hparts]
  refine and_congr ?_ ?_
  · constructor
    · intro hstores file hfile
      obtain ⟨parts, h⟩ := Option.isSome_iff_exists.mp (hpaths file hfile)
      exact (stores_construct_iff h).mp
        (hstores (parts, file.2) (mem_processedCalls_iff.mpr ⟨file.1, hfile, h⟩))
    · intro hplaces call hcall
      obtain ⟨path, hmem, h⟩ := mem_processedCalls_iff.mp hcall
      exact (stores_construct_iff h).mpr (hplaces _ hmem)
  · have hmap : (processedCalls files).map (fun call => some call.1) =
        ((processedCalls files).map Prod.fst).map some := by
      rw [List.map_map]
      rfl
    rw [hmap, List.nodup_map_iff (Option.some_injective _)]

/-- Every file is added, and the other file system is the result. -/
structure PutsAll (this : InMemoryFileSystem T) (files : List (String × FileSystemFile T))
    (other : InMemoryFileSystem T) : Prop where
  paths : ∀ file ∈ files, (processPath file.1).isSome
  stored : AllStored FileSystemFile.name this.rootDirectory.space (processedCalls files)
  result : other = this.putFiles files

theorem putsAll_nil {other : InMemoryFileSystem T} : this.PutsAll [] other ↔ this = other := by
  constructor
  · intro h
    exact h.result.symm
  · rintro rfl
    exact ⟨by simp, trivial, rfl⟩

theorem putsAll_cons {other : InMemoryFileSystem T} (hwf : this.WellFormed)
    (file : String × FileSystemFile T) (files : List (String × FileSystemFile T)) :
    this.PutsAll (file :: files) other ↔ (this.putFile file.1 file.2).1 = true ∧
      (this.putFile file.1 file.2).2.PutsAll files other := by
  cases h : processPath file.1 with
  | none =>
      refine iff_of_false (fun hputs => ?_) (fun hputs => ?_)
      · simpa [h] using hputs.paths file List.mem_cons_self
      · simp [putFile_of_invalid h] at hputs
  | some parts =>
      rw [putFile_eq_true_iff hwf h]
      constructor
      · rintro ⟨hpaths, hstored, hresult⟩
        rw [processedCalls_cons_of_some files h] at hstored
        refine ⟨hstored.1, fun other hother => hpaths other (List.mem_cons_of_mem _ hother), ?_,
          hresult⟩
        rw [putFile_space hwf h]
        exact hstored.2
      · rintro ⟨hstores, hpaths, hstored, hresult⟩
        refine ⟨?_, ?_, hresult⟩
        · rw [List.forall_mem_cons]
          exact ⟨by simp [h], hpaths⟩
        · rw [processedCalls_cons_of_some files h]
          rw [putFile_space hwf h] at hstored
          exact ⟨hstores, hstored⟩

/-- Exactly files with different places can all be added to the empty file system. -/
theorem exists_putsAll_construct_iff {files : List (String × FileSystemFile T)} :
    (∃ other, (construct : InMemoryFileSystem T).PutsAll files other) ↔
      (∀ file ∈ files, HasPlace file) ∧ DistinctPlaces files := by
  constructor
  · rintro ⟨other, hpaths, hstored, -⟩
    exact (allStored_construct_iff hpaths).mp hstored
  · rintro ⟨hplaces, hdistinct⟩
    have hpaths : ∀ file ∈ files, (processPath file.1).isSome := by
      intro file hfile
      obtain ⟨parts, h, -⟩ := hplaces file hfile
      simp [h]
    exact ⟨_, hpaths, (allStored_construct_iff hpaths).mpr ⟨hplaces, hdistinct⟩, rfl⟩

/-- The first of the files at or below the path, if it is at the path. -/
def firstFile (files : List (String × FileSystemFile T)) (path : String) :
    Option (FileSystemFile T) :=
  (processPath path).bind (firstAt (processedCalls files))

theorem getFile_of_putsAll {files : List (String × FileSystemFile T)}
    {other : InMemoryFileSystem T} (h : construct.PutsAll files other) (path : String) :
    other.getFile path = firstFile files path := by
  obtain ⟨-, hstored, rfl⟩ := h
  cases hparts : processPath path with
  | none => rw [getFile_of_invalid hparts, firstFile, hparts, Option.bind_none]
  | some parts =>
      obtain ⟨rest, rfl⟩ := exists_cons_of_processPath hparts
      rw [getFile_of_processPath hparts, putFiles_space wellFormed_construct, firstFile, hparts,
        Option.bind_some]
      cases rest with
      | nil =>
          -- the root is a directory, and no file is put in its place
          have hroot : (construct : InMemoryFileSystem T).rootDirectory.space [""] = [none] := by
            simp [FileSystemNode.space, construct, FileSystemNode.entries_directory_self]
          have hnone : firstAt (processedCalls files) [""] = none := by
            rw [firstAt, Option.bind_eq_none_iff]
            intro call hcall
            have hlength := ((allStored_iff.mp hstored).1 call (List.mem_of_find?_eq_some hcall)).1
            refine if_neg fun heq => ?_
            simp [heq] at hlength
          rw [get_puts_of_ne_nil (by simp [hroot]), hnone, Namespace.get, hroot]
          rfl
      | cons part rest =>
          refine get_puts hstored (List.cons_ne_nil _ _) ?_
          simp [FileSystemNode.space, construct, FileSystemNode.entries_directory]

end InMemoryFileSystem

/-! ## Archives -/

section Archives

open InMemoryFileSystem ArchiveInterpreterExecutor

variable {archives : ArchiveServices}

/-- The absolute path that a file of an archive gets. -/
def archivePath (path : String) : String :=
  String.ofList [PATH_SEPARATOR] ++ path

/-- The files of a zip archive with their paths, unless one of them is damaged. -/
def zipFiles (archives : ArchiveServices) (archivedObjects : List JSZipObject) :
    Except JsError (List (String × BinaryFile)) :=
  (archivedObjects.filter fun archivedObject => !archivedObject.dir).mapM fun archivedObject => do
    let content ← archivedObject.async
    return (archivePath archivedObject.relPath,
      createFileFromArchive archives archivedObject.name content none)

/-- The files of an archive of the given type with their paths. -/
def archiveFiles (archives : ArchiveServices) (archiveType : String) (archiveFile : BinaryFile) :
    Except JsError (List (String × BinaryFile)) := do
  if archiveType = "zip" then
    zipFiles archives (← archives.loadAsync archiveFile.content)
  else if archiveType = "gz" then
    let content ← archives.gunzipSync archiveFile.content
    let file := createFileFromArchive archives archiveFile.name content
      (some (extname archiveFile.name))
    return [(archivePath file.name, file)]
  else
    throw (.error "Archive type is not supported")

theorem addFile_eq_ok_iff {fs fs' : InMemoryFileSystem ArrayBuffer} {path : String}
    {file : BinaryFile} : addFile fs path file = .ok fs' ↔
      (fs.putFile (archivePath path) file).1 = true ∧
        (fs.putFile (archivePath path) file).2 = fs' := by
  have haddFile : addFile fs path file = if (fs.putFile (archivePath path) file).1 = true then
      .ok (fs.putFile (archivePath path) file).2
    else
      .error (.assertionError "The expression evaluated to a falsy value") := rfl
  rw [haddFile]
  by_cases hput : (fs.putFile (archivePath path) file).1 = true
  · rw [if_pos hput, Except.ok.injEq, and_iff_right hput]
  · rw [if_neg hput]
    exact iff_of_false (by simp) fun h => hput h.1

theorem zipFiles_cons_of_dir {archivedObject : JSZipObject} (h : archivedObject.dir = true)
    (archivedObjects : List JSZipObject) :
    zipFiles archives (archivedObject :: archivedObjects) = zipFiles archives archivedObjects := by
  simp [zipFiles, h]

theorem zipFiles_cons_eq_ok_iff {archivedObject : JSZipObject} (h : archivedObject.dir = false)
    (archivedObjects : List JSZipObject) {files : List (String × BinaryFile)} :
    zipFiles archives (archivedObject :: archivedObjects) = .ok files ↔
      ∃ content rest, archivedObject.async = .ok content ∧
        zipFiles archives archivedObjects = .ok rest ∧
        (archivePath archivedObject.relPath,
          createFileFromArchive archives archivedObject.name content none) :: rest = files := by
  have hfilter : (archivedObject :: archivedObjects).filter (fun archivedObject =>
      !archivedObject.dir) = archivedObject :: archivedObjects.filter fun archivedObject =>
        !archivedObject.dir := by simp [h]
  rw [zipFiles, hfilter, List.mapM_cons, except_bind_eq_ok_iff]
  constructor
  · rintro ⟨file, hfile, hfiles⟩
    obtain ⟨content, hcontent, hreturn⟩ := except_bind_eq_ok_iff.mp hfile
    cases hreturn
    obtain ⟨rest, hrest, hreturn⟩ := except_bind_eq_ok_iff.mp hfiles
    cases hreturn
    exact ⟨content, rest, hcontent, hrest, rfl⟩
  · rintro ⟨content, rest, hcontent, hrest, rfl⟩
    exact ⟨_, except_bind_eq_ok_iff.mpr ⟨content, hcontent, rfl⟩,
      except_bind_eq_ok_iff.mpr ⟨rest, hrest, rfl⟩⟩

/-- Loading a zip archive puts its files, one after the other. -/
theorem foldlM_loadZipObject_eq_ok_iff {fs fs' : InMemoryFileSystem ArrayBuffer}
    (hwf : fs.WellFormed) (archivedObjects : List JSZipObject) :
    archivedObjects.foldlM (loadZipObject archives) fs = .ok fs' ↔
      ∃ files, zipFiles archives archivedObjects = .ok files ∧ fs.PutsAll files fs' := by
  induction archivedObjects generalizing fs with
  | nil =>
      constructor
      · intro h
        cases h
        exact ⟨[], rfl, putsAll_nil.mpr rfl⟩
      · rintro ⟨files, hfiles, hputs⟩
        cases hfiles
        rw [putsAll_nil.mp hputs]
        rfl
  | cons archivedObject archivedObjects ih =>
      rw [List.foldlM_cons, except_bind_eq_ok_iff]
      cases hdir : archivedObject.dir with
      | true =>
          rw [zipFiles_cons_of_dir hdir, ← ih hwf]
          simp [loadZipObject, hdir]
      | false =>
          simp only [zipFiles_cons_eq_ok_iff hdir]
          constructor
          · rintro ⟨fs'', hobject, hrest⟩
            rw [loadZipObject, hdir, if_neg Bool.false_ne_true, except_bind_eq_ok_iff] at hobject
            obtain ⟨content, hcontent, hadded⟩ := hobject
            obtain ⟨hput, rfl⟩ := addFile_eq_ok_iff.mp hadded
            obtain ⟨rest, hfiles, hputs⟩ := (ih hwf.putFile).mp hrest
            exact ⟨_, ⟨content, rest, hcontent, hfiles, rfl⟩,
              (putsAll_cons hwf _ _).mpr ⟨hput, hputs⟩⟩
          · rintro ⟨files, ⟨content, rest, hcontent, hfiles, rfl⟩, hputs⟩
            obtain ⟨hput, hrest⟩ := (putsAll_cons hwf _ _).mp hputs
            refine ⟨_, ?_, (ih hwf.putFile).mpr ⟨rest, hfiles, hrest⟩⟩
            rw [loadZipObject, hdir, if_neg Bool.false_ne_true, except_bind_eq_ok_iff]
            exact ⟨content, hcontent, addFile_eq_ok_iff.mpr ⟨hput, rfl⟩⟩

/-- The file system that an archive of the type is loaded as. -/
def loadArchive (archives : ArchiveServices) (archiveType : String) (archiveFile : BinaryFile) :
    Except JsError (InMemoryFileSystem ArrayBuffer) :=
  if archiveType = "zip" then
    loadZipFile archives archiveFile
  else if archiveType = "gz" then
    loadGzFile archives archiveFile
  else
    .error (.error "Archive type is not supported")

theorem loadArchive_eq_ok_iff {archiveType : String} {archiveFile : BinaryFile}
    {fs : InMemoryFileSystem ArrayBuffer} :
    loadArchive archives archiveType archiveFile = .ok fs ↔
      ∃ files, archiveFiles archives archiveType archiveFile = .ok files ∧
        construct.PutsAll files fs := by
  unfold loadArchive archiveFiles
  split
  · rw [loadZipFile, except_bind_eq_ok_iff]
    simp only [foldlM_loadZipObject_eq_ok_iff wellFormed_construct, except_bind_eq_ok_iff]
    constructor
    · rintro ⟨archivedObjects, hload, files, hfiles, hputs⟩
      exact ⟨files, ⟨archivedObjects, hload, hfiles⟩, hputs⟩
    · rintro ⟨files, ⟨archivedObjects, hload, hfiles⟩, hputs⟩
      exact ⟨archivedObjects, hload, files, hfiles, hputs⟩
  · split
    · simp only [loadGzFile, except_bind_eq_ok_iff, addFile_eq_ok_iff]
      constructor
      · rintro ⟨content, hcontent, hput, hresult⟩
        exact ⟨_, ⟨content, hcontent, rfl⟩,
          (putsAll_cons wellFormed_construct _ _).mpr ⟨hput, putsAll_nil.mpr hresult⟩⟩
      · rintro ⟨files, ⟨content, hcontent, hfiles⟩, hputs⟩
        cases hfiles
        obtain ⟨hput, hrest⟩ := (putsAll_cons wellFormed_construct _ _).mp hputs
        exact ⟨content, hcontent, hput, putsAll_nil.mp hrest⟩
    · refine iff_of_false (by simp) ?_
      rintro ⟨files, hfiles, -⟩
      cases hfiles

/-! ## Picking a file of an archive -/

section Executors

variable {δ : Type} {services : ExecutionServices} {pipeline : PipelineDefinition}
  {context : ExecutionContext δ} {archiveType path : String}

theorem archiveInterpreter_doExecute_iff {archiveFile : BinaryFile} {fs : InMemoryFileSystem ArrayBuffer}
    (htype : HasTypedProperty services context Value.stringTypeguard "archiveType" .Text
      archiveType) :
    (∃ after, ArchiveInterpreterExecutor.doExecute services archives pipeline archiveFile context =
        some (.ok (.ok fs), after)) ↔ loadArchive archives archiveType archiveFile = .ok fs := by
  obtain ⟨after, htype⟩ := htype
  rw [ArchiveInterpreterExecutor.doExecute, Exec.bind_of_ok htype,
    Exec.bind_of_ok (show getCurrentNode after = some (.ok after.stack.getLast?, after) from rfl),
    loadArchive]
  split
  · cases loadZipFile archives archiveFile with
    | ok fs' => simp
    | error error => simp [generateErrorObject, errorDetails]
  · dsimp only
    split
    · cases loadGzFile archives archiveFile with
      | ok fs' => simp
      | error error => simp [generateErrorObject, errorDetails]
    · simp [errorDetails]

theorem filePicker_doExecute {fileSystem : InMemoryFileSystem ArrayBuffer}
    (hpath : HasTypedProperty services context Value.stringTypeguard "path" .Text path) :
    (∀ file, (∃ after, FilePickerExecutor.doExecute services pipeline fileSystem context =
        some (.ok (.ok file), after)) ↔ fileSystem.getFile path = some file) ∧
      (fileSystem.getFile path = none → ∃ details after,
        FilePickerExecutor.doExecute services pipeline fileSystem context =
          some (.ok (.error details), after) ∧ details.message = s!"File '{path}' not found") := by
  obtain ⟨after, hpath⟩ := hpath
  rw [FilePickerExecutor.doExecute, Exec.bind_of_ok hpath]
  cases fileSystem.getFile path with
  | some file => simp
  | none =>
      refine ⟨fun file => iff_of_false ?_ (by simp), fun _ => ⟨_, after, rfl, rfl⟩⟩
      rintro ⟨after', h⟩
      cases h

end Executors

/-- An archive is interpreted exactly if its files can be read, each path ends with the name of
the file, and no two paths name the same place. The file picker then finds the first file of the
archive at or below its path, if that file is at the path, and fails otherwise. -/
theorem archiveInterpreter_filePicker {δ : Type} (services : ExecutionServices)
    (archives : ArchiveServices) (pipeline : PipelineDefinition) (archiveFile : BinaryFile)
    (context pickerContext : ExecutionContext δ) (archiveType path : String)
    (htype : HasTypedProperty services context Value.stringTypeguard "archiveType" .Text
      archiveType)
    (hpath : HasTypedProperty services pickerContext Value.stringTypeguard "path" .Text path) :
    ((∃ fs after, ArchiveInterpreterExecutor.doExecute services archives pipeline archiveFile
        context = some (.ok (.ok fs), after)) ↔
      ∃ files, archiveFiles archives archiveType archiveFile = .ok files ∧
        (∀ file ∈ files, HasPlace file) ∧ DistinctPlaces files) ∧
    ∀ fs after, ArchiveInterpreterExecutor.doExecute services archives pipeline archiveFile
        context = some (.ok (.ok fs), after) →
      ∃ files, archiveFiles archives archiveType archiveFile = .ok files ∧
        (∀ file, (∃ after, FilePickerExecutor.doExecute services pipeline fs pickerContext =
          some (.ok (.ok file), after)) ↔ firstFile files path = some file) ∧
        (firstFile files path = none → ∃ details after,
          FilePickerExecutor.doExecute services pipeline fs pickerContext =
            some (.ok (.error details), after) ∧
          details.message = s!"File '{path}' not found") := by
  constructor
  · simp only [archiveInterpreter_doExecute_iff htype, loadArchive_eq_ok_iff]
    rw [exists_comm]
    refine exists_congr fun files => ?_
    rw [exists_and_left, exists_putsAll_construct_iff]
  · intro fs after h
    obtain ⟨files, hfiles, hputs⟩ := loadArchive_eq_ok_iff.mp
      ((archiveInterpreter_doExecute_iff htype).mp ⟨after, h⟩)
    refine ⟨files, hfiles, ?_⟩
    rw [← getFile_of_putsAll hputs path]
    exact filePicker_doExecute hpath

/-! ## An archive with a directory -/

/-- Unpacks an archive of three files in a directory and beside it. -/
def sampleArchives : ArchiveServices where
  mime := ⟨fun fileExtension => if fileExtension = ".csv" then some "text/csv" else none,
    fun _ => none⟩
  loadAsync _ := .ok [⟨"data/", "data/", true, .ok []⟩, ⟨"data/b", "data/b", false, .ok [1]⟩,
    ⟨"data/a.csv", "data/a.csv", false, .ok [2]⟩, ⟨"data", "data", false, .ok [3]⟩]
  gunzipSync _ := .error (.error "incorrect header check")

/-- The blocks pick a file of a zip archive. -/
def archiveExecutionServices (path : String) : ExecutionServices :=
  sampleServices {
    valuetypes := []
    constraints := []
    transforms := []
    blocks := [⟨"Interpret", none, [⟨"archiveType", .expression (.textLiteral "zip")⟩]⟩,
      ⟨"Pick", none, [⟨"path", .expression (.textLiteral path)⟩]⟩]
    blockTypes := [] }

def archiveContext (block : BlockId) : ExecutionContext Unit :=
  { construct (EvaluationContext.construct ⟨fun _ => none, none⟩) with stack := [.block block] }

/-- The file `data` is in the archive, but the directory `data` comes first. -/
theorem archiveInterpreter_filePicker_hidden :
    ∃ fs after files, ArchiveInterpreterExecutor.doExecute (archiveExecutionServices "/data")
        sampleArchives ⟨"Sample", [], [], [], [], []⟩ ⟨"a.zip", .ZIP, .APPLICATION_ZIP, []⟩
        (archiveContext 0) = some (.ok (.ok fs), after) ∧
      archiveFiles sampleArchives "zip" ⟨"a.zip", .ZIP, .APPLICATION_ZIP, []⟩ = .ok files ∧
      (∃ file ∈ files, file.1 = "/data") ∧
      ∃ details after, FilePickerExecutor.doExecute (archiveExecutionServices "/data")
        ⟨"Sample", [], [], [], [], []⟩ fs (archiveContext 1) = some (.ok (.error details), after) ∧
        details.message = "File '/data' not found" := by
  obtain ⟨-, hpick⟩ := archiveInterpreter_filePicker (archiveExecutionServices "/data")
    sampleArchives ⟨"Sample", [], [], [], [], []⟩ ⟨"a.zip", .ZIP, .APPLICATION_ZIP, []⟩
    (archiveContext 0) (archiveContext 1) "zip" "/data" ⟨_, by rfl⟩ ⟨_, by rfl⟩
  obtain ⟨fs, after, h⟩ : ∃ fs after, ArchiveInterpreterExecutor.doExecute
      (archiveExecutionServices "/data") sampleArchives ⟨"Sample", [], [], [], [], []⟩
      ⟨"a.zip", .ZIP, .APPLICATION_ZIP, []⟩ (archiveContext 0) =
        some (.ok (.ok fs), after) := ⟨_, _, by rfl⟩
  obtain ⟨files, hfiles, -, hnone⟩ := hpick fs after h
  have hsample : archiveFiles sampleArchives "zip" ⟨"a.zip", .ZIP, .APPLICATION_ZIP, []⟩ =
      .ok [("/data/b", ⟨"b", .NONE, .APPLICATION_OCTET_STREAM, [1]⟩),
        ("/data/a.csv", ⟨"a.csv", .CSV, .TEXT_CSV, [2]⟩),
        ("/data", ⟨"data", .NONE, .APPLICATION_OCTET_STREAM, [3]⟩)] := by rfl
  cases hsample.symm.trans hfiles
  exact ⟨fs, after, _, h, hsample,
    ⟨("/data", ⟨"data", .NONE, .APPLICATION_OCTET_STREAM, [3]⟩), by simp, rfl⟩, hnone (by decide)⟩

end Archives

end Jayvee
