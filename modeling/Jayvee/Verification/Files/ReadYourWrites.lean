import Jayvee.Verification.Files.Nodes

/-! # Reading what was written to a file system -/

namespace Jayvee

open Foundation Namespace

variable {T : Type}

/-! ## The file system -/

namespace InMemoryFileSystem

open FileSystemNode

/-- What the calls keep of a file system. -/
structure WellFormed (this : InMemoryFileSystem T) : Prop where
  root : ∃ children, this.rootDirectory = directory "" children
  single : SingleDirectories this.rootDirectory.space

variable {this : InMemoryFileSystem T} {path : String} {parts : List String}
  {file : FileSystemFile T}

theorem wellFormed_construct : (construct : InMemoryFileSystem T).WellFormed :=
  ⟨⟨[], rfl⟩, singleDirectories_empty ""⟩

theorem exists_cons_of_processPath (h : processPath path = some parts) :
    ∃ rest, parts = "" :: rest := by
  rw [processPath] at h
  split at h
  · cases h
  · split at h
    · cases h
    · obtain ⟨rest, _, rfl⟩ := Option.map_eq_some_iff.mp h
      exact ⟨rest, rfl⟩

theorem getFile_of_processPath (h : processPath path = some parts) :
    this.getFile path = this.rootDirectory.space.get parts := by
  rw [getFile, h]
  exact getNode_bind_asFile parts this.rootDirectory

theorem getFile_of_invalid (h : processPath path = none) : this.getFile path = none := by
  rw [getFile, h]

theorem putFile_of_invalid (h : processPath path = none) :
    this.putFile path file = (false, this) := by
  rw [putFile, h]

/-- `putFile` puts the file into the namespace of the root directory. -/
theorem putFile_puts (hwf : this.WellFormed) (h : processPath path = some parts) :
    Puts file parts this.rootDirectory (this.rootDirectory.putNode file parts) := by
  obtain ⟨rest, rfl⟩ := exists_cons_of_processPath h
  obtain ⟨⟨children, hroot⟩, hsingle⟩ := hwf
  rw [hroot] at hsingle ⊢
  exact putNode_puts hsingle

theorem putFile_space (hwf : this.WellFormed) (h : processPath path = some parts) :
    (this.putFile path file).2.rootDirectory.space =
      put FileSystemFile.name this.rootDirectory.space parts file := by
  rw [putFile, h]
  exact (putFile_puts hwf h).space

theorem putFile_eq_true_iff (hwf : this.WellFormed) (h : processPath path = some parts) :
    (this.putFile path file).1 = true ↔
      Stores FileSystemFile.name this.rootDirectory.space parts file := by
  have hputs : Puts file parts this.rootDirectory (this.rootDirectory.putNode file parts) :=
    putFile_puts hwf h
  rw [putFile, h]
  by_cases hstores : Stores FileSystemFile.name this.rootDirectory.space parts file
  · simp [hputs.stored hstores, hstores, asFile]
  · simp [hputs.refused hstores, hstores]

theorem WellFormed.putFile (hwf : this.WellFormed) :
    (this.putFile path file).2.WellFormed := by
  cases h : processPath path with
  | none => rwa [putFile_of_invalid h]
  | some parts =>
      refine ⟨?_, putFile_space hwf h ▸ hwf.single.put⟩
      obtain ⟨children, hroot⟩ := hwf.root
      rw [InMemoryFileSystem.putFile, h, hroot]
      exact putNode_directory file parts "" children

/-! ## Runs -/

/-- The calls whose paths can be resolved. -/
def processedCalls (calls : List (String × FileSystemFile T)) :
    List (List String × FileSystemFile T) :=
  calls.filterMap fun call => (processPath call.1).map fun parts => (parts, call.2)

theorem WellFormed.putFiles {calls : List (String × FileSystemFile T)} (hwf : this.WellFormed) :
    (this.putFiles calls).WellFormed := by
  induction calls generalizing this with
  | nil => exact hwf
  | cons call calls ih => exact ih hwf.putFile

/-- A run of calls is a run of puts in the namespace. -/
theorem putFiles_space {calls : List (String × FileSystemFile T)} (hwf : this.WellFormed) :
    (this.putFiles calls).rootDirectory.space =
      puts FileSystemFile.name this.rootDirectory.space (processedCalls calls) := by
  induction calls generalizing this with
  | nil => rfl
  | cons call calls ih =>
      have hrest : this.putFiles (call :: calls) =
        (this.putFile call.1 call.2).2.putFiles calls := rfl
      rw [hrest, ih hwf.putFile]
      cases h : processPath call.1 with
      | none => simp [processedCalls, h, putFile_of_invalid]
      | some parts => simp [processedCalls, h, putFile_space hwf h, puts]

/-- The normal form of the path continues the one of the other path. -/
def LiesBelow (path other : String) : Prop :=
  ∃ parts otherParts, processPath path = some parts ∧ processPath other = some otherParts ∧
    otherParts <+: parts ∧ otherParts ≠ parts

/-- What a call of `putFile` that succeeds is expected to do. -/
structure ReadsBack (this : InMemoryFileSystem T) (path : String) (file : FileSystemFile T) :
    Prop where
  readYourWrites : ∀ path', processPath path' = processPath path →
    (this.putFile path file).2.getFile path' = some file
  frame : ∀ other, processPath other ≠ processPath path →
    (this.putFile path file).2.getFile other = this.getFile other
  writeOnce : ∀ calls path' file', processPath path' = processPath path →
    (((this.putFile path file).2.putFiles calls).putFile path' file').1 = false

/-- Every call whose file is stored leaves other paths alone and is not overwritten. It can be
read back unless a directory was there first. -/
theorem readsBack_iff_not_hidden (hwf : this.WellFormed) (h : processPath path = some parts)
    (hput : (this.putFile path file).1 = true) :
    this.ReadsBack path file ↔ none ∉ this.rootDirectory.space parts := by
  have hstores := (putFile_eq_true_iff hwf h).mp hput
  have hspace : (this.putFile path file).2.rootDirectory.space =
      put FileSystemFile.name this.rootDirectory.space parts file := putFile_space hwf h
  rw [← get_put_self_iff hstores, ← hspace, ← getFile_of_processPath h]
  constructor
  · intro hreads
    exact hreads.readYourWrites path rfl
  · intro hget
    refine ⟨fun path' h' => ?_, fun other hother => ?_, fun calls path' file' h' => ?_⟩
    · rw [getFile_of_processPath (h'.trans h), ← getFile_of_processPath h, hget]
    · cases hparts : processPath other with
      | none => rw [getFile_of_invalid hparts, getFile_of_invalid hparts]
      | some otherParts =>
          have hne : otherParts ≠ parts := fun heq => hother (by rw [hparts, h, heq])
          rw [getFile_of_processPath hparts, getFile_of_processPath hparts, hspace,
            get_put_of_ne hne]
    · have hmem : some file ∈
          ((this.putFile path file).2.putFiles calls).rootDirectory.space parts := by
        rw [putFiles_space hwf.putFile, hspace]
        exact mem_puts_of_mem (mem_put_self hstores)
      rw [← Bool.not_eq_true, putFile_eq_true_iff hwf.putFile.putFiles (h'.trans h)]
      exact not_stores_of_mem hmem

theorem mem_processedCalls_iff {calls : List (String × FileSystemFile T)}
    {call : List String × FileSystemFile T} : call ∈ processedCalls calls ↔
      ∃ path, (path, call.2) ∈ calls ∧ processPath path = some call.1 := by
  simp only [processedCalls, List.mem_filterMap, Option.map_eq_some_iff]
  constructor
  · rintro ⟨earlier, hmem, parts, hparts, heq⟩
    subst heq
    exact ⟨earlier.1, hmem, hparts⟩
  · rintro ⟨path, hmem, hparts⟩
    exact ⟨(path, call.2), hmem, call.1, hparts, rfl⟩

/-- Directories are where an earlier call named a path below. -/
theorem none_mem_space_putFiles_iff {calls : List (String × FileSystemFile T)}
    (h : processPath path = some parts) (hlength : 1 < parts.length) :
    none ∈ (construct.putFiles calls).rootDirectory.space parts ↔
      ∃ call ∈ calls, LiesBelow call.1 path := by
  obtain ⟨rest, rfl⟩ := exists_cons_of_processPath h
  have hrest : rest ≠ [] := by
    intro hnil
    simp [hnil] at hlength
  have hempty : none ∉ (construct : InMemoryFileSystem T).rootDirectory.space ("" :: rest) := by
    simp [space, construct, entries_directory hrest]
  rw [putFiles_space wellFormed_construct, none_mem_puts_iff, or_iff_right hempty]
  constructor
  · rintro ⟨call, hcall, _, hprefix, hne⟩
    obtain ⟨callPath, hmem, hparts⟩ := mem_processedCalls_iff.mp hcall
    exact ⟨(callPath, call.2), hmem, call.1, "" :: rest, hparts, h, hprefix, hne⟩
  · rintro ⟨call, hcall, callParts, pathParts, hcallParts, hpathParts, hprefix, hne⟩
    obtain rfl : "" :: rest = pathParts := Option.some.inj (h.symm.trans hpathParts)
    exact ⟨(callParts, call.2), mem_processedCalls_iff.mpr ⟨call.1, hcall, hcallParts⟩,
      List.cons_ne_nil _ _, hprefix, hne⟩

/-- A file that was put can be read back, other files stay what they are, and the file cannot be
overwritten, unless an earlier call named a path below the path of the file. -/
theorem putFile_readsBack_iff (calls : List (String × FileSystemFile T)) (path : String)
    (file : FileSystemFile T) (hput : ((construct.putFiles calls).putFile path file).1 = true) :
    (construct.putFiles calls).ReadsBack path file ↔
      ∀ call ∈ calls, ¬ LiesBelow call.1 path := by
  have hwf : (construct.putFiles calls).WellFormed := wellFormed_construct.putFiles
  cases h : processPath path with
  | none => simp [putFile_of_invalid h] at hput
  | some parts =>
      have hlength : 1 < parts.length := ((putFile_eq_true_iff hwf h).mp hput).1
      rw [readsBack_iff_not_hidden hwf h hput, none_mem_space_putFiles_iff h hlength]
      simp

/-- A text file with no content. -/
def emptyFile (name : String) : FileSystemFile String where
  name := name
  extension := .TXT
  mimeType := .TEXT_PLAIN
  content := ""

theorem putFile_readsBack_iff_nested :
    ((construct.putFiles [("/data/a", emptyFile "a")]).putFile "/x/..//data/b"
      (emptyFile "b")).1 = true ∧
    ((construct.putFiles [("/data/a", emptyFile "a")]).ReadsBack "/x/..//data/b" (emptyFile "b") ↔
      ∀ call ∈ [("/data/a", emptyFile "a")], ¬ LiesBelow call.1 "/x/..//data/b") :=
  ⟨by decide, putFile_readsBack_iff [("/data/a", emptyFile "a")] "/x/..//data/b" (emptyFile "b")
    (by decide)⟩

/-- The directory `data` hides the file that is put beside it. -/
theorem not_putFile_readsBack_data : ¬ ∀ (calls : List (String × FileSystemFile String))
    (path : String) (file : FileSystemFile String),
    ((construct.putFiles calls).putFile path file).1 = true →
      (construct.putFiles calls).ReadsBack path file := by
  intro h
  have hreads := h [("/data/a", emptyFile "a")] "/data" (emptyFile "data") (by decide)
  exact absurd (hreads.readYourWrites "/data" rfl) (by decide)

end InMemoryFileSystem

end Jayvee
