import Jayvee.Verification.Files.ReadYourWrites

/-! # Files that could not be put -/

namespace Jayvee

open Foundation Namespace

variable {T : Type}

namespace InMemoryFileSystem

/-! ## Calls and what they return -/

inductive FileSystemCall (T : Type) where
  | getFile (path : String)
  | putFile (path : String) (file : FileSystemFile T)

inductive FileSystemResult (T : Type) where
  | file (file : Option (FileSystemFile T))
  | stored (stored : Bool)
  deriving DecidableEq

def callResult (this : InMemoryFileSystem T) : FileSystemCall T → FileSystemResult T
  | .getFile path => .file (this.getFile path)
  | .putFile path file => .stored (this.putFile path file).1

def afterCall (this : InMemoryFileSystem T) : FileSystemCall T → InMemoryFileSystem T
  | .getFile _ => this
  | .putFile path file => (this.putFile path file).2

/-- What calls return, one after the other. -/
def results : (this : InMemoryFileSystem T) → List (FileSystemCall T) → List (FileSystemResult T)
  | _, [] => []
  | this, call :: calls => this.callResult call :: (this.afterCall call).results calls

/-- No sequence of calls can tell the file systems apart. -/
def ObservablyEqual (this other : InMemoryFileSystem T) : Prop :=
  ∀ calls, this.results calls = other.results calls

variable {this other : InMemoryFileSystem T} {path : String} {parts above : List String}
  {file : FileSystemFile T}

/-! ## Calls see no more than the files -/

theorem callResult_eq (hwf : this.WellFormed) (hwf' : other.WellFormed)
    (h : Indistinguishable this.rootDirectory.space other.rootDirectory.space)
    (call : FileSystemCall T) : this.callResult call = other.callResult call := by
  cases call with
  | getFile path =>
      cases hparts : processPath path with
      | none => simp only [callResult, getFile_of_invalid hparts]
      | some parts => simp only [callResult, getFile_of_processPath hparts, h.get]
  | putFile path file =>
      cases hparts : processPath path with
      | none => simp only [callResult, putFile_of_invalid hparts]
      | some parts =>
          rw [callResult, callResult, FileSystemResult.stored.injEq, Bool.eq_iff_iff,
            putFile_eq_true_iff hwf hparts, putFile_eq_true_iff hwf' hparts, h.stores]

theorem WellFormed.afterCall (hwf : this.WellFormed) (call : FileSystemCall T) :
    (this.afterCall call).WellFormed := by
  cases call with
  | getFile path => exact hwf
  | putFile path file => exact hwf.putFile

theorem afterCall_indistinguishable (hwf : this.WellFormed) (hwf' : other.WellFormed)
    (h : Indistinguishable this.rootDirectory.space other.rootDirectory.space)
    (call : FileSystemCall T) : Indistinguishable (this.afterCall call).rootDirectory.space
      (other.afterCall call).rootDirectory.space := by
  cases call with
  | getFile path => exact h
  | putFile path file =>
      cases hparts : processPath path with
      | none => simpa only [afterCall, putFile_of_invalid hparts] using h
      | some parts =>
          rw [afterCall, afterCall, putFile_space hwf hparts, putFile_space hwf' hparts]
          exact h.put parts file

theorem observablyEqual_of_indistinguishable (hwf : this.WellFormed) (hwf' : other.WellFormed)
    (h : Indistinguishable this.rootDirectory.space other.rootDirectory.space) :
    this.ObservablyEqual other := by
  intro calls
  induction calls generalizing this other with
  | nil => rfl
  | cons call calls ih =>
      rw [results, results, callResult_eq hwf hwf' h call]
      congr 1
      exact ih (hwf.afterCall call) (hwf'.afterCall call)
        (afterCall_indistinguishable hwf hwf' h call)

/-! ## Paths of directories -/

/-- What `processPath` keeps as a part of a path. -/
structure IsPathPart (part : String) : Prop where
  separator : PATH_SEPARATOR ∉ part.toList
  nonempty : part ≠ ""
  current : part ≠ CURRENT_DIR
  parent : part ≠ PARENT_DIR

theorem not_mem_of_mem_splitOn {separator : Char} {characters piece : List Char}
    (h : piece ∈ characters.splitOn separator) : separator ∉ piece := by
  induction characters generalizing piece with
  | nil =>
      rw [List.splitOn_nil, List.mem_singleton] at h
      rw [h]
      exact List.not_mem_nil
  | cons character characters ih =>
      obtain ⟨first, pieces, hsplit⟩ :=
        List.exists_cons_of_ne_nil (List.splitOn_ne_nil separator characters)
      rw [List.splitOn_cons_eq_if_modifyHead, hsplit] at h
      rw [hsplit] at ih
      by_cases hcharacter : character = separator
      · rw [if_pos (beq_iff_eq.mpr hcharacter)] at h
        cases h with
        | head => exact List.not_mem_nil
        | tail _ h => exact ih h
      · rw [if_neg (by simpa using hcharacter), List.modifyHead_cons] at h
        cases h with
        | head => simpa [Ne.symm hcharacter] using ih List.mem_cons_self
        | tail _ h => exact ih (List.mem_cons_of_mem _ h)

/-- `processParts` keeps parts that are neither of the two special names. -/
theorem mem_of_processParts {processedParts result : List String} {part : String}
    (h : processParts parts processedParts = some result) (hpart : part ∈ result) :
    part ∈ processedParts ∨ part ∈ parts ∧ part ≠ CURRENT_DIR ∧ part ≠ PARENT_DIR := by
  induction parts generalizing processedParts with
  | nil =>
      obtain rfl : processedParts = result := by simpa [processParts] using h
      exact Or.inl hpart
  | cons first parts ih =>
      rw [processParts] at h
      split at h
      · have hmem := ih h
        simp only [List.mem_cons]
        tauto
      · split at h
        · split at h
          · cases h
          · have hmem := ih h
            have hdropped : part ∈ processedParts.dropLast → part ∈ processedParts :=
              fun hmem => List.dropLast_subset processedParts hmem
            simp only [List.mem_cons]
            tauto
        · rename_i hcurrent hparent
          have hmem := ih h
          rw [List.mem_append, List.mem_singleton] at hmem
          simp only [List.mem_cons]
          rcases hmem with (hmem | rfl) | hmem <;> tauto

theorem isPathPart_of_processPath {rest : List String} {part : String}
    (h : processPath path = some ("" :: rest)) (hpart : part ∈ rest) : IsPathPart part := by
  rw [processPath] at h
  split at h
  · cases h
  · rename_i head tail hsplit
    split at h
    · cases h
    · obtain ⟨result, hresult, heq⟩ := Option.map_eq_some_iff.mp h
      obtain rfl : result = rest := by simpa using heq
      have hmem := mem_of_processParts hresult hpart
      simp only [List.not_mem_nil, false_or, List.mem_filter, decide_eq_true_eq] at hmem
      refine ⟨?_, hmem.1.2, hmem.2.1, hmem.2.2⟩
      have hsplitPart : part ∈ splitPath path PATH_SEPARATOR :=
        hsplit ▸ List.mem_cons_of_mem _ hmem.1.1
      obtain ⟨piece, hpiece, heq⟩ := List.mem_map.mp hsplitPart
      rw [← heq, String.toList_ofList]
      exact not_mem_of_mem_splitOn hpiece

/-- The path that names every directory on the way. -/
def absolutePath (parts : List String) : String :=
  String.ofList ([PATH_SEPARATOR].intercalate (("" :: parts).map String.toList))

theorem splitPath_absolutePath (h : ∀ part ∈ parts, IsPathPart part) :
    splitPath (absolutePath parts) PATH_SEPARATOR = "" :: parts := by
  have hpieces : ∀ piece ∈ ("" :: parts).map String.toList, PATH_SEPARATOR ∉ piece := by
    intro piece hpiece
    obtain ⟨part, hpart, rfl⟩ := List.mem_map.mp hpiece
    cases hpart with
    | head => simp
    | tail _ hpart => exact (h part hpart).separator
  rw [splitPath, absolutePath, String.toList_ofList, List.splitOn_intercalate _ hpieces (by simp),
    List.map_map]
  simp [Function.comp_def]

theorem processParts_of_isPathPart {processedParts : List String}
    (h : ∀ part ∈ parts, IsPathPart part) :
    processParts parts processedParts = some (processedParts ++ parts) := by
  induction parts generalizing processedParts with
  | nil => rw [processParts, List.append_nil]
  | cons first parts ih =>
      have hfirst := h first List.mem_cons_self
      rw [processParts, if_neg hfirst.current, if_neg hfirst.parent,
        ih fun part hpart => h part (List.mem_cons_of_mem _ hpart), List.append_assoc,
        List.singleton_append]

theorem processPath_absolutePath (h : ∀ part ∈ parts, IsPathPart part) :
    processPath (absolutePath parts) = some ("" :: parts) := by
  have hfilter : parts.filter (fun part => part ≠ "") = parts :=
    List.filter_eq_self.mpr fun part hpart => by simpa using (h part hpart).nonempty
  rw [processPath, splitPath_absolutePath h]
  simp only [true_or, not_true_eq_false, if_false, hfilter, processParts_of_isPathPart h,
    Option.map_some, List.nil_append]

/-! ## Files that could not be put -/

/-- Something is at every path strictly above. -/
def ExistsAbove (this : InMemoryFileSystem T) (path : String) : Prop :=
  ∀ parts, processPath path = some parts →
    ∀ above, above ≠ [] → above <+: parts → above ≠ parts →
      (this.rootDirectory.getNode above).isSome

theorem isSome_getNode_iff :
    (this.rootDirectory.getNode above).isSome ↔ this.rootDirectory.space above ≠ [] := by
  have hhead := FileSystemNode.head?_entries above this.rootDirectory
  rw [FileSystemNode.space, Ne, ← List.head?_eq_none_iff, hhead, Option.map_eq_none_iff,
    Option.isSome_iff_ne_none]

/-- The file that is put at a path to see whether a directory is there. -/
def probe (file : FileSystemFile T) (name : String) : FileSystemFile T :=
  { file with name := name }

/-- The path of every node has parts that a path can name. -/
theorem exists_absolutePath (h : processPath path = some parts) (hstart : above <+: parts)
    (hne : above ≠ []) : ∃ path', processPath path' = some above := by
  obtain ⟨rest, rfl⟩ := exists_cons_of_processPath h
  obtain ⟨first, aboveRest, rfl⟩ := List.exists_cons_of_ne_nil hne
  obtain ⟨rfl, hrest⟩ := List.cons_prefix_cons.mp hstart
  exact ⟨absolutePath aboveRest, processPath_absolutePath fun part hpart =>
    isPathPart_of_processPath h (hrest.subset hpart)⟩

theorem WellFormed.one_lt_length (hwf : this.WellFormed) (h : processPath path = some parts)
    (hempty : this.rootDirectory.space parts = []) : 1 < parts.length := by
  obtain ⟨rest, rfl⟩ := exists_cons_of_processPath h
  obtain ⟨⟨children, hroot⟩, _⟩ := hwf
  cases rest with
  | nil =>
      rw [hroot, FileSystemNode.space, FileSystemNode.entries_directory_self] at hempty
      cases hempty
  | cons first rest => simp

/-- A directory that was made is seen by putting a file in its place and reading it. -/
theorem not_observablyEqual_of_made (hwf : this.WellFormed)
    (h : processPath path = some parts) (hstart : above <+: parts) (hne : above ≠ parts)
    (habove : above ≠ []) (hempty : this.rootDirectory.space above = []) :
    ¬ (this.putFile path file).2.ObservablyEqual this := by
  obtain ⟨path', hpath'⟩ := exists_absolutePath h hstart habove
  have hlength : 1 < above.length := hwf.one_lt_length hpath' hempty
  obtain ⟨name, hname⟩ : ∃ name, above.getLast? = some name :=
    Option.ne_none_iff_exists'.mp fun hnone => habove (List.getLast?_eq_none_iff.mp hnone)
  have hread :
      (put FileSystemFile.name this.rootDirectory.space above (probe file name)).get above =
        some (probe file name) ∧
      (put FileSystemFile.name (put FileSystemFile.name this.rootDirectory.space parts file) above
        (probe file name)).get above = none :=
    get_put_put_of_made hstart hne hlength hempty hname
  intro hequal
  have hresults := hequal [.putFile path' (probe file name), .getFile path']
  simp only [results, callResult, afterCall, List.cons.injEq, FileSystemResult.file.injEq,
    getFile_of_processPath hpath', putFile_space hwf.putFile hpath', putFile_space hwf hpath',
    putFile_space hwf h] at hresults
  rw [hread.1, hread.2] at hresults
  exact absurd hresults.2.1 (by simp)

/-- A file that could not be put leaves the file system as it was, if nothing was missing on the
way to it. -/
theorem putFile_observablyEqual_iff (calls : List (String × FileSystemFile T)) (path : String)
    (file : FileSystemFile T) (hput : ((construct.putFiles calls).putFile path file).1 = false) :
    ((construct.putFiles calls).putFile path file).2.ObservablyEqual (construct.putFiles calls) ↔
      (construct.putFiles calls).ExistsAbove path := by
  have hwf : (construct.putFiles calls).WellFormed := wellFormed_construct.putFiles
  generalize construct.putFiles calls = this at hput hwf
  cases h : processPath path with
  | none =>
      rw [putFile_of_invalid h]
      exact iff_of_true (fun _ => rfl) (fun parts hparts => absurd (h.symm.trans hparts) (by simp))
  | some parts =>
      constructor
      · intro hequal parts' hparts' above habove hstart hne
        rw [isSome_getNode_iff]
        intro hempty
        exact not_observablyEqual_of_made hwf hparts' hstart hne habove hempty hequal
      · intro hexists
        refine observablyEqual_of_indistinguishable hwf.putFile hwf ?_
        rw [putFile_space hwf h]
        have hstores : ¬ Stores FileSystemFile.name this.rootDirectory.space parts file := by
          rw [← putFile_eq_true_iff hwf h, hput]
          exact Bool.false_ne_true
        exact indistinguishable_put hstores fun above habove hstart hne =>
          isSome_getNode_iff.mp (hexists parts h above habove hstart hne)

theorem putFile_observablyEqual_iff_misnamed :
    ((construct.putFiles [("/data/a", emptyFile "a")]).putFile "/data/b" (emptyFile "c")).1 =
      false ∧
    (((construct.putFiles [("/data/a", emptyFile "a")]).putFile "/data/b"
        (emptyFile "c")).2.ObservablyEqual (construct.putFiles [("/data/a", emptyFile "a")]) ↔
      (construct.putFiles [("/data/a", emptyFile "a")]).ExistsAbove "/data/b") :=
  ⟨by decide, putFile_observablyEqual_iff [("/data/a", emptyFile "a")] "/data/b" (emptyFile "c")
    (by decide)⟩

/-- The directory `data` is made for a file that is then refused. -/
theorem not_putFile_observablyEqual_data : ¬ ∀ (calls : List (String × FileSystemFile String))
    (path : String) (file : FileSystemFile String),
    ((construct.putFiles calls).putFile path file).1 = false →
      ((construct.putFiles calls).putFile path file).2.ObservablyEqual
        (construct.putFiles calls) := by
  intro h
  have hequal := h [] "/data/a" (emptyFile "b") (by decide)
  exact absurd (hequal [.putFile "/data" (emptyFile "data"), .getFile "/data"]) (by decide)

end InMemoryFileSystem

end Jayvee
