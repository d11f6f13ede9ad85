import Jayvee.Foundation.Namespace
import Jayvee.Model.FileSystem

/-! # File system nodes as namespaces -/

namespace Jayvee

open Foundation Namespace

variable {T : Type}

/-! ## Entries -/

namespace FileSystemNode

/-- The nodes that have a path, without what is in the directories among them. -/
def entries : (pathParts : List String) → (this : FileSystemNode T) →
    List (Option (FileSystemFile T))
  | [], _ => []
  | firstPart :: rest, file this =>
      if firstPart = this.name ∧ rest = [] then [some this] else []
  | firstPart :: rest, directory name children =>
      if firstPart ≠ name then
        []
      else if rest = [] then
        [none]
      else
        children.flatMap (entries rest)

/-- The tree of a node, seen from its paths. -/
def space (this : FileSystemNode T) : Namespace String (FileSystemFile T) :=
  fun pathParts => entries pathParts this

variable {node : FileSystemFile T} {name firstPart : String} {rest pathParts : List String}
  {this child : FileSystemNode T} {children : List (FileSystemNode T)}

theorem entries_file : entries (firstPart :: rest) (file node) =
    if firstPart = node.name ∧ rest = [] then [some node] else [] := by
  rw [entries]

theorem entries_directory_of_ne (h : firstPart ≠ name) :
    entries (firstPart :: rest) (directory name children) = [] := by
  rw [entries, if_pos h]

theorem entries_directory_self : entries [name] (directory name children) = [none] := by
  rw [entries, if_neg (by simp), if_pos rfl]

theorem entries_directory (h : rest ≠ []) :
    entries (name :: rest) (directory name children) = children.flatMap (entries rest) := by
  rw [entries, if_neg (by simp), if_neg h]

theorem getNode_directory (h : rest ≠ []) :
    getNode (name :: rest) (directory name children) = children.findSome? (getNode rest) := by
  rw [getNode, if_neg (by simp), if_neg h]

/-- `getNode` returns the earliest entry. -/
theorem head?_entries (pathParts : List String) (this : FileSystemNode T) :
    (entries pathParts this).head? = (getNode pathParts this).map InMemoryFileSystem.asFile := by
  induction pathParts generalizing this with
  | nil => rfl
  | cons firstPart rest ih =>
      cases this with
      | file this =>
          rw [entries, getNode]
          split <;> rfl
      | directory name children =>
          by_cases hname : firstPart = name
          · by_cases hrest : rest = []
            · rw [hname, hrest, entries_directory_self, getNode, if_neg (by simp), if_pos rfl]
              rfl
            · rw [hname, entries_directory hrest, getNode_directory hrest, List.head?_flatMap,
                List.map_findSome?]
              congr 1
              funext child
              exact ih child
          · rw [entries_directory_of_ne hname, getNode, if_pos hname]
            rfl

/-- A file is returned exactly where no other node comes first. -/
theorem getNode_bind_asFile (pathParts : List String) (this : FileSystemNode T) :
    (getNode pathParts this).bind InMemoryFileSystem.asFile = this.space.get pathParts := by
  rw [Namespace.get, space, head?_entries]
  cases getNode pathParts this <;> rfl

/-! ## Children -/

/-- Only directories of its first name have anything on a longer path. -/
theorem entries_eq_nil_of_not_directory {second : String}
    (h : isDirectoryNamed (some firstPart) this = false) :
    entries (firstPart :: second :: rest) this = [] := by
  cases this with
  | file this => simp [entries_file]
  | directory name children =>
      have hname : name ≠ firstPart := by simpa [isDirectoryNamed] using h
      exact entries_directory_of_ne hname.symm

/-- Nothing else is changed by what is put there. -/
theorem putNode_of_not_directory (h : isDirectoryNamed (some firstPart) this = false) :
    putNode node (firstPart :: rest) this = (none, this) := by
  cases this with
  | file this => rw [putNode]
  | directory name children =>
      have hname : name ≠ firstPart := by simpa [isDirectoryNamed] using h
      rw [putNode, if_pos hname.symm]

theorem putNode_nil : putNode node [] this = (none, this) := by
  cases this <;> rw [putNode]

theorem none_mem_entries_iff :
    none ∈ entries [name] this ↔ isDirectoryNamed (some name) this = true := by
  cases this with
  | file this => simp [entries_file, isDirectoryNamed]
  | directory name' children =>
      by_cases hname : name = name'
      · simp [hname, entries_directory_self, isDirectoryNamed]
      · simp [entries_directory_of_ne hname, isDirectoryNamed, Ne.symm hname]

theorem some_mem_entries_iff :
    (∃ stored, some stored ∈ entries [name] this) ↔ isFileNamed (some name) this = true := by
  cases this with
  | file this =>
      by_cases hname : name = this.name
      · simp [hname, entries_file, isFileNamed]
      · simp [entries_file, hname, isFileNamed, Ne.symm hname]
  | directory name' children =>
      by_cases hname : name = name'
      · simp [hname, entries_directory_self, isFileNamed]
      · simp [entries_directory_of_ne hname, isFileNamed]

theorem nodeHasAlreadyChildFileWithSameName_iff :
    nodeHasAlreadyChildFileWithSameName children (firstPart :: rest) = true ↔
      ∃ stored, some stored ∈ children.flatMap (entries [firstPart]) := by
  have hchild : nodeHasAlreadyChildFileWithSameName children (firstPart :: rest) = true ↔
      ∃ child ∈ children, isFileNamed (some firstPart) child = true := by
    simp [nodeHasAlreadyChildFileWithSameName]
  simp only [hchild, ← some_mem_entries_iff, List.mem_flatMap]
  constructor
  · rintro ⟨child, hmem, stored, hstored⟩
    exact ⟨stored, child, hmem, hstored⟩
  · rintro ⟨stored, child, hmem, hstored⟩
    exact ⟨child, hmem, stored, hstored⟩

/-! ## Putting a node -/

/-- What `putNode` returns and leaves behind, seen from the paths. -/
structure Puts (node : FileSystemFile T) (pathParts : List String) (this : FileSystemNode T)
    (result : Option (FileSystemNode T) × FileSystemNode T) : Prop where
  stored : Stores FileSystemFile.name this.space pathParts node → result.1 = some (file node)
  refused : ¬ Stores FileSystemFile.name this.space pathParts node → result.1 = none
  space : result.2.space = put FileSystemFile.name this.space pathParts node

/-- A directory is compared path by path with what it was before. -/
theorem space_directory_eq_put {children' : List (FileSystemNode T)} (hrest : rest ≠ [])
    (h : ∀ other ≠ [], children'.flatMap (entries other) = children.flatMap (entries other) ++
      made FileSystemFile.name (directory name children).space (name :: rest) node
        (name :: other)) :
    (directory name children').space =
      put FileSystemFile.name (directory name children).space (name :: rest) node := by
  funext path
  rw [put]
  cases path with
  | nil => simp [space, entries, made]
  | cons first other =>
      by_cases hfirst : first = name
      · subst hfirst
        by_cases hother : other = []
        · subst hother
          have hne : [first] ≠ first :: rest := by simpa using hrest.symm
          simp [space, entries_directory_self, made, hne]
        · simp only [space, entries_directory hother]
          exact h other hother
      · have hprefix : ¬ first :: other <+: name :: rest := by simp [hfirst]
        simp [space, entries_directory_of_ne hfirst, made_eq_nil_of_not_above hprefix]

/-- A put that is refused in the last directory changes nothing. -/
theorem made_leaf_eq_nil {leaf : String} {other : List String} (hother : other ≠ [])
    (h : ¬ Stores FileSystemFile.name (directory name children).space [name, leaf] node) :
    made FileSystemFile.name (directory name children).space [name, leaf] node
      (name :: other) = [] := by
  by_cases heq : name :: other = [name, leaf]
  · rw [heq, made_self_of_not_stores h]
  · refine made_eq_nil_of_not_above fun hprefix => ?_
    cases other with
    | nil => exact hother rfl
    | cons first others => simp_all

theorem stores_leaf_iff {leaf : String} :
    Stores FileSystemFile.name (directory name children).space [name, leaf] node ↔
      nodeHasAlreadyChildFileWithSameName children [leaf] = false ∧ node.name = leaf := by
  have hspace : (directory name children).space [name, leaf] =
      children.flatMap (entries [leaf]) := entries_directory (by simp)
  have hfree : (∀ entry ∈ children.flatMap (entries [leaf]), entry = none) ↔
      nodeHasAlreadyChildFileWithSameName children [leaf] = false := by
    rw [← Bool.not_eq_true, nodeHasAlreadyChildFileWithSameName_iff]
    constructor
    · rintro h ⟨stored, hstored⟩
      exact absurd (h _ hstored) (by simp)
    · intro h entry hentry
      cases entry with
      | none => rfl
      | some stored => exact absurd ⟨stored, hentry⟩ h
  rw [Stores, hspace, hfree]
  constructor
  · rintro ⟨_, hlast, hfree⟩
    exact ⟨hfree, (Option.some.inj hlast).symm⟩
  · rintro ⟨hfree, hname⟩
    exact ⟨by simp, by simp [hname], hfree⟩

/-- The last directory of a path. -/
theorem putNode_leaf {leaf : String} : Puts node [name, leaf] (directory name children)
    (putNode node [name, leaf] (directory name children)) := by
  by_cases hstores :
      Stores FileSystemFile.name (directory name children).space [name, leaf] node
  · have hput : putNode node [name, leaf] (directory name children) =
        (some (file node), directory name (addChild children (file node))) := by
      obtain ⟨hfree, hname⟩ := stores_leaf_iff.mp hstores
      rw [putNode, if_neg (by simp), if_pos (by simp), if_pos (by simp [hfree, hname])]
    rw [hput]
    refine ⟨fun _ => rfl, fun h => absurd hstores h, ?_⟩
    refine space_directory_eq_put (by simp) fun other hother => ?_
    rw [addChild, List.flatMap_append, List.flatMap_singleton]
    congr 1
    cases other with
    | nil => exact absurd rfl hother
    | cons first rest =>
        have hname : node.name = leaf := (stores_leaf_iff.mp hstores).2
        rw [entries_file, hname]
        by_cases heq : name :: first :: rest = [name, leaf]
        · rw [heq, made_self_of_stores hstores, if_pos (by simpa using heq)]
        · have hprefix : ¬ name :: first :: rest <+: [name, leaf] := by
            simpa [List.prefix_cons_iff] using heq
          rw [made_eq_nil_of_not_above hprefix, if_neg (by simpa using heq)]
  · have hput : putNode node [name, leaf] (directory name children) =
        (none, directory name children) := by
      have hrefused := mt stores_leaf_iff.mpr hstores
      rw [putNode, if_neg (by simp), if_pos (by simp), if_neg (by simpa using hrefused)]
    rw [hput]
    refine ⟨fun h => absurd h hstores, fun _ => rfl, ?_⟩
    refine space_directory_eq_put (by simp) fun other hother => ?_
    rw [made_leaf_eq_nil hother hstores, List.append_nil]

/-- On longer paths, children that are no directories of the name have nothing. -/
theorem flatMap_entries_eq_nil {second third : String}
    (h : ∀ child ∈ children, isDirectoryNamed (some second) child = false) :
    children.flatMap (entries (second :: third :: rest)) = [] :=
  List.flatMap_eq_nil_iff.mpr fun child hchild => entries_eq_nil_of_not_directory (h child hchild)

/-- A directory that is made on the way. -/
theorem putNode_new {second third : String} {newdir : Option (FileSystemNode T) × FileSystemNode T}
    (hnew : ∀ child ∈ children, isDirectoryNamed (some second) child = false)
    (h : Puts node (second :: third :: rest) (directory second []) newdir) :
    Puts node (name :: second :: third :: rest) (directory name children)
      (newdir.1, directory name (addChild children newdir.2)) := by
  have hpath : (directory name children).space (name :: second :: third :: rest) =
      (directory (T := T) second []).space (second :: third :: rest) := by
    simp [space, entries_directory, flatMap_entries_eq_nil hnew]
  have hstores : Stores FileSystemFile.name (directory name children).space
        (name :: second :: third :: rest) node ↔
      Stores FileSystemFile.name (directory second []).space (second :: third :: rest) node :=
    stores_cons_iff (by simp) hpath
  refine ⟨fun hs => h.stored (hstores.mp hs), fun hs => h.refused (mt hstores.mpr hs), ?_⟩
  refine space_directory_eq_put (by simp) fun other hother => ?_
  rw [addChild, List.flatMap_append, List.flatMap_singleton]
  congr 1
  have hnewdir : entries other newdir.2 =
      put FileSystemFile.name (directory (T := T) second []).space (second :: third :: rest) node
        other := congrFun h.space other
  rw [hnewdir, put]
  cases other with
  | nil => exact absurd rfl hother
  | cons first others =>
      by_cases hfirst : first = second
      · subst hfirst
        cases others with
        | nil =>
            have hnone : none ∉ children.flatMap (entries [first]) := by
              intro hmem
              obtain ⟨child, hchild, hnone⟩ := List.mem_flatMap.mp hmem
              simp [none_mem_entries_iff, hnew child hchild] at hnone
            simp [made, space, entries_directory, entries_directory_self, hnone]
        | cons next others =>
            rw [made_cons (directory (T := T) first []).space (by simp) hother hpath]
            · simp [space, entries_directory]
            · simp [space, entries_directory, flatMap_entries_eq_nil hnew]
      · rw [made_eq_nil_of_not_above (by simp [hfirst]),
          made_eq_nil_of_not_above (by simp [hfirst]), space, entries_directory_of_ne hfirst]
        rfl

/-- On longer paths, the only directory of the name has everything. -/
theorem flatMap_entries_of_single {second third : String} {before after : List (FileSystemNode T)}
    (hbefore : ∀ child ∈ before, isDirectoryNamed (some second) child = false)
    (hafter : ∀ child ∈ after, isDirectoryNamed (some second) child = false) :
    (before ++ child :: after).flatMap (entries (second :: third :: rest)) =
      entries (second :: third :: rest) child := by
  rw [List.flatMap_append, List.flatMap_cons, flatMap_entries_eq_nil hbefore,
    flatMap_entries_eq_nil hafter, List.nil_append, List.append_nil]

/-- A directory that is already there. -/
theorem putNode_existing {second third : String} {before after : List (FileSystemNode T)}
    {visited : Option (FileSystemNode T) × FileSystemNode T}
    (hbefore : ∀ child ∈ before, isDirectoryNamed (some second) child = false)
    (hafter : ∀ child ∈ after, isDirectoryNamed (some second) child = false)
    (hchild : isDirectoryNamed (some second) child = true)
    (h : Puts node (second :: third :: rest) child visited) :
    Puts node (name :: second :: third :: rest) (directory name (before ++ child :: after))
      (visited.1, directory name (before ++ visited.2 :: after)) := by
  have hpath : (directory name (before ++ child :: after)).space
      (name :: second :: third :: rest) = child.space (second :: third :: rest) := by
    rw [space, entries_directory (by simp), flatMap_entries_of_single hbefore hafter, space]
  have hstores : Stores FileSystemFile.name (directory name (before ++ child :: after)).space
        (name :: second :: third :: rest) node ↔
      Stores FileSystemFile.name child.space (second :: third :: rest) node :=
    stores_cons_iff (by simp) hpath
  refine ⟨fun hs => h.stored (hstores.mp hs), fun hs => h.refused (mt hstores.mpr hs), ?_⟩
  refine space_directory_eq_put (by simp) fun other hother => ?_
  have hvisited : entries other visited.2 =
      put FileSystemFile.name child.space (second :: third :: rest) node other :=
    congrFun h.space other
  rw [put] at hvisited
  cases other with
  | nil => exact absurd rfl hother
  | cons first others =>
      by_cases hlong : first = second ∧ others ≠ []
      · obtain ⟨rfl, hothers⟩ := hlong
        obtain ⟨next, others, rfl⟩ := List.exists_cons_of_ne_nil hothers
        have hspace : (directory name (before ++ child :: after)).space
            (name :: first :: next :: others) = child.space (first :: next :: others) := by
          rw [space, entries_directory (by simp), flatMap_entries_of_single hbefore hafter, space]
        rw [made_cons child.space (by simp) hother hpath (by rw [hspace]),
          flatMap_entries_of_single hbefore hafter, flatMap_entries_of_single hbefore hafter,
          hvisited, space]
      · -- Nothing is made at the directory itself, nor beside the path.
        have hmade : made FileSystemFile.name child.space (second :: third :: rest) node
              (first :: others) = [] ∧
            made FileSystemFile.name (directory name (before ++ child :: after)).space
              (name :: second :: third :: rest) node (name :: first :: others) = [] := by
          by_cases hfirst : first = second
          · have hothers : others = [] := by simpa [hfirst] using hlong
            subst hfirst hothers
            have hnone : none ∈ child.space [first] := none_mem_entries_iff.mpr hchild
            have hmem : none ∈ (directory name (before ++ child :: after)).space [name, first] := by
              rw [space, entries_directory (by simp)]
              exact List.mem_flatMap_of_mem (by simp) hnone
            exact ⟨made_eq_nil_of_mem (by simp) hnone, made_eq_nil_of_mem (by simp) hmem⟩
          · exact ⟨made_eq_nil_of_not_above (by simp [hfirst]),
              made_eq_nil_of_not_above (by simp [hfirst])⟩
        rw [hmade.2, List.append_nil, List.flatMap_append, List.flatMap_append, List.flatMap_cons,
          List.flatMap_cons, hvisited, hmade.1, List.append_nil, space]

/-! ## The whole path -/

theorem not_directory_of_countP_eq_zero {second : String}
    (h : (children.flatMap (entries [second])).countP Option.isNone = 0) :
    ∀ child ∈ children, isDirectoryNamed (some second) child = false := by
  intro child hchild
  rw [← Bool.not_eq_true, ← none_mem_entries_iff]
  intro hnone
  exact List.countP_eq_zero.mp h none (List.mem_flatMap_of_mem hchild hnone) rfl

theorem countP_isNone_pos {second : String} (h : isDirectoryNamed (some second) child = true) :
    0 < (entries [second] child).countP Option.isNone :=
  List.countP_pos_iff.mpr ⟨none, none_mem_entries_iff.mpr h, rfl⟩

theorem singleDirectories_child (h : SingleDirectories (directory name children).space)
    (hchild : child ∈ children) : SingleDirectories child.space := by
  intro path
  cases path with
  | nil => simp [space, entries]
  | cons first others =>
      obtain ⟨before, after, rfl⟩ := List.append_of_mem hchild
      have hcount := h (name :: first :: others)
      rw [space, entries_directory (by simp), List.flatMap_append, List.flatMap_cons,
        List.countP_append, List.countP_append] at hcount
      rw [space]
      omega

theorem singleDirectories_empty (name : String) :
    SingleDirectories (directory (T := T) name []).space := by
  intro path
  cases path with
  | nil => simp [space, entries]
  | cons first rest =>
      rw [space, entries]
      split
      · simp
      · split <;> simp

/-- Of the directories that have a name, a directory has at most one. -/
theorem exists_single_directory {second : String}
    (hsingle : SingleDirectories (directory name children).space)
    (h : ∃ child ∈ children, isDirectoryNamed (some second) child = true) :
    ∃ before child after, children = before ++ child :: after ∧
      isDirectoryNamed (some second) child = true ∧
      (∀ child ∈ before, isDirectoryNamed (some second) child = false) ∧
      ∀ child ∈ after, isDirectoryNamed (some second) child = false := by
  obtain ⟨child, hmem, hchild⟩ := h
  obtain ⟨before, after, rfl⟩ := List.append_of_mem hmem
  have hcount := hsingle [name, second]
  rw [space, entries_directory (by simp), List.flatMap_append, List.flatMap_cons,
    List.countP_append, List.countP_append] at hcount
  have hpos := countP_isNone_pos hchild
  exact ⟨before, child, after, rfl, hchild, not_directory_of_countP_eq_zero (by omega),
    not_directory_of_countP_eq_zero (by omega)⟩

theorem putNode_root : putNode node [name] (directory name children) =
    (none, directory name children) := by
  have hidle : ∀ child ∈ children, putNode node [] child = (none, child) :=
    fun child _ => putNode_nil
  rw [putNode, if_neg (by simp), if_neg (by simp)]
  cases nodeHasAlreadyChildDirectoryWithSameName children [] <;>
    simp [firstResult_of_idle hidle]

theorem putNode_of_new {second third : String}
    (hnew : ∀ child ∈ children, isDirectoryNamed (some second) child = false) :
    putNode node (name :: second :: third :: rest) (directory name children) =
      ((putNode node (second :: third :: rest) (directory second [])).1,
        directory name (addChild children
          (putNode node (second :: third :: rest) (directory second [])).2)) := by
  have hnone : nodeHasAlreadyChildDirectoryWithSameName children
      (second :: third :: rest) = false := by
    simpa [nodeHasAlreadyChildDirectoryWithSameName] using hnew
  rw [putNode, if_neg (by simp), if_neg (by simp), hnone]
  rfl

theorem putNode_of_existing {second third : String} {before after : List (FileSystemNode T)}
    (hbefore : ∀ child ∈ before, isDirectoryNamed (some second) child = false)
    (hafter : ∀ child ∈ after, isDirectoryNamed (some second) child = false)
    (hchild : isDirectoryNamed (some second) child = true) :
    putNode node (name :: second :: third :: rest) (directory name (before ++ child :: after)) =
      ((putNode node (second :: third :: rest) child).1,
        directory name (before ++ (putNode node (second :: third :: rest) child).2 :: after)) := by
  have hsome : nodeHasAlreadyChildDirectoryWithSameName (before ++ child :: after)
      (second :: third :: rest) = true := by
    simp [nodeHasAlreadyChildDirectoryWithSameName, hchild]
  have hvisited : firstResult (putNode node (second :: third :: rest)) (before ++ child :: after) =
      ((putNode node (second :: third :: rest) child).1,
        before ++ (putNode node (second :: third :: rest) child).2 :: after) :=
    firstResult_of_single (fun child hmem => putNode_of_not_directory (hbefore child hmem))
      (fun child hmem => putNode_of_not_directory (hafter child hmem))
  rw [putNode, if_neg (by simp), if_neg (by simp), hsome]
  simp only [hvisited]

/-- `putNode` puts the file into the namespace of the directory. -/
theorem putNode_puts (hsingle : SingleDirectories (directory name children).space) :
    Puts node (name :: rest) (directory name children)
      (putNode node (name :: rest) (directory name children)) := by
  induction rest generalizing name children with
  | nil =>
      rw [putNode_root]
      have hstores : ¬ Stores FileSystemFile.name (directory name children).space [name] node :=
        fun h => absurd h.1 (by simp)
      exact ⟨fun h => absurd h hstores, fun _ => rfl, put_root.symm⟩
  | cons second rest ih =>
      cases rest with
      | nil => exact putNode_leaf
      | cons third rest =>
          by_cases hexists : ∃ child ∈ children, isDirectoryNamed (some second) child = true
          · obtain ⟨before, child, after, rfl, hchild, hbefore, hafter⟩ :=
              exists_single_directory hsingle hexists
            rw [putNode_of_existing hbefore hafter hchild]
            refine putNode_existing hbefore hafter hchild ?_
            have hchildSingle : SingleDirectories child.space :=
              singleDirectories_child hsingle (by simp)
            cases child with
            | file child => simp [isDirectoryNamed] at hchild
            | directory childName grandchildren =>
                have hname : childName = second := by simpa [isDirectoryNamed] using hchild
                subst hname
                exact ih hchildSingle
          · have hnew : ∀ child ∈ children, isDirectoryNamed (some second) child = false := by
              simpa using hexists
            rw [putNode_of_new hnew]
            exact putNode_new hnew (ih (singleDirectories_empty second))

theorem putNode_directory (node : FileSystemFile T) (pathParts : List String) (name : String)
    (children : List (FileSystemNode T)) : ∃ children',
      (putNode node pathParts (directory name children)).2 = directory name children' := by
  cases pathParts with
  | nil => exact ⟨children, by rw [putNode]⟩
  | cons firstPart rest =>
      rw [putNode]
      split
      · exact ⟨_, rfl⟩
      · split
        · split <;> exact ⟨_, rfl⟩
        · split <;> exact ⟨_, rfl⟩

end FileSystemNode

end Jayvee
