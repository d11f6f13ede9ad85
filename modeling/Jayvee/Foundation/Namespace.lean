import Mathlib.Data.List.Basic

/-! # Namespaces

A tree of directories and files, seen from its paths: every path has the entries that were made
there, the earliest first. A directory and a file may have the same path. -/

namespace Jayvee.Foundation

/-- An entry is a file or, as `none`, a directory. -/
abbrev Namespace (N F : Type) := List N → List (Option F)

namespace Namespace

variable {N F : Type} (nameOf : F → N)

/-- The earliest entry hides the others. -/
def get (space : Namespace N F) (path : List N) : Option F :=
  (space path).head?.join

/-- A file is stored in a directory, under its own name, and beside no other file. -/
def Stores (space : Namespace N F) (path : List N) (file : F) : Prop :=
  1 < path.length ∧ path.getLast? = some (nameOf file) ∧ ∀ entry ∈ space path, entry = none

open Classical in
/-- What putting a file makes at a path: the file, or a directory above it. -/
noncomputable def made (space : Namespace N F) (path : List N) (file : F) (other : List N) :
    List (Option F) :=
  if other = path then
    if Stores nameOf space path file then [some file] else []
  else if other ≠ [] ∧ other <+: path ∧ none ∉ space other then
    [none]
  else
    []

/-- The directories are made even if the file is not stored. -/
noncomputable def put (space : Namespace N F) (path : List N) (file : F) : Namespace N F :=
  fun other => space other ++ made nameOf space path file other

variable {nameOf} {space : Namespace N F} {path other : List N} {file : F}

/-! ## One file -/

theorem made_self_of_stores (h : Stores nameOf space path file) :
    made nameOf space path file path = [some file] := by
  rw [made, if_pos rfl, if_pos h]

theorem made_self_of_not_stores (h : ¬ Stores nameOf space path file) :
    made nameOf space path file path = [] := by
  rw [made, if_pos rfl, if_neg h]

theorem made_of_ne (h : other ≠ path) : made nameOf space path file other = [none] ∨
    made nameOf space path file other = [] := by
  rw [made, if_neg h]
  split
  · exact Or.inl rfl
  · exact Or.inr rfl

theorem made_eq_nil_of_not_above (h : ¬ other <+: path) :
    made nameOf space path file other = [] := by
  have hne : other ≠ path := fun heq => h (heq ▸ List.prefix_refl _)
  rw [made, if_neg hne, if_neg (fun hmade => h hmade.2.1)]

theorem made_eq_nil_of_mem (hne : other ≠ path) (h : none ∈ space other) :
    made nameOf space path file other = [] := by
  rw [made, if_neg hne, if_neg (fun hmade => hmade.2.2 h)]

theorem mem_put_of_mem {entry : Option F} (h : entry ∈ space other) :
    entry ∈ put nameOf space path file other :=
  List.mem_append_left _ h

theorem mem_put_self (h : Stores nameOf space path file) :
    some file ∈ put nameOf space path file path := by
  rw [put, made_self_of_stores h]
  exact List.mem_append_right _ List.mem_cons_self

theorem not_stores_of_mem {stored : F} (h : some stored ∈ space path) :
    ¬ Stores nameOf space path file :=
  fun hstores => Option.some_ne_none _ (hstores.2.2 _ h)

/-- Nothing is put in the place of the root. -/
theorem put_root {root : N} : put nameOf space [root] file = space := by
  have hstores : ¬ Stores nameOf space [root] file := fun h => absurd h.1 (by simp)
  funext other
  rw [put, made]
  by_cases hroot : other = [root]
  · rw [if_pos hroot, if_neg hstores, List.append_nil]
  · have hnothing : ¬ (other ≠ [] ∧ other <+: [root] ∧ none ∉ space other) := by
      rintro ⟨hne, habove, _⟩
      cases List.prefix_cons_iff.mp habove with
      | inl hnil => exact hne hnil
      | inr hcons =>
          obtain ⟨rest, rfl, hrest⟩ := hcons
          exact hroot (by rw [List.prefix_nil.mp hrest])
    rw [if_neg hroot, if_neg hnothing, List.append_nil]

/-- A stored file can be read back unless a directory hides it. -/
theorem get_put_self_iff (h : Stores nameOf space path file) :
    (put nameOf space path file).get path = some file ↔ none ∉ space path := by
  rw [get, put, made_self_of_stores h]
  cases hentries : space path with
  | nil => simp
  | cons entry entries =>
      have hentry : entry = none := h.2.2 entry (hentries ▸ List.mem_cons_self)
      simp [hentry]

theorem get_put_of_ne (h : other ≠ path) :
    (put nameOf space path file).get other = space.get other := by
  rw [get, get, put]
  cases hentries : space other with
  | cons entry entries => rfl
  | nil =>
      have hmade : made nameOf space path file other = [none] ∨
          made nameOf space path file other = [] := made_of_ne h
      cases hmade with
      | inl hmade => rw [hmade]; rfl
      | inr hmade => rw [hmade]; rfl

/-- Directories are made at every path that lies strictly above. -/
theorem none_mem_put_iff : none ∈ put nameOf space path file other ↔
    none ∈ space other ∨ other ≠ [] ∧ other <+: path ∧ other ≠ path := by
  rw [put, List.mem_append, made]
  by_cases heq : other = path
  · by_cases hstores : Stores nameOf space path file <;> simp [heq, hstores]
  · by_cases hmem : none ∈ space other <;> simp [heq, hmem]

/-! ## Subdirectories -/

/-- A file is stored in a directory exactly if the subdirectory on its way stores it. -/
theorem stores_cons_iff {subspace : Namespace N F} {n : N} (hlength : 1 < path.length)
    (hpath : space (n :: path) = subspace path) :
    Stores nameOf space (n :: path) file ↔ Stores nameOf subspace path file := by
  have hlast : (n :: path).getLast? = path.getLast? := by
    cases path with
    | nil => simp at hlength
    | cons first rest => rw [List.getLast?_cons_cons]
  have hlonger : 1 < (n :: path).length := by
    rw [List.length_cons]
    omega
  rw [Stores, Stores, hlast, hpath]
  exact and_congr_left fun _ => iff_of_true hlonger hlength

theorem made_cons (subspace : Namespace N F) {n : N} (hlength : 1 < path.length)
    (hother : other ≠ []) (hpath : space (n :: path) = subspace path)
    (hnone : none ∈ space (n :: other) ↔ none ∈ subspace other) :
    made nameOf space (n :: path) file (n :: other) = made nameOf subspace path file other := by
  classical
  have habove : (n :: other ≠ [] ∧ n :: other <+: n :: path ∧ none ∉ space (n :: other)) ↔
      other ≠ [] ∧ other <+: path ∧ none ∉ subspace other := by
    simp [hother, hnone]
  rw [made, made]
  exact if_congr (by simp) (if_congr (stores_cons_iff hlength hpath) rfl rfl)
    (if_congr habove rfl rfl)

/-! ## Single directories -/

/-- No path has two directories. -/
def SingleDirectories (space : Namespace N F) : Prop :=
  ∀ path, (space path).countP Option.isNone ≤ 1

theorem SingleDirectories.put (h : SingleDirectories space) :
    SingleDirectories (put nameOf space path file) := by
  intro other
  rw [Namespace.put, List.countP_append, made]
  by_cases heq : other = path
  · rw [if_pos heq]
    split <;> simpa using h other
  · rw [if_neg heq]
    split
    · rename_i hmade
      have hzero : (space other).countP Option.isNone = 0 := by
        rw [List.countP_eq_zero]
        intro entry hentry hnone
        exact hmade.2.2 (Option.isNone_iff_eq_none.mp hnone ▸ hentry)
      simp [hzero]
    · simpa using h other

/-! ## Observations -/

/-- What is read and what can be stored is the same in both, although directories may differ. -/
structure Indistinguishable (space other : Namespace N F) : Prop where
  earliest : ∀ path, (space path).head? = (other path).head?
  files : ∀ path file, some file ∈ space path ↔ some file ∈ other path

namespace Indistinguishable

variable {space' : Namespace N F}

theorem get (h : Indistinguishable space space') (path : List N) :
    space.get path = space'.get path := by
  rw [Namespace.get, Namespace.get, h.earliest path]

theorem stores (h : Indistinguishable space space') :
    Stores nameOf space path file ↔ Stores nameOf space' path file := by
  have hfree : ∀ {space : Namespace N F}, (∀ entry ∈ space path, entry = none) ↔
      ∀ stored, some stored ∉ space path := by
    intro space
    constructor
    · intro hnone stored hmem
      exact Option.some_ne_none stored (hnone _ hmem)
    · intro hfiles entry hentry
      cases entry with
      | none => rfl
      | some stored => exact absurd hentry (hfiles stored)
  simp only [Stores, hfree, h.files]

/-- Entries that are made beside others stay hidden. -/
theorem head?_append {entries entries' new new' : List (Option F)}
    (h : entries.head? = entries'.head?) (hnew : entries = [] → entries' = [] → new = new') :
    (entries ++ new).head? = (entries' ++ new').head? := by
  cases entries with
  | nil =>
      have hnil : entries' = [] := List.head?_eq_none_iff.mp h.symm
      rw [hnil, hnew rfl hnil]
  | cons entry entries =>
      cases entries' with
      | nil => simp at h
      | cons entry' entries' => simpa using h

theorem some_mem_made_iff {stored : F} : some stored ∈ made nameOf space path file other ↔
    other = path ∧ Stores nameOf space path file ∧ stored = file := by
  rw [made]
  split
  · rename_i hother
    split
    · rename_i hstores
      simp [hother, hstores]
    · rename_i hstores
      simp [hstores]
  · rename_i hother
    split <;> simp [hother]

theorem put (h : Indistinguishable space space') (path : List N) (file : F) :
    Indistinguishable (put nameOf space path file) (put nameOf space' path file) := by
  classical
  refine ⟨fun other => head?_append (h.earliest other) fun hnil hnil' => ?_, fun other stored => ?_⟩
  · rw [made, made, hnil, hnil']
    exact if_congr Iff.rfl (if_congr h.stores rfl rfl) rfl
  · rw [Namespace.put, Namespace.put, List.mem_append, List.mem_append, h.files other stored,
      some_mem_made_iff, some_mem_made_iff, h.stores]

end Indistinguishable

/-- A put that stores nothing is not seen if something is at every path above. -/
theorem indistinguishable_put (hstores : ¬ Stores nameOf space path file)
    (habove : ∀ above, above ≠ [] → above <+: path → above ≠ path → space above ≠ []) :
    Indistinguishable (put nameOf space path file) space := by
  refine ⟨fun other => ?_, fun other stored => ?_⟩
  · rw [put]
    cases hentries : space other with
    | cons entry entries => rfl
    | nil =>
        have hmade : made nameOf space path file other = [] := by
          by_cases heq : other = path
          · rw [heq, made_self_of_not_stores hstores]
          · rw [made, if_neg heq]
            exact if_neg fun h => habove other h.1 h.2.1 heq hentries
        rw [hmade, List.append_nil]
  · rw [put, List.mem_append, Indistinguishable.some_mem_made_iff]
    simp [hstores]

/-- A directory that is made hides the file that is put in its place later. -/
theorem get_put_put_of_made (habove : other <+: path) (hne : other ≠ path)
    (hlength : 1 < other.length) (hempty : space other = []) {hidden : F}
    (hname : other.getLast? = some (nameOf hidden)) :
    (put nameOf space other hidden).get other = some hidden ∧
      (put nameOf (put nameOf space path file) other hidden).get other = none := by
  have hother : other ≠ [] := by
    rintro rfl
    simp at hlength
  have hmade : put nameOf space path file other = [none] := by
    rw [put, hempty, made, if_neg hne, if_pos ⟨hother, habove, by simp [hempty]⟩, List.nil_append]
  constructor
  · have hstores : Stores nameOf space other hidden := ⟨hlength, hname, by simp [hempty]⟩
    rw [get_put_self_iff hstores, hempty]
    exact List.not_mem_nil
  · rw [get, put, hmade]
    rfl

/-! ## Runs -/

variable (nameOf) in
/-- Puts files, one after the other. -/
noncomputable def puts (space : Namespace N F) (calls : List (List N × F)) : Namespace N F :=
  calls.foldl (fun space call => put nameOf space call.1 call.2) space

theorem mem_puts_of_mem {calls : List (List N × F)} {entry : Option F}
    (h : entry ∈ space path) : entry ∈ puts nameOf space calls path := by
  induction calls generalizing space with
  | nil => exact h
  | cons call calls ih => exact ih (mem_put_of_mem h)

/-- The directories that a run makes are those above its paths, whichever files it stores. -/
theorem none_mem_puts_iff {calls : List (List N × F)} : none ∈ puts nameOf space calls path ↔
    none ∈ space path ∨ ∃ call ∈ calls, path ≠ [] ∧ path <+: call.1 ∧ path ≠ call.1 := by
  induction calls generalizing space with
  | nil => simp [puts]
  | cons call calls ih =>
      have hrest : puts nameOf space (call :: calls) =
          puts nameOf (put nameOf space call.1 call.2) calls := rfl
      rw [hrest, ih, none_mem_put_iff, List.exists_mem_cons_iff, or_assoc]

/-! ## Runs that store every file -/

variable (nameOf) in
/-- Every file is stored when it is put. -/
def AllStored : (space : Namespace N F) → (calls : List (List N × F)) → Prop
  | _, [] => True
  | space, call :: calls =>
      Stores nameOf space call.1 call.2 ∧ AllStored (put nameOf space call.1 call.2) calls

theorem stores_put_iff {file' : F} (hstores : Stores nameOf space path file) :
    Stores nameOf (put nameOf space path file) other file' ↔
      Stores nameOf space other file' ∧ path ≠ other := by
  constructor
  · intro h
    refine ⟨⟨h.1, h.2.1, fun entry hentry => h.2.2 entry (mem_put_of_mem hentry)⟩, ?_⟩
    rintro rfl
    exact Option.some_ne_none _ (h.2.2 _ (mem_put_self hstores))
  · rintro ⟨h, hne⟩
    refine ⟨h.1, h.2.1, fun entry hentry => ?_⟩
    rcases List.mem_append.mp hentry with hentry | hentry
    · exact h.2.2 entry hentry
    · have hmades : made nameOf space path file other = [none] ∨
          made nameOf space path file other = [] := made_of_ne hne.symm
      rcases hmades with hmade | hmade
      · rw [hmade] at hentry
        exact List.mem_singleton.mp hentry
      · rw [hmade] at hentry
        cases hentry

/-- A run stores every file exactly if each could be stored at first, and the paths differ. -/
theorem allStored_iff {calls : List (List N × F)} : AllStored nameOf space calls ↔
    (∀ call ∈ calls, Stores nameOf space call.1 call.2) ∧ (calls.map Prod.fst).Nodup := by
  induction calls generalizing space with
  | nil => simp [AllStored]
  | cons call calls ih =>
      rw [AllStored, ih, List.forall_mem_cons, List.map_cons, List.nodup_cons, and_assoc]
      refine and_congr_right fun hstores => ?_
      simp only [stores_put_iff hstores, List.mem_map, not_exists, not_and]
      constructor
      · rintro ⟨hall, hnodup⟩
        exact ⟨fun other hother => (hall other hother).1,
          fun other hother heq => (hall other hother).2 heq.symm, hnodup⟩
      · rintro ⟨hall, hne, hnodup⟩
        exact ⟨fun other hother => ⟨hall other hother, fun heq => hne other hother heq.symm⟩,
          hnodup⟩

/-- What is seen at a path stays what it is. -/
theorem get_puts_of_ne_nil {calls : List (List N × F)} (h : space path ≠ []) :
    (puts nameOf space calls).get path = space.get path := by
  induction calls generalizing space with
  | nil => rfl
  | cons call calls ih =>
      have hput : put nameOf space call.1 call.2 path ≠ [] := by simp [put, h]
      refine (ih hput).trans ?_
      rw [get, get, put, List.head?_append_of_ne_nil _ h]

/-- The first file that was put at or below the path is seen there, if it is at the path. -/
def firstAt [DecidableEq N] (calls : List (List N × F)) (path : List N) : Option F :=
  (calls.find? fun call => decide (path <+: call.1)).bind fun call =>
    if call.1 = path then some call.2 else none

theorem get_puts [DecidableEq N] {calls : List (List N × F)}
    (h : AllStored nameOf space calls) (hpath : path ≠ []) (hempty : space path = []) :
    (puts nameOf space calls).get path = firstAt calls path := by
  induction calls generalizing space with
  | nil => rw [puts, List.foldl_nil, get, hempty, firstAt, List.find?_nil]; rfl
  | cons call calls ih =>
      obtain ⟨hstores, hrest⟩ := h
      by_cases hbelow : path <+: call.1
      · rw [firstAt, List.find?_cons_of_pos (by simpa using hbelow), Option.bind_some]
        have hput : put nameOf space call.1 call.2 path =
            made nameOf space call.1 call.2 path := by rw [put, hempty, List.nil_append]
        by_cases heq : call.1 = path
        · subst heq
          rw [made_self_of_stores hstores] at hput
          have hne : put nameOf space call.1 call.2 call.1 ≠ [] := by simp [hput]
          refine (get_puts_of_ne_nil hne).trans ?_
          rw [get, hput, if_pos rfl]
          rfl
        · have hmade : made nameOf space call.1 call.2 path = [none] := by
            rw [made, if_neg (Ne.symm heq), if_pos ⟨hpath, hbelow, by simp [hempty]⟩]
          rw [hmade] at hput
          have hne : put nameOf space call.1 call.2 path ≠ [] := by simp [hput]
          refine (get_puts_of_ne_nil hne).trans ?_
          rw [get, hput, if_neg heq]
          rfl
      · rw [firstAt, List.find?_cons_of_neg (by simpa using hbelow), ← firstAt]
        have hput : put nameOf space call.1 call.2 path = [] := by
          rw [put, hempty, made_eq_nil_of_not_above hbelow, List.nil_append]
        exact ih hrest hput

end Namespace

end Jayvee.Foundation
