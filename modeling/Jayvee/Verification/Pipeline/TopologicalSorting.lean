import Jayvee.Verification.Pipeline.Pipes

/-! # Correctness of the topological sorting -/

namespace Jayvee.PipelineWrapper

open Foundation

variable {this : PipelineWrapper}

/-! ## One round -/

/-- All parents of `block` are in `done`. -/
def Ready (this : PipelineWrapper) (done : List BlockId) (block : BlockId) : Prop :=
  ∀ a, this.Pipe a block → a ∈ done

/-- The pipes that do not leave a block of `done`. -/
def pipesNotFrom (this : PipelineWrapper) (done : List BlockId) : List PipeWrapper :=
  this.allPipes.filter fun edge => edge.from ∉ done

/-- The pipes left over in the inner loop for `node`, after its children in `visited`. -/
private def pipesLeft (this : PipelineWrapper) (done : List BlockId) (node : BlockId)
    (visited : List BlockId) : List PipeWrapper :=
  this.allPipes.filter fun edge =>
    edge.from ∉ done ∧ ¬ (edge.from = node ∧ edge.to ∈ visited)

/-- Removing the pipes equal to one of `es`, one after the other. -/
private theorem foldl_filter_equals (es unvisited : List PipeWrapper) :
    es.foldl (fun unvisited e => unvisited.filter fun edge => !edge.equals e) unvisited =
      unvisited.filter fun edge => ¬ ∃ e ∈ es, edge.equals e = true := by
  induction es generalizing unvisited with
  | nil => simp
  | cons e es ih =>
      rw [List.foldl_cons, ih, List.filter_filter]
      refine List.filter_congr fun edge _ => ?_
      rw [Bool.eq_iff_iff]
      simp only [List.mem_cons, exists_eq_or_imp, not_or, Bool.decide_and, Bool.and_eq_true,
        decide_eq_true_eq, Bool.not_eq_true', Bool.not_eq_true]
      exact and_comm

private theorem visitChild_unvisited (done : List BlockId) (node child : BlockId)
    (visited : List BlockId) :
    ((this.getIngoingPipes child).filter fun e => e.from == node).foldl
        (fun unvisited e => unvisited.filter fun edge => !edge.equals e)
        (this.pipesLeft done node visited) =
      this.pipesLeft done node (visited ++ [child]) := by
  rw [foldl_filter_equals, pipesLeft, pipesLeft, List.filter_filter]
  refine List.filter_congr fun edge hedge => ?_
  have hsame : (∃ e ∈ (this.getIngoingPipes child).filter fun e => e.from == node,
      edge.equals e = true) ↔ edge.from = node ∧ edge.to = child := by
    constructor
    · rintro ⟨e, he, heq⟩
      simp only [List.mem_filter, mem_getIngoingPipes, beq_iff_eq] at he
      rw [PipeWrapper.equals_iff] at heq
      exact ⟨heq.1.trans he.2, heq.2.trans he.1.2⟩
    · rintro ⟨hfrom, hto⟩
      refine ⟨edge, ?_, by simp⟩
      simp [hedge, hfrom, hto]
  rw [Bool.eq_iff_iff]
  simp only [hsame, Bool.and_eq_true, decide_eq_true_eq, List.mem_append, List.mem_singleton]
  tauto

/-- A visited child has no pipe left exactly if all its parents are done. -/
private theorem visitChild_ready (done : List BlockId) (node child : BlockId)
    (visited : List BlockId) :
    ((this.getIngoingPipes child).filter fun e =>
        (this.pipesLeft done node (visited ++ [child])).any fun edge => edge.equals e).length = 0 ↔
      this.Ready (done ++ [node]) child := by
  rw [List.length_eq_zero_iff, List.filter_eq_nil_iff]
  constructor
  · rintro h a ⟨pipe, hpipe, rfl, hto⟩
    by_contra hnot
    simp only [List.mem_append, List.mem_singleton, not_or] at hnot
    refine h pipe (mem_getIngoingPipes.mpr ⟨hpipe, hto⟩) (List.any_eq_true.mpr ⟨pipe, ?_, by simp⟩)
    simp [pipesLeft, hpipe, hnot.1, hnot.2]
  · intro h e he hany
    obtain ⟨hmem, hto⟩ := mem_getIngoingPipes.mp he
    obtain ⟨edge, hedge, heq⟩ := List.any_eq_true.mp hany
    rw [PipeWrapper.equals_iff] at heq
    simp only [pipesLeft, List.mem_filter, decide_eq_true_eq] at hedge
    have hdone := h e.from ⟨e, hmem, rfl, hto⟩
    rw [← heq.1, List.mem_append, List.mem_singleton] at hdone
    rcases hdone with hdone | hnode
    · exact hedge.2.1 hdone
    · exact hedge.2.2 ⟨hnode, by simp [heq.2, hto]⟩

open Classical in
private theorem foldl_visitChild (done sorted : List BlockId) (node : BlockId)
    (children visited current : List BlockId) :
    children.foldl (this.visitChild node) ⟨sorted, current, this.pipesLeft done node visited⟩ =
      ⟨sorted, current ++ children.filter fun child => this.Ready (done ++ [node]) child,
        this.pipesLeft done node (visited ++ children)⟩ := by
  induction children generalizing visited current with
  | nil => simp
  | cons child children ih =>
      have hchild : this.visitChild node ⟨sorted, current, this.pipesLeft done node visited⟩ child =
          ⟨sorted, if this.Ready (done ++ [node]) child then current ++ [child] else current,
            this.pipesLeft done node (visited ++ [child])⟩ := by
        simp only [visitChild, visitChild_unvisited, visitChild_ready]
      rw [List.foldl_cons, hchild, ih]
      by_cases hready : this.Ready (done ++ [node]) child <;> simp [hready]

private theorem pipesNotFrom_eq_pipesLeft (done : List BlockId) (node : BlockId) :
    this.pipesNotFrom done = this.pipesLeft done node [] := by
  simp [pipesNotFrom, pipesLeft]

private theorem pipesLeft_children (done : List BlockId) (node : BlockId) :
    this.pipesLeft done node (this.getChildBlocks node) = this.pipesNotFrom (done ++ [node]) := by
  refine List.filter_congr fun edge hedge => ?_
  have hchild : edge.from = node → this.Pipe node edge.to := by
    rintro rfl
    exact Pipe.of_mem hedge
  simp only [mem_getChildBlocks, List.mem_append, List.mem_singleton, not_or, decide_eq_decide]
  tauto

open Classical in
/-- A round moves the top of the stack to the sorted nodes, marks all its outgoing pipes and
pushes those of its children whose parents are all sorted now. -/
theorem visitNode_eq_some_iff {sorted current : List BlockId} {t : SortingState} :
    this.visitNode ⟨sorted, current, this.pipesNotFrom sorted⟩ = some t ↔
      ∃ rest node, current = rest ++ [node] ∧
        t = ⟨sorted ++ [node],
          rest ++ (this.getChildBlocks node).filter fun child =>
            this.Ready (sorted ++ [node]) child,
          this.pipesNotFrom (sorted ++ [node])⟩ := by
  cases hlast : current.getLast? with
  | none =>
      rw [List.getLast?_eq_none_iff] at hlast
      simp [visitNode, hlast]
  | some node =>
      obtain ⟨rest, rfl⟩ := List.getLast?_eq_some_iff.mp hlast
      have hround : this.visitNode ⟨sorted, rest ++ [node], this.pipesNotFrom sorted⟩ =
          some ⟨sorted ++ [node],
            rest ++ (this.getChildBlocks node).filter fun child =>
              this.Ready (sorted ++ [node]) child,
            this.pipesNotFrom (sorted ++ [node])⟩ := by
        rw [pipesNotFrom_eq_pipesLeft sorted node, ← pipesLeft_children sorted node]
        simp [visitNode, foldl_visitChild]
      rw [hround]
      constructor
      · rintro ⟨⟩
        exact ⟨rest, node, rfl, rfl⟩
      · rintro ⟨rest', node', hcurrent, rfl⟩
        obtain ⟨rfl, hnode⟩ := List.append_inj' hcurrent rfl
        cases hnode
        rfl

/-! ## The loop invariant -/

/-- A topological sorting of the blocks that occur in a pipe. -/
structure IsTopologicalSorting (this : PipelineWrapper) (sorted : List BlockId) : Prop where
  nodup : sorted.Nodup
  mem_iff : ∀ block, block ∈ sorted ↔ this.Occurs block
  parent_before_child : ∀ a b, this.Pipe a b → sorted.idxOf a < sorted.idxOf b

/-- The sorted nodes and the stack are exactly the blocks whose parents are all sorted. -/
structure SortingInvariant (this : PipelineWrapper) (state : SortingState) : Prop where
  unvisited : state.unvisitedEdges = this.pipesNotFrom state.sortedNodes
  nodup : (state.sortedNodes ++ state.currentNodes).Nodup
  mem_iff : ∀ block, block ∈ state.sortedNodes ++ state.currentNodes ↔
    this.Occurs block ∧ this.Ready state.sortedNodes block
  ordered : ∀ a b, this.Pipe a b → b ∈ state.sortedNodes →
    state.sortedNodes.idxOf a < state.sortedNodes.idxOf b

theorem sortingInvariant_init :
    this.SortingInvariant ⟨[], this.getStartingBlocks, this.allPipes⟩ where
  unvisited := by simp [pipesNotFrom]
  nodup := by simpa using nodup_getStartingBlocks
  mem_iff := by simp [mem_getStartingBlocks, Ready, IsSource]
  ordered := by simp

private theorem nodup_getChildBlocks (hpipes : this.NoEqualPipes) (node : BlockId) :
    (this.getChildBlocks node).Nodup := by
  rw [getChildBlocks, List.Nodup, List.pairwise_map]
  refine (hpipes.filter _).imp_of_mem ?_
  intro p q hp hq hne hto
  have hp : p ∈ this.getOutgoingPipes node := hp
  have hq : q ∈ this.getOutgoingPipes node := hq
  rw [mem_getOutgoingPipes] at hp hq
  exact hne ((PipeWrapper.equals_iff p q).mpr ⟨hp.2.trans hq.2.symm, hto⟩)

theorem SortingInvariant.visitNode (hpipes : this.NoEqualPipes) {s t : SortingState}
    (h : this.SortingInvariant s) (hstep : this.visitNode s = some t) :
    this.SortingInvariant t ∧ t.sortedNodes.length = s.sortedNodes.length + 1 := by
  classical
  obtain ⟨sorted, current, unvisited⟩ := s
  obtain rfl : unvisited = this.pipesNotFrom sorted := h.unvisited
  obtain ⟨rest, node, rfl, rfl⟩ := visitNode_eq_some_iff.mp hstep
  have hmem := h.mem_iff
  have hnodup := h.nodup
  have hnode : node ∉ sorted := by
    intro hnode
    exact List.disjoint_of_nodup_append hnodup hnode (by simp)
  have hsplit : ∀ block, this.Ready (sorted ++ [node]) block ↔
      this.Ready sorted block ∨ (this.Pipe node block ∧ this.Ready (sorted ++ [node]) block) := by
    intro block
    constructor
    · intro hready
      by_cases hchild : this.Pipe node block
      · exact .inr ⟨hchild, hready⟩
      · refine .inl fun a ha => ?_
        rcases List.mem_append.mp (hready a ha) with ha' | ha'
        · exact ha'
        · cases List.mem_singleton.mp ha'
          exact (hchild ha).elim
    · rintro (hready | ⟨_, hready⟩)
      · exact fun a ha => List.mem_append_left _ (hready a ha)
      · exact hready
  refine ⟨⟨rfl, ?_, ?_, ?_⟩, by simp⟩
  · have hold : (sorted ++ [node] ++ rest).Nodup := by
      rw [List.append_assoc]
      exact (List.perm_append_comm.append_left sorted).nodup_iff.mp hnodup
    rw [← List.append_assoc, List.nodup_append']
    refine ⟨hold, (nodup_getChildBlocks hpipes node).filter _, ?_⟩
    intro block hblock hnew
    have hblock' : block ∈ sorted ++ (rest ++ [node]) := by
      simp only [List.mem_append] at hblock ⊢
      tauto
    simp only [List.mem_filter, mem_getChildBlocks] at hnew
    exact hnode (((hmem block).mp hblock').2 node hnew.1)
  · intro block
    have hold := hmem block
    have hoccurs : this.Pipe node block → this.Occurs block := Pipe.occurs_to
    rw [hsplit]
    simp only [List.mem_append, List.mem_singleton, List.mem_filter, mem_getChildBlocks,
      decide_eq_true_eq] at hold ⊢
    -- A child has an ingoing pipe, so it occurs.
    have hnew : this.Occurs block ∧ this.Pipe node block ∧ this.Ready (sorted ++ [node]) block ↔
        this.Pipe node block ∧ this.Ready (sorted ++ [node]) block :=
      and_iff_right_of_imp fun hchild => hoccurs hchild.1
    rw [and_or_left, ← hold, hnew]
    grind
  · intro a b hab hb
    by_cases hb' : b ∈ sorted
    · have hready : this.Ready sorted b := ((hmem b).mp (List.mem_append_left _ hb')).2
      rw [List.idxOf_append_of_mem (hready a hab), List.idxOf_append_of_mem hb']
      exact h.ordered a b hab hb'
    · have hbnode : b = node := by simpa [hb'] using hb
      subst hbnode
      have hready : this.Ready sorted b := ((hmem b).mp (by simp)).2
      rw [List.idxOf_append_of_mem (hready a hab), List.idxOf_append_of_notMem hb']
      have hlt : sorted.idxOf a < sorted.length := List.idxOf_lt_length_iff.mpr (hready a hab)
      omega

/-- The sorted nodes are distinct ends of pipes. -/
theorem SortingInvariant.length_le {s : SortingState} (h : this.SortingInvariant s) :
    s.sortedNodes.length ≤ 2 * this.allPipes.length := by
  have hnodup : s.sortedNodes.Nodup := (List.nodup_append'.mp h.nodup).1
  have hsub : s.sortedNodes ⊆ this.allPipes.map PipeWrapper.from ++
      this.allPipes.map PipeWrapper.to := by
    intro block hblock
    obtain ⟨pipe, hpipe, rfl | rfl⟩ := ((h.mem_iff block).mp (List.mem_append_left _ hblock)).1
    · exact List.mem_append_left _ (List.mem_map_of_mem hpipe)
    · exact List.mem_append_right _ (List.mem_map_of_mem hpipe)
  have hle := (hnodup.subperm hsub).length_le
  simp only [List.length_append, List.length_map] at hle
  omega

/-! ## The finished loop -/

theorem sortingLoop_spec (hpipes : this.NoEqualPipes) :
    ∃ state : SortingState,
      (∀ fuel, 2 * this.allPipes.length < fuel →
        whileLoop this.visitNode fuel ⟨[], this.getStartingBlocks, this.allPipes⟩ = some state) ∧
      this.SortingInvariant state ∧ state.currentNodes = [] := by
  have hstep : ∀ s t, this.SortingInvariant s → this.visitNode s = some t →
      this.SortingInvariant t ∧ 2 * this.allPipes.length - t.sortedNodes.length <
        2 * this.allPipes.length - s.sortedNodes.length := by
    intro s t hs hst
    obtain ⟨ht, hlen⟩ := hs.visitNode hpipes hst
    have hle := ht.length_le
    exact ⟨ht, by omega⟩
  obtain ⟨state, hstate⟩ := whileLoop_terminates hstep sortingInvariant_init
    (Nat.lt_succ_self _)
  obtain ⟨hinv, hdone⟩ := whileLoop_invariant (fun s t hs hst => (hstep s t hs hst).1)
    sortingInvariant_init hstate
  refine ⟨state, fun fuel hfuel => whileLoop_mono (by simpa [Nat.succ_le_iff] using hfuel) hstate,
    hinv, ?_⟩
  unfold visitNode at hdone
  split at hdone
  · rename_i hlast
    exact List.getLast?_eq_none_iff.mp hlast
  · cases hdone

/-- Where the stack is empty, no pipe is left exactly if the sorted nodes are a topological
sorting. -/
theorem SortingInvariant.isTopologicalSorting_iff {state : SortingState}
    (h : this.SortingInvariant state) (hempty : state.currentNodes = []) :
    state.unvisitedEdges = [] ↔ this.IsTopologicalSorting state.sortedNodes := by
  have hnodup := h.nodup
  have hmem := h.mem_iff
  simp only [hempty, List.append_nil] at hnodup hmem
  rw [h.unvisited, pipesNotFrom, List.filter_eq_nil_iff]
  simp only [decide_eq_true_eq, not_not]
  constructor
  · intro hvisited
    have hready : ∀ block, this.Ready state.sortedNodes block := by
      rintro block a ⟨pipe, hpipe, rfl, _⟩
      exact hvisited pipe hpipe
    have hmem_iff : ∀ block, block ∈ state.sortedNodes ↔ this.Occurs block := by
      intro block
      rw [hmem]
      exact and_iff_left (hready block)
    exact ⟨hnodup, hmem_iff,
      fun a b hab => h.ordered a b hab ((hmem_iff b).mpr hab.occurs_to)⟩
  · intro hsorting pipe hpipe
    exact (hsorting.mem_iff pipe.from).mpr (Pipe.of_mem hpipe).occurs_from

theorem IsTopologicalSorting.acyclic {sorted : List BlockId}
    (h : this.IsTopologicalSorting sorted) : Acyclic this.Pipe :=
  acyclic_of_rank sorted.idxOf h.parent_before_child

/-- Without cycles, every block is sorted once its parents are: no block is left out. -/
theorem SortingInvariant.isTopologicalSorting_of_acyclic {state : SortingState}
    (h : this.SortingInvariant state) (hempty : state.currentNodes = [])
    (hacyclic : Acyclic this.Pipe) : this.IsTopologicalSorting state.sortedNodes := by
  have hmem := h.mem_iff
  simp only [hempty, List.append_nil] at hmem
  have hsorted : ∀ block, this.Occurs block → block ∈ state.sortedNodes := by
    intro block
    induction block using (hacyclic.wellFounded finite_from).induction with
    | _ block ih =>
        intro hoccurs
        exact (hmem block).mpr ⟨hoccurs, fun a ha => ih a ha ha.occurs_from⟩
  rw [← h.isTopologicalSorting_iff hempty, h.unvisited, pipesNotFrom, List.filter_eq_nil_iff]
  intro pipe hpipe
  simpa using hsorted pipe.from (Pipe.of_mem hpipe).occurs_from

/-- The outcome of the sorting, once the fuel exceeds the number of ends of pipes. -/
theorem getBlocksInTopologicalSorting_spec (hpipes : this.NoEqualPipes) :
    ∃ result : Except JsError (List BlockId),
      (∀ fuel, 2 * this.allPipes.length < fuel →
        this.getBlocksInTopologicalSorting fuel = some result) ∧
      (Acyclic this.Pipe → ∃ sorted, result = .ok sorted ∧ this.IsTopologicalSorting sorted) ∧
      (¬ Acyclic this.Pipe → ∃ message, result = .error (.assertionError message)) := by
  obtain ⟨state, hloop, hinv, hempty⟩ := sortingLoop_spec hpipes
  have hresult : ∀ fuel, 2 * this.allPipes.length < fuel →
      this.getBlocksInTopologicalSorting fuel = some
        (if state.unvisitedEdges.length = 0 then .ok state.sortedNodes else .error
          (.assertionError s!"The pipeline {this.astNode.name} is expected to have no cycles")) := by
    intro fuel hfuel
    rw [getBlocksInTopologicalSorting, hloop fuel hfuel]
    rfl
  refine ⟨_, hresult, ?_, ?_⟩
  · intro hacyclic
    have hsorting := hinv.isTopologicalSorting_of_acyclic hempty hacyclic
    have hnil := (hinv.isTopologicalSorting_iff hempty).mpr hsorting
    exact ⟨state.sortedNodes, by simp [hnil], hsorting⟩
  · intro hcycle
    have hleft : state.unvisitedEdges ≠ [] :=
      fun hnil => hcycle ((hinv.isTopologicalSorting_iff hempty).mp hnil).acyclic
    exact ⟨_, by rw [if_neg (by simpa using hleft)]⟩

/-- Sorting terminates, sorts the blocks of every acyclic pipeline, and throws exactly on
cycles. -/
theorem getBlocksInTopologicalSorting_correct (this : PipelineWrapper)
    (hpipes : this.NoEqualPipes) :
    ∃ result : Except JsError (List BlockId),
      (∀ fuel, 2 * this.allPipes.length < fuel →
        this.getBlocksInTopologicalSorting fuel = some result) ∧
      (Acyclic this.Pipe → ∃ sorted, result = .ok sorted ∧ this.IsTopologicalSorting sorted) ∧
      ((∃ error, result = .error error) ↔ ∃ block, Relation.TransGen this.Pipe block block) := by
  obtain ⟨result, hresult, hsorted, hthrows⟩ := getBlocksInTopologicalSorting_spec hpipes
  refine ⟨result, hresult, hsorted, ?_⟩
  rw [← not_acyclic_iff]
  constructor
  · rintro ⟨error, rfl⟩ hacyclic
    obtain ⟨sorted, hok, _⟩ := hsorted hacyclic
    cases hok
  · intro hcycle
    obtain ⟨message, rfl⟩ := hthrows hcycle
    exact ⟨_, rfl⟩

/-- Two paths from a common block that meet again. -/
def diamond : PipelineWrapper :=
  construct <| .pipeline {
    name := "Diamond"
    blocks := [0, 1, 2, 3]
    pipes := [⟨[some 0, some 1, some 3]⟩, ⟨[some 0, some 2, some 3]⟩]
    transforms := []
    valueTypes := []
    constraints := [] }

theorem getBlocksInTopologicalSorting_diamond :
    diamond.NoEqualPipes ∧
    ∃ result : Except JsError (List BlockId),
      (∀ fuel, 2 * diamond.allPipes.length < fuel →
        diamond.getBlocksInTopologicalSorting fuel = some result) ∧
      (Acyclic diamond.Pipe →
        ∃ sorted, result = .ok sorted ∧ diamond.IsTopologicalSorting sorted) ∧
      ((∃ error, result = .error error) ↔
        ∃ block, Relation.TransGen diamond.Pipe block block) :=
  ⟨by decide, getBlocksInTopologicalSorting_correct diamond (by decide)⟩

example : diamond.getBlocksInTopologicalSorting 9 = some (.ok [0, 2, 1, 3]) := rfl

end Jayvee.PipelineWrapper
