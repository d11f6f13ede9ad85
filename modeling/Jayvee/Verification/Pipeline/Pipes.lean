import Jayvee.Foundation.Digraph
import Jayvee.Model.PipelineWrapper
import Mathlib.Data.Set.Finite.List

/-! # The graph of a pipeline -/

namespace Jayvee

open Foundation

/-! ## Wrapped pipes -/

namespace PipeWrapper

@[simp] theorem equals_iff (p q : PipeWrapper) :
    p.equals q = true ↔ p.from = q.from ∧ p.to = q.to := by
  simp [equals]

theorem canBeWrapped_iff (pipe : PipeDefinition) (i : Nat) :
    canBeWrapped pipe i = true ↔
      ∃ a b, pipe.blocks[i]? = some (some a) ∧ pipe.blocks[i + 1]? = some (some b) := by
  constructor
  · intro h
    simp only [canBeWrapped, Bool.and_eq_true, decide_eq_true_eq, Option.isSome_iff_exists,
      Option.join_eq_some_iff] at h
    obtain ⟨⟨_, a, ha⟩, b, hb⟩ := h
    exact ⟨a, b, ha, hb⟩
  · rintro ⟨a, b, ha, hb⟩
    have hlt : i + 1 < pipe.blocks.length := (List.getElem?_eq_some_iff.mp hb).1
    simp only [canBeWrapped, hlt, ha, hb, Option.join_some]
    rfl

theorem wrap_eq_some_iff (pipe : PipeDefinition) (i : Nat) (w : PipeWrapper) :
    wrap pipe i = some w ↔ w.astNode = pipe ∧ w.chainIndex = i := by
  constructor
  · intro h
    unfold wrap at h
    split at h
    · cases h
      exact ⟨rfl, rfl⟩
    · cases h
  · rintro ⟨rfl, rfl⟩
    unfold wrap
    split
    · rename_i a b ha hb
      obtain ⟨astNode, chainIndex, a', b', ha', hb'⟩ := w
      cases ha.symm.trans ha'
      cases hb.symm.trans hb'
      rfl
    · rename_i hnot
      exact (hnot _ _ w.from_resolves w.to_resolves).elim

theorem mem_wrapAll (pipe : PipeDefinition) (w : PipeWrapper) :
    w ∈ wrapAll pipe ↔ w.astNode = pipe := by
  simp only [wrapAll, List.mem_filterMap, List.mem_range, wrap_eq_some_iff]
  constructor
  · rintro ⟨_, _, h, _⟩
    exact h
  · rintro rfl
    have hlt : w.chainIndex + 1 < w.astNode.blocks.length :=
      (List.getElem?_eq_some_iff.mp w.to_resolves).1
    exact ⟨w.chainIndex, by omega, rfl, rfl⟩

end PipeWrapper

namespace PipelineWrapper

/-! ## Edges, sources and reachable blocks -/

variable (this : PipelineWrapper)

/-- A pipe leads from `a` to `b`. -/
def Pipe (a b : BlockId) : Prop :=
  ∃ pipe ∈ this.allPipes, pipe.from = a ∧ pipe.to = b

/-- `block` is an end of some pipe. -/
def Occurs (block : BlockId) : Prop :=
  ∃ pipe ∈ this.allPipes, pipe.from = block ∨ pipe.to = block

/-- No two pipes connect the same blocks. -/
def NoEqualPipes : Prop :=
  this.allPipes.Pairwise fun p q => ¬ p.equals q

instance : Decidable this.NoEqualPipes :=
  inferInstanceAs (Decidable (List.Pairwise _ _))

variable {this}

theorem wrap_eq_ok_iff {pipesContainer : PipesContainer} :
    wrap pipesContainer = .ok this ↔
      canBeWrapped pipesContainer = true ∧ this = construct pipesContainer := by
  unfold wrap
  split
  · simp [*, eq_comm]
  · simp [*]

@[simp] theorem mem_getIngoingPipes {block : BlockId} {pipe : PipeWrapper} :
    pipe ∈ this.getIngoingPipes block ↔ pipe ∈ this.allPipes ∧ pipe.to = block := by
  simp [getIngoingPipes]

@[simp] theorem mem_getOutgoingPipes {block : BlockId} {pipe : PipeWrapper} :
    pipe ∈ this.getOutgoingPipes block ↔ pipe ∈ this.allPipes ∧ pipe.from = block := by
  simp [getOutgoingPipes]

@[simp] theorem mem_getChildBlocks {block child : BlockId} :
    child ∈ this.getChildBlocks block ↔ this.Pipe block child := by
  simp [getChildBlocks, Pipe, and_assoc]

@[simp] theorem mem_getParentBlocks {block parent : BlockId} :
    parent ∈ this.getParentBlocks block ↔ this.Pipe parent block := by
  simp only [getParentBlocks, List.mem_map, mem_getIngoingPipes, Pipe, and_assoc]
  exact exists_congr fun pipe => and_congr_right fun _ => and_comm

theorem Pipe.of_mem {pipe : PipeWrapper} (h : pipe ∈ this.allPipes) :
    this.Pipe pipe.from pipe.to :=
  ⟨pipe, h, rfl, rfl⟩

theorem Pipe.occurs_from {a b : BlockId} (h : this.Pipe a b) : this.Occurs a := by
  obtain ⟨pipe, hpipe, hfrom, _⟩ := h
  exact ⟨pipe, hpipe, .inl hfrom⟩

theorem Pipe.occurs_to {a b : BlockId} (h : this.Pipe a b) : this.Occurs b := by
  obtain ⟨pipe, hpipe, _, hto⟩ := h
  exact ⟨pipe, hpipe, .inr hto⟩

theorem Occurs.cases {block : BlockId} (h : this.Occurs block) :
    (∃ b, this.Pipe block b) ∨ (∃ a, this.Pipe a block) := by
  obtain ⟨pipe, hpipe, rfl | rfl⟩ := h
  · exact .inl ⟨_, Pipe.of_mem hpipe⟩
  · exact .inr ⟨_, Pipe.of_mem hpipe⟩

theorem getIngoingPipes_of_not_occurs {block : BlockId} (h : ¬ this.Occurs block) :
    this.getIngoingPipes block = [] := by
  apply List.eq_nil_iff_forall_not_mem.mpr
  intro pipe hpipe
  obtain ⟨hmem, hto⟩ := mem_getIngoingPipes.mp hpipe
  exact h ⟨pipe, hmem, .inr hto⟩

/-- A starting block is an end of a pipe that no pipe leads to. -/
theorem mem_getStartingBlocks {block : BlockId} :
    block ∈ this.getStartingBlocks ↔ this.Occurs block ∧ IsSource this.Pipe block := by
  simp only [getStartingBlocks, List.mem_eraseDups, List.mem_map, getStartingBlockPipes,
    List.mem_filter]
  constructor
  · rintro ⟨pipe, ⟨hpipe, hsource⟩, rfl⟩
    refine ⟨⟨pipe, hpipe, .inl rfl⟩, ?_⟩
    rintro a ⟨other, hother, _, hto⟩
    have hempty : ∀ p ∈ this.allPipes, p.to ≠ pipe.from := by simpa using hsource
    exact hempty other hother hto
  · rintro ⟨hoccurs, hsource⟩
    rcases hoccurs.cases with ⟨b, pipe, hpipe, rfl, _⟩ | ⟨a, h⟩
    · have hempty : ∀ p ∈ this.allPipes, p.to ≠ pipe.from :=
        fun p hp hto => hsource p.from ⟨p, hp, rfl, hto⟩
      exact ⟨pipe, ⟨hpipe, by simpa using hempty⟩, rfl⟩
    · exact (hsource a h).elim

private theorem nodup_eraseDups (xs : List BlockId) : xs.eraseDups.Nodup := by
  cases xs with
  | nil => exact List.nodup_nil
  | cons x xs =>
      rw [List.eraseDups_cons, List.nodup_cons]
      exact ⟨by simp, nodup_eraseDups _⟩
termination_by xs.length
decreasing_by exact Nat.lt_succ_of_le (List.length_filter_le ..)

theorem nodup_getStartingBlocks : this.getStartingBlocks.Nodup :=
  nodup_eraseDups _

/-- The blocks with an outgoing pipe are finitely many. -/
theorem finite_from : {a | ∃ b, this.Pipe a b}.Finite := by
  refine (List.finite_toSet (this.allPipes.map PipeWrapper.from)).subset ?_
  rintro a ⟨b, pipe, hpipe, rfl, _⟩
  exact List.mem_map_of_mem hpipe

/-- The blocks with an ingoing pipe are finitely many. -/
theorem finite_to : {b | ∃ a, this.Pipe a b}.Finite := by
  refine (List.finite_toSet (this.allPipes.map PipeWrapper.to)).subset ?_
  rintro b ⟨a, pipe, hpipe, _, rfl⟩
  exact List.mem_map_of_mem hpipe

/-! ## At most one ingoing pipe -/

/-- At most one pipe leads to each block. -/
def AtMostOneIngoingPipe (this : PipelineWrapper) : Prop :=
  ∀ block, (this.getIngoingPipes block).length ≤ 1

theorem AtMostOneIngoingPipe.noEqualPipes (h : this.AtMostOneIngoingPipe) :
    this.NoEqualPipes := by
  rw [NoEqualPipes, List.pairwise_iff_forall_sublist]
  intro p q hsublist hequals
  have hto : p.to = q.to := ((PipeWrapper.equals_iff p q).mp hequals).2
  have htwo : 2 ≤ (this.getIngoingPipes p.to).length := by
    simpa [getIngoingPipes, ← hto] using (hsublist.filter fun pipe => pipe.to == p.to).length_le
  have hone : (this.getIngoingPipes p.to).length ≤ 1 := h p.to
  omega

end PipelineWrapper

end Jayvee
