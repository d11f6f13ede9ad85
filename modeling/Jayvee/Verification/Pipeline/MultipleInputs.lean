import Jayvee.Model.PipelineValidation
import Jayvee.Verification.Pipeline.Pipes

/-! # The walk that looks for blocks with multiple inputs -/

namespace Jayvee

open Foundation Relation

variable {ast : Ast} {this : PipelineWrapper}

/-! ## Termination -/

theorem doCheckMultipleBlockInputs_succ (fuel : Nat) (marked : List PipeWrapper)
    (block : BlockId) :
    doCheckMultipleBlockInputs ast this (fuel + 1) marked block =
      checkIngoingPipes ast (this.getIngoingPipes block) marked >>= fun marked =>
        (this.getChildBlocks block).foldlM (doCheckMultipleBlockInputs ast this fuel) marked :=
  rfl

/-- A walk that finished is unchanged by more fuel. -/
theorem doCheckMultipleBlockInputs_mono {fuel fuel' : Nat} (hle : fuel ≤ fuel')
    (marked : List PipeWrapper) (block : BlockId) :
    Exec.Approximates (doCheckMultipleBlockInputs ast this fuel marked block)
      (doCheckMultipleBlockInputs ast this fuel' marked block) := by
  induction fuel generalizing fuel' marked block with
  | zero => exact Exec.Approximates.diverge _
  | succ fuel ih =>
      obtain ⟨fuel', rfl⟩ : ∃ k, fuel' = k + 1 := ⟨fuel' - 1, by omega⟩
      rw [doCheckMultipleBlockInputs_succ, doCheckMultipleBlockInputs_succ]
      refine Exec.Approximates.bind (Exec.Approximates.refl _) fun marked => ?_
      exact Exec.Approximates.foldlM (ih (by omega)) _ _

theorem checkIngoingPipes_returns (pipesFromParents marked : List PipeWrapper)
    (diagnostics : List Diagnostic) :
    ∃ marked' diagnostics', checkIngoingPipes ast pipesFromParents marked diagnostics =
      some (.ok marked', diagnostics') := by
  unfold checkIngoingPipes
  split
  · refine Exec.foldlM_returns _ (fun pipe _ marked diagnostics => ?_) _ _
    unfold markPipe
    split <;> exact ⟨_, _, rfl⟩
  · exact ⟨_, _, rfl⟩

/-- The walk from `block` returns whatever was marked before. -/
def WalkReturns (ast : Ast) (this : PipelineWrapper) (fuel : Nat) (block : BlockId) : Prop :=
  ∀ marked diagnostics, ∃ marked' diagnostics',
    doCheckMultipleBlockInputs ast this fuel marked block diagnostics =
      some (.ok marked', diagnostics')

theorem WalkReturns.mono {fuel fuel' : Nat} {block : BlockId} (hle : fuel ≤ fuel')
    (h : WalkReturns ast this fuel block) : WalkReturns ast this fuel' block := by
  intro marked diagnostics
  obtain ⟨marked', diagnostics', hwalk⟩ := h marked diagnostics
  exact ⟨marked', diagnostics', doCheckMultipleBlockInputs_mono hle _ _ _ _ hwalk⟩

/-- The walk returns if the walks from all children do. -/
theorem WalkReturns.of_children {fuel : Nat} {block : BlockId}
    (hchildren : ∀ child ∈ this.getChildBlocks block, WalkReturns ast this fuel child) :
    WalkReturns ast this (fuel + 1) block := by
  intro marked diagnostics
  obtain ⟨marked', diagnostics', hmark⟩ :=
    checkIngoingPipes_returns (this.getIngoingPipes block) marked diagnostics
  rw [doCheckMultipleBlockInputs_succ, Exec.bind_of_ok hmark]
  exact Exec.foldlM_returns _ hchildren _ _

theorem exists_fuel_walkReturns {block : BlockId} (hacc : Acc (Function.swap this.Pipe) block) :
    ∃ fuel, WalkReturns ast this fuel block := by
  induction hacc with
  | intro block _ ih =>
      obtain ⟨fuel, hfuel⟩ := Exec.exists_fuel_forall_mem (P := WalkReturns ast this)
        (fun _ _ _ => WalkReturns.mono) (this.getChildBlocks block)
        fun child hchild => ih child (PipelineWrapper.mem_getChildBlocks.mp hchild)
      exact ⟨fuel + 1, WalkReturns.of_children hfuel⟩

/-- A walk that returned has followed every path to its end. -/
theorem acc_of_doCheckMultipleBlockInputs {fuel : Nat} {marked marked' : List PipeWrapper}
    {block : BlockId} {diagnostics diagnostics' : List Diagnostic}
    (h : doCheckMultipleBlockInputs ast this fuel marked block diagnostics =
      some (.ok marked', diagnostics')) : Acc (Function.swap this.Pipe) block := by
  induction fuel generalizing marked marked' block diagnostics diagnostics' with
  | zero => cases h
  | succ fuel ih =>
      rw [doCheckMultipleBlockInputs_succ] at h
      obtain ⟨_, _, _, hchildren⟩ := Exec.bind_eq_ok_iff.mp h
      refine Acc.intro block fun child hchild => ?_
      obtain ⟨_, _, _, _, hwalk⟩ := Exec.returns_of_foldlM hchildren child
        (PipelineWrapper.mem_getChildBlocks.mpr hchild)
      exact ih hwalk

/-- The blocks that the walk visits. -/
def PipelineWrapper.Reachable (this : PipelineWrapper) (block : BlockId) : Prop :=
  ReachableFrom this.Pipe {start | start ∈ this.getStartingBlocks} block

theorem PipelineWrapper.Reachable.pipe {a b : BlockId} (ha : this.Reachable a)
    (hab : this.Pipe a b) : this.Reachable b := by
  obtain ⟨start, hstart, hpath⟩ := ha
  exact ⟨start, hstart, hpath.tail hab⟩

/-- Without a reachable cycle, every path from a reachable block ends. -/
theorem acc_of_no_reachable_cycle
    (hacyclic : ¬ ∃ block, this.Reachable block ∧ TransGen this.Pipe block block)
    {block : BlockId} (hblock : this.Reachable block) :
    Acc (Function.swap this.Pipe) block := by
  let edge : BlockId → BlockId → Prop := fun a b => this.Pipe a b ∧ this.Reachable a
  have hedge : Acyclic edge := by
    intro a ha
    obtain ⟨b, hab, _⟩ := TransGen.head'_iff.mp ha
    exact hacyclic ⟨a, hab.2, TransGen.mono (fun _ _ h => h.1) _ _ ha⟩
  have hfin : {b | ∃ a, Function.swap edge b a}.Finite :=
    PipelineWrapper.finite_to.subset fun b ⟨a, hab⟩ => ⟨a, hab.1⟩
  induction block using (hedge.swap.wellFounded hfin).induction with
  | _ block ih =>
      refine Acc.intro block fun child hchild => ?_
      exact ih child ⟨hchild, hblock⟩ (hblock.pipe hchild)

/-! ## Completeness -/

/-- An error is reported at a pipe into `block`. -/
def IsReported (ast : Ast) (this : PipelineWrapper) (diagnostics : List Diagnostic)
    (block : BlockId) : Prop :=
  ∃ pipe ∈ this.allPipes, pipe.to = block ∧
    ⟨.error, multipleInputsMessage ast (this.getIngoingPipes block), pipe.getToDiagnostic⟩
      ∈ diagnostics

/-- Every marked pipe was reported. -/
def MarkedAreReported (ast : Ast) (this : PipelineWrapper) (marked : List PipeWrapper)
    (diagnostics : List Diagnostic) : Prop :=
  ∀ pipe ∈ marked, pipe ∈ this.allPipes ∧
    ⟨.error, multipleInputsMessage ast (this.getIngoingPipes pipe.to), pipe.getToDiagnostic⟩
      ∈ diagnostics

/-- If several pipes lead to `block`, one of them is marked. -/
def IsCovered (this : PipelineWrapper) (marked : List PipeWrapper) (block : BlockId) : Prop :=
  1 < (this.getIngoingPipes block).length → ∃ pipe ∈ marked, pipe.to = block

theorem IsCovered.mono {marked marked' : List PipeWrapper} (h : marked ⊆ marked')
    {block : BlockId} (hblock : IsCovered this marked block) : IsCovered this marked' block := by
  intro hlength
  obtain ⟨pipe, hpipe, hto⟩ := hblock hlength
  exact ⟨pipe, h hpipe, hto⟩

/-- What a part of the walk that starts with `marked` establishes. -/
def MarksAll (ast : Ast) (this : PipelineWrapper) (marked : List PipeWrapper)
    (blocks : Set BlockId) :
    Except JsError (List PipeWrapper) → List Diagnostic → Prop
  | .ok marked', diagnostics => MarkedAreReported ast this marked' diagnostics ∧
      marked ⊆ marked' ∧ ∀ block ∈ blocks, IsCovered this marked' block
  | .error _, _ => False

theorem markPipe_spec {block : BlockId} {pipe : PipeWrapper}
    (hpipe : pipe ∈ this.getIngoingPipes block) {marked : List PipeWrapper}
    {diagnostics : List Diagnostic} (hmarked : MarkedAreReported ast this marked diagnostics) :
    Exec.Post (markPipe ast (this.getIngoingPipes block) marked pipe) diagnostics
      (MarksAll ast this marked {block}) := by
  obtain ⟨hmem, hto⟩ := PipelineWrapper.mem_getIngoingPipes.mp hpipe
  unfold markPipe
  dsimp only
  split
  · rename_i hequal
    obtain ⟨x, hx, hequal⟩ := List.any_eq_true.mp hequal
    rw [PipeWrapper.equals_iff] at hequal
    refine Exec.Post.pure ⟨hmarked, List.Subset.refl _, ?_⟩
    rintro _ rfl _
    exact ⟨x, hx, hequal.2.symm.trans hto⟩
  · intro r t hr
    cases hr
    refine ⟨?_, List.subset_append_left _ _, ?_⟩
    · intro x hx
      rcases List.mem_append.mp hx with hx | hx
      · exact ⟨(hmarked x hx).1, List.mem_append_left _ (hmarked x hx).2⟩
      · rw [List.mem_singleton.mp hx, hto]
        exact ⟨hmem, List.mem_append_right _ (List.mem_singleton.mpr rfl)⟩
    · rintro _ rfl _
      exact ⟨pipe, by simp, hto⟩

theorem checkIngoingPipes_spec (block : BlockId) {marked : List PipeWrapper}
    {diagnostics : List Diagnostic} (hmarked : MarkedAreReported ast this marked diagnostics) :
    Exec.Post (checkIngoingPipes ast (this.getIngoingPipes block) marked) diagnostics
      (MarksAll ast this marked {block}) := by
  unfold checkIngoingPipes
  split
  · rename_i hlength
    refine Exec.Post.mono (Exec.Post.foldlM
      (I := fun done marked' d => MarkedAreReported ast this marked' d ∧ marked ⊆ marked' ∧
        (done ≠ [] → IsCovered this marked' block)) (E := fun _ _ => False)
      ⟨hmarked, List.Subset.refl _, by simp⟩ ?_) fun r d hr => ?_
    rotate_left
    · cases r with
      | error e => exact hr
      | ok marked' =>
          refine ⟨hr.1, hr.2.1, ?_⟩
          rintro _ rfl
          exact hr.2.2 (List.ne_nil_of_length_pos (by omega))
    · intro done pipe hpipe marked' d hinv
      refine (markPipe_spec hpipe hinv.1).mono fun r d' hr => ?_
      cases r with
      | error e => exact hr
      | ok marked'' =>
          exact ⟨hr.1, List.Subset.trans hinv.2.1 hr.2.1, fun _ => hr.2.2 block rfl⟩
  · rename_i hlength
    refine Exec.Post.pure ⟨hmarked, List.Subset.refl _, ?_⟩
    rintro _ rfl hmany
    exact (hlength hmany).elim

/-- A loop over parts of the walk covers what each of them covers. -/
theorem foldlM_spec {blocks : List BlockId} {f : List PipeWrapper → BlockId →
      Validation (List PipeWrapper)} {covers : BlockId → Set BlockId}
    (hf : ∀ block marked diagnostics, MarkedAreReported ast this marked diagnostics →
      Exec.Post (f marked block) diagnostics (MarksAll ast this marked (covers block)))
    {marked : List PipeWrapper} {diagnostics : List Diagnostic}
    (hmarked : MarkedAreReported ast this marked diagnostics) :
    Exec.Post (blocks.foldlM f marked) diagnostics
      (MarksAll ast this marked {b | ∃ block ∈ blocks, b ∈ covers block}) := by
  refine Exec.Post.mono (Exec.Post.foldlM
    (I := fun done marked' d =>
      MarksAll ast this marked {b | ∃ block ∈ done, b ∈ covers block} (.ok marked') d)
    (E := fun _ _ => False) ⟨hmarked, List.Subset.refl _, by simp⟩ ?_) fun r d hr => ?_
  rotate_left
  · cases r with
    | error e => exact hr
    | ok marked' => exact hr
  · intro done block _ marked' d hinv
    refine (hf block marked' d hinv.1).mono fun r d' hr => ?_
    cases r with
    | error e => exact hr
    | ok marked'' =>
        refine ⟨hr.1, List.Subset.trans hinv.2.1 hr.2.1, ?_⟩
        rintro b ⟨other, hother, hb⟩
        rcases List.mem_append.mp hother with hother | hother
        · exact (hinv.2.2 b ⟨other, hother, hb⟩).mono hr.2.1
        · rw [List.mem_singleton.mp hother] at hb
          exact hr.2.2 b hb

theorem doCheckMultipleBlockInputs_spec (fuel : Nat) (block : BlockId)
    (marked : List PipeWrapper) (diagnostics : List Diagnostic)
    (hmarked : MarkedAreReported ast this marked diagnostics) :
    Exec.Post (doCheckMultipleBlockInputs ast this fuel marked block) diagnostics
      (MarksAll ast this marked {b | ReflTransGen this.Pipe block b}) := by
  induction fuel generalizing block marked diagnostics with
  | zero => exact Exec.Post.diverge
  | succ fuel ih =>
      rw [doCheckMultipleBlockInputs_succ]
      refine Exec.Post.bind (checkIngoingPipes_spec block hmarked) ?_ (fun _ _ h => h)
      intro marked' d hblock
      refine (foldlM_spec ih hblock.1).mono fun r d' hr => ?_
      cases r with
      | error e => exact hr
      | ok marked'' =>
          refine ⟨hr.1, List.Subset.trans hblock.2.1 hr.2.1, ?_⟩
          intro b hb
          rcases ReflTransGen.cases_head hb with rfl | ⟨child, hchild, hpath⟩
          · exact (hblock.2.2 block rfl).mono hr.2.1
          · exact hr.2.2 b ⟨child, PipelineWrapper.mem_getChildBlocks.mpr hchild, hpath⟩

/-- The walk reports every reachable block with several ingoing pipes. -/
theorem checkMultipleBlockInputsFrom_spec {fuel : Nat} {marked : List PipeWrapper}
    {diagnostics diagnostics' : List Diagnostic}
    (h : checkMultipleBlockInputsFrom ast fuel this diagnostics =
      some (.ok marked, diagnostics')) {block : BlockId} (hblock : this.Reachable block)
    (hlength : 1 < (this.getIngoingPipes block).length) :
    IsReported ast this diagnostics' block := by
  have hmarks : MarksAll ast this [] _ (.ok marked) diagnostics' :=
    foldlM_spec (doCheckMultipleBlockInputs_spec fuel) (by simp [MarkedAreReported]) _ _ h
  obtain ⟨start, hstart, hpath⟩ := hblock
  obtain ⟨pipe, hpipe, rfl⟩ := hmarks.2.2 block ⟨start, hstart, hpath⟩ hlength
  exact ⟨pipe, (hmarks.1 pipe hpipe).1, rfl, (hmarks.1 pipe hpipe).2⟩

/-! ## The check of a pipeline -/

theorem checkMultipleBlockInputs_of_wrap {props : JayveeValidationProps} {fuel : Nat}
    {pipeline : PipesContainer} (hwrap : PipelineWrapper.wrap pipeline = .ok this) :
    checkMultipleBlockInputs props fuel pipeline =
      (checkMultipleBlockInputsFrom props.ast fuel this >>= fun _ => pure ()) := by
  have hcan := (PipelineWrapper.wrap_eq_ok_iff.mp hwrap).1
  funext diagnostics
  rw [checkMultipleBlockInputs, if_pos hcan, hwrap, Exec.bind_of_ok rfl]

/-- The check ends and reports every reachable block with several ingoing pipes. -/
def MultipleInputsAreReported (props : JayveeValidationProps) (pipeline : PipesContainer)
    (this : PipelineWrapper) : Prop :=
  ∃ fuel, ∀ fuel' ≥ fuel, ∃ diagnostics,
    checkMultipleBlockInputs props fuel' pipeline [] = some (.ok (), diagnostics) ∧
    ∀ block, this.Reachable block → 1 < (this.getIngoingPipes block).length →
      IsReported props.ast this diagnostics block

theorem exists_fuel_checkMultipleBlockInputsFrom
    (hacyclic : ¬ ∃ block, this.Reachable block ∧ TransGen this.Pipe block block) :
    ∃ fuel, ∀ fuel' ≥ fuel, ∀ diagnostics, ∃ marked diagnostics',
      checkMultipleBlockInputsFrom ast fuel' this diagnostics =
        some (.ok marked, diagnostics') := by
  obtain ⟨fuel, hfuel⟩ := Exec.exists_fuel_forall_mem (P := WalkReturns ast this)
    (fun _ _ _ => WalkReturns.mono) this.getStartingBlocks
    fun start hstart => exists_fuel_walkReturns
      (acc_of_no_reachable_cycle hacyclic ⟨start, hstart, .refl⟩)
  refine ⟨fuel, fun fuel' hle => Exec.foldlM_returns _ (fun start hstart => ?_) []⟩
  exact (hfuel start hstart).mono hle

/-- A walk that ended has met no cycle. -/
theorem no_reachable_cycle_of_returns {fuel : Nat} {marked : List PipeWrapper}
    {diagnostics diagnostics' : List Diagnostic}
    (h : checkMultipleBlockInputsFrom ast fuel this diagnostics =
      some (.ok marked, diagnostics')) :
    ¬ ∃ block, this.Reachable block ∧ TransGen this.Pipe block block := by
  rintro ⟨block, ⟨start, hstart, hpath⟩, hcycle⟩
  obtain ⟨_, _, _, _, hwalk⟩ := Exec.returns_of_foldlM h start hstart
  have hstart : Acc (Function.swap this.Pipe) start := acc_of_doCheckMultipleBlockInputs hwalk
  have hblock : Acc (Function.swap this.Pipe) block := by
    clear hcycle
    induction hpath with
    | refl => exact hstart
    | tail _ hpipe ih => exact ih.inv hpipe
  exact not_transGen_of_acc hblock hcycle

theorem MultipleInputsAreReported.no_reachable_cycle {props : JayveeValidationProps}
    {pipeline : PipesContainer} (hwrap : PipelineWrapper.wrap pipeline = .ok this)
    (h : MultipleInputsAreReported props pipeline this) :
    ¬ ∃ block, this.Reachable block ∧ TransGen this.Pipe block block := by
  obtain ⟨fuel, h⟩ := h
  obtain ⟨_, hreturns, _⟩ := h fuel le_rfl
  rw [checkMultipleBlockInputs_of_wrap hwrap] at hreturns
  obtain ⟨_, _, hwalk, _⟩ := Exec.bind_eq_ok_iff.mp hreturns
  exact no_reachable_cycle_of_returns hwalk

theorem multipleInputsAreReported {props : JayveeValidationProps} {pipeline : PipesContainer}
    (hwrap : PipelineWrapper.wrap pipeline = .ok this)
    (hacyclic : ¬ ∃ block, this.Reachable block ∧ TransGen this.Pipe block block) :
    MultipleInputsAreReported props pipeline this := by
  obtain ⟨fuel, hfuel⟩ := exists_fuel_checkMultipleBlockInputsFrom hacyclic
  refine ⟨fuel, fun fuel' hle => ?_⟩
  obtain ⟨marked, diagnostics, hwalk⟩ := hfuel fuel' hle []
  rw [checkMultipleBlockInputs_of_wrap hwrap]
  exact ⟨diagnostics, Exec.bind_of_ok hwalk, fun _ => checkMultipleBlockInputsFrom_spec hwalk⟩

/-- The check ends with all errors reported unless a starting block leads into a cycle. -/
theorem checkMultipleBlockInputs_correct_iff (props : JayveeValidationProps)
    (pipeline : PipesContainer) (this : PipelineWrapper)
    (hwrap : PipelineWrapper.wrap pipeline = .ok this) :
    MultipleInputsAreReported props pipeline this ↔
      ¬ ∃ block, this.Reachable block ∧ TransGen this.Pipe block block :=
  ⟨MultipleInputsAreReported.no_reachable_cycle hwrap, multipleInputsAreReported hwrap⟩

/-- `a -> b; c -> b;` -/
def joiningPipeline : PipesContainer :=
  .pipeline {
    name := "Joining"
    blocks := [0, 1, 2]
    pipes := [⟨[some 0, some 1]⟩, ⟨[some 2, some 1]⟩]
    transforms := []
    valueTypes := []
    constraints := [] }

/-- `a -> b -> c -> b;` -/
def loopingPipeline : PipesContainer :=
  .pipeline {
    name := "Looping"
    blocks := [0, 1, 2]
    pipes := [⟨[some 0, some 1, some 2, some 1]⟩]
    transforms := []
    valueTypes := []
    constraints := [] }

theorem checkMultipleBlockInputs_joiningPipeline :
    MultipleInputsAreReported sampleProps joiningPipeline (.construct joiningPipeline) ↔
      ¬ ∃ block, (PipelineWrapper.construct joiningPipeline).Reachable block ∧
        TransGen (PipelineWrapper.construct joiningPipeline).Pipe block block :=
  checkMultipleBlockInputs_correct_iff sampleProps joiningPipeline _ rfl

theorem not_multipleInputsAreReported_loopingPipeline :
    ¬ ∀ (props : JayveeValidationProps) (pipeline : PipesContainer) (this : PipelineWrapper),
      PipelineWrapper.wrap pipeline = .ok this → MultipleInputsAreReported props pipeline this := by
  intro h
  have hlooping := h sampleProps loopingPipeline (.construct loopingPipeline) rfl
  have hpipe : ∀ a b, b ∈ (PipelineWrapper.construct loopingPipeline).getChildBlocks a →
      (PipelineWrapper.construct loopingPipeline).Pipe a b :=
    fun _ _ => PipelineWrapper.mem_getChildBlocks.mp
  refine hlooping.no_reachable_cycle rfl ⟨1, ⟨0, ?_, ?_⟩, ?_⟩
  · show 0 ∈ (PipelineWrapper.construct loopingPipeline).getStartingBlocks
    decide
  · exact .single (hpipe 0 1 (by decide))
  · exact .tail (.single (hpipe 1 2 (by decide))) (hpipe 2 1 (by decide))

end Jayvee
