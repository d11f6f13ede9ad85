import Jayvee.Verification.Pipeline.Validation

/-! # Links between compatible blocks -/

namespace Jayvee

open Foundation

variable {ast : Ast} {runtime : JsRuntime}

/-! ## The io types of blocks -/

/-- The io type of the first port, which is the one that counts. -/
def portType (ports : List BlockTypeIO) : Option IOType :=
  ports.head?.bind fun port => (getIOType port).toOption

def blockInputType (ast : Ast) (block : BlockId) : Option IOType :=
  (ast.blockTypeOf block).bind fun blockType => portType blockType.inputs

def blockOutputType (ast : Ast) (block : BlockId) : Option IOType :=
  (ast.blockTypeOf block).bind fun blockType => portType blockType.outputs

theorem portType_of_getPortIOType {σ : Type} {ports : List BlockTypeIO} {ioType : IOType}
    {s t : σ} (h : BlockTypeWrapper.getPortIOType ports.head? s = some (.ok ioType, t)) :
    portType ports = some ioType := by
  cases hport : ports.head? with
  | none =>
      rw [hport] at h
      cases h
  | some port =>
      rw [hport] at h
      have hioType : getIOType port = .ok ioType := (Prod.mk.inj (Option.some.inj h)).1
      rw [portType, hport, Option.bind_some, hioType]
      rfl

/-- A wrapper has the io types of its block type. -/
theorem portTypes_of_wrap {σ : Type} {toBeWrapped : Option ReferenceableBlockTypeDefinition}
    {wrapper : BlockTypeWrapper} {s t : σ}
    (h : BlockTypeWrapper.wrap ast runtime toBeWrapped s = some (.ok wrapper, t)) :
    (toBeWrapped.bind fun blockType => portType blockType.inputs) = some wrapper.inputType ∧
    (toBeWrapped.bind fun blockType => portType blockType.outputs) = some wrapper.outputType := by
  cases toBeWrapped with
  | none => cases h
  | some blockType =>
      rw [BlockTypeWrapper.wrap] at h
      split at h
      · obtain ⟨properties, _, _, h⟩ := Exec.bind_eq_ok_iff.mp h
        obtain ⟨inputType, _, hinput, h⟩ := Exec.bind_eq_ok_iff.mp h
        obtain ⟨outputType, _, houtput, h⟩ := Exec.bind_eq_ok_iff.mp h
        cases h
        exact ⟨portType_of_getPortIOType hinput, portType_of_getPortIOType houtput⟩
      · cases h

theorem blockTypes_of_wrap {σ : Type} {block : BlockId} {wrapper : BlockTypeWrapper} {s t : σ}
    (h : BlockTypeWrapper.wrap ast runtime (ast.blockTypeOf block) s = some (.ok wrapper, t)) :
    blockInputType ast block = some wrapper.inputType ∧
      blockOutputType ast block = some wrapper.outputType :=
  portTypes_of_wrap h

/-! ## Validated links -/

/-- What a block passes on is what the next one takes. -/
def LinkFits (ast : Ast) («from» «to» : BlockId) : Prop :=
  ∃ ioType, blockOutputType ast «from» = some ioType ∧ blockInputType ast «to» = some ioType

/-- The validation of a pipe ends without an error. -/
def PipeReportsNoError (props : JayveeValidationProps) (pipe : PipeDefinition) : Prop :=
  ∃ diagnostics, validatePipeDefinition props pipe [] = some (.ok (), diagnostics) ∧
    ∀ d ∈ diagnostics, d.severity ≠ .error

theorem acceptErrorIf_moves (condition : Bool) (errorMessage : String)
    (infos : List DiagnosticInfo) :
    Exec.Moves StillReported (acceptErrorIf condition errorMessage infos) :=
  Exec.Moves.ite (Exec.Moves.forEach fun _ => accept_moves _ _ _) (Exec.Moves.pure ())

theorem checkWrappedLink_moves (pipe : PipeWrapper)
    (fromBlockType toBlockType : BlockTypeWrapper) :
    Exec.Moves StillReported (checkWrappedLink ast pipe fromBlockType toBlockType) := by
  refine Exec.Moves.bind (acceptErrorIf_moves _ _ _) fun _ => ?_
  refine Exec.Moves.bind (acceptErrorIf_moves _ _ _) fun _ => ?_
  exact acceptErrorIf_moves _ _ _

theorem checkLinkCompatibility_moves (props : JayveeValidationProps) (pipe : PipeWrapper) :
    Exec.Moves StillReported (checkLinkCompatibility props pipe) := by
  refine Exec.Moves.ite (Exec.Moves.pure ()) ?_
  refine Exec.Moves.bind
    (Exec.Agrees.reads fun _ => BlockTypeWrapper.wrap_agrees _ _ _).moves fun fromBlockType => ?_
  refine Exec.Moves.bind
    (Exec.Agrees.reads fun _ => BlockTypeWrapper.wrap_agrees _ _ _).moves fun toBlockType => ?_
  exact checkWrappedLink_moves pipe fromBlockType toBlockType

/-- A condition that was checked without an error does not hold. -/
theorem eq_false_of_acceptErrorIf {condition : Bool} {errorMessage : String}
    {info : DiagnosticInfo} {infos : List DiagnosticInfo} {before after : List Diagnostic}
    (h : acceptErrorIf condition errorMessage (info :: infos) before = some (.ok (), after))
    (hnone : ∀ d ∈ after, d.severity ≠ .error) : condition = false := by
  cases condition with
  | false => rfl
  | true =>
      have hmoves : Exec.Moves StillReported (Exec.forEach infos (accept .error errorMessage)) :=
        Exec.Moves.forEach (accept_moves .error errorMessage)
      exact (hnone _ (hmoves _ _ _ h (List.mem_append_right before List.mem_cons_self)) rfl).elim

theorem linkFits_of_checkWrappedLink {pipe : PipeWrapper}
    {fromBlockType toBlockType : BlockTypeWrapper} {before after : List Diagnostic}
    (h : checkWrappedLink ast pipe fromBlockType toBlockType before = some (.ok (), after))
    (hnone : ∀ d ∈ after, d.severity ≠ .error) :
    fromBlockType.outputType = toBlockType.inputType := by
  obtain ⟨_, _, _, h⟩ := Exec.bind_eq_ok_iff.mp h
  obtain ⟨_, _, _, h⟩ := Exec.bind_eq_ok_iff.mp h
  have hconnected := eq_false_of_acceptErrorIf h hnone
  simpa [BlockTypeWrapper.canBeConnectedTo] using hconnected

/-- The links of a pipe that is validated without an error fit, as far as the types of their
blocks can be wrapped. -/
theorem PipeReportsNoError.linkFits {props : JayveeValidationProps} {pipe : PipeDefinition}
    (h : PipeReportsNoError props pipe) {link : PipeWrapper} (hlink : link.astNode = pipe)
    (hfrom : BlockTypeWrapper.canBeWrapped (props.ast.blockTypeOf link.from) = true)
    (hto : BlockTypeWrapper.canBeWrapped (props.ast.blockTypeOf link.to) = true) :
    LinkFits props.ast link.from link.to := by
  obtain ⟨diagnostics, hvalidate, hnone⟩ := h
  obtain ⟨before, after, hcheck, hrest⟩ := Exec.Moves.of_mem_forEach
    (checkLinkCompatibility_moves props) hvalidate ((PipeWrapper.mem_wrapAll pipe link).mpr hlink)
  have hnone' : ∀ d ∈ after, d.severity ≠ .error := fun d hd => hnone d (hrest hd)
  rw [checkLinkCompatibility, hfrom, hto] at hcheck
  obtain ⟨fromBlockType, _, hfromType, hcheck⟩ := Exec.bind_eq_ok_iff.mp hcheck
  obtain ⟨toBlockType, _, htoType, hcheck⟩ := Exec.bind_eq_ok_iff.mp hcheck
  have heq := linkFits_of_checkWrappedLink hcheck hnone'
  exact ⟨fromBlockType.outputType, (blockTypes_of_wrap hfromType).2,
    heq ▸ (blockTypes_of_wrap htoType).1⟩

end Jayvee
