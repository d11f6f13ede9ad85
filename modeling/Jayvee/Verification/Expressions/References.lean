import Jayvee.Verification.Expressions.Subexpressions

/-! # References inside of expressions -/

namespace Jayvee

open Foundation

/-! ## Reference literals -/

section Extraction

variable {expression : Expression} {base : List Nat}

theorem extractReferenceLiterals_eq (base : List Nat) (expression : Expression) :
    extractReferenceLiterals base expression =
      (if expression.isReferenceLiteral then [⟨base, expression⟩] else []) ++
        (expression.operands.zipIdx.map fun operand =>
          extractReferenceLiterals (base ++ [operand.2]) operand.1).flatten := by
  cases expression <;>
    simp [extractReferenceLiterals, Expression.operands, pruned, Expression.children,
      Expression.isCollectionLiteral, Expression.isReferenceLiteral]

/-- The reference literals that are found are those outside of collections. -/
theorem extractReferenceLiterals_lists (expression : Expression) (base : List Nat) :
    Lists (fun path inner => subtermAt Expression.operands expression path = some inner ∧
      inner.isReferenceLiteral = true) base (extractReferenceLiterals base expression) := by
  induction expression using Expression.inductionOnChildren generalizing base with
  | step expression ih =>
    rw [extractReferenceLiterals_eq]
    refine lists_subterms ?_ (by simp) ?_
    · by_cases hliteral : expression.isReferenceLiteral = true
      · rw [if_pos hliteral]
        exact (lists_singleton expression).congr fun _ _ => by simp [hliteral]
      · rw [if_neg hliteral]
        exact lists_nil fun _ _ hself => hliteral hself.2.2
    · intro i child result hchild hresult
      simp only [List.getElem?_map, List.getElem?_zipIdx, hchild, Option.map_some,
        Option.some.injEq, Nat.zero_add] at hresult
      rw [← hresult]
      exact ih child (Expression.mem_children_of_mem_operands (List.mem_of_getElem? hchild)) _

theorem mem_extractReferenceLiterals {node : ExpressionNode} :
    node ∈ extractReferenceLiterals [] expression ↔
      (expression.Contains node.path node.term ∧ ¬ expression.IsInsideCollection node.path) ∧
        node.term.isReferenceLiteral = true := by
  rw [(extractReferenceLiterals_lists expression []).mem_iff]
  simp [Expression.subtermAt_operands_iff]

/-- All reference literals are found, each once. -/
structure ExtractsReferenceLiterals (expression : Expression) : Prop where
  mem_iff : ∀ node : ExpressionNode, node ∈ extractReferenceLiterals [] expression ↔
    expression.Contains node.path node.term ∧ node.term.isReferenceLiteral = true
  nodup : (extractReferenceLiterals [] expression).Nodup

/-- No reference literal is inside of a collection. -/
def Expression.NoReferenceInCollections (expression : Expression) : Prop :=
  ∀ path inner, expression.Contains path inner → inner.isReferenceLiteral = true →
    ¬ expression.IsInsideCollection path

theorem extractsReferenceLiterals_iff (expression : Expression) :
    ExtractsReferenceLiterals expression ↔ expression.NoReferenceInCollections := by
  constructor
  · intro h path inner hinner hliteral
    exact (mem_extractReferenceLiterals.mp ((h.mem_iff ⟨path, inner⟩).mpr ⟨hinner, hliteral⟩)).1.2
  · intro h
    refine ⟨fun node => ?_, (extractReferenceLiterals_lists expression []).nodup⟩
    rw [mem_extractReferenceLiterals]
    constructor
    · exact fun hnode => ⟨hnode.1.1, hnode.2⟩
    · exact fun hnode => ⟨⟨hnode.1, h _ _ hnode.1 hnode.2⟩, hnode.2⟩

end Extraction

/-! ## Output ports -/

theorem Expression.isReferenceLiteral_of_referencedPort {expression : Expression}
    {port : TransformPortDefinition} (h : expression.referencedPort = some port) :
    expression.isReferenceLiteral = true := by
  cases expression with
  | referenceLiteral _ => rfl
  | _ => cases h

def outputPortDiagnostic (node : ExpressionNode) : Diagnostic where
  severity := .error
  message := "Output ports are not allowed in this expression"
  info := { node := .subexpression node }

def isOutputPortReference (expression : Expression) : Bool :=
  expression.referencedPort.any fun port => port.kind = .to

theorem isOutputPortReference_iff {expression : Expression} :
    isOutputPortReference expression = true ↔
      ∃ port, expression.referencedPort = some port ∧ port.kind = .to := by
  simp [isOutputPortReference, Option.any_eq_true]

theorem checkOutputNotInAssignmentExpression_logs (outputAssignment : TransformOutputAssignment) :
    Exec.Logs (checkOutputNotInAssignmentExpression outputAssignment) (.ok ())
      ((extractReferenceLiterals [] outputAssignment.expression).flatMap fun node =>
        if isOutputPortReference node.term then [outputPortDiagnostic node] else []) := by
  refine Exec.Logs.forEach fun node _ => ?_
  rw [isOutputPortReference]
  cases node.term.referencedPort with
  | none => exact Exec.Logs.pure ()
  | some port =>
      simp only [Option.any_some, decide_eq_true_eq]
      split_ifs with hkind
      · exact accept_logs _ _ _
      · exact Exec.Logs.pure ()

/-- Each use of an output port is reported. -/
def ReportsOutputPorts (outputAssignment : TransformOutputAssignment) : Prop :=
  ∃ entries,
    Exec.Logs (checkOutputNotInAssignmentExpression outputAssignment) (.ok ()) entries ∧
      ∀ path inner, outputAssignment.expression.Contains path inner →
        isOutputPortReference inner = true → outputPortDiagnostic ⟨path, inner⟩ ∈ entries

/-- No output port is used inside of a collection. -/
def NoOutputPortInCollections (outputAssignment : TransformOutputAssignment) : Prop :=
  ∀ path inner, outputAssignment.expression.Contains path inner →
    isOutputPortReference inner = true →
      ¬ outputAssignment.expression.IsInsideCollection path

theorem reportsOutputPorts_iff (outputAssignment : TransformOutputAssignment) :
    ReportsOutputPorts outputAssignment ↔ NoOutputPortInCollections outputAssignment := by
  have hlogs := checkOutputNotInAssignmentExpression_logs outputAssignment
  constructor
  · rintro ⟨entries, hentries, hreports⟩ path inner hinner houtput
    obtain ⟨_, rfl⟩ := hentries.unique hlogs
    obtain ⟨node, hnode, hmem⟩ := List.mem_flatMap.mp (hreports path inner hinner houtput)
    split_ifs at hmem
    · have hsame := List.mem_singleton.mp hmem
      simp only [outputPortDiagnostic, Diagnostic.mk.injEq, DiagnosticInfo.mk.injEq,
        AstNode.subexpression.injEq, true_and, and_true] at hsame
      rw [← hsame] at hnode
      exact (mem_extractReferenceLiterals.mp hnode).1.2
    · cases hmem
  · intro h
    refine ⟨_, hlogs, fun path inner hinner houtput => ?_⟩
    obtain ⟨port, hport, _⟩ := isOutputPortReference_iff.mp houtput
    refine List.mem_flatMap.mpr ⟨⟨path, inner⟩, ?_, by simp [houtput]⟩
    exact mem_extractReferenceLiterals.mpr ⟨⟨hinner, h path inner hinner houtput⟩,
      Expression.isReferenceLiteral_of_referencedPort hport⟩

/-! ## Input ports -/

namespace TransformDefinition

/-- An output expression refers to the port. -/
def Uses (transform : TransformDefinition) (port : TransformPortDefinition) : Prop :=
  ∃ outputAssignment ∈ transform.outputAssignments, ∃ path inner,
    outputAssignment.expression.Contains path inner ∧ inner.referencedPort = some port

/-- Outside of collections, an output expression refers to a port of the name. -/
def UsesOutsideCollections (transform : TransformDefinition) (name : String) : Prop :=
  ∃ outputAssignment ∈ transform.outputAssignments, ∃ path inner port,
    (outputAssignment.expression.Contains path inner ∧
      ¬ outputAssignment.expression.IsInsideCollection path) ∧
    inner.referencedPort = some port ∧ port.name = name

end TransformDefinition

def unusedInputDiagnostic (input : TransformPortDefinition) : Diagnostic where
  severity := .warning
  message := "This input port is never used"
  info := { node := .transformPort input }

/-- The ports that `checkAreInputsUsed` finds in the output expressions. -/
def referencedPortNames (transform : TransformDefinition) : List String :=
  (transform.outputAssignments.flatMap fun outputAssignment =>
    (extractReferenceLiterals [] outputAssignment.expression).filterMap fun referenceLiteral =>
      referenceLiteral.term.referencedPort).map TransformPortDefinition.name

section Inputs

variable {props : JayveeValidationProps} {transform : TransformDefinition}
  {input : TransformPortDefinition}

theorem mem_referencedPortNames {name : String} :
    name ∈ referencedPortNames transform ↔ transform.UsesOutsideCollections name := by
  simp only [referencedPortNames, List.mem_map, List.mem_flatMap, List.mem_filterMap]
  constructor
  · rintro ⟨port, ⟨outputAssignment, hassignment, node, hnode, hport⟩, hname⟩
    exact ⟨outputAssignment, hassignment, node.path, node.term, port,
      (mem_extractReferenceLiterals.mp hnode).1, hport, hname⟩
  · rintro ⟨outputAssignment, hassignment, path, inner, port, houtside, hport, hname⟩
    refine ⟨port, ⟨outputAssignment, hassignment, ⟨path, inner⟩, ?_, hport⟩, hname⟩
    exact mem_extractReferenceLiterals.mpr
      ⟨houtside, Expression.isReferenceLiteral_of_referencedPort hport⟩

theorem checkAreInputsUsed_logs (props : JayveeValidationProps)
    (transform : TransformDefinition) :
    Exec.Logs (checkAreInputsUsed props transform) (.ok ())
      ((transform.ports.filter fun port => port.kind = .from).flatMap fun input =>
        if !(referencedPortNames transform).contains input.name &&
            isOutputPortComplete props.ast input then
          [unusedInputDiagnostic input]
        else
          []) := by
  refine Exec.Logs.forEach fun input _ => ?_
  change Exec.Logs (if !(referencedPortNames transform).contains input.name &&
      isOutputPortComplete props.ast input then
    accept .warning "This input port is never used" { node := .transformPort input }
    else pure ()) _ _
  split_ifs
  · exact accept_logs _ _ _
  · exact Exec.Logs.pure ()

/-- An input port is reported exactly if it is complete and its name is not referred to outside
of collections. -/
theorem mem_unusedInputs {entries : List Diagnostic}
    (hentries : Exec.Logs (checkAreInputsUsed props transform) (.ok ()) entries)
    (hport : input ∈ transform.ports) (hkind : input.kind = .from)
    (hcomplete : isOutputPortComplete props.ast input = true) :
    unusedInputDiagnostic input ∈ entries ↔ ¬ transform.UsesOutsideCollections input.name := by
  obtain ⟨_, rfl⟩ := hentries.unique (checkAreInputsUsed_logs props transform)
  rw [← mem_referencedPortNames, List.mem_flatMap]
  constructor
  · rintro ⟨other, _, hmem⟩
    split_ifs at hmem with hunused
    · have hsame := List.mem_singleton.mp hmem
      simp only [unusedInputDiagnostic, Diagnostic.mk.injEq, DiagnosticInfo.mk.injEq,
        AstNode.transformPort.injEq, true_and, and_true] at hsame
      rw [hsame]
      simpa using ((Bool.and_eq_true _ _).mp hunused).1
    · cases hmem
  · intro hunused
    refine ⟨input, by simp [hport, hkind], ?_⟩
    simp [hunused, hcomplete]

/-- A complete input port is reported exactly if no output expression refers to it. -/
def ReportsUnusedInputs (props : JayveeValidationProps) (transform : TransformDefinition) : Prop :=
  ∃ entries, Exec.Logs (checkAreInputsUsed props transform) (.ok ()) entries ∧
    ∀ input ∈ transform.ports, input.kind = .from → isOutputPortComplete props.ast input = true →
      (unusedInputDiagnostic input ∈ entries ↔ ¬ transform.Uses input)

/-- The input port is used, but only inside of collections. -/
def HiddenInCollections (transform : TransformDefinition) (input : TransformPortDefinition) :
    Prop :=
  transform.Uses input ∧ ¬ transform.UsesOutsideCollections input.name

/-- The input port is not used, while another port of the same name is. -/
def SharesUsedName (transform : TransformDefinition) (input : TransformPortDefinition) : Prop :=
  transform.UsesOutsideCollections input.name ∧ ¬ transform.Uses input

theorem reportsUnusedInputs_iff (props : JayveeValidationProps)
    (transform : TransformDefinition) :
    ReportsUnusedInputs props transform ↔
      ∀ input ∈ transform.ports, input.kind = .from →
        isOutputPortComplete props.ast input = true →
          ¬ HiddenInCollections transform input ∧ ¬ SharesUsedName transform input := by
  have hlogs := checkAreInputsUsed_logs props transform
  constructor
  · rintro ⟨entries, hentries, hreports⟩ input hport hkind hcomplete
    have hiff := (mem_unusedInputs hentries hport hkind hcomplete).symm.trans
      (hreports input hport hkind hcomplete)
    exact ⟨fun hhidden => hiff.mp hhidden.2 hhidden.1,
      fun hshared => hiff.mpr hshared.2 hshared.1⟩
  · intro h
    refine ⟨_, hlogs, fun input hport hkind hcomplete => ?_⟩
    obtain ⟨hhidden, hshared⟩ := h input hport hkind hcomplete
    rw [mem_unusedInputs hlogs hport hkind hcomplete]
    constructor
    · exact fun hnot huses => hhidden ⟨huses, hnot⟩
    · exact fun hnot houtside => hshared ⟨houtside, hnot⟩

end Inputs

/-! ## The extraction and its two uses -/

/-- `from number oftype integer;` -/
def numberPort : TransformPortDefinition :=
  ⟨.from, "number", ⟨some 0, []⟩⟩

/-- `to isOne oftype boolean; isOne: 1 in [number];` -/
def isOneTransform : TransformDefinition where
  name := "IsOne"
  ports := [numberPort, ⟨.to, "isOne", ⟨some 1, []⟩⟩]
  outputAssignments := [⟨some ⟨.to, "isOne", ⟨some 1, []⟩⟩,
    .binaryExpression .in (.numericLiteral 1)
      (.collectionLiteral [.referenceLiteral (some (.transformPortDefinition numberPort))])⟩]

def isOneProps : JayveeValidationProps :=
  { sampleProps with ast := { emptyAst with
      valuetypes := [⟨"integer", true, none, none, none⟩, ⟨"boolean", true, none, none, none⟩] } }

end Jayvee
