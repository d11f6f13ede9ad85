import Jayvee.Verification.Properties.ValidatedValueTypes
import Jayvee.Verification.Tables.InterpretedTable

/-! # Validated blocks that interpret a sheet as a table -/

namespace Jayvee

open Foundation ExecutionContext ValueType

theorem nodup_of_checkUniqueElementNames {elementTypeDetails : String}
    {nodes : List (String × AstNode)} (h : Exec.Passes Diagnostic.IsError
      (checkUniqueElementNames elementTypeDetails nodes) ()) : (nodes.map Prod.fst).Nodup := by
  rw [List.nodup_iff_count]
  intro nodeName
  by_contra hmany
  have hlength : (nodes.filter fun node => node.1 == nodeName).length > 1 := by
    rw [List.count_eq_countP, List.countP_map, List.countP_eq_length_filter] at hmany
    exact Nat.lt_of_not_le hmany
  obtain ⟨node, hnode⟩ := List.exists_mem_of_length_pos (Nat.lt_trans Nat.zero_lt_one hlength)
  have hname : node.1 = nodeName := by simpa using (List.mem_filter.mp hnode).2
  have hmem : nodeName ∈ (nodes.map Prod.fst).eraseDups := by
    rw [List.mem_eraseDups, ← hname]
    exact List.mem_map_of_mem (List.mem_filter.mp hnode).1
  have hall := h.forEach (fun _ _ => Exec.Moves.ite
    (Exec.Moves.forEach fun _ => accept_moves _ _ _) (Exec.Moves.pure ())) nodeName hmem
  dsimp only at hall
  rw [if_pos hlength] at hall
  exact not_passes_accept _ _ (hall.forEach (fun _ _ => accept_moves _ _ _) node hnode)

namespace TableInterpreterExecutor

/-! ## Column definitions -/

theorem columnDefinitionsTypeguard_map (columnDefinitions : List ValuetypeAssignment) :
    columnDefinitionsTypeguard (.collection (columnDefinitions.map .valuetypeAssignment)) =
      some columnDefinitions := by
  have hmap : (columnDefinitions.map Value.valuetypeAssignment).mapM
      valuetypeAssignmentTypeguard = some columnDefinitions := by
    induction columnDefinitions with
    | nil => rfl
    | cons columnDefinition columnDefinitions ih => simp [valuetypeAssignmentTypeguard, ih]
  exact hmap

theorem exists_columnDefinitions {ast : Ast} {value : Value}
    (h : HasType ast (.collection .ValuetypeAssignment) value) :
    ∃ columnDefinitions : List ValuetypeAssignment,
      value = .collection (columnDefinitions.map .valuetypeAssignment) := by
  obtain ⟨values, rfl, hvalues⟩ := hasType_collection.mp h
  clear h
  induction values with
  | nil => exact ⟨[], rfl⟩
  | cons value values ih =>
      rw [List.forall_mem_cons] at hvalues
      obtain ⟨columnDefinitions, hrest⟩ := ih hvalues.2
      cases value with
      | valuetypeAssignment columnDefinition =>
          refine ⟨columnDefinition :: columnDefinitions, ?_⟩
          rw [List.map_cons, ← Value.collection.inj hrest]
      | _ => cases hasType_primitive.mp hvalues.1

/-! ## Validated properties -/

/-- The properties in `TableInterpreter.jv`. -/
def header : PropertySpecification :=
  ⟨"header", Boolean, some (.boolean true)⟩

def columns : PropertySpecification :=
  ⟨"columns", .collection .ValuetypeAssignment, none⟩

def propertySpecifications : List PropertySpecification :=
  [header, columns]

section Validated

variable {δ : Type} {props : JayveeValidationProps} {block : BlockId}
  {services : ExecutionServices} {context : ExecutionContext δ}
  {columnDefinitions : List ValuetypeAssignment}
  (h : ValidatedContainer props (.block block) propertySpecifications)
include h

theorem exists_columns (hcontext : IsInside props (.block block) services context) :
    ∃ columnDefinitions, getTypedPropertyValue services columnDefinitionsTypeguard "columns"
        (.collection .ValuetypeAssignment) context = some (.ok columnDefinitions, context) ∧
      IsValueOf props (.block block) columns
        (.collection (columnDefinitions.map .valuetypeAssignment)) := by
  refine exists_typedValue columns h hcontext rfl
    (fun columnDefinitions : List ValuetypeAssignment =>
      .collection (columnDefinitions.map .valuetypeAssignment)) fun value htype => ?_
  obtain ⟨columnDefinitions, rfl⟩ := exists_columnDefinitions htype
  exact ⟨columnDefinitions, columnDefinitionsTypeguard_map _, rfl⟩

/-- The check of the columns is passed. -/
theorem columns_nodup (htypeName : (PropertyBodyContainer.block block).typeName props.ast =
      some "TableInterpreter")
    (hcolumns : IsValueOf props (.block block) columns
      (.collection (columnDefinitions.map .valuetypeAssignment))) :
    (columnDefinitions.map ValuetypeAssignment.name).Nodup := by
  obtain ⟨property, hproperty, hname, hpasses⟩ :=
    (h.passes_or_default rfl hcolumns).resolve_right fun hleft => by cases hleft
  rw [htypeName] at hpasses
  have hcheck : Exec.Passes _ (checkTableInterpreterProperty props property) () := hpasses
  have hcolumnsName : property.name = "columns" := hname
  rw [checkTableInterpreterProperty, if_neg (not_not.mpr hcolumnsName)] at hcheck
  obtain ⟨result, before, after, hrun, hunique⟩ := hcheck.bind_last
  have hfind : findProperty ((PropertyBodyContainer.block block).properties props.ast)
      columns.name = some property := by
    rw [← hname]
    exact h.body.find?_eq hproperty
  cases hrun.symm.trans (hcolumns.evaluatePropertyValue_apply hfind before)
  have hnodup := nodup_of_checkUniqueElementNames hunique
  rw [columnDefinitionsTypeguard_map, Option.getD_some, List.map_map] at hnodup
  exact hnodup

end Validated

/-! ## Cells of validated columns -/

/-- The cell of the column holds the text of a value of the type of the column. -/
def HoldsValue (props : JayveeValidationProps) (sheetRow : List (Option String))
    (columnEntry : ColumnDefinitionEntry) (value : Value) : Prop :=
  ∃ text, sheetRow[columnEntry.sheetColumnIndex]?.join = some text ∧
    parseValueToInternalRepresentation props.runtime props.ast text columnEntry.valueType =
      .ok (some value) ∧
    IsValueOfType props value columnEntry.valueType

/-- The types of the columns can be wrapped, and the constraints on them are validated. -/
structure ColumnsValidated (props : JayveeValidationProps)
    (valueTypes : ValuetypeAssignment → ValueType) (columnDefinitions : List ValuetypeAssignment) :
    Prop where
  wraps : ∀ columnDefinition ∈ columnDefinitions, ValueType.wrap props.ast
    (some columnDefinition.type) = .ok (some (valueTypes columnDefinition))
  constraints : ∀ columnDefinition ∈ columnDefinitions,
    HasValidatedConstraints props (valueTypes columnDefinition)

namespace ColumnsValidated

variable {δ : Type} {props : JayveeValidationProps} {services : ExecutionServices}
  {context : ExecutionContext δ} {valueTypes : ValuetypeAssignment → ValueType}
  {columnDefinitions : List ValuetypeAssignment} {hasHeader : Bool}
  {data : List (List (Option String))} {columnEntry : ColumnDefinitionEntry}
  (h : ColumnsValidated props valueTypes columnDefinitions)
  (hresolved : ResolvedHierarchy props.ast)
include h hresolved

theorem columnsTyped : ColumnsTyped props.ast valueTypes columnDefinitions := by
  intro columnDefinition hmem
  have hwrap := h.wraps columnDefinition hmem
  obtain ⟨root, hroot, _⟩ := hresolved.getPrimitive (isDefined_of_wrap hwrap)
  exact ⟨hwrap, root, hroot⟩

theorem isValid_iff (hcontext : RunsModel props services context)
    (hmem : columnEntry ∈ boundColumns valueTypes hasHeader data columnDefinitions)
    (value : Value) : ∃ isValid,
      isValidValueRepresentation services value columnEntry.valueType context =
        some (.ok isValid, context) ∧
      (isValid = true ↔ IsValueOfType props value columnEntry.valueType) := by
  obtain ⟨columnDefinition, hdefinition, _, rfl⟩ := mem_boundColumns hmem
  have hwrap := h.wraps columnDefinition hdefinition
  exact isValidValueRepresentation_iff hresolved (isDefined_of_wrap hwrap)
    (h.constraints columnDefinition hdefinition) hcontext value

theorem cellsChecked (hcontext : RunsModel props services context)
    (sheetRow : List (Option String)) : CellsChecked services context
      (boundColumns valueTypes hasHeader data columnDefinitions) sheetRow := by
  intro columnEntry hmem text parsedValue _ _
  obtain ⟨isValid, hrun, _⟩ := h.isValid_iff hresolved hcontext hmem parsedValue
  exact ⟨isValid, context, hrun⟩

theorem cellValue_iff_holdsValue (hcontext : RunsModel props services context)
    (hmem : columnEntry ∈ boundColumns valueTypes hasHeader data columnDefinitions)
    (sheetRow : List (Option String)) (value : Value) :
    cellValue services context sheetRow columnEntry = some value ↔
      HoldsValue props sheetRow columnEntry value := by
  obtain ⟨isValid, hrun, hiff⟩ := h.isValid_iff hresolved hcontext hmem value
  rw [cellValue_eq_some_iff, hcontext.ast, hcontext.runtime]
  constructor
  · rintro ⟨text, htext, hparsed, after, hvalid⟩
    cases hrun.symm.trans hvalid
    exact ⟨text, htext, hparsed, hiff.mp rfl⟩
  · rintro ⟨text, htext, hparsed, hvalue⟩
    rw [hiff.mpr hvalue] at hrun
    exact ⟨text, htext, hparsed, context, hrun⟩

end ColumnsValidated

/-! ## Sheets that do not have the columns -/

section Missing

variable {δ : Type} {props : JayveeValidationProps} {services : ExecutionServices}
  {context : ExecutionContext δ} {inputSheet : Sheet} {hasHeader : Bool}
  {columnDefinitions : List ValuetypeAssignment}

/-- The property that the error is reported at. -/
def reportedProperty (hasHeader : Bool) : PropertySpecification :=
  if hasHeader then header else columns

theorem deriveColumnDefinitionEntries_of_missing (services : ExecutionServices)
    (hmissing : ¬ ColumnsPresent inputSheet hasHeader columnDefinitions) :
    ∃ message, (deriveColumnDefinitionEntries services inputSheet hasHeader columnDefinitions :
        ExecM δ (Result (List ColumnDefinitionEntry))) =
      getOrFailProperty services (reportedProperty hasHeader).name >>= fun property =>
        pure (errorDetails message { node := .propertyAssignment property }) := by
  cases hasHeader with
  | true =>
      have hrows : inputSheet.numberOfRows < 1 := not_le.mp hmissing
      rw [deriveColumnDefinitionEntries, if_pos rfl, if_pos hrows]
      exact ⟨_, rfl⟩
  | false =>
      have hcolumns : inputSheet.numberOfColumns < columnDefinitions.length := not_le.mp hmissing
      rw [deriveColumnDefinitionEntries, if_neg Bool.false_ne_true, if_pos hcolumns]
      exact ⟨_, rfl⟩

theorem deriveColumnDefinitionEntries_of_assigned
    (hmissing : ¬ ColumnsPresent inputSheet hasHeader columnDefinitions)
    {property : PropertyAssignment}
    (h : getOrFailProperty services (reportedProperty hasHeader).name context =
      some (.ok property, context)) :
    ∃ message, deriveColumnDefinitionEntries services inputSheet hasHeader columnDefinitions
      context = some (.ok (errorDetails message { node := .propertyAssignment property }),
        context) := by
  obtain ⟨message, hderive⟩ := deriveColumnDefinitionEntries_of_missing services hmissing
  rw [hderive, Exec.bind_of_ok h]
  exact ⟨_, rfl⟩

theorem deriveColumnDefinitionEntries_of_left_out
    (hmissing : ¬ ColumnsPresent inputSheet hasHeader columnDefinitions) {error : JsError}
    (h : getOrFailProperty services (reportedProperty hasHeader).name context =
      some (.error error, context)) :
    deriveColumnDefinitionEntries services inputSheet hasHeader columnDefinitions context =
      some (.error error, context) := by
  obtain ⟨message, hderive⟩ := deriveColumnDefinitionEntries_of_missing services hmissing
  rw [hderive]
  exact Exec.bind_of_error h

end Missing

section Validated

variable {δ : Type} {props : JayveeValidationProps} {container : PropertyBodyContainer}
  {services : ExecutionServices} {context : ExecutionContext δ}
  {propertySpec : PropertySpecification}
  (hcontext : IsInside props container services context)
include hcontext

theorem getOrFailProperty_of_assigned (h : IsAssigned props container propertySpec) :
    ∃ property ∈ container.properties props.ast, property.name = propertySpec.name ∧
      getOrFailProperty services propertySpec.name context = some (.ok property, context) := by
  obtain ⟨property, hfind⟩ := exists_findProperty h
  obtain ⟨hproperty, hname⟩ := findProperty_eq_some hfind
  refine ⟨property, hproperty, hname, ?_⟩
  rw [getOrFailProperty, Exec.bind_of_ok (hcontext.getProperty_apply propertySpec.name)]
  rw [findProperty] at hfind
  rw [hfind]
  rfl

theorem getOrFailProperty_of_left_out (h : ¬ IsAssigned props container propertySpec) :
    getOrFailProperty services propertySpec.name context =
      some (.error (.assertionError "The expression evaluated to a falsy value"), context) := by
  have hfind : (container.properties props.ast).find?
      (fun property => property.name == propertySpec.name) = none :=
    List.find?_eq_none.mpr fun property hproperty hname =>
      h ⟨property, hproperty, by simpa using hname⟩
  rw [getOrFailProperty, Exec.bind_of_ok (hcontext.getProperty_apply propertySpec.name), hfind]
  rfl

end Validated

/-! ## The validated block -/

/-- What the block makes of a sheet: if the sheet has the columns, the table of the rows whose
cells all hold a value. Otherwise an error is reported at the property that the sheet does not
meet, which throws where the property is left out. -/
structure Interprets {δ : Type} (props : JayveeValidationProps) (block : BlockId)
    (services : ExecutionServices) (context : ExecutionContext δ) (hasHeader : Bool)
    (columnDefinitions : List ValuetypeAssignment) (columnEntries : List ColumnDefinitionEntry)
    (inputSheet : Sheet) : Prop where
  cells : ∀ columnEntry ∈ columnEntries, ∀ sheetRow value,
    cellValue services context sheetRow columnEntry = some value ↔
      HoldsValue props sheetRow columnEntry value
  table : ColumnsPresent inputSheet hasHeader columnDefinitions → columnEntries ≠ [] →
    ∃ table, doExecute services inputSheet context = some (.ok (.ok table), context) ∧
      IsInterpretation services context columnEntries (dataRows hasHeader inputSheet.data) table
  error : ¬ ColumnsPresent inputSheet hasHeader columnDefinitions →
    IsAssigned props (.block block) (reportedProperty hasHeader) →
      ∃ property ∈ (PropertyBodyContainer.block block).properties props.ast,
        property.name = (reportedProperty hasHeader).name ∧
        ∃ message, doExecute services inputSheet context = some
          (.ok (errorDetails message { node := .propertyAssignment property }), context)
  throws : ¬ ColumnsPresent inputSheet hasHeader columnDefinitions →
    ¬ IsAssigned props (.block block) (reportedProperty hasHeader) →
      doExecute services inputSheet context =
        some (.error (.assertionError "The expression evaluated to a falsy value"), context)

/-- `block Answers oftype TableInterpreter { columns: ["answer" oftype text]; }` -/
def answersAst : Ast where
  valuetypes := [⟨"Collection", true, none, none, some ⟨[⟨"ElementType"⟩]⟩⟩,
    ⟨"ValuetypeAssignment", true, none, none, none⟩, ⟨"boolean", true, none, none, none⟩,
    ⟨"text", true, none, none, none⟩]
  constraints := []
  transforms := []
  blocks := [⟨"Answers", some 0, [⟨"columns", .expression (.collectionLiteral
    [.valuetypeAssignmentLiteral ⟨"answer", ⟨some 3, []⟩⟩])⟩]⟩]
  blockTypes := [.builtin {
    name := "TableInterpreter"
    inputs := [⟨"default", some "Sheet"⟩]
    outputs := [⟨"default", some "Table"⟩]
    properties := [⟨"header", ⟨some 2, []⟩, some (.booleanLiteral true)⟩,
      ⟨"columns", ⟨some 0, [some 1]⟩, none⟩] }]

def answersProps : JayveeValidationProps :=
  { sampleProps with ast := answersAst }

def answersContext : ExecutionContext Unit :=
  { construct answersProps.evaluationContext with stack := [.block 0] }

theorem answers_not_isDefined (astNode : ValuetypeId) :
    ¬ IsDefined answersAst (.atomic astNode) := by
  rintro ⟨definition, hdefinition, hcustom⟩
  have hbuiltin : ∀ definition ∈ answersAst.valuetypes, definition.isBuiltin = true := by decide
  rw [hbuiltin definition (List.mem_of_getElem? hdefinition)] at hcustom
  cases hcustom

theorem answers_resolved : ResolvedHierarchy answersAst where
  acyclic T hT := by
    cases T with
    | atomic astNode => exact (answers_not_isDefined astNode hT).elim
    | _ => rfl
  supertype astNode hT := (answers_not_isDefined astNode hT).elim
  constraints astNode hT := (answers_not_isDefined astNode hT).elim

theorem answers_columns : IsValueOf answersProps (.block 0) columns
    (.collection ([⟨"answer", ⟨some 3, []⟩⟩].map .valuetypeAssignment)) where
  assigned property hproperty _ := by
    obtain rfl := List.mem_singleton.mp hproperty
    exact ⟨[], [], rfl⟩
  left_out habsent := (habsent _ List.mem_cons_self rfl).elim

end TableInterpreterExecutor

end Jayvee
