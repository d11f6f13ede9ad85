import Jayvee.Model.TextLineDeleterExecutor
import Jayvee.Verification.Properties.ValidatedValues

/-! # Validated blocks that select lines of a text file -/

namespace Jayvee

open Foundation ExecutionContext ValueType

namespace TextRangeSelectorExecutor

open TextLineDeleterExecutor (lineNumberTypeguard)

/-- The properties in `TextRangeSelector.jv`. -/
def lineFrom : PropertySpecification :=
  ⟨"lineFrom", Integer, some (.number 1)⟩

def lineTo : PropertySpecification :=
  ⟨"lineTo", Integer, some (.number 9007199254740991)⟩

def propertySpecifications : List PropertySpecification :=
  [lineFrom, lineTo]

/-! ## Selected lines -/

/-- The lines whose number, counted from one, is between the two numbers. -/
def linesBetween (content : List String) (first last : ℤ) : List String :=
  ((content.zipIdx 1).filter fun line => first ≤ line.2 ∧ (line.2 : ℤ) ≤ last).map Prod.fst

theorem slice_eq_linesBetween {content : List String} {first last : ℤ} (hfirst : 1 ≤ first)
    (hlast : 1 ≤ last) :
    JsArray.slice content (first - 1) last = linesBetween content first last := by
  rw [linesBetween, JsArray.map_filter_zipIdx, JsArray.slice_of_nonneg (by omega) (by omega)]
  simp

/-! ## Validated line numbers -/

section Validated

variable {δ : Type} {props : JayveeValidationProps} {block : BlockId}
  {services : ExecutionServices} {context : ExecutionContext δ}
  (h : ValidatedContainer props (.block block) propertySpecifications)
  (htypeName : (PropertyBodyContainer.block block).typeName props.ast = some "TextRangeSelector")
include h htypeName

/-- A line number of the block is a positive integer. -/
theorem exists_lineNumber (hcontext : IsInside props (.block block) services context)
    (propertySpec : PropertySpecification)
    (hspec : getPropertySpecification propertySpecifications propertySpec.name = some propertySpec)
    (hname : propertySpec.name = "lineFrom" ∨ propertySpec.name = "lineTo")
    (htype : propertySpec.type = Integer)
    (hdefault : ∀ x, propertySpec.defaultValue = some (.number x) → ∀ v ∈ x.value, 1 ≤ v) :
    ∃ line : ℤ, 1 ≤ line ∧
      getTypedPropertyValue services lineNumberTypeguard propertySpec.name propertySpec.type
        context = some (.ok line, context) ∧
      IsNumberOf props (.block block) propertySpec line := by
  have hcheck : ∀ x property, property.name = propertySpec.name →
      Exec.Passes Diagnostic.IsError (checkPropertyOfType props
        ((PropertyBodyContainer.block block).typeName props.ast) (.number x) property) () →
      Exec.Passes Diagnostic.IsError (checkNotSmallerThan 1 (.number x) property) () := by
    intro x property hproperty hpasses
    rw [htypeName] at hpasses
    have hcheck : Exec.Passes _ (checkTextRangeSelectorProperty (.number x) property) () := hpasses
    rwa [checkTextRangeSelectorProperty, if_pos (by rwa [hproperty])] at hcheck
  obtain ⟨line, hpositive, hvalueOf, x, hx, hread⟩ := exists_integer propertySpec h hcontext hspec
    htype 1 (fun x hleft v hv => by exact_mod_cast hdefault x hleft v hv) hcheck
  have hguard : lineNumberTypeguard (.number x) = some line := JsNumber.toInt?_of_value hx
  exact ⟨line, by exact_mod_cast hpositive, getTypedPropertyValue_of_value hread hguard, hvalueOf⟩

/-- The lines are in order if both are assigned. -/
theorem lineFrom_le_lineTo {first last : ℤ}
    (hfirst : IsNumberOf props (.block block) lineFrom first)
    (hlast : IsNumberOf props (.block block) lineTo last)
    (hassignedFrom : IsAssigned props (.block block) lineFrom)
    (hassignedTo : IsAssigned props (.block block) lineTo) : first ≤ last := by
  obtain ⟨fromProperty, hfindFrom⟩ := exists_findProperty hassignedFrom
  obtain ⟨toProperty, hfindTo⟩ := exists_findProperty hassignedTo
  obtain ⟨x, hx, hfirst⟩ := hfirst
  obtain ⟨y, hy, hlast⟩ := hlast
  have hcustom : Exec.Passes Diagnostic.IsError (checkBlockTypeSpecificPropertyBody props
      ((PropertyBodyContainer.block block).typeName props.ast)
        ((PropertyBodyContainer.block block).properties props.ast)) () := h.body.custom
  rw [htypeName] at hcustom
  have hpasses : Exec.Passes _ (checkTextRangeSelectorPropertyBody props _) () := hcustom
  obtain ⟨bounds, before, after, hbounds, hpasses⟩ := hpasses.bind_last
  cases hbounds.symm.trans (evaluateBounds_apply hfirst hlast rfl hfindFrom hfindTo before)
  exact_mod_cast le_of_checkBoundsOrder hx hy hpasses

end Validated

/-- A validated block never fails. It selects the lines whose number, counted from one, is between
the two numbers that the validation has found; they are in order if both are assigned. -/
theorem selectsLines_of_validated {δ : Type} (props : JayveeValidationProps) (block : BlockId)
    (h : ValidatedContainer props (.block block) propertySpecifications)
    (htypeName : (PropertyBodyContainer.block block).typeName props.ast = some "TextRangeSelector")
    (services : ExecutionServices) (context : ExecutionContext δ)
    (hcontext : IsInside props (.block block) services context) :
    ∃ first last : ℤ, 1 ≤ first ∧ 1 ≤ last ∧
      IsNumberOf props (.block block) lineFrom first ∧
      IsNumberOf props (.block block) lineTo last ∧
      (IsAssigned props (.block block) lineFrom → IsAssigned props (.block block) lineTo →
        first ≤ last) ∧
      ∀ file : TextFile, doExecute services file context =
        some (.ok (.ok { file with content := linesBetween file.content first last }),
          context) := by
  obtain ⟨first, hone, hfirst, hfirstValue⟩ :=
    exists_lineNumber h htypeName hcontext lineFrom rfl (.inl rfl) rfl
      fun x hdefault v hv => by cases hdefault; cases hv; exact le_rfl
  obtain ⟨last, hone', hlast, hlastValue⟩ :=
    exists_lineNumber h htypeName hcontext lineTo rfl (.inr rfl) rfl
      fun x hdefault v hv => by cases hdefault; cases hv; norm_num
  have hreadFirst : getTypedPropertyValue services lineNumberTypeguard "lineFrom" .Integer
      context = some (.ok first, context) := hfirst
  have hreadLast : getTypedPropertyValue services lineNumberTypeguard "lineTo" .Integer
      context = some (.ok last, context) := hlast
  refine ⟨first, last, hone, hone', hfirstValue, hlastValue,
    lineFrom_le_lineTo h htypeName hfirstValue hlastValue, fun file => ?_⟩
  rw [doExecute, Exec.bind_of_ok hreadFirst, Exec.bind_of_ok hreadLast,
    slice_eq_linesBetween hone hone']
  rfl

/-! ## The validated block of `Lines` -/

theorem selectsLines_of_validated_lines :
    ∃ first last : ℤ, ∀ file : TextFile, doExecute (sampleServices linesAst) file linesContext =
      some (.ok (.ok { file with content := linesBetween file.content first last }),
        linesContext) := by
  obtain ⟨first, last, _, _, _, _, _, hrun⟩ := selectsLines_of_validated linesProps 0
    lines_validated rfl (sampleServices linesAst) linesContext ⟨rfl, rfl, rfl, rfl⟩
  exact ⟨first, last, hrun⟩

end TextRangeSelectorExecutor

end Jayvee
