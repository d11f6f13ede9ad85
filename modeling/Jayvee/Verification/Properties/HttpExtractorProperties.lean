import Jayvee.Verification.Files.HttpExtraction
import Jayvee.Verification.Properties.ValidatedValues

/-! # Validated blocks that extract a file from the web -/

namespace Jayvee

open Foundation ExecutionContext ValueType

namespace HttpExtractorExecutor

/-- The properties of the block type in `HttpExtractor.jv`. -/
def propertySpecifications : List PropertySpecification :=
  [⟨"url", Text, none⟩,
    ⟨"retries", Integer, some (.number 0)⟩,
    ⟨"retryBackoffMilliseconds", Integer, some (.number 1000)⟩,
    ⟨"retryBackoffStrategy", Text, some (.string "exponential")⟩,
    ⟨"followRedirects", Boolean, some (.boolean true)⟩]

/-! ## Checks of the properties -/

section Checks

variable {props : JayveeValidationProps} {value : Value} {property : PropertyAssignment}
  (h : Exec.Passes Diagnostic.IsError (checkHttpExtractorProperty props value property) ())
include h

theorem passes_retries (hname : property.name = "retries") :
    Exec.Passes Diagnostic.IsError (checkNotSmallerThan 0 value property) () := by
  unfold checkHttpExtractorProperty at h
  simp only [hname, String.reduceEq, if_true, if_false] at h
  obtain ⟨_, hpasses, _⟩ := h.bind fun _ => Exec.Moves.pure ()
  exact hpasses

theorem passes_retryBackoffMilliseconds (hname : property.name = "retryBackoffMilliseconds") :
    Exec.Passes Diagnostic.IsError (checkNotSmallerThan 1000 value property) () := by
  unfold checkHttpExtractorProperty at h
  simp only [hname, String.reduceEq, if_true, if_false] at h
  obtain ⟨_, hpasses, _⟩ := h.bind fun _ => Exec.Moves.pure ()
  exact hpasses

theorem passes_retryBackoffStrategy (hname : property.name = "retryBackoffStrategy") :
    Exec.Passes Diagnostic.IsError (checkPropertyValueOneOf props value
      (["exponential", "linear"].map Value.string) property) () := by
  unfold checkHttpExtractorProperty at h
  simp only [hname, String.reduceEq, if_true, if_false] at h
  exact h

end Checks

/-! ## Validated properties -/

section Validated

variable {δ : Type} {props : JayveeValidationProps} {block : BlockId}
  {services : ExecutionServices} {context : ExecutionContext δ}
  (h : ValidatedContainer props (.block block) propertySpecifications)
  (hcontext : IsInside props (.block block) services context)
include h hcontext

theorem exists_text (propertySpec : PropertySpecification)
    (hspec : getPropertySpecification propertySpecifications propertySpec.name = some propertySpec)
    (htext : propertySpec.type = Text) :
    ∃ text, HasTypedProperty services context Value.stringTypeguard propertySpec.name
      propertySpec.type text := by
  have hguard : ∀ value, HasType props.ast propertySpec.type value →
      ∃ text, value.stringTypeguard = some text ∧ value = .string text := by
    intro value htype
    rw [htext] at htype
    cases value with
    | string text => exact ⟨text, rfl, rfl⟩
    | _ => cases hasType_primitive.mp htype
  obtain ⟨text, hread, _⟩ := exists_typedValue propertySpec h hcontext hspec Value.string hguard
  exact ⟨text, context, hread⟩

theorem exists_checkedInteger (htypeName : (PropertyBodyContainer.block block).typeName props.ast =
      some "HttpExtractor") (propertySpec : PropertySpecification)
    (hspec : getPropertySpecification propertySpecifications propertySpec.name = some propertySpec)
    (htype : propertySpec.type = Integer) (minimum : Nat)
    (hdefault : ∀ x, propertySpec.defaultValue = some (.number x) →
      ∀ v ∈ x.value, (minimum : ℚ) ≤ v)
    (hcheck : ∀ x property, property.name = propertySpec.name →
      Exec.Passes Diagnostic.IsError (checkHttpExtractorProperty props (.number x) property) () →
      Exec.Passes Diagnostic.IsError (checkNotSmallerThan minimum (.number x) property) ()) :
    ∃ n : ℤ, ∃ x : JsNumber, minimum ≤ n ∧ x.value = some (n : ℚ) ∧
      HasTypedProperty services context integerTypeguard propertySpec.name propertySpec.type n ∧
      HasTypedProperty services context Value.numberTypeguard propertySpec.name propertySpec.type
        x := by
  obtain ⟨n, hminimum, _, x, hx, hread⟩ := exists_integer propertySpec h hcontext hspec htype
    minimum hdefault fun x property hname hpasses => by
      rw [htypeName] at hpasses
      exact hcheck x property hname hpasses
  have hguard : integerTypeguard (.number x) = some n := JsNumber.toInt?_of_value hx
  exact ⟨n, x, hminimum, hx, ⟨context, getTypedPropertyValue_of_value hread hguard⟩,
    context, getTypedPropertyValue_of_value hread rfl⟩

theorem exists_strategy (htypeName : (PropertyBodyContainer.block block).typeName props.ast =
      some "HttpExtractor") : ∃ handle : BackoffStrategyHandle,
    HasTypedProperty services context Value.stringTypeguard "retryBackoffStrategy" .Text
      handle.text := by
  obtain ⟨value, hvalue, _, hfound⟩ :=
    h.getPropertyValue_apply hcontext "retryBackoffStrategy" rfl
  have hallowed : ∃ text ∈ ["exponential", "linear"], value = .string text := by
    rcases hfound with ⟨property, _, hname, _, hpasses⟩ | ⟨_, hequal⟩
    · rw [htypeName] at hpasses
      exact mem_of_checkPropertyValueOneOf (passes_retryBackoffStrategy hpasses hname)
    · cases hequal
      exact ⟨_, List.mem_cons_self, rfl⟩
  obtain ⟨text, htext, rfl⟩ := hallowed
  rcases List.mem_pair.mp htext with rfl | rfl
  · exact ⟨.exponential, _, getTypedPropertyValue_of_value hvalue rfl⟩
  · exact ⟨.linear, _, getTypedPropertyValue_of_value hvalue rfl⟩

/-- The URL has no default value, so it is in the body. -/
theorem url_assigned :
    ∃ property after, getProperty services "url" context = some (.ok (some property), after) := by
  have hassigned : IsAssigned props (.block block) ⟨"url", Text, none⟩ := h.isAssigned rfl rfl
  obtain ⟨property, hproperty, hname⟩ := hassigned
  have hfind := h.body.find?_eq hproperty
  rw [hname] at hfind
  refine ⟨property, context, ?_⟩
  rw [hcontext.getProperty_apply, hfind]

/-- All properties of the executor have values that meet its assertions. -/
theorem exists_httpProperties (htypeName : (PropertyBodyContainer.block block).typeName props.ast =
      some "HttpExtractor") : ∃ properties : HttpProperties,
    1000 ≤ properties.retryBackoffMilliseconds ∧
      HasHttpProperties services context properties := by
  obtain ⟨url, hurl⟩ := exists_text h hcontext ⟨"url", Text, none⟩ rfl rfl
  obtain ⟨retries, _, hretries, _, hretriesProperty, _⟩ := exists_checkedInteger h hcontext
    htypeName ⟨"retries", Integer, some (.number 0)⟩ rfl rfl 0
      (fun x hdefault v hv => by cases hdefault; cases hv; exact le_of_eq Nat.cast_zero)
      fun _ _ hname hpasses => passes_retries hpasses hname
  obtain ⟨thousand, milliseconds, hthousand, hvalue, _, hmillisecondsProperty⟩ :=
    exists_checkedInteger h hcontext htypeName
      ⟨"retryBackoffMilliseconds", Integer, some (.number 1000)⟩ rfl rfl 1000
        (fun x hdefault v hv => by cases hdefault; cases hv; exact le_rfl)
        fun _ _ hname hpasses => passes_retryBackoffMilliseconds hpasses hname
  have hmilliseconds : 1000 ≤ milliseconds :=
    (JsNumber.le_iff rfl hvalue).mpr (by exact_mod_cast hthousand)
  obtain ⟨handle, hhandle⟩ := exists_strategy h hcontext htypeName
  obtain ⟨followRedirects, hfollowRedirects, _⟩ :=
    exists_boolean ⟨"followRedirects", Boolean, some (.boolean true)⟩ h hcontext rfl rfl
  obtain ⟨n, rfl⟩ := Int.eq_ofNat_of_zero_le hretries
  exact ⟨⟨url, n, milliseconds, handle, followRedirects⟩, hmilliseconds, hurl, hretriesProperty,
    hmillisecondsProperty, hhandle, ⟨_, hfollowRedirects⟩, url_assigned h hcontext⟩

end Validated

/-- `block Cars oftype HttpExtractor { url: "https://example.org/cars.csv"; retries: 2; }` -/
def carsAst : Ast where
  valuetypes := [⟨"text", true, none, none, none⟩, ⟨"integer", true, none, none, none⟩,
    ⟨"boolean", true, none, none, none⟩]
  constraints := []
  transforms := []
  blocks := [⟨"Cars", some 0, [⟨"url", .expression (.textLiteral "https://example.org/cars.csv")⟩,
    ⟨"retries", .expression (.numericLiteral 2)⟩]⟩]
  blockTypes := [.builtin {
    name := "HttpExtractor"
    inputs := [⟨"default", some "None"⟩]
    outputs := [⟨"default", some "File"⟩]
    properties := [⟨"url", ⟨some 0, []⟩, none⟩,
      ⟨"retries", ⟨some 1, []⟩, some (.numericLiteral 0)⟩,
      ⟨"retryBackoffMilliseconds", ⟨some 1, []⟩, some (.numericLiteral 1000)⟩,
      ⟨"retryBackoffStrategy", ⟨some 0, []⟩, some (.textLiteral "exponential")⟩,
      ⟨"followRedirects", ⟨some 2, []⟩, some (.booleanLiteral true)⟩] }]

def carsProps : JayveeValidationProps :=
  { sampleProps with ast := carsAst }

def carsContext : ExecutionContext Unit :=
  { construct carsProps.evaluationContext with stack := [.block 0] }

/-- Calls throw for URLs with another protocol, and no server answers. -/
def silentNetwork : Network where
  get https url _ _ :=
    if url.startsWith (if https then "https://" else "http://") then .ok []
    else .error (.error s!"Invalid URL: {url}")
  calls := 0
  log := []

end HttpExtractorExecutor

end Jayvee
