import Jayvee.Foundation.Deletion
import Jayvee.Model.TextLineDeleterExecutor
import Jayvee.Verification.Execution.Properties
import Jayvee.Verification.Sheets.RangeSelection

/-! # Deleted lines of a text file

Lines are counted from one. A line number below one is not checked at run time. -/

namespace Jayvee

open Foundation ExecutionContext

namespace TextLineDeleterExecutor

variable {δ : Type} {content : List String} {lines : List ℤ} {numberOfLines : Nat}

/-! ## Line numbers -/

/-- The number of a line of the text file. -/
def IsLine (numberOfLines : Nat) (lineNumber : ℤ) : Prop :=
  1 ≤ lineNumber ∧ lineNumber ≤ numberOfLines

/-- The lines whose number is not listed, in order. -/
def withoutLines (content : List String) (lines : List ℤ) : List String :=
  JsArray.removeIndexes content (lines.map (· - 1))

theorem findMissingLine_eq_none_iff :
    findMissingLine numberOfLines lines = none ↔ ∀ lineNumber ∈ lines, lineNumber ≤ numberOfLines := by
  rw [findMissingLine, List.find?_eq_none]
  constructor
  · intro h lineNumber hmem
    rw [← List.zipIdx_map_fst 0 lines] at hmem
    obtain ⟨line, hline, rfl⟩ := List.mem_map.mp hmem
    simpa using h line hline
  · intro h line hline
    have hle := h line.1 (List.fst_mem_of_mem_zipIdx hline)
    simpa using hle

theorem mem_sortedLines {lineNumber : ℤ} : lineNumber ∈ sortedLines lines ↔ lineNumber ∈ lines := by
  rw [sortedLines, List.mem_insertionSort, distinctLines, List.mem_eraseDups]

/-! ## The new content -/

/-- Existing lines are deleted exactly. -/
theorem newContent_eq (h : ∀ lineNumber ∈ lines, IsLine content.length lineNumber) :
    newContent content lines = withoutLines content lines := by
  have hindexes : ∀ index : ℤ, index ∈ (sortedLines lines).reverse.map (· - 1) →
      0 ≤ index ∧ index < content.length := by
    intro index hindex
    obtain ⟨lineNumber, hmem, rfl⟩ := List.mem_map.mp hindex
    obtain ⟨hone, hle⟩ := h lineNumber (mem_sortedLines.mp (List.mem_reverse.mp hmem))
    omega
  have hdescending : ((sortedLines lines).reverse.map (· - 1)).Pairwise (· > ·) := by
    rw [List.pairwise_map]
    have hnodup : (distinctLines lines).Nodup := JsArray.nodup_eraseDups lines
    exact (JsArray.pairwise_reverse_insertionSort hnodup).imp fun hlt => by omega
  have hsplice := JsArray.spliceAll_eq_removeIndexes (fun index hindex => (hindexes index hindex).1)
    (fun index hindex => (hindexes index hindex).2) hdescending
  rw [newContent, ← List.foldl_map, ← JsArray.spliceAll, hsplice, withoutLines]
  refine JsArray.removeIndexes_congr fun i => ?_
  simp [mem_sortedLines]

/-! ## The executor -/

/-- The execution ends with an error, which is returned or thrown. -/
def Fails (outcome : Option (Except JsError (Result TextFile) × ExecutionContext δ)) : Prop :=
  ∃ after, (∃ details, outcome = some (.ok (.error details), after)) ∨
    ∃ error, outcome = some (.error error, after)

/-- What the block should do: it fails if a line does not exist, and it deletes the listed lines
otherwise. -/
def DeletesExactly (services : ExecutionServices) (context : ExecutionContext δ) (file : TextFile)
    (lines : List ℤ) : Prop :=
  (Fails (doExecute services file context) ↔
      ∃ lineNumber ∈ lines, ¬ IsLine file.content.length lineNumber) ∧
    ((∀ lineNumber ∈ lines, IsLine file.content.length lineNumber) →
      ∃ after, doExecute services file context =
        some (.ok (.ok { file with content := withoutLines file.content lines }), after))

variable {services : ExecutionServices} {context : ExecutionContext δ} {file : TextFile}

theorem doExecute_of_found
    (hlines : HasTypedProperty services context lineNumbersTypeguard "lines" (.collection .Integer)
      lines)
    (h : ∀ lineNumber ∈ lines, lineNumber ≤ file.content.length) :
    ∃ after, doExecute services file context =
      some (.ok (.ok { file with content := newContent file.content lines }), after) := by
  obtain ⟨after, hlines⟩ := hlines
  refine ⟨after, ?_⟩
  rw [doExecute, Exec.bind_of_ok hlines]
  simp only [findMissingLine_eq_none_iff.mpr h]
  rfl

theorem fails_of_missing
    (hlines : HasTypedProperty services context lineNumbersTypeguard "lines" (.collection .Integer)
      lines)
    (h : ∃ lineNumber ∈ lines, lineNumber > file.content.length) :
    Fails (doExecute services file context) := by
  obtain ⟨after, hlines⟩ := hlines
  cases hfind : findMissingLine file.content.length lines with
  | none =>
      obtain ⟨lineNumber, hmem, hgt⟩ := h
      have hle := findMissingLine_eq_none_iff.mp hfind lineNumber hmem
      omega
  | some line =>
      obtain ⟨result, hproperty⟩ := getOrFailProperty_reads services "lines" after
      refine ⟨after, ?_⟩
      rw [doExecute, Exec.bind_of_ok hlines]
      simp only [hfind]
      cases result with
      | error error => exact Or.inr ⟨error, Exec.bind_of_error hproperty⟩
      | ok property =>
          rw [Exec.bind_of_ok hproperty]
          exact Or.inl ⟨_, rfl⟩

theorem not_fails_of_ok {result : TextFile} {after : ExecutionContext δ}
    (h : doExecute services file context = some (.ok (.ok result), after)) :
    ¬ Fails (doExecute services file context) := by
  rintro ⟨_, ⟨_, herror⟩ | ⟨_, herror⟩⟩ <;> cases h.symm.trans herror

/-- The block meets its purpose exactly if no number is below one, or some other number makes it
fail. -/
theorem deletesExactly_iff (services : ExecutionServices) (context : ExecutionContext δ)
    (file : TextFile) (lines : List ℤ)
    (hlines : HasTypedProperty services context lineNumbersTypeguard "lines" (.collection .Integer)
      lines) :
    DeletesExactly services context file lines ↔
      (∀ lineNumber ∈ lines, 1 ≤ lineNumber) ∨
        ∃ lineNumber ∈ lines, lineNumber > file.content.length := by
  by_cases hmissing : ∃ lineNumber ∈ lines, lineNumber > file.content.length
  · obtain ⟨lineNumber, hmem, hgt⟩ := hmissing
    have hnot : ¬ IsLine file.content.length lineNumber := by
      intro hline
      have hle := hline.2
      omega
    refine iff_of_true ⟨?_, ?_⟩ (Or.inr ⟨lineNumber, hmem, hgt⟩)
    · exact iff_of_true (fails_of_missing hlines ⟨lineNumber, hmem, hgt⟩) ⟨lineNumber, hmem, hnot⟩
    · exact fun hall => absurd (hall lineNumber hmem) hnot
  · have hle : ∀ lineNumber ∈ lines, lineNumber ≤ file.content.length := by
      simpa using hmissing
    obtain ⟨after, hresult⟩ := doExecute_of_found hlines hle
    rw [or_iff_left hmissing]
    constructor
    · intro hexact lineNumber hmem
      by_contra hzero
      have hfails := hexact.1.mpr ⟨lineNumber, hmem, fun hline => hzero hline.1⟩
      exact not_fails_of_ok hresult hfails
    · intro hone
      have hall : ∀ lineNumber ∈ lines, IsLine file.content.length lineNumber :=
        fun lineNumber hmem => ⟨hone lineNumber hmem, hle lineNumber hmem⟩
      refine ⟨iff_of_false (not_fails_of_ok hresult) ?_, fun _ => ⟨after, ?_⟩⟩
      · rintro ⟨lineNumber, hmem, hnot⟩
        exact hnot (hall lineNumber hmem)
      · rw [hresult, newContent_eq hall]

/-! ## The validation -/

def lineNumberError (property : PropertyAssignment) (index : Nat) : Diagnostic where
  severity := .error
  message := "Line numbers need to be greater than zero"
  info := { node := .propertyValue property.value, property := some "values", index := some index }

/-- Each number below one is reported. -/
theorem checkLineNumber_logs (property : PropertyAssignment) (line : ℤ × Nat) :
    Exec.Logs (checkLineNumber property line) (.ok ())
      (if line.1 < 1 then [lineNumberError property line.2] else []) := by
  rw [checkLineNumber]
  split
  · exact accept_logs _ _ _
  · exact Exec.Logs.pure ()

/-- Where the validation knows the numbers and reports nothing, the block meets its purpose. -/
theorem deletesExactly_of_validated {property : PropertyAssignment}
    (hlines : HasTypedProperty services context lineNumbersTypeguard "lines" (.collection .Integer)
      lines)
    (hcheck : Exec.Logs (Exec.forEach lines.zipIdx (checkLineNumber property)) (.ok ()) []) :
    DeletesExactly services context file lines := by
  have hlogs := Exec.Logs.forEach fun line (_ : line ∈ lines.zipIdx) =>
    checkLineNumber_logs property line
  have hnone := (hcheck.unique hlogs).2
  rw [eq_comm, List.flatMap_eq_nil_iff] at hnone
  refine (deletesExactly_iff services context file lines hlines).mpr (Or.inl ?_)
  intro lineNumber hmem
  rw [← List.zipIdx_map_fst 0 lines] at hmem
  obtain ⟨line, hline, rfl⟩ := List.mem_map.mp hmem
  have hsilent := hnone line hline
  by_contra hzero
  rw [if_pos (by omega)] at hsilent
  cases hsilent

/-! ## A block inside of a composite block -/

/-- The value of the property `lines` is a property of the composite block. -/
def linesProperty : PropertyAssignment :=
  ⟨"lines", .expression (.referenceLiteral
    (some (.blockTypeProperty "numbers" ⟨some 0, [some 1]⟩)))⟩

def lineDeleterServices : ExecutionServices :=
  sampleServices {
    valuetypes := [⟨"Collection", true, none, none, some ⟨[⟨"ElementType"⟩]⟩⟩,
      ⟨"integer", true, none, none, none⟩]
    constraints := []
    transforms := []
    blocks := [⟨"Delete", none, [linesProperty]⟩]
    blockTypes := [] }

def lineDeleterContext (numbers : List Value) : ExecutionContext Unit :=
  { construct ((EvaluationContext.construct ⟨fun _ => none, none⟩).setValueForReference "numbers"
      (.collection numbers)) with stack := [.block 0] }

theorem deletesExactly_iff_lineDeleter :
    DeletesExactly lineDeleterServices (lineDeleterContext [.number 2, .number 1, .number 2])
      ⟨"test.txt", .TXT, .TEXT_PLAIN, ["a", "b", "c"]⟩ [2, 1, 2] :=
  (deletesExactly_iff lineDeleterServices (lineDeleterContext [.number 2, .number 1, .number 2])
    ⟨"test.txt", .TXT, .TEXT_PLAIN, ["a", "b", "c"]⟩ [2, 1, 2] ⟨_, by rfl⟩).mpr
      (Or.inl (by decide))

/-- The line number zero deletes the last line. The validation does not know the number. -/
theorem not_deletesExactly_zero :
    checkTextLineDeleterProperty lineDeleterServices
        (.construct ⟨fun _ => none, none⟩) linesProperty [] = some (.ok (), []) ∧
      ¬ ∀ (services : ExecutionServices) (context : ExecutionContext Unit) (file : TextFile)
        (lines : List ℤ),
        HasTypedProperty services context lineNumbersTypeguard "lines" (.collection .Integer)
          lines →
        DeletesExactly services context file lines := by
  refine ⟨by rfl, fun h => ?_⟩
  have hzero := h lineDeleterServices (lineDeleterContext [.number 0])
    ⟨"test.txt", .TXT, .TEXT_PLAIN, ["a", "b"]⟩ [0] ⟨_, by rfl⟩
  have hfails := hzero.1.mpr ⟨0, by decide, fun hline => absurd hline.1 (by decide)⟩
  have hresult : doExecute lineDeleterServices ⟨"test.txt", .TXT, .TEXT_PLAIN, ["a", "b"]⟩
      (lineDeleterContext [.number 0]) =
        some (.ok (.ok ⟨"test.txt", .TXT, .TEXT_PLAIN, ["a"]⟩), lineDeleterContext [.number 0]) := by
    rfl
  exact not_fails_of_ok hresult hfails

end TextLineDeleterExecutor

end Jayvee
