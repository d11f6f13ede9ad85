import Jayvee.Foundation.Exec
import Jayvee.Foundation.Loop
import Jayvee.Foundation.Trace
import Jayvee.Foundation.Digraph
import Jayvee.Foundation.Walk
import Jayvee.Foundation.JsArray
import Jayvee.Foundation.Deletion
import Jayvee.Foundation.JsMap
import Jayvee.Foundation.Namespace
import Jayvee.Foundation.Grid
import Jayvee.Foundation.Subterm
import Jayvee.Foundation.BijectiveNumeral
import Jayvee.Foundation.FreshName
import Jayvee.Foundation.Double
import Jayvee.Foundation.RegExp
import Jayvee.Foundation.Numeral
import Jayvee.Foundation.Reports
import Jayvee.Model.Ast
import Jayvee.Model.ValueType
import Jayvee.Model.InternalValue
import Jayvee.Model.CellRange
import Jayvee.Model.TypeInference
import Jayvee.Model.Evaluation
import Jayvee.Model.PipelineWrapper
import Jayvee.Model.BlockTypeWrapper
import Jayvee.Model.PipelineValidation
import Jayvee.Model.ImportResolver
import Jayvee.Model.ImportValidation
import Jayvee.Model.ExecutionContext
import Jayvee.Model.ConstraintExecutor
import Jayvee.Model.TransformExecutor
import Jayvee.Model.BlockExecution
import Jayvee.Model.CompositeBlockExecutor
import Jayvee.Model.Sheet
import Jayvee.Model.Table
import Jayvee.Model.TableExecutors
import Jayvee.Model.DeleterExecutors
import Jayvee.Model.TableStatements
import Jayvee.Model.DatabaseLoaders
import Jayvee.Model.FileSystem
import Jayvee.Model.ValueTypeValidation
import Jayvee.Model.CellExecutors
import Jayvee.Model.ExpressionValidation
import Jayvee.Model.Workbook
import Jayvee.Model.LogCache
import Jayvee.Model.TextLineDeleterExecutor
import Jayvee.Model.GtfsRTInterpreterExecutor
import Jayvee.Model.TableOperations
import Jayvee.Model.NumberParsing
import Jayvee.Model.PropertyValidation
import Jayvee.Verification.Typing.Convertibility
import Jayvee.Verification.Typing.Hierarchy
import Jayvee.Verification.Typing.CollectionTypes
import Jayvee.Verification.Typing.HierarchyStacks
import Jayvee.Verification.Typing.LeastUpperBound
import Jayvee.Verification.Typing.TypingRules
import Jayvee.Verification.Typing.Preservation
import Jayvee.Verification.Typing.Refinement
import Jayvee.Verification.Typing.WrappableReferences
import Jayvee.Verification.Typing.SupertypeCycles
import Jayvee.Verification.Typing.ValueTypeReferences
import Jayvee.Verification.Typing.SubtypeOrder
import Jayvee.Verification.Typing.ConstraintCompatibility
import Jayvee.Verification.Evaluation.Termination
import Jayvee.Verification.Evaluation.Meaning
import Jayvee.Verification.Evaluation.ThrownErrors
import Jayvee.Verification.Evaluation.LargerContexts
import Jayvee.Verification.Evaluation.QuietValues
import Jayvee.Verification.Evaluation.Strategies
import Jayvee.Verification.Evaluation.Numerals
import Jayvee.Verification.Evaluation.NumberParsing
import Jayvee.Verification.Expressions.Subexpressions
import Jayvee.Verification.Typing.InferenceReports
import Jayvee.Verification.Expressions.References
import Jayvee.Verification.Expressions.Simplification
import Jayvee.Verification.Expressions.Replacement
import Jayvee.Verification.Expressions.Suggestions
import Jayvee.Verification.Pipeline.Pipes
import Jayvee.Verification.Pipeline.TopologicalSorting
import Jayvee.Verification.Pipeline.MultipleInputs
import Jayvee.Verification.Pipeline.Validation
import Jayvee.Verification.Execution.PropertyBinding
import Jayvee.Verification.Execution.OrderRun
import Jayvee.Verification.Execution.DataFlow
import Jayvee.Verification.Execution.Properties
import Jayvee.Verification.Execution.StackBalance
import Jayvee.Verification.Execution.Effect
import Jayvee.Verification.Execution.Compositional
import Jayvee.Verification.Execution.Discipline
import Jayvee.Verification.Execution.VariableFrame
import Jayvee.Verification.Execution.CompositeChain
import Jayvee.Verification.Pipeline.Chain
import Jayvee.Verification.Pipeline.CompositeValidation
import Jayvee.Verification.Pipeline.BlockCompatibility
import Jayvee.Verification.Execution.UnbrokenFlow
import Jayvee.Verification.Execution.Unfolding
import Jayvee.Verification.Execution.IoTypes
import Jayvee.Verification.Execution.TypedPipelines
import Jayvee.Verification.Execution.Validity
import Jayvee.Verification.Execution.ContextFree
import Jayvee.Verification.Execution.ExpressionConstraints
import Jayvee.Verification.Imports.CyclicImports
import Jayvee.Verification.Imports.ExportedElements
import Jayvee.Verification.Imports.ImportedElements
import Jayvee.Verification.Imports.UniqueExports
import Jayvee.Verification.Imports.LoadedImports
import Jayvee.Verification.Sheets.ColumnIds
import Jayvee.Verification.Sheets.CellRanges
import Jayvee.Verification.Sheets.Dimensions
import Jayvee.Verification.Sheets.Deleters
import Jayvee.Verification.Sheets.Classification
import Jayvee.Verification.Sheets.RangeSelection
import Jayvee.Verification.Sheets.CellWriter
import Jayvee.Verification.Sheets.Workbooks
import Jayvee.Verification.Tables.Operations
import Jayvee.Verification.Tables.Interpreter
import Jayvee.Verification.Tables.Transformer
import Jayvee.Verification.Tables.Pipelines
import Jayvee.Verification.Tables.TransformRows
import Jayvee.Verification.Tables.AlignedRows
import Jayvee.Verification.Tables.AlignedTransformer
import Jayvee.Verification.Tables.InterpretedRows
import Jayvee.Verification.Tables.InterpretedTable
import Jayvee.Verification.Tables.Statements
import Jayvee.Verification.Tables.WellFormedStatements
import Jayvee.Verification.Tables.InsertedRows
import Jayvee.Verification.Tables.FailedRows
import Jayvee.Verification.Tables.Rows
import Jayvee.Verification.Tables.DatabaseQueries
import Jayvee.Verification.Tables.DatabaseLoads
import Jayvee.Verification.Execution.ChainValues
import Jayvee.Verification.Tables.RowFunctions
import Jayvee.Verification.Tables.RowPipelines
import Jayvee.Verification.Files.Nodes
import Jayvee.Verification.Files.ReadYourWrites
import Jayvee.Verification.Files.FailedPuts
import Jayvee.Verification.Files.TextLineDeleter
import Jayvee.Verification.Files.Archives
import Jayvee.Verification.Files.HttpExtraction
import Jayvee.Verification.Feeds.Entities
import Jayvee.Verification.Feeds.AlertTexts
import Jayvee.Verification.Logging.LogCache
import Jayvee.Verification.Properties.PassedChecks
import Jayvee.Verification.Properties.AcceptedBodies
import Jayvee.Verification.Properties.ValidatedValues
import Jayvee.Verification.Properties.HttpExtractorProperties
import Jayvee.Verification.Properties.ConstraintBounds
import Jayvee.Verification.Properties.ValidatedValueTypes
import Jayvee.Verification.Properties.TableInterpreterProperties
import Jayvee.Verification.Properties.TextRangeSelectorProperties
