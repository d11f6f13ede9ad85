import Jayvee.Foundation.SqlDatabase
import Jayvee.Model.DatabaseLoaders
import Jayvee.Verification.Tables.WellFormedStatements

/-! # What the statements for a table do to a database -/

namespace Jayvee

open Foundation Sql Lexeme ValueType

variable {ast : Ast} {runtime : JsRuntime} {table : Table} {tableName : String}

/-! ## What a table looks like in a database -/

def storedColumns (ast : Ast) (table : Table) : List ColumnDefinition :=
  table.columns.entries.map fun entry => ⟨entry.1, sqlType (rootKind ast entry.2.valueType)⟩

/-- The rows as tuples of literals. -/
def rowTuples (runtime : JsRuntime) (table : Table) : List (List Literal) :=
  ((List.range table.numberOfRows).map (rowCells table)).map (List.map (readCell runtime))

theorem names_storedColumns (ast : Ast) (table : Table) :
    (storedColumns ast table).map ColumnDefinition.name = table.columns.keys := by
  rw [storedColumns, List.map_map]
  rfl

theorem length_of_mem_rowTuples {tuple : List Literal} (h : tuple ∈ rowTuples runtime table) :
    tuple.length = (storedColumns ast table).length := by
  obtain ⟨cells, hcells, rfl⟩ := List.mem_map.mp h
  obtain ⟨rowIndex, _, rfl⟩ := List.mem_map.mp hcells
  rw [List.length_map, rowCells, List.length_map, storedColumns, List.length_map]

theorem rowTuples_eq_nil_iff : rowTuples runtime table = [] ↔ table.numberOfRows = 0 := by
  simp [rowTuples]

/-! ## Tokens -/

theorem tokens_createLexemes : (createLexemes ast table tableName).flatMap tokens =
    createTokens tableName (storedColumns ast table) := by
  have hcolumns : ([comma].intercalate
      (table.columns.entries.map (columnLexemes ast))).flatMap tokens =
        [.symbol ','].intercalate ((storedColumns ast table).map columnTokens) := by
    rw [flatMap_intercalate, storedColumns, List.map_map, List.map_map]
    rfl
  rw [createLexemes, List.flatMap_append, List.flatMap_cons, List.flatMap_cons, List.flatMap_cons,
    List.flatMap_append, hcolumns, createTokens, tupleTokens]
  simp only [createWords, tokens, List.flatMap_cons, List.flatMap_nil, List.append_assoc,
    List.cons_append, List.nil_append, List.append_nil]

/-! ## Statements that are sent -/

/-- A table that each database can store under a name: the columns are of simple types, numbers
are printed as such, and the names are different and without quotes. -/
structure Storable {κ : Type} (dialect : Dialect κ) (runtime : JsRuntime) (ast : Ast)
    (table : Table) (tableName : String) : Prop where
  loadable : table.Loadable ast
  printsNumbers : PrintsNumbers runtime table
  namesQuoteFree : NamesQuoteFree table tableName
  hasColumns : table.columns.keys ≠ []
  distinct : dialect.Distinct (storedColumns ast table)

section Queries

variable {ω κ : Type} {engine : Engine ω κ} {query : String → Exec ω JsError Unit}

/-- The rows as they are stored, all or none of them. -/
def storedRows (dialect : Dialect κ) (runtime : JsRuntime) (ast : Ast) (table : Table) :
    List (List (Option κ)) :=
  (dialect.storeTuples (storedColumns ast table) (rowTuples runtime table)).getD []

/-- The rows all fit, and there is one. -/
def RowsFit (dialect : Dialect κ) (runtime : JsRuntime) (ast : Ast) (table : Table) : Prop :=
  table.numberOfRows ≠ 0 ∧
    (dialect.storeTuples (storedColumns ast table) (rowTuples runtime table)).isSome = true

theorem query_drop (hserves : engine.Serves query) (hname : '"' ∉ tableName.toList) (s : ω) :
    ∃ s', query (Table.generateDropTableStatement tableName) s = some (.ok (), s') ∧
      engine.tables s' =
        Function.update (engine.tables s) (engine.canonicalName tableName) none := by
  have hfree : ∀ lexeme ∈ dropLexemes tableName, lexeme.QuoteFree := by
    rw [forall_quoteFree_iff, identifiers_dropLexemes, List.forall_mem_singleton]
    exact hname
  have htokens : tokenize (Table.generateDropTableStatement tableName).toList =
      some (dropTokens tableName) := by
    rw [spell_dropLexemes]
    exact tokenize_spell separated_dropLexemes isWellSpelled_dropLexemes hfree
  exact hserves.drops _ tableName s htokens

/-- A table is created, or the one with its name stays. -/
theorem query_create (hserves : engine.Serves query)
    (h : Storable engine.toDialect runtime ast table tableName) (s : ω) :
    ∃ statement s', table.generateCreateTableStatement ast tableName = .ok statement ∧
      query statement s = some (.ok (), s') ∧
      engine.tables s' = Function.update (engine.tables s) (engine.canonicalName tableName)
        (some ((engine.tables s (engine.canonicalName tableName)).getD
          ⟨storedColumns ast table, []⟩)) := by
  obtain ⟨statement, hstatement, hspelled⟩ := generateCreateTableStatement_eq h.loadable tableName
  have hfree : ∀ lexeme ∈ createLexemes ast table tableName, lexeme.QuoteFree := by
    rw [forall_quoteFree_iff, identifiers_createLexemes]
    exact h.namesQuoteFree
  have htokens : tokenize statement.toList =
      some (createTokens tableName (storedColumns ast table)) := by
    rw [hspelled, tokenize_spell separated_createLexemes isWellSpelled_createLexemes hfree,
      tokens_createLexemes]
  have hcolumns : storedColumns ast table ≠ [] := by
    intro hnil
    have hnames := names_storedColumns ast table
    rw [hnil] at hnames
    exact h.hasColumns hnames.symm
  obtain ⟨s', hquery, htables⟩ :=
    hserves.creates statement tableName (storedColumns ast table) s htokens hcolumns h.distinct
  exact ⟨statement, s', hstatement, hquery, htables⟩

/-- The rows are inserted into a table that has the columns, all or none. Without a row the
statement is rejected. -/
theorem query_insert (hserves : engine.Serves query)
    (h : Storable engine.toDialect runtime ast table tableName) (s : ω) :
    ∃ statement result s', table.generateInsertValuesStatement runtime ast tableName =
        .ok statement ∧
      query statement s = some (result, s') ∧
      (∀ name ≠ engine.canonicalName tableName, engine.tables s' name = engine.tables s name) ∧
      ∀ rows, engine.tables s (engine.canonicalName tableName) =
          some ⟨storedColumns ast table, rows⟩ →
        engine.tables s' (engine.canonicalName tableName) = some ⟨storedColumns ast table,
          rows ++ storedRows engine.toDialect runtime ast table⟩ ∧
        (result = .ok () ↔ RowsFit engine.toDialect runtime ast table) := by
  obtain ⟨statement, hstatement, hspelled⟩ :=
    generateInsertValuesStatement_eq h.loadable runtime tableName
  have htokens : tokenize statement.toList =
      some ((insertLexemes runtime table tableName).flatMap tokens) := by
    rw [hspelled]
    exact tokenize_insertLexemes h.loadable h.printsNumbers h.namesQuoteFree
  by_cases hrows : table.numberOfRows = 0
  · have hempty : (insertLexemes runtime table tableName).flatMap tokens =
        insertTokens tableName table.columns.keys id [] := by
      rw [tokens_insertLexemes, hrows, List.range_zero, List.map_nil]
      rfl
    rw [hempty] at htokens
    obtain ⟨error, s', hquery⟩ := hserves.insertsSome statement tableName table.columns.keys s
      h.hasColumns htokens
    have hsame := hserves.rejects statement s error s' hquery
    refine ⟨statement, .error error, s', hstatement, hquery, fun name _ => congrFun hsame name,
      fun rows hstored => ⟨?_, ?_⟩⟩
    · have hnone : storedRows engine.toDialect runtime ast table = [] := by
        rw [storedRows, rowTuples_eq_nil_iff.mpr hrows]
        rfl
      rw [hsame, hstored, hnone, List.append_nil]
    · simp [RowsFit, hrows]
  · have hinsertion : parseInsert ((insertLexemes runtime table tableName).flatMap tokens) =
        some ⟨tableName, table.columns.keys, rowTuples runtime table⟩ :=
      parseInsert_insertLexemes h.loadable h.printsNumbers h.hasColumns (Nat.pos_of_ne_zero hrows)
    obtain ⟨result, s', hquery⟩ := hserves.answers statement s
    have honly := hserves.insertsOnly statement _ _ s result s' htokens hinsertion hquery
    refine ⟨statement, result, s', hstatement, hquery, honly, fun rows hstored => ?_⟩
    obtain ⟨result', s'', hquery', hresult, htables⟩ :=
      hserves.inserts statement _ _ _ s htokens hinsertion hstored
        ⟨(names_storedColumns ast table).symm, h.distinct,
          fun tuple htuple => length_of_mem_rowTuples htuple⟩
    cases hquery.symm.trans hquery'
    refine ⟨?_, hresult.trans (and_iff_right hrows).symm⟩
    rw [htables, Function.update_self]
    rfl

end Queries

end Jayvee
