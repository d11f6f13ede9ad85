import Jayvee.Verification.Tables.Statements

/-! # Statements that SQL reads as meant -/

namespace Jayvee

open Foundation Sql Lexeme ValueType

variable {ast : Ast} {runtime : JsRuntime} {table : Table} {tableName : String}

/-! ## Single statements -/

theorem isStatement_drop_iff :
    IsStatement (Table.generateDropTableStatement tableName).toList [tableName] ↔
      '"' ∉ tableName.toList := by
  have hinit : symbol ';' ∉ dropWords ++ [.identifier tableName] := by
    simp [dropWords]
  have hlexemes : dropLexemes tableName =
      (dropWords ++ [.identifier tableName]) ++ [.symbol ';'] := by
    simp [dropLexemes]
  have hiff := isStatement_spell_iff hlexemes hinit (Or.inr rfl) separated_dropLexemes
    isWellSpelled_dropLexemes
  rw [← spell_dropLexemes, identifiers_dropLexemes] at hiff
  rw [hiff, List.forall_mem_singleton]

/-- The lexemes of a statement that creates a table, up to the last. -/
def createInit (ast : Ast) (table : Table) (tableName : String) : List Lexeme :=
  createWords ++ .identifier tableName :: .space :: .symbol '(' ::
    ([comma].intercalate (table.columns.entries.map (columnLexemes ast)) ++ [.symbol ')'])

theorem createLexemes_eq :
    createLexemes ast table tableName = createInit ast table tableName ++ [.symbol ';'] := by
  simp [createLexemes, createInit]

theorem semicolon_not_mem_createInit : symbol ';' ∉ createInit ast table tableName := by
  have hcolumns : ∀ lexeme ∈ [comma].intercalate
      (table.columns.entries.map (columnLexemes ast)), symbol ';' ≠ lexeme := by
    refine forall_mem_intercalate (by simp [comma]) fun piece hpiece => ?_
    obtain ⟨entry, _, rfl⟩ := List.mem_map.mp hpiece
    simp [columnLexemes]
  have hmem : symbol ';' ∉ [comma].intercalate
      (table.columns.entries.map (columnLexemes ast)) := fun hmem => hcolumns _ hmem rfl
  simp [createInit, createWords, hmem]

theorem semicolon_not_mem_rowLexemes (cells : List Value) :
    symbol ';' ∉ rowLexemes runtime cells := by
  have hcells : ∀ lexeme ∈ [comma].intercalate (cells.map fun cell => [cellLexeme runtime cell]),
      symbol ';' ≠ lexeme := by
    refine forall_mem_intercalate (by simp [comma]) fun piece hpiece => ?_
    obtain ⟨cell, _, rfl⟩ := List.mem_map.mp hpiece
    cases cell <;> simp [cellLexeme]
  have hmem : symbol ';' ∉ [comma].intercalate (cells.map fun cell => [cellLexeme runtime cell]) :=
    fun hmem => hcells _ hmem rfl
  simp [rowLexemes, hmem]

theorem semicolon_not_mem_insertLexemes :
    symbol ';' ∉ insertLexemes runtime table tableName := by
  have hnames : ∀ lexeme ∈ [comma].intercalate
      (table.columns.keys.map fun name => [.identifier name]), symbol ';' ≠ lexeme := by
    refine forall_mem_intercalate (by simp [comma]) fun piece hpiece => ?_
    obtain ⟨name, _, rfl⟩ := List.mem_map.mp hpiece
    simp
  have hrows : ∀ lexeme ∈ [comma, .space].intercalate
      ((List.range table.numberOfRows).map fun rowIndex =>
        rowLexemes runtime (rowCells table rowIndex)), symbol ';' ≠ lexeme := by
    refine forall_mem_intercalate (by simp [comma]) fun piece hpiece lexeme hlexeme heq => ?_
    obtain ⟨rowIndex, _, rfl⟩ := List.mem_map.mp hpiece
    exact semicolon_not_mem_rowLexemes _ (heq ▸ hlexeme)
  rw [insertLexemes]
  intro hmem
  have hall : ∀ lexeme ∈ insertWords ++ .identifier tableName :: .space :: .symbol '(' ::
      ([comma].intercalate (table.columns.keys.map fun name => [.identifier name]) ++
        .symbol ')' :: .space :: .word "VALUES" :: .space ::
          [comma, .space].intercalate
            ((List.range table.numberOfRows).map fun rowIndex =>
              rowLexemes runtime (rowCells table rowIndex))), symbol ';' ≠ lexeme := by
    rw [List.forall_mem_append, List.forall_mem_cons, List.forall_mem_cons, List.forall_mem_cons,
      List.forall_mem_append, List.forall_mem_cons, List.forall_mem_cons, List.forall_mem_cons,
      List.forall_mem_cons]
    exact ⟨by simp [insertWords], by simp, by simp, by simp, hnames, by simp, by simp, by simp,
      by simp, hrows⟩
  exact hall _ hmem rfl

/-- The names of the table and its columns have no quote. -/
def NamesQuoteFree (table : Table) (tableName : String) : Prop :=
  ∀ name ∈ tableName :: table.columns.keys, '"' ∉ name.toList

theorem isStatement_create_iff :
    IsStatement (spell (createLexemes ast table tableName)) (tableName :: table.columns.keys) ↔
      NamesQuoteFree table tableName := by
  rw [NamesQuoteFree, ← identifiers_createLexemes]
  exact isStatement_spell_iff createLexemes_eq semicolon_not_mem_createInit (Or.inr rfl)
    separated_createLexemes isWellSpelled_createLexemes

theorem isStatement_insert_iff (h : table.Loadable ast) (hnumbers : PrintsNumbers runtime table) :
    IsStatement (spell (insertLexemes runtime table tableName))
        (tableName :: table.columns.keys) ↔ NamesQuoteFree table tableName := by
  rw [NamesQuoteFree, ← identifiers_insertLexemes runtime]
  exact isStatement_spell_iff (List.append_nil _).symm semicolon_not_mem_insertLexemes
    (Or.inl rfl) separated_insertLexemes (isWellSpelled_insertLexemes h hnumbers)

/-! ## Loaded tables -/

/-- A text that inserts at least one tuple of values. -/
def InsertsTuples (text : List Char) : Prop :=
  ∃ tokens insert, tokenize text = some tokens ∧ parseInsert tokens = some insert ∧
    insert.tuples ≠ []

/-- The statements that a loader executes. -/
def Executes (runtime : JsRuntime) (ast : Ast) (table : Table) (tableName statement : String) :
    Prop :=
  ∃ succeeds : String → Bool,
    statement ∈ runQueries succeeds (PostgresLoaderExecutor.queries runtime ast table tableName) ∨
      ∃ dropTable, statement ∈ runQueries succeeds
        (SQLiteLoaderExecutor.queries runtime ast table tableName dropTable)

/-- What SQL is expected to read in the statements for a table. -/
structure StatementsWellFormed (runtime : JsRuntime) (ast : Ast) (table : Table)
    (tableName : String) : Prop where
  drop : IsStatement (Table.generateDropTableStatement tableName).toList [tableName]
  create : ∃ statement, table.generateCreateTableStatement ast tableName = .ok statement ∧
    IsStatement statement.toList (tableName :: table.columns.keys)
  insert : ∃ statement, table.generateInsertValuesStatement runtime ast tableName = .ok statement ∧
    IsStatement statement.toList (tableName :: table.columns.keys) ∧
      (Executes runtime ast table tableName statement → InsertsTuples statement.toList)

theorem StatementsWellFormed.namesQuoteFree (hwf : StatementsWellFormed runtime ast table tableName)
    (h : table.Loadable ast) : NamesQuoteFree table tableName := by
  obtain ⟨statement, hstatement, hread⟩ := hwf.create
  obtain ⟨statement', hstatement', hspelled⟩ := generateCreateTableStatement_eq h tableName
  obtain rfl : statement = statement' := Except.ok.inj (hstatement.symm.trans hstatement')
  rw [hspelled] at hread
  exact isStatement_create_iff.mp hread

/-- The insertion is executed whatever the table is. -/
theorem executes_insert (h : table.Loadable ast) {statement : String}
    (hstatement : table.generateInsertValuesStatement runtime ast tableName = .ok statement) :
    Executes runtime ast table tableName statement := by
  obtain ⟨create, hcreate, _⟩ := generateCreateTableStatement_eq h tableName
  refine ⟨fun _ => true, Or.inl ?_⟩
  rw [PostgresLoaderExecutor.queries, hcreate, hstatement]
  simp [runQueries]

/-- The insertion is read as its tokens. -/
theorem tokenize_insertLexemes (h : table.Loadable ast) (hnumbers : PrintsNumbers runtime table)
    (hfree : NamesQuoteFree table tableName) :
    tokenize (spell (insertLexemes runtime table tableName)) =
      some ((insertLexemes runtime table tableName).flatMap tokens) := by
  refine tokenize_spell separated_insertLexemes (isWellSpelled_insertLexemes h hnumbers) ?_
  rw [forall_quoteFree_iff, identifiers_insertLexemes]
  exact hfree

theorem StatementsWellFormed.rows_pos (hwf : StatementsWellFormed runtime ast table tableName)
    (h : table.Loadable ast) (hnumbers : PrintsNumbers runtime table)
    (hcolumns : table.columns.keys ≠ []) : 0 < table.numberOfRows := by
  obtain ⟨statement, hstatement, _, htuples⟩ := hwf.insert
  obtain ⟨tokens, insert, htokens, hinsert, _⟩ := htuples (executes_insert h hstatement)
  obtain ⟨statement', hstatement', hspelled⟩ := generateInsertValuesStatement_eq h runtime tableName
  obtain rfl : statement = statement' := Except.ok.inj (hstatement.symm.trans hstatement')
  rw [hspelled, tokenize_insertLexemes h hnumbers (hwf.namesQuoteFree h)] at htokens
  rw [← Option.some.inj htokens, tokens_insertLexemes] at hinsert
  rw [Nat.pos_iff_ne_zero]
  intro hempty
  rw [hempty, List.range_zero, List.map_nil, parseInsert_insertTokens_nil hcolumns] at hinsert
  cases hinsert

theorem statementsWellFormed (h : table.Loadable ast) (hnumbers : PrintsNumbers runtime table)
    (hcolumns : table.columns.keys ≠ []) (hfree : NamesQuoteFree table tableName)
    (hrows : 0 < table.numberOfRows) : StatementsWellFormed runtime ast table tableName := by
  obtain ⟨create, hcreate, hcreateSpelled⟩ := generateCreateTableStatement_eq h tableName
  obtain ⟨insert, hinsert, hinsertSpelled⟩ := generateInsertValuesStatement_eq h runtime tableName
  refine ⟨isStatement_drop_iff.mpr (hfree tableName List.mem_cons_self),
    ⟨create, hcreate, ?_⟩, ⟨insert, hinsert, ?_, fun _ => ?_⟩⟩
  · rw [hcreateSpelled]
    exact isStatement_create_iff.mpr hfree
  · rw [hinsertSpelled]
    exact (isStatement_insert_iff h hnumbers).mpr hfree
  · rw [hinsertSpelled]
    refine ⟨_, _, tokenize_insertLexemes h hnumbers hfree,
      parseInsert_insertLexemes h hnumbers hcolumns hrows, ?_⟩
    simpa using Nat.pos_iff_ne_zero.mp hrows

/-- The statements for a table with columns are read as meant exactly if no name has a quote and
the table has a row. -/
theorem statementsWellFormed_iff (runtime : JsRuntime) (ast : Ast) (table : Table)
    (tableName : String) (h : table.Loadable ast) (hnumbers : PrintsNumbers runtime table)
    (hcolumns : 1 ≤ table.columns.size) : StatementsWellFormed runtime ast table tableName ↔
      NamesQuoteFree table tableName ∧ 0 < table.numberOfRows := by
  have hkeys : table.columns.keys ≠ [] := by
    rw [← List.length_pos_iff, JsMap.length_keys]
    exact hcolumns
  constructor
  · intro hwf
    exact ⟨hwf.namesQuoteFree h, hwf.rows_pos h hnumbers hkeys⟩
  · rintro ⟨hfree, hrows⟩
    exact statementsWellFormed h hnumbers hkeys hfree hrows

/-- A text and a number in a row. -/
def noteTable : Table where
  numberOfRows := 1
  columns := ⟨[("note", ⟨[.string "it's ('new')"], Text⟩), ("n", ⟨[.number (-3)], Integer⟩)],
    by decide⟩

theorem eq_of_getColumn_noteTable {name : String} {column : TableColumn}
    (h : noteTable.getColumn name = some column) :
    column = ⟨[.string "it's ('new')"], Text⟩ ∨ column = ⟨[.number (-3)], Integer⟩ := by
  have hmem : (name, column) ∈ noteTable.columns.entries := JsMap.mem_entries_iff.mpr h
  rw [noteTable, List.mem_cons, List.mem_singleton] at hmem
  exact hmem.imp (fun heq => (Prod.mk.inj heq).2) (fun heq => (Prod.mk.inj heq).2)

theorem noteTable_loadable : noteTable.Loadable ast := by
  refine ⟨fun name column hcolumn => ?_, fun name column hcolumn => ?_⟩
  · rcases eq_of_getColumn_noteTable hcolumn with rfl | rfl
    · refine ⟨rfl, fun value hvalue => ?_⟩
      obtain rfl : value = .string "it's ('new')" := by simpa using hvalue
      exact hasType_primitive.mpr rfl
    · refine ⟨rfl, fun value hvalue => ?_⟩
      obtain rfl : value = .number (-3) := by simpa using hvalue
      exact hasType_primitive.mpr rfl
  · rcases eq_of_getColumn_noteTable hcolumn with rfl | rfl
    · exact ⟨"text", rfl⟩
    · exact ⟨"integer", rfl⟩

theorem noteTable_printsNumbers : PrintsNumbers sampleRuntime noteTable := by
  intro name column hcolumn x hx
  rcases eq_of_getColumn_noteTable hcolumn with rfl | rfl
  · simp at hx
  · obtain rfl : x = -3 := by simpa using hx
    decide

theorem statementsWellFormed_iff_noteTable : 1 ≤ noteTable.columns.size ∧
    (StatementsWellFormed sampleRuntime emptyAst noteTable "no\"tes" ↔
      NamesQuoteFree noteTable "no\"tes" ∧ 0 < noteTable.numberOfRows) :=
  ⟨by decide, statementsWellFormed_iff sampleRuntime emptyAst noteTable "no\"tes"
    noteTable_loadable noteTable_printsNumbers (by decide)⟩

/-- A quote in the name of the table ends the identifier. -/
theorem not_statementsWellFormed_noteTable : ¬ ∀ (runtime : JsRuntime) (ast : Ast) (table : Table)
    (tableName : String), table.Loadable ast → PrintsNumbers runtime table →
      1 ≤ table.columns.size → StatementsWellFormed runtime ast table tableName := by
  intro h
  have hwf := h sampleRuntime emptyAst noteTable "no\"tes" noteTable_loadable
    noteTable_printsNumbers (by decide)
  exact hwf.namesQuoteFree noteTable_loadable "no\"tes" List.mem_cons_self (by decide)

end Jayvee
