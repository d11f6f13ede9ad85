import Jayvee.Foundation.SqlInsert
import Jayvee.Model.TableStatements
import Jayvee.Verification.Tables.Operations
import Jayvee.Verification.Typing.Convertibility

/-! # What SQL reads in the statements for a table -/

namespace Jayvee

open Foundation Sql Lexeme ValueType

/-! ## Visitors end at the root of the hierarchy -/

section Visitors

variable {α : Type} {ast : Ast} {own : ValueType → Option α} {noSupertype : Except JsError α}

/-- A question that only atomic value types pass on is answered by the root. -/
theorem askSupertypes_eq_root {fuel : Nat} {T root : ValueType} {a : α}
    (hown : ∀ T, own T = none ↔ T.getPrimitiveOwn = none) (hroot : HasRoot ast fuel T root)
    (ha : own root = some a) : askSupertypes ast own noSupertype fuel T = .ok a := by
  induction fuel generalizing T with
  | zero => cases hroot
  | succ fuel ih =>
      obtain ⟨_, hfuel, hself | ⟨hnone, S, hS, hask⟩⟩ := askSupertypes_eq_ok hroot (by simp)
      · obtain rfl : T = root := by
          cases T <;> simp_all [getPrimitiveOwn]
        exact askSupertypes_of_own ha
      · cases hfuel
        rw [askSupertypes_of_supertype ((hown T).mpr hnone) hS]
        exact ih hask

/-- An answer is the answer of the root. -/
theorem exists_root_of_askSupertypes {fuel : Nat} {T : ValueType} {a : α}
    (hown : ∀ T, own T = none ↔ T.getPrimitiveOwn = none) (hne : noSupertype ≠ .ok a)
    (h : askSupertypes ast own noSupertype fuel T = .ok a) :
    ∃ root, HasRoot ast fuel T root ∧ own root = some a := by
  induction fuel generalizing T with
  | zero => cases h
  | succ fuel ih =>
      obtain ⟨_, hfuel, hself | ⟨hnone, S, hS, hask⟩⟩ := askSupertypes_eq_ok h hne
      · refine ⟨T, HasRoot.self ?_, hself⟩
        cases T with
        | atomic astNode =>
            have hnone : own (atomic astNode) = none := (hown _).mpr rfl
            rw [hnone] at hself
            cases hself
        | _ => rfl
      · cases hfuel
        obtain ⟨root, hroot, ha⟩ := ih hask
        refine ⟨root, ?_, ha⟩
        rw [HasRoot, askSupertypes_of_supertype ((hown T).mp hnone) hS]
        exact hroot

end Visitors

/-- The kind of value at the root of the hierarchy. -/
def rootKind (ast : Ast) (T : ValueType) : PrimitiveValueType :=
  match T.getPrimitive ast with
  | .ok (some (.primitive kind)) => kind
  | _ => .transform

theorem rootKind_eq {ast : Ast} {T : ValueType} {kind : PrimitiveValueType}
    (h : HasRoot ast (hierarchyDepth ast) T (primitive kind)) : rootKind ast T = kind := by
  have hroot : T.getPrimitive ast = .ok (some (primitive kind)) := h
  rw [rootKind, hroot]

def SqlRepresentable (ast : Ast) (T : ValueType) : Prop :=
  ∃ columnType, acceptVisitor ast sqlColumnTypeVisitor T = .ok columnType

def sqlType : PrimitiveValueType → String
  | .boolean => "boolean"
  | .decimal => "real"
  | .integer => "integer"
  | _ => "text"

variable {ast : Ast} {T : ValueType} {runtime : JsRuntime} {value : Value}

theorem acceptVisitor_eq_root {α : Type} {visitor : ValueType → Option (Except JsError α)}
    {root : ValueType} {visited : Except JsError α}
    (hvisitor : ∀ T, visitor T = none ↔ T.getPrimitiveOwn = none)
    (hroot : HasRoot ast (hierarchyDepth ast) T root) (hvisited : visitor root = some visited) :
    acceptVisitor ast visitor T = visited := by
  rw [acceptVisitor, askSupertypes_eq_root hvisitor hroot hvisited]
  rfl

theorem sqlColumnTypeVisitor_eq_none (T : ValueType) :
    sqlColumnTypeVisitor T = none ↔ T.getPrimitiveOwn = none := by
  cases T with
  | primitive kind => cases kind <;> simp [sqlColumnTypeVisitor, getPrimitiveOwn]
  | _ => simp [sqlColumnTypeVisitor, getPrimitiveOwn]

theorem sqlValueRepresentationVisitor_eq_none (T : ValueType) :
    sqlValueRepresentationVisitor runtime T = none ↔ T.getPrimitiveOwn = none := by
  cases T with
  | primitive kind => cases kind <;> simp [sqlValueRepresentationVisitor, getPrimitiveOwn]
  | _ => simp [sqlValueRepresentationVisitor, getPrimitiveOwn]

/-- The types of columns are those that users can build on. -/
theorem SqlRepresentable.root (h : SqlRepresentable ast T) :
    (rootKind ast T).isReferenceableByUser = true ∧
      HasRoot ast (hierarchyDepth ast) T (primitive (rootKind ast T)) := by
  obtain ⟨columnType, h⟩ := h
  obtain ⟨visited, hvisited, h⟩ := except_bind_eq_ok_iff.mp h
  obtain ⟨root, hroot, hown⟩ :=
    exists_root_of_askSupertypes sqlColumnTypeVisitor_eq_none (by simp) hvisited
  have hkind : ∃ kind, root = primitive kind ∧ kind.isReferenceableByUser = true := by
    cases root with
    | primitive kind =>
        refine ⟨kind, rfl, ?_⟩
        cases kind <;>
          simp_all [sqlColumnTypeVisitor, visitUnsupported, PrimitiveValueType.isReferenceableByUser]
    | _ => simp_all [sqlColumnTypeVisitor, visitUnsupported]
  obtain ⟨kind, rfl, hreferenceable⟩ := hkind
  rw [rootKind_eq hroot]
  exact ⟨hreferenceable, hroot⟩

theorem SqlRepresentable.columnType (h : SqlRepresentable ast T) :
    acceptVisitor ast sqlColumnTypeVisitor T = .ok (sqlType (rootKind ast T)) := by
  obtain ⟨hreferenceable, hroot⟩ := h.root
  refine acceptVisitor_eq_root sqlColumnTypeVisitor_eq_none hroot ?_
  cases hkind : rootKind ast T <;>
    simp_all [sqlColumnTypeVisitor, sqlType, PrimitiveValueType.isReferenceableByUser]

/-! ## Cells -/

/-- How the value of a cell is spelled. -/
def cellLexeme (runtime : JsRuntime) : Value → Lexeme
  | .boolean value => .text (if value then "true" else "false")
  | .number value => .number (runtime.numberToString value)
  | .string value => .text value
  | _ => .space

/-- Values have the kind of the root of their type. -/
theorem SqlRepresentable.isInternalValueRepresentation (h : SqlRepresentable ast T)
    (hvalue : HasType ast T value) :
    (rootKind ast T).isInternalValueRepresentation value = true := by
  obtain ⟨root, hroot, hvalue⟩ := hvalue.root
  obtain rfl : primitive (rootKind ast T) = root := by
    simpa using Except.ok.inj (h.root.2.symm.trans hroot)
  exact hasType_primitive.mp hvalue

theorem visitText_string (text : String) :
    SQLValueRepresentationVisitor.visitText runtime (.string text) =
      .ok (String.ofList (Lexeme.text text).spelling) := by
  have hassert : assert (PrimitiveValueType.text.isInternalValueRepresentation (.string text)) =
      .ok () := rfl
  rw [SQLValueRepresentationVisitor.visitText, hassert]
  refine congrArg Except.ok ?_
  rw [← String.toList_inj, Value.toString, SQLValueRepresentationVisitor.escapeSingleQuotes]
  simp only [String.toList_append, String.toList_ofList]
  rfl

/-- A value of the kind of a column is spelled by the visitor of this kind. -/
theorem exists_valueRepresentation {kind : PrimitiveValueType}
    (hreferenceable : kind.isReferenceableByUser = true)
    (hvalue : kind.isInternalValueRepresentation value = true) : ∃ format,
      sqlValueRepresentationVisitor runtime (primitive kind) = some (.ok format) ∧
        format value = .ok (String.ofList (cellLexeme runtime value).spelling) := by
  cases kind with
  | boolean =>
      cases value with
      | boolean value => exact ⟨_, rfl, by cases value <;> rfl⟩
      | _ => cases hvalue
  | decimal =>
      cases value with
      | number value =>
          refine ⟨_, rfl, ?_⟩
          rw [cellLexeme, spelling, String.ofList_toList,
            SQLValueRepresentationVisitor.visitDecimal, hvalue]
          rfl
      | _ => cases hvalue
  | integer =>
      cases value with
      | number value =>
          refine ⟨_, rfl, ?_⟩
          rw [cellLexeme, spelling, String.ofList_toList,
            SQLValueRepresentationVisitor.visitInteger, hvalue]
          rfl
      | _ => cases hvalue
  | text =>
      cases value with
      | string value => exact ⟨_, rfl, visitText_string value⟩
      | _ => cases hvalue
  | _ => cases hreferenceable

theorem SqlRepresentable.valueRepresentation (h : SqlRepresentable ast T)
    (hvalue : HasType ast T value) : ∃ format,
      acceptVisitor ast (sqlValueRepresentationVisitor runtime) T = .ok format ∧
        format value = .ok (String.ofList (cellLexeme runtime value).spelling) := by
  have hkind := h.isInternalValueRepresentation hvalue
  obtain ⟨hreferenceable, hroot⟩ := h.root
  generalize rootKind ast T = kind at hkind hreferenceable hroot
  obtain ⟨format, hvisited, hformat⟩ := exists_valueRepresentation hreferenceable hkind
  exact ⟨format, acceptVisitor_eq_root sqlValueRepresentationVisitor_eq_none hroot hvisited,
    hformat⟩

/-! ## Lists of lexemes -/

theorem mapM_eq_pure {m : Type → Type} [Monad m] [LawfulMonad m] {α β : Type} {f : α → m β}
    {g : α → β} {xs : List α} (h : ∀ x ∈ xs, f x = pure (g x)) :
    xs.mapM f = pure (xs.map g) := by
  induction xs with
  | nil => rw [List.mapM_nil, List.map_nil]
  | cons x xs ih =>
      rw [List.forall_mem_cons] at h
      rw [List.mapM_cons, h.1, ih h.2, pure_bind, pure_bind, List.map_cons]

theorem spell_intercalate (separator : List Lexeme) (pieces : List (List Lexeme)) :
    spell (separator.intercalate pieces) = (spell separator).intercalate (pieces.map spell) :=
  flatMap_intercalate spelling separator pieces

/-- Separators can stand before everything. -/
theorem separated_separators {separators lexemes : List Lexeme}
    (hseparators : ∀ separator ∈ separators, separator.isSeparator = true)
    (h : Separated lexemes) : Separated (separators ++ lexemes) := by
  induction separators with
  | nil => exact h
  | cons separator separators ih =>
      rw [List.forall_mem_cons] at hseparators
      exact List.isChain_cons.mpr ⟨fun _ _ => Or.inl hseparators.1, ih hseparators.2⟩

/-- Separators can stand behind everything. -/
theorem separated_append {lexemes lexemes' : List Lexeme} {separator : Lexeme}
    (hseparator : separator.isSeparator = true) (h : Separated lexemes)
    (h' : Separated (separator :: lexemes')) : Separated (lexemes ++ separator :: lexemes') := by
  refine List.isChain_append.mpr ⟨h, h', fun x _ y hy => Or.inr ?_⟩
  obtain rfl : separator = y := by simpa using hy
  exact hseparator

theorem separated_intercalate {separator : Lexeme} {others : List Lexeme}
    {pieces : List (List Lexeme)}
    (hseparators : ∀ other ∈ separator :: others, other.isSeparator = true)
    (h : ∀ piece ∈ pieces, Separated piece) :
    Separated ((separator :: others).intercalate pieces) := by
  induction pieces with
  | nil => exact List.isChain_nil
  | cons piece pieces ih =>
      rw [List.forall_mem_cons] at h
      cases pieces with
      | nil =>
          rw [List.intercalate_singleton]
          exact h.1
      | cons next pieces =>
          rw [List.intercalate_cons_cons, List.append_assoc]
          exact separated_append (hseparators _ List.mem_cons_self) h.1
            (separated_separators hseparators (ih h.2))

theorem mem_intercalate {separator : List Lexeme} {pieces : List (List Lexeme)} {lexeme : Lexeme}
    (h : lexeme ∈ separator.intercalate pieces) :
    lexeme ∈ separator ∨ ∃ piece ∈ pieces, lexeme ∈ piece := by
  induction pieces with
  | nil => simp at h
  | cons piece pieces ih =>
      cases pieces with
      | nil => exact Or.inr ⟨piece, List.mem_cons_self, by simpa using h⟩
      | cons next pieces =>
          rw [List.intercalate_cons_cons, List.append_assoc, List.mem_append, List.mem_append] at h
          rcases h with h | h | h
          · exact Or.inr ⟨piece, List.mem_cons_self, h⟩
          · exact Or.inl h
          · refine (ih h).imp_right ?_
            rintro ⟨other, hother, hmem⟩
            exact ⟨other, List.mem_cons_of_mem _ hother, hmem⟩

theorem forall_mem_intercalate {P : Lexeme → Prop} {separator : List Lexeme}
    {pieces : List (List Lexeme)} (hseparator : ∀ lexeme ∈ separator, P lexeme)
    (hpieces : ∀ piece ∈ pieces, ∀ lexeme ∈ piece, P lexeme) :
    ∀ lexeme ∈ separator.intercalate pieces, P lexeme := by
  intro lexeme hlexeme
  rcases mem_intercalate hlexeme with hmem | ⟨piece, hpiece, hmem⟩
  · exact hseparator lexeme hmem
  · exact hpieces piece hpiece lexeme hmem

theorem filterMap_intercalate {separator : List Lexeme} {pieces : List (List Lexeme)}
    (h : separator.filterMap identifier? = []) :
    (separator.intercalate pieces).filterMap identifier? =
      pieces.flatMap (List.filterMap identifier?) := by
  induction pieces with
  | nil => rfl
  | cons piece pieces ih =>
      cases pieces with
      | nil => simp
      | cons next pieces =>
          rw [List.intercalate_cons_cons, List.filterMap_append, List.filterMap_append, h,
            List.append_nil, ih, List.flatMap_cons]
          rfl

/-! ## Statements -/

def comma : Lexeme := .symbol ','

def dropWords : List Lexeme :=
  [.word "DROP", .space, .word "TABLE", .space, .word "IF", .space, .word "EXISTS", .space]

def createWords : List Lexeme :=
  [.word "CREATE", .space, .word "TABLE", .space, .word "IF", .space, .word "NOT", .space,
    .word "EXISTS", .space]

def insertWords : List Lexeme :=
  [.word "INSERT", .space, .word "INTO", .space]

def dropLexemes (tableName : String) : List Lexeme :=
  dropWords ++ [.identifier tableName, .symbol ';']

def columnLexemes (ast : Ast) (entry : String × TableColumn) : List Lexeme :=
  [.identifier entry.1, .space, .word (sqlType (rootKind ast entry.2.valueType))]

def createLexemes (ast : Ast) (table : Table) (tableName : String) : List Lexeme :=
  createWords ++ .identifier tableName :: .space :: .symbol '(' ::
    ([comma].intercalate (table.columns.entries.map (columnLexemes ast)) ++
      [.symbol ')', .symbol ';'])

/-- The value of a column in a row. -/
def cell (column : TableColumn) (rowIndex : Nat) : Value :=
  column.values[rowIndex]?.getD (.boolean false)

def rowCells (table : Table) (rowIndex : Nat) : List Value :=
  table.columns.entries.map fun entry => cell entry.2 rowIndex

def rowLexemes (runtime : JsRuntime) (cells : List Value) : List Lexeme :=
  .symbol '(' ::
    ([comma].intercalate (cells.map fun cell => [cellLexeme runtime cell]) ++ [.symbol ')'])

def insertLexemes (runtime : JsRuntime) (table : Table) (tableName : String) : List Lexeme :=
  insertWords ++ .identifier tableName :: .space :: .symbol '(' ::
    ([comma].intercalate (table.columns.keys.map fun name => [.identifier name]) ++
      .symbol ')' :: .space :: .word "VALUES" :: .space ::
        [comma, .space].intercalate
          ((List.range table.numberOfRows).map fun rowIndex =>
            rowLexemes runtime (rowCells table rowIndex)))

theorem spell_dropWords : "DROP TABLE IF EXISTS \"".toList = spell dropWords ++ ['"'] := by
  decide

theorem spell_createWords :
    "CREATE TABLE IF NOT EXISTS \"".toList = spell createWords ++ ['"'] := by
  decide

theorem spell_insertWords : "INSERT INTO \"".toList = spell insertWords ++ ['"'] := by
  decide

theorem generateDropTableStatement_eq (tableName : String) :
    Table.generateDropTableStatement tableName =
      "DROP TABLE IF EXISTS \"" ++ tableName ++ "\";" := rfl

theorem spell_dropLexemes (tableName : String) :
    (Table.generateDropTableStatement tableName).toList = spell (dropLexemes tableName) := by
  have hend : "\";".toList = ['"', ';'] := by decide
  simp only [generateDropTableStatement_eq, String.toList_append, spell_dropWords, hend,
    dropLexemes, spell_append, spell_cons, spelling, List.cons_append, List.nil_append,
    List.append_assoc]
  rfl

/-- The values of the rows are there and have the types of their columns. -/
structure Table.Loadable (ast : Ast) (this : Table) : Prop where
  wellFormed : this.WellFormed fun value valueType => HasType ast valueType value
  representable : ∀ name column, this.getColumn name = some column →
    SqlRepresentable ast column.valueType

variable {table : Table} {tableName : String}

theorem Table.Loadable.entry (h : table.Loadable ast) {entry : String × TableColumn}
    (hentry : entry ∈ table.columns.entries) : SqlRepresentable ast entry.2.valueType ∧
      entry.2.Fits (fun value valueType => HasType ast valueType value) table.numberOfRows := by
  have hcolumn : table.columns.get? entry.1 = some entry.2 := JsMap.mem_entries_iff.mp hentry
  exact ⟨h.representable _ _ hcolumn, h.wellFormed _ _ hcolumn⟩

theorem formatColumn_eq (h : table.Loadable ast) {entry : String × TableColumn}
    (hentry : entry ∈ table.columns.entries) :
    Table.formatColumn ast entry = .ok (String.ofList (spell (columnLexemes ast entry))) := by
  rw [Table.formatColumn, (h.entry hentry).1.columnType]
  refine congrArg Except.ok ?_
  have hquote : "\" ".toList = ['"', ' '] := by decide
  have hopen : "\"".toList = ['"'] := by decide
  rw [← String.toList_inj]
  simp only [String.toList_append, String.toList_ofList, hquote, hopen, columnLexemes, spell_cons,
    spelling, List.cons_append, List.nil_append, List.append_assoc, List.cons.injEq, true_and]
  simp [spell]

def createStatement (tableName : String) (columnStatements : List String) : String :=
  "CREATE TABLE IF NOT EXISTS \"" ++ tableName ++ "\" (" ++ ",".intercalate columnStatements ++
    ");"

theorem generateCreateTableStatement_bind : table.generateCreateTableStatement ast tableName =
    (table.columns.entries.mapM (Table.formatColumn ast)).bind fun columnStatements =>
      .ok (createStatement tableName columnStatements) := rfl

theorem createStatement_eq (columnStatements : List String) :
    createStatement tableName columnStatements =
      "CREATE TABLE IF NOT EXISTS \"" ++ tableName ++ "\" (" ++
        ",".intercalate columnStatements ++ ");" := rfl

theorem generateCreateTableStatement_eq (h : table.Loadable ast) (tableName : String) :
    ∃ statement, table.generateCreateTableStatement ast tableName = .ok statement ∧
      statement.toList = spell (createLexemes ast table tableName) := by
  have hcolumns : table.columns.entries.mapM (Table.formatColumn ast) =
      .ok (table.columns.entries.map fun entry =>
        String.ofList (spell (columnLexemes ast entry))) :=
    mapM_eq_pure fun entry hentry => formatColumn_eq h hentry
  refine ⟨createStatement tableName (table.columns.entries.map fun entry =>
      String.ofList (spell (columnLexemes ast entry))),
    generateCreateTableStatement_bind.trans
      (congrArg (fun columns => columns.bind fun columnStatements =>
        Except.ok (createStatement tableName columnStatements)) hcolumns), ?_⟩
  have hopen : "\" (".toList = ['"', ' ', '('] := by decide
  have hclose : ");".toList = [')', ';'] := by decide
  have hcomma : ",".toList = spell [comma] := by decide
  simp only [createStatement_eq, String.toList_append, String.toList_intercalate, spell_createWords,
    hopen, hclose, hcomma, createLexemes, spell_append, spell_cons, spelling, List.cons_append,
    List.nil_append, List.append_assoc, spell_intercalate, List.map_map, Function.comp_def,
    String.toList_ofList]
  rfl

/-! ## Rows -/

theorem cell_eq {column : TableColumn} {rowIndex : Nat}
    (h : rowIndex < column.values.length) : column.values[rowIndex]? = some (cell column rowIndex) := by
  rw [cell, List.getElem?_eq_getElem h]
  rfl

theorem cell_mem {column : TableColumn} {rowIndex : Nat}
    (h : rowIndex < column.values.length) : cell column rowIndex ∈ column.values :=
  List.mem_of_getElem? (cell_eq h)

theorem formatValue_eq (h : table.Loadable ast) {entry : String × TableColumn}
    (hentry : entry ∈ table.columns.entries) {rowIndex : Nat} (hrow : rowIndex < table.numberOfRows) :
    table.formatValue runtime ast rowIndex entry.1 =
      .ok (String.ofList (cellLexeme runtime (cell entry.2 rowIndex)).spelling) := by
  obtain ⟨hrepresentable, hfits⟩ := h.entry hentry
  have hlength : rowIndex < entry.2.values.length := by rwa [hfits.length]
  have hformat : ∃ format, acceptVisitor ast (sqlValueRepresentationVisitor runtime)
        entry.2.valueType = .ok format ∧ format (cell entry.2 rowIndex) =
          .ok (String.ofList (cellLexeme runtime (cell entry.2 rowIndex)).spelling) :=
    hrepresentable.valueRepresentation (hfits.valid _ (cell_mem hlength))
  obtain ⟨format, hvisited, hformat⟩ := hformat
  rw [Table.formatValue, JsMap.mem_entries_iff.mp hentry]
  simp only [cell_eq hlength, hvisited]
  exact hformat

def rowStatement (rowValues : List String) : String :=
  "(" ++ ",".intercalate rowValues ++ ")"

theorem formatRowValues_bind {rowIndex : Nat} :
    table.formatRowValues runtime ast table.columns.keys rowIndex =
      ((table.columns.entries.map Prod.fst).mapM (table.formatValue runtime ast rowIndex)).bind
        fun rowValues => .ok (rowStatement rowValues) := rfl

theorem formatRowValues_eq (h : table.Loadable ast) {rowIndex : Nat}
    (hrow : rowIndex < table.numberOfRows) :
    table.formatRowValues runtime ast table.columns.keys rowIndex =
      .ok (String.ofList (spell (rowLexemes runtime (rowCells table rowIndex)))) := by
  have hcells : (table.columns.entries.map Prod.fst).mapM
      (table.formatValue runtime ast rowIndex) =
      .ok (table.columns.entries.map fun entry =>
        String.ofList (cellLexeme runtime (cell entry.2 rowIndex)).spelling) := by
    rw [List.mapM_map]
    exact mapM_eq_pure fun entry hentry => formatValue_eq h hentry hrow
  rw [formatRowValues_bind, hcells]
  refine congrArg Except.ok ?_
  have hopen : "(".toList = ['('] := by decide
  have hclose : ")".toList = [')'] := by decide
  have hcomma : ",".toList = spell [comma] := by decide
  rw [← String.toList_inj]
  simp only [rowStatement, String.toList_append, String.toList_intercalate, hopen, hclose, hcomma,
    String.toList_ofList, rowLexemes, rowCells, spell_cons, spell_append, spelling,
    spell_intercalate, List.map_map, Function.comp_def, List.cons_append, List.nil_append]
  simp [spell]

def insertStatement (tableName : String) (columnNames formattedRowValues : List String) :
    String :=
  "INSERT INTO \"" ++ tableName ++ "\" (" ++
    ",".intercalate (columnNames.map fun c => "\"" ++ c ++ "\"") ++ ") VALUES " ++
      ", ".intercalate formattedRowValues

theorem insertStatement_eq (columnNames formattedRowValues : List String) :
    insertStatement tableName columnNames formattedRowValues =
      "INSERT INTO \"" ++ tableName ++ "\" (" ++
        ",".intercalate (columnNames.map fun c => "\"" ++ c ++ "\"") ++ ") VALUES " ++
          ", ".intercalate formattedRowValues := rfl

theorem generateInsertValuesStatement_bind :
    table.generateInsertValuesStatement runtime ast tableName =
      ((List.range table.numberOfRows).mapM
        (table.formatRowValues runtime ast table.columns.keys)).bind fun formattedRowValues =>
          .ok (insertStatement tableName table.columns.keys formattedRowValues) := rfl

theorem generateInsertValuesStatement_eq (h : table.Loadable ast) (runtime : JsRuntime)
    (tableName : String) :
    ∃ statement, table.generateInsertValuesStatement runtime ast tableName = .ok statement ∧
      statement.toList = spell (insertLexemes runtime table tableName) := by
  have hrows : (List.range table.numberOfRows).mapM
      (table.formatRowValues runtime ast table.columns.keys) =
      .ok ((List.range table.numberOfRows).map fun rowIndex =>
        String.ofList (spell (rowLexemes runtime (rowCells table rowIndex)))) :=
    mapM_eq_pure fun rowIndex hrow => formatRowValues_eq h (List.mem_range.mp hrow)
  refine ⟨insertStatement tableName table.columns.keys
      ((List.range table.numberOfRows).map fun rowIndex =>
        String.ofList (spell (rowLexemes runtime (rowCells table rowIndex)))),
    generateInsertValuesStatement_bind.trans
      (congrArg (fun rows => rows.bind fun formattedRowValues =>
        Except.ok (insertStatement tableName table.columns.keys formattedRowValues)) hrows), ?_⟩
  have hquote : "\"".toList = ['"'] := by decide
  have hopen : "\" (".toList = ['"', ' ', '('] := by decide
  have hvalues : ") VALUES ".toList =
      spell [.symbol ')', .space, .word "VALUES", .space] := by decide
  have hcomma : ",".toList = spell [comma] := by decide
  have hcommaSpace : ", ".toList = spell [comma, .space] := by decide
  have hname : ∀ name, spell [.identifier name] = '"' :: (name.toList ++ ['"']) := fun name => by
    simp [spell, spelling]
  simp only [insertStatement_eq, String.toList_append, String.toList_intercalate,
    spell_insertWords, hquote, hopen, hvalues, hcomma, hcommaSpace, String.toList_ofList,
    insertLexemes, spell_append, spell_cons, spelling, spell_intercalate, List.map_map,
    Function.comp_def, List.cons_append, List.nil_append, List.append_assoc, spell_nil, hname]

/-! ## The lexemes of the statements -/

/-- Fixed words are followed by anything. -/
theorem separated_words {words lexemes : List Lexeme} (h : Separated words)
    (hlast : words.getLast? = some .space) (h' : Separated lexemes) :
    Separated (words ++ lexemes) := by
  refine List.isChain_append.mpr ⟨h, h', fun x hx _ _ => Or.inl ?_⟩
  obtain rfl : Lexeme.space = x := by simpa [hlast] using hx
  rfl

theorem separated_dropLexemes : Separated (dropLexemes tableName) :=
  separated_words (by decide) rfl (by simp [Separated, isSeparator])

/-- What stands between the name of the table and the end of the statement. -/
theorem separated_afterName {lexemes : List Lexeme} (h : Separated lexemes) :
    Separated (.identifier tableName :: .space :: .symbol '(' :: lexemes) := by
  have hseparators : ∀ separator ∈ [Lexeme.space, .symbol '('], separator.isSeparator = true := by
    simp [isSeparator]
  have hname : Separated [Lexeme.identifier tableName] := List.isChain_singleton _
  exact separated_append rfl hname (separated_separators hseparators h)

theorem separated_createLexemes : Separated (createLexemes ast table tableName) := by
  have hcolumns : Separated ([comma].intercalate
      (table.columns.entries.map (columnLexemes ast))) := by
    refine separated_intercalate (by simp [comma, isSeparator]) fun piece hpiece => ?_
    obtain ⟨entry, _, rfl⟩ := List.mem_map.mp hpiece
    simp [Separated, columnLexemes, isSeparator]
  refine separated_words (by decide) rfl (separated_afterName ?_)
  exact separated_append rfl hcolumns (by simp [Separated, isSeparator])

theorem separated_rowLexemes (cells : List Value) : Separated (rowLexemes runtime cells) := by
  have hcells : Separated ([comma].intercalate
      (cells.map fun cell => [cellLexeme runtime cell])) := by
    refine separated_intercalate (by simp [comma, isSeparator]) fun piece hpiece => ?_
    obtain ⟨cell, _, rfl⟩ := List.mem_map.mp hpiece
    exact List.isChain_singleton _
  have hopen : ∀ separator ∈ [Lexeme.symbol '('], separator.isSeparator = true := by
    simp [isSeparator]
  exact separated_separators hopen (separated_append rfl hcells (List.isChain_singleton _))

theorem separated_insertLexemes : Separated (insertLexemes runtime table tableName) := by
  have hnames : Separated ([comma].intercalate
      (table.columns.keys.map fun name => [.identifier name])) := by
    refine separated_intercalate (by simp [comma, isSeparator]) fun piece hpiece => ?_
    obtain ⟨name, _, rfl⟩ := List.mem_map.mp hpiece
    exact List.isChain_singleton _
  have hrows : Separated ([comma, .space].intercalate
      ((List.range table.numberOfRows).map fun rowIndex =>
        rowLexemes runtime (rowCells table rowIndex))) := by
    refine separated_intercalate (by simp [comma, isSeparator]) fun piece hpiece => ?_
    obtain ⟨rowIndex, _, rfl⟩ := List.mem_map.mp hpiece
    exact separated_rowLexemes _
  have hvalues : Separated [.symbol ')', .space, .word "VALUES", .space] := by decide
  refine separated_words (by decide) rfl (separated_afterName ?_)
  exact separated_append rfl hnames (separated_words hvalues rfl hrows)

theorem isWellSpelled_dropLexemes : ∀ lexeme ∈ dropLexemes tableName,
    lexeme.isWellSpelled = true := by
  have hwords : ∀ lexeme ∈ dropWords, lexeme.isWellSpelled = true := by decide
  rw [dropLexemes, List.forall_mem_append]
  exact ⟨hwords, by simp [isWellSpelled, isPunctuation]⟩

theorem isWellSpelled_sqlType (kind : PrimitiveValueType) :
    (Lexeme.word (sqlType kind)).isWellSpelled = true := by
  cases kind <;> decide

theorem isWellSpelled_createLexemes : ∀ lexeme ∈ createLexemes ast table tableName,
    lexeme.isWellSpelled = true := by
  have hwords : ∀ lexeme ∈ createWords, lexeme.isWellSpelled = true := by decide
  have hcolumns : ∀ lexeme ∈ [comma].intercalate
      (table.columns.entries.map (columnLexemes ast)), lexeme.isWellSpelled = true := by
    refine forall_mem_intercalate (by decide) fun piece hpiece => ?_
    obtain ⟨entry, _, rfl⟩ := List.mem_map.mp hpiece
    rw [columnLexemes, List.forall_mem_cons, List.forall_mem_cons, List.forall_mem_singleton]
    exact ⟨rfl, rfl, isWellSpelled_sqlType _⟩
  rw [createLexemes, List.forall_mem_append, List.forall_mem_cons, List.forall_mem_cons,
    List.forall_mem_cons, List.forall_mem_append]
  exact ⟨hwords, rfl, rfl, rfl, hcolumns, by decide⟩

/-- The numbers of a table are printed as numbers. -/
def PrintsNumbers (runtime : JsRuntime) (table : Table) : Prop :=
  ∀ name column, table.getColumn name = some column → ∀ x, Value.number x ∈ column.values →
    (readNumber (runtime.numberToString x).toList).isSome = true

/-- All cells of a row are values of the columns. -/
theorem exists_column_of_mem_rowCells (h : table.Loadable ast) {rowIndex : Nat}
    (hrow : rowIndex < table.numberOfRows) {value : Value} (hvalue : value ∈ rowCells table rowIndex) :
    ∃ name column, table.getColumn name = some column ∧ value ∈ column.values := by
  obtain ⟨entry, hentry, rfl⟩ := List.mem_map.mp hvalue
  have hlength : rowIndex < entry.2.values.length := by
    rwa [(h.entry hentry).2.length]
  exact ⟨entry.1, entry.2, JsMap.mem_entries_iff.mp hentry, cell_mem hlength⟩

theorem isWellSpelled_rowLexemes (h : table.Loadable ast)
    (hnumbers : PrintsNumbers runtime table) {rowIndex : Nat}
    (hrow : rowIndex < table.numberOfRows) :
    ∀ lexeme ∈ rowLexemes runtime (rowCells table rowIndex), lexeme.isWellSpelled = true := by
  have hcells : ∀ lexeme ∈ [comma].intercalate
      ((rowCells table rowIndex).map fun cell => [cellLexeme runtime cell]),
      lexeme.isWellSpelled = true := by
    refine forall_mem_intercalate (by decide) fun piece hpiece => ?_
    obtain ⟨value, hvalue, rfl⟩ := List.mem_map.mp hpiece
    rw [List.forall_mem_singleton]
    cases value with
    | number x =>
        obtain ⟨name, column, hcolumn, hmem⟩ := exists_column_of_mem_rowCells h hrow hvalue
        exact hnumbers name column hcolumn x hmem
    | _ => rfl
  rw [rowLexemes, List.forall_mem_cons, List.forall_mem_append]
  exact ⟨rfl, hcells, by decide⟩

theorem isWellSpelled_insertLexemes (h : table.Loadable ast)
    (hnumbers : PrintsNumbers runtime table) :
    ∀ lexeme ∈ insertLexemes runtime table tableName, lexeme.isWellSpelled = true := by
  have hwords : ∀ lexeme ∈ insertWords, lexeme.isWellSpelled = true := by decide
  have hvalues : (Lexeme.word "VALUES").isWellSpelled = true := by decide
  have hnames : ∀ lexeme ∈ [comma].intercalate
      (table.columns.keys.map fun name => [.identifier name]), lexeme.isWellSpelled = true := by
    refine forall_mem_intercalate (by decide) fun piece hpiece => ?_
    obtain ⟨name, _, rfl⟩ := List.mem_map.mp hpiece
    exact List.forall_mem_singleton.mpr rfl
  have hrows : ∀ lexeme ∈ [comma, .space].intercalate
      ((List.range table.numberOfRows).map fun rowIndex =>
        rowLexemes runtime (rowCells table rowIndex)), lexeme.isWellSpelled = true := by
    refine forall_mem_intercalate (by decide) fun piece hpiece => ?_
    obtain ⟨rowIndex, hrow, rfl⟩ := List.mem_map.mp hpiece
    exact isWellSpelled_rowLexemes h hnumbers (List.mem_range.mp hrow)
  rw [insertLexemes, List.forall_mem_append, List.forall_mem_cons, List.forall_mem_cons,
    List.forall_mem_cons, List.forall_mem_append, List.forall_mem_cons, List.forall_mem_cons,
    List.forall_mem_cons, List.forall_mem_cons]
  exact ⟨hwords, rfl, rfl, rfl, hnames, rfl, rfl, hvalues, rfl, hrows⟩

/-! ## Identifiers and tokens -/

theorem identifiers_dropLexemes : (dropLexemes tableName).filterMap identifier? = [tableName] :=
  rfl

theorem identifiers_createLexemes : (createLexemes ast table tableName).filterMap identifier? =
    tableName :: table.columns.keys := by
  have hcolumns : ([comma].intercalate
      (table.columns.entries.map (columnLexemes ast))).filterMap identifier? =
        table.columns.keys := by
    rw [filterMap_intercalate rfl, List.flatMap_map, JsMap.keys, List.map_eq_flatMap]
    rfl
  have hrest : ([comma].intercalate (table.columns.entries.map (columnLexemes ast)) ++
      [Lexeme.symbol ')', .symbol ';']).filterMap identifier? = table.columns.keys := by
    rw [List.filterMap_append, hcolumns]
    exact List.append_nil _
  exact congrArg (tableName :: ·) hrest

theorem identifiers_rowLexemes (cells : List Value) :
    (rowLexemes runtime cells).filterMap identifier? = [] := by
  have hcells : ([comma].intercalate
      (cells.map fun cell => [cellLexeme runtime cell])).filterMap identifier? = [] := by
    rw [filterMap_intercalate rfl, List.flatMap_map, List.flatMap_eq_nil_iff]
    intro cell _
    cases cell <;> rfl
  show ([comma].intercalate (cells.map fun cell => [cellLexeme runtime cell]) ++
    [Lexeme.symbol ')']).filterMap identifier? = []
  rw [List.filterMap_append, hcells]
  rfl

theorem identifiers_insertLexemes (runtime : JsRuntime) (table : Table) (tableName : String) :
    (insertLexemes runtime table tableName).filterMap identifier? =
      tableName :: table.columns.keys := by
  have hnames : ([comma].intercalate
      (table.columns.keys.map fun name => [Lexeme.identifier name])).filterMap identifier? =
        table.columns.keys := by
    rw [filterMap_intercalate rfl, List.flatMap_map]
    exact List.flatMap_singleton' _
  have hrows : ([comma, .space].intercalate ((List.range table.numberOfRows).map fun rowIndex =>
      rowLexemes runtime (rowCells table rowIndex))).filterMap identifier? = [] := by
    rw [filterMap_intercalate rfl, List.flatMap_map, List.flatMap_eq_nil_iff]
    exact fun rowIndex _ => identifiers_rowLexemes _
  have hrest : ([comma].intercalate (table.columns.keys.map fun name => [Lexeme.identifier name]) ++
      .symbol ')' :: .space :: .word "VALUES" :: .space ::
        [comma, .space].intercalate ((List.range table.numberOfRows).map fun rowIndex =>
          rowLexemes runtime (rowCells table rowIndex))).filterMap identifier? =
            table.columns.keys := by
    rw [List.filterMap_append, hnames]
    exact (congrArg (table.columns.keys ++ ·) hrows).trans (List.append_nil _)
  exact congrArg (tableName :: ·) hrest

/-- How the tokens of a cell are read. -/
def readCell (runtime : JsRuntime) : Value → Literal
  | .boolean value => .text (if value then "true" else "false")
  | .number value => .number ((readNumber (runtime.numberToString value).toList).getD 0)
  | .string value => .text value
  | _ => .number 0

def cellTokens (runtime : JsRuntime) (value : Value) : List Token :=
  (cellLexeme runtime value).tokens

theorem tokens_rowLexemes (cells : List Value) :
    (rowLexemes runtime cells).flatMap tokens = tupleTokens (cellTokens runtime) cells := by
  rw [rowLexemes, List.flatMap_cons, List.flatMap_append, flatMap_intercalate, List.map_map]
  have hcells : List.flatMap tokens ∘ (fun cell => [cellLexeme runtime cell]) =
      cellTokens runtime := by
    funext cell
    simp [cellTokens]
  rw [hcells]
  rfl

/-- The tokens of the statement are those of an insertion of the rows. -/
theorem tokens_insertLexemes : (insertLexemes runtime table tableName).flatMap tokens =
    insertTokens tableName table.columns.keys (cellTokens runtime)
      ((List.range table.numberOfRows).map (rowCells table)) := by
  have hnames : ([comma].intercalate
      (table.columns.keys.map fun name => [Lexeme.identifier name])).flatMap tokens =
        [.symbol ','].intercalate (table.columns.keys.map fun name => [.identifier name]) := by
    rw [flatMap_intercalate, List.map_map]
    rfl
  have hrows : ([comma, .space].intercalate ((List.range table.numberOfRows).map fun rowIndex =>
      rowLexemes runtime (rowCells table rowIndex))).flatMap tokens =
        [.symbol ','].intercalate (((List.range table.numberOfRows).map (rowCells table)).map
          (tupleTokens (cellTokens runtime))) := by
    rw [flatMap_intercalate, List.map_map, List.map_map]
    have hrow : List.flatMap tokens ∘ (fun rowIndex =>
        rowLexemes runtime (rowCells table rowIndex)) =
          tupleTokens (cellTokens runtime) ∘ rowCells table :=
      funext fun rowIndex => tokens_rowLexemes _
    rw [hrow]
    rfl
  rw [insertLexemes, List.flatMap_append, List.flatMap_cons, List.flatMap_cons, List.flatMap_cons,
    List.flatMap_append, List.flatMap_cons, List.flatMap_cons, List.flatMap_cons,
    List.flatMap_cons, hnames, hrows, insertTokens, tupleTokens]
  simp only [insertWords, tokens, List.flatMap_cons, List.flatMap_nil, List.append_assoc,
    List.cons_append, List.nil_append]

/-! ## Reading the rows -/

/-- Values of kinds that users can build on are truth values, numbers or texts. -/
theorem cases_of_isInternalValueRepresentation {kind : PrimitiveValueType}
    (hreferenceable : kind.isReferenceableByUser = true)
    (hkind : kind.isInternalValueRepresentation value = true) :
    (∃ b, value = .boolean b) ∨ (∃ x, value = .number x) ∨ ∃ text, value = .string text := by
  cases value with
  | boolean b => exact Or.inl ⟨b, rfl⟩
  | number x => exact Or.inr (Or.inl ⟨x, rfl⟩)
  | string text => exact Or.inr (Or.inr ⟨text, rfl⟩)
  | _ =>
      cases kind <;> simp_all [PrimitiveValueType.isReferenceableByUser,
        PrimitiveValueType.isInternalValueRepresentation]

theorem Table.Loadable.cases_of_mem (h : table.Loadable ast) {name : String}
    {column : TableColumn} (hcolumn : table.getColumn name = some column)
    (hvalue : value ∈ column.values) :
    (∃ b, value = .boolean b) ∨ (∃ x, value = .number x) ∨ ∃ text, value = .string text :=
  cases_of_isInternalValueRepresentation (h.representable name column hcolumn).root.1
    ((h.representable name column hcolumn).isInternalValueRepresentation
      ((h.wellFormed name column hcolumn).valid value hvalue))

theorem cellTokens_ne_nil (h : table.Loadable ast) {name : String} {column : TableColumn}
    (hcolumn : table.getColumn name = some column) (hvalue : value ∈ column.values) :
    cellTokens runtime value ≠ [] := by
  rcases h.cases_of_mem hcolumn hvalue with ⟨b, rfl⟩ | ⟨x, rfl⟩ | ⟨text, rfl⟩
  · simp [cellTokens, cellLexeme, tokens]
  · rw [cellTokens, cellLexeme, tokens, numberTokens.eq_def]
    split <;> simp
  · simp [cellTokens, cellLexeme, tokens]

theorem parseLiteral_cellTokens (h : table.Loadable ast) (hnumbers : PrintsNumbers runtime table)
    {name : String} {column : TableColumn} (hcolumn : table.getColumn name = some column)
    (hvalue : value ∈ column.values) (rest : List Token) :
    parseLiteral (cellTokens runtime value ++ rest) = some (readCell runtime value, rest) := by
  rcases h.cases_of_mem hcolumn hvalue with ⟨b, rfl⟩ | ⟨x, rfl⟩ | ⟨text, rfl⟩
  · rfl
  · obtain ⟨y, hy⟩ := Option.isSome_iff_exists.mp (hnumbers name column hcolumn x hvalue)
    rw [readCell, hy]
    exact parseLiteral_numberTokens hy
  · rfl

/-- The rows of a table with rows and columns are read from the statement. -/
theorem parseInsert_insertLexemes (h : table.Loadable ast)
    (hnumbers : PrintsNumbers runtime table) (hcolumns : table.columns.keys ≠ [])
    (hrows : 0 < table.numberOfRows) :
    parseInsert ((insertLexemes runtime table tableName).flatMap tokens) =
      some ⟨tableName, table.columns.keys,
        ((List.range table.numberOfRows).map (rowCells table)).map
          (List.map (readCell runtime))⟩ := by
  have hcell : ∀ cells ∈ (List.range table.numberOfRows).map (rowCells table),
      ∀ value ∈ cells, ∃ name column, table.getColumn name = some column ∧
        value ∈ column.values := by
    intro cells hcells value hvalue
    obtain ⟨rowIndex, hrow, rfl⟩ := List.mem_map.mp hcells
    exact exists_column_of_mem_rowCells h (List.mem_range.mp hrow) hvalue
  rw [tokens_insertLexemes]
  refine parseInsert_insertTokens (fun cells hcells value hvalue rest => ?_)
    (fun cells hcells value hvalue => ?_) hcolumns ?_ (fun cells hcells => ?_)
  · obtain ⟨name, column, hcolumn, hmem⟩ := hcell cells hcells value hvalue
    exact parseLiteral_cellTokens h hnumbers hcolumn hmem rest
  · obtain ⟨name, column, hcolumn, hmem⟩ := hcell cells hcells value hvalue
    exact cellTokens_ne_nil h hcolumn hmem
  · simpa using Nat.pos_iff_ne_zero.mp hrows
  · obtain ⟨rowIndex, _, rfl⟩ := List.mem_map.mp hcells
    simpa [rowCells, JsMap.keys] using hcolumns

end Jayvee
