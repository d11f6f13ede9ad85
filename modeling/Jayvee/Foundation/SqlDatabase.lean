import Jayvee.Foundation.Exec
import Jayvee.Foundation.SqlInsert
import Mathlib.Logic.Function.Basic

/-! # Databases that statements of SQL change -/

namespace Jayvee.Foundation.Sql

/-! ## Statements -/

/-- A column of a stored table, with the name of its type. -/
structure ColumnDefinition where
  name : String
  type : String
  deriving DecidableEq, Repr

inductive Statement where
  /-- `DROP TABLE IF EXISTS "table"` -/
  | drop (table : String)
  /-- `CREATE TABLE IF NOT EXISTS "table" ("name" type, ...)` -/
  | create (table : String) (columns : List ColumnDefinition)
  | insert (insert : Insert)

def parseColumn : List Token → Option (ColumnDefinition × List Token)
  | .identifier name :: .word type :: rest => some (⟨name, type⟩, rest)
  | _ => none

def parseDrop : List Token → Option Statement
  | .word "DROP" :: .word "TABLE" :: .word "IF" :: .word "EXISTS" :: .identifier table :: rest =>
      if rest = [] ∨ rest = [.symbol ';'] then some (.drop table) else none
  | _ => none

def parseCreate : List Token → Option Statement
  | .word "CREATE" :: .word "TABLE" :: .word "IF" :: .word "NOT" :: .word "EXISTS" ::
      .identifier table :: rest => do
      let columns ← parseTuple parseColumn rest
      if columns.2 = [] ∨ columns.2 = [.symbol ';'] then
        return .create table columns.1
      else
        none
  | _ => none

def parseStatement (tokens : List Token) : Option Statement :=
  parseDrop tokens <|> parseCreate tokens <|> (parseInsert tokens).map .insert

/-! ### Reading what was spelled -/

def dropTokens (table : String) : List Token :=
  [.word "DROP", .word "TABLE", .word "IF", .word "EXISTS", .identifier table, .symbol ';']

theorem parseStatement_dropTokens (table : String) :
    parseStatement (dropTokens table) = some (.drop table) := rfl

def columnTokens (column : ColumnDefinition) : List Token :=
  [.identifier column.name, .word column.type]

def createTokens (table : String) (columns : List ColumnDefinition) : List Token :=
  .word "CREATE" :: .word "TABLE" :: .word "IF" :: .word "NOT" :: .word "EXISTS" ::
    .identifier table :: (tupleTokens columnTokens columns ++ [.symbol ';'])

theorem parseStatement_createTokens (table : String) {columns : List ColumnDefinition}
    (hcolumns : columns ≠ []) :
    parseStatement (createTokens table columns) = some (.create table columns) := by
  have hread : parseTuple parseColumn (tupleTokens columnTokens columns ++ [.symbol ';']) =
      some (columns.map id, [.symbol ';']) :=
    parseTuple_tupleTokens (fun _ _ _ => rfl) (fun _ _ => List.cons_ne_nil _ _) hcolumns
  have hcreate : parseCreate (createTokens table columns) = some (.create table columns) := by
    rw [createTokens, parseCreate, hread, List.map_id]
    rfl
  rw [parseStatement, hcreate]
  rfl

theorem parseStatement_insertTokens {ι : Type} (table : String) (columns : List String)
    (spellItem : ι → List Token) (tuples : List (List ι)) :
    parseStatement (insertTokens table columns spellItem tuples) =
      (parseInsert (insertTokens table columns spellItem tuples)).map .insert := rfl

/-! ## Databases -/

/-- What databases differ in: the spellings of a name that mean the same table or column, and
what a column keeps of a literal. -/
structure Dialect (κ : Type) where
  canonicalName : String → String
  store : (columnType : String) → Literal → Option κ

/-- A table without constraints; `none` in a row is `NULL`. -/
structure StoredTable (κ : Type) where
  columns : List ColumnDefinition
  rows : List (List (Option κ))

/-- The tables by their canonical names. -/
abbrev Database (κ : Type) : Type :=
  String → Option (StoredTable κ)

namespace Dialect

variable {κ : Type} (dialect : Dialect κ)

/-- The row for a tuple that has a literal for each column, in the same order. -/
def storeTuple (columns : List ColumnDefinition) (tuple : List Literal) :
    Option (List (Option κ)) :=
  (columns.zip tuple).mapM fun cell => (dialect.store cell.1.type cell.2).map some

/-- The rows for the tuples; none if one of them does not fit. -/
def storeTuples (columns : List ColumnDefinition) (tuples : List (List Literal)) :
    Option (List (List (Option κ))) :=
  tuples.mapM (dialect.storeTuple columns)

/-- Columns with different canonical names. -/
def Distinct (columns : List ColumnDefinition) : Prop :=
  (columns.map fun column => dialect.canonicalName column.name).Nodup

instance instDecidableDistinct (columns : List ColumnDefinition) :
    Decidable (dialect.Distinct columns) :=
  inferInstanceAs (Decidable (List.Nodup _))

end Dialect

/-! ## Engines -/

/-- What is observed of a database engine, whose state is `ω`. -/
structure Engine (ω κ : Type) extends Dialect κ where
  tables : ω → Database κ

/-- An insertion into a table that has its columns, in the same order. -/
structure Engine.InsertsInto {ω κ : Type} (engine : Engine ω κ) (insertion : Insert)
    (stored : StoredTable κ) : Prop where
  columns : insertion.columns = stored.columns.map ColumnDefinition.name
  distinct : engine.Distinct stored.columns
  tuples : ∀ tuple ∈ insertion.tuples, tuple.length = stored.columns.length

/-- The documented behaviour of an engine for the statements. A statement is carried out, or
rejected with an error, and then all tables are as before. -/
structure Engine.Serves {ω κ ε : Type} (engine : Engine ω κ) (query : String → Exec ω ε Unit) :
    Prop where
  answers : ∀ text s, ∃ result s', query text s = some (result, s')
  rejects : ∀ text s error s', query text s = some (.error error, s') →
    engine.tables s' = engine.tables s
  /-- `DROP TABLE IF EXISTS` removes the table. -/
  drops : ∀ text table s, tokenize text.toList = some (dropTokens table) →
    ∃ s', query text s = some (.ok (), s') ∧
      engine.tables s' = Function.update (engine.tables s) (engine.canonicalName table) none
  /-- `CREATE TABLE IF NOT EXISTS` leaves a table with the name as it is. -/
  creates : ∀ text table columns s, tokenize text.toList = some (createTokens table columns) →
    columns ≠ [] → engine.Distinct columns → ∃ s', query text s = some (.ok (), s') ∧
      engine.tables s' = Function.update (engine.tables s) (engine.canonicalName table)
        (some ((engine.tables s (engine.canonicalName table)).getD ⟨columns, []⟩))
  /-- `INSERT INTO` adds all tuples, or none if one of them does not fit. -/
  inserts : ∀ text tokens insertion stored s, tokenize text.toList = some tokens →
    parseInsert tokens = some insertion →
    engine.tables s (engine.canonicalName insertion.table) = some stored →
    engine.InsertsInto insertion stored → ∃ result s', query text s = some (result, s') ∧
      (result = .ok () ↔ (engine.storeTuples stored.columns insertion.tuples).isSome = true) ∧
      engine.tables s' = Function.update (engine.tables s) (engine.canonicalName insertion.table)
        (some { stored with
          rows := stored.rows ++ (engine.storeTuples stored.columns insertion.tuples).getD [] })
  /-- `INSERT INTO` changes no other table. -/
  insertsOnly : ∀ text tokens insertion s result s', tokenize text.toList = some tokens →
    parseInsert tokens = some insertion → query text s = some (result, s') →
    ∀ name ≠ engine.canonicalName insertion.table, engine.tables s' name = engine.tables s name
  /-- `VALUES` needs a tuple. -/
  insertsSome : ∀ text table columns s, columns ≠ [] → tokenize text.toList =
      some (insertTokens table columns id ([] : List (List (List Token)))) →
    ∃ error s', query text s = some (.error error, s')

/-! ## A database in memory -/

namespace Dialect

variable {κ ε : Type} (dialect : Dialect κ)

/-- The table with the rows of an insertion. -/
def insertInto (stored : StoredTable κ) (insertion : Insert) : Option (StoredTable κ) :=
  if insertion.columns = stored.columns.map ColumnDefinition.name ∧
      ∀ tuple ∈ insertion.tuples, tuple.length = stored.columns.length then
    (dialect.storeTuples stored.columns insertion.tuples).map fun rows =>
      { stored with rows := stored.rows ++ rows }
  else
    none

/-- The database after a statement; none if the statement is rejected. -/
def execute (statement : Statement) (database : Database κ) : Option (Database κ) :=
  match statement with
  | .drop table => some (Function.update database (dialect.canonicalName table) none)
  | .create table columns =>
      if dialect.Distinct columns then
        some (Function.update database (dialect.canonicalName table)
          (some ((database (dialect.canonicalName table)).getD ⟨columns, []⟩)))
      else
        none
  | .insert insertion =>
      (database (dialect.canonicalName insertion.table)).bind fun stored =>
        (dialect.insertInto stored insertion).map fun inserted =>
          Function.update database (dialect.canonicalName insertion.table) (some inserted)

/-- The database after a text. A text that is no statement is rejected. -/
def executeText (text : String) (database : Database κ) : Option (Database κ) := do
  let tokens ← tokenize text.toList
  let statement ← parseStatement tokens
  dialect.execute statement database

def inMemory : Engine (Database κ) κ :=
  { dialect with tables := id }

def queryInMemory (error : String → ε) (text : String) : Exec (Database κ) ε Unit :=
  fun database =>
    match dialect.executeText text database with
    | some after => some (.ok (), after)
    | none => some (.error (error text), database)

variable {dialect} {error : String → ε} {text : String} {tokens : List Token}
  {statement : Statement} {database after : Database κ}

variable (dialect database) in
theorem executeText_of_parses (htokens : tokenize text.toList = some tokens)
    (hstatement : parseStatement tokens = some statement) :
    dialect.executeText text database = dialect.execute statement database := by
  rw [executeText, htokens]
  simp only [Option.bind_eq_bind, Option.bind_some, hstatement]

theorem queryInMemory_of_some (h : dialect.executeText text database = some after) :
    dialect.queryInMemory error text database = some (.ok (), after) := by
  rw [queryInMemory, h]

theorem queryInMemory_of_none (h : dialect.executeText text database = none) :
    dialect.queryInMemory error text database = some (.error (error text), database) := by
  rw [queryInMemory, h]

/-- A text that starts with another word is no other statement. -/
theorem parseStatement_of_parseInsert {insertion : Insert}
    (h : parseInsert tokens = some insertion) :
    parseStatement tokens = some (.insert insertion) := by
  have hparse := h
  unfold parseInsert at h
  split at h
  · rw [parseStatement, hparse]
    rfl
  · cases h

theorem executeText_insert {insertion : Insert} {stored : StoredTable κ}
    (htokens : tokenize text.toList = some tokens) (hinsertion : parseInsert tokens = some insertion)
    (hstored : database (dialect.canonicalName insertion.table) = some stored)
    (hinto : dialect.inMemory.InsertsInto insertion stored) :
    dialect.executeText text database =
      (dialect.storeTuples stored.columns insertion.tuples).map fun rows =>
        Function.update database (dialect.canonicalName insertion.table)
          (some { stored with rows := stored.rows ++ rows }) := by
  rw [executeText_of_parses dialect database htokens (parseStatement_of_parseInsert hinsertion),
    execute, hstored, Option.bind_some, insertInto, if_pos ⟨hinto.columns, hinto.tuples⟩,
    Option.map_map]
  rfl

/-- An insertion changes one table. -/
theorem executeText_insert_frame {insertion : Insert}
    (htokens : tokenize text.toList = some tokens) (hinsertion : parseInsert tokens = some insertion)
    (h : dialect.executeText text database = some after) {name : String}
    (hname : name ≠ dialect.canonicalName insertion.table) : after name = database name := by
  rw [executeText_of_parses dialect database htokens (parseStatement_of_parseInsert hinsertion),
    execute] at h
  obtain ⟨stored, _, hinserted⟩ := Option.bind_eq_some_iff.mp h
  obtain ⟨inserted, _, rfl⟩ := Option.map_eq_some_iff.mp hinserted
  exact Function.update_of_ne hname _ _

/-- The database in memory does what is documented. -/
theorem inMemory_serves (error : String → ε) :
    dialect.inMemory.Serves (dialect.queryInMemory error) where
  answers text database := by
    cases h : dialect.executeText text database with
    | none => exact ⟨_, _, queryInMemory_of_none h⟩
    | some after => exact ⟨_, _, queryInMemory_of_some h⟩
  rejects text database e after h := by
    cases hexecute : dialect.executeText text database with
    | none =>
        rw [queryInMemory_of_none hexecute] at h
        cases h
        rfl
    | some after =>
        rw [queryInMemory_of_some hexecute] at h
        cases h
  drops text table database htokens := by
    have hexecute := executeText_of_parses dialect database htokens
      (parseStatement_dropTokens table)
    exact ⟨_, queryInMemory_of_some hexecute, rfl⟩
  creates text table columns database htokens hcolumns hdistinct := by
    have hexecute := executeText_of_parses dialect database htokens
      (parseStatement_createTokens table hcolumns)
    have hdistinct : dialect.Distinct columns := hdistinct
    rw [execute, if_pos hdistinct] at hexecute
    exact ⟨_, queryInMemory_of_some hexecute, rfl⟩
  inserts text tokens insertion stored database htokens hinsertion hstored hinto := by
    have hstored : database (dialect.canonicalName insertion.table) = some stored := hstored
    have hexecute := executeText_insert htokens hinsertion hstored hinto
    have hstoreTuples : dialect.inMemory.storeTuples = dialect.storeTuples := rfl
    rw [hstoreTuples]
    cases htuples : dialect.storeTuples stored.columns insertion.tuples with
    | none =>
        rw [htuples] at hexecute
        refine ⟨_, database, queryInMemory_of_none hexecute, by simp, ?_⟩
        rw [Option.getD_none, List.append_nil]
        exact (Function.update_eq_self_iff.mpr hstored.symm).symm
    | some rows =>
        rw [htuples] at hexecute
        exact ⟨_, _, queryInMemory_of_some hexecute, by simp, rfl⟩
  insertsOnly text tokens insertion database result after htokens hinsertion h name hname := by
    cases hrun : dialect.executeText text database with
    | none =>
        rw [queryInMemory_of_none hrun] at h
        cases h
        rfl
    | some changed =>
        rw [queryInMemory_of_some hrun] at h
        cases h
        exact executeText_insert_frame htokens hinsertion hrun hname
  insertsSome text table columns database hcolumns htokens := by
    have hparse : parseStatement (insertTokens table columns id
        ([] : List (List (List Token)))) = none := by
      rw [parseStatement_insertTokens, parseInsert_insertTokens_nil hcolumns]
      rfl
    refine ⟨_, _, queryInMemory_of_none ?_⟩
    rw [executeText, htokens]
    simp only [Option.bind_eq_bind, Option.bind_some, hparse, Option.bind_none]

end Dialect

end Jayvee.Foundation.Sql
