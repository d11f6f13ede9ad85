import Jayvee.Foundation.Trace
import Jayvee.Verification.Execution.Properties
import Jayvee.Verification.Tables.DatabaseQueries

/-! # Runs of blocks that load tables into a database -/

namespace Jayvee

open Foundation ExecutionContext Sql

variable {ω κ δ : Type}

/-! ## Filling a table -/

/-- The table that the rows of `input` go into. -/
def targetTable (dialect : Dialect κ) (ast : Ast) (input : Table) (tableName : String)
    (replaces : Bool) (before : Sql.Database κ) : StoredTable κ :=
  if replaces then
    ⟨storedColumns ast input, []⟩
  else
    (before (dialect.canonicalName tableName)).getD ⟨storedColumns ast input, []⟩

/-- The table `tableName` has the rows of `input` after those of `target`, and all others are as
before. -/
structure Fills (dialect : Dialect κ) (runtime : JsRuntime) (ast : Ast) (input : Table)
    (tableName : String) (target : StoredTable κ) (before after : Sql.Database κ) : Prop where
  others : ∀ name ≠ dialect.canonicalName tableName, after name = before name
  rows : ∀ rows, target = ⟨storedColumns ast input, rows⟩ →
    after (dialect.canonicalName tableName) =
      some ⟨storedColumns ast input, rows ++ storedRows dialect runtime ast input⟩

section Filling

variable {engine : Engine ω κ} {query : String → Exec ω JsError Unit} {runtime : JsRuntime}
  {ast : Ast} {input : Table} {table : String}

/-- It is of no importance what the table was before. -/
theorem Fills.of_update {dialect : Dialect κ} {target : StoredTable κ}
    {before after : Sql.Database κ} {stored : Option (StoredTable κ)}
    (h : Fills dialect runtime ast input table target
      (Function.update before (dialect.canonicalName table) stored) after) :
    Fills dialect runtime ast input table target before after where
  others name hname := (h.others name hname).trans (Function.update_of_ne hname _ _)
  rows := h.rows

/-- A table is filled that is created, or the one that is found. -/
theorem query_createAndInsert (hserves : engine.Serves query)
    (h : Storable engine.toDialect runtime ast input table) (s : ω) :
    ∃ create insert result s₁ s₂, input.generateCreateTableStatement ast table = .ok create ∧
      input.generateInsertValuesStatement runtime ast table = .ok insert ∧
      query create s = some (.ok (), s₁) ∧ query insert s₁ = some (result, s₂) ∧
      Fills engine.toDialect runtime ast input table
        ((engine.tables s (engine.canonicalName table)).getD ⟨storedColumns ast input, []⟩)
        (engine.tables s) (engine.tables s₂) ∧
      (engine.tables s (engine.canonicalName table) = none →
        (result = .ok () ↔ RowsFit engine.toDialect runtime ast input)) := by
  obtain ⟨create, s₁, hcreate, hcreated, htables⟩ := query_create hserves h s
  obtain ⟨insert, result, s₂, hinsert, hinserted, hothers, hrows⟩ := query_insert hserves h s₁
  rw [htables] at hothers hrows
  rw [Function.update_self] at hrows
  refine ⟨create, insert, result, s₁, s₂, hcreate, hinsert, hcreated, hinserted, ?_, ?_⟩
  · exact Fills.of_update ⟨hothers, fun rows htarget => (hrows rows (congrArg some htarget)).1⟩
  · intro hnone
    rw [hnone] at hrows
    exact (hrows [] rfl).2

/-- The table is filled anew after it was dropped. -/
theorem query_dropCreateAndInsert (hserves : engine.Serves query)
    (h : Storable engine.toDialect runtime ast input table) (s : ω) :
    ∃ create insert result s₀ s₁ s₂, input.generateCreateTableStatement ast table = .ok create ∧
      input.generateInsertValuesStatement runtime ast table = .ok insert ∧
      query (Table.generateDropTableStatement table) s = some (.ok (), s₀) ∧
      query create s₀ = some (.ok (), s₁) ∧ query insert s₁ = some (result, s₂) ∧
      Fills engine.toDialect runtime ast input table ⟨storedColumns ast input, []⟩
        (engine.tables s) (engine.tables s₂) ∧
      (result = .ok () ↔ RowsFit engine.toDialect runtime ast input) := by
  obtain ⟨s₀, hdropped, htables⟩ :=
    query_drop hserves (h.namesQuoteFree table List.mem_cons_self) s
  obtain ⟨create, insert, result, s₁, s₂, hcreate, hinsert, hcreated, hinserted, hfills, hresult⟩ :=
    query_createAndInsert hserves h s₀
  have hnone : engine.tables s₀ (engine.canonicalName table) = none := by
    rw [htables, Function.update_self]
  rw [hnone, htables] at hfills
  exact ⟨create, insert, result, s₀, s₁, s₂, hcreate, hinsert, hdropped, hcreated, hinserted,
    hfills.of_update, hresult hnone⟩

end Filling

/-! ## PostgreSQL -/

namespace PostgresLoaderExecutor

/-- The documented behaviour of a client of `pg` for a database. It connects with the outcome
`connection`, and a statement that the server rejects is an error of the query. -/
structure Client.Accesses (client : Client ω) (engine : Engine ω κ)
    (connection : Except JsError Unit) : Prop where
  connect : ∀ s, ∃ s', client.connect s = some (connection, s') ∧
    engine.tables s' = engine.tables s
  query : connection = .ok () → engine.Serves client.query
  «end» : ∀ s, ∃ s', client.end s = some (.ok (), s') ∧ engine.tables s' = engine.tables s

/-- The values of the properties of a `PostgresLoader`. -/
structure HasProperties (services : ExecutionServices) (context : ExecutionContext δ)
    (config : ClientConfig) (table : String) : Prop where
  host : HasTypedProperty services context Value.stringTypeguard "host" .Text config.host
  port : HasTypedProperty services context Value.numberTypeguard "port" .Integer config.port
  username : HasTypedProperty services context Value.stringTypeguard "username" .Text config.user
  password : HasTypedProperty services context Value.stringTypeguard "password" .Text
    config.password
  database : HasTypedProperty services context Value.stringTypeguard "database" .Text
    config.database
  table : HasTypedProperty services context Value.stringTypeguard "table" .Text table

variable {services : ExecutionServices} {pipeline : PipelineDefinition}
  {context : ExecutionContext δ} {config : ClientConfig} {createClient : ClientConfig → Client ω}
  {client : Client ω} {engine : Engine ω κ} {connection : Except JsError Unit}
  {runtime : JsRuntime} {ast : Ast} {input : Table} {table : String}

theorem doExecute_eq (h : HasProperties services context config table) {s s' : ω}
    {result : Result (IOTypeImplementation δ)}
    (hload : load services.runtime services.ast (createClient config) input table
      (currentAstNode pipeline context.stack.getLast?) s = some (.ok result, s')) :
    doExecute services pipeline createClient input (context, s) =
      some (.ok result, (context, s')) := by
  have hnode : (getCurrentNode : ExecM δ (Option StackNode)) context =
      some (.ok context.stack.getLast?, context) := rfl
  rw [doExecute, Exec.bind_of_ok (Exec.onFst_of_some h.host.same s),
    Exec.bind_of_ok (Exec.onFst_of_some h.port.same s),
    Exec.bind_of_ok (Exec.onFst_of_some h.username.same s),
    Exec.bind_of_ok (Exec.onFst_of_some h.password.same s),
    Exec.bind_of_ok (Exec.onFst_of_some h.database.same s),
    Exec.bind_of_ok (Exec.onFst_of_some h.table.same s),
    Exec.bind_of_ok (Exec.onFst_of_some hnode s)]
  exact Exec.onSnd_of_some hload context

/-- The queries replace the table, and fail if there is no row or one that does not fit. -/
theorem runQueries_fills (hserves : engine.Serves client.query)
    (h : Storable engine.toDialect runtime ast input table) (s : ω) :
    ∃ result s', runQueries runtime ast client input table s = some (result, s') ∧
      Fills engine.toDialect runtime ast input table ⟨storedColumns ast input, []⟩
        (engine.tables s) (engine.tables s') ∧
      (result = .ok () ↔ RowsFit engine.toDialect runtime ast input) := by
  obtain ⟨create, insert, result, s₀, s₁, s₂, hcreate, hinsert, hdropped, hcreated, hinserted,
    hfills, hresult⟩ := query_dropCreateAndInsert hserves h s
  refine ⟨result, s₂, ?_, hfills, hresult⟩
  rw [runQueries, Exec.bind_of_ok hdropped, hcreate, Exec.bind_of_ok (Exec.ofExcept_apply _ _),
    Exec.bind_of_ok hcreated, hinsert, Exec.bind_of_ok (Exec.ofExcept_apply _ _), hinserted]

theorem load_of_refused {error : JsError} (h : client.Accesses engine (.error error))
    (currentNode : AstNode) (s : ω) :
    ∃ s', load runtime ast client input table currentNode s =
        some (.ok (failure currentNode error : Result (IOTypeImplementation δ)), s') ∧
      engine.tables s' = engine.tables s := by
  obtain ⟨s₁, hconnect, hconnected⟩ := h.connect s
  obtain ⟨s₂, hend, hended⟩ := h.end s₁
  refine ⟨s₂, Exec.tryFinally_of_ok ?_ hend, hended.trans hconnected⟩
  exact Exec.tryCatch_of_error (Exec.bind_of_error hconnect)

theorem load_of_connected (h : client.Accesses engine (.ok ()))
    (hstorable : Storable engine.toDialect runtime ast input table) (currentNode : AstNode)
    (s : ω) : ∃ (result : Result (IOTypeImplementation δ)) (s' : ω),
      load runtime ast client input table currentNode s = some (.ok result, s') ∧
      (result = .ok .NONE ↔ RowsFit engine.toDialect runtime ast input) ∧
      Fills engine.toDialect runtime ast input table ⟨storedColumns ast input, []⟩
        (engine.tables s) (engine.tables s') := by
  obtain ⟨s₁, hconnect, hconnected⟩ := h.connect s
  obtain ⟨outcome, s₂, hqueries, hfills, hfit⟩ := runQueries_fills (h.query rfl) hstorable s₁
  obtain ⟨s₃, hend, hended⟩ := h.end s₂
  rw [hconnected, ← hended] at hfills
  cases outcome with
  | ok _ =>
      refine ⟨.ok .NONE, s₃, Exec.tryFinally_of_ok ?_ hend, by simpa using hfit, hfills⟩
      refine Exec.tryCatch_of_ok ?_
      rw [Exec.bind_of_ok hconnect, Exec.bind_of_ok hqueries]
      rfl
  | error error =>
      refine ⟨failure currentNode error, s₃, Exec.tryFinally_of_ok ?_ hend, ?_, hfills⟩
      · refine Exec.tryCatch_of_error (e := error) ?_
        rw [Exec.bind_of_ok hconnect, Exec.bind_of_error hqueries]
      · simpa [failure, errorDetails] using hfit

end PostgresLoaderExecutor

/-! ## SQLite -/

namespace SQLiteLoaderExecutor

/-- An error is the first argument of a callback; there is no second one. -/
def CallbackArguments.ofResult : Except JsError Unit → CallbackArguments
  | .ok () => ⟨none, none⟩
  | .error error => ⟨some error, none⟩

/-- The documented behaviour of a `Database` of `sqlite3` for the file of a database. It is
constructed with the outcome `connection`, and the callback gets the error of a statement that is
rejected. -/
structure Database.Accesses (db : Database ω) (engine : Engine ω κ)
    (connection : Except JsError Unit) : Prop where
  construct : ∀ s, ∃ s', db.construct s = some (connection, s') ∧
    engine.tables s' = engine.tables s
  run : connection = .ok () → ∃ query : String → Exec ω JsError Unit, engine.Serves query ∧
    ∀ text s result s', query text s = some (result, s') →
      db.run text s = some (.ok (.ofResult result), s')
  close : ∀ s, ∃ s', db.close s = some (.ok (), s') ∧ engine.tables s' = engine.tables s

/-- The values of the properties of an `SQLiteLoader`. -/
structure HasProperties (services : ExecutionServices) (context : ExecutionContext δ)
    (file table : String) (dropTable : Bool) : Prop where
  file : HasTypedProperty services context Value.stringTypeguard "file" .Text file
  table : HasTypedProperty services context Value.stringTypeguard "table" .Text table
  dropTable : HasTypedProperty services context Value.booleanTypeguard "dropTable" .Boolean
    dropTable

variable {services : ExecutionServices} {pipeline : PipelineDefinition}
  {context : ExecutionContext δ} {file : String} {dropTable : Bool}
  {openDatabase : String → Database ω} {db : Database ω} {engine : Engine ω κ}
  {connection : Except JsError Unit} {runtime : JsRuntime} {ast : Ast} {input : Table}
  {table : String}

theorem doExecute_eq (h : HasProperties services context file table dropTable) {s s' : ω}
    {result : Result (IOTypeImplementation δ)}
    (hload : load services.runtime services.ast (openDatabase file) input table dropTable
      (currentAstNode pipeline context.stack.getLast?) s = some (.ok result, s')) :
    doExecute services pipeline openDatabase input (context, s) =
      some (.ok result, (context, s')) := by
  have hnode : (getCurrentNode : ExecM δ (Option StackNode)) context =
      some (.ok context.stack.getLast?, context) := rfl
  rw [doExecute, Exec.bind_of_ok (Exec.onFst_of_some h.file.same s),
    Exec.bind_of_ok (Exec.onFst_of_some h.table.same s),
    Exec.bind_of_ok (Exec.onFst_of_some h.dropTable.same s),
    Exec.bind_of_ok (Exec.onFst_of_some hnode s)]
  exact Exec.onSnd_of_some hload context

/-- The second argument of the callback is never there, so no error is noticed. -/
theorem runQuery_of_run {text : String} {result : Except JsError Unit} {s s' : ω}
    (h : db.run text s = some (.ok (.ofResult result), s')) :
    runQuery db text s = some (.ok (), s') := by
  rw [runQuery, Exec.bind_of_ok h]
  cases result <;> rfl

theorem createAndFill_of_queries {query : String → Exec ω JsError Unit}
    (hrun : ∀ text s result s', query text s = some (result, s') →
      db.run text s = some (.ok (.ofResult result), s'))
    {create insert : String} {result : Except JsError Unit} {s₀ s₁ s₂ : ω}
    (hcreate : input.generateCreateTableStatement ast table = .ok create)
    (hinsert : input.generateInsertValuesStatement runtime ast table = .ok insert)
    (hcreated : query create s₀ = some (.ok (), s₁))
    (hinserted : query insert s₁ = some (result, s₂)) :
    createAndFill runtime ast db input table s₀ = some (.ok (), s₂) := by
  rw [createAndFill, hcreate, Exec.bind_of_ok (Exec.ofExcept_apply _ _),
    Exec.bind_of_ok (runQuery_of_run (hrun _ _ _ _ hcreated)), hinsert,
    Exec.bind_of_ok (Exec.ofExcept_apply _ _), runQuery_of_run (hrun _ _ _ _ hinserted)]

/-- The queries replace the table only if they are told to. -/
theorem runQueries_fills (h : db.Accesses engine (.ok ()))
    (hstorable : Storable engine.toDialect runtime ast input table) (dropTable : Bool) (s : ω) :
    ∃ s', runQueries runtime ast db input table dropTable s = some (.ok (), s') ∧
      Fills engine.toDialect runtime ast input table
        (targetTable engine.toDialect ast input table dropTable (engine.tables s))
        (engine.tables s) (engine.tables s') := by
  obtain ⟨query, hserves, hrun⟩ := h.run rfl
  cases dropTable with
  | true =>
      obtain ⟨create, insert, result, s₀, s₁, s₂, hcreate, hinsert, hdropped, hcreated, hinserted,
        hfills, _⟩ := query_dropCreateAndInsert hserves hstorable s
      refine ⟨s₂, ?_, hfills⟩
      rw [runQueries, if_pos rfl, Exec.bind_of_ok (runQuery_of_run (hrun _ _ _ _ hdropped))]
      exact createAndFill_of_queries hrun hcreate hinsert hcreated hinserted
  | false =>
      obtain ⟨create, insert, result, s₁, s₂, hcreate, hinsert, hcreated, hinserted, hfills, _⟩ :=
        query_createAndInsert hserves hstorable s
      exact ⟨s₂, createAndFill_of_queries hrun hcreate hinsert hcreated hinserted, hfills⟩

theorem load_of_refused {error : JsError} (h : db.Accesses engine (.error error))
    (dropTable : Bool) (currentNode : AstNode) (s : ω) :
    ∃ s', load runtime ast db input table dropTable currentNode s =
        some (.ok (failure currentNode error : Result (IOTypeImplementation δ)), s') ∧
      engine.tables s' = engine.tables s := by
  obtain ⟨s', hconstruct, hconstructed⟩ := h.construct s
  refine ⟨s', ?_, hconstructed⟩
  rw [load, Exec.bind_of_ok (Exec.tryCatch_of_error (Exec.bind_of_error hconstruct))]
  rfl

theorem load_of_connected (h : db.Accesses engine (.ok ()))
    (hstorable : Storable engine.toDialect runtime ast input table) (dropTable : Bool)
    (currentNode : AstNode) (s : ω) :
    ∃ s', load runtime ast db input table dropTable currentNode s =
        some (.ok (.ok .NONE : Result (IOTypeImplementation δ)), s') ∧
      Fills engine.toDialect runtime ast input table
        (targetTable engine.toDialect ast input table dropTable (engine.tables s))
        (engine.tables s) (engine.tables s') := by
  obtain ⟨s₁, hconstruct, hconstructed⟩ := h.construct s
  obtain ⟨s₂, hqueries, hfills⟩ := runQueries_fills h hstorable dropTable s₁
  obtain ⟨s₃, hclose, hclosed⟩ := h.close s₂
  rw [hconstructed, ← hclosed] at hfills
  refine ⟨s₃, ?_, hfills⟩
  have hopened : Exec.tryCatch (do
        db.construct
        return .ok ()) (fun err => return .error err) s =
      some (.ok (.ok () : Except JsError Unit), s₁) := by
    refine Exec.tryCatch_of_ok ?_
    rw [Exec.bind_of_ok hconstruct]
    rfl
  rw [load, Exec.bind_of_ok hopened]
  refine Exec.tryFinally_of_ok (Exec.tryCatch_of_ok ?_) hclose
  rw [Exec.bind_of_ok hqueries]
  rfl

end SQLiteLoaderExecutor

/-! ## Loads -/

/-- What a loader block works with. -/
inductive Driver (ω : Type) where
  | postgres (config : PostgresLoaderExecutor.ClientConfig)
      (createClient : PostgresLoaderExecutor.ClientConfig → PostgresLoaderExecutor.Client ω)
  | sqlite (file : String) (dropTable : Bool)
      (openDatabase : String → SQLiteLoaderExecutor.Database ω)

/-- One execution of a loader block, with the table that is its input and the outcome of
connecting to the database. -/
structure Load (δ ω : Type) where
  driver : Driver ω
  input : Table
  table : String
  connection : Except JsError Unit
  context : ExecutionContext δ

namespace Load

section Definitions

variable (services : ExecutionServices) (pipeline : PipelineDefinition) (dialect : Dialect κ)
  (runtime : JsRuntime) (ast : Ast) (load : Load δ ω)

def doExecute : Exec (ExecutionContext δ × ω) JsError (Result (IOTypeImplementation δ)) :=
  match load.driver with
  | .postgres _ createClient =>
      PostgresLoaderExecutor.doExecute services pipeline createClient load.input
  | .sqlite _ _ openDatabase =>
      SQLiteLoaderExecutor.doExecute services pipeline openDatabase load.input

/-- The execution in the context of the block. -/
def run : Exec ω JsError (Result (IOTypeImplementation δ)) :=
  fun s => (load.doExecute services pipeline (load.context, s)).map fun out => (out.1, out.2.2)

/-- The properties of the block have values, and its driver accesses the database. -/
def IsSetUp (engine : Engine ω κ) : Prop :=
  match load.driver with
  | .postgres config createClient =>
      PostgresLoaderExecutor.HasProperties services load.context config load.table ∧
        (createClient config).Accesses engine load.connection
  | .sqlite file dropTable openDatabase =>
      SQLiteLoaderExecutor.HasProperties services load.context file load.table dropTable ∧
        (openDatabase file).Accesses engine load.connection

/-- The load replaces a table of its name. -/
def replaces : Bool :=
  match load.driver with
  | .postgres _ _ => true
  | .sqlite _ dropTable _ => dropTable

/-- The load gets to the table with the canonical name `name`. -/
def reaches (name : String) (load : Load δ ω) : Bool :=
  load.connection.isOk && dialect.canonicalName load.table == name

def columns : List ColumnDefinition :=
  storedColumns ast load.input

/-- The rows as they are stored in a table with the columns of the load, all or none of them. -/
def rows : List (List (Option κ)) :=
  storedRows dialect runtime ast load.input

/-- The block reports success. Rows that are rejected are noticed with PostgreSQL only. -/
def Succeeds : Prop :=
  match load.driver with
  | .postgres _ _ => load.connection = .ok () ∧ RowsFit dialect runtime ast load.input
  | .sqlite _ _ _ => load.connection = .ok ()

/-- What a load does to the tables. -/
structure Changes (before after : Sql.Database κ) : Prop where
  others : ∀ name, load.reaches dialect name = false → after name = before name
  rows : ∀ name rows, load.reaches dialect name = true →
    targetTable dialect ast load.input load.table load.replaces before =
      ⟨load.columns ast, rows⟩ →
    after name = some ⟨load.columns ast, rows ++ load.rows dialect runtime ast⟩

end Definitions

section Steps

variable {services : ExecutionServices} {pipeline : PipelineDefinition} {dialect : Dialect κ}
  {engine : Engine ω κ} {runtime : JsRuntime} {ast : Ast} {load : Load δ ω}
  {before after : Sql.Database κ}

theorem reaches_of_connected (h : load.connection = .ok ()) (name : String) :
    load.reaches dialect name = (dialect.canonicalName load.table == name) := by
  rw [reaches, h]
  rfl

theorem Changes.of_refused {error : JsError} (h : load.connection = .error error)
    (hsame : after = before) : load.Changes dialect runtime ast before after where
  others name _ := congrFun hsame name
  rows name rows hreaches := by
    rw [reaches, h] at hreaches
    cases hreaches

theorem Changes.of_fills (h : load.connection = .ok ())
    (hfills : Fills dialect runtime ast load.input load.table
      (targetTable dialect ast load.input load.table load.replaces before) before after) :
    load.Changes dialect runtime ast before after where
  others name hreaches := by
    rw [reaches_of_connected h, beq_eq_false_iff_ne] at hreaches
    exact hfills.others name hreaches.symm
  rows name rows hreaches htarget := by
    rw [reaches_of_connected h, beq_iff_eq] at hreaches
    rw [← hreaches]
    exact hfills.rows rows htarget

theorem run_of_doExecute {s s' : ω} {result : Result (IOTypeImplementation δ)}
    (h : load.doExecute services pipeline (load.context, s) =
      some (.ok result, (load.context, s'))) :
    load.run services pipeline s = some (.ok result, s') := by
  rw [run, h]
  rfl

/-- What a load returns, and what it does to the tables. -/
theorem run_changes (load : Load δ ω) (pipeline : PipelineDefinition)
    (hstorable : Storable engine.toDialect services.runtime services.ast load.input load.table)
    (hsetUp : load.IsSetUp services engine) (s : ω) :
    ∃ result s', load.run services pipeline s = some (.ok result, s') ∧
      (result = .ok .NONE ↔ load.Succeeds engine.toDialect services.runtime services.ast) ∧
      load.Changes engine.toDialect services.runtime services.ast (engine.tables s)
        (engine.tables s') := by
  obtain ⟨driver, input, table, connection, context⟩ := load
  cases driver with
  | postgres config createClient =>
      obtain ⟨hproperties, haccesses⟩ := hsetUp
      cases connection with
      | error error =>
          obtain ⟨s', hload, hsame⟩ := PostgresLoaderExecutor.load_of_refused haccesses
            (currentAstNode pipeline context.stack.getLast?) s
          refine ⟨_, s', run_of_doExecute (PostgresLoaderExecutor.doExecute_eq hproperties hload),
            ?_, .of_refused rfl hsame⟩
          simp [PostgresLoaderExecutor.failure, errorDetails, Succeeds]
      | ok _ =>
          obtain ⟨result, s', hload, hresult, hfills⟩ :=
            PostgresLoaderExecutor.load_of_connected haccesses hstorable
              (currentAstNode pipeline context.stack.getLast?) s
          refine ⟨result, s', run_of_doExecute
            (PostgresLoaderExecutor.doExecute_eq hproperties hload), ?_, .of_fills rfl hfills⟩
          simp [hresult, Succeeds]
  | sqlite file dropTable openDatabase =>
      obtain ⟨hproperties, haccesses⟩ := hsetUp
      cases connection with
      | error error =>
          obtain ⟨s', hload, hsame⟩ := SQLiteLoaderExecutor.load_of_refused haccesses dropTable
            (currentAstNode pipeline context.stack.getLast?) s
          refine ⟨_, s', run_of_doExecute (SQLiteLoaderExecutor.doExecute_eq hproperties hload),
            ?_, .of_refused rfl hsame⟩
          simp [SQLiteLoaderExecutor.failure, errorDetails, Succeeds]
      | ok _ =>
          obtain ⟨s', hload, hfills⟩ := SQLiteLoaderExecutor.load_of_connected haccesses hstorable
            dropTable (currentAstNode pipeline context.stack.getLast?) s
          refine ⟨.ok .NONE, s', run_of_doExecute
            (SQLiteLoaderExecutor.doExecute_eq hproperties hload), ?_, .of_fills rfl hfills⟩
          simp [Succeeds]

end Steps

end Load

/-! ## Runs -/

section Runs

variable {services : ExecutionServices} {dialect : Dialect κ} {engine : Engine ω κ}
  {runtime : JsRuntime} {ast : Ast} {loads : List (Load δ ω)}
  {before after : Sql.Database κ}

theorem mapM_run (pipeline : PipelineDefinition) (hstorable : ∀ load ∈ loads,
      Storable engine.toDialect services.runtime services.ast load.input load.table)
    (hsetUp : ∀ load ∈ loads, load.IsSetUp services engine) (s : ω) :
    ∃ results s', loads.mapM (Load.run services pipeline) s = some (.ok results, s') ∧
      List.Forall₂ (fun load result => result = .ok .NONE ↔
        load.Succeeds engine.toDialect services.runtime services.ast) loads results ∧
      Leads (Load.Changes engine.toDialect services.runtime services.ast) loads
        (engine.tables s) (engine.tables s') := by
  induction loads generalizing s with
  | nil => exact ⟨[], s, rfl, .nil, .nil _⟩
  | cons load loads ih =>
      rw [List.forall_mem_cons] at hstorable hsetUp
      obtain ⟨result, s₁, hrun, hresult, hchanges⟩ :=
        load.run_changes pipeline hstorable.1 hsetUp.1 s
      obtain ⟨results, s₂, hruns, hresults, hleads⟩ := ih hstorable.2 hsetUp.2 s₁
      refine ⟨result :: results, s₂, ?_, .cons hresult hresults, .cons hchanges hleads⟩
      rw [List.mapM_cons, Exec.bind_of_ok hrun, Exec.bind_of_ok hruns]
      rfl

/-- Loads change the tables that they reach only. -/
theorem loads_frame {name : String}
    (hleads : Leads (Load.Changes dialect runtime ast) loads before after)
    (h : ∀ load ∈ loads, load.reaches dialect name = false) : after name = before name := by
  refine hleads.keeps (P := fun tables => tables name = before name) ?_ rfl
  intro load hload tables tables' hchanges hsame
  exact (hchanges.others name (h load hload)).trans hsame

/-- Loads that do not replace the table add their rows to it. -/
theorem loads_append {name : String} {columns : List ColumnDefinition}
    {rows : List (List (Option κ))}
    (hleads : Leads (Load.Changes dialect runtime ast) loads before after)
    (hadds : ∀ load ∈ loads, load.reaches dialect name = true →
      load.replaces = false ∧ load.columns ast = columns)
    (hbefore : before name = some ⟨columns, rows⟩) :
    after name = some ⟨columns, rows ++
      (loads.filter (Load.reaches dialect name)).flatMap (Load.rows dialect runtime ast)⟩ := by
  induction hleads generalizing rows with
  | nil => simpa using hbefore
  | @cons load loads before between after hchanges _ ih =>
      rw [List.forall_mem_cons] at hadds
      cases hreaches : load.reaches dialect name with
      | false =>
          rw [List.filter_cons_of_neg (by simp [hreaches])]
          exact ih hadds.2 ((hchanges.others name hreaches).trans hbefore)
      | true =>
          obtain ⟨hreplaces, rfl⟩ := hadds.1 hreaches
          have hname : dialect.canonicalName load.table = name := by
            simpa [Load.reaches] using (Bool.and_eq_true_iff.mp hreaches).2
          have htarget : targetTable dialect ast load.input load.table load.replaces before =
              ⟨load.columns ast, rows⟩ := by
            rw [targetTable, hreplaces, hname, hbefore]
            rfl
          rw [List.filter_cons_of_pos hreaches, List.flatMap_cons, ← List.append_assoc]
          exact ih hadds.2 (hchanges.rows name rows hreaches htarget)

end Runs

/-- A database that keeps literals as they are. -/
def sampleDialect : Dialect Literal where
  canonicalName name := name
  store _ literal := some literal

def noteClient : PostgresLoaderExecutor.Client (Sql.Database Literal) where
  connect := pure ()
  query := sampleDialect.queryInMemory .error
  «end» := pure ()

def noteDatabase : SQLiteLoaderExecutor.Database (Sql.Database Literal) where
  construct := pure ()
  run text database := (sampleDialect.queryInMemory .error text database).map fun out =>
    (.ok (.ofResult out.1), out.2)
  close := pure ()

theorem noteClient_accesses : noteClient.Accesses sampleDialect.inMemory (.ok ()) where
  connect database := ⟨database, rfl, rfl⟩
  query _ := Dialect.inMemory_serves JsError.error
  «end» database := ⟨database, rfl, rfl⟩

theorem noteDatabase_accesses : noteDatabase.Accesses sampleDialect.inMemory (.ok ()) where
  construct database := ⟨database, rfl, rfl⟩
  run _ := by
    refine ⟨sampleDialect.queryInMemory .error, Dialect.inMemory_serves JsError.error, ?_⟩
    intro text s result s' hquery
    simp [noteDatabase, hquery]
  close database := ⟨database, rfl, rfl⟩

def noteServices : ExecutionServices :=
  sampleServices { emptyAst with
    blocks := [
      ⟨"Postgres", none, [⟨"host", .expression (.textLiteral "localhost")⟩,
        ⟨"port", .expression (.numericLiteral 5432)⟩,
        ⟨"username", .expression (.textLiteral "user")⟩,
        ⟨"password", .expression (.textLiteral "password")⟩,
        ⟨"database", .expression (.textLiteral "notebook")⟩,
        ⟨"table", .expression (.textLiteral "notes")⟩]⟩,
      ⟨"SQLite", none, [⟨"file", .expression (.textLiteral "./notebook.sqlite")⟩,
        ⟨"table", .expression (.textLiteral "notes")⟩,
        ⟨"dropTable", .expression (.booleanLiteral false)⟩]⟩] }

def noteContext (block : BlockId) : ExecutionContext Unit :=
  { construct (.construct ⟨fun _ => none, none⟩) with stack := [.block block] }

/-- A load that creates the table anew, and one that adds to it. -/
def noteLoads : List (Load Unit (Sql.Database Literal)) :=
  [⟨.postgres ⟨"localhost", 5432, "user", "password", "notebook"⟩ fun _ => noteClient, noteTable,
      "notes", .ok (), noteContext 0⟩,
    ⟨.sqlite "./notebook.sqlite" false fun _ => noteDatabase, noteTable, "notes", .ok (),
      noteContext 1⟩]

theorem noteTable_storable :
    Storable sampleDialect.inMemory.toDialect noteServices.runtime noteServices.ast noteTable
      "notes" where
  loadable := noteTable_loadable
  printsNumbers := noteTable_printsNumbers
  namesQuoteFree := show ∀ name ∈ ["notes", "note", "n"], '"' ∉ name.toList by decide
  hasColumns := by decide
  distinct := show ["note", "n"].Nodup by decide

theorem noteLoads_isSetUp : ∀ load ∈ noteLoads,
    load.IsSetUp noteServices sampleDialect.inMemory := by
  intro load hload
  rcases List.mem_pair.mp hload with rfl | rfl
  · exact ⟨⟨⟨_, rfl⟩, ⟨_, rfl⟩, ⟨_, rfl⟩, ⟨_, rfl⟩, ⟨_, rfl⟩, ⟨_, rfl⟩⟩, noteClient_accesses⟩
  · exact ⟨⟨⟨_, rfl⟩, ⟨_, rfl⟩, ⟨_, rfl⟩⟩, noteDatabase_accesses⟩

theorem noteLoads_succeed : ∀ load ∈ noteLoads,
    load.Succeeds sampleDialect noteServices.runtime noteServices.ast := by
  intro load hload
  rcases List.mem_pair.mp hload with rfl | rfl
  · exact ⟨rfl, by decide, rfl⟩
  · rfl

end Jayvee
