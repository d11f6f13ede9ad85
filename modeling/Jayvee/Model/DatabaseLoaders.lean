import Jayvee.Model.TableExecutors
import Jayvee.Model.TableStatements

/-! # Executors that load a table into a database -/

namespace Jayvee

open Foundation ExecutionContext

variable {δ ω : Type}

/-- The node of `getCurrentNode`. -/
def currentAstNode (pipeline : PipelineDefinition) : Option StackNode → AstNode
  | none => .pipeline pipeline
  | some (.block block) => .block block
  | some (.constraint constraint) => .constraint constraint
  | some (.transform transform) => .transform transform

/-! ## PostgreSQL -/

namespace PostgresLoaderExecutor

/-- A `Client` of the package `pg`, over what the server stores. -/
structure Client (ω : Type) where
  connect : Exec ω JsError Unit
  query : String → Exec ω JsError Unit
  «end» : Exec ω JsError Unit

structure ClientConfig where
  host : String
  port : JsNumber
  user : String
  password : String
  database : String

/-- The queries of `doExecute`. A statement is generated right before it is sent. -/
def runQueries (runtime : JsRuntime) (ast : Ast) (client : Client ω) (input : Table)
    (table : String) : Exec ω JsError Unit := do
  client.query (Table.generateDropTableStatement table)
  let createTableStatement ← Exec.ofExcept (input.generateCreateTableStatement ast table)
  client.query createTableStatement
  let insertValuesStatement ←
    Exec.ofExcept (input.generateInsertValuesStatement runtime ast table)
  client.query insertValuesStatement

def failure (currentNode : AstNode) (err : JsError) : Result (IOTypeImplementation δ) :=
  errorDetails s!"Could not write to postgres database: {err.message}"
    { node := currentNode, property := some "name" }

/-- What `doExecute` does with the client. -/
def load (runtime : JsRuntime) (ast : Ast) (client : Client ω) (input : Table) (table : String)
    (currentNode : AstNode) : Exec ω JsError (Result (IOTypeImplementation δ)) :=
  Exec.tryFinally
    (Exec.tryCatch
      (do
        client.connect
        runQueries runtime ast client input table
        return .ok .NONE)
      fun err => return failure currentNode err)
    client.end

def doExecute (services : ExecutionServices) (pipeline : PipelineDefinition)
    (createClient : ClientConfig → Client ω) (input : Table) :
    Exec (ExecutionContext δ × ω) JsError (Result (IOTypeImplementation δ)) := do
  let host ← Exec.onFst (getTypedPropertyValue services Value.stringTypeguard "host" .Text)
  let port ← Exec.onFst (getTypedPropertyValue services Value.numberTypeguard "port" .Integer)
  let user ← Exec.onFst (getTypedPropertyValue services Value.stringTypeguard "username" .Text)
  let password ←
    Exec.onFst (getTypedPropertyValue services Value.stringTypeguard "password" .Text)
  let database ←
    Exec.onFst (getTypedPropertyValue services Value.stringTypeguard "database" .Text)
  let table ← Exec.onFst (getTypedPropertyValue services Value.stringTypeguard "table" .Text)
  let currentNode ← Exec.onFst getCurrentNode
  Exec.onSnd (load services.runtime services.ast
    (createClient ⟨host, port, user, password, database⟩) input table
    (currentAstNode pipeline currentNode))

end PostgresLoaderExecutor

/-! ## SQLite -/

namespace SQLiteLoaderExecutor

/-- The arguments that the callback of `run` gets; one that is missing is `undefined`. -/
structure CallbackArguments where
  first : Option JsError
  second : Option JsError

/-- A `Database` of the package `sqlite3`, over what the file stores. -/
structure Database (ω : Type) where
  construct : Exec ω JsError Unit
  run : String → Exec ω JsError CallbackArguments
  close : Exec ω JsError Unit

/-- The callback takes its second argument for the error. -/
def runQuery (db : Database ω) (query : String) : Exec ω JsError Unit := do
  let callbackArguments ← db.run query
  match callbackArguments.second with
  | some error => Exec.throw error
  | none => return

def createAndFill (runtime : JsRuntime) (ast : Ast) (db : Database ω) (input : Table)
    (table : String) : Exec ω JsError Unit := do
  let createTableStatement ← Exec.ofExcept (input.generateCreateTableStatement ast table)
  runQuery db createTableStatement
  let insertValuesStatement ←
    Exec.ofExcept (input.generateInsertValuesStatement runtime ast table)
  runQuery db insertValuesStatement

/-- The queries of `doExecute`. A statement is generated right before it is run. -/
def runQueries (runtime : JsRuntime) (ast : Ast) (db : Database ω) (input : Table)
    (table : String) (dropTable : Bool) : Exec ω JsError Unit := do
  if dropTable then
    runQuery db (Table.generateDropTableStatement table)
  createAndFill runtime ast db input table

def failure (currentNode : AstNode) (err : JsError) : Result (IOTypeImplementation δ) :=
  errorDetails s!"Could not write to sqlite database: {err.message}"
    { node := currentNode, property := some "name" }

/-- What `doExecute` does with the database. One that could not be opened is not closed. -/
def load (runtime : JsRuntime) (ast : Ast) (db : Database ω) (input : Table) (table : String)
    (dropTable : Bool) (currentNode : AstNode) :
    Exec ω JsError (Result (IOTypeImplementation δ)) := do
  let opened : Except JsError Unit ← Exec.tryCatch
    (do
      db.construct
      return .ok ())
    fun err => return .error err
  match opened with
  | .error err => return failure currentNode err
  | .ok () =>
      Exec.tryFinally
        (Exec.tryCatch
          (do
            runQueries runtime ast db input table dropTable
            return .ok .NONE)
          fun err => return failure currentNode err)
        db.close

def doExecute (services : ExecutionServices) (pipeline : PipelineDefinition)
    (openDatabase : (file : String) → Database ω) (input : Table) :
    Exec (ExecutionContext δ × ω) JsError (Result (IOTypeImplementation δ)) := do
  let file ← Exec.onFst (getTypedPropertyValue services Value.stringTypeguard "file" .Text)
  let table ← Exec.onFst (getTypedPropertyValue services Value.stringTypeguard "table" .Text)
  let dropTable ←
    Exec.onFst (getTypedPropertyValue services Value.booleanTypeguard "dropTable" .Boolean)
  let currentNode ← Exec.onFst getCurrentNode
  Exec.onSnd (load services.runtime services.ast (openDatabase file) input table dropTable
    (currentAstNode pipeline currentNode))

end SQLiteLoaderExecutor

end Jayvee
