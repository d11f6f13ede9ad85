import Jayvee.Model.Ast

/-! # The cache of a logger -/

namespace Jayvee

inductive DiagnosticSeverity where
  | ERROR | WARNING | INFO | HINT | DEBUG
  deriving DecidableEq, Repr

structure LogEntry where
  severity : DiagnosticSeverity
  message : String
  deriving DecidableEq, Repr

structure LogCache where
  /-- `none` is infinity, the default. -/
  logCacheMaxSize : Option ℤ
  logs : List LogEntry
  deriving DecidableEq, Repr

namespace LogCache

def construct (maxCacheSize : Option ℤ) : Except JsError LogCache :=
  if maxCacheSize.any (· ≤ 0) then
    .error (.error "maxCacheSize needs to be greater than 0")
  else
    .ok { logCacheMaxSize := maxCacheSize, logs := [] }

def removeOldestLogsIfSizeExceeded (this : LogCache) : LogCache :=
  if this.logCacheMaxSize.any fun maxSize => (this.logs.length : ℤ) > maxSize then
    { this with logs := this.logs.take 1 }
  else
    this

def insertLogMessage (this : LogCache) (message : String) (severity : DiagnosticSeverity) :
    LogCache :=
  let entry : LogEntry := { message, severity }
  { this with logs := this.logs ++ [entry] }.removeOldestLogsIfSizeExceeded

def getLogs (this : LogCache) : List LogEntry :=
  this.logs

def getLogMessages (this : LogCache) : List String :=
  this.logs.map LogEntry.message

def clearLogs (this : LogCache) : LogCache :=
  { this with logs := [] }

/-! ## Runs -/

/-- The calls that change the logs. -/
inductive Call where
  | insertLogMessage (message : String) (severity : DiagnosticSeverity)
  | clearLogs
  deriving DecidableEq, Repr

def call (this : LogCache) : Call → LogCache
  | .insertLogMessage message severity => this.insertLogMessage message severity
  | .clearLogs => this.clearLogs

def callAll (this : LogCache) (calls : List Call) : LogCache :=
  calls.foldl call this

end LogCache

end Jayvee
