import Jayvee.Model.FileExecutors

/-! # The executor that extracts a file from the web -/

namespace Jayvee

open Foundation ExecutionContext

/-! ## Backoff strategies -/

inductive BackoffStrategyHandle where
  | exponential
  | linear
  deriving DecidableEq, Repr

namespace BackoffStrategyHandle

def text : BackoffStrategyHandle → String
  | exponential => "exponential"
  | linear => "linear"

/-- The typeguard `isBackoffStrategyHandle`. -/
def typeguard (v : String) : Option BackoffStrategyHandle :=
  [exponential, linear].find? fun handle => handle.text == v

end BackoffStrategyHandle

/-- The unit of the base of the power is a second. -/
def getBackoffMilliseconds (runtime : JsRuntime) (backoffMilliseconds : JsNumber) (retry : Nat) :
    BackoffStrategyHandle → JsNumber
  | .exponential =>
      let initialBackoffSeconds := JsNumber.div runtime.nearest backoffMilliseconds 1000
      JsNumber.mul runtime.nearest (runtime.pow initialBackoffSeconds (.finite retry)) 1000
  | .linear => backoffMilliseconds

/-! ## Requests -/

/-- A response, with the path of the URL that it comes from. -/
structure IncomingMessage where
  statusCode : Option Nat
  contentType : Option String
  pathname : String
  deriving DecidableEq, Repr

/-- What happens to a request. Every listener is called at its own event. -/
inductive RequestEvent where
  | response (response : IncomingMessage)
  | data (chunk : ArrayBuffer)
  | «end»
  | responseError (message : String)
  | requestError (message : String)
  deriving DecidableEq, Repr

inductive NetworkAction where
  | request (https : Bool) (url : String) (followRedirects : Bool)
  | wait (milliseconds : JsNumber)
  deriving DecidableEq, Repr

/-- `get` is `http.get` or `https.get` of the package `follow-redirects`: a call throws, or it
starts a request to which something will happen, which may be different for each call. The calls
are counted, and what has been done is recorded. -/
structure Network where
  get : (https : Bool) → (url : String) → (followRedirects : Bool) → (call : Nat) →
    Except JsError (List RequestEvent)
  calls : Nat
  log : List NetworkAction

namespace Network

def request (https : Bool) (url : String) (followRedirects : Bool) :
    Exec Network JsError (List RequestEvent) := do
  let network ← Exec.get
  Exec.modify fun network =>
    { network with
      calls := network.calls + 1
      log := network.log ++ [.request https url followRedirects] }
  Exec.ofExcept (network.get https url followRedirects network.calls)

def wait (milliseconds : JsNumber) : Exec Network JsError Unit :=
  Exec.modify fun network => { network with log := network.log ++ [.wait milliseconds] }

end Network

/-! ## The executor -/

namespace HttpExtractorExecutor

/-- The file that is made when all data is downloaded. The extension in the URL goes first. -/
def createFile (mime : MimeServices) (response : IncomingMessage) (rawData : ArrayBuffer) :
    BinaryFile :=
  let fileName := ((splitPath response.pathname '/').getLast?).getD ""
  let extension := (inferFileExtensionFromFileExtensionString (extname fileName)).getD .NONE
  { name := fileName
    extension :=
      if extension = .NONE then
        (response.contentType.bind (inferFileExtensionFromContentTypeString mime)).getD .NONE
      else
        extension
    mimeType := (response.contentType.bind (inferMimeTypeFromFileExtensionString mime)).getD
      .APPLICATION_OCTET_STREAM
    content := rawData }

/-- The state of a fetch. It is settled with what the promise resolves to, or with what one of
the callbacks throws. -/
structure Fetch where
  settled : Option (Except JsError (Result BinaryFile))
  response : Option IncomingMessage
  rawData : ArrayBuffer

/-- Only the first call has an effect. -/
def Fetch.resolve (fetch : Fetch) (result : Except JsError (Result BinaryFile)) : Fetch :=
  { fetch with settled := some (fetch.settled.getD result) }

/-- The error of a response whose code is not accepted. -/
def statusError (statusCode : Option Nat) : Option String :=
  match statusCode with
  | none => some "HTTP fetch failed with code undefined. Please check your connection."
  | some responseCode =>
      if responseCode ≥ 400 then
        some s!"HTTP fetch failed with code {responseCode}. Please check your connection."
      else if responseCode ≥ 301 then
        some s!"HTTP fetch was redirected with code {responseCode}. Redirects are either disabled or maximum number of redirects was exeeded."
      else
        none

section Events

variable (mime : MimeServices) (urlProperty : Except JsError PropertyAssignment)
  (currentNode : AstNode)

/-- The callback of the request, up to the registration of listeners. -/
def onResponse (response : IncomingMessage) (fetch : Fetch) : Fetch :=
  let fetch := { fetch with response := some response }
  match statusError response.statusCode with
  | none => fetch
  | some message =>
      fetch.resolve (urlProperty.map fun property =>
        errorDetails message { node := .propertyAssignment property })

def onError (message : String) (fetch : Fetch) : Fetch :=
  fetch.resolve (.ok (errorDetails message { node := currentNode, property := some "name" }))

/-- The response is listened to once it is there. -/
def onEvent (fetch : Fetch) (event : RequestEvent) : Fetch :=
  match event, fetch.response with
  | .requestError message, _ => onError currentNode message fetch
  | .response response, none => onResponse urlProperty response fetch
  | .response _, some _ => fetch
  | .data chunk, some _ => { fetch with rawData := fetch.rawData ++ chunk }
  | .end, some response => fetch.resolve (.ok (.ok (createFile mime response fetch.rawData)))
  | .responseError message, some _ => onError currentNode message fetch
  | _, none => fetch

/-- All events of a request. -/
def onEvents (events : List RequestEvent) : Fetch :=
  events.foldl (onEvent mime urlProperty currentNode) ⟨none, none, []⟩

end Events

variable {δ : Type} (services : ExecutionServices) (mime : MimeServices)
  (pipeline : PipelineDefinition)

/-- Waiting for a promise does not end if it is never settled. -/
def awaitFetch {σ : Type} (fetch : Fetch) : Exec σ JsError (Result BinaryFile) :=
  match fetch.settled with
  | none => Exec.diverge
  | some result => Exec.ofExcept result

def fetchRawDataAsFile (url : String) :
    Exec (ExecutionContext δ × Network) JsError (Result BinaryFile) := do
  let https := url.startsWith "https"
  let followRedirects ←
    Exec.onFst (getTypedPropertyValue services Value.booleanTypeguard "followRedirects" .Boolean)
  let events ← Exec.onSnd (Network.request https url followRedirects)
  let urlProperty ← Exec.onFst (getProperty services "url")
  let currentNode ← Exec.onFst getCurrentNode
  let urlProperty := match urlProperty with
    | some property => .ok property
    | none => .error (.assertionError "The expression evaluated to a falsy value")
  awaitFetch (onEvents mime urlProperty (currentAstNode pipeline currentNode) events)

/-- The loop over the attempts, of which the last one is not followed by a retry. -/
def fetchWithRetries (url : String) (backoff : (retry : Nat) → JsNumber) :
    (retries attempt : Nat) → Exec (ExecutionContext δ × Network) JsError (Result BinaryFile)
  | 0, _ => fetchRawDataAsFile services mime pipeline url
  | retries + 1, attempt => do
      match ← fetchRawDataAsFile services mime pipeline url with
      | .ok file => return .ok file
      | .error _ => do
          Exec.onSnd (Network.wait (backoff (attempt + 1)))
          fetchWithRetries url backoff retries (attempt + 1)

def integerTypeguard (value : Value) : Option ℤ := do
  let number ← value.numberTypeguard
  number.toInt?

def doExecute : Exec (ExecutionContext δ × Network) JsError (Result BinaryFile) := do
  let url ← Exec.onFst (getTypedPropertyValue services Value.stringTypeguard "url" .Text)
  let retries ← Exec.onFst (getTypedPropertyValue services integerTypeguard "retries" .Integer)
  if retries < 0 then
    Exec.throw (.assertionError "The expression evaluated to a falsy value")
  let retryBackoffMilliseconds ← Exec.onFst
    (getTypedPropertyValue services Value.numberTypeguard "retryBackoffMilliseconds" .Integer)
  let retryBackoffStrategy ←
    Exec.onFst (getTypedPropertyValue services Value.stringTypeguard "retryBackoffStrategy" .Text)
  match BackoffStrategyHandle.typeguard retryBackoffStrategy with
  | none => Exec.throw (.assertionError "The expression evaluated to a falsy value")
  | some handle =>
      let backoff := fun retry =>
        getBackoffMilliseconds services.runtime retryBackoffMilliseconds retry handle
      fetchWithRetries services mime pipeline url backoff retries.toNat 0

end HttpExtractorExecutor

end Jayvee
