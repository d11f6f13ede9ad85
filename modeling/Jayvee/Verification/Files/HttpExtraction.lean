import Jayvee.Model.HttpExtractorExecutor
import Jayvee.Verification.Execution.Properties

/-! # Extracting a file from the web -/

namespace Jayvee

open Foundation ExecutionContext

namespace HttpExtractorExecutor

/-! ## What happens to a request -/

/-- The events that are listened to before there is a response. -/
def isHeardFirst : RequestEvent → Bool
  | .response _ => true
  | .requestError _ => true
  | _ => false

/-- The events that end the download of a response. -/
def endsDownload : RequestEvent → Bool
  | .end => true
  | .responseError _ => true
  | .requestError _ => true
  | _ => false

def chunkOf : RequestEvent → ArrayBuffer
  | .data chunk => chunk
  | _ => []

/-- There is a response with a code that is not an error, and then the later events. -/
def Accepts (events : List RequestEvent) (response : IncomingMessage)
    (later : List RequestEvent) : Prop :=
  statusError response.statusCode = none ∧ ∃ before,
    events = before ++ .response response :: later ∧ ∀ event ∈ before, isHeardFirst event = false

/-- All data is downloaded before an error occurs. -/
def Delivers (mime : MimeServices) (events : List RequestEvent) (file : BinaryFile) : Prop :=
  ∃ response body rest, Accepts events response (body ++ .end :: rest) ∧
    (∀ event ∈ body, endsDownload event = false) ∧
    file = createFile mime response (body.flatMap chunkOf)

inductive FailsWith (events : List RequestEvent) (message : String) : Prop where
  | request (before after : List RequestEvent)
      (hevents : events = before ++ .requestError message :: after)
      (hbefore : ∀ event ∈ before, isHeardFirst event = false)
  | status (response : IncomingMessage) (before after : List RequestEvent)
      (hevents : events = before ++ .response response :: after)
      (hbefore : ∀ event ∈ before, isHeardFirst event = false)
      (hstatus : statusError response.statusCode = some message)
  | download (response : IncomingMessage) (last : RequestEvent) (body rest : List RequestEvent)
      (haccepts : Accepts events response (body ++ last :: rest))
      (hbody : ∀ event ∈ body, endsDownload event = false)
      (hlast : last = .responseError message ∨ last = .requestError message)

inductive NeverEnds (events : List RequestEvent) : Prop where
  | unheard (h : ∀ event ∈ events, isHeardFirst event = false)
  | unfinished (response : IncomingMessage) (later : List RequestEvent)
      (haccepts : Accepts events response later)
      (hlater : ∀ event ∈ later, endsDownload event = false)

/-- Nothing else can happen. -/
theorem delivers_or_fails_or_neverEnds (mime : MimeServices) (events : List RequestEvent) :
    (∃ file, Delivers mime events file) ∨ (∃ message, FailsWith events message) ∨
      NeverEnds events := by
  cases hfirst : events.find? isHeardFirst with
  | none => exact .inr (.inr (.unheard (by simpa using List.find?_eq_none.mp hfirst)))
  | some first =>
      obtain ⟨hheard, before, later, rfl, hbefore⟩ := List.find?_eq_some_iff_append.mp hfirst
      replace hbefore : ∀ event ∈ before, isHeardFirst event = false := by simpa using hbefore
      cases first with
      | requestError message => exact .inr (.inl ⟨message, .request before later rfl hbefore⟩)
      | response response =>
          cases hstatus : statusError response.statusCode with
          | some message =>
              exact .inr (.inl ⟨message, .status response before later rfl hbefore hstatus⟩)
          | none =>
              have haccepts : Accepts (before ++ .response response :: later) response later :=
                ⟨hstatus, before, rfl, hbefore⟩
              cases hlast : later.find? endsDownload with
              | none =>
                  exact .inr (.inr (.unfinished response later haccepts
                    (by simpa using List.find?_eq_none.mp hlast)))
              | some last =>
                  obtain ⟨hends, body, rest, rfl, hbody⟩ := List.find?_eq_some_iff_append.mp hlast
                  replace hbody : ∀ event ∈ body, endsDownload event = false := by
                    simpa using hbody
                  cases last with
                  | «end» => exact .inl ⟨_, response, body, rest, haccepts, hbody, rfl⟩
                  | responseError message =>
                      exact .inr (.inl ⟨message, .download response _ body rest haccepts hbody
                        (.inl rfl)⟩)
                  | requestError message =>
                      exact .inr (.inl ⟨message, .download response _ body rest haccepts hbody
                        (.inr rfl)⟩)
                  | response _ => cases hends
                  | data _ => cases hends
      | data _ => cases hheard
      | «end» => cases hheard
      | responseError _ => cases hheard

/-! ## The callbacks -/

section Events

variable {mime : MimeServices} {urlProperty : Except JsError PropertyAssignment}
  {currentNode : AstNode} {fetch : Fetch} {events : List RequestEvent}

theorem onEvent_of_settled {result : Except JsError (Result BinaryFile)}
    (h : fetch.settled = some result) (event : RequestEvent) :
    (onEvent mime urlProperty currentNode fetch event).settled = some result := by
  cases event with
  | requestError message => simp [onEvent, onError, Fetch.resolve, h]
  | response response =>
      cases hresponse : fetch.response with
      | some earlier => simpa [onEvent, hresponse] using h
      | none =>
          cases hstatus : statusError response.statusCode <;>
            simp [onEvent, hresponse, onResponse, hstatus, Fetch.resolve, h]
  | data chunk => cases hresponse : fetch.response <;> simp [onEvent, hresponse, h]
  | «end» =>
      cases hresponse : fetch.response <;> simp [onEvent, hresponse, Fetch.resolve, h]
  | responseError message =>
      cases hresponse : fetch.response <;> simp [onEvent, hresponse, onError, Fetch.resolve, h]

/-- A promise is settled once. -/
theorem foldl_onEvent_of_settled {result : Except JsError (Result BinaryFile)}
    (h : fetch.settled = some result) :
    (events.foldl (onEvent mime urlProperty currentNode) fetch).settled = some result := by
  induction events generalizing fetch with
  | nil => exact h
  | cons event events ih => exact ih (onEvent_of_settled h event)

/-- Without a response, nothing but the response and an error is heard. -/
theorem foldl_onEvent_of_unheard (h : ∀ event ∈ events, isHeardFirst event = false)
    (hresponse : fetch.response = none) :
    events.foldl (onEvent mime urlProperty currentNode) fetch = fetch := by
  induction events with
  | nil => rfl
  | cons event events ih =>
      rw [List.forall_mem_cons] at h
      rw [List.foldl_cons]
      cases event with
      | data chunk => simpa [onEvent, hresponse] using ih h.2
      | «end» => simpa [onEvent, hresponse] using ih h.2
      | responseError message => simpa [onEvent, hresponse] using ih h.2
      | response response => cases h.1
      | requestError message => cases h.1

/-- While a response is downloaded, its data is collected. -/
theorem foldl_onEvent_of_body {response : IncomingMessage} {rawData : ArrayBuffer}
    (h : ∀ event ∈ events, endsDownload event = false) :
    events.foldl (onEvent mime urlProperty currentNode) ⟨none, some response, rawData⟩ =
      ⟨none, some response, rawData ++ events.flatMap chunkOf⟩ := by
  induction events generalizing rawData with
  | nil => simp
  | cons event events ih =>
      rw [List.forall_mem_cons] at h
      rw [List.foldl_cons]
      cases event with
      | data chunk => simp [onEvent, ih h.2, chunkOf]
      | response other => simp [onEvent, ih h.2, chunkOf]
      | «end» => cases h.1
      | responseError message => cases h.1
      | requestError message => cases h.1

/-- The state in which the download of a response starts. -/
theorem onEvents_of_accepts {response : IncomingMessage} {later : List RequestEvent}
    (h : Accepts events response later) :
    onEvents mime urlProperty currentNode events =
      later.foldl (onEvent mime urlProperty currentNode) ⟨none, some response, []⟩ := by
  obtain ⟨hstatus, before, rfl, hbefore⟩ := h
  rw [onEvents, List.foldl_append, foldl_onEvent_of_unheard hbefore rfl, List.foldl_cons]
  simp [onEvent, onResponse, hstatus]

theorem onEvents_of_delivers {file : BinaryFile} (h : Delivers mime events file) :
    (onEvents mime urlProperty currentNode events).settled = some (.ok (.ok file)) := by
  obtain ⟨response, body, rest, haccepts, hbody, rfl⟩ := h
  rw [onEvents_of_accepts haccepts, List.foldl_append, foldl_onEvent_of_body hbody,
    List.foldl_cons]
  exact foldl_onEvent_of_settled rfl

theorem onEvents_of_failsWith {property : PropertyAssignment} {message : String}
    (h : FailsWith events message) :
    ∃ details, (onEvents mime (.ok property) currentNode events).settled =
      some (.ok (.error details)) ∧ details.message = message := by
  cases h with
  | request before after hevents hbefore =>
      subst hevents
      rw [onEvents, List.foldl_append, foldl_onEvent_of_unheard hbefore rfl, List.foldl_cons]
      exact ⟨_, foldl_onEvent_of_settled rfl, rfl⟩
  | status response before after hevents hbefore hstatus =>
      subst hevents
      rw [onEvents, List.foldl_append, foldl_onEvent_of_unheard hbefore rfl, List.foldl_cons]
      refine ⟨⟨message, { node := .propertyAssignment property }⟩,
        foldl_onEvent_of_settled ?_, rfl⟩
      simp only [onEvent, onResponse, hstatus]
      rfl
  | download response last body rest haccepts hbody hlast =>
      rw [onEvents_of_accepts haccepts, List.foldl_append, foldl_onEvent_of_body hbody,
        List.foldl_cons]
      rcases hlast with rfl | rfl <;> exact ⟨_, foldl_onEvent_of_settled rfl, rfl⟩

theorem onEvents_of_neverEnds (h : NeverEnds events) :
    (onEvents mime urlProperty currentNode events).settled = none := by
  cases h with
  | unheard h => rw [onEvents, foldl_onEvent_of_unheard h rfl]
  | unfinished response later haccepts hlater =>
      rw [onEvents_of_accepts haccepts, foldl_onEvent_of_body hlater]

end Events

/-! ## The executor -/

/-- The properties of the block. -/
structure HttpProperties where
  url : String
  retries : Nat
  retryBackoffMilliseconds : JsNumber
  retryBackoffStrategy : BackoffStrategyHandle
  followRedirects : Bool

/-- The properties that are read in a context. The URL has no default. -/
structure HasHttpProperties {δ : Type} (services : ExecutionServices)
    (context : ExecutionContext δ) (properties : HttpProperties) : Prop where
  url : HasTypedProperty services context Value.stringTypeguard "url" .Text properties.url
  retries : HasTypedProperty services context integerTypeguard "retries" .Integer
    properties.retries
  retryBackoffMilliseconds : HasTypedProperty services context Value.numberTypeguard
    "retryBackoffMilliseconds" .Integer properties.retryBackoffMilliseconds
  retryBackoffStrategy : HasTypedProperty services context Value.stringTypeguard
    "retryBackoffStrategy" .Text properties.retryBackoffStrategy.text
  followRedirects : HasTypedProperty services context Value.booleanTypeguard "followRedirects"
    .Boolean properties.followRedirects
  assigned : ∃ property after, getProperty services "url" context = some (.ok (some property), after)

/-- What is done for a request and for `retries` more of them, of which the first one is numbered
`retry`. -/
def attemptActions (runtime : JsRuntime) (properties : HttpProperties) :
    (retries retry : Nat) → List NetworkAction
  | 0, _ => [request]
  | retries + 1, retry =>
      request :: .wait (getBackoffMilliseconds runtime properties.retryBackoffMilliseconds retry
        properties.retryBackoffStrategy) ::
          attemptActions runtime properties retries (retry + 1)
where
  request : NetworkAction :=
    .request (properties.url.startsWith "https") properties.url properties.followRedirects

/-- The network when that has been done. -/
def afterAttempts (runtime : JsRuntime) (properties : HttpProperties) (network : Network)
    (retries retry : Nat) : Network :=
  { network with
    calls := network.calls + retries + 1
    log := network.log ++ attemptActions runtime properties retries retry }

/-- What the `n`-th call from now on comes to. -/
def HttpProperties.call (properties : HttpProperties) (network : Network) (n : Nat) :
    Except JsError (List RequestEvent) :=
  network.get (properties.url.startsWith "https") properties.url properties.followRedirects
    (network.calls + n)

/-- The call starts a request, and `P` holds of what happens to it. -/
def Starts (P : List RequestEvent → Prop) (call : Except JsError (List RequestEvent)) : Prop :=
  ∃ events, call = .ok events ∧ P events

section Executor

variable {δ : Type} {services : ExecutionServices} {context : ExecutionContext δ}
  {network : Network} {properties : HttpProperties}

theorem request_apply (runtime : JsRuntime) (properties : HttpProperties) (network : Network) :
    Network.request (properties.url.startsWith "https") properties.url
      properties.followRedirects network =
        some (properties.call network 0, afterAttempts runtime properties network 0 1) :=
  rfl

theorem fetchRawDataAsFile_apply (mime : MimeServices) (pipeline : PipelineDefinition)
    (h : HasHttpProperties services context properties) : ∃ property,
      ∀ network events, properties.call network 0 = .ok events →
        fetchRawDataAsFile services mime pipeline properties.url (context, network) =
          awaitFetch (onEvents mime (.ok property)
            (currentAstNode pipeline context.stack.getLast?) events)
            (context, afterAttempts services.runtime properties network 0 1) := by
  obtain ⟨property, after, hproperty⟩ := h.assigned
  obtain rfl : context = after := Option.some.inj (congrArg (Option.map Prod.snd) hproperty)
  refine ⟨property, fun network events hevents => ?_⟩
  have hrequest := request_apply services.runtime properties network
  rw [hevents] at hrequest
  rw [fetchRawDataAsFile, Exec.bind_of_ok (Exec.onFst_of_some h.followRedirects.same network),
    Exec.bind_of_ok (Exec.onSnd_of_some hrequest context),
    Exec.bind_of_ok (Exec.onFst_of_some hproperty _)]
  rfl

theorem afterAttempts_zero_eq {n retry : Nat} {log : List NetworkAction}
    (hlog : log ++ [attemptActions.request properties] =
      network.log ++ attemptActions services.runtime properties n retry) :
    afterAttempts services.runtime properties { network with
        calls := network.calls + n
        log := log } 0 1 = afterAttempts services.runtime properties network n retry := by
  rw [afterAttempts, afterAttempts, ← hlog]
  rfl

section Fetch

variable (mime : MimeServices) (pipeline : PipelineDefinition)
  (h : HasHttpProperties services context properties)
include h

theorem fetch_of_delivers {file : BinaryFile}
    (hdelivers : Starts (Delivers mime · file) (properties.call network 0)) :
    fetchRawDataAsFile services mime pipeline properties.url (context, network) =
      some (.ok (.ok file), (context, afterAttempts services.runtime properties network 0 1)) := by
  obtain ⟨property, hfetch⟩ := fetchRawDataAsFile_apply mime pipeline h
  obtain ⟨events, hevents, hdelivers⟩ := hdelivers
  rw [hfetch network events hevents, awaitFetch, onEvents_of_delivers hdelivers]
  rfl

theorem fetch_of_failsWith {message : String}
    (hfails : Starts (FailsWith · message) (properties.call network 0)) :
    ∃ details, fetchRawDataAsFile services mime pipeline properties.url (context, network) =
        some (.ok (.error details),
          (context, afterAttempts services.runtime properties network 0 1)) ∧
      details.message = message := by
  obtain ⟨property, hfetch⟩ := fetchRawDataAsFile_apply mime pipeline h
  obtain ⟨events, hevents, hfails⟩ := hfails
  obtain ⟨details, hsettled, hmessage⟩ := onEvents_of_failsWith hfails
  refine ⟨details, ?_, hmessage⟩
  rw [hfetch network events hevents, awaitFetch, hsettled]
  rfl

theorem fetch_of_neverEnds (hnever : Starts NeverEnds (properties.call network 0)) :
    fetchRawDataAsFile services mime pipeline properties.url (context, network) = none := by
  obtain ⟨property, hfetch⟩ := fetchRawDataAsFile_apply mime pipeline h
  obtain ⟨events, hevents, hnever⟩ := hnever
  rw [hfetch network events hevents, awaitFetch, onEvents_of_neverEnds hnever]
  rfl

/-- What the call throws is not caught. -/
theorem fetch_of_throws {error : JsError} (hthrows : properties.call network 0 = .error error) :
    fetchRawDataAsFile services mime pipeline properties.url (context, network) =
      some (.error error, (context, afterAttempts services.runtime properties network 0 1)) := by
  have hrequest := request_apply services.runtime properties network
  rw [hthrows] at hrequest
  rw [fetchRawDataAsFile, Exec.bind_of_ok (Exec.onFst_of_some h.followRedirects.same network),
    Exec.bind_of_error (Exec.onSnd_of_some hrequest context)]

/-! ## Retries -/

variable (services properties) in
/-- The waiting time before a retry. -/
def backoffOf (retry : Nat) : JsNumber :=
  getBackoffMilliseconds services.runtime properties.retryBackoffMilliseconds retry
    properties.retryBackoffStrategy

/-- After a failed attempt, the block waits and goes on with one retry less. -/
theorem fetchWithRetries_of_failsWith {message : String} (retries attempt : Nat)
    (hfails : Starts (FailsWith · message) (properties.call network 0)) :
    fetchWithRetries services mime pipeline properties.url (backoffOf services properties)
        (retries + 1) attempt (context, network) =
      fetchWithRetries services mime pipeline properties.url (backoffOf services properties)
        retries (attempt + 1) (context, { network with
          calls := network.calls + 1
          log := network.log ++ [attemptActions.request properties,
            .wait (backoffOf services properties (attempt + 1))] }) := by
  obtain ⟨details, hfetch, -⟩ := fetch_of_failsWith mime pipeline h hfails
  rw [fetchWithRetries, Exec.bind_of_ok hfetch]
  have hwait : Network.wait (backoffOf services properties (attempt + 1))
      (afterAttempts services.runtime properties network 0 1) =
        some (.ok (), { network with
          calls := network.calls + 1
          log := network.log ++ [attemptActions.request properties,
            .wait (backoffOf services properties (attempt + 1))] }) := by
    simp [Network.wait, afterAttempts, attemptActions]
  exact Exec.bind_of_ok (Exec.onSnd_of_some hwait context)

variable (properties) in
/-- Every request before the `n`-th one fails. -/
def FailsBefore (network : Network) (n : Nat) : Prop :=
  ∀ m < n, ∃ message, Starts (FailsWith · message) (properties.call network m)

/-- Failed attempts come down to the attempt after them. -/
theorem fetchWithRetries_of_failsBefore {n : Nat} (retries attempt : Nat)
    (hfails : FailsBefore properties network n) :
    ∃ log, fetchWithRetries services mime pipeline properties.url (backoffOf services properties)
        (retries + n) attempt (context, network) =
      fetchWithRetries services mime pipeline properties.url (backoffOf services properties)
        retries (attempt + n) (context, { network with
          calls := network.calls + n
          log := network.log ++ log }) ∧
      log ++ [attemptActions.request properties] =
        attemptActions services.runtime properties n (attempt + 1) := by
  induction n generalizing attempt network with
  | zero => exact ⟨[], by simp, rfl⟩
  | succ n ih =>
      obtain ⟨message, hfirst⟩ := hfails 0 (Nat.succ_pos n)
      let next : Network := { network with
        calls := network.calls + 1
        log := network.log ++ [attemptActions.request properties,
          .wait (backoffOf services properties (attempt + 1))] }
      have hnext : FailsBefore properties next n := by
        intro m hm
        obtain ⟨message, hm⟩ := hfails (m + 1) (by omega)
        refine ⟨message, ?_⟩
        have hindex : next.calls + m = network.calls + (m + 1) := by
          show network.calls + 1 + m = _
          omega
        rwa [HttpProperties.call, hindex]
      obtain ⟨log, hrest, hlog⟩ := ih (attempt + 1) hnext
      refine ⟨attemptActions.request properties ::
        .wait (backoffOf services properties (attempt + 1)) :: log, ?_, ?_⟩
      · rw [← Nat.add_assoc, fetchWithRetries_of_failsWith mime pipeline h (retries + n) attempt hfirst,
          hrest]
        simp only [next, List.append_assoc, List.cons_append, List.nil_append]
        rw [Nat.add_assoc attempt, Nat.add_comm 1 n, Nat.add_assoc network.calls,
          Nat.add_comm 1 n]
      · rw [List.cons_append, List.cons_append, hlog]
        rfl

omit h in
/-- An attempt that does not report a failure is the last one. -/
theorem fetchWithRetries_of_fetch {retries attempt : Nat}
    {outcome : Option (Except JsError (Result BinaryFile) × (ExecutionContext δ × Network))}
    (hfetch : fetchRawDataAsFile services mime pipeline properties.url (context, network) = outcome)
    (hfinal : ∀ details after, outcome ≠ some (.ok (.error details), after)) :
    fetchWithRetries services mime pipeline properties.url (backoffOf services properties)
      retries attempt (context, network) = outcome := by
  cases retries with
  | zero => exact hfetch
  | succ retries =>
      rw [fetchWithRetries]
      match outcome, hfetch, hfinal with
      | none, hfetch, _ => exact Exec.bind_of_none hfetch
      | some (.error error, after), hfetch, _ => exact Exec.bind_of_error hfetch
      | some (.ok (.ok file), after), hfetch, _ =>
          rw [Exec.bind_of_ok hfetch]
          rfl
      | some (.ok (.error details), after), _, hfinal => exact (hfinal details after rfl).elim

/-- The block does not retry after an attempt that does not report a failure. -/
theorem fetchWithRetries_of_attempt {n retries : Nat} (hle : n ≤ retries)
    (hfails : FailsBefore properties network n) {result : Except JsError (Result BinaryFile)}
    (hfinal : ∀ details, result ≠ .ok (.error details))
    (hfetch : ∀ last : Network, properties.call last 0 = properties.call network n →
      fetchRawDataAsFile services mime pipeline properties.url (context, last) =
        some (result, (context, afterAttempts services.runtime properties last 0 1))) :
    fetchWithRetries services mime pipeline properties.url (backoffOf services properties)
        retries 0 (context, network) =
      some (result, (context, afterAttempts services.runtime properties network n 1)) := by
  obtain ⟨log, hrest, hlog⟩ :=
    fetchWithRetries_of_failsBefore mime pipeline h (retries - n) 0 hfails
  rw [Nat.sub_add_cancel hle] at hrest
  rw [hrest, fetchWithRetries_of_fetch mime pipeline (hfetch _ rfl), afterAttempts_zero_eq]
  · rw [List.append_assoc, hlog]
  · intro details after heq
    cases heq
    exact hfinal details rfl

theorem fetchWithRetries_of_neverEnds {n retries : Nat} (hle : n ≤ retries)
    (hfails : FailsBefore properties network n)
    (hnever : Starts NeverEnds (properties.call network n)) :
    fetchWithRetries services mime pipeline properties.url (backoffOf services properties)
      retries 0 (context, network) = none := by
  obtain ⟨log, hrest, _⟩ :=
    fetchWithRetries_of_failsBefore mime pipeline h (retries - n) 0 hfails
  rw [Nat.sub_add_cancel hle] at hrest
  rw [hrest]
  refine fetchWithRetries_of_fetch mime pipeline (fetch_of_neverEnds mime pipeline h hnever) ?_
  intro details after heq
  cases heq

theorem fetchWithRetries_of_all_failed {retries : Nat} {message : String}
    (hfails : FailsBefore properties network retries)
    (hlast : Starts (FailsWith · message) (properties.call network retries)) :
    ∃ details, fetchWithRetries services mime pipeline properties.url
        (backoffOf services properties) retries 0 (context, network) =
      some (.ok (.error details),
        (context, afterAttempts services.runtime properties network retries 1)) ∧
      details.message = message := by
  obtain ⟨log, hrest, hlog⟩ := fetchWithRetries_of_failsBefore mime pipeline h 0 0 hfails
  let last : Network :=
    { network with calls := network.calls + retries, log := network.log ++ log }
  obtain ⟨details, hfetch, hmessage⟩ := fetch_of_failsWith mime pipeline h
    (show Starts (FailsWith · message) (properties.call last 0) from hlast)
  refine ⟨details, ?_, hmessage⟩
  rw [Nat.zero_add] at hrest
  rw [hrest, fetchWithRetries, hfetch, afterAttempts_zero_eq]
  rw [List.append_assoc, hlog]

theorem doExecute_eq_fetchWithRetries :
    doExecute services mime pipeline (context, network) =
      fetchWithRetries services mime pipeline properties.url (backoffOf services properties)
        properties.retries 0 (context, network) := by
  have hhandle : ∀ handle : BackoffStrategyHandle,
      BackoffStrategyHandle.typeguard handle.text = some handle := by
    intro handle
    cases handle <;> decide
  rw [doExecute, Exec.bind_of_ok (Exec.onFst_of_some h.url.same network),
    Exec.bind_of_ok (Exec.onFst_of_some h.retries.same network), if_neg (by omega)]
  dsimp only
  rw [Exec.bind_of_ok (Exec.onFst_of_some h.retryBackoffMilliseconds.same network),
    Exec.bind_of_ok (Exec.onFst_of_some h.retryBackoffStrategy.same network), hhandle]
  rfl

end Fetch

end Executor

/-- Either all attempts fail, or there is a first one that does not. -/
theorem attempts_cases (mime : MimeServices) (properties : HttpProperties) (network : Network)
    (retries : Nat) :
    (FailsBefore properties network retries ∧
      ∃ message, Starts (FailsWith · message) (properties.call network retries)) ∨
    ∃ n ≤ retries, FailsBefore properties network n ∧
      ((∃ file, Starts (Delivers mime · file) (properties.call network n)) ∨
        Starts NeverEnds (properties.call network n) ∨
        ∃ error, properties.call network n = .error error) := by
  have hcall : ∀ n, (∃ message, Starts (FailsWith · message) (properties.call network n)) ∨
      (∃ file, Starts (Delivers mime · file) (properties.call network n)) ∨
        Starts NeverEnds (properties.call network n) ∨
        ∃ error, properties.call network n = .error error := by
    intro n
    cases hcalled : properties.call network n with
    | error error => exact .inr (.inr (.inr ⟨error, rfl⟩))
    | ok events =>
        rcases delivers_or_fails_or_neverEnds mime events with
          ⟨file, hdelivers⟩ | ⟨message, hfails⟩ | hnever
        · exact .inr (.inl ⟨file, events, rfl, hdelivers⟩)
        · exact .inl ⟨message, events, rfl, hfails⟩
        · exact .inr (.inr (.inl ⟨events, rfl, hnever⟩))
  induction retries with
  | zero =>
      have hbefore : FailsBefore properties network 0 := fun m hm => absurd hm (Nat.not_lt_zero m)
      rcases hcall 0 with hfails | hother
      · exact .inl ⟨hbefore, hfails⟩
      · exact .inr ⟨0, le_rfl, hbefore, hother⟩
  | succ retries ih =>
      rcases ih with ⟨hbefore, hlast⟩ | ⟨n, hle, hrest⟩
      · have hbefore' : FailsBefore properties network (retries + 1) := by
          intro m hm
          rcases Nat.lt_succ_iff_lt_or_eq.mp hm with hm | rfl
          · exact hbefore m hm
          · exact hlast
        rcases hcall (retries + 1) with hfails | hother
        · exact .inl ⟨hbefore', hfails⟩
        · exact .inr ⟨retries + 1, le_rfl, hbefore', hother⟩
      · exact .inr ⟨n, hle.trans (Nat.le_succ retries), hrest⟩

def retriedProperties : HttpProperties where
  url := "https://example.org/cars.csv"
  retries := 2
  retryBackoffMilliseconds := 500
  retryBackoffStrategy := .linear
  followRedirects := true

def retriedServices : ExecutionServices :=
  sampleServices {
    valuetypes := []
    constraints := []
    transforms := []
    blocks := [⟨"Extract", none,
      [⟨"url", .expression (.textLiteral "https://example.org/cars.csv")⟩,
        ⟨"retries", .expression (.numericLiteral 2)⟩,
        ⟨"retryBackoffMilliseconds", .expression (.numericLiteral 500)⟩,
        ⟨"retryBackoffStrategy", .expression (.textLiteral "linear")⟩,
        ⟨"followRedirects", .expression (.booleanLiteral true)⟩]⟩]
    blockTypes := [] }

def retriedContext : ExecutionContext Unit :=
  { construct (EvaluationContext.construct ⟨fun _ => none, none⟩) with stack := [.block 0] }

/-- Calls throw for URLs with another protocol. The first request is refused, and the second one
gets a file in two parts. -/
def retriedNetwork : Network where
  get https url _ call :=
    if !url.startsWith (if https then "https://" else "http://") then
      .error (.error s!"Invalid URL: {url}")
    else if call = 0 then
      .ok [.response ⟨some 503, none, "/cars.csv"⟩, .end]
    else
      .ok [.response ⟨some 200, none, "/cars.csv"⟩, .data [1], .data [2], .end]
  calls := 0
  log := []

end HttpExtractorExecutor

end Jayvee
