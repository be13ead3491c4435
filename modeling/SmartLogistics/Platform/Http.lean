import Mathlib.Data.List.DropRight
import SmartLogistics.Platform.Errors

/-!
# Calls of another service

`ServiceClient.request` sends a call over attempts, whose outcomes a `CircuitBreaker` counts.
`counts_of_calls`: after any calls the breaker knows the trailing run of failed attempts, so it is
open exactly while the last of a long enough run is young (`isOpen_iff`).

`behaves_iff`: a call is sent, answered and counted as the client promises, except that a write with
an empty `Idempotency-Key` is retried like one that carries a key, and carries none.
-/

set_option autoImplicit false

namespace SmartLogistics.Platform

/-! ## JSON -/

/-- A Python string by its code points; those from D800 to DFFF are lone surrogates. -/
abbrev PyStr := List Nat

/-- A text as its code points. -/
def pyStr (text : String) : PyStr := text.toList.map Char.toNat

/-- `text.encode("utf-8")` does not raise. -/
def encodes (text : PyStr) : Bool := text.all fun c => !(decide (0xD800 ≤ c) && decide (c ≤ 0xDFFF))

/-- What `json.loads` makes of a document. -/
inductive Json
  | null
  | bool (value : Bool)
  | int (value : Int)
  /-- A float, by its 64 bits. -/
  | float (bits : BitVec 64)
  | string (text : PyStr)
  | array (elements : List Json)
  /-- A dict. -/
  | object (members : List (PyStr × Json))

namespace Json

/-- The truth value of the Python object. -/
def truthy : Json → Bool
  | .null => false
  | .bool value => value
  | .int value => value != 0
  | .float bits => bits <<< 1 != 0
  | .string text => !text.isEmpty
  | .array elements => !elements.isEmpty
  | .object members => !members.isEmpty

mutual

/-- `JSONResponse` can render the value: floats are finite and strings encode. -/
def renders : Json → Bool
  | .null => true
  | .bool _ => true
  | .int _ => true
  | .float bits => (bits >>> 52) &&& 0x7FF != 0x7FF
  | .string text => encodes text
  | .array elements => rendersElements elements
  | .object members => rendersMembers members

/-- Every element can be rendered as a text. -/
def rendersElements : List Json → Bool
  | [] => true
  | value :: rest => value.renders && rendersElements rest

/-- Every key and every value can be rendered as a text. -/
def rendersMembers : List (PyStr × Json) → Bool
  | [] => true
  | (key, value) :: rest => encodes key && value.renders && rendersMembers rest

end

/-- `dict.get`. -/
def get (members : List (PyStr × Json)) (key : String) : Option Json :=
  (members.find? (·.1 == pyStr key)).map (·.2)

end Json

/-! ## Errors answered by another service -/

/-- What `response.json()` comes to. -/
inductive Decoded
  | value (body : Json)
  /-- A `ValueError`: the body is not JSON, or not text, or it has an integer with more digits than
  Python reads. -/
  | valueError
  /-- Another exception: a `RecursionError` of a body that is nested too deeply. -/
  | raised

/-- An answer. -/
structure HttpResponse where
  statusCode : Nat
  /-- The JSON value that the body is, if it is one. -/
  document : Option Json
  json : Decoded
  text : PyStr
  /-- The decoder finds no other value than the one that the body is. -/
  decodes : ∀ body, json = .value body → document = some body

/-- An error answered by another service, with whatever its body has for a code and a message. -/
structure RemoteError where
  statusCode : Nat
  code : Json
  message : Json

/-- The constructor: a message that is not true is replaced by the docstring of the class. -/
def RemoteError.new (statusCode : Nat) (code message : Json) : RemoteError where
  statusCode := statusCode
  code := code
  message := if message.truthy then message
    else .string (pyStr "An error answered by another service, passed through unchanged.")

/-- What `request` raises. -/
inductive Raised
  /-- `UpstreamUnavailableError`. -/
  | unavailable (message : String)
  | remote (error : RemoteError)
  /-- `body.get` of a body that is not a dict. -/
  | attributeError
  /-- What the decoder raises that is no `ValueError`. -/
  | decoderError

/-- The message of an answer that has no JSON body. -/
def textShown (service : String) (response : HttpResponse) : PyStr :=
  if response.text.isEmpty then pyStr (service ++ " returned an error.") else response.text

/-- `_remote_error`. -/
def remoteError (service : String) (response : HttpResponse) : Raised :=
  match response.json with
  | .valueError =>
    .remote (.new response.statusCode (.string (pyStr "remote_error"))
      (.string (textShown service response)))
  | .value (.object members) =>
    .remote (.new response.statusCode
      ((Json.get members "code").getD (.string (pyStr "remote_error")))
      ((Json.get members "message").getD (.string response.text)))
  | .value _ => .attributeError
  | .raised => .decoderError

/-- What a client of ours is answered. -/
structure Problem where
  statusCode : Nat
  wwwAuthenticate : Bool
  code : Json
  message : Json

/-- `problem`; it raises if the error cannot be rendered. -/
def problem (error : RemoteError) : Option Problem :=
  if error.code.renders && error.message.renders then
    some { statusCode := error.statusCode
           wwwAuthenticate := error.statusCode == 401
           code := error.code
           message := error.message }
  else none

/-! ## The circuit breaker -/

/-- `CircuitBreaker`: its settings, the failures counted, and when it opened last. -/
structure CircuitBreaker where
  threshold : Nat
  resetAfter : Nat
  failures : Nat
  openedAt : Option Nat

namespace CircuitBreaker

/-- A breaker that has counted nothing. -/
def new (threshold resetAfter : Nat) : CircuitBreaker where
  threshold := threshold
  resetAfter := resetAfter
  failures := 0
  openedAt := none

/-- `is_open` when the monotonic clock is at `now`. -/
def isOpen (breaker : CircuitBreaker) (now : Nat) : Bool :=
  breaker.openedAt.any fun opened => decide (now - opened < breaker.resetAfter)

/-- `record_success`: the breaker is closed and counts anew. -/
def recordSuccess (breaker : CircuitBreaker) : CircuitBreaker :=
  { breaker with
    failures := 0
    openedAt := none }

/-- `record_failure`: from the threshold on, every failure opens the breaker again. -/
def recordFailure (breaker : CircuitBreaker) (now : Nat) : CircuitBreaker :=
  { breaker with
    failures := breaker.failures + 1
    openedAt := if breaker.threshold ≤ breaker.failures + 1 then some now else breaker.openedAt }

end CircuitBreaker

/-! ## Attempts -/

/-- How an attempt ends. -/
inductive Transport
  | error
  | answer (response : HttpResponse)

/-- An attempt: how it ends, and the monotonic clock then. -/
structure Attempt where
  outcome : Transport
  time : Nat

/-- The statuses after which an attempt is repeated. -/
def retryableStatus : List Nat := [502, 503, 504]

/-- The answer of an attempt that did not fail: neither a transport error nor 502, 503 or 504. -/
def Attempt.final (attempt : Attempt) : Option HttpResponse :=
  match attempt.outcome with
  | .error => none
  | .answer response =>
    if retryableStatus.contains response.statusCode then none else some response

/-- The attempt is recorded as a failure. -/
def Attempt.failed (attempt : Attempt) : Bool := attempt.final.isNone

/-- The outcome of an attempt is recorded. -/
def CircuitBreaker.record (breaker : CircuitBreaker) (attempt : Attempt) : CircuitBreaker :=
  if attempt.failed then breaker.recordFailure attempt.time else breaker.recordSuccess

/-- An HTTP method: an ASCII token, so that `str.upper` is `String.toUpper`. -/
structure Method where
  name : String
  ascii : name.toList.all (fun c => decide (c.toNat < 128)) = true

/-- `GET`. -/
def Method.get : Method := ⟨"GET", by decide⟩

/-- `POST`. -/
def Method.post : Method := ⟨"POST", by decide⟩

/-- A call and how it fares: the clock at its start, and what its attempts would meet, one after
another. -/
structure ServiceCall where
  method : Method
  idempotencyKey : Option String
  started : Nat
  script : Nat → Attempt

/-- `ServiceClient`: the service it calls, and how often it tries again. -/
structure ServiceClient where
  name : String
  retries : Nat

/-- What comes of a call: the result, the breaker afterwards, and the attempts that were made. -/
structure Exchange where
  result : Except Raised HttpResponse
  breaker : CircuitBreaker
  sent : List Attempt

namespace ServiceCall

/-- The method is one of `SAFE_METHODS`, in any case. -/
def isSafe (call : ServiceCall) : Bool :=
  ["GET", "HEAD", "OPTIONS"].contains call.method.name.toUpper

/-- The `Idempotency-Key` header that is sent. -/
def header (call : ServiceCall) : Option String := call.idempotencyKey.filter (· != "")

/-- A safe method, or a call with an idempotency key. -/
def mayRetry (call : ServiceCall) : Bool := call.isSafe || call.idempotencyKey.isSome

end ServiceCall

namespace ServiceClient

/-- The error of a call that gets no answer. -/
def unavailable (client : ServiceClient) : Except Raised HttpResponse :=
  .error (.unavailable (client.name ++ " is unavailable."))

/-- The loop of `request`, over what its attempts meet. -/
def attemptEach (client : ServiceClient) : List Attempt → CircuitBreaker → Exchange
  | [], breaker => ⟨client.unavailable, breaker, []⟩
  | attempt :: attempts, breaker =>
    match attempt.final with
    | none =>
      let rest := attemptEach client attempts (breaker.recordFailure attempt.time)
      { rest with sent := attempt :: rest.sent }
    | some response =>
      { result := if 400 ≤ response.statusCode then .error (remoteError client.name response)
          else .ok response
        breaker := breaker.recordSuccess
        sent := [attempt] }

/-- How often a call is sent at most. -/
def attempts (client : ServiceClient) (call : ServiceCall) : Nat :=
  1 + if call.mayRetry then client.retries else 0

/-- `ServiceClient.request`: an open breaker answers at once, else the attempts run until one
settles the call. -/
def request (client : ServiceClient) (breaker : CircuitBreaker) (call : ServiceCall) : Exchange :=
  if breaker.isOpen call.started then ⟨client.unavailable, breaker, []⟩
  else client.attemptEach ((List.range (client.attempts call)).map call.script) breaker

/-- Calls one after another: the breaker they leave, and all attempts they made. -/
def requestAll (client : ServiceClient) : List ServiceCall → CircuitBreaker →
    CircuitBreaker × List Attempt
  | [], breaker => (breaker, [])
  | call :: calls, breaker =>
    let exchange := client.request breaker call
    let rest := client.requestAll calls exchange.breaker
    (rest.1, exchange.sent ++ rest.2)

end ServiceClient

/-! ## What the breaker knows -/

/-- The last of at least `threshold` trailing failures is younger than `resetAfter`. -/
def FailingSince (threshold resetAfter : Nat) (log : List Attempt) (now : Nat) : Prop :=
  threshold ≤ (log.rtakeWhile Attempt.failed).length ∧
    ∃ last, (log.rtakeWhile Attempt.failed).getLast? = some last ∧ now - last.time < resetAfter

/-- The breaker has counted the trailing failures of the attempts, and knows when the last of them
was if they are enough. -/
structure CircuitBreaker.Counts (breaker : CircuitBreaker) (log : List Attempt) : Prop where
  failures : breaker.failures = (log.rtakeWhile Attempt.failed).length
  openedAt : breaker.openedAt =
    if breaker.threshold ≤ (log.rtakeWhile Attempt.failed).length then
      (log.rtakeWhile Attempt.failed).getLast?.map Attempt.time
    else none

namespace CircuitBreaker

variable {breaker : CircuitBreaker} {log : List Attempt}

theorem counts_new (threshold resetAfter : Nat) : (new threshold resetAfter).Counts [] where
  failures := rfl
  openedAt := by
    rw [List.rtakeWhile_nil]
    split
    · rfl
    · rfl

theorem record_config (breaker : CircuitBreaker) (attempt : Attempt) :
    (breaker.record attempt).threshold = breaker.threshold ∧
      (breaker.record attempt).resetAfter = breaker.resetAfter := by
  unfold record
  split
  · exact ⟨rfl, rfl⟩
  · exact ⟨rfl, rfl⟩

/-- Every recorded attempt is counted. -/
theorem Counts.record (h : breaker.Counts log) (attempt : Attempt) :
    (breaker.record attempt).Counts (log ++ [attempt]) := by
  unfold CircuitBreaker.record
  by_cases hfailed : attempt.failed = true
  · rw [if_pos hfailed]
    have hrun := List.rtakeWhile_concat_pos Attempt.failed log attempt hfailed
    constructor
    · rw [hrun, List.length_append, ← h.failures]
      rfl
    · rw [hrun, List.length_append, ← h.failures, List.getLast?_concat]
      by_cases henough : breaker.threshold ≤ breaker.failures + 1
      · simp only [recordFailure, List.length_singleton, if_pos henough]
        rfl
      · -- too few failures now, so too few before
        have hbefore : ¬ breaker.threshold ≤ breaker.failures := by omega
        simp only [recordFailure, List.length_singleton, if_neg henough]
        rw [h.openedAt, ← h.failures, if_neg hbefore]
  · rw [if_neg hfailed]
    have hrun := List.rtakeWhile_concat_neg Attempt.failed log attempt hfailed
    constructor
    · rw [hrun]
      rfl
    · rw [hrun]
      simp only [recordSuccess, List.getLast?_nil, Option.map_none]
      exact (ite_self _).symm

theorem Counts.recordAll (h : breaker.Counts log) (attempts : List Attempt) :
    (attempts.foldl CircuitBreaker.record breaker).Counts (log ++ attempts) := by
  induction attempts generalizing breaker log with
  | nil => rwa [List.append_nil]
  | cons attempt attempts ih =>
    have hnext := ih (h.record attempt)
    rwa [List.append_assoc, List.singleton_append] at hnext

/-- It is open exactly while its attempts have failed for long enough, and not long ago. -/
theorem Counts.isOpen_iff (h : breaker.Counts log) (now : Nat) :
    breaker.isOpen now = true ↔ FailingSince breaker.threshold breaker.resetAfter log now := by
  unfold CircuitBreaker.isOpen FailingSince
  rw [h.openedAt]
  split
  · rename_i henough
    simp only [Option.any_eq_true, Option.map_eq_some_iff, decide_eq_true_eq]
    constructor
    · rintro ⟨_, ⟨last, hlast, rfl⟩, hyoung⟩
      exact ⟨henough, last, hlast, hyoung⟩
    · rintro ⟨-, last, hlast, hyoung⟩
      exact ⟨last.time, ⟨last, hlast, rfl⟩, hyoung⟩
  · rename_i hfew
    constructor
    · intro hopen
      cases hopen
    · rintro ⟨henough, -⟩
      exact absurd henough hfew

end CircuitBreaker

/-! ## What comes of a call -/

theorem Attempt.failed_iff {attempt : Attempt} : attempt.failed = true ↔ attempt.final = none :=
  Option.isNone_iff_eq_none

/-- The answer a final outcome becomes. -/
def answered (service : String) (response : HttpResponse) : Except Raised HttpResponse :=
  if 400 ≤ response.statusCode then .error (remoteError service response) else .ok response

namespace ServiceClient

variable (client : ServiceClient)

/-- The loop makes every attempt and they all fail, or it stops at the first that does not. -/
theorem attemptEach_cases (tape : List Attempt) (breaker : CircuitBreaker) :
    (∀ a ∈ tape, a.final = none) ∧ client.attemptEach tape breaker =
        ⟨client.unavailable, tape.foldl CircuitBreaker.record breaker, tape⟩ ∨
    ∃ before attempt later response, tape = before ++ attempt :: later ∧
      (∀ a ∈ before, a.final = none) ∧ attempt.final = some response ∧
      client.attemptEach tape breaker =
        ⟨answered client.name response,
          (before ++ [attempt]).foldl CircuitBreaker.record breaker, before ++ [attempt]⟩ := by
  -- on the attempts that may still be made; the breaker has recorded those before
  induction tape generalizing breaker with
  | nil => exact Or.inl ⟨fun _ h => absurd h List.not_mem_nil, rfl⟩
  | cons attempt tape ih =>
    unfold attemptEach
    cases hfinal : attempt.final with
    | some response =>
      refine Or.inr ⟨[], attempt, tape, response, rfl, fun _ h => absurd h List.not_mem_nil,
        hfinal, ?_⟩
      have hrecord : breaker.record attempt = breaker.recordSuccess := by
        rw [CircuitBreaker.record, Attempt.failed, hfinal]
        rfl
      rw [List.nil_append, List.foldl_cons, List.foldl_nil, hrecord]
      rfl
    | none =>
      have hrecord : breaker.record attempt = breaker.recordFailure attempt.time := by
        rw [CircuitBreaker.record, Attempt.failed, hfinal]
        rfl
      dsimp only
      rw [← hrecord]
      rcases ih (breaker.record attempt) with ⟨hall, heq⟩ |
        ⟨before, last, later, response, htape, hall, hlast, heq⟩
      · refine Or.inl ⟨fun a ha => ?_, by rw [heq]; rfl⟩
        rcases List.mem_cons.1 ha with rfl | ha
        · exact hfinal
        · exact hall a ha
      · refine Or.inr ⟨attempt :: before, last, later, response, by rw [htape]; rfl,
          fun a ha => ?_, hlast, by rw [heq]; rfl⟩
        rcases List.mem_cons.1 ha with rfl | ha
        · exact hfinal
        · exact hall a ha

/-- A call that finds the breaker open makes no attempt; another one goes through its attempts. -/
theorem request_cases (breaker : CircuitBreaker) (call : ServiceCall) :
    breaker.isOpen call.started = true ∧ client.request breaker call =
        ⟨client.unavailable, breaker, []⟩ ∨
    breaker.isOpen call.started = false ∧ client.request breaker call =
      client.attemptEach ((List.range (client.attempts call)).map call.script) breaker := by
  unfold request
  cases breaker.isOpen call.started with
  | true => exact Or.inl ⟨rfl, rfl⟩
  | false => exact Or.inr ⟨rfl, rfl⟩

/-- The breaker records the attempts of a call, in turn. -/
theorem request_breaker (breaker : CircuitBreaker) (call : ServiceCall) :
    (client.request breaker call).breaker =
      (client.request breaker call).sent.foldl CircuitBreaker.record breaker := by
  rcases client.request_cases breaker call with ⟨-, heq⟩ | ⟨-, heq⟩
  · rw [heq]
    rfl
  · rw [heq]
    rcases client.attemptEach_cases ((List.range (client.attempts call)).map call.script) breaker
      with ⟨-, hrun⟩ | ⟨before, attempt, later, response, -, -, -, hrun⟩
    · rw [hrun]
    · rw [hrun]

/-- After any calls the breaker has counted their attempts. -/
theorem counts_of_calls (calls : List ServiceCall) {breaker : CircuitBreaker} {log : List Attempt}
    (h : breaker.Counts log) :
    (client.requestAll calls breaker).1.Counts (log ++ (client.requestAll calls breaker).2) := by
  induction calls generalizing breaker log with
  | nil => rwa [requestAll, List.append_nil]
  | cons call calls ih =>
    have hcall : (client.request breaker call).breaker.Counts
        (log ++ (client.request breaker call).sent) := by
      rw [client.request_breaker]
      exact h.recordAll _
    have hrest := ih hcall
    rwa [List.append_assoc] at hrest

/-- A breaker keeps its configuration. -/
theorem record_config_all (attempts : List Attempt) (breaker : CircuitBreaker) :
    (attempts.foldl CircuitBreaker.record breaker).threshold = breaker.threshold ∧
      (attempts.foldl CircuitBreaker.record breaker).resetAfter = breaker.resetAfter := by
  induction attempts generalizing breaker with
  | nil => exact ⟨rfl, rfl⟩
  | cons attempt attempts ih =>
    obtain ⟨hthreshold, hreset⟩ := breaker.record_config attempt
    rw [← hthreshold, ← hreset]
    exact ih (breaker.record attempt)

/-! ## The promise of the client -/

/-- What `request` promises of a call that meets the breaker `breaker` after the attempts `log`. -/
structure Behaves (breaker : CircuitBreaker) (log : List Attempt) (call : ServiceCall) : Prop where
  /-- An open breaker lets nothing through. -/
  stopped : FailingSince breaker.threshold breaker.resetAfter log call.started →
    (client.request breaker call).sent = []
  /-- A write that carries no key is sent once. -/
  once : call.isSafe = false → call.header = none → (client.request breaker call).sent.length ≤ 1
  bounded : (client.request breaker call).sent.length ≤ 1 + client.retries
  scripted : (client.request breaker call).sent <+:
    (List.range (1 + client.retries)).map call.script
  /-- Only failed attempts are followed by another one. -/
  stops : ∀ a ∈ (client.request breaker call).sent.dropLast, a.final = none
  returned : ∀ response, (client.request breaker call).result = .ok response ↔
    ∃ a ∈ (client.request breaker call).sent, a.final = some response ∧ response.statusCode < 400
  raised : ∀ a ∈ (client.request breaker call).sent, ∀ response, a.final = some response →
    400 ≤ response.statusCode → ∃ error, (client.request breaker call).result =
      .error (.remote error) ∧ error.statusCode = response.statusCode
  unavailable : (∃ message, (client.request breaker call).result = .error (.unavailable message)) ↔
    ∀ a ∈ (client.request breaker call).sent, a.final = none
  opened : ∀ now, (client.request breaker call).breaker.isOpen now = true ↔
    FailingSince breaker.threshold breaker.resetAfter (log ++ (client.request breaker call).sent)
      now

/-- The call does not have an empty key, or is not repeated: it is safe, the client does not retry,
the breaker is open, or the first attempt does not fail. -/
def KeyIsCarried (breaker : CircuitBreaker) (call : ServiceCall) : Prop :=
  call.isSafe = true ∨ call.idempotencyKey ≠ some "" ∨ client.retries = 0 ∨
    breaker.isOpen call.started = true ∨ (call.script 0).failed = false

/-- The error answers of the call are read as JSON objects, or as not JSON. -/
def PlainErrors (call : ServiceCall) : Prop :=
  ∀ n response, (call.script n).final = some response → 400 ≤ response.statusCode →
    response.json = .valueError ∨ ∃ members, response.json = .value (.object members)

variable {client}

theorem remoteError_of_plain {service : String} {response : HttpResponse}
    (h : response.json = .valueError ∨ ∃ members, response.json = .value (.object members)) :
    ∃ error, remoteError service response = .remote error ∧
      error.statusCode = response.statusCode := by
  rcases h with h | ⟨members, h⟩
  · rw [remoteError, h]
    exact ⟨_, rfl, rfl⟩
  · rw [remoteError, h]
    exact ⟨_, rfl, rfl⟩

/-- What is sent of a call, if anything is, begins with its first attempt. -/
theorem attempts_eq (call : ServiceCall) : (List.range (client.attempts call)).map call.script =
    call.script 0 :: (List.range (client.attempts call - 1)).map fun n => call.script (n + 1) := by
  have hattempts : client.attempts call = (client.attempts call - 1) + 1 := by
    rw [attempts]
    omega
  rw [hattempts, List.range_succ_eq_map, List.map_cons, List.map_map]
  rfl

theorem attempts_le (client : ServiceClient) (call : ServiceCall) :
    client.attempts call ≤ 1 + client.retries := by
  rw [attempts]
  split
  · exact Nat.le_refl _
  · omega

/-- What is sent of a call, and what it comes to: only failures, or failures and a final answer. -/
theorem request_spec (client : ServiceClient) (breaker : CircuitBreaker) (call : ServiceCall) :
    (client.request breaker call).sent <+: (List.range (client.attempts call)).map call.script ∧
    ((∀ a ∈ (client.request breaker call).sent, a.final = none) ∧
        (client.request breaker call).result = client.unavailable ∨
      ∃ before attempt response, (client.request breaker call).sent = before ++ [attempt] ∧
        (∀ a ∈ before, a.final = none) ∧ attempt.final = some response ∧
        (client.request breaker call).result = answered client.name response) := by
  rcases client.request_cases breaker call with ⟨-, heq⟩ | ⟨-, heq⟩
  · rw [heq]
    exact ⟨List.nil_prefix, Or.inl ⟨fun _ h => absurd h List.not_mem_nil, rfl⟩⟩
  rw [heq]
  rcases client.attemptEach_cases ((List.range (client.attempts call)).map call.script) breaker
    with ⟨hall, hrun⟩ | ⟨before, attempt, later, response, htape, hall, hfinal, hrun⟩
  · rw [hrun]
    exact ⟨List.prefix_refl _, Or.inl ⟨hall, rfl⟩⟩
  · rw [hrun, htape]
    refine ⟨⟨later, ?_⟩, Or.inr ⟨before, attempt, response, rfl, hall, hfinal, rfl⟩⟩
    rw [List.append_assoc, List.singleton_append]

/-- A call that may not be retried is sent once. -/
theorem sent_once (client : ServiceClient) (breaker : CircuitBreaker) (call : ServiceCall)
    (hsafe : call.isSafe = false) (hheader : call.header = none)
    (h : client.KeyIsCarried breaker call) : (client.request breaker call).sent.length ≤ 1 := by
  obtain ⟨hscript, -⟩ := client.request_spec breaker call
  have hle := hscript.length_le
  rw [List.length_map, List.length_range] at hle
  rcases h with hsafe' | hkey | hretries | hopen | hfinal
  · rw [hsafe] at hsafe'
    cases hsafe'
  · -- no key at all
    have hnone : call.idempotencyKey = none := by
      cases hcase : call.idempotencyKey with
      | none => rfl
      | some key =>
        rw [ServiceCall.header, hcase, Option.filter_some] at hheader
        split at hheader
        · cases hheader
        · rename_i hempty
          rw [bne_iff_ne, not_not] at hempty
          rw [hcase, hempty] at hkey
          exact absurd rfl hkey
    rw [attempts, ServiceCall.mayRetry, hsafe, hnone] at hle
    exact hle
  · rw [attempts, hretries, ite_self] at hle
    exact hle
  · rcases client.request_cases breaker call with ⟨-, heq⟩ | ⟨hclosed, -⟩
    · rw [heq]
      exact Nat.zero_le _
    · rw [hopen] at hclosed
      cases hclosed
  · rcases client.request_cases breaker call with ⟨-, heq⟩ | ⟨-, heq⟩
    · rw [heq]
      exact Nat.zero_le _
    · rw [heq, attempts_eq, attemptEach]
      cases hfirst : (call.script 0).final with
      | none =>
        rw [Attempt.failed_iff.2 hfirst] at hfinal
        cases hfinal
      | some response => exact Nat.le_refl _

/-- A write with an empty key is sent again after its first failure. -/
theorem sent_again (client : ServiceClient) (breaker : CircuitBreaker) (call : ServiceCall)
    (h : ¬ client.KeyIsCarried breaker call) : call.isSafe = false ∧ call.header = none ∧
      1 < (client.request breaker call).sent.length := by
  simp only [KeyIsCarried, not_or, not_not, Bool.not_eq_true, Bool.not_eq_false] at h
  obtain ⟨hsafe, hkey, hretries, hclosed, hfailed⟩ := h
  refine ⟨hsafe, by rw [ServiceCall.header, hkey]; rfl, ?_⟩
  rcases client.request_cases breaker call with ⟨hopen, -⟩ | ⟨-, heq⟩
  · rw [hclosed] at hopen
    cases hopen
  have hmore : client.attempts call - 1 = (client.retries - 1) + 1 := by
    rw [attempts, ServiceCall.mayRetry, hkey, hsafe]
    simp only [Option.isSome_some, Bool.or_true, if_true]
    omega
  rw [heq, attempts_eq, hmore, List.range_succ_eq_map, List.map_cons, attemptEach,
    Attempt.failed_iff.1 hfailed]
  dsimp only
  rw [List.length_cons, attemptEach]
  cases (call.script 1).final with
  | none => exact Nat.succ_lt_succ (Nat.succ_pos _)
  | some response => exact Nat.lt_succ_self 1

/-- A call behaves as promised exactly if its key is carried. -/
theorem behaves_of_counts {breaker : CircuitBreaker} {log : List Attempt} {call : ServiceCall}
    (hcounts : breaker.Counts log) (hbodies : PlainErrors call) :
    client.Behaves breaker log call ↔ client.KeyIsCarried breaker call := by
  constructor
  · intro hbehaves
    by_contra hnot
    obtain ⟨hsafe, hheader, hsent⟩ := client.sent_again breaker call hnot
    exact absurd (hbehaves.once hsafe hheader) (Nat.not_le.2 hsent)
  intro hkey
  -- what holds of the attempts whatever the result is
  obtain ⟨hscript, hresult⟩ := client.request_spec breaker call
  have hlonger : (List.range (client.attempts call)).map call.script <+:
      (List.range (1 + client.retries)).map call.script := by
    obtain ⟨more, hmore⟩ := Nat.exists_eq_add_of_le (client.attempts_le call)
    rw [hmore, List.range_add, List.map_append]
    exact List.prefix_append _ _
  have hscripted := hscript.trans hlonger
  have hlength := hscripted.length_le
  rw [List.length_map, List.length_range] at hlength
  have hcounted : (client.request breaker call).breaker.Counts
      (log ++ (client.request breaker call).sent) := by
    rw [client.request_breaker]
    exact hcounts.recordAll _
  obtain ⟨hthreshold, hreset⟩ := record_config_all (client.request breaker call).sent breaker
  rw [← client.request_breaker] at hthreshold hreset
  have hopened : ∀ now, (client.request breaker call).breaker.isOpen now = true ↔
      FailingSince breaker.threshold breaker.resetAfter
        (log ++ (client.request breaker call).sent) now := by
    intro now
    rw [hcounted.isOpen_iff, hthreshold, hreset]
  have hstopped : FailingSince breaker.threshold breaker.resetAfter log call.started →
      (client.request breaker call).sent = [] := by
    intro hfailing
    have hopen := (hcounts.isOpen_iff call.started).2 hfailing
    rw [request, if_pos hopen]
  have hraised : ∀ a ∈ (client.request breaker call).sent, ∀ response,
      a.final = some response → 400 ≤ response.statusCode →
      ∃ error, remoteError client.name response = .remote error ∧
        error.statusCode = response.statusCode := by
    intro a ha response hfinal hstatus
    obtain ⟨n, -, rfl⟩ := List.mem_map.1 (hscript.subset ha)
    exact remoteError_of_plain (hbodies n response hfinal hstatus)
  rcases hresult with ⟨hall, hres⟩ | ⟨before, attempt, response, hsent, hall, hfinal, hres⟩
  · -- every attempt failed
    refine ⟨hstopped, fun hsafe hheader => client.sent_once breaker call hsafe hheader hkey,
      hlength, hscripted, fun a ha => hall a (List.dropLast_subset _ ha), fun response => ?_,
      fun a ha response hfinal => ?_, ?_, hopened⟩
    · constructor
      · intro hok
        rw [hres] at hok
        cases hok
      · rintro ⟨a, ha, hfinal, -⟩
        rw [hall a ha] at hfinal
        cases hfinal
    · rw [hall a ha] at hfinal
      cases hfinal
    · exact ⟨fun _ => hall, fun _ => ⟨_, hres⟩⟩
  · -- the last attempt is final
    have hlast : ∀ a ∈ (client.request breaker call).sent, ∀ answer, a.final = some answer →
        answer = response := by
      intro a ha answer hanswer
      rw [hsent] at ha
      rcases List.mem_append.1 ha with ha | ha
      · rw [hall a ha] at hanswer
        cases hanswer
      · rw [List.mem_singleton.1 ha, hfinal] at hanswer
        exact (Option.some.inj hanswer).symm
    have hmem : attempt ∈ (client.request breaker call).sent := by
      rw [hsent]
      exact List.mem_append_right _ (List.mem_singleton_self _)
    refine ⟨hstopped, fun hsafe hheader => client.sent_once breaker call hsafe hheader hkey,
      hlength, hscripted, fun a ha => ?_, fun answer => ?_, fun a ha answer hanswer hstatus => ?_,
      ?_, hopened⟩
    · rw [hsent, List.dropLast_concat] at ha
      exact hall a ha
    · rw [hres, answered]
      constructor
      · intro hok
        split at hok
        · cases hok
        · rename_i hstatus
          cases hok
          exact ⟨attempt, hmem, hfinal, Nat.lt_of_not_le hstatus⟩
      · rintro ⟨a, ha, hanswer, hstatus⟩
        obtain rfl := hlast a ha answer hanswer
        rw [if_neg (Nat.not_le.2 hstatus)]
    · obtain rfl := hlast a ha answer hanswer
      obtain ⟨error, herror, hcode⟩ := hraised a ha answer hanswer hstatus
      exact ⟨error, by rw [hres, answered, if_pos hstatus, herror], hcode⟩
    · constructor
      · rintro ⟨message, hunavailable⟩
        rw [hres, answered] at hunavailable
        split at hunavailable
        · rename_i hstatus
          obtain ⟨error, herror, -⟩ := hraised attempt hmem response hfinal hstatus
          rw [herror] at hunavailable
          cases hunavailable
        · cases hunavailable
      · intro hnone
        rw [hnone attempt hmem] at hfinal
        cases hfinal

/-- After any calls, the next call behaves as promised exactly if it does not have an empty key or
is not repeated. -/
theorem behaves_iff (client : ServiceClient) (threshold resetAfter : Nat)
    (before : List ServiceCall) (call : ServiceCall) (hbodies : PlainErrors call) :
    client.Behaves (client.requestAll before (.new threshold resetAfter)).1
        (client.requestAll before (.new threshold resetAfter)).2 call ↔
      client.KeyIsCarried (client.requestAll before (.new threshold resetAfter)).1 call := by
  refine behaves_of_counts ?_ hbodies
  have hcounts := client.counts_of_calls before (CircuitBreaker.counts_new threshold resetAfter)
  rwa [List.nil_append] at hcounts

/-- A call of Inventory that meets transport errors only. -/
def unreachable (method : Method) (idempotencyKey : Option String) (started : Nat) :
    ServiceCall where
  method := method
  idempotencyKey := idempotencyKey
  started := started
  script := fun n => ⟨.error, started + n⟩

/-- The client of Inventory, which tries three times. -/
def sampleClient : ServiceClient where
  name := "inventory"
  retries := 2

/-- Inventory's answer to a reservation of more than it has. -/
def insufficientStock : HttpResponse where
  statusCode := 409
  document := some (.object [(pyStr "code", .string (pyStr "insufficient_stock")),
    (pyStr "message", .string (pyStr "Not enough stock."))])
  json := .value (.object [(pyStr "code", .string (pyStr "insufficient_stock")),
    (pyStr "message", .string (pyStr "Not enough stock."))])
  text := []
  decodes := by
    rintro body ⟨⟩
    rfl

/-- A keyed write that is refused at its second attempt. -/
def refusedLater : ServiceCall where
  method := .post
  idempotencyKey := some "k"
  started := 60
  script := fun n => ⟨if n = 0 then .error else .answer insufficientStock, 60 + n⟩

theorem plainErrors_refusedLater : PlainErrors refusedLater := by
  intro n response hfinal _
  by_cases hn : n = 0
  · rw [hn] at hfinal
    cases hfinal
  · have hanswer : (refusedLater.script n).final = some insufficientStock := by
      simp only [refusedLater, if_neg hn]
      rfl
    rw [hanswer, Option.some.injEq] at hfinal
    exact hfinal ▸ Or.inr ⟨_, rfl⟩

/-- Two reads that fail open the breaker; a keyed write behaves as promised then, and so does one
that Inventory refuses when the breaker has reset. -/
theorem behaves_after_failures :
    (sampleClient.Behaves
      (sampleClient.requestAll [unreachable .get none 0, unreachable .get none 4]
        (.new 5 30)).1
      (sampleClient.requestAll [unreachable .get none 0, unreachable .get none 4]
        (.new 5 30)).2
      (unreachable .post (some "k") 10)) ∧
    sampleClient.Behaves
      (sampleClient.requestAll [unreachable .get none 0, unreachable .get none 4]
        (.new 5 30)).1
      (sampleClient.requestAll [unreachable .get none 0, unreachable .get none 4]
        (.new 5 30)).2
      refusedLater := by
  have hkeyed : ¬ (some "k" : Option String) = some "" := by decide
  constructor
  · refine (behaves_iff sampleClient 5 30 _ _ fun n response hfinal => ?_).2 (Or.inr (Or.inl ?_))
    · cases hfinal
    · exact hkeyed
  · exact (behaves_iff sampleClient 5 30 _ _ plainErrors_refusedLater).2 (Or.inr (Or.inl hkeyed))

/-- A write with an empty key carries no `Idempotency-Key`, and is sent three times. -/
theorem not_behaves_with_empty_key : PlainErrors (unreachable .post (some "") 0) ∧
    ¬ sampleClient.Behaves (.new 5 30) [] (unreachable .post (some "") 0) := by
  refine ⟨fun n response hfinal => (by cases hfinal), fun h => ?_⟩
  have honce := h.once (by decide +kernel) rfl
  have hthree : (sampleClient.request (.new 5 30) (unreachable .post (some "") 0)).sent.length =
      3 := by
    decide +kernel
  omega

end ServiceClient

end SmartLogistics.Platform
