import SmartLogistics.Platform.Http

/-!
# Error answers of another service

`_remote_error` reads the code and the message off the body of an error answer, and `problem` shows
them to our own client.

`passedThrough_iff`: an error answer becomes a `RemoteError` with a string code and a string message
for the bodies that are `Relayable`; the body of a proxy that answers a JSON list raises something
else, and so does a body whose decoding raises anything but a `ValueError`.
-/

set_option autoImplicit false

namespace SmartLogistics.Platform

/-- The error answer is passed on: as a `RemoteError` with its status, a string code and a string
message, its own if they are strings, which our client is answered with that status. -/
def PassedThrough (response : HttpResponse) (result : Except Raised HttpResponse) : Prop :=
  ∃ code message : PyStr,
    result = .error (.remote ⟨response.statusCode, .string code, .string message⟩) ∧
    (∀ members, response.document = some (.object members) →
      (∀ own, Json.get members "code" = some (.string own) → code = own) ∧
      ∀ own, Json.get members "message" = some (.string own) → message = own) ∧
    ∃ answer, problem ⟨response.statusCode, .string code, .string message⟩ = some answer ∧
      answer.statusCode = response.statusCode

/-- The code of a body: none, or a string that encodes. -/
def codeRelayable : Option Json → Bool
  | none => true
  | some (.string text) => encodes text
  | some _ => false

/-- The message of a body: none, and then the text of the answer, or a string that encodes and is
not empty, or a value that Python takes for false. -/
def messageRelayable (text : PyStr) : Option Json → Bool
  | none => encodes text
  | some (.string own) => !own.isEmpty && encodes own
  | some message => !message.truthy

/-- The code and the message of a body, which the decoder has not read, are no strings, or those
that are shown. -/
def sameShown (members : List (PyStr × Json)) (shown : PyStr) : Bool :=
  (match Json.get members "code" with
    | some (.string own) => own == pyStr "remote_error"
    | _ => true) &&
  match Json.get members "message" with
  | some (.string own) => own == shown
  | _ => true

/-- The body is read as an object with such a code and such a message; or its decoding raises a
`ValueError`, the text of the answer encodes, and the body is no object with a code or a message of
its own that gets lost. -/
def Relayable (service : String) (response : HttpResponse) : Bool :=
  match response.json with
  | .valueError => encodes response.text &&
    match response.document with
    | some (.object members) => sameShown members (textShown service response)
    | _ => true
  | .value (.object members) =>
    codeRelayable (Json.get members "code") &&
      messageRelayable response.text (Json.get members "message")
  | .value _ => false
  | .raised => false

theorem encodes_pyStr (text : String) : encodes (pyStr text) = true := by
  refine List.all_eq_true.2 fun n hn => ?_
  obtain ⟨c, -, rfl⟩ := List.mem_map.1 hn
  -- a character is no surrogate
  have hvalid := c.valid
  simp only [UInt32.isValidChar, Nat.isValidChar] at hvalid
  rw [Bool.not_eq_true', Bool.and_eq_false_iff, decide_eq_false_iff_not, decide_eq_false_iff_not]
  have hnat : c.toNat = c.val.toNat := rfl
  omega

/-- A string message is kept unless it is empty. -/
theorem new_string (statusCode : Nat) (code : Json) {text : PyStr} (h : text ≠ []) :
    RemoteError.new statusCode code (.string text) = ⟨statusCode, code, .string text⟩ := by
  have htruthy : (Json.string text).truthy = true := by
    rw [Json.truthy, Bool.not_eq_true', List.isEmpty_eq_false_iff]
    exact h
  rw [RemoteError.new, if_pos htruthy]

/-- A message that is not true is replaced. -/
theorem new_falsy (statusCode : Nat) (code : Json) {message : Json} (h : message.truthy = false) :
    RemoteError.new statusCode code message = ⟨statusCode, code,
      .string (pyStr "An error answered by another service, passed through unchanged.")⟩ := by
  rw [RemoteError.new, h]
  rfl

/-- A string code and a string message are answered if they encode. -/
theorem problem_strings {statusCode : Nat} {code message : PyStr} :
    (∃ answer, problem ⟨statusCode, .string code, .string message⟩ = some answer ∧
      answer.statusCode = statusCode) ↔ encodes code = true ∧ encodes message = true := by
  have hrenders : ((Json.string code).renders && (Json.string message).renders) =
      (encodes code && encodes message) := by
    rw [Json.renders, Json.renders]
  constructor
  · rintro ⟨answer, hanswer, -⟩
    unfold problem at hanswer
    split at hanswer
    · rename_i hboth
      exact Bool.and_eq_true_iff.1 (hrenders.symm.trans hboth)
    · cases hanswer
  · intro hboth
    unfold problem
    rw [if_pos (hrenders.trans (Bool.and_eq_true_iff.2 hboth))]
    exact ⟨_, rfl, rfl⟩

/-- The code of the error is a string, the body's own if that is one, exactly for these codes. -/
theorem code_relayable (code : Option Json) :
    (∃ shown, code.getD (.string (pyStr "remote_error")) = .string shown ∧
      (∀ own, code = some (.string own) → shown = own) ∧ encodes shown = true) ↔
      codeRelayable code = true := by
  constructor
  · rintro ⟨shown, hshown, -, hencodes⟩
    cases code with
    | none => rfl
    | some code =>
      rw [Option.getD_some] at hshown
      rwa [hshown]
  · intro hcode
    cases code with
    | none =>
      refine ⟨_, rfl, fun own hown => ?_, encodes_pyStr _⟩
      cases hown
    | some code =>
      cases code with
      | string text =>
        refine ⟨text, rfl, fun own hown => ?_, hcode⟩
        cases hown
        rfl
      | _ => cases hcode

/-- The message of the error is a string, the body's own if that is one, exactly for these
messages. -/
theorem message_relayable (statusCode : Nat) (code : Json) (text : PyStr) (message : Option Json) :
    (∃ shown, RemoteError.new statusCode code (message.getD (.string text)) =
        ⟨statusCode, code, .string shown⟩ ∧
      (∀ own, message = some (.string own) → shown = own) ∧ encodes shown = true) ↔
      messageRelayable text message = true := by
  cases message with
  | none =>
    rw [Option.getD_none]
    by_cases hempty : text = []
    · -- no text either
      have hfalsy : (Json.string []).truthy = false := rfl
      rw [hempty, new_falsy statusCode code hfalsy]
      refine ⟨fun _ => rfl, fun _ => ⟨_, rfl, fun own hown => ?_, encodes_pyStr _⟩⟩
      cases hown
    · rw [new_string statusCode code hempty]
      constructor
      · rintro ⟨shown, hshown, -, hencodes⟩
        cases hshown
        exact hencodes
      · intro hencodes
        refine ⟨text, rfl, fun own hown => ?_, hencodes⟩
        cases hown
  | some message =>
    rw [Option.getD_some]
    by_cases htrue : message.truthy = true
    · have hnew : RemoteError.new statusCode code message = ⟨statusCode, code, message⟩ := by
        rw [RemoteError.new, if_pos htrue]
      rw [hnew]
      constructor
      · rintro ⟨shown, hshown, -, hencodes⟩
        cases hshown
        rw [Json.truthy] at htrue
        exact Bool.and_eq_true_iff.2 ⟨htrue, hencodes⟩
      · intro hmessage
        cases message with
        | string own =>
          refine ⟨own, rfl, fun other hother => ?_, (Bool.and_eq_true_iff.1 hmessage).2⟩
          cases hother
          rfl
        | _ =>
          simp only [messageRelayable] at hmessage
          rw [htrue] at hmessage
          cases hmessage
    · rw [Bool.not_eq_true] at htrue
      rw [new_falsy statusCode code htrue]
      constructor
      · rintro ⟨shown, hshown, hown, -⟩
        cases message with
        | string own =>
          -- an empty message is replaced
          have hempty : own = [] := by
            rwa [Json.truthy, Bool.not_eq_false', List.isEmpty_iff] at htrue
          have hsame := hown own rfl
          rw [hsame, hempty] at hshown
          have htext := Json.string.inj (RemoteError.mk.inj hshown).2.2
          simp [pyStr] at htext
        | _ =>
          simp only [messageRelayable]
          rw [htrue]
          rfl
      · intro hmessage
        refine ⟨_, rfl, fun own hown => ?_, encodes_pyStr _⟩
        cases hown
        rw [messageRelayable, ← Json.truthy, htrue] at hmessage
        cases hmessage

/-- The text that is shown is the one of the answer, or one of ours. -/
theorem textShown_ne_nil (service : String) (response : HttpResponse) :
    textShown service response ≠ [] := by
  unfold textShown
  split
  · intro hempty
    have hlength := congrArg List.length hempty
    simp [pyStr] at hlength
  · rename_i hsome
    rwa [List.isEmpty_iff] at hsome

theorem encodes_textShown (service : String) (response : HttpResponse) :
    encodes (textShown service response) = encodes response.text := by
  unfold textShown
  split
  · rename_i hempty
    rw [List.isEmpty_iff.1 hempty, encodes_pyStr]
    rfl
  · rfl

/-- What is shown is the body's own if that is a string. -/
theorem sameShown_iff {members : List (PyStr × Json)} {shown : PyStr} :
    sameShown members shown = true ↔
      (∀ own, Json.get members "code" = some (.string own) → pyStr "remote_error" = own) ∧
        ∀ own, Json.get members "message" = some (.string own) → shown = own := by
  unfold sameShown
  rw [Bool.and_eq_true_iff]
  refine and_congr ?_ ?_
  · split
    · rename_i own hown
      rw [beq_iff_eq, hown]
      exact ⟨fun h other hother => by cases hother; exact h.symm, fun h => (h own rfl).symm⟩
    · rename_i hnone
      exact ⟨fun _ own hown => absurd hown (hnone own), fun _ => rfl⟩
  · split
    · rename_i own hown
      rw [beq_iff_eq, hown]
      exact ⟨fun h other hother => by cases hother; exact h.symm, fun h => (h own rfl).symm⟩
    · rename_i hnone
      exact ⟨fun _ own hown => absurd hown (hnone own), fun _ => rfl⟩

/-- A body whose decoding raises a `ValueError` is passed on as text. -/
theorem passedThrough_valueError {service : String} {response : HttpResponse}
    (hjson : response.json = .valueError) :
    PassedThrough response (.error (remoteError service response)) ↔
      Relayable service response = true := by
  have herror : remoteError service response = .remote ⟨response.statusCode,
      .string (pyStr "remote_error"), .string (textShown service response)⟩ := by
    rw [remoteError, hjson]
    exact congrArg Raised.remote (new_string _ _ (textShown_ne_nil service response))
  rw [herror, Relayable, hjson, Bool.and_eq_true_iff, ← encodes_textShown service]
  constructor
  · rintro ⟨code, message, hresult, hown, hproblem⟩
    cases hresult
    refine ⟨(problem_strings.1 hproblem).2, ?_⟩
    split
    · rename_i members hmembers
      exact sameShown_iff.2 (hown members hmembers)
    · rfl
  · rintro ⟨htext, hsame⟩
    refine ⟨_, _, rfl, fun members hmembers => ?_, problem_strings.2 ⟨encodes_pyStr _, htext⟩⟩
    rw [hmembers] at hsame
    exact sameShown_iff.1 hsame

/-- A body that is read as an object is passed on with its code and its message. -/
theorem passedThrough_object {service : String} {response : HttpResponse}
    {members : List (PyStr × Json)} (hjson : response.json = .value (.object members)) :
    PassedThrough response (.error (remoteError service response)) ↔
      Relayable service response = true := by
  have hdocument := response.decodes _ hjson
  have herror : remoteError service response = .remote (.new response.statusCode
      ((Json.get members "code").getD (.string (pyStr "remote_error")))
      ((Json.get members "message").getD (.string response.text))) := by
    rw [remoteError, hjson]
  have hcode := code_relayable (Json.get members "code")
  have hmessage := message_relayable response.statusCode
    ((Json.get members "code").getD (.string (pyStr "remote_error"))) response.text
    (Json.get members "message")
  -- the code and the message are relayable one by one
  rw [herror, Relayable, hjson, Bool.and_eq_true_iff, ← hcode, ← hmessage]
  constructor
  · rintro ⟨code, message, hresult, hown, hproblem⟩
    have hnew := Raised.remote.inj (Except.error.inj hresult)
    obtain ⟨hencodesCode, hencodesMessage⟩ := problem_strings.1 hproblem
    obtain ⟨hownCode, hownMessage⟩ := hown members hdocument
    have hcodeShown : (Json.get members "code").getD (.string (pyStr "remote_error")) =
        .string code := congrArg RemoteError.code hnew
    exact ⟨⟨code, hcodeShown, hownCode, hencodesCode⟩,
      message, hnew.trans (by rw [hcodeShown]), hownMessage, hencodesMessage⟩
  · rintro ⟨⟨code, hcodeShown, hownCode, hencodesCode⟩,
      message, hnew, hownMessage, hencodesMessage⟩
    refine ⟨code, message, by rw [hnew, hcodeShown], fun others hothers => ?_,
      problem_strings.2 ⟨hencodesCode, hencodesMessage⟩⟩
    rw [hdocument] at hothers
    cases hothers
    exact ⟨hownCode, hownMessage⟩

/-- Which answers are passed on. -/
theorem passedThrough_remoteError (service : String) (response : HttpResponse) :
    PassedThrough response (.error (remoteError service response)) ↔
      Relayable service response = true := by
  cases hjson : response.json with
  | valueError => exact passedThrough_valueError hjson
  | raised =>
    -- the exception of the decoder escapes
    rw [remoteError, Relayable, hjson]
    constructor
    · rintro ⟨code, message, hresult, -⟩
      cases hresult
    · intro hfalse
      cases hfalse
  | value body =>
    cases body with
    | object members => exact passedThrough_object hjson
    | _ =>
      -- `body.get` raises
      rw [remoteError, Relayable, hjson]
      constructor
      · rintro ⟨code, message, hresult, -⟩
        cases hresult
      · intro hfalse
        cases hfalse

/-- An error answer among the attempts of a call becomes a `RemoteError` that our client is answered
exactly if its body is relayable. -/
theorem ServiceClient.passedThrough_iff (client : ServiceClient) (breaker : CircuitBreaker)
    (call : ServiceCall) (attempt : Attempt) (response : HttpResponse)
    (hsent : attempt ∈ (client.request breaker call).sent) (hfinal : attempt.final = some response)
    (hstatus : 400 ≤ response.statusCode) :
    PassedThrough response (client.request breaker call).result ↔
      Relayable client.name response = true := by
  have hresult : (client.request breaker call).result =
      .error (remoteError client.name response) := by
    obtain ⟨-, hcases⟩ := client.request_spec breaker call
    rcases hcases with ⟨hall, -⟩ | ⟨before, last, answer, hsplit, hall, hlast, hres⟩
    · rw [hall attempt hsent] at hfinal
      cases hfinal
    · rw [hsplit] at hsent
      rcases List.mem_append.1 hsent with hbefore | hsent
      · rw [hall attempt hbefore] at hfinal
        cases hfinal
      · rw [List.mem_singleton.1 hsent, hlast] at hfinal
        cases hfinal
        rw [hres, answered, if_pos hstatus]
  rw [hresult]
  exact passedThrough_remoteError client.name response

/-- Inventory answers a call once. -/
def answeredWith (response : HttpResponse) : ServiceCall where
  method := .post
  idempotencyKey := none
  started := 0
  script := fun n => ⟨.answer response, n⟩

/-- The call is not repeated. -/
theorem ServiceClient.request_answeredWith (client : ServiceClient) {response : HttpResponse}
    (h : (Attempt.mk (.answer response) 0).final = some response) :
    client.request (.new 5 30) (answeredWith response) =
      ⟨answered client.name response, .new 5 30, [⟨.answer response, 0⟩]⟩ := by
  have hfirst : ((answeredWith response).script 0).final = some response := h
  have hclosed : ¬ (CircuitBreaker.new 5 30).isOpen 0 = true := by
    decide
  rw [request, answeredWith, if_neg hclosed, ← answeredWith, attempts_eq, attemptEach, hfirst]
  rfl

/-- It is passed on. -/
theorem ServiceClient.passedThrough_insufficientStock :
    PassedThrough insufficientStock
      (sampleClient.request (.new 5 30) (answeredWith insufficientStock)).result :=
  (passedThrough_iff sampleClient (.new 5 30) (answeredWith insufficientStock)
    ⟨.answer insufficientStock, 0⟩ insufficientStock
    (by rw [request_answeredWith sampleClient rfl]; exact List.mem_singleton_self _) rfl
    (by decide)).2 (by decide)

/-- A 404 of a proxy whose body is a JSON list. -/
def listAnswer : HttpResponse where
  statusCode := 404
  document := some (.array [.string (pyStr "not found")])
  json := .value (.array [.string (pyStr "not found")])
  text := pyStr "[\"not found\"]"
  decodes := by
    rintro body ⟨⟩
    rfl

/-- `body.get` raises an `AttributeError` that escapes. -/
theorem ServiceClient.not_passedThrough_listAnswer :
    ¬ PassedThrough listAnswer
      (sampleClient.request (.new 5 30) (answeredWith listAnswer)).result := by
  rintro ⟨code, message, hresult, -⟩
  rw [request_answeredWith sampleClient rfl] at hresult
  cases hresult

end SmartLogistics.Platform
