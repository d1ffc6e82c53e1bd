/-
  A connection (`handle_requests` of `rpc_server.rs`) and what a client reads from it
  (`read_result` of `client.rs`).

  `dispatch_request` is a parameter: a function of the state of the service, the method
  and its parameters.

  * `Answered`: the bytes are one response to each request, and the client reads from it
    what the dispatcher returned;
  * `answered_iff`: so it is, unless an answer is `null` or does not fit a frame.
-/
import DnsBlackhole.Rpc.Messages

namespace DnsBlackhole.Rpc
open Lib

/-! ## The server -/

/-- `dispatch_request`: a result, and whether the service restarts after it. -/
abbrev Dispatch (σ : Type) := σ → Text → Json → σ × Except Text (Json × Bool)

def connectionClosed (error : Text) : Bool :=
  ["UnexpectedEof", "failed to fill whole buffer", "管道已结束", "broken pipe"].any fun part =>
    (error.splitOnceAt part.toList).isSome

/-- What is written in answer to a request. -/
def response (id : UInt64) : Except Text Json → RpcResponse
  | .ok result => { id, result := some result, error := none }
  | .error error => { id, result := none, error := some error }

def restarts : Except Text (Json × Bool) → Bool
  | .ok (_, shouldRestart) => shouldRestart
  | .error _ => false

/-- How a connection ends. -/
structure Handled (σ : Type) where
  state : σ
  written : List UInt8
  restart : Except Text Bool

section
variable {σ : Type} (serde : Serde) (dispatch : Dispatch σ)

def handleRequests (s : σ) (input : List UInt8) : Handled σ :=
  match h : readMessage serde RpcRequest.fromJson input with
  | .error error =>
    { state := s, written := [], restart := if connectionClosed error then .ok false else .error error }
  | .ok (request, rest) =>
    let (s', result) := dispatch s request.method request.params
    match writeMessage serde (response request.id (result.map Prod.fst)).toJson with
    | .error error => { state := s', written := [], restart := .error error }
    | .ok bytes =>
      if restarts result then { state := s', written := bytes, restart := .ok true }
      else
        have : rest.length < input.length := length_lt_of_readMessage h
        let handled := handleRequests s' rest
        { handled with written := bytes ++ handled.written }
termination_by input.length

/-- The requests that are dispatched, with what the dispatcher returns for them: after a
    request to restart the connection is closed. -/
def dispatched (s : σ) : List RpcRequest → List (UInt64 × Except Text Json)
  | [] => []
  | request :: requests =>
    let (s', result) := dispatch s request.method request.params
    (request.id, result.map Prod.fst) :: if restarts result then [] else dispatched s' requests

end

/-! ## The client -/

/-- What `read_result` does with a response. -/
def takeResult (expectedId : UInt64) (response : RpcResponse) : Except Text Json :=
  if response.id ≠ expectedId then
    .error ("后台服务响应编号不匹配：期望 ".toList ++ Nat.toDigits 10 expectedId.toNat ++
      "，收到 ".toList ++ Nat.toDigits 10 response.id.toNat)
  else
    match response.error with
    | some error => .error error
    | none =>
      match response.result with
      | some result => .ok result
      | none => .error "后台服务响应缺少结果".toList

/-- The bytes are one response to each request, in order, from which the client reads the
    answer to it. -/
def Answered (serde : Serde) : List (UInt64 × Except Text Json) → List UInt8 → Prop
  | [], bytes => bytes = []
  | (id, answer) :: answers, bytes => ∃ response rest,
    readMessage serde RpcResponse.fromJson bytes = .ok (response, rest) ∧
      takeResult id response = answer ∧ Answered serde answers rest

/-! ## Both -/

section
variable {σ : Type} {serde : Serde} {dispatch : Dispatch σ} {s : σ}

/-- The text of the response to a request. -/
def responseText (serde : Serde) (answer : UInt64 × Except Text Json) : List UInt8 :=
  serde.toVec (response answer.1 answer.2).toJson

/-- An answer that reaches the client. -/
def Arrives (serde : Serde) (answer : UInt64 × Except Text Json) : Prop :=
  answer.2 ≠ .ok .null ∧ (responseText serde answer).length ≤ maxFrameSize

theorem takeResult_response_iff {id : UInt64} {answer : Except Text Json} :
    takeResult id { response id answer with result := readBack (response id answer).result } =
      answer ↔ answer ≠ .ok .null := by
  cases answer with
  | error error => simp [takeResult, response]
  | ok result => cases result <;> simp [takeResult, response, readBack]

theorem writeMessage_eq_ok {message : Json} {bytes : List UInt8} :
    writeMessage serde message = .ok bytes ↔
      (serde.toVec message).length ≤ maxFrameSize ∧ bytes = frame (serde.toVec message) := by
  unfold writeMessage
  dsimp only
  split_ifs with h
  · simp only [false_iff, not_and]
    exact fun hfits => absurd h (by omega)
  · rw [Except.ok.injEq, eq_comm]
    exact ⟨fun hbytes => ⟨by omega, hbytes⟩, fun hbytes => hbytes.2⟩

theorem handleRequests_frame {request : RpcRequest} {rest : List UInt8}
    (hserde : serde.RoundTrips request.toJson)
    (hfits : (serde.toVec request.toJson).length ≤ maxFrameSize) :
    handleRequests serde dispatch s (frame (serde.toVec request.toJson) ++ rest) =
      let (s', result) := dispatch s request.method request.params
      match writeMessage serde (response request.id (result.map Prod.fst)).toJson with
      | .error error => { state := s', written := [], restart := .error error }
      | .ok bytes =>
        if restarts result then { state := s', written := bytes, restart := .ok true }
        else
          let handled := handleRequests serde dispatch s' rest
          { handled with written := bytes ++ handled.written } := by
  have hread := readMessage_frame hserde hfits request.fromJson_toJson rest
  rw [handleRequests]
  split
  · rename_i error herror
    cases herror.symm.trans hread
  · rename_i request' rest' hread'
    cases hread'.symm.trans hread
    rfl

theorem written_handleRequests_nil : (handleRequests serde dispatch s []).written = [] := by
  rw [handleRequests]
  split
  · rfl
  · rename_i request rest h
    cases h

theorem answered_cons_iff {id : UInt64} {answer : Except Text Json}
    {answers : List (UInt64 × Except Text Json)} {rest : List UInt8}
    (hserde : serde.RoundTrips (response id answer).toJson)
    (hfits : (responseText serde (id, answer)).length ≤ maxFrameSize) :
    Answered serde ((id, answer) :: answers) (frame (responseText serde (id, answer)) ++ rest) ↔
      answer ≠ .ok .null ∧ Answered serde answers rest := by
  have hread := readMessage_frame hserde hfits (response id answer).fromJson_toJson rest
  constructor
  · rintro ⟨response', rest', hread', htake, hanswered⟩
    cases hread'.symm.trans hread
    exact ⟨takeResult_response_iff.1 htake, hanswered⟩
  · rintro ⟨hne, hanswered⟩
    exact ⟨_, rest, hread, takeResult_response_iff.2 hne, hanswered⟩

/-- **What a client reads**: every answer of the dispatcher arrives as it is, if and only if
    none of them is `null` or too long for a frame. -/
theorem answered_iff (serde : Serde) (dispatch : Dispatch σ) (s : σ) (requests : List RpcRequest)
    (hrequests : ∀ request ∈ requests, serde.RoundTrips request.toJson ∧
      (serde.toVec request.toJson).length ≤ maxFrameSize)
    (hresponses : ∀ answer ∈ dispatched dispatch s requests,
      serde.RoundTrips (response answer.1 answer.2).toJson) :
    Answered serde (dispatched dispatch s requests) (handleRequests serde dispatch s
        (requests.flatMap fun request => frame (serde.toVec request.toJson))).written ↔
      ∀ answer ∈ dispatched dispatch s requests, Arrives serde answer := by
  induction requests generalizing s with
  | nil => simp [dispatched, Answered, written_handleRequests_nil]
  | cons request requests ih =>
    obtain ⟨hrequest, hrequests⟩ := List.forall_mem_cons.1 hrequests
    rw [List.flatMap_cons, handleRequests_frame hrequest.1 hrequest.2]
    unfold dispatched at hresponses ⊢
    generalize dispatch s request.method request.params = outcome at hresponses ⊢
    obtain ⟨s', result⟩ := outcome
    dsimp only at hresponses ⊢
    obtain ⟨hresponse, hresponses⟩ := List.forall_mem_cons.1 hresponses
    rw [List.forall_mem_cons]
    generalize result.map Prod.fst = answer at hresponse ⊢
    by_cases hfits : (responseText serde (request.id, answer)).length ≤ maxFrameSize
    · have hcons : ∀ answers rest, Answered serde ((request.id, answer) :: answers)
          (frame (responseText serde (request.id, answer)) ++ rest) ↔
            answer ≠ .ok .null ∧ Answered serde answers rest :=
        fun answers rest => answered_cons_iff hresponse hfits
      rw [writeMessage_eq_ok.2 ⟨hfits, rfl⟩]
      dsimp only
      split_ifs with hrestart
      · have hlast := hcons [] []
        rw [List.append_nil] at hlast
        exact hlast.trans (by simp [Answered, Arrives, hfits])
      · rw [if_neg hrestart] at hresponses
        refine (hcons _ _).trans ?_
        rw [ih s' hrequests hresponses]
        simp [Arrives, hfits]
    · have hwrite : ∀ bytes, writeMessage serde (response request.id answer).toJson ≠ .ok bytes :=
        fun bytes hbytes => hfits (writeMessage_eq_ok.1 hbytes).1
      refine iff_of_false ?_ fun harrives => hfits harrives.1.2
      cases hmessage : writeMessage serde (response request.id answer).toJson with
      | ok bytes => exact absurd hmessage (hwrite bytes)
      | error error =>
        rintro ⟨response, rest, hread, -⟩
        cases hread

end

/-! ## A client that pings -/

/-- The answer to `ping`, and that to a method which is not known. -/
def pingDispatch : Dispatch Unit := fun _ method _ =>
  ((), if method = "ping".toList then .ok (.null, false)
    else .error ("未知的后台服务方法：".toList ++ method))

def ping : RpcRequest := { id := 2, method := "ping".toList, params := .null }
def pong : RpcRequest := { id := 2, method := "pong".toList, params := .null }

/-- The texts of the requests and of the responses to them. -/
def pingTexts : List (Json × Text) :=
  [(ping.toJson, "\x7b\"id\":2,\"method\":\"ping\",\"params\":null\x7d".toList),
    ((response 2 (.ok .null)).toJson, "\x7b\"id\":2,\"result\":null\x7d".toList),
    (pong.toJson, "\x7b\"id\":2,\"method\":\"pong\",\"params\":null\x7d".toList),
    ((response 2 (.error "未知的后台服务方法：pong".toList)).toJson,
      "\x7b\"id\":2,\"error\":\"未知的后台服务方法：pong\"\x7d".toList)]

/-- `serde_json`, on these. -/
def pingSerde : Serde where
  toVec
    | .object [_, (_, .string method), _] =>
      Text.asBytes
        ("\x7b\"id\":2,\"method\":\"".toList ++ method ++ "\",\"params\":null\x7d".toList)
    | .object [_, (_, .string error)] =>
      Text.asBytes ("\x7b\"id\":2,\"error\":\"".toList ++ error ++ "\"\x7d".toList)
    | .object [_, (_, .null)] => Text.asBytes "\x7b\"id\":2,\"result\":null\x7d".toList
    | _ => []
  fromSlice bytes :=
    match pingTexts.find? fun (_, text) => text.asBytes == bytes with
    | some (value, _) => .ok value
    | none => .error "expected value".toList

theorem roundTrips_ping : pingSerde.RoundTrips ping.toJson := ⟨by rfl, by decide⟩

theorem dispatched_ping : dispatched pingDispatch () [ping] = [(2, .ok .null)] := rfl

/-- **The answer to `ping` is lost**: the client reads that there is no result. -/
theorem ping_not_answered :
    ¬Answered pingSerde (dispatched pingDispatch () [ping])
      (handleRequests pingSerde pingDispatch () (frame (pingSerde.toVec ping.toJson))).written := by
  have hresponse : pingSerde.RoundTrips (response 2 (.ok .null)).toJson := ⟨by rfl, by decide⟩
  have hfits : (responseText pingSerde (2, .ok .null)).length ≤ maxFrameSize := by decide
  have hwrite : writeMessage pingSerde (response 2 (.ok .null)).toJson =
      .ok (frame (responseText pingSerde (2, .ok .null))) := writeMessage_eq_ok.2 ⟨hfits, rfl⟩
  have hdispatch : pingDispatch () ping.method ping.params = ((), .ok (.null, false)) := rfl
  rw [dispatched_ping, ← List.append_nil (frame _), handleRequests_frame roundTrips_ping (by decide),
    hdispatch]
  dsimp only
  rw [show ping.id = 2 from rfl, show (Except.ok (Json.null, false)).map Prod.fst =
    (.ok .null : Except Text Json) from rfl, hwrite]
  exact fun h => ((answered_cons_iff hresponse hfits).1 h).1 rfl

theorem pong_answered :
    Answered pingSerde (dispatched pingDispatch () [pong])
      (handleRequests pingSerde pingDispatch ()
        ([pong].flatMap fun request => frame (pingSerde.toVec request.toJson))).written := by
  have hdispatched : dispatched pingDispatch () [pong] =
      [(2, .error "未知的后台服务方法：pong".toList)] := rfl
  refine (answered_iff pingSerde pingDispatch () [pong] ?_ ?_).2 ?_
  · rintro request hmem
    cases List.mem_singleton.1 hmem
    exact ⟨⟨by rfl, by decide⟩, by decide⟩
  · rw [hdispatched]
    rintro answer hmem
    cases List.mem_singleton.1 hmem
    exact ⟨by rfl, by decide⟩
  · rw [hdispatched]
    rintro answer hmem
    cases List.mem_singleton.1 hmem
    exact ⟨nofun, by decide⟩

end DnsBlackhole.Rpc
