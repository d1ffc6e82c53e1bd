/-
  Messages between a client and the background service (`privileged_bridge/mod.rs`):
  the text of a JSON value behind its length, which is four bytes.

  * `readMessage_frame`: a message that was written is read, and the bytes behind it
    are left;
  * `RpcResponse.fromJson_toJson`: a response is read as it was, unless its result is
    `null`, which reads like no result at all.

  The texts of JSON values are not modelled: what is asked of `serde_json` is in
  `Serde.RoundTrips`.
-/
import DnsBlackhole.Lib.Fallible
import DnsBlackhole.Protocol.Bytes
import DnsBlackhole.Text

namespace DnsBlackhole.Rpc
open Lib
open Protocol (u32OfBytes u32OfBytes_toBytes u32ToBytes)

/-! ## Values -/

/-- `serde_json::Value` -/
inductive Json
  | null
  | bool (value : Bool)
  | posInt (value : UInt64)
  | negInt (value : ℤ)
  | float (bits : UInt64)
  | string (value : Text)
  | array (items : List Json)
  | object (fields : List (Text × Json))
  deriving Inhabited

/-- `serde_json::to_vec` and `from_slice`. -/
structure Serde where
  toVec : Json → List UInt8
  fromSlice : List UInt8 → Except Text Json

/-- A value is read as it was written, and its text is not empty. -/
structure Serde.RoundTrips (serde : Serde) (value : Json) : Prop where
  fromSlice : serde.fromSlice (serde.toVec value) = .ok value
  nonempty : serde.toVec value ≠ []

/-! ## Requests and responses -/

structure RpcRequest where
  id : UInt64
  method : Text
  params : Json

structure RpcResponse where
  id : UInt64
  result : Option Json
  error : Option Text

/-- A field that is required. -/
def requiredField (fields : List (Text × Json)) (name : Text) : Except Text Json :=
  match fields.lookup name with
  | some value => .ok value
  | none => .error ("missing field ".toList ++ name)

def readU64 : Json → Except Text UInt64
  | .posInt value => .ok value
  | _ => .error "invalid type, expected u64".toList

def readString : Json → Except Text Text
  | .string value => .ok value
  | _ => .error "invalid type, expected a string".toList

/-- A field that may be missing; `null` reads like a missing one. -/
def optionalField {α : Type} (read : Json → Except Text α) (fields : List (Text × Json))
    (name : Text) : Except Text (Option α) :=
  match fields.lookup name with
  | none => .ok none
  | some .null => .ok none
  | some value => some <$> read value

def RpcRequest.toJson (request : RpcRequest) : Json :=
  .object [("id".toList, .posInt request.id), ("method".toList, .string request.method),
    ("params".toList, request.params)]

def RpcRequest.fromJson : Json → Except Text RpcRequest
  | .object fields => do
    let id ← requiredField fields "id".toList >>= readU64
    let method ← requiredField fields "method".toList >>= readString
    return { id, method, params := (fields.lookup "params".toList).getD .null }
  | _ => .error "invalid type, expected struct RpcRequest".toList

/-- Fields without a value are left out. -/
def RpcResponse.toJson (response : RpcResponse) : Json :=
  .object (("id".toList, .posInt response.id) ::
    ((response.result.map fun result => ("result".toList, result)).toList ++
      (response.error.map fun error => ("error".toList, .string error)).toList))

def RpcResponse.fromJson : Json → Except Text RpcResponse
  | .object fields => do
    let id ← requiredField fields "id".toList >>= readU64
    let result ← optionalField .ok fields "result".toList
    let error ← optionalField readString fields "error".toList
    return { id, result, error }
  | _ => .error "invalid type, expected struct RpcResponse".toList

theorem RpcRequest.fromJson_toJson (request : RpcRequest) :
    RpcRequest.fromJson request.toJson = .ok request := rfl

/-- A result that is read back. -/
def readBack : Option Json → Option Json
  | some .null => none
  | result => result

theorem RpcResponse.fromJson_toJson (response : RpcResponse) :
    RpcResponse.fromJson response.toJson =
      .ok { response with result := readBack response.result } := by
  obtain ⟨id, result, error⟩ := response
  cases result with
  | none => cases error <;> rfl
  | some result => cases result <;> cases error <;> rfl

/-! ## Frames -/

def maxFrameSize : ℕ := 512 * 1024

/-- A payload behind its length. -/
def frame (payload : List UInt8) : List UInt8 :=
  u32ToBytes (.ofNat payload.length) ++ payload

def writeMessage (serde : Serde) (message : Json) : Except Text (List UInt8) :=
  let payload := serde.toVec message
  if maxFrameSize < payload.length then
    .error ("后台服务消息超过大小限制：".toList ++ Nat.toDigits 10 payload.length ++
      " 字节".toList)
  else .ok (frame payload)

/-- The payload in front, and the bytes behind it. -/
def readFrame : List UInt8 → Except Text (List UInt8 × List UInt8)
  | first :: second :: third :: fourth :: rest =>
    let length := (u32OfBytes first second third fourth).toNat
    if length = 0 ∨ maxFrameSize < length then
      .error ("后台服务消息长度无效：".toList ++ Nat.toDigits 10 length)
    else if rest.length < length then
      .error "读取后台服务消息失败：failed to fill whole buffer".toList
    else .ok (rest.take length, rest.drop length)
  | _ => .error "读取后台服务消息长度失败：failed to fill whole buffer".toList

def readMessage {α : Type} (serde : Serde) (fromJson : Json → Except Text α)
    (bytes : List UInt8) : Except Text (α × List UInt8) := do
  let (payload, rest) ← readFrame bytes
  let message ← (serde.fromSlice payload >>= fromJson).mapError
    ("解析后台服务消息失败：".toList ++ ·)
  return (message, rest)

theorem readFrame_frame {payload : List UInt8} (hne : payload ≠ [])
    (hfits : payload.length ≤ maxFrameSize) (rest : List UInt8) :
    readFrame (frame payload ++ rest) = .ok (payload, rest) := by
  have hlength : (UInt32.ofNat payload.length).toNat = payload.length := by
    rw [UInt32.toNat_ofNat']
    exact Nat.mod_eq_of_lt (by unfold maxFrameSize at hfits; omega)
  have hpos : payload.length ≠ 0 := by simpa using hne
  have hbytes := u32OfBytes_toBytes (UInt32.ofNat payload.length)
  rw [hlength] at hbytes
  simp only [frame, u32ToBytes, List.cons_append, List.nil_append, readFrame, hbytes, hlength]
  rw [if_neg (by omega), if_neg (by simp), List.take_left, List.drop_left]

theorem length_lt_of_readFrame {bytes payload rest : List UInt8}
    (h : readFrame bytes = .ok (payload, rest)) : rest.length < bytes.length := by
  unfold readFrame at h
  split at h
  · dsimp only at h
    split_ifs at h with hlength hrest
    cases h
    simp only [List.length_drop, List.length_cons]
    omega
  · cases h

theorem length_lt_of_readMessage {α : Type} {serde : Serde} {fromJson : Json → Except Text α}
    {bytes rest : List UInt8} {message : α}
    (h : readMessage serde fromJson bytes = .ok (message, rest)) : rest.length < bytes.length := by
  obtain ⟨⟨payload, rest'⟩, hframe, h⟩ := bind_eq_ok.1 h
  obtain ⟨message', -, h⟩ := bind_eq_ok.1 h
  cases pure_eq_ok.1 h
  exact length_lt_of_readFrame hframe

/-- **A message that was written is read**, and what stands behind it is left. -/
theorem readMessage_frame {α : Type} {serde : Serde} {fromJson : Json → Except Text α}
    {value : Json} {message : α} (hserde : serde.RoundTrips value)
    (hfits : (serde.toVec value).length ≤ maxFrameSize) (hjson : fromJson value = .ok message)
    (rest : List UInt8) :
    readMessage serde fromJson (frame (serde.toVec value) ++ rest) = .ok (message, rest) := by
  have hread : (serde.fromSlice (serde.toVec value) >>= fromJson).mapError
      ("解析后台服务消息失败：".toList ++ ·) = .ok message :=
    mapError_eq_ok.2 (bind_eq_ok.2 ⟨value, hserde.fromSlice, hjson⟩)
  exact bind_eq_ok.2 ⟨_, readFrame_frame hserde.nonempty hfits rest, bind_eq_ok.2 ⟨_, hread, rfl⟩⟩

end DnsBlackhole.Rpc
