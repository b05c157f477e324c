import DeribitTrading.Json.Conversion
import DeribitTrading.Library.HttpFraming

/-!
From the bytes of a response to a decision, for each of the operations of
`OrderAPI`: strip the headers, gunzip, parse, and look at the document. None of
this touches the state of the client.
-/
namespace DeribitTrading
open ByteString Rapidjson

def npos : Nat := 2 ^ 64 - 1

/-- `readBuffer.find("\r\n\r\n") + 4`; without a separator the sum wraps around. -/
def bodyPosition (readBuffer : Bytes) : Nat :=
  match find HttpFraming.separator readBuffer with
  | some headerEnd => headerEnd + 4
  | none => (npos + 4) % 2 ^ 64

/-- The unguarded header stripping of the three order operations. -/
def extractBody (readBuffer : Bytes) : Outcome Bytes :=
  match substr readBuffer (bodyPosition readBuffer) with
  | some body => .ok body
  | none => .error .outOfRange

def placeOrderBody (readBuffer : Bytes) : Outcome Bytes := extractBody readBuffer
def cancelOrderBody (readBuffer : Bytes) : Outcome Bytes := extractBody readBuffer
def modifyOrderBody (readBuffer : Bytes) : Outcome Bytes := extractBody readBuffer

/-- `getOrderBookData` strips headers only if a separator is there. -/
def orderBookBody (readBuffer : Bytes) : Outcome Bytes :=
  match find HttpFraming.separator readBuffer with
  | some headerEnd =>
      match substr readBuffer (headerEnd + 4) with
      | some body => .ok body
      | none => .error .outOfRange
  | none => .ok readBuffer

def decompressGzip (L : Libraries) (str : Bytes) : Outcome Bytes :=
  match L.gunzip.start (Streaming.availIn str) with
  | none => .error .runtimeError
  | some zs =>
      match Streaming.drain L.gunzip zs 0 [] with
      | (.streamEnd, outstring) => .ok outstring
      | _ => .error .runtimeError

theorem decompressGzip_eq_error {L : Libraries} {str : Bytes} {f : Fault}
    (thrown : decompressGzip L str = .error f) : f = .runtimeError := by
  unfold decompressGzip at thrown
  split at thrown
  · cases thrown
    rfl
  · split at thrown
    · cases thrown
    · cases thrown
      rfl

def isGzip (body : Bytes) : Bool :=
  2 < body.length && body[0]? == some 0x1f && body[1]? == some 0x8b

/-- The `try` around `decompressGzip`; `none` is the handler's early return. -/
def gunzipped (L : Libraries) (body : Bytes) : Outcome (Option Bytes) :=
  if isGzip body then
    match decompressGzip L body with
    | .ok text => .ok (some text)
    | .error .runtimeError => .ok none
    | .error f => .error f
  else
    .ok (some body)

/-- The steps before a document is looked at; `none` is a failed gunzip. -/
def readResponse (L : Libraries) (body : Outcome Bytes) : Outcome (Option (Bool × Value)) := do
  let body ← body
  match ← gunzipped L body with
  | none => return none
  | some text => return some (parseJSONResponse L text)

/-- `document["error"]["message"].GetString()`, printed by every error branch. -/
def errorMessage (document : Value) : Outcome Bytes := do
  let error ← document.member (bytes "error")
  let message ← error.member (bytes "message")
  message.getString

def hasResultOrder (document : Value) : Outcome Bool := do
  if ← document.hasMember (bytes "result") then
    let result ← document.member (bytes "result")
    result.hasMember (bytes "order")
  else
    return false

/-- The chain of `placeOrder`: the order id and the order, when it returns true. -/
def placeReply (success : Bool) (document : Value) : Outcome (Option (Bytes × Value)) := do
  if ← (if success && document.isObject then hasResultOrder document else return false) then
    let result ← document.member (bytes "result")
    let order ← result.member (bytes "order")
    if ← order.hasMember (bytes "order_id") then
      let orderId ← order.member (bytes "order_id")
      return some (← orderId.getString, order)
    else
      return none
  else if ← document.hasMember (bytes "error") then
    let _ ← errorMessage document
    return none
  else
    return none

/-- The failure branch that `cancelOrderRequest` and `modifyOrder` share: it asks
the document for an error also when there is no object to ask. -/
def reportFailure (document : Value) : Outcome Unit := do
  if ← document.hasMember (bytes "error") then
    let _ ← errorMessage document

def isFailure (success : Bool) (document : Value) : Outcome Bool :=
  if !success || !document.isObject then return true
  else document.hasMember (bytes "error")

def cancelReply (success : Bool) (document : Value) : Outcome Bool := do
  if ← isFailure success document then
    reportFailure document
    return false
  else
    return true

/-- The chain of `modifyOrder`: the order, when it returns true. -/
def modifyReply (success : Bool) (document : Value) : Outcome (Option Value) := do
  if ← isFailure success document then
    reportFailure document
    return none
  else
    let result ← document.member (bytes "result")
    if ← result.hasMember (bytes "order") then
      return some (← result.member (bytes "order"))
    else
      return none

def placeDecision (L : Libraries) (readBuffer : Bytes) : Outcome (Option (Bytes × Value)) := do
  match ← readResponse L (placeOrderBody readBuffer) with
  | none => return none
  | some (success, document) => placeReply success document

def cancelDecision (L : Libraries) (readBuffer : Bytes) : Outcome Bool := do
  match ← readResponse L (cancelOrderBody readBuffer) with
  | none => return false
  | some (success, document) => cancelReply success document

def modifyDecision (L : Libraries) (readBuffer : Bytes) : Outcome (Option Value) := do
  match ← readResponse L (modifyOrderBody readBuffer) with
  | none => return none
  | some (success, document) => modifyReply success document

end DeribitTrading
