import Mathlib.Data.List.AList
import DeribitTrading.Client.CurlConnectionManager
import DeribitTrading.Client.TokenManager
import DeribitTrading.Client.Requests
import DeribitTrading.Client.Responses

/-!
`OrderAPI`. The store is kept the way the program keeps it: `orders` maps an id
to the address of its map node, and the values lie in a heap that pool blocks
and map nodes share. A write through a pointer is then seen by whatever lives
at that address, and by nothing else.
-/
namespace DeribitTrading
open ByteString Numbers Rapidjson Nlohmann

def sizeofJson : Nat := 16

structure OrderAPI where
  curlManager : CurlConnectionManager
  tokenManager : TokenManager
  orderPool : MemoryPool
  orders : AList fun _ : Bytes => Addr
  heap : Addr → Json

/-- What a call meets outside the network: the clock and the token endpoint, the
address of its local buffer, and where the allocator would put a new map node. -/
structure CallContext where
  token : TokenClock
  readBuffer : Addr
  node : Addr

/-- `executeAsyncTask`: the worker runs the task; an exception has no handler there. -/
def executeAsyncTask {α : Type} (task : Outcome α) : Outcome α :=
  match task with
  | .ok value => .ok value
  | .error f => .error f.uncaught

namespace OrderAPI

/-- The constructor, given where `new char[...]` puts the pool's memory. -/
def create (connectionManager : CurlConnectionManager) (tokenManager : TokenManager)
    (memory : Addr) : OrderAPI where
  curlManager := connectionManager
  tokenManager := tokenManager
  orderPool := MemoryPool.create memory sizeofJson 100
  orders := ∅
  heap := fun _ => .null

def stored (s : OrderAPI) (orderId : Bytes) : Option Json :=
  (s.orders.lookup orderId).map s.heap

variable {ω : Type} (L : Libraries) (net : Network ω)

/-- Token, transfer and the test of its success; `none` is the early `return false`. -/
def request (ctx : CallContext) (url : Bytes) (s : OrderAPI) (w : ω) :
    Outcome (Option Bytes) × OrderAPI × ω :=
  match s.tokenManager.getAccessToken L ctx.token with
  | (.error f, tokens) => (.error f, { s with tokenManager := tokens }, w)
  | (.ok accessToken, tokens) =>
      let r := performAsyncCurlRequest net s.curlManager url accessToken ctx.readBuffer [] w
      (.ok (if r.success then some r.response else none),
        { s with tokenManager := tokens, curlManager := r.manager }, r.world)

/-- `allocate`, placement new, `orders[orderId] = order`: the copy lands in the
entry's node, the original stays where the pool said. -/
def storeOrder (node : Addr) (orderId : Bytes) (order : Value) (s : OrderAPI) : OrderAPI :=
  match s.orderPool.allocate with
  | (none, pool) => { s with orderPool := pool }
  | (some orderPtr, pool) =>
      let heap := Function.update s.heap orderPtr (rapidjsonToNlohmannJson order)
      let entry := (s.orders.lookup orderId).getD node
      { s with
        orderPool := pool
        orders := s.orders.insert orderId entry
        heap := Function.update heap entry (heap orderPtr) }

/-- `deallocate(&orders[orderId])` before `erase`: the address of the map node. -/
def dropOrder (orderId : Bytes) (s : OrderAPI) : OrderAPI :=
  match s.orders.lookup orderId with
  | some entry =>
      { s with
        orderPool := s.orderPool.deallocate entry
        orders := s.orders.erase orderId }
  | none => s

/-- The pair is the result and the out-parameter `orderId` at the return. -/
def placeOrder (ctx : CallContext) (instrument : Bytes) (quantity price : Double)
    (label orderId orderType : Bytes) (s : OrderAPI) (w : ω) :
    Outcome (Bool × Bytes) × OrderAPI × ω :=
  match request L net ctx (placeOrderUrl instrument quantity price label orderType) s w with
  | (.error f, s, w) => (.error f, s, w)
  | (.ok none, s, w) => (.ok (false, orderId), s, w)
  | (.ok (some readBuffer), s, w) =>
      match placeDecision L readBuffer with
      | .error f => (.error f, s, w)
      | .ok none => (.ok (false, orderId), s, w)
      | .ok (some (id, order)) => (.ok (true, id), s.storeOrder ctx.node id order, w)

def placeMarketOrder (ctx : CallContext) (instrument : Bytes) (quantity : Double)
    (label orderId : Bytes) (s : OrderAPI) (w : ω) : Outcome (Bool × Bytes) × OrderAPI × ω :=
  placeOrder L net ctx instrument quantity (.finite false 0 0) label orderId (bytes "market") s w

def placeLimitOrder (ctx : CallContext) (instrument : Bytes) (quantity price : Double)
    (orderId : Bytes) (s : OrderAPI) (w : ω) : Outcome (Bool × Bytes) × OrderAPI × ω :=
  placeOrder L net ctx instrument quantity price (bytes "limit_order") orderId (bytes "limit") s w

def cancelOrderRequest (ctx : CallContext) (orderId : Bytes) (s : OrderAPI) (w : ω) :
    Outcome Bool × OrderAPI × ω :=
  match request L net ctx (cancelOrderUrl orderId) s w with
  | (.error f, s, w) => (.error f, s, w)
  | (.ok none, s, w) => (.ok false, s, w)
  | (.ok (some readBuffer), s, w) =>
      match cancelDecision L readBuffer with
      | .error f => (.error f, s, w)
      | .ok false => (.ok false, s, w)
      | .ok true => (.ok true, s.dropOrder orderId, w)

def cancelOrder (ctx : CallContext) (orderId : Bytes) (s : OrderAPI) (w : ω) :
    Outcome Bool × OrderAPI × ω :=
  let (result, s, w) := cancelOrderRequest L net ctx orderId s w
  (executeAsyncTask result, s, w)

/-- The task of `modifyOrder`, which calls `performCurlRequest` directly. -/
def modifyOrderTask (ctx : CallContext) (orderId : Bytes) (newPrice amount : Double)
    (s : OrderAPI) (w : ω) : Outcome Bool × OrderAPI × ω :=
  match request L net ctx (modifyOrderUrl orderId newPrice amount) s w with
  | (.error f, s, w) => (.error f, s, w)
  | (.ok none, s, w) => (.ok false, s, w)
  | (.ok (some readBuffer), s, w) =>
      match modifyDecision L readBuffer with
      | .error f => (.error f, s, w)
      | .ok none => (.ok false, s, w)
      | .ok (some order) => (.ok true, s.storeOrder ctx.node orderId order, w)

def modifyOrder (ctx : CallContext) (orderId : Bytes) (newPrice amount : Double)
    (s : OrderAPI) (w : ω) : Outcome Bool × OrderAPI × ω :=
  let (result, s, w) := modifyOrderTask L net ctx orderId newPrice amount s w
  (executeAsyncTask result, s, w)

/-- The three steps of `getOrderBookData` after its transfer; null is the empty result. -/
def orderBookReply (readBuffer : Bytes) : Outcome Json := do
  match ← readResponse L (orderBookBody readBuffer) with
  | none => return .null
  | some (success, document) =>
      if !success || !document.isObject then return .null
      else if ← document.hasMember (bytes "result") then
        return rapidjsonToNlohmannJson document
      else return .null

def getOrderBookData (ctx : CallContext) (symbol : Bytes) (s : OrderAPI) (w : ω) :
    Outcome Json × OrderAPI × ω :=
  let r := performAsyncCurlRequest net s.curlManager (orderBookUrl symbol) [] ctx.readBuffer [] w
  let s := { s with curlManager := r.manager }
  if r.success then (orderBookReply L r.response, s, r.world) else (.ok .null, s, r.world)

end OrderAPI
end DeribitTrading
