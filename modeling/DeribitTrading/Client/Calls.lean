import DeribitTrading.Client.OrderApi
import DeribitTrading.Library.Runs

/-!
The calls of `OrderAPI` that touch the store, brought to one shape: a request, a
decision on its response, and the store effect of an accepted response. Every
property of the store follows from this shape and from the two store effects.
-/
namespace DeribitTrading
open ByteString Numbers Rapidjson Nlohmann

inductive Call where
  | placeMarketOrder (instrument : Bytes) (quantity : Double) (label orderId : Bytes)
  | placeLimitOrder (instrument : Bytes) (quantity price : Double) (orderId : Bytes)
  | modifyOrder (orderId : Bytes) (newPrice amount : Double)
  | cancelOrder (orderId : Bytes)

/-- What an accepted response does to the store. -/
inductive StoreEffect where
  | store (orderId : Bytes) (order : Value)
  | drop (orderId : Bytes)

namespace StoreEffect

def orderId : StoreEffect → Bytes
  | .store id _ => id
  | .drop id => id

def apply (node : Addr) (s : OrderAPI) : StoreEffect → OrderAPI
  | .store id order => s.storeOrder node id order
  | .drop id => s.dropOrder id

end StoreEffect

section
variable {ω : Type} (L : Libraries) (net : Network ω)

def placeEffect (readBuffer : Bytes) : Outcome (Option StoreEffect) :=
  (placeDecision L readBuffer).map (Option.map fun accepted => .store accepted.1 accepted.2)

def modifyEffect (orderId readBuffer : Bytes) : Outcome (Option StoreEffect) :=
  (modifyDecision L readBuffer).map (Option.map (.store orderId))

def cancelEffect (orderId readBuffer : Bytes) : Outcome (Option StoreEffect) :=
  (cancelDecision L readBuffer).map fun closed => if closed then some (.drop orderId) else none

namespace OrderAPI

/-- The common shape: nothing but an accepted response reaches the store. -/
def operate (ctx : CallContext) (url : Bytes) (effect : Bytes → Outcome (Option StoreEffect))
    (s : OrderAPI) (w : ω) : Outcome (Option StoreEffect) × OrderAPI × ω :=
  match request L net ctx url s w with
  | (.error f, s, w) => (.error f, s, w)
  | (.ok none, s, w) => (.ok none, s, w)
  | (.ok (some readBuffer), s, w) =>
      match effect readBuffer with
      | .error f => (.error f, s, w)
      | .ok none => (.ok none, s, w)
      | .ok (some e) => (.ok (some e), e.apply ctx.node s, w)

end OrderAPI

/-- What the caller is told: the result and the order id it then holds. -/
def answer (orderId : Bytes) : Option StoreEffect → Bool × Bytes
  | none => (false, orderId)
  | some e => (true, e.orderId)

namespace Call

def url : Call → Bytes
  | .placeMarketOrder instrument quantity label _ =>
      placeOrderUrl instrument quantity (.finite false 0 0) label (bytes "market")
  | .placeLimitOrder instrument quantity price _ =>
      placeOrderUrl instrument quantity price (bytes "limit_order") (bytes "limit")
  | .modifyOrder orderId newPrice amount => modifyOrderUrl orderId newPrice amount
  | .cancelOrder orderId => cancelOrderUrl orderId

/-- The order id the caller holds before the call. -/
def orderId : Call → Bytes
  | .placeMarketOrder _ _ _ orderId => orderId
  | .placeLimitOrder _ _ _ orderId => orderId
  | .modifyOrder orderId _ _ => orderId
  | .cancelOrder orderId => orderId

def effect : Call → Bytes → Outcome (Option StoreEffect)
  | .placeMarketOrder _ _ _ _ | .placeLimitOrder _ _ _ _ => placeEffect L
  | .modifyOrder orderId _ _ => modifyEffect L orderId
  | .cancelOrder orderId => cancelEffect L orderId

/-- Modifying and cancelling run on a worker of the pool. -/
def deliver : Call → Outcome (Option StoreEffect) → Outcome (Option StoreEffect)
  | .placeMarketOrder _ _ _ _ | .placeLimitOrder _ _ _ _ => id
  | .modifyOrder _ _ _ | .cancelOrder _ => executeAsyncTask

/-- The call itself, as the program makes it. -/
def perform (ctx : CallContext) (s : OrderAPI) (w : ω) :
    Call → Outcome (Bool × Bytes) × OrderAPI × ω
  | .placeMarketOrder instrument quantity label orderId =>
      s.placeMarketOrder L net ctx instrument quantity label orderId w
  | .placeLimitOrder instrument quantity price orderId =>
      s.placeLimitOrder L net ctx instrument quantity price orderId w
  | .modifyOrder orderId newPrice amount =>
      let (result, s, w) := s.modifyOrder L net ctx orderId newPrice amount w
      (result.map fun b => (b, orderId), s, w)
  | .cancelOrder orderId =>
      let (result, s, w) := s.cancelOrder L net ctx orderId w
      (result.map fun b => (b, orderId), s, w)

end Call

variable {L net}

theorem placeOrder_eq (ctx : CallContext) (instrument : Bytes) (quantity price : Double)
    (label orderId orderType : Bytes) (s : OrderAPI) (w : ω) :
    s.placeOrder L net ctx instrument quantity price label orderId orderType w =
      let r := s.operate L net ctx (placeOrderUrl instrument quantity price label orderType)
        (placeEffect L) w
      (r.1.map (answer orderId), r.2) := by
  unfold OrderAPI.placeOrder OrderAPI.operate placeEffect
  rcases s.request L net ctx (placeOrderUrl instrument quantity price label orderType) w with
    ⟨_ | _ | readBuffer, s, w⟩
  · rfl
  · rfl
  · rcases decided : placeDecision L readBuffer with f | _ | accepted <;>
      simp only [decided] <;> rfl

theorem modifyOrderTask_eq (ctx : CallContext) (orderId : Bytes) (newPrice amount : Double)
    (s : OrderAPI) (w : ω) :
    s.modifyOrderTask L net ctx orderId newPrice amount w =
      let r := s.operate L net ctx (modifyOrderUrl orderId newPrice amount)
        (modifyEffect L orderId) w
      (r.1.map Option.isSome, r.2) := by
  unfold OrderAPI.modifyOrderTask OrderAPI.operate modifyEffect
  rcases s.request L net ctx (modifyOrderUrl orderId newPrice amount) w with
    ⟨_ | _ | readBuffer, s, w⟩
  · rfl
  · rfl
  · rcases decided : modifyDecision L readBuffer with f | _ | order <;>
      simp only [decided] <;> rfl

theorem cancelOrderRequest_eq (ctx : CallContext) (orderId : Bytes) (s : OrderAPI) (w : ω) :
    s.cancelOrderRequest L net ctx orderId w =
      let r := s.operate L net ctx (cancelOrderUrl orderId) (cancelEffect L orderId) w
      (r.1.map Option.isSome, r.2) := by
  unfold OrderAPI.cancelOrderRequest OrderAPI.operate cancelEffect
  rcases s.request L net ctx (cancelOrderUrl orderId) w with ⟨_ | _ | readBuffer, s, w⟩
  · rfl
  · rfl
  · rcases decided : cancelDecision L readBuffer with f | _ | _ <;>
      simp only [decided] <;> rfl

theorem executeAsyncTask_eq_ok_iff {α : Type} (task : Outcome α) (a : α) :
    executeAsyncTask task = .ok a ↔ task = .ok a := by
  cases task <;> simp [executeAsyncTask]

theorem Call.deliver_eq_ok_iff (c : Call) (r : Outcome (Option StoreEffect))
    (e : Option StoreEffect) : c.deliver r = .ok e ↔ r = .ok e := by
  cases c <;> simp only [Call.deliver, id, executeAsyncTask_eq_ok_iff]

/-- An effect on the order that the caller names leaves the caller's id as it is. -/
theorem executeAsyncTask_answer {orderId : Bytes} {r : Outcome (Option StoreEffect)}
    (same : ∀ e, r = .ok (some e) → e.orderId = orderId) :
    ((executeAsyncTask (r.map Option.isSome)).map fun b => (b, orderId)) =
      (executeAsyncTask r).map (answer orderId) := by
  rcases r with f | _ | e
  · rfl
  · rfl
  · show Except.ok (true, orderId) = Except.ok (true, e.orderId)
    rw [same e rfl]

theorem modifyEffect_eq_some {orderId readBuffer : Bytes} {e : StoreEffect}
    (accepted : modifyEffect L orderId readBuffer = .ok (some e)) :
    ∃ order, e = .store orderId order ∧ modifyDecision L readBuffer = .ok (some order) := by
  unfold modifyEffect at accepted
  generalize modifyDecision L readBuffer = decision at accepted ⊢
  rcases decision with f | _ | order
  · cases accepted
  · cases accepted
  · cases accepted
    exact ⟨order, rfl, rfl⟩

theorem cancelEffect_eq_some {orderId readBuffer : Bytes} {e : StoreEffect}
    (accepted : cancelEffect L orderId readBuffer = .ok (some e)) :
    e = .drop orderId ∧ cancelDecision L readBuffer = .ok true := by
  unfold cancelEffect at accepted
  generalize cancelDecision L readBuffer = decision at accepted ⊢
  rcases decision with f | _ | _
  · cases accepted
  · cases accepted
  · cases accepted
    exact ⟨rfl, rfl⟩

theorem placeEffect_eq_some {readBuffer : Bytes} {e : StoreEffect}
    (accepted : placeEffect L readBuffer = .ok (some e)) :
    ∃ orderId order, e = .store orderId order ∧
      placeDecision L readBuffer = .ok (some (orderId, order)) := by
  unfold placeEffect at accepted
  generalize placeDecision L readBuffer = decision at accepted ⊢
  rcases decision with f | _ | ⟨orderId, order⟩
  · cases accepted
  · cases accepted
  · cases accepted
    exact ⟨orderId, order, rfl, rfl⟩

namespace OrderAPI

/-- The two states hold the same orders in the same pool. -/
structure SameStore (s t : OrderAPI) : Prop where
  orderPool : t.orderPool = s.orderPool
  orders : t.orders = s.orders
  heap : t.heap = s.heap

variable (L net) in
theorem request_sameStore (ctx : CallContext) (url : Bytes) (s : OrderAPI) (w : ω) :
    SameStore s (s.request L net ctx url w).2.1 := by
  unfold request
  split <;> exact ⟨rfl, rfl, rfl⟩

variable (L net) in
/-- Everything an operation can do: leave the store alone, or apply an accepted effect. -/
theorem operate_cases (ctx : CallContext) (url : Bytes)
    (effect : Bytes → Outcome (Option StoreEffect)) (s : OrderAPI) (w : ω) :
    (SameStore s (s.operate L net ctx url effect w).2.1 ∧
      (∀ e, (s.operate L net ctx url effect w).1 ≠ .ok (some e)) ∧
      ∀ readBuffer e, (s.request L net ctx url w).1 = .ok (some readBuffer) →
        effect readBuffer ≠ .ok (some e)) ∨
    ∃ readBuffer e, (s.request L net ctx url w).1 = .ok (some readBuffer) ∧
      effect readBuffer = .ok (some e) ∧
      s.operate L net ctx url effect w =
        (.ok (some e), e.apply ctx.node (s.request L net ctx url w).2.1,
          (s.request L net ctx url w).2.2) := by
  have same := request_sameStore L net ctx url s w
  unfold operate
  generalize s.request L net ctx url w = r at same ⊢
  obtain ⟨outcome, s', w'⟩ := r
  rcases outcome with f | _ | readBuffer
  · exact .inl ⟨same, by simp, by simp⟩
  · exact .inl ⟨same, by simp, by simp⟩
  · rcases decided : effect readBuffer with f | _ | e
    · refine .inl ⟨?_, ?_, ?_⟩
      · simpa only [decided] using same
      · simp [decided]
      · rintro _ e ⟨rfl⟩
        simp [decided]
    · refine .inl ⟨?_, ?_, ?_⟩
      · simpa only [decided] using same
      · simp [decided]
      · rintro _ e ⟨rfl⟩
        simp [decided]
    · exact .inr ⟨readBuffer, e, rfl, decided, by simp only [decided]⟩

theorem SameStore.apply {s t : OrderAPI} (same : SameStore s t) (node : Addr)
    (e : StoreEffect) : SameStore (e.apply node s) (e.apply node t) := by
  obtain ⟨pool, orders, heap⟩ := same
  cases e with
  | store orderId order =>
      simp only [StoreEffect.apply, storeOrder, pool, orders, heap]
      split <;> exact ⟨rfl, rfl, rfl⟩
  | drop orderId =>
      simp only [StoreEffect.apply, dropOrder, orders]
      split
      · exact ⟨by rw [pool], rfl, heap⟩
      · exact ⟨pool, orders, heap⟩

/-- The response that a call gets to see accepts it, with this effect. -/
def Accepted (L : Libraries) (net : Network ω) (ctx : CallContext) (c : Call) (s : OrderAPI)
    (w : ω) (e : StoreEffect) : Prop :=
  ∃ readBuffer, (s.request L net ctx c.url w).1 = .ok (some readBuffer) ∧
    c.effect L readBuffer = .ok (some e)

theorem Accepted.unique {ctx : CallContext} {c : Call} {s : OrderAPI} {w : ω}
    {e e' : StoreEffect} (accepted : Accepted L net ctx c s w e)
    (other : Accepted L net ctx c s w e') : e = e' := by
  obtain ⟨readBuffer, arrived, decided⟩ := accepted
  obtain ⟨readBuffer', arrived', decided'⟩ := other
  cases arrived.symm.trans arrived'
  cases decided.symm.trans decided'
  rfl

theorem operate_effect {ctx : CallContext} {url : Bytes}
    {effect : Bytes → Outcome (Option StoreEffect)} {s : OrderAPI} {w : ω} {e : StoreEffect}
    (accepted : (s.operate L net ctx url effect w).1 = .ok (some e)) :
    ∃ readBuffer, effect readBuffer = .ok (some e) := by
  rcases operate_cases L net ctx url effect s w with
    ⟨_, rejected, _⟩ | ⟨readBuffer, e', _, decided, taken⟩
  · exact absurd accepted (rejected e)
  · rw [taken] at accepted
    cases accepted
    exact ⟨readBuffer, decided⟩

end OrderAPI

open OrderAPI

namespace Call

theorem perform_eq (ctx : CallContext) (s : OrderAPI) (w : ω) (c : Call) :
    c.perform L net ctx s w =
      let r := s.operate L net ctx c.url (c.effect L) w
      ((c.deliver r.1).map (answer c.orderId), r.2) := by
  cases c with
  | placeMarketOrder instrument quantity label orderId => exact placeOrder_eq ..
  | placeLimitOrder instrument quantity price orderId => exact placeOrder_eq ..
  | modifyOrder orderId newPrice amount =>
      simp only [perform, OrderAPI.modifyOrder, modifyOrderTask_eq]
      refine Prod.ext (executeAsyncTask_answer ?_) rfl
      intro e accepted
      obtain ⟨_, decided⟩ := operate_effect accepted
      obtain ⟨_, rfl, _⟩ := modifyEffect_eq_some decided
      rfl
  | cancelOrder orderId =>
      simp only [perform, OrderAPI.cancelOrder, cancelOrderRequest_eq]
      refine Prod.ext (executeAsyncTask_answer ?_) rfl
      intro e accepted
      obtain ⟨_, decided⟩ := operate_effect accepted
      rw [(cancelEffect_eq_some decided).1]
      rfl

variable (L net) in
/-- A call does not return true and leaves the store alone, or it was accepted,
returns true and has had its effect. -/
theorem perform_cases (c : Call) (ctx : CallContext) (s : OrderAPI) (w : ω) :
    (SameStore s (c.perform L net ctx s w).2.1 ∧
      (∀ id, (c.perform L net ctx s w).1 ≠ .ok (true, id)) ∧
      ∀ e, ¬ Accepted L net ctx c s w e) ∨
    ∃ e, Accepted L net ctx c s w e ∧
      (c.perform L net ctx s w).1 = .ok (true, e.orderId) ∧
      (c.perform L net ctx s w).2.1 = e.apply ctx.node (s.request L net ctx c.url w).2.1 := by
  rw [perform_eq]
  rcases operate_cases L net ctx c.url (c.effect L) s w with
    ⟨same, rejected, refused⟩ | ⟨readBuffer, e, arrived, decided, taken⟩
  · refine .inl ⟨same, ?_, ?_⟩
    · intro id accepted
      rcases delivered : c.deliver (s.operate L net ctx c.url (c.effect L) w).1 with f | _ | e
      · simp [delivered, Except.map] at accepted
      · simp [delivered, Except.map, answer] at accepted
      · exact rejected e ((deliver_eq_ok_iff ..).mp delivered)
    · rintro e ⟨readBuffer, arrived, decided⟩
      exact refused readBuffer e arrived decided
  · refine .inr ⟨e, ⟨readBuffer, arrived, decided⟩, ?_, ?_⟩
    · have delivered := (deliver_eq_ok_iff c (.ok (some e)) (some e)).mpr rfl
      simp only [taken, delivered]
      rfl
    · rw [taken]

end Call

/-- One call of a run: its arguments, its surroundings, and what the network does. -/
structure Input where
  call : Call
  ctx : CallContext
  transfers : List Transfer

namespace Input

def perform (L : Libraries) (i : Input) (s : OrderAPI) :
    Outcome (Bool × Bytes) × OrderAPI × List Transfer :=
  i.call.perform L scripted i.ctx s i.transfers

/-- The state after a call; an exception leaves a state, a fatal fault does not. -/
def next (L : Libraries) (i : Input) (s : OrderAPI) : Option OrderAPI :=
  match (i.perform L s).1 with
  | .ok _ => some (i.perform L s).2.1
  | .error f => if f.fatal then none else some (i.perform L s).2.1

def Accepts (L : Libraries) (s : OrderAPI) (i : Input) (e : StoreEffect) : Prop :=
  Accepted L scripted i.ctx i.call s i.transfers e

end Input

/-- The step relation of the client's runs. -/
def Calls (L : Libraries) (s : OrderAPI) (i : Input) (t : OrderAPI) : Prop :=
  i.next L s = some t

theorem Calls.functional (s : OrderAPI) (i : Input) (t t' : OrderAPI)
    (taken : Calls L s i t) (other : Calls L s i t') : t = t' :=
  Option.some.inj (taken.symm.trans other)

theorem Calls.result {s t : OrderAPI} {i : Input} (taken : Calls L s i t) :
    t = (i.perform L s).2.1 := by
  unfold Calls Input.next at taken
  split at taken
  · exact (Option.some.inj taken).symm
  · split at taken
    · cases taken
    · exact (Option.some.inj taken).symm

/-- Everything one step of a run can do to the store. -/
theorem Calls.cases {s t : OrderAPI} {i : Input} (taken : Calls L s i t) :
    (SameStore s t ∧ ∀ e, ¬ i.Accepts L s e) ∨
      ∃ e, i.Accepts L s e ∧ SameStore (e.apply i.ctx.node s) t := by
  rw [taken.result]
  rcases i.call.perform_cases L scripted i.ctx s i.transfers with
    ⟨same, _, refused⟩ | ⟨e, accepted, _, applied⟩
  · exact .inl ⟨same, refused⟩
  · refine .inr ⟨e, accepted, ?_⟩
    rw [show (i.perform L s).2.1 = _ from applied]
    exact (request_sameStore L scripted ..).apply i.ctx.node e

end

/-- A parser that knows these documents and no other. -/
def Libraries.ofTable (documents : List (Bytes × Value)) : Libraries where
  rapidParse := fun text => (documents.find? fun d => d.1 == text).map Prod.snd
  nlohmannParse := fun _ => none
  dump := fun _ => []
  gunzip := Streaming.Codec.idle
  deflate := Streaming.Codec.idle

/-- No token endpoint, and a place for a new map node. -/
def intactContext (node : Addr) : CallContext where
  token := { check := 0, done := 0, fetch := fun _ => .noHandle }
  readBuffer := 0
  node := node

/-- A call whose one transfer goes well. -/
def Input.intact (call : Call) (node : Addr) (readBuffer : Bytes) : Input where
  call := call
  ctx := intactContext node
  transfers := [⟨.ok, [readBuffer]⟩]

/-- A handle is free, and the token is still to be fetched. -/
structure OrderAPI.Ready (s : OrderAPI) : Prop where
  handle : s.curlManager.freeHandles ≠ []
  token : s.tokenManager.accessToken = []

/-- A client with one handle and no token yet. -/
def sampleClient : OrderAPI :=
  .create (.initializePool [some 0]) (.create (bytes "id") (bytes "secret")) 4096

theorem sampleClient_ready : sampleClient.Ready := ⟨List.cons_ne_nil _ _, rfl⟩

theorem OrderAPI.request_intact (L : Libraries) {s : OrderAPI} (ready : s.Ready) (call : Call)
    (node : Addr) (readBuffer url : Bytes) :
    (s.request L scripted (Input.intact call node readBuffer).ctx url
        (Input.intact call node readBuffer).transfers).1 = .ok (some readBuffer) ∧
      (s.request L scripted (Input.intact call node readBuffer).ctx url
        (Input.intact call node readBuffer).transfers).2.1.Ready := by
  obtain ⟨handle, token⟩ := ready
  obtain ⟨h, rest, free⟩ := List.exists_cons_of_ne_nil handle
  have fetched : s.tokenManager.getAccessToken L (Input.intact call node readBuffer).ctx.token =
      (.ok [], { s.tokenManager with accessToken := [], expiryTime := 0 + tokenLifetime }) := by
    simp only [TokenManager.getAccessToken, TokenManager.accessTokenAndFetch, token, or_true,
      if_true]
    rfl
  simp only [request, fetched, performAsyncCurlRequest, performCurlRequest,
    CurlConnectionManager.getCurlHandle, free]
  refine ⟨?_, ?_, rfl⟩
  · rfl
  · exact List.cons_ne_nil _ _

open OrderAPI

theorem StoreEffect.apply_ready (e : StoreEffect) {s : OrderAPI} (ready : s.Ready)
    (node : Addr) : (e.apply node s).Ready := by
  cases e with
  | store orderId order =>
      simp only [apply, storeOrder]
      split <;> exact ⟨ready.handle, ready.token⟩
  | drop orderId =>
      simp only [apply, dropOrder]
      split <;> exact ⟨ready.handle, ready.token⟩

/-- An accepting response that arrives intact has its effect, and leaves the
client ready for the next call. -/
theorem Calls.of_intact {L : Libraries} {s : OrderAPI} (ready : s.Ready) (call : Call)
    {readBuffer : Bytes} {e : StoreEffect} (decided : call.effect L readBuffer = .ok (some e))
    (node : Addr) :
    ((Input.intact call node readBuffer).perform L s).1 = .ok (true, e.orderId) ∧
      ∃ t, Calls L s (.intact call node readBuffer) t ∧ SameStore (e.apply node s) t ∧
        t.Ready := by
  obtain ⟨arrived, still⟩ := OrderAPI.request_intact L ready call node readBuffer call.url
  rcases Call.perform_cases L scripted call (Input.intact call node readBuffer).ctx s
      (Input.intact call node readBuffer).transfers with
    ⟨_, _, refused⟩ | ⟨e', accepted, returned, applied⟩
  · exact absurd ⟨readBuffer, arrived, decided⟩ (refused e)
  · cases accepted.unique ⟨readBuffer, arrived, decided⟩
    refine ⟨returned, _, ?_, (request_sameStore L scripted ..).apply node e,
      e.apply_ready still node⟩
    show Input.next L (Input.intact call node readBuffer) s = _
    unfold Input.next
    rw [show ((Input.intact call node readBuffer).perform L s).1 = _ from returned,
      show ((Input.intact call node readBuffer).perform L s).2.1 = _ from applied]
    rfl

/-- The answer to a placed order, with the header block in front. -/
def placedText (orderId : Bytes) : Bytes :=
  bytes "\x7b\"result\":\x7b\"order\":\x7b\"order_id\":\"" ++ orderId ++ bytes "\"\x7d\x7d\x7d"

def placedOrder (orderId : Bytes) : Value := .object [(bytes "order_id", .string orderId)]

def placedDocument (orderId : Bytes) : Value :=
  .object [(bytes "result", .object [(bytes "order", placedOrder orderId)])]

def okBuffer (text : Bytes) : Bytes := bytes "HTTP/2 200\r\n\r\n" ++ text

def oneOrder : Libraries := .ofTable [(placedText (bytes "A"), placedDocument (bytes "A"))]

example : placeEffect oneOrder (okBuffer (placedText (bytes "A"))) =
    .ok (some (.store (bytes "A") (placedOrder (bytes "A")))) := rfl

end DeribitTrading
