import DeribitTrading.Client.Calls

/-!
What the store holds after an acknowledged call. Both store effects are read
off the pool they find: an exhausted pool makes an accepted placing or
modifying a call that returns true and stores nothing.
-/
namespace DeribitTrading
open ByteString Rapidjson Nlohmann Runs

namespace OrderAPI

theorem storeOrder_of_exhausted {s : OrderAPI} (exhausted : s.orderPool.freeBlocks = [])
    (node : Addr) (orderId : Bytes) (order : Value) :
    SameStore s (s.storeOrder node orderId order) := by
  simp only [storeOrder, MemoryPool.allocate_nil exhausted]
  exact ⟨rfl, rfl, rfl⟩

theorem storeOrder_of_free {s : OrderAPI} {ptr : Addr} {rest : List Addr}
    (free : s.orderPool.freeBlocks = ptr :: rest) (node : Addr) (orderId : Bytes)
    (order : Value) :
    s.storeOrder node orderId order =
      { s with
        orderPool := { s.orderPool with freeBlocks := rest }
        orders := s.orders.insert orderId ((s.orders.lookup orderId).getD node)
        heap :=
          Function.update
            (Function.update s.heap ptr (rapidjsonToNlohmannJson order))
            ((s.orders.lookup orderId).getD node) (rapidjsonToNlohmannJson order) } := by
  simp only [storeOrder, MemoryPool.allocate_cons free, Function.update_self]

theorem storeOrder_freeBlocks (node : Addr) (orderId : Bytes) (order : Value) (s : OrderAPI) :
    (s.storeOrder node orderId order).orderPool.freeBlocks = s.orderPool.freeBlocks.tail := by
  rcases free : s.orderPool.freeBlocks with _ | ⟨ptr, rest⟩
  · rw [(storeOrder_of_exhausted free node orderId order).orderPool, free]
    rfl
  · rw [storeOrder_of_free free]
    rfl

/-- With a block to spare, the entry holds the conversion of the order, wherever
the pool and the allocator have put things. -/
theorem stored_storeOrder {s : OrderAPI} (free : s.orderPool.freeBlocks ≠ []) (node : Addr)
    (orderId : Bytes) (order : Value) :
    (s.storeOrder node orderId order).stored orderId = some (rapidjsonToNlohmannJson order) := by
  obtain ⟨ptr, rest, split⟩ := List.exists_cons_of_ne_nil free
  rw [storeOrder_of_free split]
  simp only [stored, AList.lookup_insert, Option.map_some, Function.update_self]

theorem lookup_storeOrder_ne {orderId other : Bytes} (different : other ≠ orderId) (node : Addr)
    (order : Value) (s : OrderAPI) :
    (s.storeOrder node orderId order).orders.lookup other = s.orders.lookup other := by
  rcases free : s.orderPool.freeBlocks with _ | ⟨ptr, rest⟩
  · rw [(storeOrder_of_exhausted free node orderId order).orders]
  · rw [storeOrder_of_free free]
    exact AList.lookup_insert_ne different

theorem lookup_dropOrder (orderId : Bytes) (s : OrderAPI) :
    (s.dropOrder orderId).orders.lookup orderId = none := by
  unfold dropOrder
  split
  · exact AList.lookup_erase orderId s.orders
  · assumption

theorem dropOrder_of_absent {orderId : Bytes} {s : OrderAPI}
    (absent : s.orders.lookup orderId = none) : s.dropOrder orderId = s := by
  simp only [dropOrder, absent]

theorem dropOrder_of_present {orderId : Bytes} {s : OrderAPI} {entry : Addr}
    (present : s.orders.lookup orderId = some entry) :
    s.dropOrder orderId =
      { s with
        orderPool := s.orderPool.deallocate entry
        orders := s.orders.erase orderId } := by
  simp only [dropOrder, present]

theorem SameStore.stored {s t : OrderAPI} (same : SameStore s t) (orderId : Bytes) :
    t.stored orderId = s.stored orderId := by
  simp only [OrderAPI.stored, same.orders, same.heap]

end OrderAPI

open OrderAPI

/-- `order` is `result.order` of the document that the response carries. -/
def ResultOrder (L : Libraries) (readBuffer : Bytes) (order : Value) : Prop :=
  ∃ document result,
    readResponse L (extractBody readBuffer) = .ok (some (true, document)) ∧
    document.member (bytes "result") = .ok result ∧ result.member (bytes "order") = .ok order

theorem placeReply_eq_some {success : Bool} {document : Value} {orderId : Bytes} {order : Value}
    (accepted : placeReply success document = .ok (some (orderId, order))) :
    success = true ∧ ∃ result id, document.member (bytes "result") = .ok result ∧
      result.member (bytes "order") = .ok order ∧ order.member (bytes "order_id") = .ok id ∧
      id.getString = .ok orderId := by
  obtain ⟨found, asked, accepted⟩ := bind_eq_ok_iff.mp accepted
  cases found with
  | true =>
      obtain ⟨result, read, accepted⟩ := bind_eq_ok_iff.mp accepted
      obtain ⟨order', member, accepted⟩ := bind_eq_ok_iff.mp accepted
      obtain ⟨named, _, accepted⟩ := bind_eq_ok_iff.mp accepted
      cases named with
      | true =>
          obtain ⟨id, there, accepted⟩ := bind_eq_ok_iff.mp accepted
          obtain ⟨text, spelled, accepted⟩ := bind_eq_ok_iff.mp accepted
          cases accepted
          refine ⟨?_, result, id, read, member, there, spelled⟩
          split at asked
          · simp_all
          · cases asked
      | false => cases accepted
  | false =>
      obtain ⟨failed, _, accepted⟩ := bind_eq_ok_iff.mp accepted
      cases failed with
      | true =>
          obtain ⟨_, _, accepted⟩ := bind_eq_ok_iff.mp accepted
          cases accepted
      | false => cases accepted

theorem isFailure_eq_false {success : Bool} {document : Value}
    (fine : isFailure success document = .ok false) :
    success = true ∧ document.hasMember (bytes "error") = .ok false := by
  unfold isFailure at fine
  split at fine
  · cases fine
  · simp_all

theorem modifyReply_eq_some {success : Bool} {document order : Value}
    (accepted : modifyReply success document = .ok (some order)) :
    success = true ∧ ∃ result, document.member (bytes "result") = .ok result ∧
      result.member (bytes "order") = .ok order := by
  obtain ⟨failed, asked, accepted⟩ := bind_eq_ok_iff.mp accepted
  cases failed with
  | true =>
      obtain ⟨_, _, accepted⟩ := bind_eq_ok_iff.mp accepted
      cases accepted
  | false =>
      obtain ⟨result, read, accepted⟩ := bind_eq_ok_iff.mp accepted
      obtain ⟨present, _, accepted⟩ := bind_eq_ok_iff.mp accepted
      cases present with
      | true =>
          obtain ⟨order', member, accepted⟩ := bind_eq_ok_iff.mp accepted
          cases accepted
          exact ⟨(isFailure_eq_false asked).1, result, read, member⟩
      | false => cases accepted

theorem placeDecision_resultOrder {L : Libraries} {readBuffer orderId : Bytes} {order : Value}
    (accepted : placeDecision L readBuffer = .ok (some (orderId, order))) :
    ResultOrder L readBuffer order := by
  obtain ⟨document, read, accepted⟩ := bind_eq_ok_iff.mp accepted
  cases document with
  | none => cases accepted
  | some parsed =>
      obtain ⟨success, document⟩ := parsed
      obtain ⟨rfl, result, _, member, found, _⟩ := placeReply_eq_some accepted
      exact ⟨document, result, read, member, found⟩

theorem modifyDecision_resultOrder {L : Libraries} {readBuffer : Bytes} {order : Value}
    (accepted : modifyDecision L readBuffer = .ok (some order)) :
    ResultOrder L readBuffer order := by
  obtain ⟨document, read, accepted⟩ := bind_eq_ok_iff.mp accepted
  cases document with
  | none => cases accepted
  | some parsed =>
      obtain ⟨success, document⟩ := parsed
      obtain ⟨rfl, result, member, found⟩ := modifyReply_eq_some accepted
      exact ⟨document, result, read, member, found⟩

/-- Placing and modifying take a block of the pool; cancelling does not. -/
def Call.takesBlock : Call → Bool
  | .placeMarketOrder _ _ _ _ | .placeLimitOrder _ _ _ _ | .modifyOrder _ _ _ => true
  | .cancelOrder _ => false

theorem Call.effect_cases {L : Libraries} {c : Call} {readBuffer : Bytes} {e : StoreEffect}
    (accepted : c.effect L readBuffer = .ok (some e)) :
    (c.takesBlock = true ∧
      ∃ id order, e = .store id order ∧ ResultOrder L readBuffer order) ∨
    (c = .cancelOrder c.orderId ∧ e = .drop c.orderId) := by
  cases c with
  | placeMarketOrder _ _ _ _ | placeLimitOrder _ _ _ _ =>
      obtain ⟨id, order, same, decided⟩ := placeEffect_eq_some accepted
      exact .inl ⟨rfl, id, order, same, placeDecision_resultOrder decided⟩
  | modifyOrder orderId _ _ =>
      obtain ⟨order, same, decided⟩ := modifyEffect_eq_some accepted
      exact .inl ⟨rfl, orderId, order, same, modifyDecision_resultOrder decided⟩
  | cancelOrder orderId => exact .inr ⟨rfl, (cancelEffect_eq_some accepted).1⟩

/-- The blocks that a run has taken so far, as long as none has come back. -/
def blocksTaken (s : OrderAPI) : Nat := 100 - s.orderPool.freeBlocks.length

theorem blocksTaken_step {L : Libraries} (s : OrderAPI) (i : Input) (t : OrderAPI)
    (taken : Calls L s i t) :
    blocksTaken t ≤ blocksTaken s + (if i.call.takesBlock then 1 else 0) := by
  unfold blocksTaken
  rcases taken.cases with ⟨same, _⟩ | ⟨e, ⟨readBuffer, _, decided⟩, applied⟩
  · rw [same.orderPool]
    omega
  · rw [applied.orderPool]
    rcases Call.effect_cases decided with ⟨takes, id, order, rfl, _⟩ | ⟨_, rfl⟩
    · rw [if_pos takes, StoreEffect.apply, storeOrder_freeBlocks, List.length_tail]
      omega
    · rcases entry : s.orders.lookup i.call.orderId with _ | entry
      · rw [StoreEffect.apply, dropOrder_of_absent entry]
        omega
      · rw [StoreEffect.apply, dropOrder_of_present entry]
        simp only [MemoryPool.deallocate, List.length_cons]
        omega

/-- A pool of a hundred blocks cannot be exhausted by fewer placings and modifyings. -/
theorem free_block_early {L : Libraries} {m : CurlConnectionManager} {tokens : TokenManager}
    {memory : Addr} {events : List Input} {s : OrderAPI}
    (run : Trace (Calls L) (create m tokens memory) events s)
    (early : (events.map fun i => if i.call.takesBlock then 1 else 0).sum < 100) :
    s.orderPool.freeBlocks ≠ [] := by
  have bound := run.bounded blocksTaken_step
  have start : blocksTaken (create m tokens memory) = 0 := by
    simp [blocksTaken, create, MemoryPool.create_freeBlocks_length]
  intro exhausted
  rw [start, blocksTaken, exhausted, List.length_nil] at bound
  omega

/-- How the store `t` reflects a call that returned true in the state `s`. -/
structure Reflects (L : Libraries) (s : OrderAPI) (i : Input) (id : Bytes) (t : OrderAPI) :
    Prop where
  stored : i.call.takesBlock = true → s.orderPool.freeBlocks ≠ [] →
    ∃ readBuffer order, (s.request L scripted i.ctx i.call.url i.transfers).1 =
        .ok (some readBuffer) ∧
      ResultOrder L readBuffer order ∧ t.stored id = some (rapidjsonToNlohmannJson order)
  exhausted : i.call.takesBlock = true → s.orderPool.freeBlocks = [] → SameStore s t
  dropped : ∀ orderId, i.call = .cancelOrder orderId → t.orders.lookup orderId = none

/-- The store reflects every acknowledged call of every run, up to the pool's
limit; before the hundred-and-first placing or modifying that limit is not reached. -/
theorem acknowledged_reflects (L : Libraries) (m : CurlConnectionManager)
    (tokens : TokenManager) (memory : Addr) {events : List Input} {s : OrderAPI}
    (run : Trace (Calls L) (create m tokens memory) events s) {i : Input} {id : Bytes}
    (returned : (i.perform L s).1 = .ok (true, id)) :
    Reflects L s i id (i.perform L s).2.1 ∧
      ((events.map fun j => if j.call.takesBlock then 1 else 0).sum < 100 →
        s.orderPool.freeBlocks ≠ []) := by
  refine ⟨?_, free_block_early run⟩
  rcases Call.perform_cases L scripted i.call i.ctx s i.transfers with
    ⟨_, rejected, _⟩ | ⟨e, ⟨readBuffer, arrived, decided⟩, answered, applied⟩
  · exact absurd returned (rejected id)
  · cases returned.symm.trans answered
    have applied : SameStore (e.apply i.ctx.node s) (i.perform L s).2.1 := by
      rw [show (i.perform L s).2.1 = _ from applied]
      exact (request_sameStore L scripted ..).apply i.ctx.node e
    rcases Call.effect_cases decided with ⟨takes, id, order, rfl, result⟩ | ⟨cancel, rfl⟩
    · refine ⟨fun _ free => ⟨readBuffer, order, arrived, result, ?_⟩, fun _ full => ?_, ?_⟩
      · rw [applied.stored]
        exact stored_storeOrder free i.ctx.node id order
      · have kept := storeOrder_of_exhausted full i.ctx.node id order
        exact ⟨applied.orderPool.trans kept.orderPool, applied.orders.trans kept.orders,
          applied.heap.trans kept.heap⟩
      · intro orderId same
        rw [same] at takes
        cases takes
    · refine ⟨fun takes => ?_, fun takes => ?_, ?_⟩
      · rw [cancel] at takes
        cases takes
      · rw [cancel] at takes
        cases takes
      · intro orderId same
        rw [applied.orders, same]
        exact lookup_dropOrder orderId s

def twoOrders : Libraries :=
  .ofTable [(placedText (bytes "A"), placedDocument (bytes "A")),
    (placedText (bytes "B"), placedDocument (bytes "B"))]

def placeIntact (orderId : Bytes) : Input :=
  .intact (.placeMarketOrder (bytes "BTC-PERPETUAL") (.finite false 10 0) (bytes "l") []) 64
    (okBuffer (placedText orderId))

theorem placeIntact_accepted {L : Libraries} {s : OrderAPI} (ready : s.Ready) (orderId : Bytes)
    (accepts : placeEffect L (okBuffer (placedText orderId)) =
      .ok (some (.store orderId (placedOrder orderId)))) :
    ((placeIntact orderId).perform L s).1 = .ok (true, orderId) ∧
      ∃ t, Calls L s (placeIntact orderId) t ∧
        SameStore (s.storeOrder 64 orderId (placedOrder orderId)) t ∧ t.Ready :=
  Calls.of_intact ready (.placeMarketOrder _ _ _ _) accepts 64

/-- The second of two placings is reflected; the pool has blocks to spare. -/
theorem second_placing_reflected :
    ∃ s, Trace (Calls twoOrders) sampleClient [placeIntact (bytes "A")] s ∧
      Reflects twoOrders s (placeIntact (bytes "B")) (bytes "B")
        ((placeIntact (bytes "B")).perform twoOrders s).2.1 ∧
      s.orderPool.freeBlocks ≠ [] := by
  obtain ⟨_, s, taken, _, ready⟩ :=
    placeIntact_accepted (L := twoOrders) sampleClient_ready (bytes "A") rfl
  obtain ⟨returned, _⟩ := placeIntact_accepted (L := twoOrders) ready (bytes "B") rfl
  have reflected := acknowledged_reflects twoOrders (.initializePool [some 0])
    (.create (bytes "id") (bytes "secret")) 4096 (.single taken) returned
  exact ⟨s, .single taken, reflected.1, reflected.2 (by decide)⟩

theorem placing_uses_blocks (n : Nat) :
    ∃ s, Trace (Calls twoOrders) sampleClient (List.replicate n (placeIntact (bytes "A"))) s ∧
      s.Ready ∧ s.orderPool.freeBlocks.length = 100 - n ∧
      s.orders.lookup (bytes "B") = none := by
  induction n with
  | zero =>
      exact ⟨sampleClient, .nil _, sampleClient_ready,
        MemoryPool.create_freeBlocks_length _ _ _, rfl⟩
  | succ n ih =>
      obtain ⟨s, run, ready, blocks, absent⟩ := ih
      obtain ⟨_, t, taken, applied, next⟩ :=
        placeIntact_accepted (L := twoOrders) ready (bytes "A") rfl
      refine ⟨t, ?_, next, ?_, ?_⟩
      · rw [List.replicate_succ']
        exact run.snoc taken
      · rw [applied.orderPool, storeOrder_freeBlocks, List.length_tail, blocks]
        omega
      · rw [applied.orders, lookup_storeOrder_ne (by decide)]
        exact absent

/-- After a hundred placings of one order the next order is acknowledged, not stored. -/
theorem acknowledged_not_stored :
    ∃ s, Trace (Calls twoOrders) sampleClient (List.replicate 100 (placeIntact (bytes "A"))) s ∧
      ((placeIntact (bytes "B")).perform twoOrders s).1 = .ok (true, bytes "B") ∧
      ((placeIntact (bytes "B")).perform twoOrders s).2.1.stored (bytes "B") = none := by
  obtain ⟨s, run, ready, blocks, absent⟩ := placing_uses_blocks 100
  have full : s.orderPool.freeBlocks = [] := List.eq_nil_of_length_eq_zero blocks
  obtain ⟨returned, t, taken, applied, _⟩ :=
    placeIntact_accepted (L := twoOrders) ready (bytes "B") rfl
  have kept := storeOrder_of_exhausted full 64 (bytes "B") (placedOrder (bytes "B"))
  refine ⟨s, run, returned, ?_⟩
  rw [← taken.result, applied.stored, kept.stored, stored, absent]
  rfl

end DeribitTrading
