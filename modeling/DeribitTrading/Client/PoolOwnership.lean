import DeribitTrading.Client.Store

/-!
Who owns the blocks of the order pool. Only two kinds of steps break the
ownership invariant, and each breaks it always: an order that is stored over an
entry loses the entry's block, and a cancelled entry gives its map node to the
pool instead of a block.
-/
namespace DeribitTrading
open ByteString Rapidjson Nlohmann Runs OrderAPI

structure PoolInv (s : OrderAPI) : Prop where
  blocks : ∀ ptr ∈ s.orderPool.freeBlocks, s.orderPool.IsBlock ptr
  nodup : s.orderPool.freeBlocks.Nodup
  accounted : s.orderPool.freeBlocks.length + s.orders.keys.length = s.orderPool.blockCount

/-- The effects that keep blocks and entries in step. -/
def StoreEffect.Balanced (s : OrderAPI) : StoreEffect → Prop
  | .store orderId _ => orderId ∉ s.orders ∨ s.orderPool.freeBlocks = []
  | .drop orderId => orderId ∉ s.orders

/-- A call that is not accepted, or is accepted with a balanced effect. -/
def Balanced (L : Libraries) (s : OrderAPI) (i : Input) : Prop :=
  ∀ e, i.Accepts L s e → e.Balanced s

/-- The law of the allocator: a new map node does not overlap the pool's memory. -/
def AllocatesOutside (s : OrderAPI) (i : Input) : Prop := ¬ s.orderPool.IsBlock i.ctx.node

/-- No entry lies in the memory of the pool. -/
def NodesOutside (s : OrderAPI) : Prop :=
  ∀ orderId entry, s.orders.lookup orderId = some entry → ¬ s.orderPool.IsBlock entry

namespace OrderAPI

theorem SameStore.poolInv {s t : OrderAPI} (same : SameStore s t) : PoolInv t ↔ PoolInv s := by
  constructor
  · rintro ⟨blocks, nodup, accounted⟩
    simp only [same.orderPool, same.orders] at blocks nodup accounted
    exact ⟨blocks, nodup, accounted⟩
  · rintro ⟨blocks, nodup, accounted⟩
    constructor <;> simpa only [same.orderPool, same.orders]

theorem SameStore.nodesOutside {s t : OrderAPI} (same : SameStore s t)
    (outside : NodesOutside s) : NodesOutside t := by
  unfold NodesOutside
  rw [same.orders, same.orderPool]
  exact outside

theorem create_poolInv (m : CurlConnectionManager) (tokens : TokenManager) (memory : Addr) :
    PoolInv (create m tokens memory) where
  blocks := MemoryPool.create_isBlock memory sizeofJson 100
  nodup := MemoryPool.create_nodup memory (by decide) 100
  accounted := by
    rw [show (create m tokens memory).orderPool.freeBlocks.length = 100 from
      MemoryPool.create_freeBlocks_length memory sizeofJson 100]
    rfl

theorem keys_length_insert {α : Type} [DecidableEq α] {β : α → Type} (m : AList β) (a : α)
    (b : β a) :
    (m.insert a b).keys.length = if a ∈ m then m.keys.length else m.keys.length + 1 := by
  rw [AList.keys_insert, List.length_cons]
  split
  · rename_i present
    have positive := List.length_pos_of_mem (AList.mem_keys.mp present)
    rw [List.length_erase_of_mem (AList.mem_keys.mp present)]
    omega
  · rename_i absent
    rw [List.erase_of_not_mem fun member => absent (AList.mem_keys.mpr member)]

/-- Storing keeps the invariant exactly when it opens a new entry, or finds no block. -/
theorem storeOrder_poolInv {s : OrderAPI} (inv : PoolInv s) (node : Addr) (orderId : Bytes)
    (order : Value) :
    PoolInv (s.storeOrder node orderId order) ↔
      orderId ∉ s.orders ∨ s.orderPool.freeBlocks = [] := by
  rcases free : s.orderPool.freeBlocks with _ | ⟨ptr, rest⟩
  · simpa only [(storeOrder_of_exhausted free node orderId order).poolInv, or_true, iff_true]
  · obtain ⟨blocks, nodup, accounted⟩ := inv
    rw [free] at blocks nodup accounted
    rw [storeOrder_of_free free]
    simp only [List.cons_ne_nil, or_false]
    constructor
    · rintro ⟨_, _, balance⟩ present
      simp only [keys_length_insert, if_pos present] at balance
      simp only [List.length_cons] at accounted
      omega
    · intro absent
      refine ⟨?_, (List.nodup_cons.mp nodup).2, ?_⟩
      · intro p member
        exact blocks p (List.mem_cons_of_mem ptr member)
      · simp only [keys_length_insert, if_neg absent]
        simp only [List.length_cons] at accounted
        omega

/-- Dropping an entry that lies outside the pool never keeps the invariant. -/
theorem dropOrder_poolInv {s : OrderAPI} (outside : NodesOutside s) {orderId : Bytes}
    (inv : PoolInv (s.dropOrder orderId)) : orderId ∉ s.orders := by
  rcases present : s.orders.lookup orderId with _ | entry
  · exact AList.lookup_eq_none.mp present
  · rw [dropOrder_of_present present] at inv
    exact absurd (inv.blocks entry List.mem_cons_self) (outside orderId entry present)

theorem nodesOutside_apply {s : OrderAPI} (outside : NodesOutside s) {node : Addr}
    (free_node : ¬ s.orderPool.IsBlock node) (e : StoreEffect) :
    NodesOutside (e.apply node s) := by
  cases e with
  | store id order =>
      rcases free : s.orderPool.freeBlocks with _ | ⟨ptr, rest⟩
      · exact (storeOrder_of_exhausted free node id order).nodesOutside outside
      · rw [StoreEffect.apply, storeOrder_of_free free]
        intro orderId entry found
        by_cases same : orderId = id
        · subst same
          rw [AList.lookup_insert, Option.some.injEq] at found
          subst found
          rcases old : s.orders.lookup orderId with _ | entry
          · exact free_node
          · exact outside orderId entry old
        · rw [AList.lookup_insert_ne same] at found
          exact outside orderId entry found
  | drop id =>
      rcases present : s.orders.lookup id with _ | entry
      · rw [StoreEffect.apply, dropOrder_of_absent present]
        exact outside
      · rw [StoreEffect.apply, dropOrder_of_present present]
        intro orderId entry found
        by_cases same : orderId = id
        · subst same
          rw [AList.lookup_erase] at found
          cases found
        · rw [AList.lookup_erase_ne same] at found
          exact outside orderId entry found

end OrderAPI

variable {L : Libraries}

theorem poolInv_step (s : OrderAPI) (i : Input) (t : OrderAPI) (inv : PoolInv s)
    (balanced : Balanced L s i) (taken : Calls L s i t) : PoolInv t := by
  rcases taken.cases with ⟨same, _⟩ | ⟨e, accepted, applied⟩
  · exact same.poolInv.mpr inv
  · rw [applied.poolInv]
    have kept := balanced e accepted
    cases e with
    | store orderId order => exact (storeOrder_poolInv inv _ _ _).mpr kept
    | drop orderId =>
        rw [StoreEffect.apply, dropOrder_of_absent (AList.lookup_eq_none.mpr kept)]
        exact inv

theorem balanced_of_poolInv (s : OrderAPI) (i : Input) (t : OrderAPI) (outside : NodesOutside s)
    (inv : PoolInv s) (taken : Calls L s i t) (next : PoolInv t) : Balanced L s i := by
  intro e accepted
  rcases taken.cases with ⟨_, refused⟩ | ⟨e', accepted', applied⟩
  · exact absurd accepted (refused e)
  · cases accepted.unique accepted'
    rw [applied.poolInv] at next
    cases e with
    | store orderId order => exact (storeOrder_poolInv inv _ _ _).mp next
    | drop orderId => exact dropOrder_poolInv outside next

theorem nodesOutside_step (s : OrderAPI) (i : Input) (t : OrderAPI) (outside : NodesOutside s)
    (lawful : AllocatesOutside s i) (taken : Calls L s i t) : NodesOutside t := by
  rcases taken.cases with ⟨same, _⟩ | ⟨e, _, applied⟩
  · exact same.nodesOutside outside
  · exact applied.nodesOutside (nodesOutside_apply outside lawful e)

/-- A run whose steps are all balanced keeps the ownership of the pool; and under
the law of the allocator no other run does. -/
theorem pool_ownership (m : CurlConnectionManager) (tokens : TokenManager) (memory : Addr)
    {events : List Input} {s : OrderAPI}
    (run : Trace (Calls L) (create m tokens memory) events s) :
    (Stepwise (Calls L) (Balanced L) (create m tokens memory) events →
      Throughout (Calls L) PoolInv (create m tokens memory) events) ∧
    (Stepwise (Calls L) AllocatesOutside (create m tokens memory) events →
      Throughout (Calls L) PoolInv (create m tokens memory) events →
        Stepwise (Calls L) (Balanced L) (create m tokens memory) events) := by
  constructor
  · intro balanced
    exact balanced.throughout poolInv_step (create_poolInv m tokens memory)
  · intro lawful all
    have none_yet : NodesOutside (create m tokens memory) := by
      intro orderId entry found
      cases found
    exact all.stepwise Calls.functional balanced_of_poolInv run
      (lawful.throughout nodesOutside_step none_yet).taken

def cancelledText (orderId : Bytes) : Bytes :=
  bytes "\x7b\"result\":\x7b\"order_id\":\"" ++ orderId ++ bytes "\"\x7d\x7d"

def cancelledDocument (orderId : Bytes) : Value :=
  .object [(bytes "result", placedOrder orderId)]

def placedAndCancelled : Libraries :=
  .ofTable [(placedText (bytes "A"), placedDocument (bytes "A")),
    (cancelledText (bytes "A"), cancelledDocument (bytes "A"))]

def cancelIntact (orderId : Bytes) : Input :=
  .intact (.cancelOrder orderId) 80 (okBuffer (cancelledText orderId))

theorem cancelIntact_accepted {s : OrderAPI} (ready : s.Ready) :
    ∃ t, Calls placedAndCancelled s (cancelIntact (bytes "A")) t ∧
      SameStore (s.dropOrder (bytes "A")) t := by
  have accepts : cancelEffect placedAndCancelled (bytes "A")
      (okBuffer (cancelledText (bytes "A"))) = .ok (some (.drop (bytes "A"))) := rfl
  obtain ⟨_, t, taken, applied, _⟩ := Calls.of_intact ready (.cancelOrder _) accepts 80
  exact ⟨t, taken, applied⟩

theorem first_placing_owned :
    ∃ s, Trace (Calls placedAndCancelled) sampleClient [placeIntact (bytes "A")] s ∧
      Throughout (Calls placedAndCancelled) PoolInv sampleClient [placeIntact (bytes "A")] ∧
      Stepwise (Calls placedAndCancelled) (Balanced placedAndCancelled) sampleClient
        [placeIntact (bytes "A")] := by
  obtain ⟨_, s, taken, _, ready⟩ :=
    placeIntact_accepted (L := placedAndCancelled) sampleClient_ready (bytes "A") rfl
  obtain ⟨owned, balanced⟩ := pool_ownership (.initializePool [some 0])
    (.create (bytes "id") (bytes "secret")) 4096 (.single taken)
  have all := owned <| .cons (fun e _ => by
      cases e with
      | store _ _ => exact .inl (AList.notMem_empty _)
      | drop _ => exact AList.notMem_empty _) fun _ _ => .nil
  refine ⟨s, .single taken, all, balanced (.cons ?_ fun _ _ => .nil) all⟩
  rintro ⟨i, _, same⟩
  have : (64 : Nat) = 4096 + i * 16 := same
  omega

/-- Cancelling a stored order puts the address of its map node into the pool. -/
theorem cancelled_node_in_pool :
    ∃ s, Trace (Calls placedAndCancelled) sampleClient
        [placeIntact (bytes "A"), cancelIntact (bytes "A")] s ∧
      64 ∈ s.orderPool.freeBlocks ∧ ¬ PoolInv s := by
  obtain ⟨_, s, placed, stores, ready⟩ :=
    placeIntact_accepted (L := placedAndCancelled) sampleClient_ready (bytes "A") rfl
  obtain ⟨t, cancelled, drops⟩ := cancelIntact_accepted ready
  have entry : s.orders.lookup (bytes "A") = some 64 := by
    rw [stores.orders]
    rfl
  have node : 64 ∈ t.orderPool.freeBlocks := by
    rw [drops.orderPool, dropOrder_of_present entry]
    exact List.mem_cons_self
  refine ⟨t, .cons placed (.single cancelled), node, ?_⟩
  intro inv
  obtain ⟨i, _, same⟩ := inv.blocks 64 node
  rw [drops.orderPool, dropOrder_of_present entry, stores.orderPool] at same
  have : (64 : Nat) = 4096 + i * 16 := same
  omega

end DeribitTrading
