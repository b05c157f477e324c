import DeribitTrading.Client.PoolOwnership

/-!
Whether every stored order carries the id that it is stored under. The key and
the value come to the store by different ways, and a block that the pool hands
out is written to before anything asks what lives there.
-/
namespace DeribitTrading
open ByteString Rapidjson Nlohmann Runs OrderAPI

/-- The stored value names itself by this id. -/
def Identifies (v : Json) (orderId : Bytes) : Prop :=
  ∃ ms, v = .object ms ∧ Nlohmann.Members.lookup ms (bytes "order_id") = some (.string orderId)

/-- Every order of the store carries the id of its entry. -/
def Identified (s : OrderAPI) : Prop :=
  ∀ orderId v, s.stored orderId = some v → Identifies v orderId

/-- The order of a response names itself by this id, where the last of its
`order_id` members counts. -/
def NamesItself (orderId : Bytes) (order : Value) : Prop :=
  ∃ os raw, order = .object os ∧ lastMember os (bytes "order_id") = some (.string raw) ∧
    cString raw = orderId

/-- The block that the pool hands out next is the node of another order. -/
def HandsOutNode (s : OrderAPI) (orderId : Bytes) : Prop :=
  ∃ ptr rest other, s.orderPool.freeBlocks = ptr :: rest ∧ other ≠ orderId ∧
    s.orders.lookup other = some ptr

/-- The effects that keep the store identified. -/
def StoreEffect.Identifying (s : OrderAPI) : StoreEffect → Prop
  | .store orderId order =>
      s.orderPool.freeBlocks = [] ∨ NamesItself orderId order ∧ ¬ HandsOutNode s orderId
  | .drop _ => True

def Identifying (L : Libraries) (s : OrderAPI) (i : Input) : Prop :=
  ∀ e, i.Accepts L s e → e.Identifying s

/-- The law of the allocator: a new map node is not the node of a live entry. -/
def AllocatesFresh (s : OrderAPI) (i : Input) : Prop :=
  ∀ orderId, s.orders.lookup orderId ≠ some i.ctx.node

/-- No two entries share a node. -/
def NodesApart (s : OrderAPI) : Prop :=
  ∀ orderId other node, s.orders.lookup orderId = some node →
    s.orders.lookup other = some node → orderId = other

theorem Identifies.unique {v : Json} {orderId other : Bytes} (first : Identifies v orderId)
    (second : Identifies v other) : orderId = other := by
  obtain ⟨ms, rfl, here⟩ := first
  obtain ⟨_, same, there⟩ := second
  cases same
  cases here.symm.trans there
  rfl

theorem identifies_iff (order : Value) (orderId : Bytes) :
    Identifies (rapidjsonToNlohmannJson order) orderId ↔ NamesItself orderId order := by
  constructor
  · intro identifies
    obtain ⟨ms, same, here⟩ := identifies
    cases order with
    | object os =>
        cases same
        rw [lookup_converted, Option.map_eq_some_iff] at here
        obtain ⟨v, last, converted⟩ := here
        obtain ⟨raw, rfl, spelled⟩ := (converted_eq_string_iff v orderId).mp converted
        exact ⟨os, raw, rfl, last, spelled⟩
    | number n =>
        simp only [rapidjsonToNlohmannJson, convertNumber] at same
        split_ifs at same
    | null | bool b | double d | string s | array es => simp [rapidjsonToNlohmannJson] at same
  · intro names
    obtain ⟨os, raw, same, last, spelled⟩ := names
    subst same spelled
    refine ⟨convertMembers os [], rfl, ?_⟩
    rw [lookup_converted, last]
    rfl

namespace OrderAPI

theorem SameStore.identified {s t : OrderAPI} (same : SameStore s t) :
    Identified t ↔ Identified s := by
  simp only [Identified, same.stored]

theorem SameStore.nodesApart {s t : OrderAPI} (same : SameStore s t) (apart : NodesApart s) :
    NodesApart t := by
  unfold NodesApart
  rw [same.orders]
  exact apart

/-- The node that an entry has after storing is its old one, or the new one. -/
theorem lookup_ne_entry {s : OrderAPI} (apart : NodesApart s) {node : Addr}
    (fresh : ∀ orderId, s.orders.lookup orderId ≠ some node) {orderId other : Bytes}
    (different : other ≠ orderId) :
    s.orders.lookup other ≠ some ((s.orders.lookup orderId).getD node) := by
  intro there
  cases entry : s.orders.lookup orderId with
  | none =>
      rw [entry, Option.getD_none] at there
      exact fresh other there
  | some n =>
      rw [entry, Option.getD_some] at there
      exact different (apart other orderId n there entry)

/-- Under another id the store holds what it held, unless the block was its node. -/
theorem stored_storeOrder_ne {s : OrderAPI} (apart : NodesApart s) {node ptr : Addr}
    (fresh : ∀ orderId, s.orders.lookup orderId ≠ some node) {rest : List Addr}
    (free : s.orderPool.freeBlocks = ptr :: rest) {orderId other : Bytes}
    (different : other ≠ orderId) (order : Value) :
    (s.storeOrder node orderId order).stored other =
      if s.orders.lookup other = some ptr then some (rapidjsonToNlohmannJson order)
      else s.stored other := by
  have elsewhere := lookup_ne_entry apart fresh different
  rw [storeOrder_of_free free]
  simp only [stored, AList.lookup_insert_ne different]
  cases there : s.orders.lookup other with
  | none => simp
  | some n =>
      have notEntry : n ≠ (s.orders.lookup orderId).getD node := by
        intro same
        exact elsewhere (there.trans (congrArg some same))
      simp only [Option.map_some, Function.update_of_ne notEntry, Function.update_apply,
        Option.some.injEq]
      split <;> rfl

theorem storeOrder_identified {s : OrderAPI} (apart : NodesApart s) {node : Addr}
    (fresh : ∀ orderId, s.orders.lookup orderId ≠ some node) (identified : Identified s)
    (orderId : Bytes) (order : Value) :
    Identified (s.storeOrder node orderId order) ↔
      s.orderPool.freeBlocks = [] ∨ NamesItself orderId order ∧ ¬ HandsOutNode s orderId := by
  cases free : s.orderPool.freeBlocks with
  | nil => simpa only [(storeOrder_of_exhausted free node orderId order).identified, true_or,
      iff_true]
  | cons ptr rest =>
      have some_free : s.orderPool.freeBlocks ≠ [] := by simp [free]
      have here := stored_storeOrder some_free node orderId order
      simp only [reduceCtorEq, false_or, ← identifies_iff]
      constructor
      · intro after
        have names := after orderId _ here
        refine ⟨names, ?_⟩
        intro ⟨ptr', rest', other, free', different, there⟩
        cases free.symm.trans free'
        refine different ((after other _ ?_).unique names)
        rw [stored_storeOrder_ne apart fresh free different, if_pos there]
      · intro ⟨names, kept⟩ other v held
        by_cases same : other = orderId
        · subst same
          cases held.symm.trans here
          exact names
        · rw [stored_storeOrder_ne apart fresh free same, if_neg] at held
          · exact identified other v held
          · intro there
            exact kept ⟨ptr, rest, other, free, same, there⟩

theorem dropOrder_identified {s : OrderAPI} (identified : Identified s) (orderId : Bytes) :
    Identified (s.dropOrder orderId) := by
  cases present : s.orders.lookup orderId with
  | none =>
      rw [dropOrder_of_absent present]
      exact identified
  | some entry =>
      rw [dropOrder_of_present present]
      intro other v held
      by_cases same : other = orderId
      · subst same
        rw [stored, AList.lookup_erase] at held
        cases held
      · rw [stored, AList.lookup_erase_ne same] at held
        exact identified other v held

theorem nodesApart_apply {s : OrderAPI} (apart : NodesApart s) {node : Addr}
    (fresh : ∀ orderId, s.orders.lookup orderId ≠ some node) (e : StoreEffect) :
    NodesApart (e.apply node s) := by
  cases e with
  | store id order =>
      cases free : s.orderPool.freeBlocks with
      | nil => exact (storeOrder_of_exhausted free node id order).nodesApart apart
      | cons ptr rest =>
          rw [StoreEffect.apply, storeOrder_of_free free]
          intro orderId other n first second
          by_cases mine : orderId = id
          · by_cases theirs : other = id
            · exact mine.trans theirs.symm
            · subst mine
              rw [AList.lookup_insert] at first
              rw [AList.lookup_insert_ne theirs] at second
              exact absurd (second.trans first.symm) (lookup_ne_entry apart fresh theirs)
          · rw [AList.lookup_insert_ne mine] at first
            by_cases theirs : other = id
            · subst theirs
              rw [AList.lookup_insert] at second
              exact absurd (first.trans second.symm) (lookup_ne_entry apart fresh mine)
            · rw [AList.lookup_insert_ne theirs] at second
              exact apart orderId other n first second
  | drop id =>
      cases present : s.orders.lookup id with
      | none =>
          rw [StoreEffect.apply, dropOrder_of_absent present]
          exact apart
      | some entry =>
          rw [StoreEffect.apply, dropOrder_of_present present]
          intro orderId other n first second
          have kept : ∀ k, (s.orders.erase id).lookup k = some n → s.orders.lookup k = some n := by
            intro k held
            by_cases same : k = id
            · subst same
              rw [AList.lookup_erase] at held
              cases held
            · rwa [AList.lookup_erase_ne same] at held
          exact apart orderId other n (kept orderId first) (kept other second)

end OrderAPI

variable {L : Libraries}

theorem nodesApart_step (s : OrderAPI) (i : Input) (t : OrderAPI) (apart : NodesApart s)
    (fresh : AllocatesFresh s i) (taken : Calls L s i t) : NodesApart t := by
  rcases taken.cases with ⟨same, _⟩ | ⟨e, _, applied⟩
  · exact same.nodesApart apart
  · exact applied.nodesApart (nodesApart_apply apart fresh e)

/-- One step keeps the store identified exactly if its effect is identifying. -/
theorem identified_step_iff {s t : OrderAPI} {i : Input} (apart : NodesApart s)
    (fresh : AllocatesFresh s i) (identified : Identified s) (taken : Calls L s i t) :
    Identified t ↔ Identifying L s i := by
  rcases taken.cases with ⟨same, refused⟩ | ⟨e, accepted, applied⟩
  · refine ⟨fun _ e accepted => absurd accepted (refused e), fun _ => ?_⟩
    exact same.identified.mpr identified
  · have only : Identifying L s i ↔ e.Identifying s := by
      constructor
      · intro all
        exact all e accepted
      · intro holds e' accepted'
        cases accepted.unique accepted'
        exact holds
    rw [applied.identified, only]
    cases e with
    | store orderId order => exact storeOrder_identified apart fresh identified orderId order
    | drop orderId => exact iff_of_true (dropOrder_identified identified orderId) trivial

/-- A run in which the allocator is lawful keeps every stored order under its own id
exactly if each accepted order names itself by its key and is not written over
another order. -/
theorem orders_identified_iff (m : CurlConnectionManager) (tokens : TokenManager)
    (memory : Addr) {events : List Input} {s : OrderAPI}
    (run : Trace (Calls L) (create m tokens memory) events s)
    (lawful : Stepwise (Calls L) AllocatesFresh (create m tokens memory) events) :
    Throughout (Calls L) Identified (create m tokens memory) events ↔
      Stepwise (Calls L) (Identifying L) (create m tokens memory) events := by
  have none_yet : Identified (create m tokens memory) ∧ NodesApart (create m tokens memory) := by
    constructor
    · intro orderId v held
      cases held
    · intro orderId other node first
      cases first
  have apart := lawful.throughout nodesApart_step none_yet.2
  constructor
  · intro all
    refine all.stepwise Calls.functional ?_ run (apart.taken.and lawful)
    intro s i t given identified taken after
    exact (identified_step_iff given.1 given.2 identified taken).mp after
  · intro identifying
    have all : Throughout (Calls L) (fun s => Identified s ∧ NodesApart s)
        (create m tokens memory) events := by
      refine (lawful.and identifying).throughout ?_ none_yet
      intro s i t both given taken
      exact ⟨(identified_step_iff both.2 given.1 both.1 taken).mpr given.2,
        nodesApart_step s i t both.2 given.1 taken⟩
    exact all.mono fun s both => both.1

/-- A call whose response arrives intact and is accepted with the given effect. -/
structure Accepting (L : Libraries) where
  call : Call
  node : Addr
  readBuffer : Bytes
  effect : StoreEffect
  decided : call.effect L readBuffer = .ok (some effect)

namespace Accepting

def input (a : Accepting L) : Input := .intact a.call a.node a.readBuffer

theorem accepts {a : Accepting L} {s : OrderAPI} (ready : s.Ready) {e : StoreEffect}
    (accepted : a.input.Accepts L s e) : e = a.effect := by
  obtain ⟨readBuffer, arrived, decided⟩ := accepted
  have delivered := (request_intact L ready a.call a.node a.readBuffer a.call.url).1
  cases arrived.symm.trans delivered
  cases decided.symm.trans a.decided
  rfl

/-- The store after such calls. -/
def effects (calls : List (Accepting L)) (s : OrderAPI) : OrderAPI :=
  calls.foldl (fun s a => a.effect.apply a.node s) s

theorem effects_sameStore (calls : List (Accepting L)) {s t : OrderAPI} (same : SameStore s t) :
    SameStore (effects calls s) (effects calls t) := by
  induction calls generalizing s t with
  | nil => exact same
  | cons a calls ih => exact ih (same.apply a.node a.effect)

/-- Such calls make a run, and the store is what their effects make of it. -/
theorem run (calls : List (Accepting L)) {s : OrderAPI} (ready : s.Ready) :
    ∃ t, Trace (Calls L) s (calls.map input) t ∧ SameStore (effects calls s) t := by
  induction calls generalizing s with
  | nil => exact ⟨s, .nil s, ⟨rfl, rfl, rfl⟩⟩
  | cons a calls ih =>
      obtain ⟨_, m, taken, applied, still⟩ := Calls.of_intact ready a.call a.decided a.node
      obtain ⟨t, trace, later⟩ := ih still
      have whole := effects_sameStore calls applied
      exact ⟨t, .cons taken trace, later.orderPool.trans whole.orderPool,
        later.orders.trans whole.orders, later.heap.trans whole.heap⟩

end Accepting

def placing (orderId : Bytes) (node : Addr) (accepts : placeEffect L
    (okBuffer (placedText orderId)) = .ok (some (.store orderId (placedOrder orderId)))) :
    Accepting L where
  call := .placeMarketOrder (bytes "BTC-PERPETUAL") (.finite false 10 0) (bytes "l") []
  node := node
  readBuffer := okBuffer (placedText orderId)
  effect := .store orderId (placedOrder orderId)
  decided := accepts

def cancelling (orderId : Bytes) (accepts : cancelEffect L orderId
    (okBuffer (cancelledText orderId)) = .ok (some (.drop orderId))) : Accepting L where
  call := .cancelOrder orderId
  node := 0
  readBuffer := okBuffer (cancelledText orderId)
  effect := .drop orderId
  decided := accepts

def fourOrders : Libraries :=
  .ofTable [(placedText (bytes "A"), placedDocument (bytes "A")),
    (placedText (bytes "B"), placedDocument (bytes "B")),
    (placedText (bytes "C"), placedDocument (bytes "C")),
    (placedText (bytes "D"), placedDocument (bytes "D")),
    (cancelledText (bytes "A"), cancelledDocument (bytes "A")),
    (cancelledText (bytes "B"), cancelledDocument (bytes "B"))]

def onePlacing : List (Accepting twoOrders) := [placing (bytes "A") 64 rfl]

theorem first_placing_identified :
    ∃ s, Trace (Calls twoOrders) sampleClient (onePlacing.map Accepting.input) s ∧
      Throughout (Calls twoOrders) Identified sampleClient
        (onePlacing.map Accepting.input) := by
  obtain ⟨s, trace, _⟩ := Accepting.run onePlacing sampleClient_ready
  refine ⟨s, trace, (orders_identified_iff (.initializePool [some 0])
    (.create (bytes "id") (bytes "secret")) 4096 trace ?_).mpr ?_⟩
  · exact .cons (fun orderId there => by cases there) fun _ _ => .nil
  · refine .cons ?_ fun _ _ => .nil
    intro e accepted
    cases Accepting.accepts sampleClient_ready accepted
    refine .inr ⟨⟨_, _, rfl, rfl, rfl⟩, ?_⟩
    intro ⟨_, _, _, _, _, there⟩
    cases there

/-- The answer to an edit names another order than the one asked for. -/
def placedThenEdited : List (Accepting twoOrders) :=
  [placing (bytes "A") 64 rfl,
    { call := .modifyOrder (bytes "A") (.finite false 9 0) (.finite false 10 0)
      node := 80
      readBuffer := okBuffer (placedText (bytes "B"))
      effect := .store (bytes "A") (placedOrder (bytes "B"))
      decided := rfl }]

theorem foreign_order_stored :
    ∃ s, Trace (Calls twoOrders) sampleClient (placedThenEdited.map Accepting.input) s ∧
      s.stored (bytes "A") = some (.object [(bytes "order_id", .string (bytes "B"))]) ∧
      ¬ Identified s := by
  obtain ⟨s, trace, applied⟩ := Accepting.run placedThenEdited sampleClient_ready
  have held : s.stored (bytes "A") =
      some (.object [(bytes "order_id", .string (bytes "B"))]) := by
    rw [applied.stored]
    rfl
  refine ⟨s, trace, held, ?_⟩
  intro identified
  obtain ⟨ms, same, here⟩ := identified _ _ held
  cases same
  cases here

/-- Two orders come and go, and the pool has the nodes they lived at. -/
def nodesReused : List (Accepting fourOrders) :=
  [placing (bytes "A") 64 rfl, placing (bytes "B") 80 rfl, cancelling (bytes "A") rfl,
    cancelling (bytes "B") rfl, placing (bytes "C") 64 rfl, placing (bytes "D") 80 rfl]

theorem live_order_overwritten :
    ∃ s, Trace (Calls fourOrders) sampleClient (nodesReused.map Accepting.input) s ∧
      s.stored (bytes "C") = some (.object [(bytes "order_id", .string (bytes "D"))]) := by
  obtain ⟨s, trace, applied⟩ := Accepting.run nodesReused sampleClient_ready
  refine ⟨s, trace, ?_⟩
  rw [applied.stored]
  rfl

end DeribitTrading
