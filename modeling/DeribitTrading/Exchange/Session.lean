import DeribitTrading.Client.Acknowledgement
import DeribitTrading.Client.MarketData
import DeribitTrading.Exchange.Cancellation
import DeribitTrading.Exchange.Placement

/-!
Client and exchange over a whole session. Each call may lose requests and
responses, and between the calls the exchange goes on by itself. What the client
was told stays true of the exchange, and tells which orders the store holds.
-/
namespace DeribitTrading
open ByteString Rapidjson HttpFraming Runs OrderAPI

variable {ξ : Type}

/-- Orders are never forgotten, and a closed order is not opened again. -/
structure Later (created isOpen : Bytes → ξ → Prop) (x x' : ξ) : Prop where
  kept : ∀ orderId, created orderId x → created orderId x'
  shut : ∀ orderId, created orderId x → ¬ isOpen orderId x → ¬ isOpen orderId x'

theorem Later.refl (created isOpen : Bytes → ξ → Prop) (x : ξ) : Later created isOpen x x :=
  ⟨fun _ known => known, fun _ _ gone => gone⟩

theorem Later.trans {created isOpen : Bytes → ξ → Prop} {x y z : ξ}
    (first : Later created isOpen x y) (second : Later created isOpen y z) :
    Later created isOpen x z := by
  constructor
  · intro orderId known
    exact second.kept orderId (first.kept orderId known)
  · intro orderId known gone
    exact second.shut orderId (first.kept orderId known) (first.shut orderId known gone)

/-- An exchange that names a placed order by a new id, and refuses to edit or to
cancel an order that is not open. -/
structure OrderLaws (L : Libraries) (ex : Exchange ξ) (created isOpen : Bytes → ξ → Prop) : Prop
    extends CancelLaws L ex isOpen where
  opened : ∀ orderId x, isOpen orderId x → created orderId x
  later : ∀ url x, Later created isOpen x (ex.receive url x).2
  named : ∀ url x document orderId order, buyEndpoint <+: url →
    L.rapidParse (ex.receive url x).1.body = some document →
      CarriesOrder document orderId order →
        ¬ created orderId x ∧ created orderId (ex.receive url x).2
  unedited : ∀ orderId newPrice amount x, ¬ isOpen orderId x → ∃ ms,
    L.rapidParse (ex.receive (cString (modifyOrderUrl orderId newPrice amount)) x).1.body =
        some (.object ms) ∧
      (Members.lookup ms (bytes "error")).isSome

variable {L : Libraries} {ex : Exchange ξ} {created isOpen : Bytes → ξ → Prop}

theorem OrderLaws.later_after (laws : OrderLaws L ex created isOpen) (url : Bytes)
    (fates : List Fate) (x : ξ) : Later created isOpen x (ex.after url fates x) := by
  induction fates generalizing x with
  | nil => exact .refl created isOpen x
  | cons f fates ih =>
      apply Later.trans _ (ih _)
      cases f with
      | requestLost code => exact .refl created isOpen x
      | responseLost _ _ | delivered => exact laws.later url x

/-- The loop ends well only behind a delivered attempt. -/
theorem Exchange.performAttempts_ok {o : CurlOptions} {url : Bytes} (url_set : o.url = some url)
    {left : Nat} {fates : List Fate} {response : Bytes} {x : ξ}
    (ended : (performAttempts ex.lossy o left response (x, fates)).1 = .ok) :
    ∃ failed rest, fates = failed ++ .delivered :: rest ∧ (∀ f ∈ failed, f.fails = true) ∧
      failed.length ≤ left := by
  induction fates generalizing left response x with
  | nil =>
      rw [performAttempts_nil] at ended
      cases ended
  | cons f fates ih =>
      by_cases fails : f.fails = true
      · cases left with
        | zero =>
            obtain ⟨code, last⟩ := performAttempts_last ex url_set fails fates response x
            rw [last] at ended
            cases ended
        | succ left =>
            rw [performAttempts_again ex url_set left fails] at ended
            obtain ⟨failed, rest, rfl, lost, few⟩ := ih ended
            refine ⟨f :: failed, rest, rfl, ?_, Nat.succ_le_succ few⟩
            intro g member
            rcases List.mem_cons.mp member with rfl | member
            · exact fails
            · exact lost g member
      · rw [Fate.eq_delivered fails]
        exact ⟨[], fates, rfl, by simp, Nat.zero_le left⟩

theorem OrderAPI.sends_of_arrived {ω : Type} {net : Network ω} {ctx : CallContext} {s : OrderAPI}
    {url readBuffer : Bytes} {w : ω}
    (arrived : (s.request L net ctx url w).1 = .ok (some readBuffer)) : s.Sends L ctx := by
  rcases got : s.tokenManager.getAccessToken L ctx.token with ⟨outcome, tokens⟩
  rcases outcome with f | token
  · simp only [request, got] at arrived
    cases arrived
  · refine ⟨⟨token, by rw [got]⟩, ?_⟩
    intro none_free
    simp [request, got, performAsyncCurlRequest, performCurlRequest,
      CurlConnectionManager.getCurlHandle, none_free] at arrived

/-- A response that reaches the client is that to the last of its attempts, behind
what has arrived of the lost ones. -/
theorem Exchange.request_arrived {ctx : CallContext} {s : OrderAPI} {url readBuffer : Bytes} {x : ξ}
    {fates : List Fate}
    (arrived : (s.request L ex.lossy ctx url (x, fates)).1 = .ok (some readBuffer)) :
    ∃ failed, (∀ f ∈ failed, f.fails = true) ∧
      readBuffer = ex.arrived (cString url) failed x ++
        (ex.receive (cString url) (ex.after (cString url) failed x)).1.buffer ∧
      (s.request L ex.lossy ctx url (x, fates)).2.2.1 =
        (ex.receive (cString url) (ex.after (cString url) failed x)).2 := by
  obtain ⟨o, url_set, buffer, world⟩ :=
    OrderAPI.request_of_sends (OrderAPI.sends_of_arrived arrived) ex.lossy url (x, fates)
  rw [arrived] at buffer
  by_cases ended : (performAttempts ex.lossy o (maxRetries - 1) [] (x, fates)).1 = .ok
  · obtain ⟨failed, rest, rfl, lost, few⟩ := performAttempts_ok url_set ended
    rw [ex.performAttempts_lost url_set lost few] at buffer world
    simp only [if_true, List.nil_append] at buffer
    exact ⟨failed, lost, Option.some.inj (Except.ok.inj buffer), by rw [world]⟩
  · rw [if_neg ended] at buffer
    cases buffer

/-- Whatever becomes of a request, the exchange is as its attempts leave it. -/
theorem OrderLaws.later_performed (laws : OrderLaws L ex created isOpen)
    (m : CurlConnectionManager) (url accessToken : Bytes) (buffer : Addr) (x : ξ)
    (fates : List Fate) :
    Later created isOpen x
      (performCurlRequest ex.lossy m url accessToken buffer [] (x, fates)).world.1 := by
  unfold performCurlRequest CurlConnectionManager.getCurlHandle
  rcases m.freeHandles with _ | ⟨curl, rest⟩
  · exact .refl created isOpen x
  · dsimp only
    rw [(ex.performAttempts_made rfl _ _ _ _).2]
    exact laws.later_after _ _ x

theorem OrderLaws.later_request (laws : OrderLaws L ex created isOpen) (ctx : CallContext)
    (s : OrderAPI) (url : Bytes) (x : ξ) (fates : List Fate) :
    Later created isOpen x (s.request L ex.lossy ctx url (x, fates)).2.2.1 := by
  unfold OrderAPI.request
  split
  · exact .refl created isOpen x
  · exact laws.later_performed ..

/-- Only the body of the last response can be parsed. -/
theorem parsed_arrived (parser : RejectsHeaders L) {url : Bytes} {failed : List Fate}
    (lost : ∀ f ∈ failed, f.fails = true) {x : ξ} {r : Response} {document : Value}
    (parsed : Parsed L (ex.arrived url failed x ++ r.buffer) document) :
    L.rapidParse r.body = some document := by
  have read := parsed.read
  rcases ex.extractBody_arrived url lost x r with found | ⟨front, plain, found⟩
  · have whole := cString_of_nulFree r.body_plain.nulFree
    simp only [readResponse, found, r.body_plain.gunzipped L, ok_bind, pure, Except.pure,
      parseJSONResponse, whole] at read
    rcases parse : L.rapidParse r.body with _ | document'
    · simp [parse] at read
    · simp only [parse, Except.ok.injEq, Option.some.injEq, Prod.mk.injEq, true_and] at read
      rw [read]
  · have text : Plain (front ++ (r.header.render ++ r.body)) := plain.append r.text
    have rejected := parser front r.header r.body plain.nulFree r.http
    simp [readResponse, found, text.gunzipped L, ok_bind, pure, Except.pure, parseJSONResponse,
      cString_of_nulFree text.nulFree, rejected] at read

/-- An accepted response has been parsed, whichever call it answers. -/
theorem Call.effect_parsed {c : Call} {readBuffer : Bytes} {e : StoreEffect}
    (accepted : c.effect L readBuffer = .ok (some e)) :
    ∃ document, Parsed L readBuffer document := by
  rcases c.effect_cases accepted with ⟨_, _, _, _, document, _, parsed, _⟩ | ⟨cancel, same⟩
  · exact ⟨document, parsed⟩
  · rw [cancel] at accepted
    obtain ⟨_, decided⟩ := cancelEffect_eq_some accepted
    obtain ⟨read, parsed, replied⟩ := bind_eq_ok_iff.mp decided
    rcases read with _ | ⟨success, document⟩
    · cases replied
    · obtain ⟨failed, asked, returned⟩ := bind_eq_ok_iff.mp replied
      cases failed with
      | true =>
          obtain ⟨_, _, returned⟩ := bind_eq_ok_iff.mp returned
          cases returned
      | false =>
          obtain ⟨rfl, _⟩ := isFailure_eq_false asked
          exact ⟨document, parsed⟩

/-- What the exchange was and has become, when a call was accepted with this effect. -/
def BorneOut (created isOpen : Bytes → ξ → Prop) (x x' : ξ) : Call → StoreEffect → Prop
  | .placeMarketOrder _ _ _ _, e | .placeLimitOrder _ _ _ _, e =>
      ∃ orderId order, e = .store orderId order ∧ ¬ created orderId x ∧ created orderId x'
  | .modifyOrder orderId _ _, e => ∃ order, e = .store orderId order ∧ isOpen orderId x
  | .cancelOrder orderId, e => e = .drop orderId ∧ isOpen orderId x ∧ ¬ isOpen orderId x'

theorem not_error_of_isSome {ms : Members} (error : (Members.lookup ms (bytes "error")).isSome) :
    (Value.object ms).hasMember (bytes "error") ≠ .ok false := by
  rw [hasMember_object, error]
  simp

/-- A call is accepted only by a response that the exchange stands by. -/
theorem OrderLaws.borneOut (laws : OrderLaws L ex created isOpen) {c : Call} {readBuffer : Bytes}
    {document : Value} {y : ξ} {e : StoreEffect} (parsed : Parsed L readBuffer document)
    (sent : L.rapidParse (ex.receive (cString c.url) y).1.body = some document)
    (accepted : c.effect L readBuffer = .ok (some e)) :
    BorneOut created isOpen y (ex.receive (cString c.url) y).2 c e := by
  cases c with
  | placeMarketOrder _ _ _ _ | placeLimitOrder _ _ _ _ =>
      obtain ⟨orderId, order, rfl, decided⟩ := placeEffect_eq_some accepted
      rw [placeDecision, placeOrderBody, parsed.read, ok_bind] at decided
      have carries := (placeReply_eq_some_iff document orderId order).mp decided
      refine ⟨orderId, order, rfl, laws.named _ y document orderId order ?_ sent carries⟩
      unfold Call.url
      apply buy_url
  | modifyOrder orderId newPrice amount =>
      obtain ⟨order, rfl, _⟩ := modifyEffect_eq_some accepted
      refine ⟨order, rfl, ?_⟩
      by_contra gone
      obtain ⟨ms, refused, error⟩ := laws.unedited orderId newPrice amount y gone
      cases sent.symm.trans refused
      exact not_error_of_isSome error (modifyEffect_parsed parsed accepted).1.2
  | cancelOrder orderId =>
      refine ⟨(cancelEffect_eq_some accepted).1, ?_, laws.closed orderId y⟩
      by_contra gone
      obtain ⟨ms, refused, error⟩ := laws.error orderId y gone
      cases sent.symm.trans refused
      exact not_error_of_isSome error ((cancelEffect_parsed parsed).mp ⟨e, accepted⟩)

/-- Everything a call can do at both ends of the network. -/
theorem OrderLaws.perform_cases (laws : OrderLaws L ex created isOpen) (parser : RejectsHeaders L)
    (c : Call) (ctx : CallContext) (s : OrderAPI) (x : ξ) (fates : List Fate) :
    let r := c.perform L ex.lossy ctx s (x, fates)
    (SameStore s r.2.1 ∧ (∀ orderId, r.1 ≠ .ok (true, orderId)) ∧
      Later created isOpen x r.2.2.1) ∨
    ∃ y e, Later created isOpen x y ∧ Later created isOpen y r.2.2.1 ∧
      BorneOut created isOpen y r.2.2.1 c e ∧ r.1 = .ok (true, e.orderId) ∧
      SameStore (e.apply ctx.node s) r.2.1 := by
  have world : (c.perform L ex.lossy ctx s (x, fates)).2.2 =
      (s.request L ex.lossy ctx c.url (x, fates)).2.2 := by
    rw [c.perform_eq]
    exact OrderAPI.operate_world L ex.lossy ctx c.url (c.effect L) s (x, fates)
  rcases c.perform_cases L ex.lossy ctx s (x, fates) with
    ⟨same, silent, _⟩ | ⟨e, ⟨readBuffer, arrived, accepted⟩, told, applied⟩
  · refine .inl ⟨same, silent, ?_⟩
    rw [world]
    exact laws.later_request ctx s c.url x fates
  · obtain ⟨failed, lost, rfl, after⟩ := Exchange.request_arrived arrived
    obtain ⟨document, parsed⟩ := c.effect_parsed accepted
    have sent := parsed_arrived parser lost parsed
    refine .inr ⟨ex.after (cString c.url) failed x, e, laws.later_after _ failed x, ?_, ?_, told,
      ?_⟩
    · rw [world, after]
      exact laws.later _ _
    · rw [world, after]
      exact laws.borneOut parsed sent accepted
    · rw [applied]
      exact (request_sameStore L ex.lossy ..).apply ctx.node e

/-- Both ends, and the ids that the client was told of, the latest first. -/
structure Session (ξ : Type) where
  client : OrderAPI
  exchange : ξ
  placed : List Bytes
  modified : List Bytes
  cancelled : List Bytes

namespace Session

/-- A new client, whatever the exchange has seen so far. -/
def start (m : CurlConnectionManager) (tokens : TokenManager) (memory : Addr) (x : ξ) :
    Session ξ where
  client := .create m tokens memory
  exchange := x
  placed := []
  modified := []
  cancelled := []

/-- What the client is told: a call that returns true, and the id it then holds. -/
def record (c : Call) (told : Outcome (Bool × Bytes)) (s : Session ξ) : Session ξ :=
  match told with
  | .ok (true, orderId) =>
      match c with
      | .placeMarketOrder _ _ _ _ | .placeLimitOrder _ _ _ _ =>
          { s with placed := orderId :: s.placed }
      | .modifyOrder _ _ _ => { s with modified := orderId :: s.modified }
      | .cancelOrder _ => { s with cancelled := orderId :: s.cancelled }
  | _ => s

/-- A call with the fates of its attempts, a fetch of an order book, or a change of
the exchange by itself. -/
inductive Event (ξ : Type) where
  | call (c : Call) (ctx : CallContext) (fates : List Fate)
  | book (symbol : Bytes) (ctx : CallContext) (fates : List Fate)
  | exchange (x : ξ)

/-- The session after a call; a fatal fault leaves none. -/
def next (L : Libraries) (ex : Exchange ξ) (c : Call) (ctx : CallContext) (fates : List Fate)
    (s : Session ξ) : Option (Session ξ) :=
  let (told, client, x, _) := c.perform L ex.lossy ctx s.client (s.exchange, fates)
  let t := { s with client := client, exchange := x }.record c told
  match told with
  | .ok _ => some t
  | .error f => if f.fatal then none else some t

def Step (L : Libraries) (ex : Exchange ξ) (created isOpen : Bytes → ξ → Prop) (s : Session ξ)
    (e : Event ξ) (t : Session ξ) : Prop :=
  match e with
  | .call c ctx fates => s.next L ex c ctx fates = some t
  | .book symbol ctx fates =>
      let (_, client, x, _) := s.client.getOrderBook L ex.lossy ctx symbol (s.exchange, fates)
      t = { s with client := client, exchange := x }
  | .exchange x => Later created isOpen s.exchange x ∧ t = { s with exchange := x }

/-- What ties the store to what the client was told, and this to the exchange. -/
structure Told (created isOpen : Bytes → ξ → Prop) (s : Session ξ) : Prop where
  known : ∀ orderId, orderId ∈ s.placed ∨ orderId ∈ s.modified → created orderId s.exchange
  placed_once : s.placed.Nodup
  cancelled_once : s.cancelled.Nodup
  closed : ∀ orderId ∈ s.cancelled, created orderId s.exchange ∧ ¬ isOpen orderId s.exchange
  held : ∀ orderId ∈ s.client.orders,
    (orderId ∈ s.placed ∨ orderId ∈ s.modified) ∧ orderId ∉ s.cancelled
  blocks : 100 ≤ s.client.orderPool.freeBlocks.length + (s.placed.length + s.modified.length)
  complete : s.placed.length + s.modified.length ≤ 100 → ∀ orderId,
    (orderId ∈ s.placed ∨ orderId ∈ s.modified) → orderId ∉ s.cancelled →
      orderId ∈ s.client.orders

/-- The exchange goes on, and the client forgets nothing. -/
theorem Told.later {s : Session ξ} (told : Told created isOpen s) {x : ξ}
    (later : Later created isOpen s.exchange x) {client : OrderAPI}
    (same : SameStore s.client client) :
    Told created isOpen { s with client := client, exchange := x } where
  known := fun orderId listed => later.kept orderId (told.known orderId listed)
  placed_once := told.placed_once
  cancelled_once := told.cancelled_once
  closed := by
    intro orderId listed
    obtain ⟨known, gone⟩ := told.closed orderId listed
    exact ⟨later.kept orderId known, later.shut orderId known gone⟩
  held := by
    intro orderId member
    exact told.held orderId (same.orders ▸ member)
  blocks := by
    show 100 ≤ client.orderPool.freeBlocks.length + _
    rw [same.orderPool]
    exact told.blocks
  complete := by
    intro few orderId listed open_
    show orderId ∈ client.orders
    rw [same.orders]
    exact told.complete few orderId listed open_

end Session

theorem mem_storeOrder {s : OrderAPI} (node : Addr) (orderId : Bytes) (order : Value)
    (other : Bytes) :
    other ∈ (s.storeOrder node orderId order).orders ↔
      other ∈ s.orders ∨ other = orderId ∧ s.orderPool.freeBlocks ≠ [] := by
  rcases free : s.orderPool.freeBlocks with _ | ⟨ptr, rest⟩
  · rw [(storeOrder_of_exhausted free node orderId order).orders]
    simp
  · rw [storeOrder_of_free free]
    simp [AList.mem_insert, or_comm]

theorem mem_dropOrder {s : OrderAPI} (orderId other : Bytes) :
    other ∈ (s.dropOrder orderId).orders ↔ other ≠ orderId ∧ other ∈ s.orders := by
  rcases entry : s.orders.lookup orderId with _ | node
  · rw [dropOrder_of_absent entry]
    constructor
    · intro member
      refine ⟨?_, member⟩
      rintro rfl
      exact AList.lookup_eq_none.mp entry member
    · exact And.right
  · rw [dropOrder_of_present entry]
    exact AList.mem_erase

theorem dropOrder_freeBlocks (orderId : Bytes) (s : OrderAPI) :
    s.orderPool.freeBlocks.length ≤ (s.dropOrder orderId).orderPool.freeBlocks.length := by
  rcases entry : s.orders.lookup orderId with _ | node
  · rw [dropOrder_of_absent entry]
  · rw [dropOrder_of_present entry]
    exact Nat.le_succ _

namespace Session

/-- One more order in the store, if the pool has a block for it. -/
theorem Told.store {s : Session ξ} (told : Told created isOpen s) {x : ξ}
    (later : Later created isOpen s.exchange x) {node : Addr} {orderId : Bytes} {order : Value}
    {client : OrderAPI} (same : SameStore (s.client.storeOrder node orderId order) client)
    (known : created orderId x) (alive : orderId ∉ s.cancelled) {placed modified : List Bytes}
    (once : placed.Nodup)
    (listed : ∀ other, (other ∈ placed ∨ other ∈ modified) ↔
      (other ∈ s.placed ∨ other ∈ s.modified) ∨ other = orderId)
    (longer : placed.length + modified.length = s.placed.length + s.modified.length + 1) :
    Told created isOpen ⟨client, x, placed, modified, s.cancelled⟩ where
  known := by
    intro other member
    rcases (listed other).mp member with old | rfl
    · exact later.kept other (told.known other old)
    · exact known
  placed_once := once
  cancelled_once := told.cancelled_once
  closed := by
    intro other member
    obtain ⟨known, gone⟩ := told.closed other member
    exact ⟨later.kept other known, later.shut other known gone⟩
  held := by
    intro other member
    rw [show client.orders = _ from same.orders, mem_storeOrder] at member
    rcases member with old | ⟨rfl, _⟩
    · obtain ⟨named, uncancelled⟩ := told.held other old
      exact ⟨(listed other).mpr (.inl named), uncancelled⟩
    · exact ⟨(listed other).mpr (.inr rfl), alive⟩
  blocks := by
    have before := told.blocks
    show 100 ≤ client.orderPool.freeBlocks.length + (placed.length + modified.length)
    rw [same.orderPool, storeOrder_freeBlocks, List.length_tail]
    omega
  complete := by
    intro few other member uncancelled
    have few : placed.length + modified.length ≤ 100 := few
    have before := told.blocks
    rw [show client.orders = _ from same.orders, mem_storeOrder]
    rcases (listed other).mp member with old | rfl
    · exact .inl (told.complete (by omega) other old uncancelled)
    · refine .inr ⟨rfl, ?_⟩
      intro exhausted
      rw [exhausted, List.length_nil] at before
      omega

/-- An order that was open leaves the store and is closed. -/
theorem Told.drop {s : Session ξ} (told : Told created isOpen s) {y x : ξ}
    (before : Later created isOpen s.exchange y) (after : Later created isOpen y x)
    {orderId : Bytes} {client : OrderAPI} (same : SameStore (s.client.dropOrder orderId) client)
    (known : created orderId y) (opened : isOpen orderId y) (gone : ¬ isOpen orderId x) :
    Told created isOpen ⟨client, x, s.placed, s.modified, orderId :: s.cancelled⟩ where
  known := by
    intro other member
    exact after.kept other (before.kept other (told.known other member))
  placed_once := told.placed_once
  cancelled_once := by
    refine List.nodup_cons.mpr ⟨?_, told.cancelled_once⟩
    intro member
    obtain ⟨known, shut⟩ := told.closed orderId member
    exact before.shut orderId known shut opened
  closed := by
    intro other member
    rcases List.mem_cons.mp member with rfl | old
    · exact ⟨after.kept other known, gone⟩
    · obtain ⟨known, shut⟩ := told.closed other old
      exact ⟨after.kept other (before.kept other known), (before.trans after).shut other known shut⟩
  held := by
    intro other member
    rw [show client.orders = _ from same.orders, mem_dropOrder] at member
    obtain ⟨different, old⟩ := member
    obtain ⟨named, uncancelled⟩ := told.held other old
    exact ⟨named, List.not_mem_cons_of_ne_of_not_mem different uncancelled⟩
  blocks := by
    have room := told.blocks
    have freed := dropOrder_freeBlocks orderId s.client
    show 100 ≤ client.orderPool.freeBlocks.length + (s.placed.length + s.modified.length)
    rw [same.orderPool]
    omega
  complete := by
    intro few other member uncancelled
    obtain ⟨different, old⟩ := List.ne_and_not_mem_of_not_mem_cons uncancelled
    rw [show client.orders = _ from same.orders, mem_dropOrder]
    exact ⟨different, told.complete few other member old⟩

/-- A call whose exception does not end the process is on record. -/
theorem recorded_of_next {s t : Session ξ} {c : Call} {ctx : CallContext} {fates : List Fate}
    (taken : s.next L ex c ctx fates = some t) :
    t = { s with
      client := (c.perform L ex.lossy ctx s.client (s.exchange, fates)).2.1
      exchange := (c.perform L ex.lossy ctx s.client (s.exchange, fates)).2.2.1 }.record c
        (c.perform L ex.lossy ctx s.client (s.exchange, fates)).1 := by
  unfold next at taken
  dsimp only at taken
  split at taken
  · exact (Option.some.inj taken).symm
  · split at taken
    · cases taken
    · exact (Option.some.inj taken).symm

/-- One call, whatever its attempts meet. -/
theorem Told.call (laws : OrderLaws L ex created isOpen) (parser : RejectsHeaders L)
    {s t : Session ξ} (told : Told created isOpen s) {c : Call} {ctx : CallContext}
    {fates : List Fate} (taken : s.next L ex c ctx fates = some t) : Told created isOpen t := by
  rw [recorded_of_next taken]
  rcases laws.perform_cases parser c ctx s.client s.exchange fates with
    ⟨same, silent, later⟩ | ⟨y, e, before, after, borne, answered, applied⟩
  · have unrecorded : ∀ u : Session ξ, u.record c
        (c.perform L ex.lossy ctx s.client (s.exchange, fates)).1 = u := by
      intro u
      unfold record
      split
      · exact absurd (by assumption) (silent _)
      · rfl
    rw [unrecorded]
    exact told.later later same
  · rw [answered]
    have uncancelled : ∀ orderId, isOpen orderId y → orderId ∉ s.cancelled := by
      intro orderId opened member
      obtain ⟨known, gone⟩ := told.closed orderId member
      exact before.shut orderId known gone opened
    cases c with
    | placeMarketOrder _ _ _ _ | placeLimitOrder _ _ _ _ =>
        obtain ⟨orderId, order, rfl, fresh, known⟩ := borne
        have unknown : ∀ listed : List Bytes, (∀ id ∈ listed, created id s.exchange) →
            orderId ∉ listed := fun _ all member =>
          fresh (before.kept orderId (all orderId member))
        refine told.store (before.trans after) applied known ?_ ?_ ?_ ?_
        · exact unknown _ fun id member => (told.closed id member).1
        · refine List.nodup_cons.mpr ⟨?_, told.placed_once⟩
          exact unknown _ fun id member => told.known id (.inl member)
        · intro other
          show other ∈ orderId :: s.placed ∨ _ ↔ _
          rw [List.mem_cons]
          tauto
        · show (s.placed.length + 1) + s.modified.length = _
          omega
    | modifyOrder orderId newPrice amount =>
        obtain ⟨order, rfl, opened⟩ := borne
        have known := after.kept orderId (laws.opened orderId y opened)
        refine told.store (before.trans after) applied known (uncancelled orderId opened)
          told.placed_once ?_ ?_
        · intro other
          show _ ∨ other ∈ orderId :: s.modified ↔ _
          rw [List.mem_cons]
          tauto
        · show s.placed.length + (s.modified.length + 1) = _
          omega
    | cancelOrder orderId =>
        obtain ⟨rfl, opened, gone⟩ := borne
        exact told.drop before after applied (laws.opened orderId y opened) opened gone

theorem Told.keys {s : Session ξ} (told : s.Told created isOpen)
    (few : s.placed.length + s.modified.length ≤ 100) (orderId : Bytes) :
    orderId ∈ s.client.orders ↔
      (orderId ∈ s.placed ∨ orderId ∈ s.modified) ∧ orderId ∉ s.cancelled := by
  constructor
  · exact told.held orderId
  · intro ⟨named, uncancelled⟩
    exact told.complete few orderId named uncancelled

end Session

end DeribitTrading
