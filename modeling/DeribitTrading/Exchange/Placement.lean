import DeribitTrading.Exchange.Network

/-!
How many orders one placing creates. The request carries nothing by which the
exchange could recognise a repetition, so the retry loop creates one order for
every attempt that gets through, whatever becomes of the responses.
-/
namespace DeribitTrading
open ByteString Numbers

def buyEndpoint : Bytes := bytes "https://test.deribit.com/api/v2/private/buy?"

theorem buyEndpoint_nulFree : 0 ∉ buyEndpoint := by decide

/-- Whatever the arguments hold, the request still goes to the buy endpoint. -/
theorem buy_url (instrument : Bytes) (quantity price : Double) (label orderType : Bytes) :
    buyEndpoint <+: cString (placeOrderUrl instrument quantity price label orderType) := by
  have starts : ∃ rest, placeOrderUrl instrument quantity price label orderType =
      buyEndpoint ++ rest := by
    have endpoint : bytes "https://test.deribit.com/api/v2/private/buy?amount=" =
        buyEndpoint ++ bytes "amount=" := by decide
    unfold placeOrderUrl
    simp only [endpoint, List.append_assoc]
    split <;> exact ⟨_, rfl⟩
  obtain ⟨rest, same⟩ := starts
  rw [same, cString_append_of_nulFree buyEndpoint_nulFree]
  exact List.prefix_append _ _

variable {ξ : Type}

/-- The exchange creates an order for every buy request it receives. -/
def CreatesOrders (ex : Exchange ξ) (created : ξ → Nat) : Prop :=
  ∀ url x, buyEndpoint <+: url → created (ex.receive url x).2 = created x + 1

/-- How many of the attempts that are made get to the exchange. -/
def reached (fates : List Fate) : Nat :=
  (attemptsMade (maxRetries - 1) fates).countP Fate.reaches

theorem reached_le (fates : List Fate) : reached fates ≤ maxRetries :=
  List.countP_le_length.trans (attemptsMade_length (maxRetries - 1) fates)

theorem created_attempt {ex : Exchange ξ} {created : ξ → Nat}
    (creates : CreatesOrders ex created) {url : Bytes} (buy : buyEndpoint <+: url) (x : ξ)
    (f : Fate) :
    created (ex.attempt url x f).2 = created x + if f.reaches then 1 else 0 := by
  cases f with
  | requestLost code => rfl
  | responseLost code cut => exact creates url x buy
  | delivered => exact creates url x buy

theorem created_after {ex : Exchange ξ} {created : ξ → Nat}
    (creates : CreatesOrders ex created) {url : Bytes} (buy : buyEndpoint <+: url)
    (fates : List Fate) (x : ξ) :
    created (ex.after url fates x) = created x + fates.countP Fate.reaches := by
  induction fates generalizing x with
  | nil => rfl
  | cons f fates ih =>
      rw [Exchange.after, ih, created_attempt creates buy, List.countP_cons]
      omega

/-- One call creates as many orders as of its attempts get to the exchange. -/
theorem orders_created (L : Libraries) (ex : Exchange ξ) (created : ξ → Nat)
    (creates : CreatesOrders ex created) (ctx : CallContext) (s : OrderAPI)
    (instrument : Bytes) (quantity price : Double) (label orderId orderType : Bytes) (x : ξ)
    (fates : List Fate) :
    let x' := (s.placeOrder L ex.lossy ctx instrument quantity price label orderId orderType
      (x, fates)).2.2.1
    (s.Sends L ctx → created x' = created x + reached fates) ∧
      (¬ s.Sends L ctx → created x' = created x) ∧
      created x' ≤ created x + maxRetries ∧
      (reached fates ≤ 1 → created x' ≤ created x + 1) := by
  have sent : s.Sends L ctx → created (s.placeOrder L ex.lossy ctx instrument quantity price
      label orderId orderType (x, fates)).2.2.1 = created x + reached fates := by
    intro sends
    obtain ⟨o, url_set, _, world⟩ := OrderAPI.request_of_sends sends ex.lossy
      (placeOrderUrl instrument quantity price label orderType) (x, fates)
    rw [placeOrder_eq]
    simp only [OrderAPI.operate_world, world, (ex.performAttempts_made url_set _ _ _ _).2]
    exact created_after creates (buy_url ..) _ x
  have unsent : ¬ s.Sends L ctx → created (s.placeOrder L ex.lossy ctx instrument quantity price
      label orderId orderType (x, fates)).2.2.1 = created x := by
    intro unsent
    rw [placeOrder_eq]
    simp only [OrderAPI.operate_world, OrderAPI.request_of_not_sends unsent]
  have limit := reached_le fates
  by_cases sends : s.Sends L ctx
  · have count := sent sends
    exact ⟨sent, unsent, by omega, by omega⟩
  · have count := unsent sends
    exact ⟨sent, unsent, by omega, by omega⟩

theorem placed_text :
    ∀ b ∈ finalBlock.render ++ placedText (bytes "A"), b ≠ 0 ∧ b ≠ 0x1f :=
  text_of_all (by decide)

/-- An exchange that counts its orders and answers every request as a placing of A. -/
def countingExchange : Exchange Nat where
  receive := fun _ x =>
    ({ header := finalBlock
       body := placedText (bytes "A")
       http := finalBlock_http
       text := placed_text }, x + 1)

theorem countingExchange_creates : CreatesOrders countingExchange id := fun _ _ _ => rfl

theorem sampleClient_sends (L : Libraries) : sampleClient.Sends L (intactContext 64) :=
  ⟨⟨[], rfl⟩, List.cons_ne_nil _ _⟩

theorem delivered_creates_one :
    (sampleClient.placeOrder oneOrder countingExchange.lossy (intactContext 64)
      (bytes "BTC-PERPETUAL") (.finite false 10 0) (.finite false 0 0) (bytes "l") []
      (bytes "market") (0, [.requestLost 28, .delivered])).2.2.1 = 1 :=
  (orders_created oneOrder countingExchange id countingExchange_creates (intactContext 64)
    sampleClient (bytes "BTC-PERPETUAL") (.finite false 10 0) (.finite false 0 0) (bytes "l") []
    (bytes "market") 0 [.requestLost 28, .delivered]).1 (sampleClient_sends oneOrder)

/-- The first response is lost: the order exists, is placed again, and one is reported. -/
theorem lost_response_creates_two :
    (sampleClient.placeOrder oneOrder countingExchange.lossy (intactContext 64)
      (bytes "BTC-PERPETUAL") (.finite false 10 0) (.finite false 0 0) (bytes "l") []
      (bytes "market") (0, [.responseLost 28 0, .delivered])).1 = .ok (true, bytes "A") ∧
    (sampleClient.placeOrder oneOrder countingExchange.lossy (intactContext 64)
      (bytes "BTC-PERPETUAL") (.finite false 10 0) (.finite false 0 0) (bytes "l") []
      (bytes "market") (0, [.responseLost 28 0, .delivered])).2.2.1 = 2 :=
  ⟨rfl, rfl⟩

end DeribitTrading
