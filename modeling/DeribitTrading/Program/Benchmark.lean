import DeribitTrading.Exchange.Session

/-!
`benchmark`: two placings, a modification, an order book and a cancel, which pass
one variable `orderId` on. Which order the last two calls mean, and what is left
of them all, depends on which of the placings went through.
-/
namespace DeribitTrading
open ByteString Numbers Nlohmann Runs OrderAPI

/-- The product with two, which is exact unless it overflows. -/
def twice : Double → Double
  | .finite negative mantissa exponent =>
      if mantissa ≠ 0 ∧ 1024 ≤ (Nat.log2 mantissa : Int) + (exponent + 1) then .infinity negative
      else .finite negative mantissa (exponent + 1)
  | .infinity negative => .infinity negative
  | .nan negative => .nan negative

example : twice (.finite false 375 4) = .finite false 375 5 := rfl

/-- A line on one of the two streams. -/
inductive Line where
  | cout (text : Bytes)
  | cerr (text : Bytes)
  deriving DecidableEq, Repr

def told (success : Bool) (good bad : Bytes) : Line := if success then .cout good else .cerr bad

/-- What each call of `benchmark` returned; `marketId` is `orderId` after the first. -/
structure Benchmark where
  market : Bool
  marketId : Bytes
  limit : Bool
  orderId : Bytes
  modified : Bool
  book : Json
  cancelled : Bool

/-- The lines that do not tell a latency. -/
def Benchmark.lines (instrument : Bytes) (b : Benchmark) : List Line :=
  [told b.market (bytes "Market order placed successfully.")
      (bytes "Failed to place market order."),
    told b.limit (bytes "Limit order placed successfully.")
      (bytes "Failed to place limit order."),
    told b.modified (bytes "Order modified successfully.") (bytes "Failed to modify order."),
    told (!b.book.empty) (bytes "Order Book for " ++ instrument ++ bytes " fetched successfully.")
      (bytes "Failed to get order book."),
    told b.cancelled (bytes "Order canceled successfully.") (bytes "Failed to cancel order.")]

section
variable {ω : Type} (L : Libraries) (net : Network ω)

/-- An exception of a call is one of `benchmark`; `ctx` numbers the calls. -/
def benchmark (ctx : Nat → CallContext) (instrument : Bytes) (quantity price : Double)
    (label : Bytes) (s : OrderAPI) (w : ω) : Outcome Benchmark × OrderAPI × ω :=
  match s.placeMarketOrder L net (ctx 0) instrument quantity label [] w with
  | (.error f, s, w) => (.error f, s, w)
  | (.ok (market, marketId), s, w) =>
      match s.placeLimitOrder L net (ctx 1) instrument quantity price marketId w with
      | (.error f, s, w) => (.error f, s, w)
      | (.ok (limit, orderId), s, w) =>
          match s.modifyOrder L net (ctx 2) orderId (twice price) (twice quantity) w with
          | (.error f, s, w) => (.error f, s, w)
          | (.ok modified, s, w) =>
              match s.getOrderBook L net (ctx 3) instrument w with
              | (.error f, s, w) => (.error f, s, w)
              | (.ok book, s, w) =>
                  match s.cancelOrder L net (ctx 4) orderId w with
                  | (.error f, s, w) => (.error f, s, w)
                  | (.ok cancelled, s, w) =>
                      (.ok ⟨market, marketId, limit, orderId, modified, book, cancelled⟩, s, w)

variable {L net}

/-- A benchmark that comes to its end is a run of its five calls. -/
theorem benchmark_ok {ctx : Nat → CallContext} {instrument label : Bytes}
    {quantity price : Double} {s t : OrderAPI} {w v : ω} {b : Benchmark}
    (ended : benchmark L net ctx instrument quantity price label s w = (.ok b, t, v)) :
    ∃ s₁ w₁ s₂ w₂ s₃ w₃ s₄ w₄,
      (Call.placeMarketOrder instrument quantity label []).perform L net (ctx 0) s w =
        (.ok (b.market, b.marketId), s₁, w₁) ∧
      (Call.placeLimitOrder instrument quantity price b.marketId).perform L net (ctx 1) s₁ w₁ =
        (.ok (b.limit, b.orderId), s₂, w₂) ∧
      (Call.modifyOrder b.orderId (twice price) (twice quantity)).perform L net (ctx 2) s₂ w₂ =
        (.ok (b.modified, b.orderId), s₃, w₃) ∧
      s₃.getOrderBook L net (ctx 3) instrument w₃ = (.ok b.book, s₄, w₄) ∧
      (Call.cancelOrder b.orderId).perform L net (ctx 4) s₄ w₄ =
        (.ok (b.cancelled, b.orderId), t, v) := by
  unfold benchmark at ended
  rcases first : s.placeMarketOrder L net (ctx 0) instrument quantity label [] w with
    ⟨_ | ⟨market, marketId⟩, s₁, w₁⟩
  · simp [first] at ended
  rcases second : s₁.placeLimitOrder L net (ctx 1) instrument quantity price marketId w₁ with
    ⟨_ | ⟨limit, orderId⟩, s₂, w₂⟩
  · simp [first, second] at ended
  rcases third : s₂.modifyOrder L net (ctx 2) orderId (twice price) (twice quantity) w₂ with
    ⟨_ | modified, s₃, w₃⟩
  · simp [first, second, third] at ended
  rcases fourth : s₃.getOrderBook L net (ctx 3) instrument w₃ with ⟨_ | book, s₄, w₄⟩
  · simp [first, second, third, fourth] at ended
  rcases fifth : s₄.cancelOrder L net (ctx 4) orderId w₄ with ⟨_ | cancelled, s₅, w₅⟩
  · simp [first, second, third, fourth, fifth] at ended
  simp only [first, second, third, fourth, fifth, Prod.mk.injEq, Except.ok.injEq] at ended
  obtain ⟨rfl, rfl, rfl⟩ := ended
  refine ⟨s₁, w₁, s₂, w₂, s₃, w₃, s₄, w₄, first, second, ?_, fourth, ?_⟩
  · simp only [Call.perform, third]
    rfl
  · simp only [Call.perform, fifth]
    rfl

theorem Call.perform_false {c : Call} {ctx : CallContext} {s t : OrderAPI} {w v : ω}
    {orderId : Bytes} (failed : c.perform L net ctx s w = (.ok (false, orderId), t, v)) :
    orderId = c.orderId := by
  rw [c.perform_eq] at failed
  obtain ⟨told, _⟩ := Prod.mk.inj failed
  obtain ⟨_, same⟩ := no_effect_of_false Prod.fst (fun e => by cases e <;> rfl) told rfl
  exact congrArg Prod.snd same

variable (L net) in
/-- The answer that the call gets to see carries an order with this id. -/
def Call.Places (ctx : CallContext) (c : Call) (s : OrderAPI) (w : ω) (orderId : Bytes) : Prop :=
  ∃ readBuffer document order, (s.request L net ctx c.url w).1 = .ok (some readBuffer) ∧
    Parsed L readBuffer document ∧ CarriesOrder document orderId order

theorem Call.places_iff_accepted {c : Call} (placing : c.effect L = placeEffect L)
    (ctx : CallContext) (s : OrderAPI) (w : ω) (orderId : Bytes) :
    c.Places L net ctx s w orderId ↔ ∃ e, Accepted L net ctx c s w e ∧ e.orderId = orderId := by
  constructor
  · intro ⟨readBuffer, document, order, arrived, parsed, carries⟩
    have decided := (placeDecision_eq_some_iff ..).mpr ⟨document, parsed, carries⟩
    refine ⟨.store orderId order, ⟨readBuffer, arrived, ?_⟩, rfl⟩
    rw [placing, placeEffect, decided]
    rfl
  · rintro ⟨e, ⟨readBuffer, arrived, accepted⟩, rfl⟩
    rw [placing] at accepted
    obtain ⟨orderId, order, rfl, decided⟩ := placeEffect_eq_some accepted
    obtain ⟨document, parsed, carries⟩ := (placeDecision_eq_some_iff ..).mp decided
    exact ⟨readBuffer, document, order, arrived, parsed, carries⟩

variable (L net) in
/-- What a placing tells its caller: the id in its answer, or that there is none, and
then the caller keeps the id it has. -/
def Call.Tells (ctx : CallContext) (c : Call) (s : OrderAPI) (w : ω) (success : Bool)
    (orderId : Bytes) : Prop :=
  if success then c.Places L net ctx s w orderId
  else orderId = c.orderId ∧ ∀ placed, ¬ c.Places L net ctx s w placed

theorem Call.perform_tells {c : Call} (placing : c.effect L = placeEffect L) {ctx : CallContext}
    {s t : OrderAPI} {w v : ω} {success : Bool} {orderId : Bytes}
    (performed : c.perform L net ctx s w = (.ok (success, orderId), t, v)) :
    c.Tells L net ctx s w success orderId := by
  rcases c.perform_cases L net ctx s w with ⟨_, silent, refused⟩ | ⟨e, accepted, told, _⟩
  · rw [performed] at silent
    cases success with
    | true => exact absurd rfl (silent orderId)
    | false =>
        refine ⟨Call.perform_false performed, ?_⟩
        intro placed places
        obtain ⟨e, accepted, _⟩ := (Call.places_iff_accepted placing ..).mp places
        exact refused e accepted
  · rw [performed] at told
    cases told
    exact (Call.places_iff_accepted placing ..).mpr ⟨e, accepted, rfl⟩

variable (L net) in
/-- The ids of a benchmark are those that the answers to its placings carry; the second
placing finds what the first one leaves. -/
structure Benchmark.Named (ctx : Nat → CallContext) (instrument label : Bytes)
    (quantity price : Double) (s : OrderAPI) (w : ω) (b : Benchmark) : Prop where
  market : (Call.placeMarketOrder instrument quantity label []).Tells L net (ctx 0) s w
    b.market b.marketId
  limit :
    let (_, s, w) := s.placeMarketOrder L net (ctx 0) instrument quantity label [] w
    (Call.placeLimitOrder instrument quantity price b.marketId).Tells L net (ctx 1) s w
      b.limit b.orderId

theorem benchmark_named {ctx : Nat → CallContext} {instrument label : Bytes}
    {quantity price : Double} {s t : OrderAPI} {w v : ω} {b : Benchmark}
    (ended : benchmark L net ctx instrument quantity price label s w = (.ok b, t, v)) :
    b.Named L net ctx instrument label quantity price s w := by
  obtain ⟨s₁, w₁, s₂, w₂, _, _, _, _, first, second, _⟩ := benchmark_ok ended
  constructor
  · exact Call.perform_tells rfl first
  · simp only [Call.perform] at first
    simp only [first]
    exact Call.perform_tells rfl second

end

variable {ξ : Type} {L : Libraries} {ex : Exchange ξ} {created isOpen : Bytes → ξ → Prop}

namespace Benchmark

end Benchmark

end DeribitTrading
