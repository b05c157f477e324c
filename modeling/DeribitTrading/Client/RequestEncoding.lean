import DeribitTrading.Client.Requests
import DeribitTrading.Library.Urlencoded

/-!
What a server reads out of the request URLs. The builders write their pairs as
they are, so the pairs come back exactly when every string argument is literal;
printed numbers always are.
-/
namespace DeribitTrading
open ByteString Numbers Urlencoded

/-- The parameters that a buy is meant to carry. -/
def placeOrderPairs (instrument : Bytes) (quantity price : Double) (label orderType : Bytes) :
    List (Bytes × Bytes) :=
  [(bytes "amount", quantity.toString), (bytes "instrument_name", instrument),
    (bytes "label", label), (bytes "type", orderType)] ++
      if orderType = bytes "limit" then [(bytes "price", price.toString)] else []

def cancelOrderPairs (orderId : Bytes) : List (Bytes × Bytes) := [(bytes "order_id", orderId)]

def modifyOrderPairs (orderId : Bytes) (newPrice amount : Double) : List (Bytes × Bytes) :=
  [(bytes "order_id", orderId), (bytes "price", newPrice.toString),
    (bytes "amount", amount.toString)]

def orderBookPairs (symbol : Bytes) : List (Bytes × Bytes) :=
  [(bytes "instrument_name", symbol)]

/-- The bytes that mean something other than themselves somewhere in a query. -/
def reserved : Bytes := [ampersand, numberSign, plusSign, percentSign]

theorem literal_of_unreserved {s : Bytes} (unreserved : ∀ b ∈ s, b ∉ reserved) : Literal s where
  ampersand := fun member => unreserved _ member (by decide)
  fragment := fun member => unreserved _ member (by decide)
  plus := fun member => unreserved _ member (by decide)
  escape := by
    induction s with
    | nil => rfl
    | cons b rest ih =>
        have plain : b ≠ percentSign := by
          rintro rfl
          exact unreserved _ List.mem_cons_self (by decide)
        simp only [hasEscape, plain, decide_false, Bool.false_and, Bool.false_or]
        exact ih fun c member => unreserved c (List.mem_cons_of_mem b member)

theorem toString_literal (d : Double) : Literal d.toString :=
  literal_of_unreserved fun b member =>
    (by decide +kernel : ∀ b ∈ numeralBytes, b ∉ reserved) b (d.toString_numeral b member)

theorem toString_literalText (d : Double) : LiteralText d.toString :=
  ⟨toString_literal d, fun member => absurd (d.toString_numeral 0 member) (by decide)⟩

theorem literalName_of_unreserved {name : Bytes}
    (unreserved : ∀ b ∈ name, b ∉ equalsSign :: reserved) (nonempty : name ≠ []) :
    LiteralName name where
  toLiteral := literal_of_unreserved fun b member =>
    fun here => unreserved b member (List.mem_cons_of_mem _ here)
  nonempty := nonempty
  equals := fun member => unreserved _ member List.mem_cons_self

/-- The parameter names of all requests. -/
def parameterNames : List Bytes :=
  [bytes "amount", bytes "instrument_name", bytes "label", bytes "type", bytes "price",
    bytes "order_id"]

theorem parameterNames_literal : ∀ name ∈ parameterNames, LiteralName name := by
  intro name member
  have unreserved : ∀ name ∈ parameterNames, ∀ b ∈ name, b ∉ equalsSign :: reserved := by
    decide +kernel
  have nonempty : ∀ name ∈ parameterNames, name ≠ [] := by decide
  exact literalName_of_unreserved (unreserved name member) (nonempty name member)

theorem parameterNames_nulFree : ∀ name ∈ parameterNames, 0 ∉ name := by decide

/-- The hosts and paths of all requests. -/
def requestBases : List Bytes :=
  [bytes "https://test.deribit.com/api/v2/private/buy",
    bytes "https://test.deribit.com/api/v2/private/cancel",
    bytes "https://test.deribit.com/api/v2/private/edit",
    bytes "https://test.deribit.com/api/v2/public/get_order_book"]

theorem requestBases_plain :
    ∀ base ∈ requestBases, questionMark ∉ base ∧ numberSign ∉ base ∧ 0 ∉ base := by
  decide

/-- A URL of a plain base and pairs written as they are. -/
theorem decodeQuery_iff {url base : Bytes} {pairs : List (Bytes × Bytes)}
    (built : url = base ++ questionMark :: renderPairs pairs)
    (plain : base ∈ requestBases) (some_pair : pairs ≠ [])
    (names : ∀ p ∈ pairs, p.1 ∈ parameterNames) :
    decodeQuery url = pairs ↔ ∀ p ∈ pairs, Literal p.2 := by
  obtain ⟨question, fragment, _⟩ := requestBases_plain base plain
  rw [built, decodeQuery_eq_readPairs question fragment]
  exact readPairs_renderPairs_iff pairs some_pair fun p member =>
    parameterNames_literal p.1 (names p member)

/-- The same of what `CURLOPT_URL` takes of it, which ends at the first NUL. -/
theorem decodeQuery_cString_iff {url base : Bytes} {pairs : List (Bytes × Bytes)}
    (built : url = base ++ questionMark :: renderPairs pairs)
    (plain : base ∈ requestBases) (some_pair : pairs ≠ [])
    (names : ∀ p ∈ pairs, p.1 ∈ parameterNames) :
    decodeQuery (cString url) = pairs ↔ ∀ p ∈ pairs, LiteralText p.2 := by
  obtain ⟨question, fragment, nulFree⟩ := requestBases_plain base plain
  have next : cString (questionMark :: renderPairs pairs) =
      questionMark :: cString (renderPairs pairs) := rfl
  rw [built, cString_append_of_nulFree nulFree, next, decodeQuery_eq_readPairs question fragment]
  refine readPairs_cString_iff some_pair fun p member => ?_
  exact ⟨parameterNames_literal p.1 (names p member), parameterNames_nulFree p.1 (names p member)⟩

theorem placeOrderUrl_eq (instrument : Bytes) (quantity price : Double)
    (label orderType : Bytes) :
    placeOrderUrl instrument quantity price label orderType =
      bytes "https://test.deribit.com/api/v2/private/buy" ++
        questionMark ::
          renderPairs (placeOrderPairs instrument quantity price label orderType) := by
  have amount : bytes "https://test.deribit.com/api/v2/private/buy?amount=" =
      bytes "https://test.deribit.com/api/v2/private/buy" ++
        questionMark :: (bytes "amount" ++ [equalsSign]) := by decide
  have name : bytes "&instrument_name=" =
      ampersand :: (bytes "instrument_name" ++ [equalsSign]) := by decide
  have tag : bytes "&label=" = ampersand :: (bytes "label" ++ [equalsSign]) := by decide
  have kind : bytes "&type=" = ampersand :: (bytes "type" ++ [equalsSign]) := by decide
  have limit : bytes "&price=" = ampersand :: (bytes "price" ++ [equalsSign]) := by
    decide
  unfold placeOrderUrl placeOrderPairs
  split <;> simp only [amount, name, tag, kind, limit, renderPairs, renderPair,
    List.append_assoc, List.cons_append, List.nil_append]

theorem cancelOrderUrl_eq (orderId : Bytes) :
    cancelOrderUrl orderId = bytes "https://test.deribit.com/api/v2/private/cancel" ++
      questionMark :: renderPairs (cancelOrderPairs orderId) := by
  have name : bytes "https://test.deribit.com/api/v2/private/cancel?order_id=" =
      bytes "https://test.deribit.com/api/v2/private/cancel" ++
        questionMark :: (bytes "order_id" ++ [equalsSign]) := by decide
  simp only [cancelOrderUrl, cancelOrderPairs, name, renderPairs, renderPair, List.append_assoc,
    List.cons_append, List.nil_append]

theorem modifyOrderUrl_eq (orderId : Bytes) (newPrice amount : Double) :
    modifyOrderUrl orderId newPrice amount =
      bytes "https://test.deribit.com/api/v2/private/edit" ++
        questionMark :: renderPairs (modifyOrderPairs orderId newPrice amount) := by
  have name : bytes "https://test.deribit.com/api/v2/private/edit?order_id=" =
      bytes "https://test.deribit.com/api/v2/private/edit" ++
        questionMark :: (bytes "order_id" ++ [equalsSign]) := by decide
  have limit : bytes "&price=" = ampersand :: (bytes "price" ++ [equalsSign]) := by
    decide
  have quantity : bytes "&amount=" = ampersand :: (bytes "amount" ++ [equalsSign]) := by
    decide
  simp only [modifyOrderUrl, modifyOrderPairs, name, limit, quantity, renderPairs, renderPair,
    List.append_assoc, List.cons_append, List.nil_append]

theorem orderBookUrl_eq (symbol : Bytes) :
    orderBookUrl symbol = bytes "https://test.deribit.com/api/v2/public/get_order_book" ++
      questionMark :: renderPairs (orderBookPairs symbol) := by
  have name :
      bytes "https://test.deribit.com/api/v2/public/get_order_book?instrument_name=" =
        bytes "https://test.deribit.com/api/v2/public/get_order_book" ++
          questionMark :: (bytes "instrument_name" ++ [equalsSign]) := by decide
  simp only [orderBookUrl, orderBookPairs, name, renderPairs, renderPair, List.append_assoc,
    List.cons_append, List.nil_append]

/-- A property of all printed numbers holds of the values of a request if it holds of
the string arguments. -/
theorem forall_placeOrderPairs {P : Bytes → Prop} (numbers : ∀ d : Double, P d.toString)
    (instrument : Bytes) (quantity price : Double) (label orderType : Bytes) :
    (∀ p ∈ placeOrderPairs instrument quantity price label orderType, P p.2) ↔
      P instrument ∧ P label ∧ P orderType := by
  unfold placeOrderPairs
  split <;> simp [numbers quantity, numbers price]

theorem forall_modifyOrderPairs {P : Bytes → Prop} (numbers : ∀ d : Double, P d.toString)
    (orderId : Bytes) (newPrice amount : Double) :
    (∀ p ∈ modifyOrderPairs orderId newPrice amount, P p.2) ↔ P orderId := by
  simp [modifyOrderPairs, numbers newPrice, numbers amount]

theorem placeOrderUrl_decodes_iff (instrument : Bytes) (quantity price : Double)
    (label orderType : Bytes) :
    (decodeQuery (placeOrderUrl instrument quantity price label orderType) =
        placeOrderPairs instrument quantity price label orderType ↔
      Literal instrument ∧ Literal label ∧ Literal orderType) ∧
    (decodeQuery (cString (placeOrderUrl instrument quantity price label orderType)) =
        placeOrderPairs instrument quantity price label orderType ↔
      LiteralText instrument ∧ LiteralText label ∧ LiteralText orderType) := by
  have plain : bytes "https://test.deribit.com/api/v2/private/buy" ∈ requestBases := by
    simp [requestBases]
  have some_pair : placeOrderPairs instrument quantity price label orderType ≠ [] := by
    simp [placeOrderPairs]
  have names : ∀ p ∈ placeOrderPairs instrument quantity price label orderType,
      p.1 ∈ parameterNames := by
    unfold placeOrderPairs
    split <;> simp [parameterNames]
  constructor
  · rw [decodeQuery_iff (placeOrderUrl_eq ..) plain some_pair names]
    exact forall_placeOrderPairs toString_literal ..
  · rw [decodeQuery_cString_iff (placeOrderUrl_eq ..) plain some_pair names]
    exact forall_placeOrderPairs toString_literalText ..

theorem cancelOrderUrl_decodes_iff (orderId : Bytes) :
    (decodeQuery (cancelOrderUrl orderId) = cancelOrderPairs orderId ↔ Literal orderId) ∧
    (decodeQuery (cString (cancelOrderUrl orderId)) = cancelOrderPairs orderId ↔
      LiteralText orderId) := by
  have plain : bytes "https://test.deribit.com/api/v2/private/cancel" ∈ requestBases := by
    simp [requestBases]
  have names : ∀ p ∈ cancelOrderPairs orderId, p.1 ∈ parameterNames := by
    simp [cancelOrderPairs, parameterNames]
  constructor
  · rw [decodeQuery_iff (cancelOrderUrl_eq orderId) plain (List.cons_ne_nil _ _) names]
    simp [cancelOrderPairs]
  · rw [decodeQuery_cString_iff (cancelOrderUrl_eq orderId) plain (List.cons_ne_nil _ _) names]
    simp [cancelOrderPairs]

theorem modifyOrderUrl_decodes_iff (orderId : Bytes) (newPrice amount : Double) :
    (decodeQuery (modifyOrderUrl orderId newPrice amount) =
        modifyOrderPairs orderId newPrice amount ↔ Literal orderId) ∧
    (decodeQuery (cString (modifyOrderUrl orderId newPrice amount)) =
        modifyOrderPairs orderId newPrice amount ↔ LiteralText orderId) := by
  have plain : bytes "https://test.deribit.com/api/v2/private/edit" ∈ requestBases := by
    simp [requestBases]
  have names : ∀ p ∈ modifyOrderPairs orderId newPrice amount, p.1 ∈ parameterNames := by
    simp [modifyOrderPairs, parameterNames]
  constructor
  · rw [decodeQuery_iff (modifyOrderUrl_eq ..) plain (List.cons_ne_nil _ _) names]
    exact forall_modifyOrderPairs toString_literal ..
  · rw [decodeQuery_cString_iff (modifyOrderUrl_eq ..) plain (List.cons_ne_nil _ _) names]
    exact forall_modifyOrderPairs toString_literalText ..

theorem orderBookUrl_decodes_iff (symbol : Bytes) :
    (decodeQuery (orderBookUrl symbol) = orderBookPairs symbol ↔ Literal symbol) ∧
    (decodeQuery (cString (orderBookUrl symbol)) = orderBookPairs symbol ↔
      LiteralText symbol) := by
  have plain : bytes "https://test.deribit.com/api/v2/public/get_order_book" ∈ requestBases := by
    simp [requestBases]
  have names : ∀ p ∈ orderBookPairs symbol, p.1 ∈ parameterNames := by
    simp [orderBookPairs, parameterNames]
  constructor
  · rw [decodeQuery_iff (orderBookUrl_eq symbol) plain (List.cons_ne_nil _ _) names]
    simp [orderBookPairs]
  · rw [decodeQuery_cString_iff (orderBookUrl_eq symbol) plain (List.cons_ne_nil _ _) names]
    simp [orderBookPairs]

/-- Every request carries its intended parameters exactly for literal arguments, and what
is sent of it, which ends at a NUL, exactly for those without one. -/
theorem request_encoding :
    (∀ instrument quantity price label orderType,
      (decodeQuery (placeOrderUrl instrument quantity price label orderType) =
          placeOrderPairs instrument quantity price label orderType ↔
        Literal instrument ∧ Literal label ∧ Literal orderType) ∧
      (decodeQuery (cString (placeOrderUrl instrument quantity price label orderType)) =
          placeOrderPairs instrument quantity price label orderType ↔
        LiteralText instrument ∧ LiteralText label ∧ LiteralText orderType)) ∧
    (∀ orderId, (decodeQuery (cancelOrderUrl orderId) = cancelOrderPairs orderId ↔
        Literal orderId) ∧
      (decodeQuery (cString (cancelOrderUrl orderId)) = cancelOrderPairs orderId ↔
        LiteralText orderId)) ∧
    (∀ orderId newPrice amount, (decodeQuery (modifyOrderUrl orderId newPrice amount) =
        modifyOrderPairs orderId newPrice amount ↔ Literal orderId) ∧
      (decodeQuery (cString (modifyOrderUrl orderId newPrice amount)) =
        modifyOrderPairs orderId newPrice amount ↔ LiteralText orderId)) ∧
    (∀ symbol, (decodeQuery (orderBookUrl symbol) = orderBookPairs symbol ↔ Literal symbol) ∧
      (decodeQuery (cString (orderBookUrl symbol)) = orderBookPairs symbol ↔
        LiteralText symbol)) :=
  ⟨placeOrderUrl_decodes_iff, cancelOrderUrl_decodes_iff, modifyOrderUrl_decodes_iff,
    orderBookUrl_decodes_iff⟩

/-- A label that gives a market order a price. -/
theorem label_adds_price :
    decodeQuery (placeOrderUrl (bytes "BTC-PERPETUAL") (.finite false 10 0) (.finite false 0 0)
        (bytes "a&price=1") (bytes "market")) =
      [(bytes "amount", bytes "10.000000"), (bytes "instrument_name", bytes "BTC-PERPETUAL"),
        (bytes "label", bytes "a"), (bytes "price", bytes "1"), (bytes "type", bytes "market")] ∧
    placeOrderPairs (bytes "BTC-PERPETUAL") (.finite false 10 0) (.finite false 0 0)
        (bytes "a&price=1") (bytes "market") =
      [(bytes "amount", bytes "10.000000"), (bytes "instrument_name", bytes "BTC-PERPETUAL"),
        (bytes "label", bytes "a&price=1"), (bytes "type", bytes "market")] := by
  decide

end DeribitTrading
