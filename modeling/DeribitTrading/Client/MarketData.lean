import DeribitTrading.Client.OrderBook
import DeribitTrading.Json.Lookup
import DeribitTrading.Client.Calls

/-!
The two readers of market data in the client: `getOrderBook`, which hands the
whole document on, and `parseMarketData`, which hands its result on.
-/
namespace DeribitTrading
open ByteString Rapidjson Nlohmann

namespace OrderAPI

variable {ω : Type} (L : Libraries) (net : Network ω)

/-- `getOrderBookData`, run by a worker of the pool. -/
def getOrderBook (ctx : CallContext) (symbol : Bytes) (s : OrderAPI) (w : ω) :
    Outcome Json × OrderAPI × ω :=
  let (result, s, w) := s.getOrderBookData L net ctx symbol w
  (executeAsyncTask result, s, w)

/-- Null is the empty result of both early returns. -/
def parseMarketData (jsonData : Bytes) : Outcome Json := do
  let (success, document) := parseJSONResponse L jsonData
  if !success then return .null
  else if !document.isObject then return .null
  else if ← document.hasMember (bytes "result") then
    let result ← document.member (bytes "result")
    return rapidjsonToNlohmannJson result
  else return .null

variable {L net}

theorem getOrderBook_world (ctx : CallContext) (symbol : Bytes) (s : OrderAPI) (w : ω) :
    (s.getOrderBook L net ctx symbol w).2.2 =
      (performCurlRequest net s.curlManager (orderBookUrl symbol) [] ctx.readBuffer []
        w).world := by
  unfold getOrderBook getOrderBookData
  dsimp only
  split <;> rfl

def bookResult : Json → Option Json
  | .object js => Nlohmann.Members.lookup js (bytes "result")
  | _ => none

theorem bookResult_converted (ms : Rapidjson.Members) :
    bookResult (rapidjsonToNlohmannJson (.object ms)) =
      (lastMember ms (bytes "result")).map rapidjsonToNlohmannJson := by
  rw [rapidjsonToNlohmannJson, bookResult, lookup_converted]

/-- Of a reply with an order book, `parseMarketData` converts the first result, while the
document of `getOrderBook` is left with the last. -/
theorem parseMarketData_agrees_iff {readBuffer body text : Bytes} {ms : Rapidjson.Members}
    (stripped : Stripped readBuffer body) (unpacked : Unpacked L body text)
    (parsed : parseJSONResponse L text = (true, .object ms))
    (there : (Rapidjson.Members.lookup ms (bytes "result")).isSome) :
    ∃ book data, orderBookReply L readBuffer = .ok book ∧ parseMarketData L text = .ok data ∧
      (bookResult book = some data ↔
        (lastMember ms (bytes "result")).map rapidjsonToNlohmannJson =
          (Rapidjson.Members.lookup ms (bytes "result")).map rapidjsonToNlohmannJson) := by
  obtain ⟨first, found⟩ := Option.isSome_iff_exists.mp there
  refine ⟨rapidjsonToNlohmannJson (.object ms), rapidjsonToNlohmannJson first, ?_, ?_, ?_⟩
  · rcases orderBookReply_cases L readBuffer with ⟨_, none⟩ | ⟨ms', _, only, replied⟩
    · exact absurd ⟨body, text, stripped, unpacked, parsed, there⟩ (none ms)
    · rw [only ms ⟨body, text, stripped, unpacked, parsed, there⟩]
      exact replied
  · simp only [parseMarketData, parsed, Bool.not_true, Bool.false_eq_true, if_false,
      isObject_object, hasMember_object, there, ok_bind, if_true, member_object_of_lookup found]
    rfl
  · rw [bookResult_converted, found, Option.map_some]

end OrderAPI
end DeribitTrading
