import DeribitTrading.Client.OrderBook
import DeribitTrading.Json.Injectivity
import DeribitTrading.Server.Request

/-!
The order book as the client reads it and as the server reads it, each with its
own JSON library, from one upstream reply.
-/
namespace DeribitTrading
open ByteString Rapidjson Nlohmann

mutual
/-- What `nlohmann::json::parse` makes of the text that rapidjson reads as this
document: only the tags of integers are chosen differently. -/
def parsedJson : Value → Json
  | .object ms => .object (parsedMembers ms [])
  | .array es => .array (parsedElements es)
  | .string s => .string s
  | .bool b => .boolean b
  | .number n =>
      if n.val < 0 then .numberInteger (Int64.ofInt n.val)
      else .numberUnsigned (UInt64.ofNat n.val.toNat)
  | .double d => .numberFloat d
  | .null => .null

def parsedMembers : List (Bytes × Value) → Nlohmann.Members → Nlohmann.Members
  | [], result => result
  | (name, value) :: ms, result =>
      parsedMembers ms (Nlohmann.Members.assign name (parsedJson value) result)

def parsedElements : List Value → List Json
  | [] => []
  | e :: es => parsedJson e :: parsedElements es
end

/-- `operator==`: integers by their value, objects member by member. -/
inductive EqualJson : Json → Json → Prop
  | null : EqualJson .null .null
  | boolean (b : Bool) : EqualJson (.boolean b) (.boolean b)
  | integer {i j : Json} {z : Int} : i.integer = some z → j.integer = some z → EqualJson i j
  | numberFloat (d : Numbers.Double) : EqualJson (.numberFloat d) (.numberFloat d)
  | string (s : Bytes) : EqualJson (.string s) (.string s)
  | array {is js : List Json} : is.length = js.length →
      (∀ p ∈ is.zip js, EqualJson p.1 p.2) → EqualJson (.array is) (.array js)
  | object {ms ns : Nlohmann.Members} :
      (∀ name, (List.lookup name ms).isSome = (List.lookup name ns).isSome) →
      (∀ name i j, List.lookup name ms = some i → List.lookup name ns = some j →
        EqualJson i j) →
      EqualJson (.object ms) (.object ns)

theorem parsedElements_eq_map (es : List Value) : parsedElements es = es.map parsedJson := by
  induction es with
  | nil => rfl
  | cons e es ih => rw [parsedElements, ih, List.map_cons]

theorem integer_parsedJson (n : WideInt) : (parsedJson (.number n)).integer = some n.val := by
  have lower := n.lower
  have upper := n.upper
  rw [parsedJson]
  split_ifs with negative
  · rw [Json.integer, Int64.toInt_ofInt_of_le lower (by omega)]
  · rw [Json.integer, UInt64.toNat_ofNat_of_lt' (by simp [UInt64.size]; omega),
      Int.toNat_of_nonneg (by omega)]

theorem lookup_parsedMembers (ms : Rapidjson.Members) (result : Nlohmann.Members)
    (name : Bytes) :
    List.lookup name (parsedMembers ms result) =
      ((List.lookup name ms.reverse).map parsedJson).or (List.lookup name result) := by
  induction ms generalizing result with
  | nil => simp [parsedMembers]
  | cons m ms ih =>
      obtain ⟨key, value⟩ := m
      rw [parsedMembers, ih, List.reverse_cons, List.lookup_append, ← nlohmannLookup_eq]
      cases List.lookup name ms.reverse with
      | some found => rfl
      | none =>
          by_cases same : key = name
          · subst same
            simp [lookup_assign_self]
          · rw [lookup_assign_ne (Ne.symm same), nlohmannLookup_eq,
              Assoc.lookup_cons_ne (x := (key, value)) same]
            rfl

theorem lookup_parsed_of_distinct {ms : Rapidjson.Members} (distinct : Assoc.Distinct ms)
    (name : Bytes) :
    List.lookup name (parsedMembers ms []) = (List.lookup name ms).map parsedJson := by
  rw [lookup_parsedMembers, Assoc.lookup_perm distinct (List.reverse_perm ms).symm]
  exact Option.or_none

/-- The two libraries' values of one document are equal. -/
theorem converted_equal_parsed {v : Value} (tidy : Tidy v) :
    EqualJson (rapidjsonToNlohmannJson v) (parsedJson v) := by
  induction tidy with
  | null => exact .null
  | bool b => exact .boolean b
  | number n => exact .integer (integer_convertNumber n) (integer_parsedJson n)
  | double d => exact .numberFloat d
  | @string s nulFree =>
      rw [rapidjsonToNlohmannJson, cString_of_nulFree nulFree]
      exact .string s
  | @array es _ ih =>
      rw [rapidjsonToNlohmannJson, convertElements_eq_map, parsedJson, parsedElements_eq_map]
      refine .array (by simp) ?_
      rw [List.zip_map']
      intro p paired
      obtain ⟨e, inside, rfl⟩ := List.mem_map.mp paired
      exact ih e inside
  | @object ms nulFree distinct _ ih =>
      rw [rapidjsonToNlohmannJson, parsedJson]
      refine .object ?_ ?_
      · intro name
        rw [lookup_converted_of_distinct nulFree distinct, lookup_parsed_of_distinct distinct,
          Option.isSome_map, Option.isSome_map]
      · intro name i j here there
        rw [lookup_converted_of_distinct nulFree distinct] at here
        rw [lookup_parsed_of_distinct distinct] at there
        obtain ⟨v, found, rfl⟩ := Option.map_eq_some_iff.mp here
        rw [found, Option.map_some, Option.some.injEq] at there
        subst there
        exact ih (name, v) (Assoc.mem_of_lookup found)

/-- One reply: the client's transfer and the server's bring the same text, and the
two libraries read the same document in it. -/
structure SameReply {ω : Type} (L : Libraries) (transfer : Performed ω) (u : Upstream)
    (symbol : Bytes) (v : Value) : Prop where
  delivered : transfer.success = true
  received : ∃ body text, Stripped transfer.response body ∧ Unpacked L body text ∧
    parseJSONResponse L text = (true, v) ∧ u.body symbol = some text ∧
    L.nlohmannParse text = some (parsedJson v)

/-- The server's book without the member that it adds. -/
def withoutLatency (rs : Nlohmann.Members) : Nlohmann.Members :=
  rs.filter fun m => m.1 != bytes "processing_latency_ms"

/-- Both readers return, and either both report failure or their books agree. -/
inductive ReadersAgree (client server : Outcome Json) : Prop
  | failed {book result : Json} : client = .ok book → server = .ok result →
      book.empty = true → result.empty = true → ReadersAgree client server
  | read {ms rs : Nlohmann.Members} {part : Json} : client = .ok (.object ms) →
      server = .ok (.object rs) → ms ≠ [] → rs ≠ [] →
      List.lookup (bytes "result") ms = some part →
      EqualJson part (.object (withoutLatency rs)) → ReadersAgree client server

/-- The replies on which they do. -/
def Concordant (v : Value) : Prop :=
  v = .null ∨ ∃ ms, v = .object ms ∧ ∀ result, List.lookup (bytes "result") ms = some result →
    ∃ rs, result = .object rs ∧ List.lookup (bytes "processing_latency_ms") rs = none

theorem lookup_withoutLatency (rs : Nlohmann.Members) (name : Bytes) :
    List.lookup name (withoutLatency rs) =
      if name = bytes "processing_latency_ms" then none else List.lookup name rs := by
  unfold withoutLatency
  induction rs with
  | nil => simp
  | cons m rs ih =>
      obtain ⟨key, value⟩ := m
      rw [List.filter_cons]
      by_cases added : key = bytes "processing_latency_ms"
      · rw [if_neg (by simp [added]), ih]
        split_ifs with same
        · rfl
        · rw [Assoc.lookup_cons_ne (x := (key, value))]
          rintro rfl
          exact same added
      · rw [if_pos (by simp [added])]
        by_cases here : key = name
        · subst here
          rw [if_neg added, List.lookup_cons_self, List.lookup_cons_self]
        · rw [Assoc.lookup_cons_ne (x := (key, value)) here, ih,
            Assoc.lookup_cons_ne (x := (key, value)) here]

theorem lookup_assign_withoutLatency (latency : Json) (rs : Nlohmann.Members) (name : Bytes) :
    List.lookup name
        (withoutLatency (Nlohmann.Members.assign (bytes "processing_latency_ms") latency rs)) =
      if name = bytes "processing_latency_ms" then none else List.lookup name rs := by
  rw [lookup_withoutLatency]
  split_ifs with same
  · rfl
  · rw [← nlohmannLookup_eq, lookup_assign_ne same, nlohmannLookup_eq]

/-- The result of an upstream reply as the server passes it on. -/
theorem added_latency_agrees_iff {rs : Rapidjson.Members} (tidy : Tidy (.object rs))
    (latency : Json) :
    EqualJson (rapidjsonToNlohmannJson (.object rs)) (.object (withoutLatency
        (Nlohmann.Members.assign (bytes "processing_latency_ms") latency
          (parsedMembers rs [])))) ↔
      List.lookup (bytes "processing_latency_ms") rs = none := by
  have equal := converted_equal_parsed tidy
  rw [rapidjsonToNlohmannJson] at equal ⊢
  rw [parsedJson] at equal
  cases tidy with
  | object nulFree distinct each =>
      cases equal with
      | object names each =>
          constructor
          · intro agrees
            cases agrees with
            | object names' _ =>
                have absent := names' (bytes "processing_latency_ms")
                rw [lookup_assign_withoutLatency, if_pos rfl,
                  lookup_converted_of_distinct nulFree distinct, Option.isSome_map] at absent
                exact Option.not_isSome_iff_eq_none.mp (by rw [absent]; decide)
            | integer value => cases value
          · intro absent
            refine .object ?_ ?_
            · intro name
              rw [lookup_assign_withoutLatency]
              split_ifs with added
              · rw [added, lookup_converted_of_distinct nulFree distinct, absent]
                rfl
              · exact names name
            · intro name i j here there
              rw [lookup_assign_withoutLatency] at there
              split_ifs at there with added
              exact each name i j here there
      | integer value => cases value

theorem SameReply.client {ω : Type} {L : Libraries} {net : Network ω} {ctx : CallContext}
    {symbol : Bytes} {s : OrderAPI} {w : ω} {u : Upstream} {v : Value}
    (reply : SameReply L (performAsyncCurlRequest net s.curlManager (orderBookUrl symbol) []
      ctx.readBuffer [] w) u symbol v) :
    (s.getOrderBookData L net ctx symbol w).1 = .ok (bookOf v) := by
  obtain ⟨body, text, stripped, unpacked, parsed, _, _⟩ := reply.received
  have read : readResponse L (orderBookBody (performAsyncCurlRequest net s.curlManager
      (orderBookUrl symbol) [] ctx.readBuffer [] w).response) = .ok (some (true, v)) := by
    simp only [readResponse, (stripped_iff ..).mp stripped, ok_bind,
      (gunzipped_eq_some_iff ..).mpr unpacked, parsed]
    rfl
  simp only [OrderAPI.getOrderBookData, reply.delivered, if_true]
  exact orderBookReply_of_document read

theorem SameReply.server {ω : Type} {L : Libraries} {transfer : Performed ω} {symbol : Bytes}
    {u : Upstream} {v : Value} (reply : SameReply L transfer u symbol v) :
    ∃ text, getOrderBook L u symbol = orderBookOf L u.processingLatency text ∧
      L.nlohmannParse text = some (parsedJson v) := by
  obtain ⟨_, text, _, _, _, received, parsed⟩ := reply.received
  exact ⟨text, by rw [getOrderBook, received], parsed⟩

/-- A result that the server can add its latency to is an object; a null one is a
failure to it, and anything else throws. -/
theorem orderBookOf_object {L : Libraries} {text : Bytes} {js : Nlohmann.Members}
    (latency : Int64) (parsed : L.nlohmannParse text = some (.object js)) :
    orderBookOf L latency text =
      match List.lookup (bytes "result") js with
      | none => .ok .null
      | some .null => .ok .null
      | some (.object rs) => .ok (.object (Nlohmann.Members.assign
          (bytes "processing_latency_ms") (.numberInteger latency) rs))
      | some _ => .error .typeError := by
  rw [← nlohmannLookup_eq]
  simp only [orderBookOf, parsed, Json.index]
  cases here : Nlohmann.Members.lookup js (bytes "result") with
  | none => rfl
  | some result =>
      cases result with
      | object rs => simp [Json.isNull, Json.assign, lookup_assign_self]
      | _ => rfl

theorem ReadersAgree.not_of_error {client : Outcome Json} {f : Fault} :
    ¬ ReadersAgree client (.error f) := by
  intro agree
  cases agree with
  | failed _ threw => cases threw
  | read _ threw => cases threw

/-- With a book on the client's side, the server has to return one that is equal. -/
theorem ReadersAgree.of_book {ms : Nlohmann.Members} {part server : Json} (nonempty : ms ≠ [])
    (here : List.lookup (bytes "result") ms = some part) :
    ReadersAgree (.ok (.object ms)) (.ok server) ↔
      ∃ rs, server = .object rs ∧ rs ≠ [] ∧ EqualJson part (.object (withoutLatency rs)) := by
  constructor
  · intro agree
    cases agree with
    | failed book result empty _ =>
        cases book
        simp [Json.empty, nonempty] at empty
    | read book result _ nonempty' found equal =>
        cases book
        cases result
        cases here.symm.trans found
        exact ⟨_, rfl, nonempty', equal⟩
  · intro agreed
    obtain ⟨rs, same, nonempty', equal⟩ := agreed
    exact .read rfl (by rw [same]) nonempty nonempty' here equal

theorem concordant_object_iff {ms : Rapidjson.Members} {result : Value}
    (here : List.lookup (bytes "result") ms = some result) :
    Concordant (.object ms) ↔
      ∃ rs, result = .object rs ∧ List.lookup (bytes "processing_latency_ms") rs = none := by
  constructor
  · intro concordant
    rcases concordant with null | ⟨ms', same, held⟩
    · cases null
    · cases same
      exact held result here
  · intro held
    refine .inr ⟨ms, rfl, ?_⟩
    intro result' found
    cases here.symm.trans found
    exact held

theorem readers_agree_object_iff {L : Libraries} {text : Bytes} {ms : Rapidjson.Members}
    (latency : Int64) (tidy : Tidy (.object ms))
    (parsed : L.nlohmannParse text = some (parsedJson (.object ms))) :
    ReadersAgree (.ok (bookOf (.object ms))) (orderBookOf L latency text) ↔
      Concordant (.object ms) := by
  rw [parsedJson] at parsed
  obtain ⟨nulFree, distinct⟩ := tidy.names
  rw [orderBookOf_object latency parsed, lookup_parsed_of_distinct distinct, bookOf,
    rapidLookup_eq]
  cases here : List.lookup (bytes "result") ms with
  | none =>
      refine iff_of_true (.failed rfl rfl rfl rfl) (.inr ⟨ms, rfl, ?_⟩)
      intro result found
      rw [here] at found
      cases found
  | some result =>
      rw [concordant_object_iff here, if_pos (by rfl), rapidjsonToNlohmannJson,
        Option.map_some]
      have found : List.lookup (bytes "result") (convertMembers ms []) =
          some (rapidjsonToNlohmannJson result) := by
        rw [lookup_converted_of_distinct nulFree distinct, here, Option.map_some]
      have nonempty : convertMembers ms [] ≠ [] := by
        intro empty
        rw [empty] at found
        cases found
      cases result with
      | object rs =>
          have inner := tidy.members _ (Assoc.mem_of_lookup here)
          have equal := added_latency_agrees_iff inner (.numberInteger latency)
          refine (ReadersAgree.of_book nonempty found).trans ?_
          constructor
          · intro agreed
            obtain ⟨rs', same, _, agrees⟩ := agreed
            cases same
            exact ⟨rs, rfl, equal.mp agrees⟩
          · intro absence
            obtain ⟨rs', same, absent⟩ := absence
            cases same
            exact ⟨_, rfl, assign_ne_nil _ _ _, equal.mpr absent⟩
      | null =>
          refine iff_of_false ?_ (by simp)
          intro agree
          obtain ⟨rs, same, _⟩ := (ReadersAgree.of_book nonempty found).mp agree
          cases same
      | number n =>
          refine iff_of_false ?_ (by simp)
          rw [parsedJson]
          split_ifs
          · exact ReadersAgree.not_of_error
          · exact ReadersAgree.not_of_error
      | _ => exact iff_of_false ReadersAgree.not_of_error (by simp)

/-- For every shape of reply, on both paths. -/
theorem order_book_readers_agree_iff {ω : Type} (L : Libraries) (net : Network ω)
    (ctx : CallContext) (symbol : Bytes) (s : OrderAPI) (w : ω) (u : Upstream) (v : Value)
    (tidy : Tidy v)
    (reply : SameReply L (performAsyncCurlRequest net s.curlManager (orderBookUrl symbol) []
      ctx.readBuffer [] w) u symbol v) :
    ReadersAgree (s.getOrderBookData L net ctx symbol w).1 (getOrderBook L u symbol) ↔
      Concordant v := by
  obtain ⟨text, server, parsed⟩ := reply.server
  rw [reply.client, server]
  cases v with
  | object ms => exact readers_agree_object_iff u.processingLatency tidy parsed
  | null =>
      have empty : orderBookOf L u.processingLatency text = .ok .null := by
        simp only [orderBookOf, parsed, parsedJson, Json.index, ok_bind, Json.isNull, if_true]
        rfl
      exact iff_of_true (.failed rfl empty rfl rfl) (.inl rfl)
  | number n =>
      refine iff_of_false ?_ (by simp [Concordant])
      have threw : orderBookOf L u.processingLatency text = .error .typeError := by
        simp only [orderBookOf, parsed, parsedJson]
        split_ifs <;> rfl
      rw [threw]
      exact ReadersAgree.not_of_error
  | _ =>
      refine iff_of_false ?_ (by simp [Concordant])
      simp only [orderBookOf, parsed, parsedJson, Json.index, error_bind]
      exact ReadersAgree.not_of_error

def upstreamReplies : List (Bytes × Value) :=
  [(bytes "\x7b\"result\":\x7b\"asks\":[]\x7d\x7d",
      .object [(bytes "result", .object [(bytes "asks", .array [])])]),
    (bytes "[]", .array []),
    (bytes "\x7b\"result\":null\x7d", .object [(bytes "result", .null)]),
    (bytes "\x7b\"result\":\"busy\"\x7d", .object [(bytes "result", .string (bytes "busy"))]),
    (bytes "\x7b\"result\":\x7b\"processing_latency_ms\":null\x7d\x7d",
      .object [(bytes "result", .object [(bytes "processing_latency_ms", .null)])])]

/-- Both parsers know the same texts. -/
def upstreamLibraries : Libraries where
  rapidParse := fun text => (upstreamReplies.find? fun r => r.1 == text).map Prod.snd
  nlohmannParse := fun text =>
    (upstreamReplies.find? fun r => r.1 == text).map fun r => parsedJson r.2
  dump := fun _ => []
  gunzip := .ofTable fun _ => []
  deflate := .ofTable fun _ => []

/-- What the client and the server make of one text. -/
def clientRead (text : Bytes) : Outcome Json :=
  (sampleClient.getOrderBookData upstreamLibraries scripted (intactContext 64)
    (bytes "BTC-PERPETUAL") [⟨.ok, [okBuffer text]⟩]).1

def serverRead (text : Bytes) : Outcome Json :=
  getOrderBook upstreamLibraries ⟨fun _ => .received text, 3⟩ (bytes "BTC-PERPETUAL")

theorem sameReply_of_known {text : Bytes} {v : Value}
    (behind : orderBookBody (okBuffer text) = .ok text) (unzipped : isGzip text = false)
    (nulFree : 0 ∉ text)
    (known : (upstreamReplies.find? fun r => r.1 == text).map Prod.snd = some v) :
    SameReply upstreamLibraries (performAsyncCurlRequest scripted sampleClient.curlManager
      (orderBookUrl (bytes "BTC-PERPETUAL")) [] (intactContext 64).readBuffer []
      [⟨.ok, [okBuffer text]⟩]) ⟨fun _ => .received text, 3⟩ (bytes "BTC-PERPETUAL") v where
  delivered := rfl
  received := by
    refine ⟨text, text, (stripped_iff ..).mpr behind, .inr ⟨?_, rfl⟩, ?_, rfl, ?_⟩
    · rw [← isGzip_iff, unzipped]
      decide
    · rw [parseJSONResponse, cString_of_nulFree nulFree]
      simp only [upstreamLibraries, known]
    · obtain ⟨r, found, rfl⟩ := Option.map_eq_some_iff.mp known
      simp only [upstreamLibraries, found, Option.map_some]

theorem book_read_alike : ReadersAgree
    (clientRead (bytes "\x7b\"result\":\x7b\"asks\":[]\x7d\x7d"))
    (serverRead (bytes "\x7b\"result\":\x7b\"asks\":[]\x7d\x7d")) := by
  have asks : Tidy (.object [(bytes "asks", .array [])]) :=
    .object (by decide) (by decide) (List.forall_mem_singleton.mpr (.array (List.forall_mem_nil _)))
  have tidy : Tidy (.object [(bytes "result", .object [(bytes "asks", .array [])])]) :=
    .object (by decide) (by decide) (List.forall_mem_singleton.mpr asks)
  refine (order_book_readers_agree_iff upstreamLibraries scripted (intactContext 64) _ sampleClient
    _ _ _ tidy (sameReply_of_known rfl rfl (by decide) rfl)).mpr ?_
  refine .inr ⟨_, rfl, ?_⟩
  intro result found
  cases found
  exact ⟨_, rfl, rfl⟩

/-- A root that is no object, a null result, a result of another kind, and one that
has a latency of its own. -/
theorem readers_disagree :
    (clientRead (bytes "[]") = .ok .null ∧ serverRead (bytes "[]") = .error .typeError ∧
        ¬ ReadersAgree (clientRead (bytes "[]")) (serverRead (bytes "[]"))) ∧
      (clientRead (bytes "\x7b\"result\":null\x7d") = .ok (.object [(bytes "result", .null)]) ∧
        serverRead (bytes "\x7b\"result\":null\x7d") = .ok .null ∧
        ¬ ReadersAgree (clientRead (bytes "\x7b\"result\":null\x7d"))
          (serverRead (bytes "\x7b\"result\":null\x7d"))) ∧
      (clientRead (bytes "\x7b\"result\":\"busy\"\x7d") =
          .ok (.object [(bytes "result", .string (bytes "busy"))]) ∧
        serverRead (bytes "\x7b\"result\":\"busy\"\x7d") = .error .typeError) ∧
      clientRead (bytes "\x7b\"result\":\x7b\"processing_latency_ms\":null\x7d\x7d") =
          .ok (.object [(bytes "result", .object [(bytes "processing_latency_ms", .null)])]) ∧
        serverRead (bytes "\x7b\"result\":\x7b\"processing_latency_ms\":null\x7d\x7d") =
          .ok (.object [(bytes "processing_latency_ms", .numberInteger 3)]) := by
  have null : serverRead (bytes "\x7b\"result\":null\x7d") = .ok .null := rfl
  refine ⟨⟨rfl, rfl, ReadersAgree.not_of_error⟩, ⟨rfl, null, ?_⟩, ⟨rfl, rfl⟩, rfl, rfl⟩
  rw [null]
  intro agree
  obtain ⟨rs, same, _⟩ := (ReadersAgree.of_book (List.cons_ne_nil _ _) rfl).mp agree
  cases same

end DeribitTrading
