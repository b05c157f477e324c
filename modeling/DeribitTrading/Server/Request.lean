import DeribitTrading.Client.Requests
import DeribitTrading.Client.TokenManager
import DeribitTrading.Library.Streaming

/-!
The work of one `on_message` thread of `WebSocketServer`, as functions of the
payload, the clock and what the upstream server answers. Where the code has no
handler, a failure of any of these leaves the thread.
-/
namespace DeribitTrading
open ByteString Numbers Nlohmann

/-- The delay that is logged when the request carries `client_send_time`. -/
def propagationDelay (receivedMillis : Int64) (request : Option Json) : Outcome (Option Int64) :=
  match request with
  | none => .ok none
  | some request =>
      if request.contains (bytes "client_send_time") then do
        let (member, _) ← request.index (bytes "client_send_time")
        let clientSendTime ← member.getInt64
        match subInt64 receivedMillis clientSendTime with
        | some delay => return some delay
        | none => .error .undefined
      else
        .ok none

def requestedSymbol (request : Option Json) : Outcome (Option Bytes) :=
  match request with
  | none => .ok none
  | some request =>
      if request.contains (bytes "symbol") then do
        let (member, _) ← request.index (bytes "symbol")
        return some (← member.getString)
      else
        .ok none

/-- The part of the handler before its first shared step; `none` is a discarded
value, which contains nothing. -/
def readRequest (L : Libraries) (receivedMillis : Int64) (payload : Bytes) :
    Outcome (Option Bytes) := do
  let request := L.nlohmannParse payload
  let _ ← propagationDelay receivedMillis request
  requestedSymbol request

/-- What a fetch meets upstream, and the latency measured for it. -/
structure Upstream where
  fetch : Bytes → CurlFetch
  processingLatency : Int64

def orderBookOf (L : Libraries) (processingLatency : Int64) (readBuffer : Bytes) :
    Outcome Json :=
  match L.nlohmannParse readBuffer with
  | none => .ok .null
  | some orderBook => do
      let (result, orderBook) ← orderBook.index (bytes "result")
      if result.isNull then return .null
      let result ← result.assign (bytes "processing_latency_ms") (.numberInteger processingLatency)
      let orderBook ← orderBook.assign (bytes "result") result
      let (result, _) ← orderBook.index (bytes "result")
      return result

/-- The body that `getOrderBook` goes on with; `none` is its early return. -/
def Upstream.body (u : Upstream) (symbol : Bytes) : Option Bytes :=
  match u.fetch (cString (orderBookUrl symbol)) with
  | .failed _ => none
  | .noHandle => some []
  | .received readBuffer => some readBuffer

def getOrderBook (L : Libraries) (u : Upstream) (symbol : Bytes) : Outcome Json :=
  match u.body symbol with
  | none => .ok .null
  | some readBuffer => orderBookOf L u.processingLatency readBuffer

def compressString (L : Libraries) (str : Bytes) : Outcome Bytes :=
  match L.deflate.start (Streaming.availIn str) with
  | none => .error .runtimeError
  | some zs =>
      match Streaming.drain L.deflate zs 0 [] with
      | (.streamEnd, outstring) => .ok outstring
      | _ => .error .runtimeError

/-- The first update for a symbol; `none` when there is no order book to send. -/
def firstUpdate (L : Libraries) (u : Upstream) (symbol : Bytes) : Outcome (Option Bytes) := do
  let orderBookData ← getOrderBook L u symbol
  if orderBookData.empty then return none
  else return some (← compressString L (L.dump orderBookData))

/-- An update of the loop, stamped with the server's time. -/
def periodicUpdate (L : Libraries) (u : Upstream) (now : Int64) (symbol : Bytes) :
    Outcome (Option Bytes) := do
  let orderBookData ← getOrderBook L u symbol
  if orderBookData.empty then return none
  else
    let orderBookData ← orderBookData.assign (bytes "server_send_time") (.numberInteger now)
    return some (← compressString L (L.dump orderBookData))

/-- Everything the thread does up to its first send: the symbol and the update. -/
def firstWork (L : Libraries) (receivedMillis : Int64) (u : Upstream) (payload : Bytes) :
    Outcome (Option (Bytes × Option Bytes)) := do
  match ← readRequest L receivedMillis payload with
  | none => return none
  | some symbol => return some (symbol, ← firstUpdate L u symbol)

/-- A request whose members have their types, sent at a time the delay fits. -/
structure WellTyped (receivedMillis : Int64) (request : Json) : Prop where
  time : ∀ v, Member request (bytes "client_send_time") v →
    ∃ n, Timestamp v n ∧ -2 ^ 63 ≤ receivedMillis.toInt - n ∧ receivedMillis.toInt - n < 2 ^ 63
  symbol : ∀ v, Member request (bytes "symbol") v → ∃ s, v = .string s

/-- A book that is null, or an object with no result, a null one or an object. -/
def WellFormedBook (orderBook : Json) : Prop :=
  orderBook = .null ∨ ∃ ms, orderBook = .object ms ∧
    ∀ result, Nlohmann.Members.lookup ms (bytes "result") = some result →
      result = .null ∨ ∃ rs, result = .object rs

theorem propagationDelay_finishes_iff (receivedMillis : Int64) (request : Json) :
    Finishes (propagationDelay receivedMillis (some request)) ↔
      ∀ v, Member request (bytes "client_send_time") v →
        ∃ n, Timestamp v n ∧ -2 ^ 63 ≤ receivedMillis.toInt - n ∧
          receivedMillis.toInt - n < 2 ^ 63 := by
  unfold propagationDelay
  rcases member_cases request (bytes "client_send_time") with ⟨absent, none⟩ | ⟨v, here, read, only⟩
  · simp [absent, none]
  · simp only [here, read, only, forall_eq, timestamp_iff, if_true, ok_bind]
    rcases stamp : v.getInt64 with f | n
    · simp
    · have fits := subInt64_isSome_iff receivedMillis n
      have shown : Finishes (match subInt64 receivedMillis n with
          | some delay => pure (some delay)
          | none => (.error .undefined : Outcome (Option Int64))) ↔
            (subInt64 receivedMillis n).isSome := by
        cases subInt64 receivedMillis n <;> simp
      refine shown.trans (fits.trans ?_)
      constructor
      · intro bounds
        exact ⟨_, ⟨n, rfl, rfl⟩, bounds⟩
      · rintro ⟨_, ⟨m, same, rfl⟩, bounds⟩
        cases same
        exact bounds

theorem requestedSymbol_finishes_iff (request : Json) :
    Finishes (requestedSymbol (some request)) ↔
      ∀ v, Member request (bytes "symbol") v → ∃ s, v = .string s := by
  unfold requestedSymbol
  rcases member_cases request (bytes "symbol") with ⟨absent, none⟩ | ⟨v, here, read, only⟩
  · simp [absent, none]
  · simp only [here, read, only, forall_eq, if_true, ok_bind]
    exact (finishes_map_iff ..).trans (getString_finishes_iff v)

theorem requestedSymbol_eq_some_iff (request : Json) (symbol : Bytes) :
    requestedSymbol (some request) = .ok (some symbol) ↔
      Member request (bytes "symbol") (.string symbol) := by
  unfold requestedSymbol
  rcases member_cases request (bytes "symbol") with ⟨absent, none⟩ | ⟨v, here, read, only⟩
  · simp [absent, none]
  · simp only [here, read, only, if_true, ok_bind]
    cases v <;> simp [Json.getString, eq_comm]

theorem readRequest_finishes_iff (L : Libraries) (receivedMillis : Int64) (payload : Bytes) :
    Finishes (readRequest L receivedMillis payload) ↔
      ∀ request, L.nlohmannParse payload = some request → WellTyped receivedMillis request := by
  unfold readRequest
  rcases L.nlohmannParse payload with _ | request
  · simp [propagationDelay, requestedSymbol]
  · simp only [Option.some.injEq, forall_eq']
    have delay := propagationDelay_finishes_iff receivedMillis request
    have symbol := requestedSymbol_finishes_iff request
    rw [finishes_bind_iff]
    constructor
    · rintro ⟨d, logged, fine⟩
      exact ⟨delay.mp ⟨d, logged⟩, symbol.mp fine⟩
    · rintro ⟨time, typed⟩
      obtain ⟨d, logged⟩ := delay.mpr time
      exact ⟨d, logged, symbol.mpr typed⟩

theorem orderBookOf_finishes_iff (L : Libraries) (processingLatency : Int64)
    (readBuffer : Bytes) :
    Finishes (orderBookOf L processingLatency readBuffer) ↔
      ∀ book, L.nlohmannParse readBuffer = some book → WellFormedBook book := by
  unfold orderBookOf
  rcases L.nlohmannParse readBuffer with _ | book
  · simp
  · simp only [Option.some.injEq, forall_eq']
    cases book with
    | null => simp [WellFormedBook, Json.index, Json.isNull]
    | object ms =>
        rcases here : Nlohmann.Members.lookup ms (bytes "result") with _ | result
        · simp [WellFormedBook, Json.index, here, Json.isNull]
        · cases result with
          | null => simp [WellFormedBook, Json.index, here, Json.isNull]
          | object rs =>
              simp [WellFormedBook, Json.index, here, Json.isNull, Json.assign,
                lookup_assign_self]
          | _ => simp [WellFormedBook, Json.index, here, Json.isNull, Json.assign]
    | _ => simp [WellFormedBook, Json.index]

theorem compressString_finishes {L : Libraries} (zlib : L.deflate.Reliable) (str : Bytes) :
    Finishes (compressString L str) := by
  obtain ⟨zs, started⟩ := Option.isSome_iff_exists.mp (zlib.starts (Streaming.availIn str))
  have ended := zlib.drain zs 0 []
  rcases drained : Streaming.drain L.deflate zs 0 [] with ⟨status, outstring⟩
  rw [drained] at ended
  simp only [compressString, started, drained, show status = .streamEnd from ended]
  exact finishes_ok _

theorem firstUpdate_finishes_iff {L : Libraries} (zlib : L.deflate.Reliable) (u : Upstream)
    (symbol : Bytes) :
    Finishes (firstUpdate L u symbol) ↔ Finishes (getOrderBook L u symbol) := by
  unfold firstUpdate
  rcases getOrderBook L u symbol with f | orderBookData
  · simp
  · simp only [ok_bind, finishes_ok, iff_true]
    split
    · exact finishes_ok _
    · exact (finishes_map_iff ..).mpr (compressString_finishes zlib _)

theorem getOrderBook_finishes_iff (L : Libraries) (u : Upstream) (symbol : Bytes) :
    Finishes (getOrderBook L u symbol) ↔
      ∀ readBuffer, u.body symbol = some readBuffer →
        ∀ book, L.nlohmannParse readBuffer = some book → WellFormedBook book := by
  unfold getOrderBook
  rcases u.body symbol with _ | readBuffer
  · simp
  · simpa using orderBookOf_finishes_iff L u.processingLatency readBuffer

/-- A payload and an upstream reply that the thread survives. -/
structure Harmless (L : Libraries) (receivedMillis : Int64) (u : Upstream) (payload : Bytes) :
    Prop where
  request : ∀ request, L.nlohmannParse payload = some request →
    WellTyped receivedMillis request
  upstream : ∀ request symbol, L.nlohmannParse payload = some request →
    Member request (bytes "symbol") (.string symbol) →
      ∀ readBuffer, u.body symbol = some readBuffer →
        ∀ book, L.nlohmannParse readBuffer = some book → WellFormedBook book

theorem readRequest_eq_some {L : Libraries} {receivedMillis : Int64} {payload symbol : Bytes}
    (read : readRequest L receivedMillis payload = .ok (some symbol)) :
    ∃ request, L.nlohmannParse payload = some request ∧
      Member request (bytes "symbol") (.string symbol) := by
  obtain ⟨_, _, read⟩ := bind_eq_ok_iff.mp read
  rcases parsed : L.nlohmannParse payload with _ | request
  · rw [parsed] at read
    cases read
  · rw [parsed] at read
    exact ⟨request, rfl, (requestedSymbol_eq_some_iff request symbol).mp read⟩

theorem readRequest_of_member {L : Libraries} {receivedMillis : Int64} {payload symbol : Bytes}
    {request : Json} {found : Option Bytes}
    (read : readRequest L receivedMillis payload = .ok found)
    (parsed : L.nlohmannParse payload = some request)
    (member : Member request (bytes "symbol") (.string symbol)) : found = some symbol := by
  obtain ⟨_, _, read⟩ := bind_eq_ok_iff.mp read
  rw [parsed] at read
  exact Except.ok.inj (read.symm.trans ((requestedSymbol_eq_some_iff request symbol).mpr member))

/-- The thread lives through its first work exactly on a harmless message. -/
theorem firstWork_finishes_iff (L : Libraries) (zlib : L.deflate.Reliable)
    (receivedMillis : Int64) (u : Upstream) (payload : Bytes) :
    Finishes (firstWork L receivedMillis u payload) ↔ Harmless L receivedMillis u payload := by
  unfold firstWork
  rw [finishes_bind_iff]
  constructor
  · rintro ⟨found, read, fine⟩
    refine ⟨(readRequest_finishes_iff L receivedMillis payload).mp ⟨found, read⟩, ?_⟩
    intro request symbol parsed member
    cases readRequest_of_member read parsed member
    have updated := (finishes_map_iff ..).mp fine
    exact (getOrderBook_finishes_iff L u symbol).mp
      ((firstUpdate_finishes_iff zlib u symbol).mp updated)
  · rintro ⟨typed, upstream⟩
    obtain ⟨found, read⟩ := (readRequest_finishes_iff L receivedMillis payload).mpr typed
    refine ⟨found, read, ?_⟩
    cases found with
    | none => exact finishes_ok _
    | some symbol =>
        obtain ⟨request, parsed, member⟩ := readRequest_eq_some read
        refine (finishes_map_iff ..).mpr ((firstUpdate_finishes_iff zlib u symbol).mpr ?_)
        exact (getOrderBook_finishes_iff L u symbol).mpr (upstream request symbol parsed member)

/-- The message names a symbol, and nothing in it stops the thread before. -/
def AsksFor (L : Libraries) (receivedMillis : Int64) (payload symbol : Bytes) : Prop :=
  ∃ request, L.nlohmannParse payload = some request ∧ WellTyped receivedMillis request ∧
    Member request (bytes "symbol") (.string symbol)

theorem readRequest_eq_some_iff (L : Libraries) (receivedMillis : Int64)
    (payload symbol : Bytes) :
    readRequest L receivedMillis payload = .ok (some symbol) ↔
      AsksFor L receivedMillis payload symbol := by
  have finishes := readRequest_finishes_iff L receivedMillis payload
  constructor
  · intro read
    obtain ⟨request, parsed, member⟩ := readRequest_eq_some read
    exact ⟨request, parsed, finishes.mp ⟨_, read⟩ request parsed, member⟩
  · intro ⟨request, parsed, typed, member⟩
    obtain ⟨found, read⟩ := finishes.mpr fun request' parsed' => by
      cases parsed.symm.trans parsed'
      exact typed
    cases readRequest_of_member read parsed member
    exact read

instance (L : Libraries) (receivedMillis : Int64) (payload : Bytes) :
    Decidable (∃ symbol, AsksFor L receivedMillis payload symbol) :=
  decidable_of_iff ((match readRequest L receivedMillis payload with
      | .ok (some _) => true
      | _ => false) = true) <| by
    simp only [← readRequest_eq_some_iff]
    constructor
    · intro found
      split at found
      · next symbol read => exact ⟨symbol, read⟩
      · cases found
    · intro ⟨symbol, read⟩
      simp [read]

/-- The upstream server answers with this order book. -/
def BookOf (L : Libraries) (u : Upstream) (symbol : Bytes) (rs : Nlohmann.Members) : Prop :=
  ∃ readBuffer ms, u.body symbol = some readBuffer ∧
    L.nlohmannParse readBuffer = some (.object ms) ∧
    Nlohmann.Members.lookup ms (bytes "result") = some (.object rs)

def HasBook (L : Libraries) (u : Upstream) (symbol : Bytes) : Prop :=
  ∃ rs, BookOf L u symbol rs

instance (L : Libraries) (u : Upstream) (symbol : Bytes) : Decidable (HasBook L u symbol) :=
  decidable_of_iff ((u.body symbol).any fun readBuffer =>
      match L.nlohmannParse readBuffer with
      | some (.object ms) =>
          match Nlohmann.Members.lookup ms (bytes "result") with
          | some (.object _) => true
          | _ => false
      | _ => false) <| by
    unfold HasBook BookOf
    constructor
    · intro found
      obtain ⟨readBuffer, received, found⟩ := (Option.any_eq_true ..).mp found
      split at found
      · next ms parsed =>
        split at found
        · next rs here => exact ⟨rs, readBuffer, ms, received, parsed, here⟩
        · cases found
      · cases found
    · intro ⟨rs, readBuffer, ms, received, parsed, here⟩
      simp [received, parsed, here]

/-- A book with the latency of its fetch. -/
def measured (u : Upstream) (rs : Nlohmann.Members) : Nlohmann.Members :=
  Nlohmann.Members.assign (bytes "processing_latency_ms") (.numberInteger u.processingLatency) rs

theorem getOrderBook_of_bookOf {L : Libraries} {u : Upstream} {symbol : Bytes}
    {rs : Nlohmann.Members} (book : BookOf L u symbol rs) :
    getOrderBook L u symbol = .ok (.object (measured u rs)) := by
  obtain ⟨readBuffer, ms, received, parsed, here⟩ := book
  simp [getOrderBook, received, orderBookOf, parsed, Json.index, here, Json.isNull, Json.assign,
    lookup_assign_self, measured]

theorem getOrderBook_of_hasBook {L : Libraries} {u : Upstream} {symbol : Bytes}
    (book : HasBook L u symbol) :
    ∃ ms, getOrderBook L u symbol = .ok (.object ms) ∧ ms ≠ [] := by
  obtain ⟨rs, book⟩ := book
  exact ⟨measured u rs, getOrderBook_of_bookOf book, assign_ne_nil _ _ _⟩

/-- Anything but null comes from an order book. -/
theorem hasBook_of_getOrderBook {L : Libraries} {u : Upstream} {symbol : Bytes} {book : Json}
    (got : getOrderBook L u symbol = .ok book) : book = .null ∨ HasBook L u symbol := by
  unfold getOrderBook at got
  cases received : u.body symbol with
  | none =>
      rw [received] at got
      exact .inl (Except.ok.inj got).symm
  | some readBuffer =>
      simp only [received, orderBookOf] at got
      cases parsed : L.nlohmannParse readBuffer with
      | none =>
          rw [parsed] at got
          exact .inl (Except.ok.inj got).symm
      | some orderBook =>
          simp only [parsed] at got
          cases orderBook with
          | null => exact .inl (Except.ok.inj got).symm
          | object ms =>
              cases here : Nlohmann.Members.lookup ms (bytes "result") with
              | none =>
                  simp only [Json.index, here, ok_bind] at got
                  exact .inl (Except.ok.inj got).symm
              | some result =>
                  simp only [Json.index, here, ok_bind] at got
                  cases result with
                  | null => exact .inl (Except.ok.inj got).symm
                  | object rs => exact .inr ⟨rs, readBuffer, ms, received, parsed, here⟩
                  | _ => cases got
          | _ => cases got

theorem hasBook_of_firstUpdate {L : Libraries} {u : Upstream} {symbol update : Bytes}
    (made : firstUpdate L u symbol = .ok (some update)) : HasBook L u symbol := by
  obtain ⟨book, got, made⟩ := bind_eq_ok_iff.mp made
  obtain rfl | found := hasBook_of_getOrderBook got
  · cases made
  · exact found

theorem hasBook_of_periodicUpdate {L : Libraries} {u : Upstream} {now : Int64}
    {symbol update : Bytes} (made : periodicUpdate L u now symbol = .ok (some update)) :
    HasBook L u symbol := by
  obtain ⟨book, got, made⟩ := bind_eq_ok_iff.mp made
  obtain rfl | found := hasBook_of_getOrderBook got
  · cases made
  · exact found

theorem firstUpdate_of_hasBook {L : Libraries} (zlib : L.deflate.Reliable) {u : Upstream}
    {symbol : Bytes} (book : HasBook L u symbol) :
    ∃ update, firstUpdate L u symbol = .ok (some update) := by
  obtain ⟨ms, got, some⟩ := getOrderBook_of_hasBook book
  obtain ⟨update, compressed⟩ := compressString_finishes zlib (L.dump (.object ms))
  exact ⟨update, by simp [firstUpdate, got, Json.empty, some, compressed]⟩

theorem periodicUpdate_of_hasBook {L : Libraries} (zlib : L.deflate.Reliable) {u : Upstream}
    (now : Int64) {symbol : Bytes} (book : HasBook L u symbol) :
    ∃ update, periodicUpdate L u now symbol = .ok (some update) := by
  obtain ⟨ms, got, some⟩ := getOrderBook_of_hasBook book
  obtain ⟨update, compressed⟩ := compressString_finishes zlib
    (L.dump (.object (Nlohmann.Members.assign (bytes "server_send_time") (.numberInteger now) ms)))
  exact ⟨update, by simp [periodicUpdate, got, Json.empty, some, Json.assign, compressed]⟩

/-- The texts that the examples below parse, each with its value. -/
def sampleTexts : List (Bytes × Json) :=
  [(bytes "\x7b\"client_send_time\":1700000000000,\"symbol\":\"BTC-PERPETUAL\"\x7d",
      .object [(bytes "client_send_time", .numberUnsigned 1700000000000),
        (bytes "symbol", .string (bytes "BTC-PERPETUAL"))]),
    (bytes "\x7b\"result\":\x7b\"asks\":[]\x7d\x7d",
      .object [(bytes "result", .object [(bytes "asks", .array [])])]),
    (bytes "\x7b\"client_send_time\":\"now\"\x7d",
      .object [(bytes "client_send_time", .string (bytes "now"))]),
    (bytes "\x7b\"symbol\":\"ETH-PERPETUAL\"\x7d",
      .object [(bytes "symbol", .string (bytes "ETH-PERPETUAL"))]),
    (bytes "\x7b\"symbol\":5\x7d", .object [(bytes "symbol", .numberUnsigned 5)]),
    (bytes "\x7b\"client_send_time\":-9223372036854775808\x7d",
      .object [(bytes "client_send_time", .numberInteger (-9223372036854775808))])]

def sampleDump : Bytes := bytes "\x7b\"asks\":[],\"processing_latency_ms\":3\x7d"

/-- `sampleDump` as zlib compresses it at the best level. -/
def sampleDeflated : Bytes :=
  [120, 218, 171, 86, 74, 44, 206, 46, 86, 178, 138, 142, 213, 81, 42, 40, 202, 79, 78,
    45, 46, 206, 204, 75, 143, 207, 73, 44, 73, 205, 75, 174, 140, 207, 5, 74, 25, 215, 2,
    0, 253, 41, 13, 137]

def sampleServer : Libraries where
  rapidParse := fun _ => none
  nlohmannParse := fun text => (sampleTexts.find? fun t => t.1 == text).map Prod.snd
  dump := fun _ => sampleDump
  gunzip := .idle
  deflate := .ofTable fun _ => sampleDeflated

def sampleUpstream : Upstream where
  fetch := fun _ => .received (bytes "\x7b\"result\":\x7b\"asks\":[]\x7d\x7d")
  processingLatency := 3

def samplePayload : Bytes :=
  bytes "\x7b\"client_send_time\":1700000000000,\"symbol\":\"BTC-PERPETUAL\"\x7d"

theorem samplePayload_harmless :
    Harmless sampleServer 1700000000005 sampleUpstream samplePayload := by
  have parsed : sampleServer.nlohmannParse samplePayload =
      some (.object [(bytes "client_send_time", .numberUnsigned 1700000000000),
        (bytes "symbol", .string (bytes "BTC-PERPETUAL"))]) := rfl
  constructor
  · intro request found
    cases parsed.symm.trans found
    constructor
    · rintro v ⟨_, same, member⟩
      cases same
      cases member
      exact ⟨_, .unsigned _, by decide, by decide⟩
    · rintro v ⟨_, same, member⟩
      cases same
      cases member
      exact ⟨_, rfl⟩
  · intro _ _ _ _ readBuffer received book found
    cases received
    cases found
    exact .inr ⟨_, rfl, by rintro result ⟨⟩; exact .inr ⟨_, rfl⟩⟩

theorem samplePayload_survived :
    Finishes (firstWork sampleServer 1700000000005 sampleUpstream samplePayload) :=
  (firstWork_finishes_iff sampleServer (Streaming.Codec.ofTable_reliable _) _ _ _).mpr
    samplePayload_harmless

/-- A time that is no number, a symbol that is no string, a time too far back. -/
theorem payloads_end_thread :
    firstWork sampleServer 1700000000005 sampleUpstream
        (bytes "\x7b\"client_send_time\":\"now\"\x7d") = .error .typeError ∧
      firstWork sampleServer 1700000000005 sampleUpstream (bytes "\x7b\"symbol\":5\x7d") =
        .error .typeError ∧
      firstWork sampleServer 1700000000005 sampleUpstream
        (bytes "\x7b\"client_send_time\":-9223372036854775808\x7d") = .error .undefined :=
  ⟨rfl, rfl, rfl⟩

end DeribitTrading
