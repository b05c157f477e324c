import DeribitTrading.Json.Text
import DeribitTrading.Server.Request

/-!
What `WebSocketClient` sends, as functions of the clock, and what the server's
`on_message` reads in it. `send_message` parses the text it is given and writes it
again with the time in it.
-/
namespace DeribitTrading
open ByteString Numbers Nlohmann

/-- The text that `send_message` hands to `m_client.send`. -/
def sendMessage (L : Libraries) (currentMillis : Int64) (message : Bytes) : Outcome Bytes :=
  match L.nlohmannParse message with
  | none => .error .parseError
  | some msg => do
      let msg ← msg.assign (bytes "client_send_time") (.numberInteger currentMillis)
      return L.dump msg

abbrev perpetual : Bytes := bytes "BTC-PERPETUAL"

/-- The request of `on_open`. -/
def openingRequest : Json := .object [(bytes "symbol", .string perpetual)]

def onOpenMessage (L : Libraries) (currentMillis : Int64) : Outcome Bytes :=
  sendMessage L currentMillis (L.dump openingRequest)

/-- What can take a member by `operator[]`, with the members it has. -/
def Nlohmann.Json.fields : Json → Option Nlohmann.Members
  | .object ms => some ms
  | .null => some []
  | _ => none

theorem assign_eq_of_fields {j : Json} {ms : Nlohmann.Members} (fields : j.fields = some ms)
    (name : Bytes) (value : Json) :
    j.assign name value = .ok (.object (Members.assign name value ms)) := by
  cases j with
  | object own =>
      cases fields
      rfl
  | null =>
      cases fields
      rfl
  | _ => cases fields

theorem assign_throws {j : Json} (other : j.fields = none) (name : Bytes) (value : Json) :
    j.assign name value = .error .typeError := by
  cases j with
  | object _ | null => cases other
  | _ => rfl

/-- A member that is there, and not a string, is not asked for in vain. -/
theorem requestedSymbol_of_lookup (request : Json) (ms : Nlohmann.Members)
    (fields : request.fields = some ms) :
    requestedSymbol (some request) =
      match Members.lookup ms (bytes "symbol") with
      | none => .ok none
      | some member => some <$> member.getString := by
  cases request with
  | object own =>
      cases fields
      cases here : Members.lookup ms (bytes "symbol") with
      | none => simp [requestedSymbol, Json.contains, here]
      | some member =>
          simp only [requestedSymbol, Json.contains, here, Option.isSome_some, if_true, Json.index,
            ok_bind]
          cases member.getString <;> rfl
  | null =>
      cases fields
      rfl
  | _ => cases fields

/-- The delay between two clock readings, where it fits. -/
def delayBetween (received sent : Int64) : Outcome (Option Int64) :=
  (subInt64 received sent).elim (.error .undefined) fun delay => .ok (some delay)

theorem propagationDelay_of_lookup {receivedMillis : Int64} {ms : Nlohmann.Members} {v : Json}
    {sent : Int64} (here : Members.lookup ms (bytes "client_send_time") = some v)
    (read : v.getInt64 = .ok sent) :
    propagationDelay receivedMillis (some (.object ms)) = delayBetween receivedMillis sent := by
  simp only [propagationDelay, Json.contains, here, Option.isSome_some, if_true, Json.index,
    ok_bind, read, delayBetween]
  cases subInt64 receivedMillis sent <;> rfl

theorem symbol_ne_client_send_time : bytes "symbol" ≠ bytes "client_send_time" := by decide

/-- The members that are sent, and what is read in them. -/
theorem sent_members_read {L : Libraries} {sent : Int64} {message : Bytes} {msg : Json}
    {ms : Nlohmann.Members} (parsed : L.nlohmannParse message = some msg)
    (fields : msg.fields = some ms)
    (rereads : L.Rereads
      (.object (Members.assign (bytes "client_send_time") (.numberInteger sent) ms))) :
    ∃ payload, sendMessage L sent message = .ok payload ∧
      (∀ received, propagationDelay received (L.nlohmannParse payload) =
        delayBetween received sent) ∧
      requestedSymbol (L.nlohmannParse payload) = requestedSymbol (some msg) := by
  refine ⟨L.dump (.object
    (Members.assign (bytes "client_send_time") (.numberInteger sent) ms)), ?_, ?_, ?_⟩
  · simp only [sendMessage, parsed, assign_eq_of_fields fields, ok_bind]
    rfl
  · intro received
    have here := lookup_reread
      (Members.assign (bytes "client_send_time") (.numberInteger sent) ms)
      (bytes "client_send_time")
    rw [lookup_assign_self] at here
    rw [rereads, reread_object]
    exact propagationDelay_of_lookup here (getInt64_reread _)
  · rw [rereads, reread_object, requestedSymbol_of_lookup _ _ rfl,
      requestedSymbol_of_lookup msg ms fields, lookup_reread,
      lookup_assign_ne symbol_ne_client_send_time]
    cases Members.lookup ms (bytes "symbol") with
    | none => rfl
    | some member => simp only [Option.map_some, getString_reread]

/-- What the server reads is the time of the sender, whatever time was in the message
before, and the symbol of the message. A text that does not parse is not sent at all,
nor is a value that can take no member. -/
theorem sent_message_read (L : Libraries) (sent received : Int64) (message : Bytes)
    (rereads : ∀ msg ms, L.nlohmannParse message = some msg → msg.fields = some ms → L.Rereads
      (.object (Members.assign (bytes "client_send_time") (.numberInteger sent) ms))) :
    (L.nlohmannParse message = none ∧ sendMessage L sent message = .error .parseError) ∨
      (∃ msg, L.nlohmannParse message = some msg ∧ msg.fields = none ∧
        sendMessage L sent message = .error .typeError) ∨
      ∃ msg payload, L.nlohmannParse message = some msg ∧
        sendMessage L sent message = .ok payload ∧
        propagationDelay received (L.nlohmannParse payload) = delayBetween received sent ∧
        requestedSymbol (L.nlohmannParse payload) = requestedSymbol (some msg) := by
  cases parsed : L.nlohmannParse message with
  | none =>
      refine .inl ⟨rfl, ?_⟩
      simp only [sendMessage, parsed]
  | some msg =>
      cases fields : msg.fields with
      | none =>
          refine .inr (.inl ⟨msg, rfl, fields, ?_⟩)
          simp only [sendMessage, parsed, assign_throws fields, error_bind]
      | some ms =>
          obtain ⟨payload, sends, delay, symbol⟩ :=
            sent_members_read parsed fields (rereads msg ms parsed fields)
          exact .inr (.inr ⟨msg, payload, rfl, sends, delay received, symbol⟩)

def sampleBook : Nlohmann.Members :=
  [(bytes "asks", .array [.array [.numberUnsigned 101, .numberUnsigned 2]]),
    (bytes "bids", .array [.array [.numberUnsigned 100, .numberUnsigned 1]])]

def feedReply : Bytes := bytes "\x7b\"result\":\x7b\"asks\":[[101,2]],\"bids\":[[100,1]]\x7d\x7d"

def openingText : Bytes := bytes "\x7b\"symbol\":\"BTC-PERPETUAL\"\x7d"

/-- The sample book as it goes out first, and as it goes out after that. -/
def measuredText : Bytes :=
  bytes "\x7b\"asks\":[[101,2]],\"bids\":[[100,1]],\"processing_latency_ms\":3\x7d"

def stampedText : Bytes :=
  bytes "\x7b\"asks\":[[101,2]],\"bids\":[[100,1]],\"processing_latency_ms\":3," ++
    bytes "\"server_send_time\":1700000001000\x7d"

/-- The texts of the feed, each with its value. -/
def feedTexts : List (Bytes × Json) :=
  [(openingText, openingRequest),
    (samplePayload, .object [(bytes "client_send_time", .numberUnsigned 1700000000000),
      (bytes "symbol", .string perpetual)]),
    (feedReply, .object [(bytes "result", .object sampleBook)]),
    (measuredText, .object (sampleBook ++ [(bytes "processing_latency_ms", .numberUnsigned 3)])),
    (stampedText, .object (sampleBook ++ [(bytes "processing_latency_ms", .numberUnsigned 3),
      (bytes "server_send_time", .numberUnsigned 1700000001000)]))]

/-- The two texts of the book, as zlib compresses them at the best level. -/
def feedStreams : List (Bytes × Bytes) :=
  [([120, 218, 171, 86, 74, 44, 206, 46, 86, 178, 138, 142, 54, 52, 48, 212, 49, 138, 141, 213, 81,
      74, 202, 76, 129, 10, 24, 232, 24, 130, 4, 10, 138, 242, 147, 83, 139, 139, 51, 243, 210, 227,
      115, 18, 75, 82, 243, 146, 43, 227, 115, 129, 42, 140, 107, 1, 69, 180, 19, 219],
    measuredText),
    ([120, 218, 171, 86, 74, 44, 206, 46, 86, 178, 138, 142, 54, 52, 48, 212, 49, 138, 141, 213, 81,
      74, 202, 76, 129, 10, 24, 232, 24, 130, 4, 10, 138, 242, 147, 83, 139, 139, 51, 243, 210, 227,
      115, 18, 75, 82, 243, 146, 43, 227, 115, 129, 42, 140, 117, 148, 138, 83, 139, 202, 82, 139,
      226, 139, 83, 243, 82, 226, 75, 50, 115, 83, 149, 172, 12, 205, 13, 32, 0, 168, 219, 160, 22,
      0, 140, 236, 29, 172],
    stampedText)]

def sampleFeed : Libraries where
  rapidParse := fun _ => none
  nlohmannParse := fun text => (feedTexts.find? fun t => t.1 == text).map Prod.snd
  dump := fun j =>
    if j.contains (bytes "client_send_time") then samplePayload
    else if j.contains (bytes "symbol") then openingText
    else if j.contains (bytes "server_send_time") then stampedText
    else measuredText
  gunzip := .idle
  deflate := .ofTable fun text =>
    ((feedStreams.find? fun stream => stream.2 == text).map Prod.fst).getD []

theorem sample_request_read :
    ∃ payload, sendMessage sampleFeed 1700000000000 openingText = .ok payload ∧
      propagationDelay 1700000000005 (sampleFeed.nlohmannParse payload) = .ok (some 5) ∧
      requestedSymbol (sampleFeed.nlohmannParse payload) = .ok (some perpetual) := by
  have parsed : sampleFeed.nlohmannParse openingText = some openingRequest := rfl
  have rereads : ∀ msg ms, sampleFeed.nlohmannParse openingText = some msg →
      msg.fields = some ms → sampleFeed.Rereads
        (.object (Members.assign (bytes "client_send_time") (.numberInteger 1700000000000)
          ms)) := by
    intro msg ms found fields
    cases parsed.symm.trans found
    cases fields
    rfl
  obtain ⟨unparsed, _⟩ | ⟨msg, found, fields, _⟩ | ⟨msg, payload, found, sends, delay, symbol⟩ :=
    sent_message_read sampleFeed 1700000000000 1700000000005 openingText rereads
  · cases parsed.symm.trans unparsed
  · cases parsed.symm.trans found
    cases fields
  · cases parsed.symm.trans found
    exact ⟨payload, sends, delay, symbol⟩

/-- Of two readings of a clock that counts from 1970 the difference always fits. -/
theorem delayBetween_of_nonneg {received sent : Int64} (later : 0 ≤ received) (early : 0 ≤ sent) :
    ∃ delay, delayBetween received sent = .ok (some delay) ∧
      delay.toInt = received.toInt - sent.toInt := by
  rw [Int64.le_iff_toInt_le, Int64.toInt_zero] at later early
  have below := received.toInt_lt
  have above := sent.toInt_lt
  obtain ⟨delay, fits⟩ := Option.isSome_iff_exists.mp
    ((subInt64_isSome_iff received sent).mpr (by omega))
  refine ⟨delay, by simp only [delayBetween, fits, Option.elim_some], ?_⟩
  exact (toInt64_eq_some_iff _ _).mp fits

/-- What every `on_message` reads `BTC-PERPETUAL` in. -/
def AsksForPerpetual (L : Libraries) (payload : Bytes) : Prop :=
  ∀ received : Int64, 0 ≤ received →
    readRequest L received payload = .ok (some perpetual)

/-- nlohmann::json reads back the two texts that opening a connection writes. -/
structure ReadsOpening (L : Libraries) (sent : Int64) : Prop where
  request : L.Rereads openingRequest
  stamped : L.Rereads (.object (Members.assign (bytes "client_send_time") (.numberInteger sent)
    [(bytes "symbol", .string perpetual)]))

theorem onOpenMessage_asks {L : Libraries} {sent : Int64} (rereads : ReadsOpening L sent)
    (clock : 0 ≤ sent) :
    ∃ payload, onOpenMessage L sent = .ok payload ∧ AsksForPerpetual L payload := by
  have again : openingRequest.reread = openingRequest := by
    rw [openingRequest, reread_object, rereadMembers, rereadMembers, reread_string]
  have parsed : L.nlohmannParse (L.dump openingRequest) = some openingRequest :=
    again ▸ rereads.request
  obtain ⟨payload, sends, delay, symbol⟩ := sent_members_read parsed rfl rereads.stamped
  refine ⟨payload, sends, fun received later => ?_⟩
  obtain ⟨between, fits, _⟩ := delayBetween_of_nonneg later clock
  have asked : requestedSymbol (some openingRequest) = .ok (some perpetual) := rfl
  simp only [readRequest, delay received, fits, ok_bind, symbol, asked]

end DeribitTrading
