import DeribitTrading.WebSocketClient.Messages
import DeribitTrading.WebSocketClient.Requests

/-!
An order book on its way from the upstream server to the display: what
`WebSocketServer` adds to it, compresses and sends, `WebSocketClient` decompresses,
parses and shows. The client shows what it would show of the book itself.
-/
namespace DeribitTrading
open ByteString Numbers Nlohmann

def Row.reread (row : Row) : Row := ⟨row.price.reread, row.amount.reread, row.side⟩

theorem constElement_reread (j : Json) (i : Nat) :
    j.reread.constElement i = Json.reread <$> j.constElement i := by
  cases j with
  | array es =>
      rw [reread_array]
      simp only [Json.constElement, List.getElem?_map]
      cases es[i]? <;> rfl
  | object ms =>
      rw [reread_object]
      rfl
  | numberInteger n =>
      rw [Json.reread]
      split <;> rfl
  | _ =>
      rw [Json.reread]
      rfl

theorem constMember_reread (j : Json) (name : Bytes) :
    j.reread.constMember name = Json.reread <$> j.constMember name := by
  cases j with
  | object ms =>
      rw [reread_object]
      simp only [Json.constMember, lookup_reread]
      cases Members.lookup ms name <;> rfl
  | array es =>
      rw [reread_array]
      rfl
  | numberInteger n =>
      rw [Json.reread]
      split <;> rfl
  | _ =>
      rw [Json.reread]
      rfl

theorem rereadMembers_values (ms : Nlohmann.Members) :
    (rereadMembers ms).map Prod.snd = (ms.map Prod.snd).map Json.reread := by
  induction ms with
  | nil => rfl
  | cons m ms ih =>
      obtain ⟨name, value⟩ := m
      rw [rereadMembers, List.map_cons, List.map_cons, List.map_cons, ih]

theorem items_reread (j : Json) : j.reread.items = j.items.map Json.reread := by
  cases j with
  | array es =>
      rw [reread_array]
      rfl
  | object ms =>
      rw [reread_object]
      exact rereadMembers_values ms
  | numberInteger n =>
      have one : (Json.numberInteger n).items = [.numberInteger n] := rfl
      rw [one, List.map_singleton, Json.reread]
      split <;> rfl
  | _ =>
      rw [Json.reread]
      simp [Json.items, Json.reread]

theorem displayRows_reread (side : Side) (rows : List Json) :
    displayRows side (rows.map Json.reread) = List.map Row.reread <$> displayRows side rows := by
  induction rows with
  | nil => rfl
  | cons row rows ih =>
      simp only [List.map_cons, displayRows, ih, constElement_reread, bind_map_left, map_bind,
        map_pure]
      rfl

theorem displayOrderBook_reread (book : Json) :
    displayOrderBook (some book.reread) = List.map Row.reread <$> displayOrderBook (some book) := by
  simp only [displayOrderBook, constMember_reread, items_reread, displayRows_reread, bind_map_left,
    map_bind, map_pure, List.map_append]

/-- The display does not look at any member but the two. -/
theorem displayOrderBook_assign {ms : Nlohmann.Members} {name : Bytes} (value : Json)
    (notAsks : bytes "asks" ≠ name) (notBids : bytes "bids" ≠ name) :
    displayOrderBook (some (.object (Members.assign name value ms))) =
      displayOrderBook (some (.object ms)) := by
  simp only [displayOrderBook, Json.constMember, lookup_assign_ne notAsks,
    lookup_assign_ne notBids]

theorem index_reread {j v : Json} {name : Bytes} (there : j.contains name = true)
    (found : j.index name = .ok (v, j)) : j.reread.index name = .ok (v.reread, j.reread) := by
  cases j with
  | object ms =>
      rw [reread_object]
      simp only [Json.contains] at there
      obtain ⟨own, here⟩ := Option.isSome_iff_exists.mp there
      cases (index_of_lookup here).symm.trans found
      exact index_of_lookup (by rw [lookup_reread, here, Option.map_some])
  | _ => cases there

theorem serverDelay_reread (currentMillis : Int64) (book : Json) :
    serverDelay currentMillis (some book.reread) = serverDelay currentMillis (some book) := by
  obtain ⟨absent, _⟩ | ⟨v, there, found, _⟩ := member_cases book (bytes "server_send_time")
  · simp [serverDelay, contains_reread, absent]
  · simp only [serverDelay, contains_reread, there, if_true, index_reread there found, found,
      ok_bind, getInt64_reread]

theorem loggedLatency_reread (book : Json) :
    loggedLatency (some book.reread) = loggedLatency (some book) := by
  obtain ⟨absent, _⟩ | ⟨v, there, found, _⟩ := member_cases book (bytes "processing_latency_ms")
  · simp [loggedLatency, contains_reread, absent]
  · simp only [loggedLatency, contains_reread, there, if_true, index_reread there found, found,
      ok_bind, getInt64_reread]

/-- What is behind the parser in the `try` block of `on_message`. -/
def showBook (currentMillis : Int64) (book : Json) : Outcome Shown := do
  let propagationDelay ← serverDelay currentMillis (some book)
  let processingLatency ← loggedLatency (some book)
  let rows ← displayOrderBook (some book)
  return ⟨propagationDelay, processingLatency, rows⟩

def Shown.reread (shown : Shown) : Shown := { shown with rows := shown.rows.map Row.reread }

theorem showBook_reread (currentMillis : Int64) (book : Json) :
    showBook currentMillis book.reread = Shown.reread <$> showBook currentMillis book := by
  simp only [showBook, serverDelay_reread, loggedLatency_reread, displayOrderBook_reread,
    bind_map_left, map_bind, map_pure]
  rfl

/-- The wire and the parser do what they are for on this value: its text and the stream
made of it fit zlib's counters, and each side reads what the other has written. -/
structure Carried (L : Libraries) (inflate : Streaming.Codec) (F : Streaming.Format) (j : Json) :
    Prop where
  rereads : L.Rereads j
  shortText : (L.dump j).length < 2 ^ 32
  shortStream : ∀ z, compressString L (L.dump j) = .ok z → z.length < 2 ^ 32
  deflates : L.deflate.Encodes F (L.dump j)
  inflates : ∀ z, F.IsStream z (L.dump j) → inflate.Decodes F z

/-- What is carried is shown as it would be at the other end. -/
theorem Carried.shown {L : Libraries} {inflate : Streaming.Codec} {F : Streaming.Format} {j : Json}
    (carried : Carried L inflate F j) :
    ∃ z, compressString L (L.dump j) = .ok z ∧ ∀ currentMillis,
      showMessage L inflate currentMillis z = Shown.reread <$> showBook currentMillis j := by
  obtain ⟨z, compressed, stream⟩ := compressString_spec carried.shortText carried.deflates
  have back : decompressString inflate z = .ok (L.dump j) :=
    decompressString_spec (carried.shortStream z compressed) (carried.inflates z stream) stream
  refine ⟨z, compressed, fun currentMillis => ?_⟩
  have parsed : L.nlohmannParse (L.dump j) = some j.reread := carried.rereads
  rw [← showBook_reread]
  simp only [showMessage, back, ok_bind, parsed]
  rfl

def stamped (now : Int64) (ms : Nlohmann.Members) : Nlohmann.Members :=
  Members.assign (bytes "server_send_time") (.numberInteger now) ms

theorem firstUpdate_of_bookOf {L : Libraries} {u : Upstream} {symbol : Bytes}
    {rs : Nlohmann.Members} (book : BookOf L u symbol rs) :
    firstUpdate L u symbol = some <$> compressString L (L.dump (.object (measured u rs))) := by
  have full : (measured u rs).isEmpty = false := by
    rw [List.isEmpty_eq_false_iff]
    exact assign_ne_nil _ _ _
  simp only [firstUpdate, getOrderBook_of_bookOf book, ok_bind, Json.empty, full,
    Bool.false_eq_true, if_false, bind_pure_comp]

theorem periodicUpdate_of_bookOf {L : Libraries} {u : Upstream} {symbol : Bytes}
    {rs : Nlohmann.Members} (book : BookOf L u symbol rs) (now : Int64) :
    periodicUpdate L u now symbol =
      some <$> compressString L (L.dump (.object (stamped now (measured u rs)))) := by
  have full : (measured u rs).isEmpty = false := by
    rw [List.isEmpty_eq_false_iff]
    exact assign_ne_nil _ _ _
  simp only [periodicUpdate, getOrderBook_of_bookOf book, ok_bind, Json.empty, full,
    Bool.false_eq_true, if_false, Json.assign, bind_pure_comp]
  rfl

/-- What the display of an upstream book is meant to be, its delay read some way. -/
def displayed (delay : Outcome (Option Int64)) (u : Upstream) (rs : Nlohmann.Members) :
    Outcome Shown := do
  let propagationDelay ← delay
  let rows ← displayOrderBook (some (.object rs))
  return ⟨propagationDelay, some u.processingLatency, rows⟩

theorem latency_measured (u : Upstream) (rs : Nlohmann.Members) :
    Members.lookup (measured u rs) (bytes "processing_latency_ms") =
      some (.numberInteger u.processingLatency) := lookup_assign_self ..

theorem loggedLatency_of_lookup {ms : Nlohmann.Members} {v : Json} {n : Int64}
    (here : Members.lookup ms (bytes "processing_latency_ms") = some v)
    (read : v.getInt64 = .ok n) : loggedLatency (some (.object ms)) = .ok (some n) := by
  simp only [loggedLatency, Json.contains, here, Option.isSome_some, if_true, Json.index, ok_bind,
    read]
  rfl

theorem displayOrderBook_measured (u : Upstream) (rs : Nlohmann.Members) :
    displayOrderBook (some (.object (measured u rs))) = displayOrderBook (some (.object rs)) :=
  displayOrderBook_assign _ (by decide) (by decide)

theorem displayOrderBook_stamped (now : Int64) (ms : Nlohmann.Members) :
    displayOrderBook (some (.object (stamped now ms))) = displayOrderBook (some (.object ms)) :=
  displayOrderBook_assign _ (by decide) (by decide)

theorem serverDelay_of_lookup (currentMillis : Int64) (ms : Nlohmann.Members) :
    serverDelay currentMillis (some (.object ms)) =
      ((Members.lookup ms (bytes "server_send_time")).elim (.ok none) fun v =>
        v.getInt64 >>= delayBetween currentMillis) := by
  cases here : Members.lookup ms (bytes "server_send_time") with
  | none => simp [serverDelay, Json.contains, here]
  | some v =>
      simp only [serverDelay, Json.contains, here, Option.isSome_some, if_true, Json.index, ok_bind,
        Option.elim_some]
      refine congrArg (bind v.getInt64) (funext fun sent => ?_)
      unfold delayBetween
      cases subInt64 currentMillis sent <;> rfl

theorem showBook_measured (currentMillis : Int64) (u : Upstream) (rs : Nlohmann.Members) :
    showBook currentMillis (.object (measured u rs)) =
      displayed (serverDelay currentMillis (some (.object rs))) u rs := by
  have untouched : Members.lookup (measured u rs) (bytes "server_send_time") =
      Members.lookup rs (bytes "server_send_time") := lookup_assign_ne (by decide) ..
  have latency := loggedLatency_of_lookup (latency_measured u rs) rfl
  simp only [showBook, serverDelay_of_lookup, untouched, latency, ok_bind,
    displayOrderBook_measured, displayed]

theorem showBook_stamped (currentMillis sent : Int64) (u : Upstream) (rs : Nlohmann.Members) :
    showBook currentMillis (.object (stamped sent (measured u rs))) =
      displayed (delayBetween currentMillis sent) u rs := by
  have stamp : Members.lookup (stamped sent (measured u rs)) (bytes "server_send_time") =
      some (.numberInteger sent) := lookup_assign_self ..
  have untouched : Members.lookup (stamped sent (measured u rs))
      (bytes "processing_latency_ms") = some (.numberInteger u.processingLatency) :=
    (lookup_assign_ne (by decide) ..).trans (latency_measured u rs)
  simp only [showBook, serverDelay_of_lookup, stamp, Option.elim_some, Json.getInt64, ok_bind,
    loggedLatency_of_lookup untouched rfl, displayOrderBook_stamped, displayOrderBook_measured,
    displayed]

/-- The update that is sent: the first one without the server's time, or one with it. -/
def updateOf (L : Libraries) (u : Upstream) (symbol : Bytes) :
    Option Int64 → Outcome (Option Bytes)
  | none => firstUpdate L u symbol
  | some now => periodicUpdate L u now symbol

def bookSent (u : Upstream) (rs : Nlohmann.Members) : Option Int64 → Nlohmann.Members
  | none => measured u rs
  | some now => stamped now (measured u rs)

/-- An update without a time has the delay that the upstream's book itself may speak of. -/
def delayShown (currentMillis : Int64) (rs : Nlohmann.Members) :
    Option Int64 → Outcome (Option Int64)
  | none => serverDelay currentMillis (some (.object rs))
  | some sent => delayBetween currentMillis sent

theorem updateOf_bookOf {L : Libraries} {u : Upstream} {symbol : Bytes} {rs : Nlohmann.Members}
    (book : BookOf L u symbol rs) (stamp : Option Int64) :
    updateOf L u symbol stamp =
      some <$> compressString L (L.dump (.object (bookSent u rs stamp))) := by
  cases stamp with
  | none => exact firstUpdate_of_bookOf book
  | some now => exact periodicUpdate_of_bookOf book now

theorem showBook_sent (currentMillis : Int64) (u : Upstream) (rs : Nlohmann.Members)
    (stamp : Option Int64) :
    showBook currentMillis (.object (bookSent u rs stamp)) =
      displayed (delayShown currentMillis rs stamp) u rs := by
  cases stamp with
  | none => exact showBook_measured currentMillis u rs
  | some sent => exact showBook_stamped currentMillis sent u rs

/-- Whether it is shown or what is thrown, the client makes of an update what it would
make of the upstream's book with the measured latency. -/
theorem update_shown {L : Libraries} {inflate : Streaming.Codec} {F : Streaming.Format}
    {u : Upstream} {symbol : Bytes} {rs : Nlohmann.Members} {stamp : Option Int64}
    (book : BookOf L u symbol rs)
    (carried : Carried L inflate F (.object (bookSent u rs stamp))) :
    ∃ z, updateOf L u symbol stamp = .ok (some z) ∧ ∀ currentMillis,
      showMessage L inflate currentMillis z =
        Shown.reread <$> displayed (delayShown currentMillis rs stamp) u rs := by
  obtain ⟨z, compressed, shown⟩ := carried.shown
  refine ⟨z, ?_, fun currentMillis => ?_⟩
  · rw [updateOf_bookOf book, compressed]
    rfl
  · rw [shown, showBook_sent]

theorem survives_map_iff {α β : Type} (f : α → β) (r : Outcome α) :
    Survives (f <$> r) ↔ Survives r := by
  rw [← bind_pure_comp]
  exact survives_return_iff r f

/-- The delay that `delayShown` measures is defined. -/
def Timely (currentMillis : Int64) (rs : Nlohmann.Members) : Option Int64 → Prop
  | none => TimeInRange currentMillis rs
  | some sent => -2 ^ 63 ≤ currentMillis.toInt - sent.toInt ∧
      currentMillis.toInt - sent.toInt < 2 ^ 63

/-- The client goes on to the rows: no time throws. -/
def GoesOn (rs : Nlohmann.Members) : Option Int64 → Prop
  | none => NumericMember rs (bytes "server_send_time")
  | some _ => True

theorem delayShown_spec (currentMillis : Int64) (rs : Nlohmann.Members) (stamp : Option Int64) :
    (Survives (delayShown currentMillis rs stamp) ↔ Timely currentMillis rs stamp) ∧
    (Survives (delayShown currentMillis rs stamp) →
      (Finishes (delayShown currentMillis rs stamp) ↔ GoesOn rs stamp)) := by
  cases stamp with
  | none => exact serverDelay_spec currentMillis rs
  | some sent =>
      simp only [delayShown, delayBetween, Timely, GoesOn]
      rcases subInt64_cases currentMillis sent with ⟨d, found, bounds⟩ | ⟨found, overflows⟩
      · rw [found]
        exact ⟨iff_of_true (survives_ok _) bounds, fun _ => iff_of_true (finishes_ok _) trivial⟩
      · rw [found]
        have fatal : ¬ Survives (.error .undefined : Outcome (Option Int64)) := by
          simp [survives_error_iff, Fault.fatal]
        exact ⟨iff_of_false fatal overflows, fun survives => absurd survives fatal⟩

/-- An update ends the client exactly if the upstream's book itself is one that it cannot
time or display: the server passes on whatever has a result. -/
theorem update_survived_iff {L : Libraries} {inflate : Streaming.Codec} {F : Streaming.Format}
    {u : Upstream} {symbol : Bytes} {rs : Nlohmann.Members} {stamp : Option Int64}
    (book : BookOf L u symbol rs)
    (carried : Carried L inflate F (.object (bookSent u rs stamp))) :
    ∃ z, updateOf L u symbol stamp = .ok (some z) ∧ ∀ currentMillis,
      (Finishes (onMessage L inflate currentMillis z) ↔
        Timely currentMillis rs stamp ∧ (GoesOn rs stamp → Displayable rs)) := by
  obtain ⟨z, made, shown⟩ := update_shown book carried
  refine ⟨z, made, fun currentMillis => ?_⟩
  obtain ⟨timely, goesOn⟩ := delayShown_spec currentMillis rs stamp
  rw [onMessage_finishes_iff, shown, survives_map_iff, displayed, ← timely,
    survives_then_iff _ _ (P := Displayable rs)]
  · refine and_congr_right fun survives => ?_
    rw [goesOn survives]
  · intro delay
    rw [survives_return_iff]
    exact survives_displayOrderBook_iff rs

/-- The streams that the sample zlib knows. -/
def feedFormat : Streaming.Format where
  IsStream := fun z s => (z, s) ∈ feedStreams
  decoded := by
    intro z s t first second
    have distinct : Assoc.Distinct feedStreams := by decide +kernel
    have found := Assoc.lookup_of_mem distinct first
    exact Option.some.inj (found.symm.trans (Assoc.lookup_of_mem distinct second))
  delimited := by
    intro z z' s t whole other inFront
    have apart : ∀ a ∈ feedStreams, ∀ b ∈ feedStreams, b.1 <+: a.1 → b.1 = a.1 := by
      decide +kernel
    exact apart _ whole _ other inFront

/-- Anything else ends with `Z_BUF_ERROR`. -/
def feedInflate : Streaming.Codec where
  State := Bytes
  start := some
  call := fun input =>
    match feedStreams.find? fun stream => stream.1.isPrefixOf input with
    | some stream => ⟨.streamEnd, stream.2, input⟩
    | none => ⟨.failed (-5), [], input⟩
  work := fun _ => 0
  progress := fun input more => by
    split at more <;> cases more

theorem feedInflate_decodes (input : Bytes) : feedInflate.Decodes feedFormat input := by
  have last : (feedInflate.call input).status ≠ .ok := by
    simp only [feedInflate]
    split <;> exact nofun
  refine ⟨rfl, ?_, ?_⟩
  · intro s out t started reached ⟨z, d, inFront, stream⟩
    cases started
    obtain ⟨_, rfl⟩ := reached.eq_start last
    have known : (feedStreams.find? fun stream => stream.1.isPrefixOf t).isSome := by
      rw [List.find?_isSome]
      exact ⟨(z, d), stream, List.isPrefixOf_iff_prefix.mpr inFront⟩
    obtain ⟨found, there⟩ := Option.isSome_iff_exists.mp known
    exact .inr (by simp [feedInflate, there])
  · intro s out t started reached ended
    cases started
    obtain ⟨rfl, rfl⟩ := reached.eq_start last
    simp only [feedInflate] at ended
    split at ended
    · next stream there =>
      have front := List.find?_some there
      refine ⟨stream.1, List.isPrefixOf_iff_prefix.mp front, ?_⟩
      simp only [feedInflate, there, List.nil_append]
      exact List.mem_of_find?_eq_some there
    · cases ended

/-- What the sample zlib makes of a text that it knows. -/
def sampleStream (text : Bytes) : Bytes :=
  ((feedStreams.find? fun stream => stream.2 == text).map Prod.fst).getD []

theorem sampleFeed_encodes {s : Bytes} (known : (sampleStream s, s) ∈ feedStreams) :
    sampleFeed.deflate.Encodes feedFormat s := by
  have last : (sampleFeed.deflate.call s).status ≠ .ok := by
    intro more
    cases more
  refine ⟨rfl, fun _ _ _ _ _ => .inr rfl, ?_⟩
  intro t out t' started reached _
  cases started
  obtain ⟨rfl, rfl⟩ := reached.eq_start last
  exact known

theorem sampleFeed_carries {j : Json} (rereads : sampleFeed.Rereads j)
    (known : (sampleStream (sampleFeed.dump j), sampleFeed.dump j) ∈ feedStreams) :
    Carried sampleFeed feedInflate feedFormat j := by
  have lengths : ∀ stream ∈ feedStreams, stream.1.length < 2 ^ 32 ∧ stream.2.length < 2 ^ 32 := by
    decide +kernel
  obtain ⟨shortStream, shortText⟩ := lengths _ known
  have encodes := sampleFeed_encodes known
  refine ⟨rereads, shortText, ?_, encodes, fun z _ => feedInflate_decodes z⟩
  intro z compressed
  obtain ⟨z', compressed', stream⟩ := compressString_spec shortText encodes
  cases compressed.symm.trans compressed'
  exact (lengths _ stream).1

def sampleMarket : Upstream := ⟨fun _ => .received feedReply, 3⟩

theorem sampleMarket_bookOf_iff (rs : Nlohmann.Members) :
    BookOf sampleFeed sampleMarket perpetual rs ↔ rs = sampleBook := by
  constructor
  · intro ⟨readBuffer, ms, received, parsed, here⟩
    cases received
    have known : sampleFeed.nlohmannParse feedReply =
        some (.object [(bytes "result", .object sampleBook)]) := rfl
    cases known.symm.trans parsed
    cases here
    rfl
  · rintro rfl
    exact ⟨feedReply, _, rfl, rfl, rfl⟩

theorem sampleMarket_carried {stamp : Option Int64}
    (stamping : stamp = none ∨ stamp = some 1700000001000) :
    Carried sampleFeed feedInflate feedFormat
      (.object (bookSent sampleMarket sampleBook stamp)) := by
  obtain rfl | rfl := stamping
  · exact sampleFeed_carries rfl (by decide +kernel)
  · exact sampleFeed_carries rfl (by decide +kernel)

theorem sampleMarket_survived :
    ∃ z, updateOf sampleFeed sampleMarket perpetual (some 1700000001000) = .ok (some z) ∧
      Finishes (onMessage sampleFeed feedInflate 1700000001004 z) := by
  obtain ⟨z, made, survived⟩ := update_survived_iff ((sampleMarket_bookOf_iff _).mpr rfl)
    (sampleMarket_carried (.inr rfl))
  refine ⟨z, made, (survived _).mpr ⟨by simp [Timely], fun _ => ?_⟩⟩
  refine (survives_displayOrderBook_iff sampleBook).mp fun fault threw => ?_
  cases threw

/-- The line of the display that a row of the book makes. -/
def rowOf (side : Side) : Json → Option Row
  | .array (price :: amount :: _) => some ⟨price, amount, side⟩
  | _ => none

/-- A book whose asks and bids are arrays of rows, each with a price and an amount. -/
structure Quoted (rs : Nlohmann.Members) (sells buys : List Row) : Prop where
  asks : ∃ es, Members.lookup rs (bytes "asks") = some (.array es) ∧
    es.map (rowOf .sell) = sells.map some
  bids : ∃ es, Members.lookup rs (bytes "bids") = some (.array es) ∧
    es.map (rowOf .buy) = buys.map some

theorem displayRows_of_rows {side : Side} {es : List Json} {rows : List Row}
    (paired : es.map (rowOf side) = rows.map some) : displayRows side es = .ok rows := by
  induction es generalizing rows with
  | nil =>
      cases rows with
      | nil => rfl
      | cons row rows => cases paired
  | cons e es ih =>
      cases rows with
      | nil => cases paired
      | cons row rows =>
          obtain ⟨first, others⟩ := List.cons.inj paired
          cases e with
          | array cells =>
              match cells, first with
              | price :: amount :: _, first =>
                  cases first
                  simp only [displayRows, Json.constElement, List.getElem?_cons_zero,
                    List.getElem?_cons_succ, ok_bind, ih others]
                  rfl
          | _ => cases first

theorem displayOrderBook_of_quoted {rs : Nlohmann.Members} {sells buys : List Row}
    (quoted : Quoted rs sells buys) :
    displayOrderBook (some (.object rs)) = .ok (sells ++ buys) := by
  obtain ⟨asks, asked, sellRows⟩ := quoted.asks
  obtain ⟨bids, bid, buyRows⟩ := quoted.bids
  simp only [displayOrderBook, Json.constMember, asked, bid, ok_bind, Json.items,
    displayRows_of_rows sellRows, displayRows_of_rows buyRows]
  rfl

end DeribitTrading
