import DeribitTrading.WebSocketClient.Decompression

/-!
`WebSocketClient::on_message` and `displayOrderBook`. The handler catches what is
an exception; a lookup through the const `operator[]` that finds nothing is none.
-/
namespace DeribitTrading
open ByteString Numbers Nlohmann

/-- The const `operator[]` with a name: a missing member fails the assertion. -/
def Nlohmann.Json.constMember (j : Json) (name : Bytes) : Outcome Json :=
  match j with
  | .object ms =>
      match Members.lookup ms name with
      | some found => .ok found
      | none => .error .assertion
  | _ => .error .typeError

/-- The const `operator[]` with an index goes to the vector's, which does not check. -/
def Nlohmann.Json.constElement (j : Json) (i : Nat) : Outcome Json :=
  match j with
  | .array es =>
      match es[i]? with
      | some found => .ok found
      | none => .error .undefined
  | _ => .error .typeError

/-- What a range-based `for` over a value visits. -/
def Nlohmann.Json.items : Json → List Json
  | .null => []
  | .array es => es
  | .object ms => ms.map Prod.snd
  | j => [j]

inductive Side where
  | sell
  | buy
  deriving DecidableEq, Repr

structure Row where
  price : Json
  amount : Json
  side : Side

/-- One of the two loops of `displayOrderBook`. -/
def displayRows (side : Side) : List Json → Outcome (List Row)
  | [] => .ok []
  | row :: rows => do
      let price ← row.constElement 0
      let amount ← row.constElement 1
      let rest ← displayRows side rows
      return ⟨price, amount, side⟩ :: rest

/-- The data is discarded, `none`, when it did not parse; it is no object then. -/
def displayOrderBook (orderBookData : Option Json) : Outcome (List Row) :=
  match orderBookData with
  | none => .error .typeError
  | some book => do
      let asks ← book.constMember (bytes "asks")
      let sells ← displayRows .sell asks.items
      let bids ← book.constMember (bytes "bids")
      let buys ← displayRows .buy bids.items
      return sells ++ buys

/-- The delay that is logged when the data carries `server_send_time`. -/
def serverDelay (currentMillis : Int64) (orderBookData : Option Json) :
    Outcome (Option Int64) :=
  match orderBookData with
  | none => .ok none
  | some book =>
      if book.contains (bytes "server_send_time") then do
        let (member, _) ← book.index (bytes "server_send_time")
        let serverSendTime ← member.getInt64
        match subInt64 currentMillis serverSendTime with
        | some propagationDelay => return some propagationDelay
        | none => .error .undefined
      else
        .ok none

def loggedLatency (orderBookData : Option Json) : Outcome (Option Int64) :=
  match orderBookData with
  | none => .ok none
  | some book =>
      if book.contains (bytes "processing_latency_ms") then do
        let (member, _) ← book.index (bytes "processing_latency_ms")
        return some (← member.getInt64)
      else
        .ok none

structure Shown where
  propagationDelay : Option Int64
  processingLatency : Option Int64
  rows : List Row

/-- The body of the `try` block. -/
def showMessage (L : Libraries) (inflate : Streaming.Codec) (currentMillis : Int64)
    (payload : Bytes) : Outcome Shown := do
  let decompressedData ← decompressString inflate payload
  let orderBookData := L.nlohmannParse decompressedData
  let propagationDelay ← serverDelay currentMillis orderBookData
  let processingLatency ← loggedLatency orderBookData
  let rows ← displayOrderBook orderBookData
  return ⟨propagationDelay, processingLatency, rows⟩

/-- The thread of `on_message`; `none` is its `catch` block. -/
def onMessage (L : Libraries) (inflate : Streaming.Codec) (currentMillis : Int64)
    (payload : Bytes) : Outcome (Option Shown) :=
  match showMessage L inflate currentMillis payload with
  | .ok shown => .ok (some shown)
  | .error f => if f.fatal then .error f else .ok none

/-- A computation that returns or throws what a handler can catch. -/
def Survives {α : Type} (r : Outcome α) : Prop := ∀ f, r = .error f → f.fatal = false

theorem survives_ok {α : Type} (a : α) : Survives (.ok a : Outcome α) := by
  intro f threw
  cases threw

theorem survives_error_iff {α : Type} (f : Fault) :
    Survives (.error f : Outcome α) ↔ f.fatal = false := by
  constructor
  · intro survives
    exact survives f rfl
  · intro caught f' threw
    cases threw
    exact caught

theorem survives_bind_iff {α β : Type} (r : Outcome α) (k : α → Outcome β) :
    Survives (r >>= k) ↔ Survives r ∧ ∀ a, r = .ok a → Survives (k a) := by
  cases r with
  | error f => simp [survives_error_iff]
  | ok a => simp [survives_ok]

theorem survives_then_iff {α β : Type} (r : Outcome α) (k : α → Outcome β) {P : Prop}
    (rest : ∀ a, Survives (k a) ↔ P) :
    Survives (r >>= k) ↔ Survives r ∧ (Finishes r → P) := by
  rw [survives_bind_iff]
  constructor
  · intro ⟨first, later⟩
    refine ⟨first, ?_⟩
    intro ⟨a, returned⟩
    exact (rest a).mp (later a returned)
  · intro ⟨first, later⟩
    refine ⟨first, ?_⟩
    intro a returned
    exact (rest a).mpr (later ⟨a, returned⟩)

theorem survives_return_iff {α β : Type} (r : Outcome α) (f : α → β) :
    Survives (r >>= fun a => pure (f a)) ↔ Survives r := by
  have last : ∀ a, Survives (pure (f a) : Outcome β) ↔ True := by
    intro a
    exact iff_true_intro (survives_ok (f a))
  rw [survives_then_iff r _ last]
  simp

theorem onMessage_finishes_iff (L : Libraries) (inflate : Streaming.Codec)
    (currentMillis : Int64) (payload : Bytes) :
    Finishes (onMessage L inflate currentMillis payload) ↔
      Survives (showMessage L inflate currentMillis payload) := by
  unfold onMessage
  cases showMessage L inflate currentMillis payload with
  | ok shown => exact iff_of_true (finishes_ok _) (survives_ok _)
  | error f =>
      rw [survives_error_iff]
      cases fatal : f.fatal with
      | true => simp [fatal]
      | false => simp [fatal]

/-- `get<int64_t>()` does not throw. -/
inductive Numeric : Json → Prop
  | integer (n : Int64) : Numeric (.numberInteger n)
  | unsigned (n : UInt64) : Numeric (.numberUnsigned n)
  | float (d : Double) : Numeric (.numberFloat d)

def NumericMember (ms : Nlohmann.Members) (name : Bytes) : Prop :=
  ∀ v, Members.lookup ms name = some v → Numeric v

def IsArray (row : Json) : Prop := ∃ es, row = .array es

/-- As far as the loop gets, every array it comes to has a price and an amount. -/
def RowsPaired (rows : List Json) : Prop :=
  ∀ before es after, rows = before ++ .array es :: after → (∀ row ∈ before, IsArray row) →
    2 ≤ es.length

/-- The delay is defined, as far as there is a number to take it from. -/
def TimeInRange (currentMillis : Int64) (ms : Nlohmann.Members) : Prop :=
  ∀ v, Members.lookup ms (bytes "server_send_time") = some v → Numeric v →
    ∃ n, Timestamp v n ∧ -2 ^ 63 ≤ currentMillis.toInt - n ∧ currentMillis.toInt - n < 2 ^ 63

/-- What the display comes to in a book has a price and an amount in each row. -/
def Displayable (ms : Nlohmann.Members) : Prop :=
  ∃ asks, Members.lookup ms (bytes "asks") = some asks ∧ RowsPaired asks.items ∧
    ((∀ row ∈ asks.items, IsArray row) →
      ∃ bids, Members.lookup ms (bytes "bids") = some bids ∧ RowsPaired bids.items)

/-- The members of a message that the handler lives through, in the order in which
it reads them: what is behind the first exception does not matter. -/
def Presentable (currentMillis : Int64) (ms : Nlohmann.Members) : Prop :=
  TimeInRange currentMillis ms ∧
  (NumericMember ms (bytes "server_send_time") →
    (∀ v, Members.lookup ms (bytes "processing_latency_ms") = some v → Numeric v →
      ∃ n, Timestamp v n) ∧
    (NumericMember ms (bytes "processing_latency_ms") → Displayable ms))

/-- No number throws, a number that fits is read, and one that does not is undefined. -/
theorem getInt64_cases (v : Json) :
    (¬ Numeric v ∧ v.getInt64 = .error .typeError) ∨
      (Numeric v ∧ v.getInt64 = .error .undefined ∧ ∀ z, ¬ Timestamp v z) ∨
      ∃ n : Int64, Numeric v ∧ v.getInt64 = .ok n ∧ ∀ z, Timestamp v z ↔ z = n.toInt := by
  have read : ∀ n : Int64, v.getInt64 = .ok n → ∀ z, Timestamp v z ↔ z = n.toInt := by
    intro n same z
    rw [timestamp_iff, same]
    constructor
    · intro stamp
      obtain ⟨m, found, value⟩ := stamp
      cases found
      exact value.symm
    · intro value
      exact ⟨n, rfl, value.symm⟩
  cases v with
  | numberInteger n => exact .inr (.inr ⟨n, .integer n, rfl, read n rfl⟩)
  | numberUnsigned n => exact .inr (.inr ⟨n.toInt64, .unsigned n, rfl, read _ rfl⟩)
  | numberFloat d =>
      cases fits : d.toInt64 with
      | some n =>
          have same : (Json.numberFloat d).getInt64 = .ok n := by simp only [Json.getInt64, fits]
          exact .inr (.inr ⟨n, .float d, same, read n same⟩)
      | none =>
          have same : (Json.numberFloat d).getInt64 = .error .undefined := by
            simp only [Json.getInt64, fits]
          refine .inr (.inl ⟨.float d, same, ?_⟩)
          intro z stamp
          obtain ⟨n, found, _⟩ := (timestamp_iff _ z).mp stamp
          cases same.symm.trans found
  | _ =>
      refine .inl ⟨?_, rfl⟩
      intro numeric
      cases numeric

theorem subInt64_cases (a b : Int64) :
    (∃ d, subInt64 a b = some d ∧ -2 ^ 63 ≤ a.toInt - b.toInt ∧ a.toInt - b.toInt < 2 ^ 63) ∨
      subInt64 a b = none ∧ ¬ (-2 ^ 63 ≤ a.toInt - b.toInt ∧ a.toInt - b.toInt < 2 ^ 63) := by
  have fits := subInt64_isSome_iff a b
  cases found : subInt64 a b with
  | some d =>
      rw [found] at fits
      exact .inl ⟨d, rfl, fits.mp rfl⟩
  | none =>
      rw [found] at fits
      refine .inr ⟨rfl, ?_⟩
      intro bounds
      cases fits.mpr bounds

theorem serverDelay_spec (currentMillis : Int64) (ms : Nlohmann.Members) :
    (Survives (serverDelay currentMillis (some (.object ms))) ↔ TimeInRange currentMillis ms) ∧
    (Survives (serverDelay currentMillis (some (.object ms))) →
      (Finishes (serverDelay currentMillis (some (.object ms))) ↔
        NumericMember ms (bytes "server_send_time"))) := by
  unfold TimeInRange NumericMember
  cases here : Members.lookup ms (bytes "server_send_time") with
  | none => simp [serverDelay, Json.contains, here, survives_ok]
  | some v =>
      have read : serverDelay currentMillis (some (.object ms)) =
          v.getInt64 >>= fun serverSendTime =>
            match subInt64 currentMillis serverSendTime with
            | some propagationDelay => return some propagationDelay
            | none => .error .undefined := by
        simp [serverDelay, Json.contains, here, Json.index]
      rw [read]
      simp only [Option.some.injEq, forall_eq']
      rcases getInt64_cases v with ⟨other, threw⟩ | ⟨number, undefined, unread⟩ |
        ⟨n, number, value, only⟩
      · rw [threw]
        simp [survives_error_iff, Fault.fatal, other]
      · rw [undefined]
        simp [survives_error_iff, Fault.fatal, number, unread]
      · rw [value]
        rcases subInt64_cases currentMillis n with ⟨d, found, bounds⟩ | ⟨found, overflows⟩
        · simp [found, number, only, survives_ok, pure, Except.pure]
          omega
        · simp [found, number, only, survives_error_iff, Fault.fatal]
          omega

theorem loggedLatency_spec (ms : Nlohmann.Members) :
    (Survives (loggedLatency (some (.object ms))) ↔
      ∀ v, Members.lookup ms (bytes "processing_latency_ms") = some v → Numeric v →
        ∃ n, Timestamp v n) ∧
    (Survives (loggedLatency (some (.object ms))) →
      (Finishes (loggedLatency (some (.object ms))) ↔
        NumericMember ms (bytes "processing_latency_ms"))) := by
  unfold NumericMember
  cases here : Members.lookup ms (bytes "processing_latency_ms") with
  | none => simp [loggedLatency, Json.contains, here, survives_ok]
  | some v =>
      have read : loggedLatency (some (.object ms)) =
          v.getInt64 >>= fun n => return some n := by
        simp [loggedLatency, Json.contains, here, Json.index]
      rw [read]
      simp only [Option.some.injEq, forall_eq']
      rcases getInt64_cases v with ⟨other, threw⟩ | ⟨number, undefined, unread⟩ |
        ⟨n, number, value, only⟩
      · rw [threw]
        simp [survives_error_iff, Fault.fatal, other]
      · rw [undefined]
        simp [survives_error_iff, Fault.fatal, number, unread]
      · rw [value]
        simp [number, only, survives_ok, pure, Except.pure]

theorem rowsPaired_cons_iff (row : Json) (rows : List Json) :
    RowsPaired (row :: rows) ↔ ∀ es, row = .array es → 2 ≤ es.length ∧ RowsPaired rows := by
  constructor
  · intro paired es same
    subst same
    refine ⟨paired [] es rows rfl (by simp), ?_⟩
    intro before fs after split arrays
    refine paired (.array es :: before) fs after (by rw [split, List.cons_append]) ?_
    exact List.forall_mem_cons.mpr ⟨⟨es, rfl⟩, arrays⟩
  · intro paired before es after split arrays
    cases before with
    | nil =>
        obtain ⟨first, _⟩ := List.cons.inj split
        exact (paired es first).1
    | cons first before =>
        obtain ⟨rfl, rest⟩ := List.cons.inj split
        obtain ⟨⟨fs, array⟩, others⟩ := List.forall_mem_cons.mp arrays
        exact (paired fs array).2 before es after rest others

theorem displayRows_spec (side : Side) (rows : List Json) :
    (Survives (displayRows side rows) ↔ RowsPaired rows) ∧
    (Survives (displayRows side rows) →
      (Finishes (displayRows side rows) ↔ ∀ row ∈ rows, IsArray row)) := by
  induction rows with
  | nil => simp [displayRows, survives_ok, RowsPaired]
  | cons row rows ih =>
      rw [rowsPaired_cons_iff, List.forall_mem_cons]
      cases row with
      | array es =>
          rcases es with _ | ⟨price, _ | ⟨amount, es⟩⟩
          · have short : displayRows side (.array [] :: rows) = .error .undefined := rfl
            simp [short, survives_error_iff, Fault.fatal]
          · have short : displayRows side (.array [price] :: rows) = .error .undefined := rfl
            simp [short, survives_error_iff, Fault.fatal]
          · have read : displayRows side (.array (price :: amount :: es) :: rows) =
                displayRows side rows >>= fun rest => return ⟨price, amount, side⟩ :: rest := rfl
            rw [read, survives_return_iff, finishes_bind_iff]
            simp only [Json.array.injEq, forall_eq', List.length_cons]
            refine ⟨?_, ?_⟩
            · rw [ih.1]
              simp
            · intro first
              have array : IsArray (.array (price :: amount :: es)) := ⟨_, rfl⟩
              rw [← ih.2 first]
              simp [array, Finishes, pure, Except.pure]
      | _ =>
          refine ⟨iff_of_true ?_ (by simp), fun _ => iff_of_false ?_ ?_⟩
          · exact (survives_error_iff .typeError).mpr rfl
          · exact not_finishes_error .typeError
          · simp [IsArray]

theorem survives_constMember_iff (ms : Nlohmann.Members) (name : Bytes) {α : Type}
    (k : Json → Outcome α) :
    Survives ((Json.object ms).constMember name >>= k) ↔
      ∃ v, Members.lookup ms name = some v ∧ Survives (k v) := by
  cases found : Members.lookup ms name with
  | none =>
      simp only [Json.constMember, found, error_bind, survives_error_iff, Fault.fatal]
      simp
  | some v =>
      simp only [Json.constMember, found, ok_bind]
      simp

theorem survives_displayOrderBook_iff (ms : Nlohmann.Members) :
    Survives (displayOrderBook (some (.object ms))) ↔ Displayable ms := by
  unfold displayOrderBook Displayable
  simp only [survives_constMember_iff]
  refine exists_congr fun asks => and_congr_right fun _ => ?_
  obtain ⟨paired, goesOn⟩ := displayRows_spec .sell asks.items
  rw [survives_then_iff _ _ (P := ∃ bids, Members.lookup ms (bytes "bids") = some bids ∧
    RowsPaired bids.items)]
  · rw [← paired]
    refine and_congr_right fun survives => ?_
    rw [goesOn survives]
  · intro sells
    rw [survives_constMember_iff]
    refine exists_congr fun bids => and_congr_right fun _ => ?_
    rw [← (displayRows_spec .buy bids.items).1]
    exact survives_return_iff ..

theorem decompressString_error {inflate : Streaming.Codec} {payload : Bytes} {f : Fault}
    (threw : decompressString inflate payload = .error f) : f = .runtimeError := by
  unfold decompressString at threw
  split at threw
  · cases threw
    rfl
  · split at threw
    · cases threw
    · cases threw
      rfl

theorem survives_showObject_iff (currentMillis : Int64) (ms : Nlohmann.Members) :
    Survives (do
      let propagationDelay ← serverDelay currentMillis (some (.object ms))
      let processingLatency ← loggedLatency (some (.object ms))
      let rows ← displayOrderBook (some (.object ms))
      return (⟨propagationDelay, processingLatency, rows⟩ : Shown)) ↔
      Presentable currentMillis ms := by
  obtain ⟨timely, timed⟩ := serverDelay_spec currentMillis ms
  obtain ⟨inRange, logged⟩ := loggedLatency_spec ms
  unfold Presentable
  rw [← timely, ← survives_displayOrderBook_iff, ← inRange]
  rw [survives_then_iff _ _ (P := Survives (loggedLatency (some (.object ms))) ∧
    (NumericMember ms (bytes "processing_latency_ms") →
      Survives (displayOrderBook (some (.object ms)))))]
  · refine and_congr_right fun survives => ?_
    rw [timed survives]
  · intro propagationDelay
    rw [survives_then_iff _ _ (P := Survives (displayOrderBook (some (.object ms))))]
    · refine and_congr_right fun survives => ?_
      rw [logged survives]
    · intro processingLatency
      exact survives_return_iff ..

/-- The handler lives through a payload exactly if the object in it, if there is
one, is presentable. -/
theorem message_survived_iff (L : Libraries) (inflate : Streaming.Codec)
    (currentMillis : Int64) (payload : Bytes) :
    Finishes (onMessage L inflate currentMillis payload) ↔
      ∀ text, decompressString inflate payload = .ok text → ∀ ms,
        L.nlohmannParse text = some (.object ms) → Presentable currentMillis ms := by
  rw [onMessage_finishes_iff]
  unfold showMessage
  cases decompressed : decompressString inflate payload with
  | error f =>
      rw [decompressString_error decompressed]
      simp [survives_error_iff, Fault.fatal]
  | ok text =>
      simp only [ok_bind, Except.ok.injEq, forall_eq']
      have thrown : ∀ book, (∀ ms, book ≠ some (.object ms)) →
          serverDelay currentMillis book = .ok none ∧ loggedLatency book = .ok none ∧
            displayOrderBook book = .error .typeError := by
        intro book other
        cases book with
        | none => exact ⟨rfl, rfl, rfl⟩
        | some book =>
            cases book with
            | object ms => exact absurd rfl (other ms)
            | _ => exact ⟨rfl, rfl, rfl⟩
      by_cases object : ∃ ms, L.nlohmannParse text = some (.object ms)
      · obtain ⟨ms, parsed⟩ := object
        rw [parsed]
        simp only [Option.some.injEq, Json.object.injEq, forall_eq']
        exact survives_showObject_iff currentMillis ms
      · obtain ⟨delay, latency, display⟩ := thrown (L.nlohmannParse text) (not_exists.mp object)
        refine iff_of_true ?_ (fun ms parsed => absurd ⟨ms, parsed⟩ object)
        rw [delay, latency, display]
        exact (survives_error_iff .typeError).mpr rfl

def emptyObject : Bytes := [120, 218, 171, 174, 5, 0, 1, 117, 0, 249]

/-- A row without an amount: `{"asks":[[1]]}`. -/
def priceAlone : Bytes :=
  [120, 218, 171, 86, 74, 44, 206, 46, 86, 178, 138, 142, 54, 140, 141, 173, 5, 0, 35, 217, 4, 202]

/-- A `server_send_time` of -2^63. -/
def farPast : Bytes :=
  [120, 218, 171, 86, 42, 78, 45, 42, 75, 45, 138, 47, 78, 205, 75, 137, 47, 201, 204, 77, 85, 178,
    210, 181, 52, 50, 50, 54, 54, 55, 50, 48, 54, 179, 48, 53, 49, 55, 55, 181, 48, 176, 168, 5, 0,
    35, 49, 12, 59]

/-- What the three decompress to. -/
def brokenMessages : List (Bytes × Bytes × Json) :=
  [(emptyObject, bytes "\x7b\x7d", .object []),
    (priceAlone, bytes "\x7b\"asks\":[[1]]\x7d",
      .object [(bytes "asks", .array [.array [.numberUnsigned 1]])]),
    (farPast, bytes "\x7b\"server_send_time\":-9223372036854775808\x7d",
      .object [(bytes "server_send_time", .numberInteger (-9223372036854775808))])]

def brokenInflate : Streaming.Codec := .ofTable fun payload =>
  ((brokenMessages.find? fun m => m.1 == payload).map fun m => m.2.1).getD []

def brokenLibraries : Libraries where
  rapidParse := fun _ => none
  nlohmannParse := fun text => (brokenMessages.find? fun m => m.2.1 == text).map fun m => m.2.2
  dump := fun _ => []
  gunzip := .ofTable fun _ => []
  deflate := .ofTable fun _ => []

theorem decompressString_ofTable (output : Bytes → Bytes) {payload : Bytes}
    (short : payload.length < 2 ^ 32) :
    decompressString (.ofTable output) payload = .ok (output payload) := by
  have started : (Streaming.Codec.ofTable output).start (Streaming.availIn payload) =
      some payload := congrArg some (Streaming.availIn_of_short short)
  simp only [decompressString, started, Streaming.Codec.drain_ofTable]

/-- What the handler makes of a payload once it is decompressed. -/
theorem onMessage_ofTable (L : Libraries) (output : Bytes → Bytes) (currentMillis : Int64)
    {payload : Bytes} (short : payload.length < 2 ^ 32) :
    onMessage L (.ofTable output) currentMillis payload =
      match (do
        let propagationDelay ← serverDelay currentMillis (L.nlohmannParse (output payload))
        let processingLatency ← loggedLatency (L.nlohmannParse (output payload))
        let rows ← displayOrderBook (L.nlohmannParse (output payload))
        return (⟨propagationDelay, processingLatency, rows⟩ : Shown)) with
      | .ok shown => .ok (some shown)
      | .error f => if f.fatal then .error f else .ok none := by
  simp only [onMessage, showMessage, decompressString_ofTable output short, ok_bind]

theorem messages_end_client :
    onMessage brokenLibraries brokenInflate 1700000000000 emptyObject = .error .assertion ∧
      onMessage brokenLibraries brokenInflate 1700000000000 priceAlone = .error .undefined ∧
      onMessage brokenLibraries brokenInflate 1700000000000 farPast = .error .undefined ∧
      ¬ ∀ (L : Libraries) (inflate : Streaming.Codec) (currentMillis : Int64) (payload : Bytes),
        Finishes (onMessage L inflate currentMillis payload) := by
  have missing : onMessage brokenLibraries brokenInflate 1700000000000 emptyObject =
      .error .assertion := by
    rw [brokenInflate, onMessage_ofTable _ _ _ (by decide)]
    rfl
  refine ⟨missing, ?_, ?_, ?_⟩
  · rw [brokenInflate, onMessage_ofTable _ _ _ (by decide)]
    rfl
  · rw [brokenInflate, onMessage_ofTable _ _ _ (by decide)]
    rfl
  · intro survives
    have returned := survives brokenLibraries brokenInflate 1700000000000 emptyObject
    rw [missing] at returned
    exact not_finishes_error _ returned

end DeribitTrading
