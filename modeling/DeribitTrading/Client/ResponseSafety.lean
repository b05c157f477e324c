import DeribitTrading.Client.Calls

/-!
Which responses an order operation survives. The header stripping needs three
bytes or a separator, and behind it every operation needs a document that is an
object of a certain shape: the failure branches ask the document for an error
without looking whether there is an object to ask.
-/
namespace DeribitTrading
open ByteString Rapidjson HttpFraming

/-- An error, if there is one, is an object with a message to print. -/
def ErrorShape (ms : Members) : Prop :=
  ∀ error, Members.lookup ms (bytes "error") = some error →
    ∃ es message, error = .object es ∧
      Members.lookup es (bytes "message") = some (.string message)

/-- The order of a result names its id by a string, if at all. -/
def OrderShape (order : Value) : Prop :=
  ∃ os, order = .object os ∧
    ∀ orderId, Members.lookup os (bytes "order_id") = some orderId →
      ∃ s, orderId = .string s

def PlaceShape (ms : Members) : Prop :=
  match Members.lookup ms (bytes "result") with
  | none => ErrorShape ms
  | some result =>
      ∃ rs, result = .object rs ∧
        match Members.lookup rs (bytes "order") with
        | none => ErrorShape ms
        | some order => OrderShape order

def CancelShape (ms : Members) : Prop := ErrorShape ms

def ModifyShape (ms : Members) : Prop :=
  ErrorShape ms ∧
    (Members.lookup ms (bytes "error") = none →
      ∃ rs, Members.lookup ms (bytes "result") = some (.object rs))

/-- A buffer with something behind the headers that is text, and an object of the shape. -/
def Readable (L : Libraries) (Shape : Members → Prop) (readBuffer : Bytes) : Prop :=
  (separator <:+: readBuffer ∨ 3 ≤ readBuffer.length) ∧
    ∀ text, gunzipped L (readBuffer.drop (bodyPosition readBuffer)) = .ok (some text) →
      ∃ ms, L.rapidParse (cString text) = some (.object ms) ∧ Shape ms

theorem bodyPosition_le_iff (readBuffer : Bytes) :
    bodyPosition readBuffer ≤ readBuffer.length ↔
      separator <:+: readBuffer ∨ 3 ≤ readBuffer.length := by
  unfold bodyPosition
  rcases found : find separator readBuffer with _ | headerEnd
  · have absent := (find_eq_none_iff separator readBuffer).mp found
    simp only [absent, false_or]
    rfl
  · have present : separator <:+: readBuffer := by
      by_contra absent
      rw [(find_eq_none_iff separator readBuffer).mpr absent] at found
      cases found
    simp only [present, true_or, iff_true]
    exact find_le_length found

theorem extractBody_eq_ok_iff (readBuffer body : Bytes) :
    extractBody readBuffer = .ok body ↔
      (separator <:+: readBuffer ∨ 3 ≤ readBuffer.length) ∧
        body = readBuffer.drop (bodyPosition readBuffer) := by
  rw [← bodyPosition_le_iff, ← substr_eq_some_iff]
  unfold extractBody
  split <;> simp [*, eq_comm]

/-- A failed decompression is handled: no exception of zlib gets further. -/
theorem gunzipped_finishes (L : Libraries) (body : Bytes) : Finishes (gunzipped L body) := by
  unfold gunzipped
  split
  · rcases unpacked : decompressGzip L body with f | text
    · cases decompressGzip_eq_error unpacked
      exact finishes_ok _
    · exact finishes_ok _
  · exact finishes_ok _

theorem errorMessage_finishes_iff (ms : Members) :
    Finishes (errorMessage (.object ms)) ↔
      ∃ error, Members.lookup ms (bytes "error") = some error ∧
        ∃ es message, error = .object es ∧
          Members.lookup es (bytes "message") = some (.string message) := by
  constructor
  · rintro ⟨s, read⟩
    obtain ⟨error, found, read⟩ := bind_eq_ok_iff.mp read
    obtain ⟨message, inner, read⟩ := bind_eq_ok_iff.mp read
    obtain ⟨t, rfl, _⟩ := getString_eq_ok_iff.mp read
    obtain ⟨ms', same, here⟩ := member_eq_ok_iff.mp found
    cases same
    obtain ⟨es, rfl, there⟩ := member_eq_ok_iff.mp inner
    exact ⟨_, here, es, t, rfl, there⟩
  · rintro ⟨_, here, es, message, rfl, there⟩
    simp only [errorMessage, member_object_of_lookup here, member_object_of_lookup there, ok_bind]
    exact finishes_ok _

theorem errorShape_iff (ms : Members) :
    ErrorShape ms ↔ ∀ error, Members.lookup ms (bytes "error") = some error →
      Finishes (errorMessage (.object ms)) := by
  simp only [errorMessage_finishes_iff]
  constructor
  · intro shape error here
    exact ⟨error, here, shape error here⟩
  · intro finishes error here
    obtain ⟨error', here', shape⟩ := finishes error here
    cases here.symm.trans here'
    exact shape

/-- The branch that every operation ends with when it has nothing to show for. -/
theorem errorBranch_finishes_iff {α : Type} (a : α) (ms : Members) :
    Finishes (if (Members.lookup ms (bytes "error")).isSome = true
      then (fun _ => a) <$> errorMessage (.object ms) else pure a) ↔ ErrorShape ms := by
  rw [errorShape_iff]
  rcases here : Members.lookup ms (bytes "error") with _ | error
  · simp
  · simpa using finishes_map_iff _ (errorMessage (.object ms))

theorem reportFailure_finishes_iff (document : Value) :
    Finishes (reportFailure document) ↔ ∃ ms, document = .object ms ∧ ErrorShape ms := by
  cases document with
  | object ms => simpa [reportFailure] using errorBranch_finishes_iff () ms
  | _ => simp [reportFailure, Value.hasMember]

theorem orderId_finishes_iff {α : Type} (order : Value) (a : α) (f : Bytes → α) :
    Finishes (do
      if ← order.hasMember (bytes "order_id") then
        let orderId ← order.member (bytes "order_id")
        return f (← orderId.getString)
      else
        return a) ↔ OrderShape order := by
  cases order with
  | object os =>
      rcases here : Members.lookup os (bytes "order_id") with _ | orderId
      · simp [OrderShape, here]
      · cases orderId <;>
          simp [OrderShape, here, member_object_of_lookup here, Value.getString]
  | _ => simp [OrderShape, Value.hasMember]

theorem placeReply_finishes_iff (ms : Members) :
    Finishes (placeReply true (.object ms)) ↔ PlaceShape ms := by
  unfold placeReply PlaceShape hasResultOrder
  rcases result : Members.lookup ms (bytes "result") with _ | r
  · simpa [result] using errorBranch_finishes_iff none ms
  · cases r with
    | object rs =>
        rcases order : Members.lookup rs (bytes "order") with _ | o
        · simpa [result, member_object_of_lookup result, order] using
            errorBranch_finishes_iff none ms
        · simpa [result, member_object_of_lookup result, order, member_object_of_lookup order]
            using orderId_finishes_iff o none fun s => some (s, o)
    | _ => simp [result, member_object_of_lookup result, Value.hasMember]

theorem reportFailure_then {α : Type} (ms : Members) (a : α) :
    Finishes ((fun _ => a) <$> reportFailure (.object ms)) ↔ ErrorShape ms := by
  rw [finishes_map_iff, reportFailure_finishes_iff]
  simp

theorem errorShape_of_absent {ms : Members}
    (absent : Members.lookup ms (bytes "error") = none) : ErrorShape ms := by
  intro error here
  rw [absent] at here
  cases here

theorem cancelReply_finishes_iff (ms : Members) :
    Finishes (cancelReply true (.object ms)) ↔ CancelShape ms := by
  unfold cancelReply CancelShape
  rcases here : Members.lookup ms (bytes "error") with _ | error
  · simp [isFailure, here, errorShape_of_absent here]
  · simpa [isFailure, here] using reportFailure_then ms false

theorem modifyReply_finishes_iff (ms : Members) :
    Finishes (modifyReply true (.object ms)) ↔ ModifyShape ms := by
  unfold modifyReply ModifyShape
  rcases here : Members.lookup ms (bytes "error") with _ | error
  · rcases result : Members.lookup ms (bytes "result") with _ | r
    · simp [isFailure, here, result, Value.member]
    · cases r with
      | object rs =>
          rcases order : Members.lookup rs (bytes "order") with _ | o
          · simp [isFailure, here, member_object_of_lookup result, order,
              errorShape_of_absent here]
          · simp [isFailure, here, member_object_of_lookup result, order,
              member_object_of_lookup order, errorShape_of_absent here]
      | _ => simp [isFailure, here, member_object_of_lookup result, Value.hasMember]
  · simpa [isFailure, here] using reportFailure_then ms none

/-- Asked for an error, a document that is no object fails the assertion. -/
theorem replies_not_finish {document : Value} (plain : document.isObject = false)
    (success : Bool) :
    ¬ Finishes (placeReply success document) ∧ ¬ Finishes (cancelReply success document) ∧
      ¬ Finishes (modifyReply success document) := by
  cases document with
  | object ms => cases plain
  | _ =>
      simp [placeReply, cancelReply, modifyReply, isFailure, reportFailure, Value.isObject,
        Value.hasMember]

/-- What follows the parse decides, for any reply that needs an object of the shape. -/
theorem decision_finishes_iff {α : Type} (L : Libraries) {Shape : Members → Prop}
    {reply : Option (Bool × Value) → Outcome α} (unread : Finishes (reply none))
    (shaped : ∀ ms, Finishes (reply (some (true, .object ms))) ↔ Shape ms)
    (plain : ∀ success document, document.isObject = false →
      ¬ Finishes (reply (some (success, document))))
    (readBuffer : Bytes) :
    Finishes (readResponse L (extractBody readBuffer) >>= reply) ↔
      Readable L Shape readBuffer := by
  unfold Readable
  by_cases enough : separator <:+: readBuffer ∨ 3 ≤ readBuffer.length
  · have body := (extractBody_eq_ok_iff readBuffer _).mpr ⟨enough, rfl⟩
    obtain ⟨text, unpacked⟩ := gunzipped_finishes L (readBuffer.drop (bodyPosition readBuffer))
    simp only [readResponse, body, ok_bind, unpacked, enough, true_and, Except.ok.injEq]
    cases text with
    | none => simpa using unread
    | some text =>
        simp only [Option.some.injEq, forall_eq', parseJSONResponse]
        rcases parsed : L.rapidParse (cString text) with _ | document
        · simpa using plain false .null rfl
        · cases document with
          | object ms => simpa using shaped ms
          | _ => simpa using plain true _ rfl
  · rcases body : extractBody readBuffer with f | body'
    · simp [readResponse, enough]
    · exact absurd ((extractBody_eq_ok_iff readBuffer body').mp body).1 enough

theorem placeDecision_finishes_iff (L : Libraries) (readBuffer : Bytes) :
    Finishes (placeDecision L readBuffer) ↔ Readable L PlaceShape readBuffer := by
  refine decision_finishes_iff L ?_ ?_ ?_ readBuffer
  · exact finishes_ok _
  · exact placeReply_finishes_iff
  · intro success document plain
    exact (replies_not_finish plain success).1

theorem cancelDecision_finishes_iff (L : Libraries) (readBuffer : Bytes) :
    Finishes (cancelDecision L readBuffer) ↔ Readable L CancelShape readBuffer := by
  refine decision_finishes_iff L ?_ ?_ ?_ readBuffer
  · exact finishes_ok _
  · exact cancelReply_finishes_iff
  · intro success document plain
    exact (replies_not_finish plain success).2.1

theorem modifyDecision_finishes_iff (L : Libraries) (readBuffer : Bytes) :
    Finishes (modifyDecision L readBuffer) ↔ Readable L ModifyShape readBuffer := by
  refine decision_finishes_iff L ?_ ?_ ?_ readBuffer
  · exact finishes_ok _
  · exact modifyReply_finishes_iff
  · intro success document plain
    exact (replies_not_finish plain success).2.2

theorem executeAsyncTask_finishes_iff {α : Type} (task : Outcome α) :
    Finishes (executeAsyncTask task) ↔ Finishes task := by
  cases task <;> simp [executeAsyncTask]

variable {ω : Type} {L : Libraries} {net : Network ω} {ctx : CallContext} {s : OrderAPI} {w : ω}

theorem operate_finishes_iff {url readBuffer : Bytes}
    (arrived : (s.request L net ctx url w).1 = .ok (some readBuffer))
    (effect : Bytes → Outcome (Option StoreEffect)) :
    Finishes (s.operate L net ctx url effect w).1 ↔ Finishes (effect readBuffer) := by
  unfold OrderAPI.operate
  generalize s.request L net ctx url w = r at arrived ⊢
  obtain ⟨outcome, s', w'⟩ := r
  subst arrived
  rcases decided : effect readBuffer with f | _ | e <;> simp [decided]

/-- For every response: each operation comes back exactly when it can read it. -/
theorem response_safety (L : Libraries) (net : Network ω) (ctx : CallContext) (s : OrderAPI)
    (w : ω) (readBuffer : Bytes) :
    (∀ instrument quantity price label orderId orderType,
      (s.request L net ctx (placeOrderUrl instrument quantity price label orderType) w).1 =
          .ok (some readBuffer) →
        (Finishes (s.placeOrder L net ctx instrument quantity price label orderId orderType w).1 ↔
          Readable L PlaceShape readBuffer)) ∧
    (∀ orderId, (s.request L net ctx (cancelOrderUrl orderId) w).1 = .ok (some readBuffer) →
      (Finishes (s.cancelOrderRequest L net ctx orderId w).1 ↔
        Readable L CancelShape readBuffer)) ∧
    (∀ orderId newPrice amount,
      (s.request L net ctx (modifyOrderUrl orderId newPrice amount) w).1 =
          .ok (some readBuffer) →
        (Finishes (s.modifyOrder L net ctx orderId newPrice amount w).1 ↔
          Readable L ModifyShape readBuffer)) := by
  refine ⟨?_, ?_, ?_⟩
  · intro instrument quantity price label orderId orderType arrived
    rw [placeOrder_eq, ← placeDecision_finishes_iff]
    exact (finishes_map_iff ..).trans
      ((operate_finishes_iff arrived _).trans (finishes_map_iff ..))
  · intro orderId arrived
    rw [cancelOrderRequest_eq, ← cancelDecision_finishes_iff]
    exact (finishes_map_iff ..).trans
      ((operate_finishes_iff arrived _).trans (finishes_map_iff ..))
  · intro orderId newPrice amount arrived
    simp only [OrderAPI.modifyOrder, modifyOrderTask_eq]
    rw [executeAsyncTask_finishes_iff, ← modifyDecision_finishes_iff]
    exact (finishes_map_iff ..).trans
      ((operate_finishes_iff arrived _).trans (finishes_map_iff ..))

theorem gunzipped_placed :
    gunzipped oneOrder ((okBuffer (placedText (bytes "A"))).drop
      (bodyPosition (okBuffer (placedText (bytes "A"))))) = .ok (some (placedText (bytes "A"))) :=
  rfl

theorem readable_placed {Shape : Members → Prop}
    (shape : Shape [(bytes "result", .object [(bytes "order", placedOrder (bytes "A"))])]) :
    Readable oneOrder Shape (okBuffer (placedText (bytes "A"))) := by
  refine ⟨.inr (by decide), fun text unpacked => ⟨_, ?_, shape⟩⟩
  cases unpacked.symm.trans gunzipped_placed
  rfl

def placedScript : List Transfer := [⟨.ok, [okBuffer (placedText (bytes "A"))]⟩]

theorem placed_response_survived :
    Finishes (sampleClient.placeOrder oneOrder scripted (intactContext 64) (bytes "BTC-PERPETUAL")
      (.finite false 10 0) (.finite false 0 0) (bytes "l") [] (bytes "market")
      placedScript).1 ∧
    Finishes (sampleClient.cancelOrderRequest oneOrder scripted (intactContext 64) (bytes "A")
      placedScript).1 ∧
    Finishes (sampleClient.modifyOrder oneOrder scripted (intactContext 64) (bytes "A")
      (.finite false 9 0) (.finite false 10 0) placedScript).1 := by
  obtain ⟨place, cancel, modify⟩ := response_safety oneOrder scripted (intactContext 64)
    sampleClient placedScript (okBuffer (placedText (bytes "A")))
  refine ⟨(place _ _ _ _ _ _ rfl).mpr (readable_placed ?_),
    (cancel _ rfl).mpr (readable_placed ?_), (modify _ _ _ rfl).mpr (readable_placed ?_)⟩
  · refine ⟨_, rfl, _, rfl, ?_⟩
    intro orderId named
    cases named
    exact ⟨_, rfl⟩
  · exact errorShape_of_absent rfl
  · exact ⟨errorShape_of_absent rfl, fun _ => ⟨_, rfl⟩⟩

/-- A gateway's plain text behind the headers: the document stays Null. -/
def gatewayScript : List Transfer := [⟨.ok, [bytes "HTTP/2 502\r\n\r\nBad Gateway"]⟩]

theorem gateway_response_crashes :
    (sampleClient.placeOrder (.ofTable []) scripted (intactContext 64) (bytes "BTC-PERPETUAL")
      (.finite false 10 0) (.finite false 0 0) (bytes "l") [] (bytes "market")
      gatewayScript).1 = .error .assertion ∧
    (sampleClient.cancelOrderRequest (.ofTable []) scripted (intactContext 64) (bytes "A")
      gatewayScript).1 = .error .assertion ∧
    (sampleClient.modifyOrder (.ofTable []) scripted (intactContext 64) (bytes "A")
      (.finite false 9 0) (.finite false 10 0) gatewayScript).1 = .error .assertion :=
  ⟨rfl, rfl, rfl⟩

end DeribitTrading
