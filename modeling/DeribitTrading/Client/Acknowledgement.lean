import DeribitTrading.Client.Store

/-!
Which response documents each operation takes for a success, beside the success
form of JSON-RPC; and what an operation that returns false has left behind.
-/
namespace DeribitTrading
open ByteString Numbers Rapidjson OrderAPI

/-- The response carries this document, and the parser accepted it. -/
def Parsed (L : Libraries) (readBuffer : Bytes) (document : Value) : Prop :=
  readResponse L (extractBody readBuffer) = .ok (some (true, document))

theorem Parsed.read {L : Libraries} {readBuffer : Bytes} {document : Value}
    (parsed : Parsed L readBuffer document) :
    readResponse L (extractBody readBuffer) = .ok (some (true, document)) := parsed

/-- The success form: an object with a `result` and without an `error`. -/
def Success (document : Value) : Prop :=
  document.hasMember (bytes "result") = .ok true ∧ document.hasMember (bytes "error") = .ok false

def SuccessWithOrder (document : Value) : Prop :=
  Success document ∧ hasResultOrder document = .ok true

/-- The order that `placeOrder` finds in a document, and the id it reads there. -/
def CarriesOrder (document : Value) (orderId : Bytes) (order : Value) : Prop :=
  ∃ ms rs os raw, document = .object ms ∧
    Members.lookup ms (bytes "result") = some (.object rs) ∧
    Members.lookup rs (bytes "order") = some order ∧ order = .object os ∧
    Members.lookup os (bytes "order_id") = some (.string raw) ∧ orderId = cString raw

/-- An order beside an error: `placeOrder` looks at the order first. -/
def PlaceMisreads (document : Value) : Prop :=
  (∃ orderId order, CarriesOrder document orderId order) ∧
    document.hasMember (bytes "error") = .ok true

/-- Neither an error nor a result: `cancelOrderRequest` looks for the error only. -/
def CancelMisreads (document : Value) : Prop :=
  document.hasMember (bytes "error") = .ok false ∧
    document.hasMember (bytes "result") = .ok false

theorem hasMember_cases (ms : Members) (name : Bytes) :
    (Value.object ms).hasMember name = .ok true ∨ (Value.object ms).hasMember name = .ok false := by
  rw [hasMember_object]
  cases (Members.lookup ms name).isSome with
  | true => exact .inl rfl
  | false => exact .inr rfl

theorem placeReply_eq_some_iff (document : Value) (orderId : Bytes) (order : Value) :
    placeReply true document = .ok (some (orderId, order)) ↔
      CarriesOrder document orderId order := by
  constructor
  · intro accepted
    obtain ⟨_, result, id, read, found, there, spelled⟩ := placeReply_eq_some accepted
    obtain ⟨ms, rfl, inDocument⟩ := member_eq_ok_iff.mp read
    obtain ⟨rs, rfl, inResult⟩ := member_eq_ok_iff.mp found
    obtain ⟨os, shape, inOrder⟩ := member_eq_ok_iff.mp there
    obtain ⟨raw, rfl, key⟩ := getString_eq_ok_iff.mp spelled
    exact ⟨ms, rs, os, raw, rfl, inDocument, inResult, shape, inOrder, key.symm⟩
  · intro ⟨ms, rs, os, raw, same, inDocument, inResult, shape, inOrder, key⟩
    subst same shape key
    simp [placeReply, hasResultOrder, inDocument, member_object_of_lookup inDocument, inResult,
      member_object_of_lookup inResult, inOrder, member_object_of_lookup inOrder, Value.getString]

/-- A placing is accepted for an order that the document carries, under its own id. -/
theorem placeDecision_eq_some_iff (L : Libraries) (readBuffer orderId : Bytes) (order : Value) :
    placeDecision L readBuffer = .ok (some (orderId, order)) ↔
      ∃ document, Parsed L readBuffer document ∧ CarriesOrder document orderId order := by
  constructor
  · intro decided
    obtain ⟨read, parsed, replied⟩ := bind_eq_ok_iff.mp decided
    rcases read with _ | ⟨success, document⟩
    · cases replied
    · obtain ⟨rfl, _⟩ := placeReply_eq_some replied
      exact ⟨document, parsed, (placeReply_eq_some_iff ..).mp replied⟩
  · intro ⟨document, parsed, carries⟩
    rw [placeDecision, placeOrderBody, parsed.read, ok_bind]
    exact (placeReply_eq_some_iff ..).mpr carries

theorem cancelReply_eq_true_iff (document : Value) :
    cancelReply true document = .ok true ↔ document.hasMember (bytes "error") = .ok false := by
  constructor
  · intro accepted
    obtain ⟨failed, asked, accepted⟩ := bind_eq_ok_iff.mp accepted
    cases failed with
    | true =>
        obtain ⟨_, _, accepted⟩ := bind_eq_ok_iff.mp accepted
        cases accepted
    | false => exact (isFailure_eq_false asked).2
  · intro fine
    cases document with
    | object ms =>
        have asked : isFailure true (.object ms) = .ok false := by simpa [isFailure] using fine
        rw [cancelReply, asked]
        rfl
    | _ => cases fine

/-- `modifyOrder` asks for all of the success form. -/
theorem modifyReply_success {document order : Value}
    (accepted : modifyReply true document = .ok (some order)) : SuccessWithOrder document := by
  obtain ⟨_, result, read, found⟩ := modifyReply_eq_some accepted
  obtain ⟨ms, rfl, inDocument⟩ := member_eq_ok_iff.mp read
  obtain ⟨rs, rfl, inResult⟩ := member_eq_ok_iff.mp found
  refine ⟨⟨by rw [hasMember_object, inDocument]; rfl, ?_⟩, ?_⟩
  · obtain ⟨failed, asked, accepted⟩ := bind_eq_ok_iff.mp accepted
    cases failed with
    | true =>
        obtain ⟨_, _, accepted⟩ := bind_eq_ok_iff.mp accepted
        cases accepted
    | false => exact (isFailure_eq_false asked).2
  · simp [hasResultOrder, inDocument, member_object_of_lookup inDocument, inResult]

theorem placeReply_success_iff {document order : Value} {orderId : Bytes}
    (carries : CarriesOrder document orderId order) :
    SuccessWithOrder document ↔ ¬ PlaceMisreads document := by
  have found : ∃ orderId order, CarriesOrder document orderId order := ⟨orderId, order, carries⟩
  obtain ⟨ms, rs, os, raw, rfl, inDocument, inResult, _⟩ := carries
  have order : hasResultOrder (.object ms) = .ok true := by
    simp [hasResultOrder, inDocument, member_object_of_lookup inDocument, inResult]
  simp [SuccessWithOrder, Success, PlaceMisreads, order, found, inDocument]

theorem cancelReply_success_iff {document : Value}
    (fine : document.hasMember (bytes "error") = .ok false) :
    Success document ↔ ¬ CancelMisreads document := by
  cases document with
  | object ms =>
      rcases hasMember_cases ms (bytes "result") with there | absent
      · simp only [Success, CancelMisreads, fine, there, true_and]
        decide
      · simp only [Success, CancelMisreads, fine, absent, true_and]
        decide
  | _ => cases fine

section
variable {ω : Type} {L : Libraries} {net : Network ω}

/-- The caller is told of a success, or the store is not what it was. -/
def Acknowledged {β : Type} (s : OrderAPI) (told : β → Bool) (r : Outcome β × OrderAPI × ω) :
    Prop :=
  (∃ b, r.1 = .ok b ∧ told b = true) ∨ ¬ SameStore s r.2.1

theorem acknowledged_iff {β : Type} {ctx : CallContext} {s : OrderAPI} {w : ω}
    {url readBuffer : Bytes} {effect : Bytes → Outcome (Option StoreEffect)}
    (arrived : (s.request L net ctx url w).1 = .ok (some readBuffer))
    {r : Outcome β × OrderAPI × ω} {f : Option StoreEffect → β} {told : β → Bool}
    (state : r.2 = (s.operate L net ctx url effect w).2)
    (result : ∀ b, r.1 = .ok b ↔ (s.operate L net ctx url effect w).1.map f = .ok b)
    (tells : ∀ e, told (f e) = e.isSome) :
    Acknowledged s told r ↔ ∃ e, effect readBuffer = .ok (some e) := by
  unfold Acknowledged
  rw [state]
  rcases operate_cases L net ctx url effect s w with
    ⟨same, rejected, refused⟩ | ⟨readBuffer', e, arrived', decided, taken⟩
  · constructor
    · intro acknowledged
      rcases acknowledged with ⟨b, returned, yes⟩ | changed
      · rw [result] at returned
        rcases outcome : (s.operate L net ctx url effect w).1 with fault | _ | e
        · rw [outcome] at returned
          cases returned
        · rw [outcome] at returned
          cases returned
          rw [tells] at yes
          cases yes
        · exact absurd outcome (rejected e)
      · exact absurd same changed
    · intro ⟨e, decided⟩
      exact absurd decided (refused readBuffer e arrived)
  · cases arrived.symm.trans arrived'
    refine ⟨fun _ => ⟨e, decided⟩, fun _ => .inl ⟨f (some e), ?_, tells (some e)⟩⟩
    rw [result, taken]
    rfl

theorem placeOrder_acknowledged_iff {ctx : CallContext} {s : OrderAPI} {w : ω}
    {instrument label orderId orderType readBuffer : Bytes} {quantity price : Double}
    (arrived : (s.request L net ctx (placeOrderUrl instrument quantity price label orderType) w).1 =
      .ok (some readBuffer)) :
    Acknowledged s Prod.fst
        (s.placeOrder L net ctx instrument quantity price label orderId orderType w) ↔
      ∃ e, placeEffect L readBuffer = .ok (some e) := by
  refine acknowledged_iff (f := answer orderId) arrived ?_ ?_ ?_
  · rw [placeOrder_eq]
  · intro b
    rw [placeOrder_eq]
  · intro e
    cases e <;> rfl

theorem cancelOrderRequest_acknowledged_iff {ctx : CallContext} {s : OrderAPI} {w : ω}
    {orderId readBuffer : Bytes}
    (arrived : (s.request L net ctx (cancelOrderUrl orderId) w).1 = .ok (some readBuffer)) :
    Acknowledged s id (s.cancelOrderRequest L net ctx orderId w) ↔
      ∃ e, cancelEffect L orderId readBuffer = .ok (some e) := by
  refine acknowledged_iff (f := Option.isSome) arrived ?_ ?_ fun _ => rfl
  · rw [cancelOrderRequest_eq]
  · intro b
    rw [cancelOrderRequest_eq]

theorem modifyOrder_acknowledged_iff {ctx : CallContext} {s : OrderAPI} {w : ω}
    {orderId readBuffer : Bytes} {newPrice amount : Double}
    (arrived : (s.request L net ctx (modifyOrderUrl orderId newPrice amount) w).1 =
      .ok (some readBuffer)) :
    Acknowledged s id (s.modifyOrder L net ctx orderId newPrice amount w) ↔
      ∃ e, modifyEffect L orderId readBuffer = .ok (some e) := by
  refine acknowledged_iff (f := Option.isSome) arrived ?_ ?_ fun _ => rfl
  · rw [OrderAPI.modifyOrder, modifyOrderTask_eq]
  · intro b
    rw [OrderAPI.modifyOrder, modifyOrderTask_eq]
    exact executeAsyncTask_eq_ok_iff ..

theorem placeEffect_parsed {readBuffer : Bytes} {document : Value}
    (parsed : Parsed L readBuffer document) :
    (∃ e, placeEffect L readBuffer = .ok (some e)) ↔
      ∃ orderId order, CarriesOrder document orderId order := by
  have decision : placeDecision L readBuffer = placeReply true document := by
    rw [placeDecision, placeOrderBody, parsed.read, ok_bind]
  simp only [placeEffect, decision, ← placeReply_eq_some_iff]
  rcases placeReply true document with fault | _ | ⟨orderId, order⟩
  · simp [Except.map]
  · simp [Except.map]
  · simp [Except.map]

theorem cancelEffect_parsed {orderId readBuffer : Bytes} {document : Value}
    (parsed : Parsed L readBuffer document) :
    (∃ e, cancelEffect L orderId readBuffer = .ok (some e)) ↔
      document.hasMember (bytes "error") = .ok false := by
  have decision : cancelDecision L readBuffer = cancelReply true document := by
    rw [cancelDecision, cancelOrderBody, parsed.read, ok_bind]
  simp only [cancelEffect, decision, ← cancelReply_eq_true_iff]
  rcases cancelReply true document with fault | _ | _
  · simp [Except.map]
  · simp [Except.map]
  · simp [Except.map]

theorem modifyEffect_parsed {orderId readBuffer : Bytes} {document : Value} {e : StoreEffect}
    (parsed : Parsed L readBuffer document)
    (accepted : modifyEffect L orderId readBuffer = .ok (some e)) : SuccessWithOrder document := by
  obtain ⟨order, _, decided⟩ := modifyEffect_eq_some accepted
  have decision : modifyDecision L readBuffer = modifyReply true document := by
    rw [modifyDecision, modifyOrderBody, parsed.read, ok_bind]
  exact modifyReply_success (decision ▸ decided)

end

/-- For every parsed response: an acknowledgement, or a change of the store, means
a success, except where an operation misreads the document; `modifyOrder` never does. -/
theorem acknowledgement_sound_iff {ω : Type} (L : Libraries) (net : Network ω)
    (ctx : CallContext) (s : OrderAPI) (w : ω) (readBuffer : Bytes) (document : Value)
    (parsed : Parsed L readBuffer document) :
    (∀ instrument quantity price label orderId orderType,
      (s.request L net ctx (placeOrderUrl instrument quantity price label orderType) w).1 =
          .ok (some readBuffer) →
        ((Acknowledged s Prod.fst
            (s.placeOrder L net ctx instrument quantity price label orderId orderType w) →
          SuccessWithOrder document) ↔ ¬ PlaceMisreads document)) ∧
    (∀ orderId, (s.request L net ctx (cancelOrderUrl orderId) w).1 = .ok (some readBuffer) →
      ((Acknowledged s id (s.cancelOrderRequest L net ctx orderId w) → Success document) ↔
        ¬ CancelMisreads document)) ∧
    (∀ orderId newPrice amount,
      (s.request L net ctx (modifyOrderUrl orderId newPrice amount) w).1 =
          .ok (some readBuffer) →
        Acknowledged s id (s.modifyOrder L net ctx orderId newPrice amount w) →
          SuccessWithOrder document) := by
  refine ⟨?_, ?_, ?_⟩
  · intro instrument quantity price label orderId orderType arrived
    rw [placeOrder_acknowledged_iff arrived, placeEffect_parsed parsed]
    constructor
    · intro sound misread
      obtain ⟨orderId, order, carries⟩ := misread.1
      exact (placeReply_success_iff carries).mp (sound misread.1) misread
    · intro fine ⟨orderId, order, carries⟩
      exact (placeReply_success_iff carries).mpr fine
  · intro orderId arrived
    rw [cancelOrderRequest_acknowledged_iff arrived, cancelEffect_parsed parsed]
    constructor
    · intro sound misread
      exact (cancelReply_success_iff misread.1).mp (sound misread.1) misread
    · intro fine noError
      exact (cancelReply_success_iff noError).mpr fine
  · intro orderId newPrice amount arrived acknowledged
    obtain ⟨e, accepted⟩ := (modifyOrder_acknowledged_iff arrived).mp acknowledged
    exact modifyEffect_parsed parsed accepted

/-- An order and an error in one document, and a document with neither. -/
def orderBesideError : Bytes :=
  bytes "\x7b\"result\":\x7b\"order\":\x7b\"order_id\":\"A\"\x7d\x7d," ++
    bytes "\"error\":\x7b\"message\":\"m\"\x7d\x7d"

def orderBesideErrorDocument : Value :=
  .object [(bytes "result", .object [(bytes "order", placedOrder (bytes "A"))]),
    (bytes "error", .object [(bytes "message", .string (bytes "m"))])]

def misreading : Libraries :=
  .ofTable [(orderBesideError, orderBesideErrorDocument), (bytes "\x7b\x7d", .object [])]

def arriving (text : Bytes) : List Transfer := [⟨.ok, [okBuffer text]⟩]

/-- A client that has placed the order A, and holds it. -/
def holdingClient : OrderAPI :=
  (sampleClient.placeOrder oneOrder scripted (intactContext 64) (bytes "BTC-PERPETUAL")
    (.finite false 10 0) (.finite false 0 0) (bytes "l") [] (bytes "market")
    (arriving (placedText (bytes "A")))).2.1

/-- The same answer places, cancels and modifies. -/
theorem acknowledgement_sound_placed :
    (Acknowledged holdingClient Prod.fst
        (holdingClient.placeOrder oneOrder scripted (intactContext 80) (bytes "BTC-PERPETUAL")
          (.finite false 10 0) (.finite false 0 0) (bytes "l") [] (bytes "market")
          (arriving (placedText (bytes "A")))) ∧
      SuccessWithOrder (placedDocument (bytes "A"))) ∧
    (Acknowledged holdingClient id (holdingClient.cancelOrderRequest oneOrder scripted
        (intactContext 80) (bytes "A") (arriving (placedText (bytes "A")))) ∧
      Success (placedDocument (bytes "A"))) ∧
    (Acknowledged holdingClient id (holdingClient.modifyOrder oneOrder scripted (intactContext 80)
        (bytes "A") (.finite false 9 0) (.finite false 10 0)
        (arriving (placedText (bytes "A")))) ∧
      SuccessWithOrder (placedDocument (bytes "A"))) := by
  obtain ⟨place, cancel, modify⟩ := acknowledgement_sound_iff oneOrder scripted (intactContext 80)
    holdingClient (arriving (placedText (bytes "A"))) (okBuffer (placedText (bytes "A")))
    (placedDocument (bytes "A")) rfl
  refine ⟨?_, ?_, ?_⟩
  · have placed : Acknowledged holdingClient Prod.fst
        (holdingClient.placeOrder oneOrder scripted (intactContext 80) (bytes "BTC-PERPETUAL")
          (.finite false 10 0) (.finite false 0 0) (bytes "l") [] (bytes "market")
          (arriving (placedText (bytes "A")))) := .inl ⟨(true, bytes "A"), rfl, rfl⟩
    refine ⟨placed, (place _ _ _ _ _ _ rfl).mpr ?_ placed⟩
    intro ⟨_, error⟩
    cases error
  · have cancelled : Acknowledged holdingClient id (holdingClient.cancelOrderRequest oneOrder
        scripted (intactContext 80) (bytes "A") (arriving (placedText (bytes "A")))) :=
      .inl ⟨true, rfl, rfl⟩
    refine ⟨cancelled, (cancel _ rfl).mpr ?_ cancelled⟩
    intro ⟨_, result⟩
    cases result
  · have modified : Acknowledged holdingClient id (holdingClient.modifyOrder oneOrder scripted
        (intactContext 80) (bytes "A") (.finite false 9 0) (.finite false 10 0)
        (arriving (placedText (bytes "A")))) := .inl ⟨true, rfl, rfl⟩
    exact ⟨modified, modify _ _ _ rfl modified⟩

theorem error_acknowledged :
    (Parsed misreading (okBuffer orderBesideError) orderBesideErrorDocument ∧
      (sampleClient.placeOrder misreading scripted (intactContext 64) (bytes "BTC-PERPETUAL")
        (.finite false 10 0) (.finite false 0 0) (bytes "l") [] (bytes "market")
        (arriving orderBesideError)).1 = .ok (true, bytes "A") ∧
      ¬ Success orderBesideErrorDocument) ∧
    Parsed misreading (okBuffer (bytes "\x7b\x7d")) (.object []) ∧
      (sampleClient.cancelOrderRequest misreading scripted (intactContext 64) (bytes "A")
        (arriving (bytes "\x7b\x7d"))).1 = .ok true ∧
      ¬ Success (.object []) := by
  refine ⟨⟨rfl, rfl, ?_⟩, rfl, rfl, ?_⟩
  · intro success
    cases success.2
  · intro success
    cases success.1

section
variable {ω : Type} {L : Libraries} {net : Network ω}

/-- Orders, values, free blocks and free handles are what they were. -/
structure Untouched (s t : OrderAPI) : Prop where
  store : SameStore s t
  freeHandles : t.curlManager.freeHandles = s.curlManager.freeHandles

/-- Whatever comes of it, a request gives its handle back. -/
theorem performCurlRequest_freeHandles (m : CurlConnectionManager) (url accessToken : Bytes)
    (buffer : Addr) (response : Bytes) (w : ω) :
    (performCurlRequest net m url accessToken buffer response w).manager.freeHandles =
      m.freeHandles := by
  unfold performCurlRequest CurlConnectionManager.getCurlHandle
  rcases free : m.freeHandles with _ | ⟨curl, rest⟩
  · exact free
  · rfl

variable (L net) in
theorem request_untouched (ctx : CallContext) (url : Bytes) (s : OrderAPI) (w : ω) :
    Untouched s (s.request L net ctx url w).2.1 := by
  refine ⟨request_sameStore L net ctx url s w, ?_⟩
  unfold OrderAPI.request
  split
  · rfl
  · exact performCurlRequest_freeHandles ..

/-- An operation without an accepted effect leaves only what its request did. -/
theorem operate_untouched {ctx : CallContext} {url : Bytes}
    {effect : Bytes → Outcome (Option StoreEffect)} {s : OrderAPI} {w : ω}
    (rejected : ∀ e, (s.operate L net ctx url effect w).1 ≠ .ok (some e)) :
    Untouched s (s.operate L net ctx url effect w).2.1 := by
  have untouched := request_untouched L net ctx url s w
  unfold operate at rejected ⊢
  generalize s.request L net ctx url w = r at untouched rejected ⊢
  obtain ⟨outcome, t, w'⟩ := r
  rcases outcome with f | _ | readBuffer
  · exact untouched
  · exact untouched
  · rcases decided : effect readBuffer with f | _ | e
    · simpa only [decided] using untouched
    · simpa only [decided] using untouched
    · simp [decided] at rejected

/-- A result that does not tell of a success is that of an operation without effect. -/
theorem no_effect_of_false {β : Type} {r : Outcome (Option StoreEffect)}
    {f : Option StoreEffect → β} (told : β → Bool) (tells : ∀ e, told (f e) = e.isSome) {b : β}
    (returned : r.map f = .ok b) (no : told b = false) : r = .ok none ∧ b = f none := by
  rcases r with fault | _ | e
  · cases returned
  · cases returned
    exact ⟨rfl, rfl⟩
  · cases returned
    rw [tells] at no
    cases no

theorem untouched_of_none {ctx : CallContext} {url : Bytes}
    {effect : Bytes → Outcome (Option StoreEffect)} {s t : OrderAPI} {w w' : ω}
    (none : (s.operate L net ctx url effect w).1 = .ok none)
    (after : (s.operate L net ctx url effect w).2 = (t, w')) : Untouched s t := by
  have untouched : Untouched s (s.operate L net ctx url effect w).2.1 := by
    refine operate_untouched fun e accepted => ?_
    rw [none] at accepted
    cases accepted
  rw [after] at untouched
  exact untouched

end

/-- Every way of returning false, of each operation, comes before any change. -/
theorem failure_atomic {ω : Type} (L : Libraries) (net : Network ω) (ctx : CallContext)
    (s t : OrderAPI) (w w' : ω) :
    (∀ instrument quantity price label orderId orderType orderId',
      s.placeOrder L net ctx instrument quantity price label orderId orderType w =
          (.ok (false, orderId'), t, w') → orderId' = orderId ∧ Untouched s t) ∧
    (∀ orderId newPrice amount,
      s.modifyOrder L net ctx orderId newPrice amount w = (.ok false, t, w') → Untouched s t) ∧
    (∀ orderId, s.cancelOrderRequest L net ctx orderId w = (.ok false, t, w') →
      Untouched s t) := by
  refine ⟨?_, ?_, ?_⟩
  · intro instrument quantity price label orderId orderType orderId' returned
    rw [placeOrder_eq] at returned
    obtain ⟨result, after⟩ := Prod.ext_iff.mp returned
    obtain ⟨none, same⟩ := no_effect_of_false Prod.fst
      (fun e => by cases e <;> rfl) result rfl
    exact ⟨congrArg Prod.snd same, untouched_of_none none after⟩
  · intro orderId newPrice amount returned
    rw [OrderAPI.modifyOrder, modifyOrderTask_eq] at returned
    obtain ⟨result, after⟩ := Prod.ext_iff.mp returned
    have result := (executeAsyncTask_eq_ok_iff ..).mp result
    exact untouched_of_none (no_effect_of_false id (fun _ => rfl) result rfl).1 after
  · intro orderId returned
    rw [cancelOrderRequest_eq] at returned
    obtain ⟨result, after⟩ := Prod.ext_iff.mp returned
    exact untouched_of_none (no_effect_of_false id (fun _ => rfl) result rfl).1 after

/-- An answer that refuses whatever is asked. -/
def refusal : Bytes := bytes "\x7b\"error\":\x7b\"message\":\"m\"\x7d\x7d"

def refusing : Libraries :=
  .ofTable [(refusal, .object [(bytes "error", .object [(bytes "message", .string (bytes "m"))])])]

/-- A network that is down, and an exchange that refuses: the client holds on to its order. -/
theorem failure_atomic_refused :
    (holdingClient.stored (bytes "A")).isSome ∧ ∀ w ∈ [[], arriving refusal],
      Untouched holdingClient (holdingClient.placeOrder refusing scripted (intactContext 80)
        (bytes "BTC-PERPETUAL") (.finite false 10 0) (.finite false 0 0) (bytes "l") (bytes "none")
        (bytes "market") w).2.1 ∧
      Untouched holdingClient (holdingClient.modifyOrder refusing scripted (intactContext 80)
        (bytes "A") (.finite false 9 0) (.finite false 10 0) w).2.1 ∧
      Untouched holdingClient (holdingClient.cancelOrderRequest refusing scripted (intactContext 80)
        (bytes "A") w).2.1 := by
  have placed : ∀ w ∈ [[], arriving refusal],
      (holdingClient.placeOrder refusing scripted (intactContext 80) (bytes "BTC-PERPETUAL")
        (.finite false 10 0) (.finite false 0 0) (bytes "l") (bytes "none") (bytes "market")
        w).1 = .ok (false, bytes "none") := by decide +kernel
  have modified : ∀ w ∈ [[], arriving refusal],
      (holdingClient.modifyOrder refusing scripted (intactContext 80) (bytes "A")
        (.finite false 9 0) (.finite false 10 0) w).1 = .ok false := by decide +kernel
  have cancelled : ∀ w ∈ [[], arriving refusal],
      (holdingClient.cancelOrderRequest refusing scripted (intactContext 80) (bytes "A") w).1 =
        .ok false := by decide +kernel
  refine ⟨by decide +kernel, fun w there => ⟨?_, ?_, ?_⟩⟩
  · obtain ⟨place, _, _⟩ := failure_atomic refusing scripted (intactContext 80) holdingClient _ w _
    exact (place _ _ _ _ _ _ _ (Prod.ext (placed w there) rfl)).2
  · obtain ⟨_, modify, _⟩ := failure_atomic refusing scripted (intactContext 80) holdingClient _ w _
    exact modify _ _ _ (Prod.ext (modified w there) rfl)
  · obtain ⟨_, _, cancel⟩ := failure_atomic refusing scripted (intactContext 80) holdingClient _ w _
    exact cancel _ (Prod.ext (cancelled w there) rfl)

end DeribitTrading
