import DeribitTrading.Client.Framing
import DeribitTrading.Client.OrderApi

/-!
`getOrderBookData` from the transfer to the value it returns: which buffers hold
an order book, said without the steps of the code, and that the steps find out.
-/
namespace DeribitTrading
open ByteString HttpFraming Rapidjson Nlohmann

/-- What is behind the first separator, or everything when there is none. -/
def Stripped (readBuffer body : Bytes) : Prop :=
  (∃ headers, readBuffer = headers ++ (separator ++ body) ∧
      ∀ i < headers.length, ¬ separator <+: readBuffer.drop i) ∨
    ¬ separator <:+: readBuffer ∧ body = readBuffer

/-- Longer than two bytes, and with the magic number of gzip in front. -/
def Gzipped (body : Bytes) : Prop := ∃ b rest, body = 0x1f :: 0x8b :: b :: rest

def Unpacked (L : Libraries) (body text : Bytes) : Prop :=
  Gzipped body ∧ decompressGzip L body = .ok text ∨ ¬ Gzipped body ∧ text = body

/-- The buffer carries an object with a result. -/
def HoldsBook (L : Libraries) (readBuffer : Bytes) (ms : Rapidjson.Members) : Prop :=
  ∃ body text, Stripped readBuffer body ∧ Unpacked L body text ∧
    parseJSONResponse L text = (true, .object ms) ∧
    (Rapidjson.Members.lookup ms (bytes "result")).isSome

theorem stripped_iff (readBuffer body : Bytes) :
    Stripped readBuffer body ↔ orderBookBody readBuffer = .ok body := by
  have behind : ∀ headers : Bytes,
      substr (headers ++ (separator ++ body)) (headers.length + 4) = some body := by
    intro headers
    have cut := substr_append (headers ++ separator) body
    rw [List.length_append, List.append_assoc] at cut
    exact cut
  constructor
  · intro stripped
    rcases stripped with ⟨headers, same, first⟩ | ⟨unseparated, rfl⟩
    · have found := find_eq_some_iff.mpr ⟨headers, body, same, rfl, first⟩
      simp only [orderBookBody, found]
      rw [same, behind headers]
    · exact orderBookBody_unseparated unseparated
  · intro extracted
    unfold orderBookBody at extracted
    cases found : find separator readBuffer with
    | none =>
        rw [found] at extracted
        cases extracted
        exact .inr ⟨(find_eq_none_iff separator readBuffer).mp found, rfl⟩
    | some headerEnd =>
        obtain ⟨headers, rest, same, rfl, first⟩ := find_eq_some_iff.mp found
        have cut := substr_append (headers ++ separator) rest
        rw [List.length_append, List.append_assoc, ← same] at cut
        simp only [found] at extracted
        rw [show headers.length + 4 = headers.length + separator.length from rfl, cut] at extracted
        cases extracted
        exact .inl ⟨headers, same, first⟩

theorem orderBookBody_finishes (readBuffer : Bytes) : Finishes (orderBookBody readBuffer) := by
  unfold orderBookBody
  cases found : find separator readBuffer with
  | none => exact finishes_ok _
  | some headerEnd =>
      have room : headerEnd + 4 ≤ readBuffer.length := find_le_length found
      simp only [substr, if_pos room]
      exact finishes_ok _

theorem isGzip_iff (body : Bytes) : isGzip body = true ↔ Gzipped body := by
  rcases body with _ | ⟨first, _ | ⟨second, _ | ⟨third, rest⟩⟩⟩
  · simp [isGzip, Gzipped]
  · simp [isGzip, Gzipped]
  · simp [isGzip, Gzipped]
  · simp [isGzip, Gzipped]

theorem gunzipped_eq_some_iff (L : Libraries) (body text : Bytes) :
    gunzipped L body = .ok (some text) ↔ Unpacked L body text := by
  unfold gunzipped Unpacked
  rw [← isGzip_iff]
  cases isGzip body with
  | false => simp [eq_comm]
  | true =>
      cases decompressGzip L body with
      | ok out => simp
      | error f => cases f <;> simp

/-- What a document that was parsed leads to. -/
def bookOf : Value → Json
  | .object ms =>
      if (Rapidjson.Members.lookup ms (bytes "result")).isSome then
        rapidjsonToNlohmannJson (.object ms)
      else .null
  | _ => .null

theorem orderBookReply_of_document {L : Libraries} {readBuffer : Bytes} {document : Value}
    (read : readResponse L (orderBookBody readBuffer) = .ok (some (true, document))) :
    OrderAPI.orderBookReply L readBuffer = .ok (bookOf document) := by
  unfold OrderAPI.orderBookReply
  rw [read]
  cases document with
  | object ms =>
      simp only [bookOf, ok_bind, hasMember_object, isObject_object]
      cases Rapidjson.Members.lookup ms (bytes "result") with
      | none => rfl
      | some result => rfl
  | _ => rfl

theorem holdsBook_iff {L : Libraries} {readBuffer body : Bytes} {unpacked : Option Bytes}
    (stripped : orderBookBody readBuffer = .ok body) (unzipped : gunzipped L body = .ok unpacked)
    (ms : Rapidjson.Members) :
    HoldsBook L readBuffer ms ↔ ∃ text, unpacked = some text ∧
      parseJSONResponse L text = (true, .object ms) ∧
      (Rapidjson.Members.lookup ms (bytes "result")).isSome := by
  constructor
  · intro holds
    obtain ⟨body', text, stripped', unpacked', parsed, result⟩ := holds
    cases stripped.symm.trans ((stripped_iff ..).mp stripped')
    cases unzipped.symm.trans ((gunzipped_eq_some_iff ..).mpr unpacked')
    exact ⟨text, rfl, parsed, result⟩
  · intro held
    obtain ⟨text, rfl, parsed, result⟩ := held
    exact ⟨body, text, (stripped_iff ..).mpr stripped, (gunzipped_eq_some_iff ..).mp unzipped,
      parsed, result⟩

/-- A document is no book, or it is one and the converted object is returned. -/
theorem bookOf_cases (document : Value) :
    (bookOf document = .null ∧ ∀ ms, document = .object ms →
        (Rapidjson.Members.lookup ms (bytes "result")).isSome = false) ∨
      ∃ ms, document = .object ms ∧
        (Rapidjson.Members.lookup ms (bytes "result")).isSome = true ∧
        bookOf document = rapidjsonToNlohmannJson (.object ms) := by
  cases document with
  | object ms =>
      cases found : (Rapidjson.Members.lookup ms (bytes "result")).isSome with
      | false =>
          refine .inl ⟨by simp [bookOf, found], ?_⟩
          intro ms' same
          cases same
          exact found
      | true => exact .inr ⟨ms, rfl, found, by simp [bookOf, found]⟩
  | _ => exact .inl ⟨rfl, by simp⟩

/-- The three ways to go on with a buffer, of which one leads to a book. -/
theorem orderBookReply_cases (L : Libraries) (readBuffer : Bytes) :
    (OrderAPI.orderBookReply L readBuffer = .ok .null ∧ ∀ ms, ¬ HoldsBook L readBuffer ms) ∨
      ∃ ms, HoldsBook L readBuffer ms ∧ (∀ ms', HoldsBook L readBuffer ms' → ms' = ms) ∧
        OrderAPI.orderBookReply L readBuffer =
          .ok (rapidjsonToNlohmannJson (.object ms)) := by
  obtain ⟨body, stripped⟩ := orderBookBody_finishes readBuffer
  obtain ⟨unpacked, unzipped⟩ := gunzipped_finishes L body
  have read : readResponse L (orderBookBody readBuffer) =
      .ok (unpacked.map (parseJSONResponse L)) := by
    simp only [readResponse, stripped, unzipped, ok_bind]
    cases unpacked <;> rfl
  simp only [holdsBook_iff stripped unzipped]
  cases unpacked with
  | none =>
      refine .inl ⟨?_, by simp⟩
      unfold OrderAPI.orderBookReply
      rw [read]
      rfl
  | some text =>
      simp only [Option.some.injEq, exists_eq_left']
      rw [Option.map_some] at read
      generalize parseJSONResponse L text = parsed at read ⊢
      obtain ⟨success, document⟩ := parsed
      cases success with
      | false =>
          refine .inl ⟨?_, by simp⟩
          unfold OrderAPI.orderBookReply
          rw [read]
          rfl
      | true =>
          rw [orderBookReply_of_document read]
          rcases bookOf_cases document with ⟨null, none⟩ | ⟨ms, rfl, there, converted⟩
          · refine .inl ⟨congrArg _ null, ?_⟩
            intro ms held
            have absent := none ms (congrArg Prod.snd held.1)
            rw [held.2] at absent
            cases absent
          · refine .inr ⟨ms, ⟨rfl, there⟩, ?_, congrArg _ converted⟩
            intro ms' held
            cases held.1
            rfl

theorem convertMembers_ne_nil {ms : Rapidjson.Members} (some : ms ≠ [])
    (result : Nlohmann.Members) : convertMembers ms result ≠ [] := by
  induction ms generalizing result with
  | nil => exact absurd rfl some
  | cons m ms ih =>
      rw [convertMembers]
      cases ms with
      | nil =>
          rw [convertMembers]
          exact assign_ne_nil _ _ result
      | cons n ms => exact ih (List.cons_ne_nil n ms) _

theorem HoldsBook.nonempty {L : Libraries} {readBuffer : Bytes} {ms : Rapidjson.Members}
    (holds : HoldsBook L readBuffer ms) :
    (rapidjsonToNlohmannJson (.object ms)).empty = false := by
  obtain ⟨_, _, _, _, _, result⟩ := holds
  have some : ms ≠ [] := by
    rintro rfl
    cases result
  rw [rapidjsonToNlohmannJson]
  simp [Json.empty, convertMembers_ne_nil some []]

theorem order_book_fetch_exact {ω : Type} (L : Libraries) (net : Network ω) (ctx : CallContext)
    (symbol : Bytes) (s : OrderAPI) (w : ω) :
    let transfer := performAsyncCurlRequest net s.curlManager (orderBookUrl symbol) []
      ctx.readBuffer [] w
    ∃ result, (s.getOrderBookData L net ctx symbol w).1 = .ok result ∧
      (result.empty = false ↔
        transfer.success = true ∧ ∃ ms, HoldsBook L transfer.response ms) ∧
      ∀ ms, transfer.success = true → HoldsBook L transfer.response ms →
        result = rapidjsonToNlohmannJson (.object ms) := by
  intro transfer
  have unfolded : (s.getOrderBookData L net ctx symbol w).1 =
      if transfer.success then OrderAPI.orderBookReply L transfer.response else .ok .null := by
    unfold OrderAPI.getOrderBookData
    exact apply_ite Prod.fst ..
  rw [unfolded]
  cases transfer.success with
  | false => exact ⟨.null, rfl, by simp [Json.empty], by simp⟩
  | true =>
      rcases orderBookReply_cases L transfer.response with ⟨reply, none⟩ | ⟨ms, holds, only, reply⟩
      · refine ⟨.null, reply, ?_, ?_⟩
        · simp [Json.empty, none]
        · intro ms _ holds
          exact absurd holds (none ms)
      · refine ⟨_, reply, ?_, ?_⟩
        · simp only [holds.nonempty, true_and, true_iff]
          exact ⟨ms, holds⟩
        · intro ms' _ holds'
          rw [only ms' holds']

end DeribitTrading
