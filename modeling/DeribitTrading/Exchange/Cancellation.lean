import DeribitTrading.Exchange.Network
import DeribitTrading.Client.ResponseSafety
import DeribitTrading.Client.Store

/-!
What a cancel under lost responses tells. The buffer of the last attempt still
holds what arrived of the earlier ones; unless that breaks off inside a header
block, the client ends up parsing a header as JSON and does not return.
-/
namespace DeribitTrading
open ByteString Rapidjson HttpFraming

/-- The parser rejects a text with an HTTP header in it, wherever it stands. -/
def RejectsHeaders (L : Libraries) : Prop :=
  ∀ front (header : HeaderBlock) back, 0 ∉ front → bytes "HTTP/" <+: header.statusLine.text →
    L.rapidParse (front ++ (header.render ++ back)) = none

variable {ξ : Type}

/-- The first cancel of an order closes it and is answered with a result, a later
one is answered with an error. -/
structure CancelLaws (L : Libraries) (ex : Exchange ξ) (isOpen : Bytes → ξ → Prop) : Prop where
  closed : ∀ orderId x, ¬ isOpen orderId (ex.receive (cString (cancelOrderUrl orderId)) x).2
  result : ∀ orderId x, isOpen orderId x → ∃ ms,
    L.rapidParse (ex.receive (cString (cancelOrderUrl orderId)) x).1.body = some (.object ms) ∧
      (Members.lookup ms (bytes "result")).isSome ∧ Members.lookup ms (bytes "error") = none
  error : ∀ orderId x, ¬ isOpen orderId x → ∃ ms,
    L.rapidParse (ex.receive (cString (cancelOrderUrl orderId)) x).1.body = some (.object ms) ∧
      (Members.lookup ms (bytes "error")).isSome

/-- Text passes `c_str()` whole and is never taken for gzip. -/
def Plain (s : Bytes) : Prop := ∀ b ∈ s, b ≠ 0 ∧ b ≠ 0x1f

theorem Plain.append {s t : Bytes} (first : Plain s) (second : Plain t) : Plain (s ++ t) := by
  intro b member
  rcases List.mem_append.mp member with here | there
  · exact first b here
  · exact second b there

theorem Plain.nulFree {s : Bytes} (plain : Plain s) : 0 ∉ s := fun member => (plain 0 member).1 rfl

theorem Plain.gunzipped {s : Bytes} (plain : Plain s) (L : Libraries) :
    gunzipped L s = .ok (some s) := by
  have not_gzip : isGzip s = false := by
    cases s with
    | nil => rfl
    | cons b s =>
        have different : b ≠ 0x1f := (plain b List.mem_cons_self).2
        simp [isGzip, different]
  simp only [DeribitTrading.gunzipped, not_gzip, Bool.false_eq_true, if_false]

theorem Response.body_plain (r : Response) : Plain r.body := fun b member =>
  r.text b (List.mem_append_right _ member)

theorem Response.buffer_plain (r : Response) : Plain r.buffer := r.text

/-- The decision on a plain text behind the headers is the reply to its document. -/
theorem cancelDecision_of_body {L : Libraries} {readBuffer body : Bytes} (plain : Plain body)
    (found : extractBody readBuffer = .ok body) :
    cancelDecision L readBuffer =
      cancelReply (parseJSONResponse L body).1 (parseJSONResponse L body).2 := by
  simp only [cancelDecision, cancelOrderBody, readResponse, found, plain.gunzipped L, ok_bind,
    pure, Except.pure]

namespace Exchange

variable (ex : Exchange ξ) (url : Bytes)

theorem attempt_plain (x : ξ) (f : Fate) : Plain (ex.attempt url x f).1.chunks.flatten := by
  cases f with
  | requestLost code => simp [attempt, Plain]
  | responseLost code cut =>
      intro b member
      simp only [attempt, List.flatten_cons, List.flatten_nil, List.append_nil] at member
      exact Response.buffer_plain _ b (List.mem_of_mem_take member)
  | delivered => simpa [attempt] using Response.buffer_plain _

theorem arrived_plain (fates : List Fate) (x : ξ) : Plain (ex.arrived url fates x) := by
  induction fates generalizing x with
  | nil => simp [arrived, Plain]
  | cons f fates ih => exact (ex.attempt_plain url x f).append (ih _)

/-- The first separator ends the header of the response behind `front`, unless
`front` has one itself. -/
structure Delimits (front : Bytes) (r : Response) : Prop where
  starts : StartsLine (front ++ r.buffer)
  found : find separator (front ++ r.buffer) =
      some (front.length + (r.header.render.length - 4)) ∨
    ∃ i, find separator (front ++ r.buffer) = some i ∧ i + 4 ≤ front.length

theorem delimits_nil (r : Response) : Delimits [] r where
  starts := r.header.startsLine r.body
  found := .inl (by simpa [Response.buffer] using r.header.find_render r.body)

/-- A response that is cut short within its header delimits nothing. -/
theorem Delimits.behind_cut {tail : Bytes} {r : Response} (delimits : Delimits tail r)
    (r' : Response) {cut : Nat} (short : cut < r'.header.render.length) :
    Delimits (r'.buffer.take cut ++ tail) r := by
  have front : r'.buffer.take cut = r'.header.render.take cut :=
    List.take_append_of_le_length (Nat.le_of_lt short)
  have broken := List.take_prefix cut r'.header.render
  have shorter : (r'.header.render.take cut).length < r'.header.render.length := by
    rw [List.length_take]
    omega
  rw [front]
  constructor
  · rw [List.append_assoc]
    exact r'.header.startsLine_cut broken delimits.starts
  · rw [List.append_assoc, r'.header.find_cut broken shorter delimits.starts, List.length_append]
    obtain last | ⟨i, earlier, within⟩ := delimits.found
    · refine .inl ?_
      rw [last, Option.map_some]
      congr 1
      omega
    · refine .inr ⟨i + (r'.header.render.take cut).length, by rw [earlier]; rfl, ?_⟩
      omega

theorem delimits_behind_header (tail : Bytes) (r r' : Response) {cut : Nat}
    (whole : r'.header.render.length ≤ cut) : Delimits (r'.buffer.take cut ++ tail) r := by
  have front : r'.buffer.take cut =
      r'.header.render ++ r'.body.take (cut - r'.header.render.length) := by
    rw [Response.buffer, List.take_append, List.take_of_length_le whole]
  have room := r'.header.render_length
  rw [front, List.append_assoc]
  constructor
  · rw [List.append_assoc]
    exact r'.header.startsLine _
  · refine .inr ⟨_, by rw [List.append_assoc]; exact r'.header.find_render _, ?_⟩
    rw [List.length_append]
    omega

theorem delimits_arrived {failed : List Fate} (lost : ∀ f ∈ failed, f.fails = true) (x : ξ)
    (r : Response) : Delimits (ex.arrived url failed x) r := by
  induction failed generalizing x with
  | nil => exact delimits_nil r
  | cons f failed ih =>
      have later : ∀ f ∈ failed, f.fails = true := fun f member =>
        lost f (List.mem_cons_of_mem _ member)
      cases f with
      | delivered => cases lost _ List.mem_cons_self
      | requestLost code => exact ih later x
      | responseLost code cut =>
          have piece : ex.arrived url (.responseLost code cut :: failed) x =
              (ex.receive url x).1.buffer.take cut ++
                ex.arrived url failed (ex.receive url x).2 := by
            simp [arrived, attempt]
          rw [piece]
          obtain short | whole := Nat.lt_or_ge cut (ex.receive url x).1.header.render.length
          · exact (ih later _).behind_cut _ short
          · exact delimits_behind_header _ r _ whole

/-- What the client takes for the body: the last body, or a text with the last
header in it. -/
theorem extractBody_arrived {failed : List Fate} (lost : ∀ f ∈ failed, f.fails = true) (x : ξ)
    (r : Response) :
    extractBody (ex.arrived url failed x ++ r.buffer) = .ok r.body ∨
      ∃ front, Plain front ∧
        extractBody (ex.arrived url failed x ++ r.buffer) =
          .ok (front ++ (r.header.render ++ r.body)) := by
  have room := r.header.render_length
  obtain last | ⟨i, earlier, within⟩ := (ex.delimits_arrived url lost x r).found
  · refine .inl ?_
    have shape : ex.arrived url failed x ++ r.buffer =
        (ex.arrived url failed x ++ r.header.render) ++ r.body := by
      rw [Response.buffer, List.append_assoc]
    have position : (ex.arrived url failed x).length + (r.header.render.length - 4) + 4 =
        (ex.arrived url failed x ++ r.header.render).length := by
      rw [List.length_append]
      omega
    simp only [extractBody, bodyPosition, last, position]
    rw [shape, substr_append]
  · refine .inr ⟨(ex.arrived url failed x).drop (i + 4), ?_, ?_⟩
    · intro b member
      exact ex.arrived_plain url failed x b (List.mem_of_mem_drop member)
    · have inside : i + 4 ≤ (ex.arrived url failed x ++ r.buffer).length := by
        rw [List.length_append]
        omega
      simp only [extractBody, bodyPosition, earlier, substr, if_pos inside]
      rw [List.drop_append_of_le_length within, Response.buffer]

end Exchange

theorem cancelReply_of_error {ms : Members} (error : (Members.lookup ms (bytes "error")).isSome)
    {b : Bool} (returned : cancelReply true (.object ms) = .ok b) : b = false := by
  obtain ⟨failed, asked, returned⟩ := bind_eq_ok_iff.mp returned
  have refused : failed = true := by
    simpa [isFailure, error] using asked.symm
  subst refused
  obtain ⟨_, _, returned⟩ := bind_eq_ok_iff.mp returned
  cases returned
  rfl

theorem cancelReply_of_result {ms : Members}
    (fine : Members.lookup ms (bytes "error") = none) :
    cancelReply true (.object ms) = .ok true := by
  simp [cancelReply, isFailure, fine, pure, Except.pure]

variable {L : Libraries} {ex : Exchange ξ} {isOpen : Bytes → ξ → Prop}

/-- A decision on the whole buffer tells whether the last request found the order open. -/
theorem CancelLaws.decision (laws : CancelLaws L ex isOpen) (parser : RejectsHeaders L)
    {orderId : Bytes} {failed : List Fate} (lost : ∀ f ∈ failed, f.fails = true) (x : ξ) {b : Bool}
    (decided : cancelDecision L
      (ex.arrived (cString (cancelOrderUrl orderId)) failed x ++
        (ex.receive (cString (cancelOrderUrl orderId))
          (ex.after (cString (cancelOrderUrl orderId)) failed x)).1.buffer) = .ok b) :
    b = true ↔ isOpen orderId (ex.after (cString (cancelOrderUrl orderId)) failed x) := by
  have result := laws.result orderId (ex.after (cString (cancelOrderUrl orderId)) failed x)
  have error := laws.error orderId (ex.after (cString (cancelOrderUrl orderId)) failed x)
  generalize (ex.receive (cString (cancelOrderUrl orderId))
    (ex.after (cString (cancelOrderUrl orderId)) failed x)).1 = r at decided result error
  rcases ex.extractBody_arrived (cString (cancelOrderUrl orderId)) lost x r with
    found | ⟨front, plain, found⟩
  · have whole := cString_of_nulFree r.body_plain.nulFree
    rw [cancelDecision_of_body r.body_plain found] at decided
    by_cases opened : isOpen orderId (ex.after (cString (cancelOrderUrl orderId)) failed x)
    · obtain ⟨ms, parsed, _, fine⟩ := result opened
      simp only [parseJSONResponse, whole, parsed, cancelReply_of_result fine] at decided
      cases decided
      exact iff_of_true rfl opened
    · obtain ⟨ms, parsed, refused⟩ := error opened
      simp only [parseJSONResponse, whole, parsed] at decided
      rw [cancelReply_of_error refused decided]
      exact iff_of_false Bool.false_ne_true opened
  · have text : Plain (front ++ (r.header.render ++ r.body)) := plain.append r.text
    have rejected := parser front r.header r.body plain.nulFree r.http
    rw [cancelDecision_of_body text found] at decided
    simp only [parseJSONResponse, cString_of_nulFree text.nulFree, rejected] at decided
    exact absurd ⟨b, decided⟩ (replies_not_finish rfl false).2.1

end DeribitTrading
