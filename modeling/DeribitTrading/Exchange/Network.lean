import DeribitTrading.Client.Calls
import DeribitTrading.Client.Framing

/-!
The exchange behind a network that loses requests and responses. Each attempt
of the retry loop has a fate of its own; the loop sees an error for a request
that never arrived and for one that was carried out and answered in vain.
-/
namespace DeribitTrading
open ByteString HttpFraming

/-- A response as it is written into the buffer: a header block and a body, both
text, which is all that matters here of their syntax. -/
structure Response where
  header : HeaderBlock
  body : Bytes
  http : bytes "HTTP/" <+: header.statusLine.text
  text : ∀ b ∈ header.render ++ body, b ≠ 0 ∧ b ≠ 0x1f

theorem text_of_all {s : Bytes} (all : s.all (fun b => b != 0 && b != 0x1f) = true) :
    ∀ b ∈ s, b ≠ 0 ∧ b ≠ 0x1f := by
  intro b member
  simpa using List.all_eq_true.mp all b member

theorem finalBlock_http : bytes "HTTP/" <+: finalBlock.statusLine.text := by decide

def Response.buffer (r : Response) : Bytes := r.header.render ++ r.body

/-- What the exchange answers to a request for a URL, and what it then is. -/
structure Exchange (ξ : Type) where
  receive : Bytes → ξ → Response × ξ

/-- What becomes of one attempt; a lost response may have arrived in part. -/
inductive Fate where
  | requestLost (code : Nat)
  | responseLost (code cut : Nat)
  | delivered
  deriving DecidableEq, Repr

/-- The request gets to the exchange. -/
def Fate.reaches : Fate → Bool
  | .requestLost _ => false
  | .responseLost _ _ | .delivered => true

def Fate.fails : Fate → Bool
  | .requestLost _ | .responseLost _ _ => true
  | .delivered => false

variable {ξ : Type}

namespace Exchange

def attempt (ex : Exchange ξ) (url : Bytes) (x : ξ) : Fate → Transfer × ξ
  | .requestLost code => (⟨.failed code, []⟩, x)
  | .responseLost code cut =>
      let (r, x) := ex.receive url x
      (⟨.failed code, [r.buffer.take cut]⟩, x)
  | .delivered =>
      let (r, x) := ex.receive url x
      (⟨.ok, [r.buffer]⟩, x)

/-- The network of the client's calls; past its list of fates every request is lost. -/
def lossy (ex : Exchange ξ) : Network (ξ × List Fate) where
  perform := fun o w =>
    match w.2 with
    | [] => (⟨.failed 28, []⟩, w)
    | f :: fates =>
        let (t, x) := ex.attempt (o.url.getD []) w.1 f
        (t, x, fates)

/-- The exchange after attempts with these fates. -/
def after (ex : Exchange ξ) (url : Bytes) : List Fate → ξ → ξ
  | [], x => x
  | f :: fates, x => ex.after url fates (ex.attempt url x f).2

/-- Everything that attempts with these fates write into the buffer. -/
def arrived (ex : Exchange ξ) (url : Bytes) : List Fate → ξ → Bytes
  | [], _ => []
  | f :: fates, x =>
      (ex.attempt url x f).1.chunks.flatten ++ ex.arrived url fates (ex.attempt url x f).2

end Exchange

/-- The attempts that the retry loop makes: up to the first that is delivered. -/
def attemptsMade : Nat → List Fate → List Fate
  | _, [] => []
  | _, .delivered :: _ => [.delivered]
  | 0, f :: _ => [f]
  | left + 1, f :: fates => f :: attemptsMade left fates

theorem attemptsMade_last {f : Fate} (fails : f.fails = true) (fates : List Fate) :
    attemptsMade 0 (f :: fates) = [f] := by
  cases f with
  | delivered => cases fails
  | _ => rfl

theorem attemptsMade_again {f : Fate} (fails : f.fails = true) (left : Nat)
    (fates : List Fate) : attemptsMade (left + 1) (f :: fates) = f :: attemptsMade left fates := by
  cases f with
  | delivered => cases fails
  | _ => rfl

theorem attemptsMade_delivered (left : Nat) (fates : List Fate) :
    attemptsMade left (.delivered :: fates) = [.delivered] := by
  cases left <;> rfl

theorem Fate.eq_delivered {f : Fate} (succeeds : ¬ f.fails = true) : f = .delivered := by
  cases f with
  | delivered => rfl
  | _ => exact absurd rfl succeeds

theorem attemptsMade_length (left : Nat) (fates : List Fate) :
    (attemptsMade left fates).length ≤ left + 1 := by
  induction fates generalizing left with
  | nil => simp [attemptsMade]
  | cons f fates ih =>
      by_cases fails : f.fails = true
      · cases left with
        | zero => simp [attemptsMade_last fails]
        | succ left =>
            have := ih left
            simp only [attemptsMade_again fails, List.length_cons]
            omega
      · rw [Fate.eq_delivered fails, attemptsMade_delivered]
        simp

namespace Exchange

variable {o : CurlOptions} {url : Bytes} (ex : Exchange ξ)

theorem attempt_failed (url : Bytes) (x : ξ) {f : Fate} (fails : f.fails = true) :
    ∃ code, (ex.attempt url x f).1.code = .failed code := by
  cases f with
  | requestLost code => exact ⟨code, rfl⟩
  | responseLost code _ => exact ⟨code, rfl⟩
  | delivered => cases fails

theorem lossy_perform (url_set : o.url = some url) (f : Fate) (fates : List Fate) (x : ξ) :
    ex.lossy.perform o (x, f :: fates) =
      ((ex.attempt url x f).1, (ex.attempt url x f).2, fates) := by
  simp only [lossy, url_set, Option.getD_some]

theorem performAttempts_nil (left : Nat) (response : Bytes) (x : ξ) :
    performAttempts ex.lossy o left response (x, []) = (.failed 28, response, x, []) := by
  induction left with
  | zero => rfl
  | succ left ih => exact ih

theorem performAttempts_again (url_set : o.url = some url) (left : Nat) {f : Fate}
    (fails : f.fails = true) (fates : List Fate) (response : Bytes) (x : ξ) :
    performAttempts ex.lossy o (left + 1) response (x, f :: fates) =
      performAttempts ex.lossy o left (response ++ (ex.attempt url x f).1.chunks.flatten)
        ((ex.attempt url x f).2, fates) := by
  obtain ⟨code, failed⟩ := attempt_failed ex url x fails
  rw [performAttempts]
  simp only [lossy_perform ex url_set, failed, foldl_writeCallback]

theorem performAttempts_last (url_set : o.url = some url) {f : Fate}
    (fails : f.fails = true) (fates : List Fate) (response : Bytes) (x : ξ) :
    ∃ code, performAttempts ex.lossy o 0 response (x, f :: fates) =
      (.failed code, response ++ (ex.attempt url x f).1.chunks.flatten,
        (ex.attempt url x f).2, fates) := by
  obtain ⟨code, failed⟩ := attempt_failed ex url x fails
  refine ⟨code, ?_⟩
  rw [performAttempts]
  simp only [lossy_perform ex url_set, failed, foldl_writeCallback]

theorem performAttempts_delivered (url_set : o.url = some url) (left : Nat) (fates : List Fate)
    (response : Bytes) (x : ξ) :
    performAttempts ex.lossy o left response (x, .delivered :: fates) =
      (.ok, response ++ (ex.receive url x).1.buffer, (ex.receive url x).2, fates) := by
  rw [performAttempts.eq_def]
  simp only [lossy_perform ex url_set, attempt, foldl_writeCallback]
  simp

/-- The loop leaves the exchange and the buffer as the attempts it makes leave them. -/
theorem performAttempts_made (url_set : o.url = some url) (left : Nat) (fates : List Fate)
    (response : Bytes) (x : ξ) :
    (performAttempts ex.lossy o left response (x, fates)).2.1 =
        response ++ ex.arrived url (attemptsMade left fates) x ∧
      (performAttempts ex.lossy o left response (x, fates)).2.2.1 =
        ex.after url (attemptsMade left fates) x := by
  induction fates generalizing left response x with
  | nil =>
      rw [performAttempts_nil]
      simp [attemptsMade, arrived, after]
  | cons f fates ih =>
      by_cases fails : f.fails = true
      · cases left with
        | zero =>
            obtain ⟨code, ended⟩ := performAttempts_last ex url_set fails fates response x
            rw [ended, attemptsMade_last fails]
            exact ⟨by simp [arrived], rfl⟩
        | succ left =>
            rw [performAttempts_again ex url_set left fails, attemptsMade_again fails, arrived,
              after, ← List.append_assoc]
            exact ih left _ _
      · rw [Fate.eq_delivered fails, performAttempts_delivered ex url_set, attemptsMade_delivered]
        exact ⟨by simp [arrived, attempt], rfl⟩

end Exchange

/-- Lost attempts and then a delivered one: the buffer holds what arrived of them all. -/
theorem Exchange.performAttempts_lost (ex : Exchange ξ) {o : CurlOptions} {url : Bytes}
    (url_set : o.url = some url) {failed : List Fate} (lost : ∀ f ∈ failed, f.fails = true)
    {left : Nat} (few : failed.length ≤ left) (rest : List Fate) (response : Bytes) (x : ξ) :
    performAttempts ex.lossy o left response (x, failed ++ .delivered :: rest) =
      (.ok, response ++
          (ex.arrived url failed x ++ (ex.receive url (ex.after url failed x)).1.buffer),
        (ex.receive url (ex.after url failed x)).2, rest) := by
  induction failed generalizing left response x with
  | nil => exact ex.performAttempts_delivered url_set left rest response x
  | cons f failed ih =>
      cases left with
      | zero => exact absurd few (Nat.not_succ_le_zero _)
      | succ left =>
          have later : ∀ f ∈ failed, f.fails = true := fun f member =>
            lost f (List.mem_cons_of_mem _ member)
          rw [List.cons_append, ex.performAttempts_again url_set left (lost f List.mem_cons_self),
            ih later (Nat.le_of_succ_le_succ few), Exchange.arrived, Exchange.after]
          simp only [List.append_assoc]

/-- A call that gets as far as the network: it has a token and finds a free handle. -/
structure OrderAPI.Sends (L : Libraries) (ctx : CallContext) (s : OrderAPI) : Prop where
  token : Finishes (s.tokenManager.getAccessToken L ctx.token).1
  handle : s.curlManager.freeHandles ≠ []

variable {ω : Type} {L : Libraries}

theorem OrderAPI.request_of_sends {ctx : CallContext} {s : OrderAPI} (sends : s.Sends L ctx)
    (net : Network ω) (url : Bytes) (w : ω) :
    ∃ o : CurlOptions, o.url = some (cString url) ∧
      (s.request L net ctx url w).1 =
        .ok (if (performAttempts net o (maxRetries - 1) [] w).1 = .ok
          then some (performAttempts net o (maxRetries - 1) [] w).2.1 else none) ∧
      (s.request L net ctx url w).2.2 = (performAttempts net o (maxRetries - 1) [] w).2.2 := by
  obtain ⟨⟨token, fetched⟩, handle⟩ := sends
  obtain ⟨h, rest, free⟩ := List.exists_cons_of_ne_nil handle
  refine ⟨requestOptions (s.curlManager.options h) url token ctx.readBuffer, rfl, ?_⟩
  rcases got : s.tokenManager.getAccessToken L ctx.token with ⟨outcome, tokens⟩
  rw [got] at fetched
  subst fetched
  simp only [request, got, performAsyncCurlRequest, performCurlRequest,
    CurlConnectionManager.getCurlHandle, free, decide_eq_true_eq]
  exact ⟨trivial, trivial⟩

theorem OrderAPI.request_of_not_sends {ctx : CallContext} {s : OrderAPI}
    (unsent : ¬ s.Sends L ctx) (net : Network ω) (url : Bytes) (w : ω) :
    (s.request L net ctx url w).2.2 = w := by
  rcases got : s.tokenManager.getAccessToken L ctx.token with ⟨outcome, tokens⟩
  rcases outcome with f | token
  · simp only [request, got]
  · have none_free : s.curlManager.freeHandles = [] := by
      by_contra handle
      exact unsent ⟨⟨token, by rw [got]⟩, handle⟩
    simp only [request, got, performAsyncCurlRequest, performCurlRequest,
      CurlConnectionManager.getCurlHandle, none_free]

theorem OrderAPI.operate_world (L : Libraries) (net : Network ω) (ctx : CallContext)
    (url : Bytes) (effect : Bytes → Outcome (Option StoreEffect)) (s : OrderAPI) (w : ω) :
    (s.operate L net ctx url effect w).2.2 = (s.request L net ctx url w).2.2 := by
  unfold operate
  rcases s.request L net ctx url w with ⟨_ | _ | readBuffer, s', w'⟩
  · rfl
  · rfl
  · rcases decided : effect readBuffer with f | _ | e <;> simp only [decided]

end DeribitTrading
