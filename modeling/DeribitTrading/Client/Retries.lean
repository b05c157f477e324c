import DeribitTrading.Client.CurlConnectionManager

/-!
One buffer serves all attempts of a request. What it holds after a success, and
when that is what the successful attempt delivered.
-/
namespace DeribitTrading
open ByteString

variable {ω : Type}

/-- The bytes that reach `WriteCallback` during one attempt. -/
def Transfer.delivered (t : Transfer) : Bytes := t.chunks.flatten

/-- How the next `n` attempts would go, whether or not the loop makes them. -/
def outcomes (net : Network ω) (o : CurlOptions) : Nat → ω → List Transfer
  | 0, _ => []
  | n + 1, w => (net.perform o w).1 :: outcomes net o n (net.perform o w).2

/-- The first attempt that succeeds, and the failed ones before it. -/
def FirstSuccess (attempts failed : List Transfer) (t : Transfer) : Prop :=
  ∃ unused, attempts = failed ++ t :: unused ∧ (∀ f ∈ failed, f.code ≠ .ok) ∧ t.code = .ok

theorem FirstSuccess.unique {attempts failed failed' : List Transfer} {t t' : Transfer}
    (first : FirstSuccess attempts failed t) (other : FirstSuccess attempts failed' t') :
    failed = failed' ∧ t = t' := by
  induction failed generalizing attempts failed' with
  | nil =>
      obtain ⟨unused, rfl, _, succeeded⟩ := first
      obtain ⟨unused', same, without, _⟩ := other
      cases failed' with
      | nil => exact ⟨rfl, (List.cons.inj same).1⟩
      | cons f failed' =>
          cases (List.cons.inj same).1
          exact absurd succeeded (without t (by simp))
  | cons f failed ih =>
      obtain ⟨unused, rfl, without, succeeded⟩ := first
      obtain ⟨unused', same, without', succeeded'⟩ := other
      cases failed' with
      | nil =>
          cases (List.cons.inj same).1
          exact absurd succeeded' (without t' (by simp))
      | cons f' failed' =>
          obtain ⟨rfl, rest⟩ := List.cons.inj same
          have later := ih
            ⟨unused, rfl, fun g there => without g (List.mem_cons_of_mem f there), succeeded⟩
            ⟨unused', rest, fun g there => without' g (List.mem_cons_of_mem f there), succeeded'⟩
          exact ⟨by rw [later.1], later.2⟩

theorem FirstSuccess.cons {attempts failed : List Transfer} {t f : Transfer}
    (refused : f.code ≠ .ok) (first : FirstSuccess attempts failed t) :
    FirstSuccess (f :: attempts) (f :: failed) t := by
  obtain ⟨unused, rfl, without, succeeded⟩ := first
  exact ⟨unused, rfl, List.forall_mem_cons.mpr ⟨refused, without⟩, succeeded⟩

theorem FirstSuccess.of_cons {attempts failed : List Transfer} {t f : Transfer}
    (first : FirstSuccess (f :: attempts) failed t) :
    (failed = [] ∧ t = f ∧ f.code = .ok) ∨
      ∃ rest, failed = f :: rest ∧ f.code ≠ .ok ∧ FirstSuccess attempts rest t := by
  obtain ⟨unused, same, without, succeeded⟩ := first
  cases failed with
  | nil =>
      cases (List.cons.inj same).1
      exact .inl ⟨rfl, rfl, succeeded⟩
  | cons g failed =>
      obtain ⟨rfl, rest⟩ := List.cons.inj same
      obtain ⟨refused, others⟩ := List.forall_mem_cons.mp without
      exact .inr ⟨failed, rfl, refused, unused, rest, others, succeeded⟩

/-- The loop ends with the first attempt that succeeds, and has kept the bytes of
all attempts up to it. -/
theorem performAttempts_of_firstSuccess (net : Network ω) (o : CurlOptions) (left : Nat)
    (response : Bytes) (w : ω) {failed : List Transfer} {t : Transfer}
    (first : FirstSuccess (outcomes net o (left + 1) w) failed t) :
    (performAttempts net o left response w).1 = .ok ∧
      (performAttempts net o left response w).2.1 =
        response ++ (failed.flatMap Transfer.delivered ++ t.delivered) := by
  induction left generalizing response w failed with
  | zero =>
      rw [outcomes] at first
      rw [performAttempts]
      generalize net.perform o w = performed at first ⊢
      obtain ⟨⟨_ | code, chunks⟩, w'⟩ := performed
      · rcases first.of_cons with ⟨rfl, rfl, _⟩ | ⟨rest, _, refused, _⟩
        · exact ⟨rfl, foldl_writeCallback ..⟩
        · exact absurd rfl refused
      · rcases first.of_cons with ⟨_, _, succeeded⟩ | ⟨rest, _, _, _, none, _⟩
        · cases succeeded
        · simp [outcomes] at none
  | succ left ih =>
      rw [outcomes] at first
      rw [performAttempts]
      generalize net.perform o w = performed at first ⊢
      obtain ⟨⟨_ | code, chunks⟩, w'⟩ := performed
      · rcases first.of_cons with ⟨rfl, rfl, _⟩ | ⟨rest, _, refused, _⟩
        · exact ⟨rfl, foldl_writeCallback ..⟩
        · exact absurd rfl refused
      · rcases first.of_cons with ⟨_, _, succeeded⟩ | ⟨rest, rfl, _, later⟩
        · cases succeeded
        · obtain ⟨ended, kept⟩ := ih (chunks.foldl writeCallback response) w' later
          refine ⟨ended, kept.trans ?_⟩
          rw [foldl_writeCallback, List.flatMap_cons]
          simp only [Transfer.delivered, List.append_assoc]

theorem exists_firstSuccess_of_performAttempts (net : Network ω) (o : CurlOptions) (left : Nat)
    (response : Bytes) (w : ω) (succeeded : (performAttempts net o left response w).1 = .ok) :
    ∃ failed t, FirstSuccess (outcomes net o (left + 1) w) failed t := by
  induction left generalizing response w with
  | zero =>
      rw [performAttempts] at succeeded
      rw [outcomes]
      generalize net.perform o w = performed at succeeded ⊢
      obtain ⟨⟨_ | code, chunks⟩, w'⟩ := performed
      · exact ⟨[], ⟨.ok, chunks⟩, _, rfl, by simp, rfl⟩
      · cases succeeded
  | succ left ih =>
      rw [performAttempts] at succeeded
      rw [outcomes]
      generalize net.perform o w = performed at succeeded ⊢
      obtain ⟨⟨_ | code, chunks⟩, w'⟩ := performed
      · exact ⟨[], ⟨.ok, chunks⟩, _, rfl, by simp, rfl⟩
      · obtain ⟨failed, t, first⟩ := ih _ _ succeeded
        exact ⟨_, t, first.cons (by simp)⟩

/-- How the attempts that a request of the manager can make would go. -/
def requestOutcomes (net : Network ω) (m : CurlConnectionManager) (url accessToken : Bytes)
    (buffer : Addr) (w : ω) : List Transfer :=
  match m.freeHandles with
  | [] => []
  | curl :: _ =>
      outcomes net (requestOptions (m.options curl) url accessToken buffer) maxRetries w

theorem performCurlRequest_success_iff (net : Network ω) (m : CurlConnectionManager)
    (url accessToken : Bytes) (buffer : Addr) (response : Bytes) (w : ω) :
    (performCurlRequest net m url accessToken buffer response w).success = true ↔
      ∃ failed t, FirstSuccess (requestOutcomes net m url accessToken buffer w) failed t := by
  unfold performCurlRequest CurlConnectionManager.getCurlHandle requestOutcomes
  cases m.freeHandles with
  | nil => simp [FirstSuccess]
  | cons curl rest =>
      simp only [decide_eq_true_eq]
      constructor
      · intro succeeded
        exact exists_firstSuccess_of_performAttempts net _ _ response w succeeded
      · intro ⟨failed, t, first⟩
        exact (performAttempts_of_firstSuccess net _ _ response w first).1

theorem performCurlRequest_response (net : Network ω) (m : CurlConnectionManager)
    (url accessToken : Bytes) (buffer : Addr) (response : Bytes) (w : ω)
    {failed : List Transfer} {t : Transfer}
    (first : FirstSuccess (requestOutcomes net m url accessToken buffer w) failed t) :
    (performCurlRequest net m url accessToken buffer response w).response =
      response ++ (failed.flatMap Transfer.delivered ++ t.delivered) := by
  unfold requestOutcomes at first
  unfold performCurlRequest CurlConnectionManager.getCurlHandle
  cases free : m.freeHandles with
  | nil =>
      rw [free] at first
      obtain ⟨unused, same, _⟩ := first
      simp at same
  | cons curl rest =>
      rw [free] at first
      exact (performAttempts_of_firstSuccess net _ _ response w first).2

/-- What a caller of the request is promised when it returns true. -/
def Uncorrupted (net : Network ω) (m : CurlConnectionManager) (url accessToken : Bytes)
    (buffer : Addr) (response : Bytes) (w : ω) : Prop :=
  (performCurlRequest net m url accessToken buffer response w).success = true →
    ∃ failed t, FirstSuccess (requestOutcomes net m url accessToken buffer w) failed t ∧
      (performCurlRequest net m url accessToken buffer response w).response =
        response ++ t.delivered

theorem retry_uncorrupted_iff (net : Network ω) (m : CurlConnectionManager)
    (url accessToken : Bytes) (buffer : Addr) (response : Bytes) (w : ω) :
    Uncorrupted net m url accessToken buffer response w ↔
      ∀ failed t, FirstSuccess (requestOutcomes net m url accessToken buffer w) failed t →
        ∀ f ∈ failed, f.delivered = [] := by
  have success := performCurlRequest_success_iff net m url accessToken buffer response w
  constructor
  · intro uncorrupted failed t first
    obtain ⟨failed', t', first', clean⟩ := uncorrupted (success.mpr ⟨failed, t, first⟩)
    obtain ⟨rfl, rfl⟩ := first.unique first'
    have kept := performCurlRequest_response net m url accessToken buffer response w first
    have front : failed.flatMap Transfer.delivered ++ t.delivered = [] ++ t.delivered :=
      List.append_cancel_left (kept.symm.trans clean)
    exact List.flatMap_eq_nil_iff.mp (List.append_cancel_right front)
  · intro silent succeeded
    obtain ⟨failed, t, first⟩ := success.mp succeeded
    have nothing : failed.flatMap Transfer.delivered = [] :=
      List.flatMap_eq_nil_iff.mpr (silent failed t first)
    refine ⟨failed, t, first, ?_⟩
    rw [performCurlRequest_response net m url accessToken buffer response w first, nothing,
      List.nil_append]

/-- The connection breaks within the first response; the second attempt succeeds. -/
def brokenThenWhole : List Transfer :=
  [⟨.failed 18, [bytes "HTTP/2 200\r\n\r\n\x7b\"result\""]⟩,
    ⟨.ok, [bytes "HTTP/2 200\r\n\r\n\x7b\x7d"]⟩]

theorem retry_corrupts :
    (performCurlRequest scripted (.initializePool [some 0]) (bytes "https://example") [] 0 []
        brokenThenWhole).success = true ∧
      (performCurlRequest scripted (.initializePool [some 0]) (bytes "https://example") [] 0 []
        brokenThenWhole).response =
          bytes "HTTP/2 200\r\n\r\n\x7b\"result\"HTTP/2 200\r\n\r\n\x7b\x7d" ∧
      ¬ Uncorrupted scripted (.initializePool [some 0]) (bytes "https://example") [] 0 []
        brokenThenWhole := by
  refine ⟨rfl, rfl, ?_⟩
  intro uncorrupted
  obtain ⟨failed, t, first, clean⟩ := uncorrupted rfl
  have actual : FirstSuccess (requestOutcomes scripted (.initializePool [some 0])
      (bytes "https://example") [] 0 brokenThenWhole) (brokenThenWhole.take 1)
      ⟨.ok, [bytes "HTTP/2 200\r\n\r\n\x7b\x7d"]⟩ := ⟨_, rfl, by simp [brokenThenWhole], rfl⟩
  obtain ⟨rfl, rfl⟩ := first.unique actual
  revert clean
  decide +kernel

end DeribitTrading
