import DeribitTrading.Library.Streaming

/-!
Draining a codec, seen from the format that it reads or writes. How the output is
cut into calls is left open; what is asked of a codec is about the calls it has
made so far and about the output of all of them together. A format of tagged bytes,
whose codecs make a call for each byte, meets it on every input.
-/
namespace Streaming
open ByteString

/-- A format of self-delimiting streams: `IsStream z s` says that `z` is a stream of `s`. -/
structure Format where
  IsStream : Bytes → Bytes → Prop
  decoded : ∀ {z s t}, IsStream z s → IsStream z t → s = t
  delimited : ∀ {z z' s t}, IsStream z s → IsStream z' t → z' <+: z → z' = z

/-- The calls so far all went on, and left this output. -/
inductive Ongoing (c : Codec) (start : c.State) : Bytes → c.State → Prop
  | start : Ongoing c start [] start
  | call {out : Bytes} {s : c.State} :
      Ongoing c start out s → (c.call s).status = .ok →
      Ongoing c start (out ++ (c.call s).written) (c.call s).next

theorem Ongoing.eq_start {c : Codec} {start t : c.State} {out : Bytes}
    (last : (c.call start).status ≠ .ok) (ongoing : Ongoing c start out t) :
    out = [] ∧ t = start := by
  induction ongoing with
  | start => exact ⟨rfl, rfl⟩
  | call _ more ih =>
      obtain ⟨_, rfl⟩ := ih
      exact absurd more last

theorem appendNew_eq (outstring outbuffer : Bytes) :
    appendNew outstring (outstring.length + outbuffer.length) outbuffer =
      outstring ++ outbuffer := by
  unfold appendNew
  split
  · rw [Nat.add_sub_cancel_left, List.take_length]
  · rename_i none
    have empty : outbuffer = [] := List.eq_nil_of_length_eq_zero (by omega)
    rw [empty, List.append_nil]

/-- The loop returns the last status and the output of all calls, however it is cut. -/
theorem drain_spec (c : Codec) (start : c.State) {out : Bytes} {s : c.State}
    (ongoing : Ongoing c start out s) :
    ∃ out' t, Ongoing c start out' t ∧ (c.call t).status ≠ .ok ∧
      drain c s out.length out = ((c.call t).status, out' ++ (c.call t).written) := by
  induction left : c.work s using Nat.strong_induction_on generalizing s out with
  | _ n ih =>
      by_cases more : (c.call s).status = .ok
      · have next := ongoing.call more
        obtain ⟨out', t, reached, last, drained⟩ :=
          ih _ (left ▸ c.progress s more) next rfl
        refine ⟨out', t, reached, last, ?_⟩
        rw [drain_of_ok more, appendNew_eq, ← List.length_append]
        exact drained
      · refine ⟨out, s, ongoing, more, ?_⟩
        rw [drain, dif_neg more, appendNew_eq]

theorem availIn_of_short {s : Bytes} (short : s.length < 2 ^ 32) : availIn s = s := by
  rw [availIn, Nat.mod_eq_of_lt short, List.take_length]

/-- A codec that starts on this input, never fails, and ends with a stream of it. -/
structure Codec.Encodes (c : Codec) (F : Format) (input : Bytes) : Prop where
  starts : (c.start input).isSome
  goesOn : ∀ s out t, c.start input = some s → Ongoing c s out t →
    (c.call t).status = .ok ∨ (c.call t).status = .streamEnd
  stream : ∀ s out t, c.start input = some s → Ongoing c s out t →
    (c.call t).status = .streamEnd → F.IsStream (out ++ (c.call t).written) input

/-- A codec that ends only behind a stream of its output, and fails on no input
that has a whole stream in front. -/
structure Codec.Decodes (c : Codec) (F : Format) (input : Bytes) : Prop where
  starts : (c.start input).isSome
  goesOn : ∀ s out t, c.start input = some s → Ongoing c s out t →
    (∃ z d, z <+: input ∧ F.IsStream z d) →
    (c.call t).status = .ok ∨ (c.call t).status = .streamEnd
  stream : ∀ s out t, c.start input = some s → Ongoing c s out t →
    (c.call t).status = .streamEnd → ∃ z, z <+: input ∧ F.IsStream z (out ++ (c.call t).written)

theorem Codec.Encodes.drain {c : Codec} {F : Format} {input : Bytes}
    (encodes : c.Encodes F input) {s : c.State} (started : c.start input = some s) :
    ∃ z, Streaming.drain c s 0 [] = (.streamEnd, z) ∧ F.IsStream z input := by
  obtain ⟨out, t, reached, last, drained⟩ := drain_spec c s .start
  have ended := (encodes.goesOn s out t started reached).resolve_left last
  rw [ended] at drained
  exact ⟨_, drained, encodes.stream s out t started reached ended⟩

theorem Codec.Decodes.drain {c : Codec} {F : Format} {z d : Bytes} (decodes : c.Decodes F z)
    (whole : F.IsStream z d) {s : c.State} (started : c.start z = some s) :
    Streaming.drain c s 0 [] = (.streamEnd, d) := by
  obtain ⟨out, t, reached, last, drained⟩ := drain_spec c s .start
  have ended := (decodes.goesOn s out t started reached
    ⟨z, d, List.prefix_refl z, whole⟩).resolve_left last
  obtain ⟨z', inFront, stream⟩ := decodes.stream s out t started reached ended
  cases F.delimited whole stream inFront
  rw [ended, F.decoded stream whole] at drained
  exact drained

theorem Codec.Decodes.drain_truncated {c : Codec} {F : Format} {z p d : Bytes}
    (decodes : c.Decodes F p) (whole : F.IsStream z d) (cut : p <+: z) (proper : p ≠ z)
    {s : c.State} (started : c.start p = some s) :
    (Streaming.drain c s 0 []).1 ≠ .streamEnd := by
  obtain ⟨out, t, reached, _, drained⟩ := drain_spec c s .start
  rw [show Streaming.drain c s 0 [] = _ from drained]
  intro ended
  obtain ⟨z', inFront, stream⟩ := decodes.stream s out t started reached ended
  have same := F.delimited whole stream (inFront.trans cut)
  exact proper (List.IsPrefix.eq_of_length_le cut (same ▸ inFront.length_le))

/-! ## A format that meets all of this -/

def tagged (s : Bytes) : Bytes := s.flatMap fun b => [1, b]

theorem tagged_cons (b : UInt8) (s : Bytes) : tagged (b :: s) = 1 :: b :: tagged s := rfl

theorem eq_of_tagged_front {s t : Bytes} (inFront : tagged s ++ [0] <+: tagged t ++ [0]) :
    s = t := by
  induction s generalizing t with
  | nil =>
      cases t with
      | nil => rfl
      | cons c t =>
          have tags : (0 : UInt8) = 1 := (List.cons_prefix_cons.mp inFront).1
          cases tags
  | cons b s ih =>
      cases t with
      | nil =>
          have tags : (1 : UInt8) = 0 := (List.cons_prefix_cons.mp inFront).1
          cases tags
      | cons c t =>
          obtain ⟨_, behind⟩ := List.cons_prefix_cons.mp inFront
          obtain ⟨rfl, rest⟩ := List.cons_prefix_cons.mp behind
          rw [ih rest]

/-- Tagged bytes, and a zero behind the last. -/
def taggedFormat : Format where
  IsStream := fun z s => z = tagged s ++ [0]
  decoded := by
    rintro z s t rfl same
    exact eq_of_tagged_front (same ▸ List.prefix_refl _)
  delimited := by
    rintro z z' s t rfl rfl inFront
    rw [eq_of_tagged_front inFront]

/-- One byte a call. -/
def taggingDeflate : Codec where
  State := Bytes
  start := some
  call := fun input =>
    match input with
    | [] => ⟨.streamEnd, [0], []⟩
    | b :: rest => ⟨.ok, [1, b], rest⟩
  work := List.length
  progress := fun input more => by
    cases input with
    | nil => cases more
    | cons b rest => exact Nat.lt_succ_self rest.length

theorem taggingDeflate_written {input t : taggingDeflate.State} {out : Bytes}
    (ongoing : Ongoing taggingDeflate input out t) : tagged input = out ++ tagged t := by
  induction ongoing with
  | start => rfl
  | @call out t _ more ih =>
      cases t with
      | nil => cases more
      | cons b rest =>
          rw [ih, tagged_cons, List.append_assoc]
          rfl

theorem taggingDeflate_encodes (input : Bytes) : taggingDeflate.Encodes taggedFormat input := by
  refine ⟨rfl, ?_, ?_⟩
  · intro s out t _ _
    cases t with
    | nil => exact .inr rfl
    | cons b rest => exact .inl rfl
  · intro s out t started ongoing ended
    cases started
    cases t with
    | nil =>
        show out ++ [0] = tagged input ++ [0]
        rw [taggingDeflate_written ongoing]
        exact congrArg (· ++ [0]) (List.append_nil out).symm
    | cons b rest => cases ended

/-- One byte a call, `Z_BUF_ERROR` where a stream is cut off, else `Z_DATA_ERROR`. -/
def untag : Bytes → Answer Bytes
  | [] => ⟨.failed (-5), [], []⟩
  | [tag] => if tag = 0 then ⟨.streamEnd, [], []⟩ else ⟨.failed (-5), [], [tag]⟩
  | tag :: b :: rest =>
      if tag = 0 then ⟨.streamEnd, [], b :: rest⟩
      else if tag = 1 then ⟨.ok, [b], rest⟩
      else ⟨.failed (-3), [], b :: rest⟩

theorem untag_cases (input : Bytes) :
    (∃ rest, input = 0 :: rest ∧ untag input = ⟨.streamEnd, [], rest⟩) ∨
      (∃ b rest, input = 1 :: b :: rest ∧ untag input = ⟨.ok, [b], rest⟩) ∨
      ∃ code, (untag input).status = .failed code := by
  unfold untag
  split
  · exact .inr (.inr ⟨-5, rfl⟩)
  · rename_i tag
    by_cases last : tag = 0
    · rw [if_pos last, last]
      exact .inl ⟨[], rfl, rfl⟩
    · rw [if_neg last]
      exact .inr (.inr ⟨-5, rfl⟩)
  · rename_i tag b rest
    by_cases last : tag = 0
    · rw [if_pos last, last]
      exact .inl ⟨b :: rest, rfl, rfl⟩
    · rw [if_neg last]
      by_cases byte : tag = 1
      · rw [if_pos byte, byte]
        exact .inr (.inl ⟨b, rest, rfl, rfl⟩)
      · rw [if_neg byte]
        exact .inr (.inr ⟨-3, rfl⟩)

abbrev taggedInflate : Codec where
  State := Bytes
  start := some
  call := untag
  work := List.length
  progress := fun input more => by
    obtain ⟨_, _, told⟩ | ⟨b, rest, rfl, told⟩ | ⟨_, told⟩ := untag_cases input
    · rw [told] at more
      cases more
    · rw [told]
      simp only [List.length_cons]
      omega
    · cases told.symm.trans more

theorem tagged_behind {out d t : Bytes} (inFront : tagged d ++ [0] <+: tagged out ++ t) :
    ∃ d', tagged d' ++ [0] <+: t := by
  induction out generalizing d with
  | nil => exact ⟨d, inFront⟩
  | cons b out ih =>
      cases d with
      | nil =>
          have tags : (0 : UInt8) = 1 := (List.cons_prefix_cons.mp inFront).1
          cases tags
      | cons c d =>
          obtain ⟨_, behind⟩ := List.cons_prefix_cons.mp inFront
          exact ih (List.cons_prefix_cons.mp behind).2

theorem taggedInflate_read {input t : taggedInflate.State} {out : Bytes}
    (ongoing : Ongoing taggedInflate input out t) : input = tagged out ++ t := by
  induction ongoing with
  | start => rfl
  | @call out t _ more ih =>
      change (untag t).status = .ok at more
      show input = tagged (out ++ (untag t).written) ++ (untag t).next
      obtain ⟨_, _, told⟩ | ⟨b, rest, rfl, told⟩ | ⟨_, told⟩ := untag_cases t
      · rw [told] at more
        cases more
      · rw [told, ih, tagged, tagged, List.flatMap_append, List.append_assoc]
        rfl
      · cases told.symm.trans more

theorem taggedInflate_decodes (input : Bytes) : taggedInflate.Decodes taggedFormat input := by
  refine ⟨rfl, ?_, ?_⟩
  · rintro s out t started ongoing ⟨z, d, inFront, rfl⟩
    cases started
    rw [taggedInflate_read ongoing] at inFront
    obtain ⟨d', behind⟩ := tagged_behind inFront
    show (untag t).status = .ok ∨ (untag t).status = .streamEnd
    obtain ⟨more, rfl⟩ := behind
    cases d' with
    | nil =>
        cases more <;> exact .inr rfl
    | cons b d' => exact .inl rfl
  · intro s out t started ongoing ended
    cases started
    change (untag t).status = .streamEnd at ended
    obtain ⟨rest, rfl, told⟩ | ⟨_, _, _, told⟩ | ⟨_, told⟩ := untag_cases t
    · refine ⟨tagged out ++ [0], ⟨rest, ?_⟩, ?_⟩
      · rw [taggedInflate_read ongoing, List.append_assoc]
        rfl
      · show tagged out ++ [0] = tagged (out ++ (untag (0 :: rest)).written) ++ [0]
        rw [told, List.append_nil]
    · rw [told] at ended
      cases ended
    · cases told.symm.trans ended

end Streaming
