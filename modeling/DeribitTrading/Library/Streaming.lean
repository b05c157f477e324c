import Mathlib.Algebra.GroupWithZero.Nat
import DeribitTrading.Library.ByteString

/-!
A streaming codec that is driven through one fixed output buffer. `call` is one
call with the buffer empty: its status and the bytes it left in the buffer. A
codec answers `ok` only when it made progress, and the work left bounds how
often it can do so; that is what makes the draining loop total.
-/
namespace Streaming
open ByteString

/-- `Z_OK`, `Z_STREAM_END` and every other answer. -/
inductive Status where
  | ok
  | streamEnd
  | failed (code : Int)
  deriving DecidableEq, Repr

structure Answer (σ : Type) where
  status : Status
  written : Bytes
  next : σ

structure Codec where
  State : Type
  start : Bytes → Option State
  call : State → Answer State
  work : State → Nat
  progress : ∀ s, (call s).status = .ok → work (call s).next < work s

/-- The codec that cannot be initialised. -/
def Codec.idle : Codec where
  State := Unit
  start := fun _ => none
  call := fun _ => ⟨.streamEnd, [], ()⟩
  work := fun _ => 0
  progress := fun _ more => by cases more

/-- The part of the buffer that the running total says is new. -/
def appendNew (outstring : Bytes) (totalOut : Nat) (outbuffer : Bytes) : Bytes :=
  if outstring.length < totalOut then
    outstring ++ outbuffer.take (totalOut - outstring.length)
  else outstring

/-- `do { call; append } while (ret == Z_OK)`: the last status and all output. -/
def drain (c : Codec) (s : c.State) (totalOut : Nat) (outstring : Bytes) : Status × Bytes :=
  let answer := c.call s
  let totalOut' := totalOut + answer.written.length
  let outstring' := appendNew outstring totalOut' answer.written
  if _more : answer.status = .ok then drain c answer.next totalOut' outstring'
  else (answer.status, outstring')
termination_by c.work s
decreasing_by exact c.progress s _more

/-- A codec that always starts, and whose calls either go on or end the stream. -/
structure Codec.Reliable (c : Codec) : Prop where
  starts : ∀ input, (c.start input).isSome
  ends : ∀ s, (c.call s).status = .ok ∨ (c.call s).status = .streamEnd

theorem drain_of_ok {c : Codec} {s : c.State} (more : (c.call s).status = .ok) (totalOut : Nat)
    (outstring : Bytes) :
    drain c s totalOut outstring =
      drain c (c.call s).next (totalOut + (c.call s).written.length)
        (appendNew outstring (totalOut + (c.call s).written.length) (c.call s).written) := by
  rw [drain, dif_pos more]

theorem drain_eq_of_not_ok {c : Codec} {s : c.State} (last : (c.call s).status ≠ .ok)
    (totalOut : Nat) (outstring : Bytes) :
    drain c s totalOut outstring = ((c.call s).status,
      appendNew outstring (totalOut + (c.call s).written.length) (c.call s).written) := by
  rw [drain, dif_neg last]

theorem drain_of_not_ok {c : Codec} {s : c.State} (last : (c.call s).status ≠ .ok)
    (totalOut : Nat) (outstring : Bytes) :
    (drain c s totalOut outstring).1 = (c.call s).status := by
  rw [drain_eq_of_not_ok last]

theorem Codec.Reliable.drain {c : Codec} (reliable : c.Reliable) (s : c.State) (totalOut : Nat)
    (outstring : Bytes) : (Streaming.drain c s totalOut outstring).1 = .streamEnd := by
  induction left : c.work s using Nat.strong_induction_on generalizing s totalOut outstring with
  | _ n ih =>
      rcases reliable.ends s with more | ended
      · rw [drain_of_ok more]
        exact ih _ (left ▸ c.progress s more) _ _ _ rfl
      · rw [drain_of_not_ok (by simp [ended]), ended]

/-- A codec that answers any input in one call, by this table. -/
def Codec.ofTable (output : Bytes → Bytes) : Codec where
  State := Bytes
  start := some
  call := fun input => ⟨.streamEnd, output input, input⟩
  work := fun _ => 0
  progress := fun _ more => by cases more

theorem Codec.drain_ofTable (output : Bytes → Bytes) (input : Bytes) :
    drain (Codec.ofTable output) input 0 [] = (.streamEnd, output input) := by
  have last : ((Codec.ofTable output).call input).status ≠ .ok := by
    intro more
    cases more
  have kept : appendNew [] (0 + (output input).length) (output input) = output input := by
    unfold appendNew
    cases output input <;> simp
  exact (drain_eq_of_not_ok last 0 []).trans (congrArg (Prod.mk Status.streamEnd) kept)

theorem Codec.ofTable_reliable (output : Bytes → Bytes) : (Codec.ofTable output).Reliable where
  starts := fun _ => rfl
  ends := fun _ => .inr rfl

/-- `uInt avail_in = str.size()`: what the codec gets to see of its input. -/
def availIn (s : Bytes) : Bytes := s.take (s.length % 2 ^ 32)

end Streaming
