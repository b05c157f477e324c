import DeribitTrading.Library.StreamFormat

/-!
Files of one or more streams, one behind the other, and a decoder of single
streams that is given such a file: it stops behind the first of them.
-/
namespace Streaming
open ByteString

/-- One stream or more, and the output of all of them together. -/
inductive Format.IsFile (F : Format) : Bytes → Bytes → Prop
  | last {z d : Bytes} : F.IsStream z d → IsFile F z d
  | member {z d rest more : Bytes} :
      F.IsStream z d → IsFile F rest more → IsFile F (z ++ rest) (d ++ more)

/-- Streams are delimited, so two that one input starts with are one. -/
theorem Format.first_unique {F : Format} {z z' d d' rest rest' : Bytes}
    (first : F.IsStream z d) (other : F.IsStream z' d') (same : z ++ rest = z' ++ rest') :
    z = z' ∧ d = d' ∧ rest = rest' := by
  have inFront : z <+: z ++ rest := List.prefix_append z rest
  have inFront' : z' <+: z ++ rest := same ▸ List.prefix_append z' rest'
  have streams : z = z' := by
    rcases Nat.le_total z.length z'.length with shorter | shorter
    · exact (F.delimited other first (List.prefix_of_prefix_length_le inFront inFront' shorter))
    · exact (F.delimited first other
        (List.prefix_of_prefix_length_le inFront' inFront shorter)).symm
  subst streams
  exact ⟨rfl, F.decoded first other, List.append_cancel_left same⟩

theorem Format.IsFile.front {F : Format} {input out : Bytes} (file : F.IsFile input out) :
    ∃ z d rest more, input = z ++ rest ∧ out = d ++ more ∧ F.IsStream z d ∧
      (rest = [] ∧ more = [] ∨ F.IsFile rest more) := by
  cases file with
  | last whole =>
      exact ⟨input, out, [], [], (List.append_nil input).symm, (List.append_nil out).symm, whole,
        .inl ⟨rfl, rfl⟩⟩
  | @member z d rest more first later =>
      exact ⟨z, d, rest, more, rfl, rfl, first, .inr later⟩

theorem Format.not_isFile_nil {F : Format} (nonempty : ∀ d, ¬ F.IsStream [] d) (d : Bytes) :
    ¬ F.IsFile [] d := by
  intro file
  obtain ⟨z, d', rest, more, empty, _, first, _⟩ := file.front
  obtain ⟨rfl, _⟩ := List.append_eq_nil_iff.mp empty.symm
  exact nonempty d' first

theorem Format.isFile_append_iff {F : Format} {z d rest out : Bytes}
    (first : F.IsStream z d) :
    F.IsFile (z ++ rest) out ↔
      rest = [] ∧ out = d ∨ ∃ more, out = d ++ more ∧ F.IsFile rest more := by
  constructor
  · intro file
    obtain ⟨z', d', rest', more, same, rfl, first', later⟩ := file.front
    obtain ⟨rfl, rfl, rfl⟩ := F.first_unique first first' same
    rcases later with ⟨ended, nothing⟩ | later
    · exact .inl ⟨ended, by rw [nothing, List.append_nil]⟩
    · exact .inr ⟨more, rfl, later⟩
  · intro parts
    rcases parts with ⟨rfl, rfl⟩ | ⟨more, rfl, later⟩
    · exact (List.append_nil z).symm ▸ .last first
    · exact .member first later

/-- A file has one decoding, if no stream is empty. -/
theorem Format.IsFile.decoded {F : Format} (nonempty : ∀ d, ¬ F.IsStream [] d)
    {input out out' : Bytes} (file : F.IsFile input out) (other : F.IsFile input out') :
    out = out' := by
  induction file generalizing out' with
  | @last z d whole =>
      rw [← List.append_nil z, F.isFile_append_iff whole] at other
      rcases other with ⟨_, same⟩ | ⟨more, _, later⟩
      · exact same.symm
      · exact absurd later (F.not_isFile_nil nonempty more)
  | @member z d rest more first later ih =>
      rw [F.isFile_append_iff first] at other
      rcases other with ⟨rfl, _⟩ | ⟨more', rfl, later'⟩
      · exact absurd later (F.not_isFile_nil nonempty more)
      · exact congrArg (d ++ ·) (ih later')

/-- The state in which the draining loop leaves the codec. -/
def final (c : Codec) (s : c.State) : c.State :=
  if _more : (c.call s).status = .ok then final c (c.call s).next else (c.call s).next
termination_by c.work s
decreasing_by exact c.progress s _more

theorem final_of_not_ok {c : Codec} {s : c.State} (last : (c.call s).status ≠ .ok) :
    final c s = (c.call s).next := by
  rw [final, dif_neg last]

theorem Ongoing.final_eq {c : Codec} {start s : c.State} {out : Bytes}
    (ongoing : Ongoing c start out s) : final c start = final c s := by
  induction ongoing with
  | start => rfl
  | call _ more ih => rw [ih, final, dif_pos more]

/-- A decoder that leaves unread what stands behind the first stream of its input;
`unread` is what is left of the input in each state. -/
structure Codec.StopsBehind (c : Codec) (F : Format) (unread : c.State → Bytes)
    (input : Bytes) : Prop extends c.Decodes F input where
  rest : ∀ s out t, c.start input = some s → Ongoing c s out t →
    (c.call t).status = .streamEnd →
      ∃ z, input = z ++ unread (c.call t).next ∧ F.IsStream z (out ++ (c.call t).written)

namespace Codec.StopsBehind

variable {c : Codec} {F : Format} {unread : c.State → Bytes} {input : Bytes}

theorem of_drain (zlib : c.StopsBehind F unread input) {s : c.State}
    (started : c.start input = some s) {d : Bytes}
    (drained : Streaming.drain c s 0 [] = (.streamEnd, d)) :
    ∃ z, input = z ++ unread (final c s) ∧ F.IsStream z d := by
  obtain ⟨out, t, reached, last, drained'⟩ := drain_spec c s .start
  obtain ⟨ended, rfl⟩ := Prod.mk.inj (drained'.symm.trans drained)
  rw [reached.final_eq, final_of_not_ok last]
  exact zlib.rest s out t started reached ended

theorem drain (zlib : c.StopsBehind F unread input) {s : c.State}
    (started : c.start input = some s) {z rest d : Bytes} (split : input = z ++ rest)
    (first : F.IsStream z d) :
    Streaming.drain c s 0 [] = (.streamEnd, d) ∧ unread (final c s) = rest := by
  obtain ⟨out, t, reached, last, drained⟩ := drain_spec c s .start
  have inFront : z <+: input := split ▸ List.prefix_append z rest
  have ended := (zlib.goesOn s out t started reached ⟨z, d, inFront, first⟩).resolve_left last
  rw [ended] at drained
  obtain ⟨z', split', first'⟩ := zlib.of_drain started drained
  obtain ⟨rfl, rfl, behind⟩ := F.first_unique first first' (split.symm.trans split')
  exact ⟨drained, behind.symm⟩

end Codec.StopsBehind

end Streaming
