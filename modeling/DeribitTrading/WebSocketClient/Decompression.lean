import DeribitTrading.Library.StreamFormat
import DeribitTrading.Server.Request

/-!
The two ends of the wire: `compressString` of the server and `decompressString`
of the client, each a loop around zlib. What zlib does within the loops is known
by the format of its streams only.
-/
namespace DeribitTrading
open ByteString Streaming

/-- `decompressString`, given zlib after `inflateInit`. -/
def decompressString (inflate : Codec) (str : Bytes) : Outcome Bytes :=
  match inflate.start (availIn str) with
  | none => .error .runtimeError
  | some zs =>
      match drain inflate zs 0 [] with
      | (.streamEnd, outstring) => .ok outstring
      | _ => .error .runtimeError

theorem compressString_spec {L : Libraries} {F : Format} {s : Bytes} (short : s.length < 2 ^ 32)
    (zlib : L.deflate.Encodes F s) :
    ∃ z, compressString L s = .ok z ∧ F.IsStream z s := by
  obtain ⟨zs, started⟩ := Option.isSome_iff_exists.mp zlib.starts
  obtain ⟨z, drained, stream⟩ := zlib.drain started
  refine ⟨z, ?_, stream⟩
  simp only [compressString, availIn_of_short short, started, drained]

theorem decompressString_spec {inflate : Codec} {F : Format} {z s : Bytes}
    (short : z.length < 2 ^ 32) (zlib : inflate.Decodes F z) (whole : F.IsStream z s) :
    decompressString inflate z = .ok s := by
  obtain ⟨zs, started⟩ := Option.isSome_iff_exists.mp zlib.starts
  simp only [decompressString, availIn_of_short short, started, zlib.drain whole started]

theorem decompressString_truncated {inflate : Codec} {F : Format} {z p s : Bytes}
    (short : p.length < 2 ^ 32) (zlib : inflate.Decodes F p) (whole : F.IsStream z s)
    (cut : p <+: z) (proper : p ≠ z) :
    decompressString inflate p = .error .runtimeError := by
  obtain ⟨zs, started⟩ := Option.isSome_iff_exists.mp zlib.starts
  have unfinished := zlib.drain_truncated whole cut proper started
  simp only [decompressString, availIn_of_short short, started]
  split
  · rename_i out drained
    exact absurd (congrArg Prod.fst drained) unfinished
  · rfl

/-- Whatever way zlib cuts its output, what the server compresses the client
gets back, and nothing that is cut short. -/
theorem wire_round_trip (L : Libraries) (inflate : Codec) (F : Format) (s : Bytes)
    (short : s.length < 2 ^ 32) (deflating : L.deflate.Encodes F s)
    (inflating : ∀ input, inflate.Decodes F input) :
    ∃ z, compressString L s = .ok z ∧
      (z.length < 2 ^ 32 →
        decompressString inflate z = .ok s ∧
          ∀ p, p <+: z → p ≠ z → decompressString inflate p = .error .runtimeError) := by
  obtain ⟨z, compressed, stream⟩ := compressString_spec short deflating
  refine ⟨z, compressed, fun shortStream => ⟨?_, ?_⟩⟩
  · exact decompressString_spec shortStream (inflating z) stream
  · intro p cut proper
    have shorter : p.length < 2 ^ 32 := Nat.lt_of_le_of_lt cut.length_le shortStream
    exact decompressString_truncated shorter (inflating p) stream cut proper

def taggingServer : Libraries := { sampleServer with deflate := taggingDeflate }

/-- A message that is cut at every byte, on the way there and on the way back. -/
theorem sample_round_trip :
    ∃ z, compressString taggingServer (bytes "BTC-PERPETUAL") = .ok z ∧ z.length = 27 ∧
      decompressString taggedInflate z = .ok (bytes "BTC-PERPETUAL") ∧
      ∀ p, p <+: z → p ≠ z → decompressString taggedInflate p = .error .runtimeError := by
  obtain ⟨z, compressed, back⟩ := wire_round_trip taggingServer taggedInflate taggedFormat
    (bytes "BTC-PERPETUAL") (by decide +kernel) (taggingDeflate_encodes _) taggedInflate_decodes
  obtain ⟨z', compressed', known⟩ := compressString_spec (by decide +kernel)
    (show taggingServer.deflate.Encodes taggedFormat (bytes "BTC-PERPETUAL") from
      taggingDeflate_encodes _)
  cases compressed.symm.trans compressed'
  have length : z.length = 27 := by
    rw [known]
    decide +kernel
  obtain ⟨whole, cut⟩ := back (by omega)
  exact ⟨z, compressed, length, whole, cut⟩

end DeribitTrading
