import DeribitTrading.Client.Responses
import DeribitTrading.Library.StreamFile

/-!
`decompressGzip` on input of more than one gzip member. zlib stops behind the
first member, the loop ends with it, and nobody looks at `avail_in` afterwards.
-/
namespace DeribitTrading
open ByteString Streaming

/-- The `avail_in` bytes at `next_in` when `decompressGzip` calls `inflateEnd`. -/
def unreadInput (L : Libraries) (unread : L.gunzip.State → Bytes) (str : Bytes) : Bytes :=
  match L.gunzip.start (availIn str) with
  | none => str
  | some zs => unread (final L.gunzip zs)

/-- Either an exception, or the complete decoding of all of the input. -/
def DecodesWholly (L : Libraries) (gzip : Format) (unread : L.gunzip.State → Bytes)
    (str : Bytes) : Prop :=
  decompressGzip L str = .error .runtimeError ∨
    ∃ outstring, decompressGzip L str = .ok outstring ∧ gzip.IsFile str outstring ∧
      unreadInput L unread str = []

def AtMostOneMember (gzip : Format) (str : Bytes) : Prop :=
  ∀ z rest d, str = z ++ rest → gzip.IsStream z d → rest = []

section Decoding
variable {L : Libraries} {gzip : Format} {unread : L.gunzip.State → Bytes} {str : Bytes}

/-- A member in front is all that is read, and its decoding all that is returned. -/
theorem decompressGzip_first_member (short : str.length < 2 ^ 32)
    (zlib : L.gunzip.StopsBehind gzip unread str) {z rest d : Bytes} (split : str = z ++ rest)
    (first : gzip.IsStream z d) :
    decompressGzip L str = .ok d ∧ unreadInput L unread str = rest := by
  obtain ⟨zs, started⟩ := Option.isSome_iff_exists.mp zlib.starts
  obtain ⟨drained, left⟩ := zlib.drain started split first
  constructor
  · simp only [decompressGzip, availIn_of_short short, started, drained]
  · simp only [unreadInput, availIn_of_short short, started, left]

/-- What is returned is the decoding of one member, with which the input starts. -/
theorem decompressGzip_eq_ok (short : str.length < 2 ^ 32)
    (zlib : L.gunzip.StopsBehind gzip unread str) {outstring : Bytes}
    (returned : decompressGzip L str = .ok outstring) :
    ∃ z, str = z ++ unreadInput L unread str ∧ gzip.IsStream z outstring := by
  obtain ⟨zs, started⟩ := Option.isSome_iff_exists.mp zlib.starts
  simp only [decompressGzip, availIn_of_short short, started] at returned
  simp only [unreadInput, availIn_of_short short, started]
  split at returned
  · rename_i out drained
    cases returned
    exact zlib.of_drain started drained
  · cases returned

end Decoding

/-- With nothing behind the first member, and only then, nothing is dropped. -/
theorem decompressGzip_whole_iff (L : Libraries) (gzip : Format)
    (unread : L.gunzip.State → Bytes) (str : Bytes) (short : str.length < 2 ^ 32)
    (zlib : L.gunzip.StopsBehind gzip unread str) :
    DecodesWholly L gzip unread str ↔ AtMostOneMember gzip str := by
  constructor
  · intro whole z rest d split first
    obtain ⟨returned, left⟩ := decompressGzip_first_member short zlib split first
    rcases whole with thrown | ⟨outstring, _, _, read⟩
    · rw [returned] at thrown
      cases thrown
    · exact left.symm.trans read
  · intro single
    rcases result : decompressGzip L str with failure | outstring
    · exact .inl (decompressGzip_eq_error result ▸ result)
    · obtain ⟨z, split, first⟩ := decompressGzip_eq_ok short zlib result
      have read := single z _ outstring split first
      rw [read, List.append_nil] at split
      exact .inr ⟨outstring, result, .last (split ▸ first), read⟩

def sampleReply : Bytes := bytes "\x7b\"result\":[]\x7d"

def sampleMember : Bytes :=
  [31, 139, 8, 0, 0, 0, 0, 0, 2, 3, 171, 86, 42, 74, 45, 46, 205, 41, 81, 178, 138, 142, 173,
    5, 0, 14, 102, 39, 163, 13, 0, 0, 0]

def sampleGzip : Format where
  IsStream := fun z d => z = sampleMember ∧ d = sampleReply
  decoded := fun first second => first.2.trans second.2.symm
  delimited := fun whole other _ => other.1.trans whole.1.symm

/-- The state is what is left to read; anything but the member is `Z_DATA_ERROR`. -/
def sampleGunzip : Codec where
  State := Bytes
  start := some
  call := fun input =>
    if sampleMember.isPrefixOf input then
      ⟨.streamEnd, sampleReply, input.drop sampleMember.length⟩
    else ⟨.failed (-3), [], input⟩
  work := fun _ => 0
  progress := fun input more => by
    split at more
    · cases more
    · cases more

def sampleGunzipping : Libraries where
  rapidParse := fun _ => none
  nlohmannParse := fun _ => none
  dump := fun _ => []
  gunzip := sampleGunzip
  deflate := .idle

def sampleUnread : sampleGunzipping.gunzip.State → Bytes := fun input => input

theorem sampleGunzip_call (rest : Bytes) :
    sampleGunzip.call (sampleMember ++ rest) = ⟨.streamEnd, sampleReply, rest⟩ := by
  have known : sampleMember.isPrefixOf (sampleMember ++ rest) :=
    List.isPrefixOf_iff_prefix.mpr (List.prefix_append sampleMember rest)
  simp only [sampleGunzip, known, if_true, List.drop_left]

theorem sampleGunzip_call_of_not {input : Bytes} (unknown : ¬ sampleMember <+: input) :
    sampleGunzip.call input = ⟨.failed (-3), [], input⟩ := by
  rw [← List.isPrefixOf_iff_prefix] at unknown
  simp only [sampleGunzip, if_neg unknown]

theorem sampleGunzip_stopsBehind (input : Bytes) :
    sampleGunzipping.gunzip.StopsBehind sampleGzip sampleUnread input := by
  have last : (sampleGunzip.call input).status ≠ .ok := by
    by_cases known : sampleMember <+: input
    · obtain ⟨rest, rfl⟩ := known
      simp [sampleGunzip_call]
    · simp [sampleGunzip_call_of_not known]
  have behind : ∀ s out t, some input = some s → Ongoing sampleGunzip s out t →
      (sampleGunzip.call t).status = .streamEnd →
        ∃ z, input = z ++ sampleUnread (sampleGunzip.call t).next ∧
          sampleGzip.IsStream z (out ++ (sampleGunzip.call t).written) := by
    intro s out t started reached ended
    cases started
    obtain ⟨rfl, rfl⟩ := reached.eq_start last
    by_cases known : sampleMember <+: t
    · obtain ⟨rest, rfl⟩ := known
      rw [sampleGunzip_call]
      exact ⟨sampleMember, rfl, rfl, rfl⟩
    · simp [sampleGunzip_call_of_not known] at ended
  refine ⟨⟨rfl, ?_, ?_⟩, behind⟩
  · intro s out t started reached front
    cases started
    obtain ⟨rfl, rfl⟩ := reached.eq_start last
    obtain ⟨z, d, ⟨rest, rfl⟩, rfl, _⟩ := front
    exact .inr (congrArg Answer.status (sampleGunzip_call rest))
  · intro s out t started reached ended
    obtain ⟨z, split, first⟩ := behind s out t started reached ended
    exact ⟨z, ⟨_, split.symm⟩, first⟩

/-- The first of two replies comes back as if it were all there is. -/
theorem second_member_dropped :
    (sampleMember ++ sampleMember).length < 2 ^ 32 ∧
      sampleGunzipping.gunzip.StopsBehind sampleGzip sampleUnread
        (sampleMember ++ sampleMember) ∧
      sampleGzip.IsFile (sampleMember ++ sampleMember) (sampleReply ++ sampleReply) ∧
      decompressGzip sampleGunzipping (sampleMember ++ sampleMember) = .ok sampleReply ∧
      ¬ sampleGzip.IsFile (sampleMember ++ sampleMember) sampleReply ∧
      ¬ DecodesWholly sampleGunzipping sampleGzip sampleUnread
        (sampleMember ++ sampleMember) := by
  have whole : sampleGzip.IsFile (sampleMember ++ sampleMember) (sampleReply ++ sampleReply) :=
    .member ⟨rfl, rfl⟩ (.last ⟨rfl, rfl⟩)
  have nonempty : ∀ d, ¬ sampleGzip.IsStream [] d := by
    intro d stream
    cases stream.1
  have short : (sampleMember ++ sampleMember).length < 2 ^ 32 := by decide
  have zlib := sampleGunzip_stopsBehind (sampleMember ++ sampleMember)
  obtain ⟨returned, _⟩ := decompressGzip_first_member short zlib rfl ⟨rfl, rfl⟩
  have incomplete : ¬ sampleGzip.IsFile (sampleMember ++ sampleMember) sampleReply := by
    intro file
    have same := file.decoded nonempty whole
    revert same
    decide
  refine ⟨short, zlib, whole, returned, incomplete, ?_⟩
  intro wholly
  rcases wholly with thrown | ⟨outstring, result, file, _⟩
  · cases returned.symm.trans thrown
  · cases returned.symm.trans result
    exact incomplete file

theorem sampleMember_decodes_wholly :
    DecodesWholly sampleGunzipping sampleGzip sampleUnread sampleMember := by
  refine (decompressGzip_whole_iff sampleGunzipping sampleGzip sampleUnread sampleMember
    (by decide) (sampleGunzip_stopsBehind _)).mpr ?_
  intro z rest d split stream
  obtain ⟨rfl, _⟩ := stream
  exact List.self_eq_append_right.mp split

end DeribitTrading
