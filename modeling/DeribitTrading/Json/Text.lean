import DeribitTrading.Json.Values
import DeribitTrading.Libraries

/-!
What is read of the text that nlohmann::json writes for a value. The text of an
integer does not show the constructor it came through, so the parser chooses
again: signed behind a minus sign, unsigned otherwise.
-/
namespace DeribitTrading
open ByteString Numbers Nlohmann

mutual
def Nlohmann.Json.reread : Json → Json
  | .numberInteger n => if 0 ≤ n then .numberUnsigned n.toUInt64 else .numberInteger n
  | .array es => .array (rereadElements es)
  | .object ms => .object (rereadMembers ms)
  | .null => .null
  | .boolean b => .boolean b
  | .numberUnsigned n => .numberUnsigned n
  | .numberFloat d => .numberFloat d
  | .string s => .string s

def rereadElements : List Json → List Json
  | [] => []
  | e :: es => e.reread :: rereadElements es

def rereadMembers : Nlohmann.Members → Nlohmann.Members
  | [] => []
  | (name, value) :: ms => (name, value.reread) :: rereadMembers ms
end

/-- The parser reads back what is written of this value. -/
def Libraries.Rereads (L : Libraries) (j : Json) : Prop :=
  L.nlohmannParse (L.dump j) = some j.reread

theorem rereadElements_eq_map (es : List Json) : rereadElements es = es.map Json.reread := by
  induction es with
  | nil => rfl
  | cons e es ih => rw [rereadElements, ih, List.map_cons]

theorem lookup_reread (ms : Nlohmann.Members) (name : Bytes) :
    Members.lookup (rereadMembers ms) name = (Members.lookup ms name).map Json.reread := by
  induction ms with
  | nil => rfl
  | cons m ms ih =>
      obtain ⟨key, value⟩ := m
      rw [nlohmannLookup_eq, nlohmannLookup_eq] at ih ⊢
      rw [rereadMembers, List.lookup_cons, List.lookup_cons, ih]
      split <;> rfl

theorem reread_string (s : Bytes) : (Json.string s).reread = .string s := by
  rw [Json.reread]

theorem reread_object (ms : Nlohmann.Members) :
    (Json.object ms).reread = .object (rereadMembers ms) := by
  rw [Json.reread]

theorem reread_array (es : List Json) : (Json.array es).reread = .array (es.map Json.reread) := by
  rw [Json.reread, rereadElements_eq_map]

/-- Either way the same number is read. -/
theorem getInt64_reread (j : Json) : j.reread.getInt64 = j.getInt64 := by
  cases j with
  | numberInteger n =>
      rw [Json.reread]
      split
      · simp [Json.getInt64]
      · rfl
  | array es | object ms => simp [Json.reread, Json.getInt64]
  | _ => rw [Json.reread]

/-- A string is read as it was written, and nothing else is read as one. -/
theorem getString_reread (j : Json) : j.reread.getString = j.getString := by
  cases j with
  | numberInteger n =>
      rw [Json.reread]
      split <;> rfl
  | array es | object ms => simp [Json.reread, Json.getString]
  | _ => rw [Json.reread]

theorem contains_reread (j : Json) (name : Bytes) :
    j.reread.contains name = j.contains name := by
  cases j with
  | object ms => simp [reread_object, Json.contains, lookup_reread]
  | numberInteger n =>
      rw [Json.reread]
      split <;> rfl
  | array es => simp [reread_array, Json.contains]
  | _ => rw [Json.reread]

end DeribitTrading
