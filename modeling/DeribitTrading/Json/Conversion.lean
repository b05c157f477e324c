import DeribitTrading.Libraries

/-!
The two JSON functions of `utils.cpp`. Names and strings pass through
`GetString()` into a `std::string`, so they end at their first NUL byte.
-/
namespace DeribitTrading
open ByteString Rapidjson Nlohmann

/-- `IsInt`, `IsUint`, `IsInt64`, `IsUint64`, tested in this order. -/
def convertNumber (n : WideInt) : Json :=
  if -2 ^ 31 ≤ n.val ∧ n.val < 2 ^ 31 then .numberInteger (Int64.ofInt n.val)
  else if 0 ≤ n.val ∧ n.val < 2 ^ 32 then .numberUnsigned (UInt64.ofNat n.val.toNat)
  else if n.val < 2 ^ 63 then .numberInteger (Int64.ofInt n.val)
  else .numberUnsigned (UInt64.ofNat n.val.toNat)

mutual
def rapidjsonToNlohmannJson : Value → Json
  | .object ms => .object (convertMembers ms [])
  | .array es => .array (convertElements es)
  | .string s => .string (cString s)
  | .bool b => .boolean b
  | .number n => convertNumber n
  | .double d => .numberFloat d
  | .null => .null

/-- `result[name] = value` for the members in document order. -/
def convertMembers : List (Bytes × Value) → Nlohmann.Members → Nlohmann.Members
  | [], result => result
  | (name, value) :: ms, result =>
      convertMembers ms
        (Members.assign (cString name) (rapidjsonToNlohmannJson value) result)

def convertElements : List Value → List Json
  | [] => []
  | e :: es => rapidjsonToNlohmannJson e :: convertElements es
end

/-- Of the members that a conversion files under one name, the last. -/
def lastMember (ms : Rapidjson.Members) (name : Bytes) : Option Value :=
  (ms.reverse.find? fun m => cString m.1 == name).map Prod.snd

theorem lookup_convertMembers (ms : Rapidjson.Members) (result : Nlohmann.Members)
    (name : Bytes) :
    Nlohmann.Members.lookup (convertMembers ms result) name =
      ((lastMember ms name).map rapidjsonToNlohmannJson).or
        (Nlohmann.Members.lookup result name) := by
  induction ms generalizing result with
  | nil => simp [convertMembers, lastMember]
  | cons m ms ih =>
      obtain ⟨key, value⟩ := m
      rw [convertMembers, ih]
      simp only [lastMember, List.reverse_cons, List.find?_append]
      cases later : ms.reverse.find? fun m => cString m.1 == name with
      | some found => simp
      | none =>
          by_cases same : cString key = name
          · simp [same, lookup_assign_self]
          · simp [same, lookup_assign_ne (Ne.symm same)]

theorem lookup_converted (ms : Rapidjson.Members) (name : Bytes) :
    Nlohmann.Members.lookup (convertMembers ms []) name =
      (lastMember ms name).map rapidjsonToNlohmannJson := by
  rw [lookup_convertMembers]
  exact Option.or_none

theorem converted_eq_string_iff (v : Value) (s : Bytes) :
    rapidjsonToNlohmannJson v = .string s ↔ ∃ raw, v = .string raw ∧ cString raw = s := by
  cases v with
  | number n =>
      simp only [rapidjsonToNlohmannJson, convertNumber]
      split_ifs <;> simp
  | _ => simp [rapidjsonToNlohmannJson]

/-- The parser sees the text up to its first NUL; after a failed parse the
document is Null. -/
def parseJSONResponse (L : Libraries) (response : Bytes) : Bool × Value :=
  match L.rapidParse (cString response) with
  | some document => (true, document)
  | none => (false, .null)

end DeribitTrading
