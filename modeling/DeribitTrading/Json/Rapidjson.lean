import DeribitTrading.Faults
import DeribitTrading.Library.Numbers

/-!
The part of rapidjson that the client uses. An object keeps its members in
document order, repeated names included; accessors outside their precondition
fail the library's assertion.
-/
namespace DeribitTrading.Rapidjson
open ByteString Numbers

/-- The integers rapidjson stores exactly; larger ones become doubles. -/
structure WideInt where
  val : Int
  lower : -2 ^ 63 ≤ val
  upper : val < 2 ^ 64
  deriving DecidableEq, Repr

inductive Value where
  | null
  | bool (b : Bool)
  | number (n : WideInt)
  | double (d : Double)
  | string (s : Bytes)
  | array (elements : List Value)
  | object (members : List (Bytes × Value))

abbrev Members := List (Bytes × Value)

/-- `FindMember`: the first member with exactly this name. -/
def Members.lookup (ms : Members) (name : Bytes) : Option Value :=
  (ms.find? fun m => m.1 == name).map Prod.snd

def Value.isObject : Value → Bool
  | .object _ => true
  | _ => false

def Value.hasMember (v : Value) (name : Bytes) : Outcome Bool :=
  match v with
  | .object ms => .ok (Members.lookup ms name).isSome
  | _ => .error .assertion

/-- `operator[]` with a member name. -/
def Value.member (v : Value) (name : Bytes) : Outcome Value :=
  match v with
  | .object ms =>
      match Members.lookup ms name with
      | some found => .ok found
      | none => .error .assertion
  | _ => .error .assertion

/-- `GetString` read as a C string, the way every caller here reads it. -/
def Value.getString : Value → Outcome Bytes
  | .string s => .ok (cString s)
  | _ => .error .assertion

@[simp] theorem isObject_object (ms : Members) : (Value.object ms).isObject = true := rfl

@[simp] theorem hasMember_object (ms : Members) (name : Bytes) :
    (Value.object ms).hasMember name = .ok (Members.lookup ms name).isSome := rfl

theorem member_object_of_lookup {ms : Members} {name : Bytes} {found : Value}
    (here : Members.lookup ms name = some found) :
    (Value.object ms).member name = .ok found := by
  simp only [Value.member, here]

theorem member_eq_ok_iff {v found : Value} {name : Bytes} :
    v.member name = .ok found ↔
      ∃ ms, v = .object ms ∧ Members.lookup ms name = some found := by
  constructor
  · intro h
    cases v with
    | object ms =>
        refine ⟨ms, rfl, ?_⟩
        simp only [Value.member] at h
        split at h
        · cases h; assumption
        · cases h
    | _ => cases h
  · rintro ⟨ms, rfl, here⟩
    exact member_object_of_lookup here

theorem getString_eq_ok_iff {v : Value} {s : Bytes} :
    v.getString = .ok s ↔ ∃ t, v = .string t ∧ cString t = s := by
  cases v <;> simp [Value.getString]

end DeribitTrading.Rapidjson
