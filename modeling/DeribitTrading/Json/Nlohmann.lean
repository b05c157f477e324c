import DeribitTrading.Faults
import DeribitTrading.Library.Numbers

/-!
The part of nlohmann::json that the program uses. Objects are `std::map`s: one
member a name, in the order of the names. Integers keep the tag of the
constructor they came through.
-/
namespace DeribitTrading.Nlohmann
open ByteString Numbers

inductive Json where
  | null
  | boolean (b : Bool)
  | numberInteger (n : Int64)
  | numberUnsigned (n : UInt64)
  | numberFloat (d : Double)
  | string (s : Bytes)
  | array (elements : List Json)
  | object (members : List (Bytes × Json))

abbrev Members := List (Bytes × Json)

def Members.lookup (ms : Members) (name : Bytes) : Option Json :=
  (ms.find? fun m => m.1 == name).map Prod.snd

/-- Assignment through `operator[]`: replaces, or inserts in the order of the names. -/
def Members.assign (name : Bytes) (value : Json) : Members → Members
  | [] => [(name, value)]
  | m :: ms =>
      if m.1 = name then (name, value) :: ms
      else if name < m.1 then (name, value) :: m :: ms
      else m :: Members.assign name value ms

def Json.contains (j : Json) (name : Bytes) : Bool :=
  match j with
  | .object ms => (Members.lookup ms name).isSome
  | _ => false

def Json.isNull : Json → Bool
  | .null => true
  | _ => false

/-- `empty()`: null and containers without elements. -/
def Json.empty : Json → Bool
  | .null => true
  | .array es => es.isEmpty
  | .object ms => ms.isEmpty
  | _ => false

/-- The non-const `operator[]` read: the member's value and what the object has
become. A missing member is inserted as null, and null itself becomes an object. -/
def Json.index (j : Json) (name : Bytes) : Outcome (Json × Json) :=
  match j with
  | .object ms =>
      match Members.lookup ms name with
      | some found => .ok (found, j)
      | none => .ok (.null, .object (Members.assign name .null ms))
  | .null => .ok (.null, .object [(name, .null)])
  | _ => .error .typeError

/-- `j[name] = value`. -/
def Json.assign (j : Json) (name : Bytes) (value : Json) : Outcome Json :=
  match j with
  | .object ms => .ok (.object (Members.assign name value ms))
  | .null => .ok (.object [(name, value)])
  | _ => .error .typeError

/-- `get<int64_t>()`: an unsigned number wraps, a double is cut off. -/
def Json.getInt64 : Json → Outcome Int64
  | .numberInteger n => .ok n
  | .numberUnsigned n => .ok n.toInt64
  | .numberFloat d =>
      match d.toInt64 with
      | some n => .ok n
      | none => .error .undefined
  | _ => .error .typeError

/-- The implicit conversion to `std::string`. -/
def Json.getString : Json → Outcome Bytes
  | .string s => .ok s
  | _ => .error .typeError

theorem lookup_assign_self (name : Bytes) (value : Json) (ms : Members) :
    Members.lookup (Members.assign name value ms) name = some value := by
  induction ms with
  | nil => simp [Members.assign, Members.lookup]
  | cons m ms ih =>
      by_cases same : m.1 = name
      · simp [Members.assign, Members.lookup, same]
      · by_cases before : name < m.1
        · simp [Members.assign, Members.lookup, same, before]
        · rw [Members.assign, if_neg same, if_neg before]
          simpa [Members.lookup, same] using ih

theorem lookup_assign_ne {name other : Bytes} (different : other ≠ name) (value : Json)
    (ms : Members) :
    Members.lookup (Members.assign name value ms) other = Members.lookup ms other := by
  induction ms with
  | nil => simp [Members.assign, Members.lookup, Ne.symm different]
  | cons m ms ih =>
      rw [Members.assign]
      split_ifs with same before
      · simp [Members.lookup, same, Ne.symm different]
      · simp [Members.lookup, Ne.symm different]
      · simp only [Members.lookup, List.find?_cons] at ih ⊢
        split
        · rfl
        · exact ih

theorem assign_ne_nil (name : Bytes) (value : Json) (ms : Members) :
    Members.assign name value ms ≠ [] := by
  cases ms with
  | nil => simp [Members.assign]
  | cons m ms =>
      rw [Members.assign]
      split_ifs <;> simp

/-- A member that is there is read without changing the object. -/
theorem index_of_lookup {ms : Members} {name : Bytes} {v : Json}
    (here : Members.lookup ms name = some v) :
    (Json.object ms).index name = .ok (v, .object ms) := by
  simp only [Json.index, here]

theorem getString_finishes_iff (j : Json) : Finishes j.getString ↔ ∃ s, j = .string s := by
  cases j <;> simp [Json.getString]

/-- The member that `contains` finds and `operator[]` then reads. -/
def Member (request : Json) (name : Bytes) (v : Json) : Prop :=
  ∃ ms, request = .object ms ∧ Members.lookup ms name = some v

/-- The times that `get<int64_t>()` can read: numbers, doubles only within range. -/
inductive Timestamp : Json → Int → Prop
  | integer (n : Int64) : Timestamp (.numberInteger n) n.toInt
  | unsigned (n : UInt64) : Timestamp (.numberUnsigned n) n.toInt64.toInt
  | float (d : Double) (z : Int) : d.truncate = some z → -2 ^ 63 ≤ z → z < 2 ^ 63 →
      Timestamp (.numberFloat d) z

theorem timestamp_iff (v : Json) (z : Int) :
    Timestamp v z ↔ ∃ n : Int64, v.getInt64 = .ok n ∧ n.toInt = z := by
  constructor
  · intro stamp
    cases stamp with
    | integer n => exact ⟨n, rfl, rfl⟩
    | unsigned n => exact ⟨n.toInt64, rfl, rfl⟩
    | float d z cut lower upper =>
        obtain ⟨n, fits⟩ := Option.isSome_iff_exists.mp ((toInt64_isSome_iff z).mpr ⟨lower, upper⟩)
        have same := (toInt64_eq_some_iff z n).mp fits
        have read := (d.toInt64_eq_some_iff n).mpr (same ▸ cut)
        exact ⟨n, by simp only [Json.getInt64, read], same⟩
  · rintro ⟨n, read, rfl⟩
    cases v with
    | numberInteger m =>
        cases read
        exact .integer n
    | numberUnsigned m =>
        cases read
        exact .unsigned m
    | numberFloat d =>
        rcases converted : d.toInt64 with _ | m
        · simp [Json.getInt64, converted] at read
        · simp only [Json.getInt64, converted, Except.ok.injEq] at read
          subst read
          exact .float d _ ((d.toInt64_eq_some_iff m).mp converted) m.le_toInt m.toInt_lt
    | _ => cases read

/-- A member is absent, or it is there and read without a change. -/
theorem member_cases (request : Json) (name : Bytes) :
    (request.contains name = false ∧ ∀ v, ¬ Member request name v) ∨
    ∃ v, request.contains name = true ∧ request.index name = .ok (v, request) ∧
      ∀ v', Member request name v' ↔ v' = v := by
  cases request with
  | object ms =>
      rcases here : Members.lookup ms name with _ | v
      · refine .inl ⟨by simp [Json.contains, here], ?_⟩
        rintro v ⟨_, same, found⟩
        cases same
        rw [here] at found
        cases found
      · refine .inr ⟨v, by simp [Json.contains, here], index_of_lookup here, fun v' => ?_⟩
        constructor
        · rintro ⟨_, same, found⟩
          cases same
          exact (Option.some.inj (here.symm.trans found)).symm
        · rintro rfl
          exact ⟨ms, rfl, here⟩
  | _ =>
      refine .inl ⟨rfl, ?_⟩
      rintro v ⟨_, same, _⟩
      cases same

end DeribitTrading.Nlohmann
