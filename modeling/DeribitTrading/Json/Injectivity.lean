import DeribitTrading.Json.Values

/-!
What the conversion keeps apart: everything but the order of an object's members.
-/
namespace DeribitTrading
open ByteString Rapidjson Nlohmann
open scoped List

/-- Equal, but for the order of the members of any object within. -/
inductive SameUpToOrder : Value → Value → Prop
  | null : SameUpToOrder .null .null
  | bool (b : Bool) : SameUpToOrder (.bool b) (.bool b)
  | number (n : WideInt) : SameUpToOrder (.number n) (.number n)
  | double (d : Numbers.Double) : SameUpToOrder (.double d) (.double d)
  | string (s : Bytes) : SameUpToOrder (.string s) (.string s)
  | array {es fs : List Value} : es.length = fs.length →
      (∀ p ∈ es.zip fs, SameUpToOrder p.1 p.2) → SameUpToOrder (.array es) (.array fs)
  | object {ms ns ns' : Rapidjson.Members} : ns ~ ns' →
      ms.map Prod.fst = ns'.map Prod.fst →
      (∀ p ∈ ms.zip ns', SameUpToOrder p.1.2 p.2.2) → SameUpToOrder (.object ms) (.object ns)

/-- The number that an integer of either tag stands for. -/
def Nlohmann.Json.integer : Json → Option Int
  | .numberInteger n => some n.toInt
  | .numberUnsigned n => some n.toNat
  | _ => none

theorem integer_convertNumber (n : WideInt) : (convertNumber n).integer = some n.val := by
  have lower := n.lower
  have upper := n.upper
  have signed : n.val < 2 ^ 63 → (Int64.ofInt n.val).toInt = n.val := by
    intro below
    exact Int64.toInt_ofInt_of_le lower below
  have unsigned : 0 ≤ n.val → ((UInt64.ofNat n.val.toNat).toNat : Int) = n.val := by
    intro natural
    rw [UInt64.toNat_ofNat_of_lt' (by simp [UInt64.size]; omega)]
    exact Int.toNat_of_nonneg natural
  unfold convertNumber
  split_ifs with first second third
  · simp only [Json.integer, signed (by omega)]
  · simp only [Json.integer, unsigned second.1]
  · simp only [Json.integer, signed third]
  · simp only [Json.integer, unsigned (by omega)]

theorem convertNumber_injective {n m : WideInt} (same : convertNumber n = convertNumber m) :
    n = m := by
  have values := congrArg Json.integer same
  rw [integer_convertNumber, integer_convertNumber, Option.some.injEq] at values
  cases n
  cases m
  cases values
  rfl

/-- The values that the conversion turns into a number of either tag. -/
theorem converted_eq_number {n : WideInt} {b : Value}
    (same : convertNumber n = rapidjsonToNlohmannJson b) : b = .number n := by
  have value := congrArg Json.integer same
  rw [integer_convertNumber] at value
  cases b with
  | number m => rw [convertNumber_injective same]
  | _ => cases value

theorem converted_ne_number {a : Value} (other : (rapidjsonToNlohmannJson a).integer = none)
    (n : WideInt) : rapidjsonToNlohmannJson a ≠ rapidjsonToNlohmannJson (.number n) := by
  intro same
  have value := congrArg Json.integer same
  rw [other, rapidjsonToNlohmannJson, integer_convertNumber] at value
  cases value

theorem converted_eq_array {es : List Value} {b : Value}
    (same : rapidjsonToNlohmannJson (.array es) = rapidjsonToNlohmannJson b) :
    ∃ fs, b = .array fs ∧ es.map rapidjsonToNlohmannJson = fs.map rapidjsonToNlohmannJson := by
  cases b with
  | array fs =>
      refine ⟨fs, rfl, ?_⟩
      rw [← convertElements_eq_map, ← convertElements_eq_map]
      exact Json.array.inj same
  | number n => exact absurd same (converted_ne_number rfl n)
  | _ => cases same

theorem converted_eq_object {ms : Rapidjson.Members} {b : Value}
    (same : rapidjsonToNlohmannJson (.object ms) = rapidjsonToNlohmannJson b) :
    ∃ ns, b = .object ns ∧ convertMembers ms [] = convertMembers ns [] := by
  cases b with
  | object ns => exact ⟨ns, rfl, Json.object.inj same⟩
  | number n => exact absurd same (converted_ne_number rfl n)
  | _ => cases same

/-- Members that are found under the same names, put in the order of the first object. -/
theorem exists_reordering {ms ns : Rapidjson.Members} (first : Assoc.Distinct ms)
    (second : Assoc.Distinct ns)
    (names : ∀ name, (List.lookup name ms).isSome = (List.lookup name ns).isSome) :
    ∃ ns', ns ~ ns' ∧ ms.map Prod.fst = ns'.map Prod.fst := by
  let counterpart : Bytes → Value → Value := fun name v => (List.lookup name ns).getD v
  refine ⟨ms.map fun m => (m.1, counterpart m.1 m.2), ?_, by simp⟩
  refine Assoc.perm_of_lookup second ?_ ?_
  · rw [Assoc.Distinct, List.map_map]
    exact first
  · intro name
    have agree := names name
    rw [Assoc.lookup_map_snd]
    cases here : List.lookup name ms with
    | none =>
        cases there : List.lookup name ns with
        | none => rfl
        | some w =>
            rw [here, there] at agree
            cases agree
    | some v =>
        rw [here, Option.isSome_some, eq_comm] at agree
        obtain ⟨w, there⟩ := Option.isSome_iff_exists.mp agree
        simp only [there, Option.map_some, counterpart, Option.getD_some]

theorem sameUpToOrder_of_converted {a b : Value} (tidy : Tidy a) (tidy' : Tidy b)
    (same : rapidjsonToNlohmannJson a = rapidjsonToNlohmannJson b) : SameUpToOrder a b := by
  induction a using Value.inductionOn generalizing b with
  | null =>
      cases b with
      | null => exact .null
      | number n => exact absurd same (converted_ne_number rfl n)
      | _ => cases same
  | bool x =>
      cases b with
      | bool y =>
          cases same
          exact .bool x
      | number n => exact absurd same (converted_ne_number rfl n)
      | _ => cases same
  | number n =>
      cases converted_eq_number same
      exact .number n
  | double d =>
      cases b with
      | double e =>
          cases same
          exact .double d
      | number n => exact absurd same (converted_ne_number rfl n)
      | _ => cases same
  | string s =>
      obtain ⟨t, rfl, cut⟩ := (converted_eq_string_iff b (cString s)).mp same.symm
      rw [cString_of_nulFree tidy.text, cString_of_nulFree tidy'.text] at cut
      subst cut
      exact .string t
  | array es ih =>
      obtain ⟨fs, rfl, elements⟩ := converted_eq_array same
      obtain ⟨lengths, alike⟩ := (Assoc.map_eq_map_iff_zip ..).mp elements
      refine .array lengths ?_
      intro p paired
      obtain ⟨inFirst, inSecond⟩ := List.of_mem_zip paired
      exact ih p.1 inFirst (tidy.elements p.1 inFirst) (tidy'.elements p.2 inSecond)
        (alike p paired)
  | object ms ih =>
      obtain ⟨ns, rfl, members⟩ := converted_eq_object same
      obtain ⟨nulFree, distinct⟩ := tidy.names
      obtain ⟨nulFree', distinct'⟩ := tidy'.names
      have reads : ∀ name, (List.lookup name ms).map rapidjsonToNlohmannJson =
          (List.lookup name ns).map rapidjsonToNlohmannJson := by
        intro name
        rw [← lookup_converted_of_distinct nulFree distinct, members,
          lookup_converted_of_distinct nulFree' distinct']
      have found : ∀ name, (List.lookup name ms).isSome = (List.lookup name ns).isSome := by
        intro name
        simpa using congrArg Option.isSome (reads name)
      obtain ⟨ns', reordered, names⟩ := exists_reordering distinct distinct' found
      refine .object reordered names ?_
      intro p paired
      obtain ⟨⟨name, v⟩, ⟨name', w⟩⟩ := p
      obtain ⟨inFirst, inSecond⟩ := List.of_mem_zip paired
      cases ((Assoc.map_eq_map_iff_zip ..).mp names).2 _ paired
      have there := reordered.mem_iff.mpr inSecond
      have alike := reads name
      rw [Assoc.lookup_of_mem distinct inFirst, Assoc.lookup_of_mem distinct' there,
        Option.map_some, Option.map_some, Option.some.injEq] at alike
      exact ih _ inFirst (tidy.members _ inFirst) (tidy'.members _ there) alike

theorem SameUpToOrder.converted {a b : Value} (same : SameUpToOrder a b) (tidy : Tidy a)
    (tidy' : Tidy b) : rapidjsonToNlohmannJson a = rapidjsonToNlohmannJson b := by
  induction same with
  | array lengths _ ih =>
      rw [rapidjsonToNlohmannJson, rapidjsonToNlohmannJson, convertElements_eq_map,
        convertElements_eq_map]
      refine congrArg Json.array ((Assoc.map_eq_map_iff_zip ..).mpr ⟨lengths, ?_⟩)
      intro p paired
      obtain ⟨inFirst, inSecond⟩ := List.of_mem_zip paired
      exact ih p paired (tidy.elements p.1 inFirst) (tidy'.elements p.2 inSecond)
  | @object ms ns ns' reordered names _ ih =>
      obtain ⟨nulFree, distinct⟩ := tidy.names
      obtain ⟨nulFree', distinct'⟩ := tidy'.names
      rw [rapidjsonToNlohmannJson, rapidjsonToNlohmannJson]
      refine congrArg Json.object (converted_ext ?_)
      intro name
      rw [lookup_converted_of_distinct nulFree distinct,
        lookup_converted_of_distinct nulFree' distinct', Assoc.lookup_perm distinct' reordered]
      cases here : List.lookup name ms with
      | some v =>
          obtain ⟨w, there, paired⟩ := Assoc.lookup_zip names here
          obtain ⟨inFirst, inSecond⟩ := List.of_mem_zip paired
          rw [there]
          exact congrArg some (ih _ paired (tidy.members _ inFirst)
            (tidy'.members _ (reordered.mem_iff.mpr inSecond)))
      | none =>
          cases there : List.lookup name ns' with
          | none => rfl
          | some w =>
              obtain ⟨v, found, _⟩ := Assoc.lookup_zip names.symm there
              rw [here] at found
              cases found
  | _ => rfl

/-- Two documents convert to the same value exactly if they are the same but for
the order of members; integers and arrays come through as they are. -/
theorem conversion_distinguishes (a b : Value) (tidy : Tidy a) (tidy' : Tidy b) :
    (rapidjsonToNlohmannJson a = rapidjsonToNlohmannJson b ↔ SameUpToOrder a b) ∧
      (∀ n, (rapidjsonToNlohmannJson (.number n)).integer = some n.val) ∧
      ∀ es, rapidjsonToNlohmannJson (.array es) = .array (es.map rapidjsonToNlohmannJson) := by
  refine ⟨⟨?_, ?_⟩, integer_convertNumber, ?_⟩
  · intro same
    exact sameUpToOrder_of_converted tidy tidy' same
  · intro same
    exact same.converted tidy tidy'
  · intro es
    rw [rapidjsonToNlohmannJson, convertElements_eq_map]

def largeNumber : Value := .number ⟨2 ^ 63, by decide, by decide⟩

/-- Both orders of two members, one of them beyond the range of `int64_t`. -/
theorem reordered_members_converted :
    SameUpToOrder (.object [(bytes "b", .array [largeNumber]), (bytes "a", .null)])
        (.object [(bytes "a", .null), (bytes "b", .array [largeNumber])]) ∧
      (rapidjsonToNlohmannJson largeNumber).integer = some (2 ^ 63) := by
  have elements : ∀ e ∈ [largeNumber], Tidy e := List.forall_mem_singleton.mpr (.number _)
  have tidy : Tidy (.object [(bytes "b", .array [largeNumber]), (bytes "a", .null)]) :=
    .object (by decide) (by decide) (by simpa using ⟨.array elements, .null⟩)
  have tidy' : Tidy (.object [(bytes "a", .null), (bytes "b", .array [largeNumber])]) :=
    .object (by decide) (by decide) (by simpa using ⟨.null, .array elements⟩)
  have distinguished := conversion_distinguishes _ _ tidy tidy'
  exact ⟨distinguished.1.mp rfl, distinguished.2.1 _⟩

end DeribitTrading
