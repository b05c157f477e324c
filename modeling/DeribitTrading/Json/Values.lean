import DeribitTrading.Json.Conversion
import DeribitTrading.Library.Assoc

/-!
Documents as trees: the induction over them, the ones without NUL bytes and
repeated names, and what the conversion makes of their members.
-/
namespace DeribitTrading
open ByteString Rapidjson Nlohmann

/-- Over a document by what it is made of. -/
@[elab_as_elim]
theorem Rapidjson.Value.inductionOn {P : Value → Prop} (v : Value) (null : P .null)
    (bool : ∀ b, P (.bool b)) (number : ∀ n, P (.number n)) (double : ∀ d, P (.double d))
    (string : ∀ s, P (.string s)) (array : ∀ es, (∀ e ∈ es, P e) → P (.array es))
    (object : ∀ ms, (∀ m ∈ ms, P m.2) → P (.object ms)) : P v :=
  @Value.rec P (fun es => ∀ e ∈ es, P e) (fun ms => ∀ m ∈ ms, P m.2) (fun m => P m.2)
    null bool number double string array object
    (List.forall_mem_nil _) (fun _ _ head tail => List.forall_mem_cons.mpr ⟨head, tail⟩)
    (List.forall_mem_nil _) (fun _ _ head tail => List.forall_mem_cons.mpr ⟨head, tail⟩)
    (fun _ _ value => value) v

/-- No string or name holds a NUL, and no object repeats a name. -/
inductive Tidy : Value → Prop
  | null : Tidy .null
  | bool (b : Bool) : Tidy (.bool b)
  | number (n : WideInt) : Tidy (.number n)
  | double (d : Numbers.Double) : Tidy (.double d)
  | string {s : Bytes} : 0 ∉ s → Tidy (.string s)
  | array {es : List Value} : (∀ e ∈ es, Tidy e) → Tidy (.array es)
  | object {ms : Rapidjson.Members} : (∀ m ∈ ms, 0 ∉ m.1) → Assoc.Distinct ms →
      (∀ m ∈ ms, Tidy m.2) → Tidy (.object ms)

theorem Tidy.text {s : Bytes} (tidy : Tidy (.string s)) : 0 ∉ s := by
  cases tidy with
  | string nulFree => exact nulFree

theorem Tidy.elements {es : List Value} (tidy : Tidy (.array es)) : ∀ e ∈ es, Tidy e := by
  cases tidy with
  | array each => exact each

theorem Tidy.names {ms : Rapidjson.Members} (tidy : Tidy (.object ms)) :
    (∀ m ∈ ms, 0 ∉ m.1) ∧ Assoc.Distinct ms := by
  cases tidy with
  | object nulFree distinct _ => exact ⟨nulFree, distinct⟩

theorem Tidy.members {ms : Rapidjson.Members} (tidy : Tidy (.object ms)) :
    ∀ m ∈ ms, Tidy m.2 := by
  cases tidy with
  | object _ _ each => exact each

theorem rapidLookup_eq (ms : Rapidjson.Members) (name : Bytes) :
    Rapidjson.Members.lookup ms name = List.lookup name ms := Assoc.find?_eq_lookup ms name

theorem nlohmannLookup_eq (ms : Nlohmann.Members) (name : Bytes) :
    Nlohmann.Members.lookup ms name = List.lookup name ms := Assoc.find?_eq_lookup ms name

theorem convertElements_eq_map (es : List Value) :
    convertElements es = es.map rapidjsonToNlohmannJson := by
  induction es with
  | nil => rfl
  | cons e es ih => rw [convertElements, ih, List.map_cons]

theorem lastMember_eq_lookup (ms : Rapidjson.Members) (name : Bytes) :
    lastMember ms name = List.lookup name (ms.reverse.map fun m => (cString m.1, m.2)) := by
  rw [← Assoc.find?_eq_lookup, List.find?_map, Option.map_map]
  rfl

theorem lastMember_of_nulFree {ms : Rapidjson.Members} (nulFree : ∀ m ∈ ms, 0 ∉ m.1)
    (name : Bytes) : lastMember ms name = List.lookup name ms.reverse := by
  have kept : (ms.reverse.map fun m => (cString m.1, m.2)) = ms.reverse.map id := by
    refine List.map_congr_left ?_
    intro m there
    rw [cString_of_nulFree (nulFree m (List.mem_reverse.mp there)), id]
  rw [lastMember_eq_lookup, kept, List.map_id]

/-- Without repeated names it does not matter which member is read. -/
theorem lastMember_of_distinct {ms : Rapidjson.Members} (nulFree : ∀ m ∈ ms, 0 ∉ m.1)
    (distinct : Assoc.Distinct ms) (name : Bytes) : lastMember ms name = List.lookup name ms := by
  rw [lastMember_of_nulFree nulFree, Assoc.lookup_perm distinct (List.reverse_perm ms).symm]

theorem lookup_converted_of_distinct {ms : Rapidjson.Members} (nulFree : ∀ m ∈ ms, 0 ∉ m.1)
    (distinct : Assoc.Distinct ms) (name : Bytes) :
    List.lookup name (convertMembers ms []) =
      (List.lookup name ms).map rapidjsonToNlohmannJson := by
  rw [← nlohmannLookup_eq, lookup_converted, lastMember_of_distinct nulFree distinct]

/-- A `std::map` holds its members in the order of their names. -/
def Ordered (ms : Nlohmann.Members) : Prop := ms.Pairwise fun m n => m.1 < n.1

theorem mem_assign {name : Bytes} {value : Json} {ms : Nlohmann.Members} {m : Bytes × Json}
    (there : m ∈ Members.assign name value ms) : m = (name, value) ∨ m ∈ ms := by
  induction ms with
  | nil => exact .inl (List.mem_singleton.mp there)
  | cons n ms ih =>
      rw [Members.assign] at there
      split_ifs at there with same before
      · rcases List.mem_cons.mp there with new | old
        · exact .inl new
        · exact .inr (List.mem_cons_of_mem n old)
      · exact List.mem_cons.mp there
      · rcases List.mem_cons.mp there with first | later
        · exact .inr (first ▸ List.mem_cons_self)
        · rcases ih later with new | old
          · exact .inl new
          · exact .inr (List.mem_cons_of_mem n old)

theorem Ordered.assign {ms : Nlohmann.Members} (ordered : Ordered ms) (name : Bytes)
    (value : Json) : Ordered (Members.assign name value ms) := by
  induction ms with
  | nil => exact List.pairwise_singleton ..
  | cons n ms ih =>
      obtain ⟨least, rest⟩ := List.pairwise_cons.mp ordered
      rw [Members.assign]
      split_ifs with same before
      · refine List.pairwise_cons.mpr ⟨?_, rest⟩
        intro m there
        exact same ▸ least m there
      · refine List.pairwise_cons.mpr ⟨?_, ordered⟩
        intro m there
        rcases List.mem_cons.mp there with first | later
        · exact first ▸ before
        · exact List.lt_trans before (least m later)
      · refine List.pairwise_cons.mpr ⟨?_, ih rest⟩
        intro m there
        rcases mem_assign there with new | old
        · subst new
          by_contra after
          exact same (List.le_antisymm before after)
        · exact least m old

theorem convertMembers_ordered (ms : Rapidjson.Members) {result : Nlohmann.Members}
    (ordered : Ordered result) : Ordered (convertMembers ms result) := by
  induction ms generalizing result with
  | nil => exact ordered
  | cons m ms ih =>
      rw [convertMembers]
      exact ih (ordered.assign ..)

/-- Converted objects are equal as soon as they read the same. -/
theorem converted_ext {ms ns : Rapidjson.Members}
    (same : ∀ name, List.lookup name (convertMembers ms []) =
      List.lookup name (convertMembers ns [])) :
    convertMembers ms [] = convertMembers ns [] :=
  Assoc.eq_of_lookup (convertMembers_ordered ms .nil) (convertMembers_ordered ns .nil) same

end DeribitTrading
