import DeribitTrading.Json.Injectivity

/-!
Reading a path of names and indices in a document and in what the conversion
makes of it. rapidjson finds the first member of a name and whole strings, the
conversion keeps the last member and what is in front of the first NUL.
-/
namespace DeribitTrading
open ByteString Rapidjson Nlohmann

inductive PathStep where
  | name (name : Bytes)
  | index (i : Nat)
  deriving DecidableEq, Repr

/-- What `FindMember` and `operator[]` lead to; `none` is an absent value. -/
def Rapidjson.Value.read : List PathStep → Value → Option Value
  | [], v => some v
  | .name name :: path, .object ms => (Rapidjson.Members.lookup ms name).bind (read path)
  | .index i :: path, .array es => es[i]?.bind (read path)
  | _ :: _, _ => none

def Nlohmann.Json.read : List PathStep → Json → Option Json
  | [], j => some j
  | .name name :: path, .object ms => (Nlohmann.Members.lookup ms name).bind (read path)
  | .index i :: path, .array js => js[i]?.bind (read path)
  | _ :: _, _ => none

/-- The same value in either library: members are those that a lookup finds. -/
inductive SameValue : Value → Json → Prop
  | null : SameValue .null .null
  | bool (b : Bool) : SameValue (.bool b) (.boolean b)
  | number {n : WideInt} {j : Json} : j.integer = some n.val → SameValue (.number n) j
  | double (d : Numbers.Double) : SameValue (.double d) (.numberFloat d)
  | string (s : Bytes) : SameValue (.string s) (.string s)
  | array {es : List Value} {js : List Json} : es.length = js.length →
      (∀ p ∈ es.zip js, SameValue p.1 p.2) → SameValue (.array es) (.array js)
  | object {ms : Rapidjson.Members} {js : Nlohmann.Members} :
      (∀ name, (Rapidjson.Members.lookup ms name).isSome =
        (Nlohmann.Members.lookup js name).isSome) →
      (∀ name v j, Rapidjson.Members.lookup ms name = some v →
        Nlohmann.Members.lookup js name = some j → SameValue v j) →
      SameValue (.object ms) (.object js)

/-- Both readings found the same value, or neither found one. -/
inductive Agree : Option Value → Option Json → Prop
  | absent : Agree none none
  | present {v : Value} {j : Json} : SameValue v j → Agree (some v) (some j)

/-- The first document, read with the first member of each name, reads as the
second one does with the last, its strings and names cut at the first NUL. -/
inductive Alike : Value → Value → Prop
  | null : Alike .null .null
  | bool (b : Bool) : Alike (.bool b) (.bool b)
  | number (n : WideInt) : Alike (.number n) (.number n)
  | double (d : Numbers.Double) : Alike (.double d) (.double d)
  | string (s : Bytes) : Alike (.string (cString s)) (.string s)
  | array {es fs : List Value} : es.length = fs.length →
      (∀ p ∈ es.zip fs, Alike p.1 p.2) → Alike (.array es) (.array fs)
  | object {ms ns : Rapidjson.Members} :
      (∀ name, (Rapidjson.Members.lookup ms name).isSome = (lastMember ns name).isSome) →
      (∀ name v w, Rapidjson.Members.lookup ms name = some v → lastMember ns name = some w →
        Alike v w) → Alike (.object ms) (.object ns)

/-- No NUL in the strings and names that are read, and where a name is repeated
its first and its last member read alike. -/
def Unambiguous : Value → Prop
  | .string s => 0 ∉ s
  | .array es => ∀ e ∈ es, Alike e e
  | .object ms => (∀ m ∈ ms, 0 ∉ m.1) ∧ ∀ name first last, List.lookup name ms = some first →
      List.lookup name ms.reverse = some last → Alike first last
  | _ => True

theorem SameValue.number_of_integer {v : Value} {j : Json} {z : Int} (same : SameValue v j)
    (value : j.integer = some z) : ∃ n, v = .number n ∧ n.val = z := by
  cases same with
  | @number n _ held =>
      rw [held, Option.some.injEq] at value
      exact ⟨n, rfl, value⟩
  | _ => cases value

theorem SameValue.number_of_converted {v : Value} {m : WideInt}
    (same : SameValue v (rapidjsonToNlohmannJson (.number m))) : v = .number m := by
  rw [rapidjsonToNlohmannJson] at same
  obtain ⟨n, rfl, value⟩ := same.number_of_integer (integer_convertNumber m)
  cases n
  cases m
  cases value
  rfl

theorem SameValue.read {v : Value} {j : Json} (same : SameValue v j) (path : List PathStep) :
    Agree (v.read path) (j.read path) := by
  induction path generalizing v j with
  | nil => exact .present same
  | cons step path ih =>
      cases same with
      | @number n j value =>
          cases j with
          | array js => cases value
          | object js => cases value
          | _ => cases step <;> exact .absent
      | @array es js lengths each =>
          cases step with
          | name name => exact .absent
          | index i =>
              by_cases inside : i < es.length
              · have inside' : i < js.length := lengths ▸ inside
                rw [Value.read, Json.read, List.getElem?_eq_getElem inside,
                  List.getElem?_eq_getElem inside']
                refine ih (each (es[i], js[i]) ?_)
                rw [List.mem_iff_getElem]
                exact ⟨i, by simpa using ⟨inside, inside'⟩, List.getElem_zip⟩
              · rw [Value.read, Json.read, List.getElem?_eq_none (by omega),
                  List.getElem?_eq_none (by omega)]
                exact .absent
      | @object ms js names each =>
          cases step with
          | index i => exact .absent
          | name name =>
              rw [Value.read, Json.read]
              have agree := names name
              cases here : Rapidjson.Members.lookup ms name with
              | none =>
                  cases there : Nlohmann.Members.lookup js name with
                  | none => exact .absent
                  | some j =>
                      rw [here, there] at agree
                      cases agree
              | some v =>
                  cases there : Nlohmann.Members.lookup js name with
                  | none =>
                      rw [here, there] at agree
                      cases agree
                  | some j => exact ih (each name v j here there)
      | _ => cases step <;> exact .absent

theorem lookup_isSome_converted (ns : Rapidjson.Members) (name : Bytes) :
    (Nlohmann.Members.lookup (convertMembers ns []) name).isSome = (lastMember ns name).isSome := by
  rw [lookup_converted, Option.isSome_map]

theorem mem_of_lastMember {ms : Rapidjson.Members} {name : Bytes} {v : Value}
    (last : lastMember ms name = some v) : ∃ key, (key, v) ∈ ms ∧ cString key = name := by
  rw [lastMember_eq_lookup] at last
  obtain ⟨m, there, same⟩ := List.mem_map.mp (Assoc.mem_of_lookup last)
  cases same
  exact ⟨m.1, List.mem_reverse.mp there, rfl⟩

theorem alike_of_sameValue {a b : Value} (same : SameValue a (rapidjsonToNlohmannJson b)) :
    Alike a b := by
  induction b using Value.inductionOn generalizing a with
  | null =>
      rw [rapidjsonToNlohmannJson] at same
      cases same with
      | null => exact .null
      | number value => cases value
  | bool x =>
      rw [rapidjsonToNlohmannJson] at same
      cases same with
      | bool x => exact .bool x
      | number value => cases value
  | number m =>
      cases same.number_of_converted
      exact .number m
  | double d =>
      rw [rapidjsonToNlohmannJson] at same
      cases same with
      | double d => exact .double d
      | number value => cases value
  | string s =>
      rw [rapidjsonToNlohmannJson] at same
      cases same with
      | string t => exact .string s
      | number value => cases value
  | array fs ih =>
      rw [rapidjsonToNlohmannJson, convertElements_eq_map] at same
      cases same with
      | @array es js lengths each =>
          rw [List.length_map] at lengths
          refine .array lengths ?_
          intro p paired
          refine ih p.2 (List.of_mem_zip paired).2 (each (p.1, rapidjsonToNlohmannJson p.2) ?_)
          rw [List.zip_map_right]
          exact List.mem_map.mpr ⟨p, paired, rfl⟩
      | number value => cases value
  | object ns ih =>
      rw [rapidjsonToNlohmannJson] at same
      cases same with
      | @object ms js names each =>
          refine .object ?_ ?_
          · intro name
            rw [names name, lookup_isSome_converted]
          · intro name v w here there
            obtain ⟨key, inside, _⟩ := mem_of_lastMember there
            refine ih (key, w) inside (each name v _ here ?_)
            rw [lookup_converted, there, Option.map_some]
      | number value => cases value

theorem Alike.sameValue {a b : Value} (alike : Alike a b) :
    SameValue a (rapidjsonToNlohmannJson b) := by
  induction alike with
  | null => exact .null
  | bool x => exact .bool x
  | number n => exact .number (integer_convertNumber n)
  | double d => exact .double d
  | string s => exact .string (cString s)
  | @array es fs lengths _ ih =>
      rw [rapidjsonToNlohmannJson, convertElements_eq_map]
      refine .array (by rw [lengths, List.length_map]) ?_
      intro p paired
      rw [List.zip_map_right] at paired
      obtain ⟨q, inside, rfl⟩ := List.mem_map.mp paired
      exact ih q inside
  | @object ms ns names _ ih =>
      rw [rapidjsonToNlohmannJson]
      refine .object ?_ ?_
      · intro name
        rw [names name, lookup_isSome_converted]
      · intro name v j here there
        rw [lookup_converted, Option.map_eq_some_iff] at there
        obtain ⟨w, last, rfl⟩ := there
        exact ih name v w here last

theorem nul_not_mem_cString (s : Bytes) : 0 ∉ cString s := by
  intro there
  have kept := List.mem_takeWhile_imp there
  simp at kept

theorem Alike.of_string {a b : Value} (alike : Alike a b) {s : Bytes} (text : a = .string s) :
    ∃ t, b = .string t ∧ cString t = s := by
  cases alike with
  | string t => exact ⟨t, rfl, Value.string.inj text⟩
  | _ => cases text

theorem alike_string_iff (s : Bytes) : Alike (.string s) (.string s) ↔ 0 ∉ s := by
  constructor
  · intro alike
    obtain ⟨t, same, cut⟩ := alike.of_string rfl
    cases same
    rw [← cut]
    exact nul_not_mem_cString s
  · intro nulFree
    have whole := Alike.string s
    rwa [cString_of_nulFree nulFree] at whole

theorem alike_array_iff (es : List Value) :
    Alike (.array es) (.array es) ↔ ∀ e ∈ es, Alike e e := by
  have diagonal : es.zip es = es.map fun e => (e, e) := by
    rw [List.zip, List.zipWith_self]
  constructor
  · intro alike e inside
    cases alike with
    | array _ each =>
        refine each (e, e) ?_
        rw [diagonal]
        exact List.mem_map.mpr ⟨e, inside, rfl⟩
  · intro each
    refine .array rfl ?_
    intro p paired
    rw [diagonal] at paired
    obtain ⟨e, inside, rfl⟩ := List.mem_map.mp paired
    exact each e inside

/-- Every name of a document is found again in its conversion if no name holds a NUL. -/
theorem names_found_iff (ms : Rapidjson.Members) :
    (∀ name, (Rapidjson.Members.lookup ms name).isSome = (lastMember ms name).isSome) ↔
      ∀ m ∈ ms, 0 ∉ m.1 := by
  constructor
  · intro found m there
    have here : (Rapidjson.Members.lookup ms m.1).isSome = true := by
      rw [rapidLookup_eq, Assoc.lookup_isSome_iff_mem]
      exact List.mem_map_of_mem there
    rw [found] at here
    obtain ⟨v, last⟩ := Option.isSome_iff_exists.mp here
    obtain ⟨key, _, cut⟩ := mem_of_lastMember last
    rw [← cut]
    exact nul_not_mem_cString key
  · intro nulFree name
    rw [rapidLookup_eq, lastMember_of_nulFree nulFree, Bool.eq_iff_iff,
      Assoc.lookup_isSome_iff_mem, Assoc.lookup_isSome_iff_mem, List.map_reverse,
      List.mem_reverse]

theorem alike_object_iff (ms : Rapidjson.Members) :
    Alike (.object ms) (.object ms) ↔ (∀ m ∈ ms, 0 ∉ m.1) ∧ ∀ name first last,
      List.lookup name ms = some first → List.lookup name ms.reverse = some last →
      Alike first last := by
  constructor
  · intro alike
    cases alike with
    | object names each =>
        have nulFree := (names_found_iff ms).mp names
        refine ⟨nulFree, ?_⟩
        intro name first last here there
        refine each name first last ?_ ?_
        · rw [rapidLookup_eq, here]
        · rw [lastMember_of_nulFree nulFree, there]
  · intro ⟨nulFree, each⟩
    refine .object ((names_found_iff ms).mpr nulFree) ?_
    intro name first last here there
    rw [rapidLookup_eq] at here
    rw [lastMember_of_nulFree nulFree] at there
    exact each name first last here there

theorem unambiguous_iff (v : Value) : Unambiguous v ↔ Alike v v := by
  cases v with
  | null => exact iff_of_true trivial .null
  | bool b => exact iff_of_true trivial (.bool b)
  | number n => exact iff_of_true trivial (.number n)
  | double d => exact iff_of_true trivial (.double d)
  | string s => exact (alike_string_iff s).symm
  | array es => exact (alike_array_iff es).symm
  | object ms => exact (alike_object_iff ms).symm

theorem agree_read_iff (v : Value) :
    (∀ path, Agree (v.read path) ((rapidjsonToNlohmannJson v).read path)) ↔ Unambiguous v := by
  rw [unambiguous_iff]
  constructor
  · intro agree
    cases agree [] with
    | present same => exact alike_of_sameValue same
  · intro alike path
    exact alike.sameValue.read path

theorem Tidy.alike {v : Value} (tidy : Tidy v) : Alike v v := by
  induction tidy with
  | null => exact .null
  | bool b => exact .bool b
  | number n => exact .number n
  | double d => exact .double d
  | @string s nulFree => exact (alike_string_iff s).mpr nulFree
  | @array es _ ih => exact (alike_array_iff es).mpr ih
  | @object ms nulFree distinct _ ih =>
      refine (alike_object_iff ms).mpr ⟨nulFree, ?_⟩
      intro name first last here there
      rw [Assoc.lookup_perm distinct (List.reverse_perm ms).symm] at here
      cases here.symm.trans there
      exact ih _ (List.mem_reverse.mp (Assoc.mem_of_lookup here))

/-- Without NULs and repeated names every path reads alike. -/
theorem Tidy.agree_read {v : Value} (tidy : Tidy v) (path : List PathStep) :
    Agree (v.read path) ((rapidjsonToNlohmannJson v).read path) :=
  tidy.alike.sameValue.read path

/-- Of a response that the client accepts, every path reads the same before and
after the conversion. -/
def LookupsAgree (L : Libraries) (response : Bytes) : Prop :=
  ∀ document, parseJSONResponse L response = (true, document) → ∀ path,
    Agree (document.read path) ((rapidjsonToNlohmannJson document).read path)

theorem lookup_agreement_iff (L : Libraries) (response : Bytes) :
    LookupsAgree L response ↔ ∀ document, parseJSONResponse L response = (true, document) →
      Unambiguous document := by
  constructor
  · intro agree document accepted
    exact (agree_read_iff document).mp (agree document accepted)
  · intro unambiguous document accepted
    exact (agree_read_iff document).mpr (unambiguous document accepted)

def repeatedName : Bytes := bytes "\x7b\"a\":true,\"a\":false\x7d"
def escapedNul : Bytes := bytes "\x7b\"a\":\"x\\u0000y\"\x7d"

def ambiguousTexts : Libraries where
  rapidParse := fun text =>
    if text = repeatedName then
      some (.object [(bytes "a", .bool true), (bytes "a", .bool false)])
    else if text = escapedNul then some (.object [(bytes "a", .string [120, 0, 121])])
    else none
  nlohmannParse := fun _ => none
  dump := fun _ => []
  gunzip := .ofTable fun _ => []
  deflate := .ofTable fun _ => []

/-- A repeated name reads its first value before and its last one after the
conversion; a string with a NUL comes out shorter. -/
theorem lookups_disagree :
    ((parseJSONResponse ambiguousTexts repeatedName).2.read [.name (bytes "a")] =
          some (.bool true) ∧
        (rapidjsonToNlohmannJson (parseJSONResponse ambiguousTexts repeatedName).2).read
          [.name (bytes "a")] = some (.boolean false) ∧
        ¬ LookupsAgree ambiguousTexts repeatedName) ∧
      (parseJSONResponse ambiguousTexts escapedNul).2.read [.name (bytes "a")] =
          some (.string [120, 0, 121]) ∧
        (rapidjsonToNlohmannJson (parseJSONResponse ambiguousTexts escapedNul).2).read
          [.name (bytes "a")] = some (.string [120]) ∧
        ¬ LookupsAgree ambiguousTexts escapedNul := by
  refine ⟨⟨rfl, rfl, ?_⟩, rfl, rfl, ?_⟩
  · intro agree
    cases agree (.object [(bytes "a", .bool true), (bytes "a", .bool false)]) rfl
      [.name (bytes "a")] with
    | present same => cases same
  · intro agree
    cases agree (.object [(bytes "a", .string [120, 0, 121])]) rfl [.name (bytes "a")] with
    | present same => cases same

end DeribitTrading
