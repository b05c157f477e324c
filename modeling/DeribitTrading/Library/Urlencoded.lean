import Mathlib.Data.List.TakeWhile
import DeribitTrading.Library.ByteString

/-!
Query strings under the `application/x-www-form-urlencoded` rules, on bytes:
the query of a URL stops at the fragment, sequences are split at `&`, a name
ends at the first `=`, `+` is a space and `%` with two hex digits is a byte.
The main result says exactly which values survive being put into a query
without any encoding.
-/
namespace Urlencoded
open ByteString

def ampersand : UInt8 := 38
def equalsSign : UInt8 := 61
def numberSign : UInt8 := 35
def plusSign : UInt8 := 43
def percentSign : UInt8 := 37
def questionMark : UInt8 := 63
def space : UInt8 := 32

def hexValue (b : UInt8) : Option UInt8 :=
  if 48 ≤ b ∧ b ≤ 57 then some (b - 48)
  else if 65 ≤ b ∧ b ≤ 70 then some (b - 55)
  else if 97 ≤ b ∧ b ≤ 102 then some (b - 87)
  else none

/-- The byte that `%` stands for in front of these bytes, if it is an escape. -/
def escapeValue : Bytes → Option UInt8
  | h :: l :: _ => do
      let high ← hexValue h
      let low ← hexValue l
      return 16 * high + low
  | _ => none

/-- The number counts the digits of an escape that are still to be skipped. -/
def percentDecodeFrom : Nat → Bytes → Bytes
  | _, [] => []
  | skip + 1, _ :: rest => percentDecodeFrom skip rest
  | 0, b :: rest =>
      match (if b = percentSign then escapeValue rest else none) with
      | some value => value :: percentDecodeFrom 2 rest
      | none => b :: percentDecodeFrom 0 rest

def percentDecode (s : Bytes) : Bytes := percentDecodeFrom 0 s

def plusToSpace (b : UInt8) : UInt8 := if b = plusSign then space else b

def decode (s : Bytes) : Bytes := percentDecode (s.map plusToSpace)

/-- One sequence between ampersands; an empty one names no pair. -/
def pairOf (sequence : Bytes) : Option (Bytes × Bytes) :=
  if sequence = [] then none
  else some (decode (sequence.takeWhile (· ≠ equalsSign)),
    decode ((sequence.dropWhile (· ≠ equalsSign)).drop 1))

def parse (query : Bytes) : List (Bytes × Bytes) :=
  (query.splitOn ampersand).filterMap pairOf

def beforeFragment (s : Bytes) : Bytes := s.takeWhile (· ≠ numberSign)

/-- What stands between the first `?` of a URL and its fragment. -/
def queryOf (url : Bytes) : Bytes :=
  ((beforeFragment url).dropWhile (· ≠ questionMark)).drop 1

def decodeQuery (url : Bytes) : List (Bytes × Bytes) := parse (queryOf url)

def renderPair (p : Bytes × Bytes) : Bytes := p.1 ++ equalsSign :: p.2

/-- Pairs written as they are, the way a URL is put together by concatenation. -/
def renderPairs : List (Bytes × Bytes) → Bytes
  | [] => []
  | [p] => renderPair p
  | p :: q :: pairs => renderPair p ++ ampersand :: renderPairs (q :: pairs)

def hasEscape : Bytes → Bool
  | [] => false
  | b :: rest => (b = percentSign && (escapeValue rest).isSome) || hasEscape rest

/-- A value that means itself in a query. -/
structure Literal (value : Bytes) : Prop where
  ampersand : ampersand ∉ value
  fragment : numberSign ∉ value
  plus : plusSign ∉ value
  escape : hasEscape value = false

/-- A value that means itself in a query that is passed as a C string. -/
def LiteralText (value : Bytes) : Prop := Literal value ∧ 0 ∉ value

/-- A name that means itself and cannot be mistaken for an empty sequence. -/
structure LiteralName (name : Bytes) : Prop extends Literal name where
  nonempty : name ≠ []
  equals : equalsSign ∉ name

theorem percentDecodeFrom_length_le (skip : Nat) (s : Bytes) :
    (percentDecodeFrom skip s).length ≤ s.length - skip := by
  induction s generalizing skip with
  | nil => simp [percentDecodeFrom]
  | cons b rest ih =>
      cases skip with
      | succ skip =>
          have := ih skip
          simp only [percentDecodeFrom, List.length_cons]
          omega
      | zero =>
          have whole := ih 0
          have escaped := ih 2
          simp only [percentDecodeFrom, List.length_cons]
          split <;> simp only [List.length_cons] <;> omega

theorem two_le_of_escape {rest : Bytes} (escape : (escapeValue rest).isSome) :
    2 ≤ rest.length := by
  match rest, escape with
  | _ :: _ :: _, _ => simp

theorem percentDecode_of_literal {s : Bytes} (literal : hasEscape s = false) :
    percentDecode s = s := by
  unfold percentDecode
  induction s with
  | nil => rfl
  | cons b rest ih =>
      simp only [hasEscape, Bool.or_eq_false_iff, Bool.and_eq_false_iff,
        decide_eq_false_iff_not] at literal
      have here : (if b = percentSign then escapeValue rest else none) = none := by
        split
        · exact Option.not_isSome_iff_eq_none.mp (by simp_all)
        · rfl
      simp only [percentDecodeFrom, here, ih literal.2]

theorem percentDecode_shrinks {s : Bytes} (escape : hasEscape s = true) :
    (percentDecode s).length < s.length := by
  unfold percentDecode
  induction s with
  | nil => simp [hasEscape] at escape
  | cons b rest ih =>
      simp only [percentDecodeFrom]
      split
      · rename_i value here
        have pair : 2 ≤ rest.length := by
          split at here
          · exact two_le_of_escape (by simp [here])
          · cases here
        have := percentDecodeFrom_length_le 2 rest
        simp only [List.length_cons]
        omega
      · rename_i none_here
        have later : hasEscape rest = true := by
          simp only [hasEscape, Bool.or_eq_true, Bool.and_eq_true, decide_eq_true_eq] at escape
          rcases escape with ⟨percent, some_here⟩ | later
          · rw [if_pos percent] at none_here
            simp [none_here] at some_here
          · exact later
        simpa using ih later

theorem map_plusToSpace_of_literal {s : Bytes} (literal : plusSign ∉ s) :
    s.map plusToSpace = s := by
  have each : ∀ b ∈ s, plusToSpace b = id b := by
    intro b member
    exact if_neg fun plus : b = plusSign => literal (plus ▸ member)
  rw [List.map_congr_left each, List.map_id]

/-- Decoding gives a value back exactly when nothing in it is decoded. -/
theorem decode_eq_self_iff (s : Bytes) :
    decode s = s ↔ plusSign ∉ s ∧ hasEscape s = false := by
  constructor
  · intro same
    have kept : hasEscape (s.map plusToSpace) = false := by
      by_contra escape
      have shrinks := percentDecode_shrinks (Bool.of_not_eq_false escape)
      rw [show percentDecode (s.map plusToSpace) = s from same, List.length_map] at shrinks
      exact absurd shrinks (lt_irrefl _)
    have spaces : s.map plusToSpace = s := (percentDecode_of_literal kept).symm.trans same
    refine ⟨?_, spaces ▸ kept⟩
    intro member
    rw [← spaces] at member
    obtain ⟨b, _, turned⟩ := List.mem_map.mp member
    unfold plusToSpace at turned
    split at turned
    · exact absurd turned (by decide)
    · contradiction
  · rintro ⟨literal, kept⟩
    rw [decode, map_plusToSpace_of_literal literal, percentDecode_of_literal kept]

theorem decode_of_literal {value : Bytes} (literal : Literal value) : decode value = value :=
  (decode_eq_self_iff value).mpr ⟨literal.plus, literal.escape⟩

theorem decode_length_le (s : Bytes) : (decode s).length ≤ s.length := by
  have := percentDecodeFrom_length_le 0 (s.map plusToSpace)
  simpa [decode, percentDecode] using this

theorem takeWhile_ne_of_notMem {c : UInt8} {s : Bytes} (absent : c ∉ s) (rest : Bytes) :
    (s ++ c :: rest).takeWhile (· ≠ c) = s := by
  rw [List.takeWhile_append_of_pos]
  · simp
  · intro b member
    simpa using fun same : b = c => absent (same ▸ member)

theorem dropWhile_ne_of_notMem {c : UInt8} {s : Bytes} (absent : c ∉ s) (rest : Bytes) :
    (s ++ c :: rest).dropWhile (· ≠ c) = c :: rest := by
  rw [List.dropWhile_append_of_pos]
  · simp
  · intro b member
    simpa using fun same : b = c => absent (same ▸ member)

theorem pairOf_renderPair {name : Bytes} (literal : LiteralName name) (value : Bytes) :
    pairOf (renderPair (name, value)) = some (name, decode value) := by
  have filled : name ++ equalsSign :: value ≠ [] := by simp
  simp only [pairOf, renderPair, if_neg filled, takeWhile_ne_of_notMem literal.equals,
    dropWhile_ne_of_notMem literal.equals, decode_of_literal literal.toLiteral, List.drop_one,
    List.tail_cons]

theorem parse_single {sequence : Bytes} (whole : ampersand ∉ sequence) :
    parse sequence = (pairOf sequence).toList := by
  rw [parse, List.splitOn_eq_singleton whole, List.filterMap_cons, List.filterMap_nil]
  cases pairOf sequence <;> rfl

theorem parse_append (sequence rest : Bytes) :
    parse (sequence ++ ampersand :: rest) = parse sequence ++ parse rest := by
  rw [parse, List.splitOn_append_cons_self, List.filterMap_append]
  rfl

theorem beforeFragment_append {front : Bytes} (open_ended : numberSign ∉ front) (back : Bytes) :
    beforeFragment (front ++ back) = front ++ beforeFragment back := by
  apply List.takeWhile_append_of_pos
  intro b member
  simpa using fun same : b = numberSign => open_ended (same ▸ member)

theorem beforeFragment_stop {front : Bytes} (open_ended : numberSign ∉ front) (back : Bytes) :
    beforeFragment (front ++ numberSign :: back) = front :=
  takeWhile_ne_of_notMem open_ended back

/-- The pairs a reader finds in a text that stands where a query stands. -/
def readPairs (text : Bytes) : List (Bytes × Bytes) := parse (beforeFragment text)

/-- A value that ends where a sequence ends: nothing in it cuts it short. -/
def Uncut (value : Bytes) : Prop := ampersand ∉ value ∧ numberSign ∉ value

theorem not_uncut {value : Bytes} (cut : ¬ Uncut value) :
    ∃ front c back, value = front ++ c :: back ∧ Uncut front ∧
      (c = ampersand ∨ c = numberSign) := by
  induction value with
  | nil => exact absurd ⟨List.not_mem_nil, List.not_mem_nil⟩ cut
  | cons b rest ih =>
      by_cases here : b = ampersand ∨ b = numberSign
      · exact ⟨[], b, rest, rfl, ⟨List.not_mem_nil, List.not_mem_nil⟩, here⟩
      · have later : ¬ Uncut rest := by
          intro uncut
          apply cut
          simp only [Uncut, List.mem_cons, not_or] at uncut here ⊢
          exact ⟨⟨Ne.symm here.1, uncut.1⟩, Ne.symm here.2, uncut.2⟩
        obtain ⟨front, c, back, rfl, uncut, stop⟩ := ih later
        refine ⟨b :: front, c, back, rfl, ?_, stop⟩
        simp only [Uncut, List.mem_cons, not_or] at uncut here ⊢
        exact ⟨⟨Ne.symm here.1, uncut.1⟩, Ne.symm here.2, uncut.2⟩

theorem Uncut.renderPair {name value : Bytes} (literal : LiteralName name)
    (uncut : Uncut value) : Uncut (renderPair (name, value)) := by
  simp only [Uncut, Urlencoded.renderPair, List.mem_append, List.mem_cons, not_or]
  exact ⟨⟨literal.ampersand, by decide, uncut.1⟩, literal.fragment, by decide, uncut.2⟩

theorem readPairs_uncut {name value : Bytes} (literal : LiteralName name) (uncut : Uncut value) :
    readPairs (renderPair (name, value)) = [(name, decode value)] := by
  have whole := uncut.renderPair literal
  have stays := beforeFragment_append whole.2 []
  rw [List.append_nil] at stays
  rw [readPairs, stays, show beforeFragment [] = [] from rfl, List.append_nil,
    parse_single whole.1, pairOf_renderPair literal]
  rfl

theorem readPairs_uncut_append {name value : Bytes} (literal : LiteralName name)
    (uncut : Uncut value) (rest : Bytes) :
    readPairs (renderPair (name, value) ++ ampersand :: rest) =
      (name, decode value) :: readPairs rest := by
  have whole := uncut.renderPair literal
  have goes_on : beforeFragment (ampersand :: rest) = ampersand :: beforeFragment rest := rfl
  rw [readPairs, beforeFragment_append whole.2, goes_on, parse_append, parse_single whole.1,
    pairOf_renderPair literal]
  rfl

/-- A value that is cut short comes back shorter, whatever stands behind it. -/
theorem readPairs_cut {name value : Bytes} (literal : LiteralName name) (cut : ¬ Uncut value)
    (rest : Bytes) :
    ∃ read more, readPairs (renderPair (name, value) ++ rest) = (name, read) :: more ∧
      read.length < value.length := by
  obtain ⟨front, c, back, rfl, uncut, stop⟩ := not_uncut cut
  have shorter : (decode front).length < (front ++ c :: back).length := by
    have := decode_length_le front
    simp only [List.length_append, List.length_cons]
    omega
  have shape : renderPair (name, front ++ c :: back) ++ rest =
      renderPair (name, front) ++ c :: (back ++ rest) := by
    simp [renderPair]
  rw [shape]
  rcases stop with rfl | rfl
  · exact ⟨_, _, readPairs_uncut_append literal uncut _, shorter⟩
  · have whole := uncut.renderPair literal
    have same := readPairs_uncut literal uncut
    refine ⟨_, [], ?_, shorter⟩
    rw [← same, readPairs, readPairs, beforeFragment_stop whole.2]
    have stays := beforeFragment_append whole.2 []
    rw [List.append_nil] at stays
    rw [stays, show beforeFragment [] = [] from rfl, List.append_nil]

theorem literal_iff {value : Bytes} : Literal value ↔ Uncut value ∧ decode value = value := by
  rw [decode_eq_self_iff]
  constructor
  · intro literal
    exact ⟨⟨literal.ampersand, literal.fragment⟩, literal.plus, literal.escape⟩
  · rintro ⟨uncut, plus, escape⟩
    exact ⟨uncut.1, uncut.2, plus, escape⟩

/-- Pairs put into a query as they are come back exactly when every value is literal. -/
theorem readPairs_renderPairs_iff (pairs : List (Bytes × Bytes)) (some_pair : pairs ≠ [])
    (names : ∀ p ∈ pairs, LiteralName p.1) :
    readPairs (renderPairs pairs) = pairs ↔ ∀ p ∈ pairs, Literal p.2 := by
  induction pairs with
  | nil => exact absurd rfl some_pair
  | cons p pairs ih =>
      obtain ⟨name, value⟩ := p
      have literal : LiteralName name := names (name, value) List.mem_cons_self
      have later : ∀ p ∈ pairs, LiteralName p.1 := fun p member =>
        names p (List.mem_cons_of_mem _ member)
      have literal_value : Literal value ↔ Uncut value ∧ decode value = value := literal_iff
      by_cases uncut : Uncut value
      · simp only [uncut, true_and] at literal_value
        cases pairs with
        | nil =>
            rw [renderPairs, readPairs_uncut literal uncut]
            simp [literal_value]
        | cons q pairs =>
            rw [renderPairs, readPairs_uncut_append literal uncut, List.cons_eq_cons,
              ih (List.cons_ne_nil q pairs) later, Prod.mk.injEq, ← literal_value]
            simp only [true_and, List.forall_mem_cons]
      · simp only [uncut, false_and, iff_false] at literal_value
        have first : ¬ ∀ p ∈ (name, value) :: pairs, Literal p.2 := fun all =>
          literal_value (all (name, value) List.mem_cons_self)
        refine iff_of_false ?_ first
        have shape : ∃ rest, renderPairs ((name, value) :: pairs) =
            renderPair (name, value) ++ rest := by
          cases pairs with
          | nil => exact ⟨[], (List.append_nil _).symm⟩
          | cons q pairs => exact ⟨_, rfl⟩
        obtain ⟨rest, same⟩ := shape
        obtain ⟨read, more, found, shorter⟩ := readPairs_cut literal uncut rest
        rw [same, found]
        intro equal
        rw [(Prod.mk.inj (List.cons.inj equal).1).2] at shorter
        exact lt_irrefl _ shorter

theorem readPairs_renderPair_length_le {name : Bytes} (literal : LiteralName name)
    (value : Bytes) :
    ∃ read more, readPairs (renderPair (name, value)) = (name, read) :: more ∧
      read.length ≤ value.length := by
  by_cases uncut : Uncut value
  · exact ⟨_, [], readPairs_uncut literal uncut, decode_length_le value⟩
  · obtain ⟨read, more, found, shorter⟩ := readPairs_cut literal uncut []
    rw [List.append_nil] at found
    exact ⟨read, more, found, shorter.le⟩

theorem renderPair_nulFree {name value : Bytes} (plain : 0 ∉ name) (here : 0 ∉ value) :
    0 ∉ renderPair (name, value) := by
  simp only [renderPair, List.mem_append, List.mem_cons, not_or]
  exact ⟨plain, by decide, here⟩

theorem renderPairs_nulFree {pairs : List (Bytes × Bytes)} (names : ∀ p ∈ pairs, 0 ∉ p.1)
    (values : ∀ p ∈ pairs, 0 ∉ p.2) : 0 ∉ renderPairs pairs := by
  induction pairs with
  | nil => exact List.not_mem_nil
  | cons p pairs ih =>
      have own := renderPair_nulFree (names p List.mem_cons_self) (values p List.mem_cons_self)
      cases pairs with
      | nil => exact own
      | cons q pairs =>
          simp only [renderPairs, List.mem_append, List.mem_cons, not_or]
          exact ⟨own, by decide, ih (fun p there => names p (List.mem_cons_of_mem _ there))
            fun p there => values p (List.mem_cons_of_mem _ there)⟩

/-- Pairs of which one holds a NUL do not come back from the C string. -/
theorem readPairs_cString_ne {pairs : List (Bytes × Bytes)}
    (names : ∀ p ∈ pairs, LiteralName p.1 ∧ 0 ∉ p.1) (nul : ∃ p ∈ pairs, 0 ∈ p.2) :
    readPairs (cString (renderPairs pairs)) ≠ pairs := by
  induction pairs with
  | nil => simp at nul
  | cons p pairs ih =>
      obtain ⟨name, value⟩ := p
      obtain ⟨literal, plain⟩ := names (name, value) List.mem_cons_self
      have start : 0 ∉ name ++ [equalsSign] := by
        simp only [List.mem_append, List.mem_singleton, not_or]
        exact ⟨plain, by decide⟩
      have shape : ∃ rest, renderPairs ((name, value) :: pairs) =
          (name ++ [equalsSign]) ++ (value ++ rest) := by
        cases pairs with
        | nil => exact ⟨[], by simp [renderPairs, renderPair]⟩
        | cons q pairs =>
            exact ⟨ampersand :: renderPairs (q :: pairs), by simp [renderPairs, renderPair]⟩
      obtain ⟨rest, same⟩ := shape
      by_cases here : 0 ∈ value
      · -- the text ends within this value
        rw [same, cString_append_of_nulFree start, cString_append_of_nul here]
        obtain ⟨read, more, found, short⟩ :=
          readPairs_renderPair_length_le literal (cString value)
        rw [List.append_assoc, List.singleton_append, ← renderPair.eq_1 (name, cString value),
          found]
        intro equal
        rw [(Prod.mk.inj (List.cons.inj equal).1).2] at short
        exact absurd (cString_length_lt here) (Nat.not_lt_of_le short)
      · cases pairs with
        | nil => simp [here] at nul
        | cons q pairs =>
          have later : readPairs (cString (renderPairs (q :: pairs))) ≠ q :: pairs := by
            apply ih fun p there => names p (List.mem_cons_of_mem _ there)
            simpa [here] using nul
          have next : cString (ampersand :: renderPairs (q :: pairs)) =
              ampersand :: cString (renderPairs (q :: pairs)) := rfl
          rw [renderPairs, cString_append_of_nulFree (renderPair_nulFree plain here), next]
          intro equal
          by_cases uncut : Uncut value
          · rw [readPairs_uncut_append literal uncut] at equal
            exact later (List.cons.inj equal).2
          · obtain ⟨read, more, found, shorter⟩ :=
              readPairs_cut literal uncut (ampersand :: cString (renderPairs (q :: pairs)))
            rw [found] at equal
            rw [(Prod.mk.inj (List.cons.inj equal).1).2] at shorter
            exact lt_irrefl _ shorter

/-- What a C string of the pairs carries: the pairs, if no value holds a NUL either. -/
theorem readPairs_cString_iff {pairs : List (Bytes × Bytes)} (some_pair : pairs ≠ [])
    (names : ∀ p ∈ pairs, LiteralName p.1 ∧ 0 ∉ p.1) :
    readPairs (cString (renderPairs pairs)) = pairs ↔ ∀ p ∈ pairs, LiteralText p.2 := by
  by_cases nul : ∃ p ∈ pairs, 0 ∈ p.2
  · obtain ⟨p, there, inside⟩ := nul
    exact iff_of_false (readPairs_cString_ne names ⟨p, there, inside⟩)
      fun all => (all p there).2 inside
  · simp only [not_exists, not_and] at nul
    rw [cString_of_nulFree (renderPairs_nulFree (fun p there => (names p there).2) nul),
      readPairs_renderPairs_iff pairs some_pair fun p there => (names p there).1]
    exact forall₂_congr fun p there => (and_iff_left (nul p there)).symm

/-- The reading of a whole URL, for a base that holds neither `?` nor `#`. -/
theorem decodeQuery_eq_readPairs {base : Bytes} (question : questionMark ∉ base)
    (fragment : numberSign ∉ base) (text : Bytes) :
    decodeQuery (base ++ questionMark :: text) = readPairs text := by
  have goes_on : beforeFragment (questionMark :: text) = questionMark :: beforeFragment text := rfl
  rw [decodeQuery, queryOf, beforeFragment_append fragment, goes_on,
    dropWhile_ne_of_notMem question]
  rfl

end Urlencoded
