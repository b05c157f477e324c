import Mathlib.Data.List.Infix
import Mathlib.Data.List.TakeWhile

/-!
Byte strings with the operations of `std::string` that programs over raw
buffers rely on. `find` answers `none` where the C++ function answers `npos`.
-/
namespace ByteString

abbrev Bytes := List UInt8

/-- An ASCII literal as the bytes of its C string. -/
def bytes (s : String) : Bytes := s.toList.map fun c => UInt8.ofNat c.toNat

/-- The first position at which `needle` occurs. -/
def find (needle : Bytes) : Bytes → Option Nat
  | [] => if needle = [] then some 0 else none
  | b :: rest =>
      if needle <+: b :: rest then some 0 else (find needle rest).map (· + 1)

/-- `none` is the `std::out_of_range` that `substr` throws past the end. -/
def substr (s : Bytes) (pos : Nat) : Option Bytes :=
  if pos ≤ s.length then some (s.drop pos) else none

/-- What is left of a string that is passed on through `c_str()`. -/
def cString (s : Bytes) : Bytes := s.takeWhile (· ≠ 0)

theorem find_cons_here {needle : Bytes} {b : UInt8} {rest : Bytes}
    (here : needle <+: b :: rest) : find needle (b :: rest) = some 0 := by
  simp only [find, if_pos here]

theorem find_cons_skip {needle : Bytes} {b : UInt8} {rest : Bytes}
    (here : ¬ needle <+: b :: rest) :
    find needle (b :: rest) = (find needle rest).map (· + 1) := by
  simp only [find, if_neg here]

theorem find_eq_none_iff (needle s : Bytes) : find needle s = none ↔ ¬ needle <:+: s := by
  induction s with
  | nil => simp [find]
  | cons b rest ih =>
      by_cases here : needle <+: b :: rest
      · simp [find_cons_here here, here.isInfix]
      · rw [find_cons_skip here, Option.map_eq_none_iff, ih, List.infix_cons_iff]
        simp only [here, false_or]

theorem find_le_length {needle s : Bytes} {i : Nat} (found : find needle s = some i) :
    i + needle.length ≤ s.length := by
  induction s generalizing i with
  | nil =>
      by_cases empty : needle = []
      · simp only [find, if_pos empty, Option.some.injEq] at found
        simp [← found, empty]
      · simp [find, empty] at found
  | cons b rest ih =>
      by_cases here : needle <+: b :: rest
      · rw [find_cons_here here, Option.some.injEq] at found
        have := here.length_le
        omega
      · rw [find_cons_skip here, Option.map_eq_some_iff] at found
        obtain ⟨j, inner, rfl⟩ := found
        have := ih inner
        simp only [List.length_cons]
        omega

/-- What `find` finds is the first occurrence. -/
theorem find_first {needle s : Bytes} {k : Nat} (found : find needle s = some k) {i : Nat}
    (before : i < k) : ¬ needle <+: s.drop i := by
  induction s generalizing k i with
  | nil =>
      by_cases empty : needle = []
      · simp only [find, if_pos empty, Option.some.injEq] at found
        omega
      · simp [find, empty] at found
  | cons b rest ih =>
      by_cases here : needle <+: b :: rest
      · rw [find_cons_here here, Option.some.injEq] at found
        omega
      · rw [find_cons_skip here, Option.map_eq_some_iff] at found
        obtain ⟨j, inner, rfl⟩ := found
        cases i with
        | zero => simpa using here
        | succ i =>
            rw [List.drop_succ_cons]
            exact ih inner (by omega)

/-- A front in which no occurrence starts only pushes the first occurrence back. -/
theorem find_skip {needle front rest : Bytes}
    (clear : ∀ i < front.length, ¬ needle <+: (front ++ rest).drop i) :
    find needle (front ++ rest) = (find needle rest).map (· + front.length) := by
  induction front with
  | nil => simp
  | cons b front ih =>
      have here : ¬ needle <+: b :: (front ++ rest) := by
        simpa using clear 0 (by simp)
      have later : ∀ i < front.length, ¬ needle <+: (front ++ rest).drop i := by
        intro i below
        simpa using clear (i + 1) (by simpa using below)
      rw [List.cons_append, find_cons_skip here, ih later, Option.map_map]
      congr 1

theorem find_self_append (needle rest : Bytes) : find needle (needle ++ rest) = some 0 := by
  cases whole : needle ++ rest with
  | nil =>
      have empty : needle = [] := (List.append_eq_nil_iff.mp whole).1
      simp only [find, if_pos empty]
  | cons b tail =>
      refine find_cons_here ?_
      rw [← whole]
      exact List.prefix_append needle rest

theorem find_occurs {needle s : Bytes} {k : Nat} (found : find needle s = some k) :
    needle <+: s.drop k := by
  induction s generalizing k with
  | nil =>
      by_cases empty : needle = []
      · rw [empty]
        exact List.nil_prefix
      · simp [find, empty] at found
  | cons b rest ih =>
      by_cases here : needle <+: b :: rest
      · rw [find_cons_here here, Option.some.injEq] at found
        subst found
        exact here
      · rw [find_cons_skip here, Option.map_eq_some_iff] at found
        obtain ⟨j, inner, rfl⟩ := found
        rw [List.drop_succ_cons]
        exact ih inner

/-- The first occurrence, as a way to split the text. -/
theorem find_eq_some_iff {needle s : Bytes} {k : Nat} :
    find needle s = some k ↔ ∃ front rest, s = front ++ (needle ++ rest) ∧ front.length = k ∧
      ∀ i < front.length, ¬ needle <+: s.drop i := by
  constructor
  · intro found
    obtain ⟨rest, behind⟩ := find_occurs found
    have room := find_le_length found
    have length : (s.take k).length = k := List.length_take_of_le (by omega)
    refine ⟨s.take k, rest, ?_, length, ?_⟩
    · rw [behind, List.take_append_drop]
    · intro i before
      exact find_first found (length ▸ before)
  · intro ⟨front, rest, same, length, first⟩
    rw [same] at first ⊢
    rw [find_skip first, find_self_append, ← length]
    simp

theorem substr_append (front back : Bytes) : substr (front ++ back) front.length = some back := by
  simp [substr]

theorem substr_eq_some_iff {s t : Bytes} {pos : Nat} :
    substr s pos = some t ↔ pos ≤ s.length ∧ t = s.drop pos := by
  unfold substr
  split
  · simp [*, eq_comm]
  · simp [*]

theorem cString_of_nulFree {s : Bytes} (nulFree : 0 ∉ s) : cString s = s := by
  apply List.takeWhile_eq_self_iff.mpr
  intro b member
  simp only [ne_eq, decide_not, Bool.not_eq_true', decide_eq_false_iff_not]
  rintro rfl
  exact nulFree member

theorem cString_append_of_nulFree {front : Bytes} (nulFree : 0 ∉ front) (back : Bytes) :
    cString (front ++ back) = front ++ cString back := by
  apply List.takeWhile_append_of_pos
  intro b member
  simpa using fun same : b = 0 => nulFree (same ▸ member)

theorem cString_length_lt {s : Bytes} (nul : 0 ∈ s) : (cString s).length < s.length := by
  obtain ⟨front, back, same⟩ := List.append_of_mem nul
  induction front generalizing s with
  | nil => simp [same, cString]
  | cons b front ih =>
      by_cases stop : b = 0
      · simp [same, cString, stop]
      · have later := ih (s := front ++ 0 :: back) (by simp) rfl
        simpa [same, cString, stop] using later

theorem cString_append_of_nul {front : Bytes} (nul : 0 ∈ front) (back : Bytes) :
    cString (front ++ back) = cString front := by
  unfold cString
  rw [List.takeWhile_append, if_neg]
  exact Nat.ne_of_lt (cString_length_lt nul)

end ByteString
