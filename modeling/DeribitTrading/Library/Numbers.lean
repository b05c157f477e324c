import Mathlib.Data.Nat.Digits.Defs
import DeribitTrading.Library.ByteString

/-!
Machine numbers: binary64 values with the two conversions programs apply to
them, and checked 64-bit signed arithmetic. A finite double is kept as sign,
mantissa and exponent, so every conversion is exact and computable.
-/
namespace Numbers
open ByteString

/-- `finite s m e` is `±m·2^e`. Nothing below needs the mantissa to be normalised. -/
inductive Double where
  | finite (negative : Bool) (mantissa : Nat) (exponent : Int)
  | infinity (negative : Bool)
  | nan (negative : Bool)
  deriving DecidableEq, Repr

/-- The quotient rounded to nearest, ties to even. -/
def roundedQuotient (a b : Nat) : Nat :=
  if 2 * (a % b) < b then a / b
  else if b < 2 * (a % b) then a / b + 1
  else a / b + a / b % 2

/-- `m·2^e` in units of `10^-6`. -/
def micros (mantissa : Nat) : Int → Nat
  | .ofNat k => mantissa * 2 ^ k * 10 ^ 6
  | .negSucc k => roundedQuotient (mantissa * 10 ^ 6) (2 ^ (k + 1))

def digitByte (d : Nat) : UInt8 := UInt8.ofNat (48 + d % 10)

def decimal (n : Nat) : Bytes :=
  if n = 0 then [digitByte 0] else (Nat.digits 10 n).reverse.map digitByte

def sixDigits (n : Nat) : Bytes := [5, 4, 3, 2, 1, 0].map fun i => digitByte (n / 10 ^ i)

def signBytes (negative : Bool) : Bytes := if negative then bytes "-" else []

/-- `std::to_string(double)`, that is `printf("%f")`: six decimals. -/
def Double.toString : Double → Bytes
  | .finite negative mantissa exponent =>
      signBytes negative ++ decimal (micros mantissa exponent / 10 ^ 6) ++ bytes "." ++
        sixDigits (micros mantissa exponent % 10 ^ 6)
  | .infinity negative => signBytes negative ++ bytes "inf"
  | .nan negative => signBytes negative ++ bytes "nan"

example : (Double.finite true 5 (-1)).toString = bytes "-2.500000" := by decide

/-- The bytes a printed number can hold. -/
def numeralBytes : Bytes := bytes "-.0123456789infa"

theorem digitByte_numeral (d : Nat) : digitByte d ∈ numeralBytes := by
  have all : ∀ k < 10, UInt8.ofNat (48 + k) ∈ numeralBytes := by decide +kernel
  exact all _ (Nat.mod_lt d (by decide))

theorem signBytes_numeral (negative : Bool) : ∀ b ∈ signBytes negative, b ∈ numeralBytes := by
  cases negative <;> decide +kernel

theorem decimal_numeral (n : Nat) : ∀ b ∈ decimal n, b ∈ numeralBytes := by
  intro b member
  unfold decimal at member
  split at member
  · rw [List.mem_singleton.mp member]
    exact digitByte_numeral 0
  · obtain ⟨d, _, rfl⟩ := List.mem_map.mp member
    exact digitByte_numeral d

theorem sixDigits_numeral (n : Nat) : ∀ b ∈ sixDigits n, b ∈ numeralBytes := by
  intro b member
  obtain ⟨i, _, rfl⟩ := List.mem_map.mp member
  exact digitByte_numeral _

theorem Double.toString_numeral (d : Double) : ∀ b ∈ d.toString, b ∈ numeralBytes := by
  intro b member
  cases d with
  | finite negative mantissa exponent =>
      simp only [Double.toString, List.mem_append] at member
      rcases member with ((sign | whole) | point) | fraction
      · exact signBytes_numeral negative b sign
      · exact decimal_numeral _ b whole
      · exact (by decide +kernel : ∀ b ∈ bytes ".", b ∈ numeralBytes) b point
      · exact sixDigits_numeral _ b fraction
  | infinity negative =>
      rcases List.mem_append.mp member with sign | name
      · exact signBytes_numeral negative b sign
      · exact (by decide +kernel : ∀ b ∈ bytes "inf", b ∈ numeralBytes) b name
  | nan negative =>
      rcases List.mem_append.mp member with sign | name
      · exact signBytes_numeral negative b sign
      · exact (by decide +kernel : ∀ b ∈ bytes "nan", b ∈ numeralBytes) b name

/-- An integer as an `int64_t`, when it fits. -/
def toInt64 (n : Int) : Option Int64 :=
  if -2 ^ 63 ≤ n ∧ n < 2 ^ 63 then some (Int64.ofInt n) else none

/-- The value of a double with its fraction cut off. -/
def Double.truncate : Double → Option Int
  | .finite negative mantissa exponent =>
      let magnitude : Nat := match exponent with
        | .ofNat k => mantissa * 2 ^ k
        | .negSucc k => mantissa / 2 ^ (k + 1)
      some (if negative then -magnitude else magnitude)
  | .infinity _ | .nan _ => none

/-- `static_cast<int64_t>`; `none` where the cast is undefined. -/
def Double.toInt64 (d : Double) : Option Int64 := d.truncate.bind Numbers.toInt64

/-- Signed subtraction; `none` where it overflows, which is undefined. -/
def subInt64 (a b : Int64) : Option Int64 := toInt64 (a.toInt - b.toInt)

theorem toInt64_isSome_iff (n : Int) : (toInt64 n).isSome ↔ -2 ^ 63 ≤ n ∧ n < 2 ^ 63 := by
  unfold toInt64
  split
  · simpa only [Option.isSome_some, true_iff] using ‹_›
  · simpa only [Option.isSome_none, Bool.false_eq_true, false_iff] using ‹_›

theorem toInt64_eq_some_iff (z : Int) (n : Int64) : toInt64 z = some n ↔ n.toInt = z := by
  unfold toInt64
  constructor
  · intro converted
    split at converted
    · rename_i fits
      cases converted
      exact Int64.toInt_ofInt_of_le fits.1 fits.2
    · cases converted
  · rintro rfl
    rw [if_pos ⟨n.le_toInt, n.toInt_lt⟩, Int64.ofInt_toInt]

theorem Double.toInt64_eq_some_iff (d : Double) (n : Int64) :
    d.toInt64 = some n ↔ d.truncate = some n.toInt := by
  simp only [Double.toInt64, Option.bind_eq_some_iff, Numbers.toInt64_eq_some_iff]
  constructor
  · rintro ⟨z, cut, rfl⟩
    exact cut
  · intro cut
    exact ⟨_, cut, rfl⟩

theorem subInt64_isSome_iff (a b : Int64) :
    (subInt64 a b).isSome ↔ -2 ^ 63 ≤ a.toInt - b.toInt ∧ a.toInt - b.toInt < 2 ^ 63 :=
  toInt64_isSome_iff _

end Numbers
