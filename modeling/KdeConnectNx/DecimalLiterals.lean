import Mathlib.Algebra.Field.Rat
import Mathlib.Data.Nat.Digits.Defs
import Mathlib.Tactic.FieldSimp
import Mathlib.Tactic.Ring

/-!
# Decimal literals

The numbers of JSON as they are written, with their values. Digits that are gone through
from the left give their number in the usual two ways: the sum so far times the base, or
each digit times the value of its place.
-/

namespace KdeConnectNx.DecimalLiterals

section Digits

/-- The number of these digits, the highest first. -/
def number (base : ℕ) (digits : List ℕ) : ℕ := Nat.ofDigits base digits.reverse

theorem number_cons (base d : ℕ) (digits : List ℕ) :
    number base (d :: digits) = d * base ^ digits.length + number base digits := by
  rw [number, Nat.ofDigits_reverse_cons, Nat.add_comm, Nat.mul_comm]
  rfl

theorem number_append (base : ℕ) (first second : List ℕ) :
    number base (first ++ second) =
      number base first * base ^ second.length + number base second := by
  rw [number, List.reverse_append, Nat.ofDigits_append, List.length_reverse, Nat.add_comm,
    Nat.mul_comm]
  rfl

/-- Multiplied by the base before each digit is added. -/
theorem foldl_horner {R : Type*} [CommSemiring R] (base : ℕ) (digits : List ℕ) (v : R) :
    digits.foldl (fun (v : R) (d : ℕ) => v * base + d) v =
      v * base ^ digits.length + (number base digits : ℕ) := by
  induction digits generalizing v with
  | nil =>
    rw [List.foldl_nil, List.length_nil, pow_zero, mul_one, number, List.reverse_nil,
      Nat.ofDigits_nil, Nat.cast_zero, add_zero]
  | cons d digits ih =>
    rw [List.foldl_cons, ih, number_cons, List.length_cons]
    push_cast
    ring

/-- Each digit times its place, from the place behind the point on. -/
theorem foldl_places {K : Type*} [Field K] {base : ℕ} (hbase : (base : K) ≠ 0) (digits : List ℕ)
    (v place : K) :
    (digits.foldl (fun (s : K × K) (d : ℕ) => (s.1 + d * s.2, s.2 * (1 / base))) (v, place)).1 =
      v + place * base * ((number base digits : ℕ) / base ^ digits.length) := by
  induction digits generalizing v place with
  | nil =>
    rw [List.foldl_nil, number, List.reverse_nil, Nat.ofDigits_nil, Nat.cast_zero, zero_div,
      mul_zero, add_zero]
  | cons d digits ih =>
    rw [List.foldl_cons, ih, number_cons, List.length_cons]
    push_cast
    field_simp
    ring

end Digits

/-- The sign in front of the digits of an exponent. -/
inductive Sign
  | absent
  | plus
  | minus
deriving DecidableEq, Repr

structure Exponent where
  capital : Bool
  sign : Sign
  digits : List (Fin 10)
  digits_ne : digits ≠ []

/-- A number of JSON. The point is there when there are digits behind it. -/
structure Literal where
  negative : Bool
  integer : List (Fin 10)
  fraction : List (Fin 10)
  exponent : Option Exponent
  integer_ne : integer ≠ []
  no_leading_zero : integer.head? = some 0 → integer = [0]

def digitByte (d : Fin 10) : UInt8 := UInt8.ofNat (48 + d)

def Sign.text : Sign → List UInt8
  | absent => []
  | plus => [43]
  | minus => [45]

def Exponent.text (e : Exponent) : List UInt8 :=
  (if e.capital then 69 else 101) :: (e.sign.text ++ e.digits.map digitByte)

namespace Literal

variable (l : Literal)

def fractionText : List UInt8 :=
  if l.fraction = [] then [] else 46 :: l.fraction.map digitByte

def exponentText : List UInt8 := l.exponent.elim [] Exponent.text

/-- The literal in ASCII. -/
def text : List UInt8 :=
  (if l.negative then [45] else []) ++
    (l.integer.map digitByte ++ (l.fractionText ++ l.exponentText))

/-- The number in front of the exponent, without its sign. -/
def mantissa : ℚ :=
  (number 10 ((l.integer ++ l.fraction).map Fin.val) : ℕ) / 10 ^ l.fraction.length

/-- The number behind the `e`, without its sign. -/
def magnitude : ℕ := l.exponent.elim 0 fun e => number 10 (e.digits.map Fin.val)

/-- The power of ten the exponent stands for, up to a bound. -/
def scale (bound : ℕ) : ℤ :=
  if (l.exponent.elim .absent Exponent.sign) = .minus then -(min bound l.magnitude : ℕ)
  else (min bound l.magnitude : ℕ)

/-- The value of the literal with an exponent of at most the bound. -/
def clamped (bound : ℕ) : ℚ := (if l.negative then -1 else 1) * l.mantissa * 10 ^ l.scale bound

/-- The literal could go on with this byte. -/
def goesOn (c : UInt8) : Bool :=
  (decide (48 ≤ c.toNat) && decide (c.toNat ≤ 57)) ||
    (l.exponent.isNone && (c == 101 || c == 69 || (l.fraction.isEmpty && c == 46)))

/-- The literal ends where this text begins. -/
def EndsBefore (rest : List UInt8) : Prop := ∀ c ∈ rest.head?, l.goesOn c = false

end Literal

end KdeConnectNx.DecimalLiterals
