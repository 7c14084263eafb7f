import Mathlib.Data.Int.Log
import Mathlib.Data.Rat.Floor
import Mathlib.Tactic.Linarith

/-!
# Rounding to binary floating-point numbers

Numbers with so many fraction bits behind a leading one and any exponent, the
rounding of a rational to the nearest of them with ties to even, and the
operations that round the exact result. Zero is such a number; infinities,
signed zeros and the range of the exponent are left out, so results outside of
the range of a format have to be excluded or absorbed where it is used.
-/

namespace KdeConnectNx.BinaryRounding

/-- The nearest integer, the even one of two. -/
def nearestEven (q : ℚ) : ℤ :=
  if 2 * (q - ⌊q⌋) < 1 then ⌊q⌋
  else if 1 < 2 * (q - ⌊q⌋) then ⌊q⌋ + 1
  else ⌊q⌋ + ⌊q⌋ % 2

/-- An integer is its own nearest one. -/
@[simp] theorem nearestEven_intCast (n : ℤ) : nearestEven n = n := by
  simp [nearestEven]

/-- It is one of the two integers around. -/
theorem nearestEven_mem (q : ℚ) : ⌊q⌋ ≤ nearestEven q ∧ nearestEven q ≤ ⌊q⌋ + 1 := by
  unfold nearestEven
  split_ifs <;> omega

/-- What is not below an integer is not rounded below it, -/
theorem le_nearestEven {n : ℤ} {q : ℚ} (h : (n : ℚ) ≤ q) : n ≤ nearestEven q :=
  (Int.le_floor.mpr h).trans (nearestEven_mem q).1

/-- and what is not above is not rounded above. -/
theorem nearestEven_le {n : ℤ} {q : ℚ} (h : q ≤ n) : nearestEven q ≤ n := by
  rcases h.eq_or_lt with rfl | hlt
  · rw [nearestEven_intCast]
  · have hfloor := Int.floor_lt.mpr hlt
    have habove := (nearestEven_mem q).2
    omega

/-- Rounding does not go below an integer. -/
theorem le_abs_nearestEven {n : ℕ} {q : ℚ} (h : (n : ℚ) ≤ |q|) : (n : ℤ) ≤ |nearestEven q| := by
  rcases le_abs.mp h with hpos | hneg
  · exact le_abs.mpr (.inl (le_nearestEven (by exact_mod_cast hpos)))
  · have hbelow : nearestEven q ≤ -(n : ℤ) := nearestEven_le (by push_cast; linarith)
    exact le_abs.mpr (.inr (by omega))

/-- Nor above one. -/
theorem abs_nearestEven_le {n : ℕ} {q : ℚ} (h : |q| ≤ n) : |nearestEven q| ≤ (n : ℤ) := by
  obtain ⟨hneg, hpos⟩ := abs_le.mp h
  refine abs_le.mpr ⟨?_, nearestEven_le (by exact_mod_cast hpos)⟩
  exact le_nearestEven (by push_cast; exact hneg)

variable (p : ℕ)

/-- The value of the last place of a number with `p` fraction bits. -/
def lastPlace (q : ℚ) : ℚ := 2 ^ (Int.log 2 |q| - p)

/-- The nearest number with `p` fraction bits. -/
def rounded (q : ℚ) : ℚ := nearestEven (q / lastPlace p q) * lastPlace p q

variable {p}

/-- The last place is a power of two. -/
theorem lastPlace_pos (q : ℚ) : 0 < lastPlace p q := zpow_pos two_pos _

/-- The last place goes by the leading bit. -/
theorem lastPlace_eq {q : ℚ} {e : ℤ} (hlow : (2 : ℚ) ^ e ≤ |q|) (hhigh : |q| < 2 ^ (e + 1)) :
    lastPlace p q = 2 ^ (e - p) := by
  have hpos : 0 < |q| := lt_of_lt_of_le (zpow_pos two_pos e) hlow
  have hle : e ≤ Int.log 2 |q| :=
    (Int.zpow_le_iff_le_log one_lt_two hpos).mp (by exact_mod_cast hlow)
  have hlt : Int.log 2 |q| < e + 1 :=
    (Int.lt_zpow_iff_log_lt one_lt_two hpos).mp (by exact_mod_cast hhigh)
  rw [lastPlace, show Int.log 2 |q| = e by omega]

/-- In last places a number has its leading bit before its fraction bits. -/
theorem abs_div_lastPlace {q : ℚ} (h : q ≠ 0) :
    ((2 ^ p : ℕ) : ℚ) ≤ |q / lastPlace p q| ∧ |q / lastPlace p q| < ((2 ^ (p + 1) : ℕ) : ℚ) := by
  have hpos : 0 < |q| := abs_pos.mpr h
  have hlow : (2 : ℚ) ^ Int.log 2 |q| ≤ |q| := by
    exact_mod_cast Int.zpow_log_le_self one_lt_two hpos
  have hhigh : |q| < (2 : ℚ) ^ (Int.log 2 |q| + 1) := by
    exact_mod_cast Int.lt_zpow_succ_log_self one_lt_two |q|
  rw [abs_div, abs_of_pos (lastPlace_pos q)]
  constructor
  · rw [le_div_iff₀ (lastPlace_pos q), lastPlace]
    push_cast
    rw [← zpow_natCast, ← zpow_add₀ two_ne_zero]
    simpa using hlow
  · rw [div_lt_iff₀ (lastPlace_pos q), lastPlace]
    push_cast
    rw [← zpow_natCast, ← zpow_add₀ two_ne_zero]
    refine hhigh.trans_eq (congrArg _ ?_)
    push_cast
    ring

/-- A whole number of last places is rounded to itself. -/
theorem rounded_of_whole {q : ℚ} {n : ℤ} (h : q = n * lastPlace p q) : rounded p q = q := by
  have hdiv : q / lastPlace p q = n := (div_eq_iff (lastPlace_pos q).ne').mpr h
  rw [rounded, hdiv, nearestEven_intCast, ← h]

/-- Zero is exact. -/
@[simp] theorem rounded_zero : rounded p 0 = 0 :=
  rounded_of_whole (n := 0) (by simp)

/-- Only zero is rounded to zero. -/
theorem rounded_eq_zero_iff {q : ℚ} : rounded p q = 0 ↔ q = 0 := by
  constructor
  · intro h
    by_contra hne
    rcases mul_eq_zero.mp h with hzero | hzero
    · have hlarge := le_abs_nearestEven (abs_div_lastPlace (p := p) hne).1
      rw [Int.cast_eq_zero.mp hzero, abs_zero] at hlarge
      have hpow := Nat.two_pow_pos p
      omega
    · exact (lastPlace_pos q).ne' hzero
  · rintro rfl
    exact rounded_zero

/-- What is rounded is left by rounding. -/
theorem rounded_rounded (q : ℚ) : rounded p (rounded p q) = rounded p q := by
  by_cases hq : q = 0
  · rw [hq, rounded_zero, rounded_zero]
  obtain ⟨hlow, hhigh⟩ := abs_div_lastPlace (p := p) hq
  have hleast := le_abs_nearestEven hlow
  have hmost := abs_nearestEven_le hhigh.le
  have hplaces : |rounded p q| =
      (|nearestEven (q / lastPlace p q)| : ℤ) * (2 : ℚ) ^ (Int.log 2 |q| - p) := by
    rw [rounded, abs_mul, abs_of_pos (lastPlace_pos q), ← Int.cast_abs, lastPlace]
  have hunit : (2 : ℚ) ^ (Int.log 2 |q|) = ((2 ^ p : ℕ) : ℤ) * (2 : ℚ) ^ (Int.log 2 |q| - p) := by
    push_cast
    rw [← zpow_natCast, ← zpow_add₀ two_ne_zero]
    congr 1
    ring
  have hpos : (0 : ℚ) < 2 ^ (Int.log 2 |q| - p) := zpow_pos two_pos _
  rcases hmost.lt_or_eq with hless | hfull
  · -- the leading bit stays where it was
    have hplace : lastPlace p (rounded p q) = lastPlace p q := by
      refine lastPlace_eq ?_ ?_
      · rw [hplaces, hunit]
        exact mul_le_mul_of_nonneg_right (by exact_mod_cast hleast) hpos.le
      · rw [hplaces, zpow_add_one₀ two_ne_zero, hunit, mul_right_comm]
        refine mul_lt_mul_of_pos_right ?_ hpos
        have hlt : (|nearestEven (q / lastPlace p q)| : ℤ) < ((2 ^ p : ℕ) : ℤ) * 2 := by
          rw [pow_succ] at hless
          exact_mod_cast hless
        exact_mod_cast hlt
    exact rounded_of_whole (n := nearestEven (q / lastPlace p q)) (by rw [hplace, rounded])
  · -- it was rounded up to the next power of two
    have hpower : |rounded p q| = 2 ^ (Int.log 2 |q| + 1) := by
      rw [hplaces, hfull, zpow_add_one₀ two_ne_zero, hunit, pow_succ]
      push_cast
      ring
    have hplace : lastPlace p (rounded p q) = 2 ^ (Int.log 2 |q| + 1 - p) := by
      refine lastPlace_eq hpower.ge ?_
      rw [hpower]
      exact zpow_lt_zpow_right₀ one_lt_two (Int.lt_succ _)
    have hwhole : (2 : ℚ) ^ (Int.log 2 |q| + 1) =
        ((2 ^ p : ℕ) : ℤ) * (2 : ℚ) ^ (Int.log 2 |q| + 1 - p) := by
      push_cast
      rw [← zpow_natCast, ← zpow_add₀ two_ne_zero]
      congr 1
      ring
    rcases abs_choice (rounded p q) with hsign | hsign
    · refine rounded_of_whole (n := ((2 ^ p : ℕ) : ℤ)) ?_
      rw [hplace, ← hwhole, ← hpower, hsign]
    · refine rounded_of_whole (n := -((2 ^ p : ℕ) : ℤ)) ?_
      rw [hplace, Int.cast_neg, neg_mul, ← hwhole, ← hpower, hsign, neg_neg]

/-- A number with `p` fraction bits. -/
structure Binary (p : ℕ) where
  value : ℚ
  exact : rounded p value = value

namespace Binary

/-- A number is its value. -/
theorem value_inj {a b : Binary p} : a.value = b.value ↔ a = b :=
  ⟨fun h => by cases a; cases b; congr, congrArg value⟩

instance : DecidableEq (Binary p) := fun _ _ => decidable_of_iff _ value_inj

/-- The number that an exact result is rounded to. -/
def ofRat (q : ℚ) : Binary p := ⟨rounded p q, rounded_rounded q⟩

def ofInt (n : ℤ) : Binary p := ofRat n

instance : Div (Binary p) := ⟨fun a b => ofRat (a.value / b.value)⟩

instance : Mul (Binary p) := ⟨fun a b => ofRat (a.value * b.value)⟩

/-- A fraction is rounded. -/
theorem ofRat_value (q : ℚ) : (ofRat q : Binary p).value = rounded p q := rfl

/-- So is a quotient. -/
theorem div_value (a b : Binary p) : (a / b).value = rounded p (a.value / b.value) := rfl

/-- So is a product. -/
theorem mul_value (a b : Binary p) : (a * b).value = rounded p (a.value * b.value) := rfl

/-- The integer part, towards zero. -/
def truncate (a : Binary p) : ℤ := if 0 ≤ a.value then ⌊a.value⌋ else ⌈a.value⌉

end Binary

end KdeConnectNx.BinaryRounding
