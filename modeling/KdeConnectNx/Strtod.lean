import KdeConnectNx.DecimalLiterals
import KdeConnectNx.JsonText

/-!
# The replacement of strtod

Every real number of a packet is read by this loop over its digits, in doubles, here as
exact rationals; the exponent is collected in an `int` and cut to 308 afterwards.
-/

namespace KdeConnectNx.Strtod

open DecimalLiterals

def isBlank (c : UInt8) : Bool := c == 32 || c == 9 || c == 10 || c == 13

def isDigit (c : UInt8) : Bool := decide (48 ≤ c.toNat) && decide (c.toNat ≤ 57)

/-- One of the loops over digits: the next state from the state and `*p++ - '0'`. -/
def overDigits {σ : Type} (next : σ → ℕ → σ) : σ → List UInt8 → σ × List UInt8
  | s, [] => (s, [])
  | s, c :: p => if isDigit c then overDigits next (next s (c.toNat - 48)) p else (s, c :: p)

/-- A sign, if there is one. -/
def readSign (s : List UInt8) : ℤ × List UInt8 :=
  if s.head? = some 45 then (-1, s.tail)
  else if s.head? = some 43 then (1, s.tail)
  else (1, s)

def integerPart (p : List UInt8) : ℚ × List UInt8 := overDigits (fun val d => val * 10 + d) 0 p

/-- The state is `val` and `place`. -/
def fractionPart (val : ℚ) (p : List UInt8) : ℚ × List UInt8 :=
  if p.head? = some 46 then
    let r := overDigits (fun (s : ℚ × ℚ) d => (s.1 + d * s.2, s.2 * (1 / 10))) (val, 1 / 10) p.tail
    (r.1.1, r.2)
  else (val, p)

/-- The value of an `int` expression; none where it overflows. -/
def int (n : ℤ) : Option ℤ := if -2147483648 ≤ n ∧ n ≤ 2147483647 then some n else none

/-- `exp = exp * 10 + (*p++ - '0')`. -/
def accumulate (exp : Option ℤ) (d : ℕ) : Option ℤ :=
  (exp.bind fun exp => int (exp * 10)).bind fun exp => int (exp + d)

/-- The loop up to `exp`. -/
def pow10 (exp : ℤ) : ℚ := (· * 10)^[exp.toNat] 1

def exponentPart (val : ℚ) (p : List UInt8) : Option (ℚ × List UInt8) :=
  if p.head? = some 101 ∨ p.head? = some 69 then
    let esign := readSign p.tail
    let r := overDigits accumulate (some 0) esign.2
    r.1.map fun exp =>
      let exp := if 308 < exp then 308 else exp
      (if 0 < esign.1 then val * pow10 exp else val / pow10 exp, r.2)
  else some (val, p)

/-- The value and what is behind `*endptr`. A string ends where the list does. -/
def wrapStrtod (s : List UInt8) : Option (ℚ × List UInt8) :=
  let sign := readSign (s.dropWhile isBlank)
  let integer := integerPart sign.2
  let fraction := fractionPart integer.1 integer.2
  (exponentPart fraction.1 fraction.2).map fun r => (sign.1 * r.1, r.2)

section Loops

variable {σ : Type} (next : σ → ℕ → σ) (s : σ) {rest : List UInt8}

theorem toNat_digitByte (d : Fin 10) : (digitByte d).toNat = 48 + d := by
  rw [digitByte, UInt8.toNat_ofNat', Nat.mod_eq_of_lt (by omega)]

theorem isDigit_digitByte (d : Fin 10) : isDigit (digitByte d) = true := by
  rw [isDigit, toNat_digitByte, Bool.and_eq_true, decide_eq_true_eq, decide_eq_true_eq]
  omega

/-- A loop goes through digits and stops behind them. -/
theorem overDigits_append (digits : List (Fin 10)) (h : ∀ c ∈ rest.head?, isDigit c = false) :
    overDigits next s (digits.map digitByte ++ rest) =
      ((digits.map Fin.val).foldl next s, rest) := by
  induction digits generalizing s with
  | nil =>
    cases rest with
    | nil => rfl
    | cons c rest =>
      have hc : ¬ isDigit c = true := by
        rw [h c rfl]
        exact Bool.false_ne_true
      exact if_neg hc
  | cons d digits ih =>
    have hval : (digitByte d).toNat - 48 = d := by
      rw [toNat_digitByte, Nat.add_sub_cancel_left]
    rw [List.map_cons, List.cons_append, overDigits, if_pos (isDigit_digitByte d), hval, ih]
    rfl

end Loops

section Exponents

theorem int_of_range {n : ℤ} (hlow : 0 ≤ n) (hhigh : n ≤ 2147483647) : int n = some n :=
  if_pos ⟨by omega, hhigh⟩

theorem int_of_lt {n : ℤ} (h : 2147483647 < n) : int n = none :=
  if_neg fun hrange => absurd hrange.2 (by omega)

/-- What is over stays over. -/
theorem foldl_accumulate_none (digits : List ℕ) : digits.foldl accumulate none = none := by
  induction digits with
  | nil => rfl
  | cons d digits ih => exact ih

theorem accumulate_some {exp : ℤ} (h : 0 ≤ exp) (d : ℕ) :
    accumulate (some exp) d = int (exp * 10 + d) := by
  rw [accumulate, Option.bind_some]
  by_cases hten : exp * 10 ≤ 2147483647
  · rw [int_of_range (by omega) hten, Option.bind_some]
  · rw [int_of_lt (by omega), int_of_lt (by omega), Option.bind_none]

/-- The accumulation is that of the number, as long as that is an `int`: the numbers on the
way are not greater. -/
theorem foldl_accumulate (digits : List ℕ) {exp : ℤ} (h : 0 ≤ exp) (hexp : exp ≤ 2147483647) :
    digits.foldl accumulate (some exp) =
      int (exp * 10 ^ digits.length + (number 10 digits : ℕ)) := by
  induction digits generalizing exp with
  | nil =>
    have hsame : exp * 10 ^ ([] : List ℕ).length + (number 10 [] : ℕ) = exp := by
      rw [List.length_nil, pow_zero, mul_one, number, List.reverse_nil, Nat.ofDigits_nil,
        Nat.cast_zero, add_zero]
    rw [List.foldl_nil, hsame, int_of_range h hexp]
  | cons d digits ih =>
    have hsplit : exp * 10 ^ (d :: digits).length + (number 10 (d :: digits) : ℕ) =
        (exp * 10 + d) * 10 ^ digits.length + (number 10 digits : ℕ) := by
      rw [number_cons, List.length_cons]
      push_cast
      ring
    have hgrows : exp * 10 + d ≤ (exp * 10 + d) * 10 ^ digits.length :=
      le_mul_of_one_le_right (by omega) (one_le_pow₀ (by norm_num))
    rw [List.foldl_cons, accumulate_some h, hsplit]
    by_cases hfits : exp * 10 + d ≤ 2147483647
    · rw [int_of_range (by omega) hfits, ih (by omega) hfits]
    · rw [int_of_lt (by omega), foldl_accumulate_none, int_of_lt (by omega)]

theorem pow10_eq (n : ℕ) : pow10 n = 10 ^ n := by
  rw [pow10, Int.toNat_natCast, mul_right_iterate]
  exact one_mul _

end Exponents

section Texts

variable {l : Literal} {rest : List UInt8}

theorem digitByte_ne (d : Fin 10) {c : UInt8} (h : c.toNat < 48) : digitByte d ≠ c := by
  rintro rfl
  rw [toNat_digitByte] at h
  omega

/-- Digits have no sign in front of them. -/
theorem readSign_digits {digits : List (Fin 10)} (h : digits ≠ []) :
    readSign (digits.map digitByte ++ rest) = (1, digits.map digitByte ++ rest) := by
  obtain ⟨d, digits, rfl⟩ := List.exists_cons_of_ne_nil h
  have hminus : some (digitByte d) ≠ some 45 :=
    fun heq => digitByte_ne d (by decide) (Option.some.inj heq)
  have hplus : some (digitByte d) ≠ some 43 :=
    fun heq => digitByte_ne d (by decide) (Option.some.inj heq)
  rw [List.map_cons, List.cons_append, readSign, List.head?_cons, if_neg hminus, if_neg hplus]

/-- White space is in front of no literal. -/
theorem dropWhile_text : (l.text ++ rest).dropWhile isBlank = l.text ++ rest := by
  obtain ⟨d, digits, hinteger⟩ := List.exists_cons_of_ne_nil l.integer_ne
  have hd : isBlank (digitByte d) = false := by
    have hspace := digitByte_ne d (c := 32) (by decide)
    have htab := digitByte_ne d (c := 9) (by decide)
    have hline := digitByte_ne d (c := 10) (by decide)
    have hreturn := digitByte_ne d (c := 13) (by decide)
    simp only [isBlank, Bool.or_eq_false_iff, beq_eq_false_iff_ne]
    exact ⟨⟨⟨hspace, htab⟩, hline⟩, hreturn⟩
  unfold Literal.text
  cases l.negative with
  | true => exact List.dropWhile_cons_of_neg (by decide)
  | false =>
    rw [hinteger]
    exact List.dropWhile_cons_of_neg (by rw [hd]; exact Bool.false_ne_true)

theorem readSign_text : readSign (l.text ++ rest) =
    (if l.negative then -1 else 1,
      l.integer.map digitByte ++ (l.fractionText ++ (l.exponentText ++ rest))) := by
  have htail : l.integer.map digitByte ++ (l.fractionText ++ l.exponentText) ++ rest =
      l.integer.map digitByte ++ (l.fractionText ++ (l.exponentText ++ rest)) := by
    rw [List.append_assoc, List.append_assoc]
  unfold Literal.text
  cases l.negative with
  | true =>
    change ((-1 : ℤ), l.integer.map digitByte ++ (l.fractionText ++ l.exponentText) ++ rest) = _
    rw [htail]
    rfl
  | false =>
    change readSign (l.integer.map digitByte ++ (l.fractionText ++ l.exponentText) ++ rest) = _
    rw [htail]
    exact readSign_digits l.integer_ne

theorem notDigit_of_endsBefore (h : l.EndsBefore rest) : ∀ c ∈ rest.head?, isDigit c = false := by
  intro c hc
  exact (Bool.or_eq_false_iff.mp (h c hc)).1

/-- The exponent begins with no digit, nor does what is behind a literal without one. -/
theorem notDigit_exponent (h : l.EndsBefore rest) :
    ∀ c ∈ (l.exponentText ++ rest).head?, isDigit c = false := by
  unfold Literal.exponentText
  cases l.exponent with
  | none => exact notDigit_of_endsBefore h
  | some e =>
    intro c hc
    obtain rfl := Option.some.inj hc
    cases e.capital <;> rfl

theorem notDigit_fraction (h : l.EndsBefore rest) :
    ∀ c ∈ (l.fractionText ++ (l.exponentText ++ rest)).head?, isDigit c = false := by
  unfold Literal.fractionText
  split
  · exact notDigit_exponent h
  · intro c hc
    obtain rfl := Option.some.inj hc
    rfl

theorem integerPart_text (h : l.EndsBefore rest) :
    integerPart (l.integer.map digitByte ++ (l.fractionText ++ (l.exponentText ++ rest))) =
      (((number 10 (l.integer.map Fin.val) : ℕ) : ℚ),
        l.fractionText ++ (l.exponentText ++ rest)) := by
  have hvalue := foldl_horner 10 (l.integer.map Fin.val) (0 : ℚ)
  rw [zero_mul, zero_add] at hvalue
  rw [integerPart, overDigits_append _ _ _ (notDigit_fraction h)]
  exact congrArg (·, _) hvalue

/-- A literal without a fraction is followed by no point. -/
theorem head_ne_point (h : l.EndsBefore rest) (hfraction : l.fraction = []) :
    (l.exponentText ++ rest).head? ≠ some 46 := by
  intro hpoint
  unfold Literal.exponentText at hpoint
  cases hexponent : l.exponent with
  | none =>
    rw [hexponent] at hpoint
    have hends := h 46 hpoint
    simp [Literal.goesOn, hexponent, hfraction] at hends
  | some e =>
    rw [hexponent] at hpoint
    have hletter := Option.some.inj hpoint
    revert hletter
    cases e.capital <;> decide

theorem fractionPart_text (h : l.EndsBefore rest) :
    fractionPart (number 10 (l.integer.map Fin.val) : ℕ)
        (l.fractionText ++ (l.exponentText ++ rest)) =
      (l.mantissa, l.exponentText ++ rest) := by
  unfold Literal.fractionText Literal.mantissa
  by_cases hfraction : l.fraction = []
  · rw [if_pos hfraction, List.nil_append, fractionPart, if_neg (head_ne_point h hfraction),
      hfraction, List.append_nil, List.length_nil, pow_zero, div_one]
  · have hten : ((10 : ℕ) : ℚ) ≠ 0 := by norm_num
    have hplaces := foldl_places hten (l.fraction.map Fin.val)
      (number 10 (l.integer.map Fin.val) : ℕ) (1 / 10)
    rw [List.length_map] at hplaces
    push_cast at hplaces
    rw [if_neg hfraction, List.cons_append, fractionPart, List.head?_cons, if_pos rfl,
      List.tail_cons, overDigits_append _ _ _ (notDigit_exponent h)]
    refine congrArg (·, _) (hplaces.trans ?_)
    rw [List.map_append, number_append, List.length_map]
    push_cast
    field_simp

/-- A sign in front of digits is read with its value. -/
theorem readSign_sign (sign : Sign) {digits : List (Fin 10)} (h : digits ≠ []) :
    readSign (sign.text ++ digits.map digitByte ++ rest) =
      (if sign = .minus then -1 else 1, digits.map digitByte ++ rest) := by
  cases sign with
  | absent => exact readSign_digits h
  | plus => rfl
  | minus => rfl

/-- `if (exp > 308) exp = 308`. -/
theorem cut_eq (n : ℕ) : (if (308 : ℤ) < n then 308 else (n : ℤ)) = (min 308 n : ℕ) := by
  split <;> omega

/-- The power is that of the cut exponent, if the exponent is an `int`. -/
theorem exponentPart_text (h : l.EndsBefore rest) (val : ℚ) :
    exponentPart val (l.exponentText ++ rest) =
      if l.magnitude ≤ 2147483647 then some (val * 10 ^ l.scale 308, rest) else none := by
  unfold Literal.exponentText Literal.scale
  cases hexponent : l.exponent with
  | none =>
    have hmagnitude : l.magnitude = 0 := by rw [Literal.magnitude, hexponent, Option.elim_none]
    have hletter : ¬ (rest.head? = some 101 ∨ rest.head? = some 69) := by
      rintro (he | he)
      · simpa [Literal.goesOn, hexponent] using h 101 he
      · simpa [Literal.goesOn, hexponent] using h 69 he
    rw [hmagnitude, if_pos (Nat.zero_le _), Option.elim_none, List.nil_append, exponentPart,
      if_neg hletter, Option.elim_none, if_neg (by decide), Nat.min_zero, Nat.cast_zero, zpow_zero,
      mul_one]
  | some e =>
    have hmagnitude : l.magnitude = number 10 (e.digits.map Fin.val) := by
      rw [Literal.magnitude, hexponent, Option.elim_some]
    have hletter : (e.text ++ rest).head? = some 101 ∨ (e.text ++ rest).head? = some 69 := by
      unfold Exponent.text
      cases e.capital with
      | true => exact .inr rfl
      | false => exact .inl rfl
    have htail : (e.text ++ rest).tail = e.sign.text ++ e.digits.map digitByte ++ rest := rfl
    have hnumber :=
      foldl_accumulate (e.digits.map Fin.val) le_rfl (by norm_num : (0 : ℤ) ≤ 2147483647)
    rw [zero_mul, zero_add, ← hmagnitude] at hnumber
    rw [Option.elim_some, Option.elim_some, exponentPart, if_pos hletter, htail,
      readSign_sign e.sign e.digits_ne]
    dsimp only
    rw [overDigits_append _ _ _ (notDigit_of_endsBefore h), hnumber]
    by_cases hfits : l.magnitude ≤ 2147483647
    · rw [int_of_range (by omega) (by omega), if_pos hfits, Option.map_some, cut_eq, pow10_eq]
      by_cases hminus : e.sign = .minus
      · rw [if_pos hminus, if_pos hminus, if_neg (by decide), zpow_neg, zpow_natCast,
          div_eq_mul_inv]
      · rw [if_neg hminus, if_neg hminus, if_pos (by decide), zpow_natCast]
    · rw [int_of_lt (by omega), if_neg hfits, Option.map_none]

/-- What is read of a literal. -/
theorem wrapStrtod_text (h : l.EndsBefore rest) :
    wrapStrtod (l.text ++ rest) =
      if l.magnitude ≤ 2147483647 then some (l.clamped 308, rest) else none := by
  unfold wrapStrtod
  dsimp only
  rw [dropWhile_text, readSign_text]
  dsimp only
  rw [integerPart_text h]
  dsimp only
  rw [fractionPart_text h]
  dsimp only
  rw [exponentPart_text h]
  have hsign : ((if l.negative then -1 else 1 : ℤ) : ℚ) = if l.negative then -1 else 1 := by
    split <;> norm_num
  by_cases hfits : l.magnitude ≤ 2147483647
  · rw [if_pos hfits, if_pos hfits, Option.map_some, Literal.clamped, mul_assoc, hsign]
  · rw [if_neg hfits, if_neg hfits, Option.map_none]

end Texts

/-- A literal is read to its end with its value, the exponent cut to 308, exactly when the
number behind the `e` is an `int`. -/
theorem wrapStrtod_iff (l : Literal) (rest : List UInt8) (h : l.EndsBefore rest) :
    wrapStrtod (l.text ++ rest) = some (l.clamped 308, rest) ↔ l.magnitude ≤ 2147483647 := by
  rw [wrapStrtod_text h]
  split
  · next hfits => exact iff_of_true rfl hfits
  · next hover => exact iff_of_false nofun hover

/-- `-12.50e+3`. -/
def minusWithExponent : Literal where
  negative := true
  integer := [1, 2]
  fraction := [5, 0]
  exponent := some { capital := false, sign := .plus, digits := [3], digits_ne := by decide }
  integer_ne := by decide
  no_leading_zero := by decide

theorem wrapStrtod_minusWithExponent :
    wrapStrtod (JsonText.utf8 "-12.50e+3,".toList) = some (-12500, JsonText.utf8 ",".toList) := by
  have hends : minusWithExponent.EndsBefore [44] := by
    intro c hc
    obtain rfl := Option.some.inj hc
    decide
  have hread := (wrapStrtod_iff minusWithExponent [44] hends).mpr (by decide)
  have htext : minusWithExponent.text ++ [44] = JsonText.utf8 "-12.50e+3,".toList := by decide
  have hvalue : minusWithExponent.clamped 308 = -12500 := by
    have hnumber : number 10 ((minusWithExponent.integer ++ minusWithExponent.fraction).map
        Fin.val) =
        1250 := by decide
    have hmantissa : minusWithExponent.mantissa = 1250 / 10 ^ 2 := by
      rw [Literal.mantissa, hnumber]
      rfl
    have hscale : minusWithExponent.scale 308 = (3 : ℕ) := by decide
    rw [Literal.clamped, hmantissa, hscale, zpow_natCast, minusWithExponent]
    norm_num
  rw [htext, hvalue] at hread
  exact hread

/-- `1e2147483648`. -/
def exponentOver : Literal where
  negative := false
  integer := [1]
  fraction := []
  exponent := some
    { capital := false, sign := .absent, digits := [2, 1, 4, 7, 4, 8, 3, 6, 4, 8],
      digits_ne := by decide }
  integer_ne := by decide
  no_leading_zero := by decide

/-- The exponent overflows before it is cut. -/
theorem notRead_exponentOver :
    ¬ ∀ (l : Literal) (rest : List UInt8), l.EndsBefore rest →
      wrapStrtod (l.text ++ rest) = some (l.clamped 308, rest) := by
  intro h
  have hends : exponentOver.EndsBefore [] := fun c hc => by cases hc
  have hread := h exponentOver [] hends
  have hover : ¬ exponentOver.magnitude ≤ 2147483647 := by decide
  rw [wrapStrtod_text hends, if_neg hover] at hread
  cases hread

end KdeConnectNx.Strtod
