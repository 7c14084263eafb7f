import Mathlib.Data.Nat.Notation
import Mathlib.Data.List.Basic

/-!
# PEM texts

Base64 in lines of 64 characters between a header and a footer. What is needed of
such a text is its length, by the number of bytes that are encoded, and that it is a
C string.
-/

namespace KdeConnectNx.Pem

/-- The character for six bits. -/
def digit (n : ℕ) : UInt8 :=
  if n < 26 then UInt8.ofNat (65 + n)
  else if n < 52 then UInt8.ofNat (71 + n)
  else if n < 62 then UInt8.ofNat (n - 4)
  else if n = 62 then 43
  else 47

/-- Four characters for three bytes, padded at the end. -/
def base64 : List UInt8 → List UInt8
  | [] => []
  | [a] => [digit (a.toNat / 4), digit (a.toNat % 4 * 16), 61, 61]
  | [a, b] =>
    [digit (a.toNat / 4), digit (a.toNat % 4 * 16 + b.toNat / 16), digit (b.toNat % 16 * 4), 61]
  | a :: b :: c :: rest =>
    digit (a.toNat / 4) :: digit (a.toNat % 4 * 16 + b.toNat / 16) ::
      digit (b.toNat % 16 * 4 + c.toNat / 64) :: digit (c.toNat % 64) :: base64 rest

/-- A line feed behind every line of this width, and behind the last one, from a column
on. -/
def wrap (width : ℕ) : ℕ → List UInt8 → List UInt8
  | column, [] => if column = 0 then [] else [10]
  | column, b :: rest =>
    if column + 1 = width then b :: 10 :: wrap width 0 rest else b :: wrap width (column + 1) rest

/-- The text for these bytes; header and footer end in a line feed. -/
def text (header footer der : List UInt8) : List UInt8 :=
  header ++ wrap 64 0 (base64 der) ++ footer

/-- Four characters for every three bytes that were begun. -/
theorem length_base64 (der : List UInt8) : (base64 der).length = 4 * ((der.length + 2) / 3) := by
  induction der using base64.induct with
  | case1 => rfl
  | case2 a => simp [base64]
  | case3 a b => simp [base64]
  | case4 a b c rest ih =>
    simp only [base64, List.length_cons, ih]
    omega

/-- A line end is added for every `width` bytes that were begun, counted from where the line
stands. -/
theorem length_wrap {width column : ℕ} (h : column < width) (bytes : List UInt8) :
    (wrap width column bytes).length =
      bytes.length + (column + bytes.length + (width - 1)) / width := by
  induction bytes generalizing column with
  | nil =>
    rw [wrap, List.length_nil]
    by_cases hzero : column = 0
    · have hnone : (column + 0 + (width - 1)) / width = 0 := Nat.div_eq_of_lt (by omega)
      rw [if_pos hzero, hnone]
      rfl
    · have hone : (column + 0 + (width - 1)) / width = 1 :=
        Nat.div_eq_of_lt_le (by omega) (by omega)
      rw [if_neg hzero, hone]
      rfl
  | cons b rest ih =>
    rw [wrap, List.length_cons]
    by_cases hfull : column + 1 = width
    · have hsum : column + (rest.length + 1) + (width - 1) =
          0 + rest.length + (width - 1) + width := by omega
      have hpos : 0 < width := by omega
      rw [if_pos hfull, List.length_cons, List.length_cons, ih hpos, hsum,
        Nat.add_div_right _ hpos]
      omega
    · have hsum : column + 1 + rest.length + (width - 1) =
          column + (rest.length + 1) + (width - 1) := by omega
      rw [if_neg hfull, List.length_cons, ih (by omega), hsum]
      omega

/-- The lines of a PEM text are 64 characters long. -/
theorem length_text (header footer der : List UInt8) : (text header footer der).length =
    header.length + footer.length + 4 * ((der.length + 2) / 3) +
      (4 * ((der.length + 2) / 3) + 63) / 64 := by
  rw [text, List.length_append, List.length_append, length_wrap (by omega), length_base64,
    Nat.zero_add]
  omega

/-- No character of the alphabet ends a C string. -/
theorem digit_ne_zero {n : ℕ} (h : n < 64) : digit n ≠ 0 := by
  have hall : ∀ n < 64, digit n ≠ 0 := by decide
  exact hall n h

/-- The alphabet has no NUL. -/
theorem base64_ne_zero (der : List UInt8) : ∀ b ∈ base64 der, b ≠ 0 := by
  have hbyte : ∀ a : UInt8, a.toNat < 256 := UInt8.toNat_lt
  induction der using base64.induct with
  | case1 =>
    intro b h
    cases h
  | case2 a =>
    have := hbyte a
    rw [base64]
    simp only [List.forall_mem_cons]
    exact ⟨digit_ne_zero (by omega), digit_ne_zero (by omega), by decide, by decide, nofun⟩
  | case3 a b =>
    have := hbyte a
    have := hbyte b
    rw [base64]
    simp only [List.forall_mem_cons]
    exact ⟨digit_ne_zero (by omega), digit_ne_zero (by omega), digit_ne_zero (by omega),
      by decide, nofun⟩
  | case4 a b c rest ih =>
    have := hbyte a
    have := hbyte b
    have := hbyte c
    rw [base64]
    simp only [List.forall_mem_cons]
    exact ⟨digit_ne_zero (by omega), digit_ne_zero (by omega), digit_ne_zero (by omega),
      digit_ne_zero (by omega), ih⟩

/-- Breaking into lines brings in no NUL. -/
theorem wrap_ne_zero {bytes : List UInt8} (h : ∀ b ∈ bytes, b ≠ 0) (width column : ℕ) :
    ∀ b ∈ wrap width column bytes, b ≠ 0 := by
  induction bytes generalizing column with
  | nil =>
    rw [wrap]
    split
    · nofun
    · simp
  | cons a rest ih =>
    rw [List.forall_mem_cons] at h
    rw [wrap]
    split
    · simp only [List.forall_mem_cons]
      exact ⟨h.1, by decide, ih h.2 0⟩
    · rw [List.forall_mem_cons]
      exact ⟨h.1, ih h.2 _⟩

/-- So a PEM text is a C string. -/
theorem text_ne_zero {header footer : List UInt8} (hheader : ∀ b ∈ header, b ≠ 0)
    (hfooter : ∀ b ∈ footer, b ≠ 0) (der : List UInt8) :
    ∀ b ∈ text header footer der, b ≠ 0 := by
  rw [text, List.forall_mem_append, List.forall_mem_append]
  exact ⟨⟨hheader, wrap_ne_zero (base64_ne_zero der) 64 0⟩, hfooter⟩

end KdeConnectNx.Pem
