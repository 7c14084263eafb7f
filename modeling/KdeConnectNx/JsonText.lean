import Mathlib.Algebra.Group.Nat.Defs
import Mathlib.Data.List.TakeWhile
import Mathlib.Tactic.Common
import KdeConnectNx.JsonTree

/-!
# JSON text: one writer for every layout, and its reader

The writer is parameterised by the white space it puts before elements and
after colons, so that the compact and the indented form share one proof: the
reader skips white space and returns the canonical tree. Control characters
are always escaped. The reader covers integer documents; literals with a
fraction or an exponent and surrogate escapes are refused.
-/

namespace KdeConnectNx.JsonText

open JsonTree

/-- White space between tokens. -/
def isSpace (c : Char) : Bool := c == ' ' || c == '\n' || c == '\t' || c == '\r'

/-- White space a writer inserts. -/
structure Layout where
  /-- Written before an element or a closing bracket at this depth. -/
  line : ℕ → List Char
  /-- Written after the colon of a member. -/
  colon : List Char
  /-- Line breaks and indentation are white space. -/
  line_space : ∀ depth, ∀ c ∈ line depth, isSpace c = true
  /-- What follows a colon is white space. -/
  colon_space : ∀ c ∈ colon, isSpace c = true

/-- No white space at all. -/
def compact : Layout := ⟨fun _ => [], [], by simp, by simp⟩

/-- One element a line, two blanks a level, one blank after a colon. -/
def pretty : Layout where
  line := fun depth => '\n' :: List.replicate (2 * depth) ' '
  colon := [' ']
  line_space := by
    intro depth c hc
    rcases List.mem_cons.mp hc with rfl | hc
    · rfl
    · rw [List.eq_of_mem_replicate hc]
      rfl
  colon_space := by
    intro c hc
    rw [List.mem_singleton.mp hc]
    rfl

/-- Upper-case hexadecimal digit. -/
def hexDigit (n : ℕ) : Char := if n < 10 then Char.ofNat (48 + n) else Char.ofNat (55 + n)

/-- Value of a hexadecimal digit of either case. -/
def hexVal (c : Char) : Option ℕ :=
  if '0' ≤ c ∧ c ≤ '9' then some (c.toNat - 48)
  else if 'A' ≤ c ∧ c ≤ 'F' then some (c.toNat - 55)
  else if 'a' ≤ c ∧ c ≤ 'f' then some (c.toNat - 87)
  else none

/-- Letter of the two-character escape, for the characters that have one. -/
def shortEscape (c : Char) : Option Char :=
  if c = '"' then some '"'
  else if c = '\\' then some '\\'
  else if c = '\x08' then some 'b'
  else if c = '\x0c' then some 'f'
  else if c = '\n' then some 'n'
  else if c = '\r' then some 'r'
  else if c = '\t' then some 't'
  else none

/-- Character a two-character escape stands for. -/
def unescape (e : Char) : Option Char :=
  if e = '"' then some '"'
  else if e = '\\' then some '\\'
  else if e = '/' then some '/'
  else if e = 'b' then some '\x08'
  else if e = 'f' then some '\x0c'
  else if e = 'n' then some '\n'
  else if e = 'r' then some '\r'
  else if e = 't' then some '\t'
  else none

/-- One character inside a string literal. -/
def escChar (c : Char) : List Char :=
  match shortEscape c with
  | some e => ['\\', e]
  | none =>
    if c.toNat < 32 then ['\\', 'u', '0', '0', hexDigit (c.toNat / 16), hexDigit (c.toNat % 16)]
    else [c]

/-- A string literal with both quotes. -/
def quote (s : String) : List Char := '"' :: (s.toList.flatMap escChar ++ ['"'])

/-- Decimal digits of a natural number. -/
def natText (n : ℕ) : List Char := Nat.toDigits 10 n

/-- An integer as the writer prints it for its subtype. -/
def intText : IntKind → BitVec 64 → List Char
  | .uint, bits => natText bits.toNat
  | .sint, bits => if bits.msb then '-' :: natText bits.toInt.natAbs else natText bits.toNat

/-- Brackets around comma-separated pieces, each on its own line. -/
def enclose (layout : Layout) (depth : ℕ) (left right : Char) : List (List Char) → List Char
  | [] => [left, right]
  | piece :: pieces =>
    left :: (layout.line (depth + 1) ++ piece ++
      (pieces.flatMap fun p => ',' :: (layout.line (depth + 1) ++ p)) ++
      layout.line depth ++ [right])

mutual
/-- Text of a value at a depth. -/
def render (layout : Layout) (depth : ℕ) : Val → List Char
  | .null => ['n', 'u', 'l', 'l']
  | .bool true => ['t', 'r', 'u', 'e']
  | .bool false => ['f', 'a', 'l', 's', 'e']
  | .int kind bits => intText kind bits
  | .real _ => []
  | .str s => quote s
  | .arr items => enclose layout depth '[' ']' (renderItems layout (depth + 1) items)
  | .obj members => enclose layout depth '{' '}' (renderMembers layout (depth + 1) members)

/-- Texts of an array's items. -/
def renderItems (layout : Layout) (depth : ℕ) : List Val → List (List Char)
  | [] => []
  | v :: vs => render layout depth v :: renderItems layout depth vs

/-- Texts of an object's members, names included. -/
def renderMembers (layout : Layout) (depth : ℕ) : Members → List (List Char)
  | [] => []
  | (key, v) :: ms =>
    (quote key ++ ':' :: (layout.colon ++ render layout depth v)) :: renderMembers layout depth ms
end

/-- Input after its leading white space. -/
def skipSpace (cs : List Char) : List Char := cs.dropWhile isSpace

/-- The rest of a string literal after its opening quote. -/
def parseStr : List Char → Option (List Char × List Char)
  | '"' :: r => some ([], r)
  | '\\' :: 'u' :: a :: b :: c :: d :: r =>
    match hexVal a, hexVal b, hexVal c, hexVal d with
    | some w, some x, some y, some z =>
      let n := ((w * 16 + x) * 16 + y) * 16 + z
      if n < 0xD800 ∨ 0xDFFF < n then
        (parseStr r).map fun p => (Char.ofNat n :: p.1, p.2)
      else none
    | _, _, _, _ => none
  | '\\' :: e :: r =>
    match unescape e with
    | some c => (parseStr r).map fun p => (c :: p.1, p.2)
    | none => none
  | c :: r => if c.toNat < 32 then none else (parseStr r).map fun p => (c :: p.1, p.2)
  | [] => none

/-- Decimal digits and what follows them. -/
def parseNat (cs : List Char) : Option (ℕ × List Char) :=
  match cs.takeWhile Char.isDigit with
  | [] => none
  | d :: ds => some (Nat.ofDigitChars 10 (d :: ds) 0, cs.dropWhile Char.isDigit)

/-- An integer literal after its sign, as the smallest subtype that holds it. -/
def parseInt (negative : Bool) (cs : List Char) : Option (Val × List Char) :=
  match parseNat cs with
  | none => none
  | some (n, r) =>
    if negative then
      if n ≤ 2 ^ 63 then some (.int .sint (BitVec.ofInt 64 (-n)), r) else none
    else if n < 2 ^ 64 then some (.int .uint (BitVec.ofNat 64 n), r) else none

mutual
/-- One value and what follows it; the fuel bounds the nesting. -/
def parseVal : ℕ → List Char → Option (Val × List Char)
  | 0, _ => none
  | n + 1, cs =>
    match skipSpace cs with
    | 'n' :: 'u' :: 'l' :: 'l' :: r => some (.null, r)
    | 't' :: 'r' :: 'u' :: 'e' :: r => some (.bool true, r)
    | 'f' :: 'a' :: 'l' :: 's' :: 'e' :: r => some (.bool false, r)
    | '"' :: r => (parseStr r).map fun p => (.str (String.ofList p.1), p.2)
    | '[' :: r =>
      match skipSpace r with
      | ']' :: r' => some (.arr [], r')
      | _ => (parseItems n r).map fun p => (.arr p.1, p.2)
    | '{' :: r =>
      match skipSpace r with
      | '}' :: r' => some (.obj [], r')
      | _ => (parseMembers n r).map fun p => (.obj p.1, p.2)
    | '-' :: r => parseInt true r
    | r => parseInt false r

/-- The items of a nonempty array up to its closing bracket. -/
def parseItems : ℕ → List Char → Option (List Val × List Char)
  | 0, _ => none
  | n + 1, cs =>
    match parseVal n cs with
    | none => none
    | some (v, r) =>
      match skipSpace r with
      | ',' :: r' => (parseItems n r').map fun p => (v :: p.1, p.2)
      | ']' :: r' => some ([v], r')
      | _ => none

/-- The members of a nonempty object up to its closing brace. -/
def parseMembers : ℕ → List Char → Option (Members × List Char)
  | 0, _ => none
  | n + 1, cs =>
    match skipSpace cs with
    | '"' :: r =>
      match parseStr r with
      | none => none
      | some (key, r') =>
        match skipSpace r' with
        | ':' :: r'' =>
          match parseVal n r'' with
          | none => none
          | some (v, rest) =>
            match skipSpace rest with
            | ',' :: rest' =>
              (parseMembers n rest').map fun p => ((String.ofList key, v) :: p.1, p.2)
            | '}' :: rest' => some ([(String.ofList key, v)], rest')
            | _ => none
        | _ => none
    | _ => none
end

/-- A whole document: one value and white space around it. -/
def parse (cs : List Char) : Option Val :=
  match parseVal (cs.length + 1) cs with
  | some (v, r) => if r.all isSpace then some v else none
  | none => none

/-- Leading white space is skipped. -/
theorem skipSpace_append {ws : List Char} (h : ∀ c ∈ ws, isSpace c = true) (cs : List Char) :
    skipSpace (ws ++ cs) = skipSpace cs :=
  List.dropWhile_append_of_pos h

/-- A token's first character is not skipped. -/
theorem skipSpace_cons {c : Char} (h : isSpace c = false) (cs : List Char) :
    skipSpace (c :: cs) = c :: cs := by
  rw [skipSpace, List.dropWhile_cons_of_neg (by simp [h])]

/-- Values may be preceded by white space. -/
theorem parseVal_skip {ws : List Char} (h : ∀ c ∈ ws, isSpace c = true) (n : ℕ)
    (cs : List Char) : parseVal n (ws ++ cs) = parseVal n cs := by
  cases n with
  | zero => rfl
  | succ n => rw [parseVal, parseVal, skipSpace_append h]

/-- Items may be preceded by white space. -/
theorem parseItems_skip {ws : List Char} (h : ∀ c ∈ ws, isSpace c = true) (n : ℕ)
    (cs : List Char) : parseItems n (ws ++ cs) = parseItems n cs := by
  cases n with
  | zero => rfl
  | succ n => rw [parseItems, parseItems, parseVal_skip h]

/-- Members may be preceded by white space. -/
theorem parseMembers_skip {ws : List Char} (h : ∀ c ∈ ws, isSpace c = true) (n : ℕ)
    (cs : List Char) : parseMembers n (ws ++ cs) = parseMembers n cs := by
  cases n with
  | zero => rfl
  | succ n => rw [parseMembers, parseMembers, skipSpace_append h]

theorem hexVal_hexDigit : ∀ n < 16, hexVal (hexDigit n) = some n := by decide

/-- The two-character escapes are undone. -/
theorem unescape_shortEscape {c e : Char} (h : shortEscape c = some e) :
    unescape e = some c ∧ e ≠ 'u' := by
  unfold shortEscape at h
  repeat' split at h
  all_goals subst_vars; cases h
  all_goals decide

/-- Characters without a short escape are neither the quote nor the backslash. -/
theorem shortEscape_none {c : Char} (h : shortEscape c = none) : c ≠ '"' ∧ c ≠ '\\' := by
  constructor
  · rintro rfl
    exact absurd h (by decide)
  · rintro rfl
    exact absurd h (by decide)

/-- Reading one written character gives it back. -/
theorem parseStr_escChar (c : Char) (r : List Char) :
    parseStr (escChar c ++ r) = (parseStr r).map fun p => (c :: p.1, p.2) := by
  unfold escChar
  cases hs : shortEscape c with
  | some e =>
    obtain ⟨hu, hne⟩ := unescape_shortEscape hs
    dsimp only
    rw [List.cons_append, List.cons_append, List.nil_append, parseStr, hu]
    intro _ _ _ _ _ he
    exact absurd he hne
  | none =>
    obtain ⟨hq, hb⟩ := shortEscape_none hs
    dsimp only
    by_cases hc : c.toNat < 32
    · have hx := hexVal_hexDigit (c.toNat / 16) (by omega)
      have hy := hexVal_hexDigit (c.toNat % 16) (by omega)
      have hz : hexVal '0' = some 0 := rfl
      have hn : ((0 * 16 + 0) * 16 + c.toNat / 16) * 16 + c.toNat % 16 = c.toNat := by omega
      rw [if_pos hc]
      simp only [List.cons_append, List.nil_append, parseStr, hx, hy, hz, hn]
      rw [if_pos (Or.inl (by omega)), Char.ofNat_toNat]
    · rw [if_neg hc, List.singleton_append, parseStr, if_neg hc]
      · exact hq
      · intro _ _ _ _ _ he
        exact absurd he hb
      · intro _ _ he
        exact absurd he hb

/-- Reading a written string literal after its opening quote. -/
theorem parseStr_flatMap (cs r : List Char) :
    parseStr (cs.flatMap escChar ++ '"' :: r) = some (cs, r) := by
  induction cs with
  | nil => rfl
  | cons c cs ih =>
    rw [List.flatMap_cons, List.append_assoc, parseStr_escChar, ih]
    rfl

/-- What follows a number does not go on with a digit. -/
def NoDigitHead (r : List Char) : Prop := ∀ c cs, r = c :: cs → c.isDigit = false

theorem noDigitHead_nil : NoDigitHead [] := fun _ _ h => nomatch h

theorem noDigitHead_cons {c : Char} (h : c.isDigit = false) (cs : List Char) :
    NoDigitHead (c :: cs) := by
  intro d ds he
  obtain ⟨rfl, -⟩ := List.cons.inj he
  exact h

theorem isSpace_isDigit {c : Char} (h : isSpace c = true) : c.isDigit = false := by
  simp only [isSpace, Bool.or_eq_true, beq_iff_eq] at h
  rcases h with ((rfl | rfl) | rfl) | rfl <;> rfl

/-- White space before a token that is no digit ends a number. -/
theorem noDigitHead_append {ws : List Char} (h : ∀ c ∈ ws, isSpace c = true) {c : Char}
    (hc : c.isDigit = false) (cs : List Char) : NoDigitHead (ws ++ c :: cs) := by
  cases ws with
  | nil => exact noDigitHead_cons hc cs
  | cons w ws => exact noDigitHead_cons (isSpace_isDigit (h w List.mem_cons_self)) _

theorem natText_digits (n : ℕ) : ∀ c ∈ natText n, c.isDigit = true :=
  fun _ hc => Nat.isDigit_of_mem_toDigits (by decide) (by decide) hc

/-- Decimal text reads back as the number it was written from. -/
theorem parseNat_natText (n : ℕ) {r : List Char} (hr : NoDigitHead r) :
    parseNat (natText n ++ r) = some (n, r) := by
  have ht : (natText n ++ r).takeWhile Char.isDigit = natText n := by
    rw [List.takeWhile_append_of_pos (natText_digits n)]
    cases r with
    | nil => simp
    | cons c cs => simp [hr c cs rfl]
  have hd : (natText n ++ r).dropWhile Char.isDigit = r := by
    rw [List.dropWhile_append_of_pos (natText_digits n)]
    cases r with
    | nil => rfl
    | cons c cs => simp [hr c cs rfl]
  rw [parseNat, ht, hd]
  cases hn : natText n with
  | nil => exact absurd hn Nat.toDigits_ne_nil
  | cons d ds =>
    dsimp only
    rw [← hn, natText, Nat.ofDigitChars_ten_toDigits]

/-- Integer text starts with a digit or a minus sign and reads back as the
same bits under the reader's subtype. -/
theorem parseInt_natText (bits : BitVec 64) {r : List Char} (hr : NoDigitHead r) :
    parseInt false (natText bits.toNat ++ r) = some (.int .uint bits, r) := by
  rw [parseInt, parseNat_natText _ hr]
  dsimp only
  rw [if_neg (by decide), if_pos bits.isLt, BitVec.ofNat_toNat, BitVec.setWidth_eq]

theorem parseInt_neg {bits : BitVec 64} (hm : bits.msb = true) {r : List Char}
    (hr : NoDigitHead r) :
    parseInt true (natText bits.toInt.natAbs ++ r) = some (.int .sint bits, r) := by
  have hlt := bits.isLt
  have hge := BitVec.msb_eq_true_iff_two_mul_ge.mp hm
  have hi : bits.toInt = (bits.toNat : ℤ) - 2 ^ 64 := by
    rw [BitVec.toInt_eq_msb_cond, if_pos hm]
    rfl
  have hb : bits.toInt.natAbs ≤ 2 ^ 63 := by omega
  have hn : -(bits.toInt.natAbs : ℤ) = bits.toInt := by omega
  rw [parseInt, parseNat_natText _ hr]
  dsimp only
  rw [if_pos rfl, if_pos hb, hn, BitVec.ofInt_toInt]

/-- A character that opens a value: no white space and no closing bracket. -/
def OpensValue (c : Char) : Prop := isSpace c = false ∧ c ≠ ']' ∧ c ≠ '}'

theorem opensValue_digit {c : Char} (h : c.isDigit = true) : OpensValue c := by
  refine ⟨?_, ?_, ?_⟩
  · cases hs : isSpace c with
    | false => rfl
    | true => exact absurd h (by rw [isSpace_isDigit hs]; decide)
  · rintro rfl
    exact absurd h (by decide)
  · rintro rfl
    exact absurd h (by decide)

theorem natText_opens (n : ℕ) : ∃ c cs, natText n = c :: cs ∧ c.isDigit = true := by
  cases hn : natText n with
  | nil => exact absurd hn Nat.toDigits_ne_nil
  | cons c cs => exact ⟨c, cs, rfl, natText_digits n c (by rw [hn]; exact List.mem_cons_self)⟩

theorem enclose_opens (layout : Layout) (depth : ℕ) (left right : Char)
    (pieces : List (List Char)) : ∃ cs, enclose layout depth left right pieces = left :: cs := by
  cases pieces with
  | nil => exact ⟨_, rfl⟩
  | cons piece pieces => exact ⟨_, rfl⟩

/-- Every written value opens with a token character. -/
theorem render_opens (layout : Layout) (depth : ℕ) {v : Val} (h : v.realFree = true) :
    ∃ c cs, render layout depth v = c :: cs ∧ OpensValue c := by
  cases v with
  | null => exact ⟨_, _, rfl, by decide, by decide, by decide⟩
  | bool b => cases b <;> exact ⟨_, _, rfl, by decide, by decide, by decide⟩
  | int kind bits =>
    rw [render]
    cases kind with
    | uint =>
      obtain ⟨c, cs, he, hc⟩ := natText_opens bits.toNat
      exact ⟨c, cs, he, opensValue_digit hc⟩
    | sint =>
      rw [intText]
      split
      · exact ⟨_, _, rfl, by decide, by decide, by decide⟩
      · obtain ⟨c, cs, he, hc⟩ := natText_opens bits.toNat
        exact ⟨c, cs, he, opensValue_digit hc⟩
  | real q => exact absurd h (by simp [Val.realFree])
  | str s => exact ⟨_, _, rfl, by decide, by decide, by decide⟩
  | arr items =>
    obtain ⟨cs, he⟩ := enclose_opens layout depth '[' ']' (renderItems layout (depth + 1) items)
    exact ⟨_, cs, he, by decide, by decide, by decide⟩
  | obj members =>
    obtain ⟨cs, he⟩ := enclose_opens layout depth '{' '}' (renderMembers layout (depth + 1) members)
    exact ⟨_, cs, he, by decide, by decide, by decide⟩

/-- What the writer puts after the first piece inside brackets. -/
def closing (layout : Layout) (depth : ℕ) (right : Char) (pieces : List (List Char)) :
    List Char :=
  (pieces.flatMap fun p => ',' :: (layout.line (depth + 1) ++ p)) ++ layout.line depth ++ [right]

theorem closing_nil (layout : Layout) (depth : ℕ) (right : Char) :
    closing layout depth right [] = layout.line depth ++ [right] := rfl

theorem closing_cons (layout : Layout) (depth : ℕ) (right : Char) (piece : List Char)
    (pieces : List (List Char)) :
    closing layout depth right (piece :: pieces) =
      ',' :: (layout.line (depth + 1) ++ (piece ++ closing layout depth right pieces)) := by
  simp only [closing, List.flatMap_cons, List.append_assoc, List.cons_append]

theorem enclose_cons (layout : Layout) (depth : ℕ) (left right : Char) (piece : List Char)
    (pieces : List (List Char)) :
    enclose layout depth left right (piece :: pieces) =
      left :: (layout.line (depth + 1) ++ (piece ++ closing layout depth right pieces)) := by
  simp only [enclose, closing, List.append_assoc]

/-- An integer reads back as the same bits under the reader's subtype. -/
theorem parseVal_intText (n : ℕ) (kind : IntKind) (bits : BitVec 64) {r : List Char}
    (hr : NoDigitHead r) :
    parseVal (n + 1) (intText kind bits ++ r) =
      some (.int (Val.readKind kind bits) bits, r) := by
  have hnat : parseVal (n + 1) (natText bits.toNat ++ r) = some (.int .uint bits, r) := by
    obtain ⟨c, cs, he, hc⟩ := natText_opens bits.toNat
    have hp := parseInt_natText bits hr
    have ho := (opensValue_digit hc).1
    rw [he, List.cons_append] at hp ⊢
    rw [parseVal, skipSpace_cons ho]
    split <;> rename_i heq <;> first | exact hp | skip
    all_goals
      obtain ⟨rfl, -⟩ := List.cons.inj heq
      exact absurd hc (by decide)
  cases kind with
  | uint => exact hnat
  | sint =>
    by_cases hm : bits.msb = true
    · rw [intText, if_pos hm, List.cons_append, parseVal, skipSpace_cons (by decide)]
      rw [Val.readKind, if_pos hm]
      exact parseInt_neg hm hr
    · rw [intText, if_neg hm, Val.readKind, if_neg hm]
      exact hnat

/-- A quote opens a string value. -/
theorem parseVal_quote (n : ℕ) (r : List Char) :
    parseVal (n + 1) ('"' :: r) = (parseStr r).map fun p => (.str (String.ofList p.1), p.2) := rfl

/-- A bracket not followed by its closing bracket opens a nonempty array. -/
theorem parseVal_bracket (n : ℕ) {r : List Char} (h : ∀ cs, skipSpace r ≠ ']' :: cs) :
    parseVal (n + 1) ('[' :: r) = (parseItems n r).map fun p => (.arr p.1, p.2) := by
  change (match skipSpace r with
    | ']' :: r' => some (Val.arr [], r')
    | _ => Option.map (fun p : List Val × List Char => (Val.arr p.1, p.2)) (parseItems n r)) = _
  split
  · rename_i r' heq
    exact absurd heq (h r')
  · rfl

/-- A brace not followed by its closing brace opens a nonempty object. -/
theorem parseVal_brace (n : ℕ) {r : List Char} (h : ∀ cs, skipSpace r ≠ '}' :: cs) :
    parseVal (n + 1) ('{' :: r) = (parseMembers n r).map fun p => (.obj p.1, p.2) := by
  change (match skipSpace r with
    | '}' :: r' => some (Val.obj [], r')
    | _ => Option.map (fun p : Members × List Char => (Val.obj p.1, p.2)) (parseMembers n r)) = _
  split
  · rename_i r' heq
    exact absurd heq (h r')
  · rfl

/-- The last item of an array is followed by the closing bracket. -/
theorem parseItems_last {n : ℕ} {cs r r' : List Char} {v : Val}
    (hv : parseVal n cs = some (v, r)) (hs : skipSpace r = ']' :: r') :
    parseItems (n + 1) cs = some ([v], r') := by
  rw [parseItems, hv]
  dsimp only
  rw [hs]
  rfl

/-- Any other item is followed by a comma and the remaining items. -/
theorem parseItems_more {n : ℕ} {cs r r' : List Char} {v : Val}
    (hv : parseVal n cs = some (v, r)) (hs : skipSpace r = ',' :: r') :
    parseItems (n + 1) cs = (parseItems n r').map fun p => (v :: p.1, p.2) := by
  rw [parseItems, hv]
  dsimp only
  rw [hs]
  rfl

/-- The last member of an object is followed by the closing brace. -/
theorem parseMembers_last {n : ℕ} {key : String} {cs r r' : List Char} {v : Val}
    (hv : parseVal n cs = some (v, r)) (hs : skipSpace r = '}' :: r') :
    parseMembers (n + 1) (quote key ++ ':' :: cs) = some ([(key, v)], r') := by
  rw [parseMembers, quote, List.cons_append, List.append_assoc, skipSpace_cons (by decide)]
  change (match parseStr (key.toList.flatMap escChar ++ '"' :: ':' :: cs) with
    | none => none
    | some (key, r') => _) = _
  rw [parseStr_flatMap]
  change (match parseVal n cs with
    | none => none
    | some (v, rest) => _) = _
  rw [hv]
  dsimp only
  rw [hs, String.ofList_toList]
  rfl

/-- Any other member is followed by a comma and the remaining members. -/
theorem parseMembers_more {n : ℕ} {key : String} {cs r r' : List Char} {v : Val}
    (hv : parseVal n cs = some (v, r)) (hs : skipSpace r = ',' :: r') :
    parseMembers (n + 1) (quote key ++ ':' :: cs) =
      (parseMembers n r').map fun p => ((key, v) :: p.1, p.2) := by
  rw [parseMembers, quote, List.cons_append, List.append_assoc, skipSpace_cons (by decide)]
  change (match parseStr (key.toList.flatMap escChar ++ '"' :: ':' :: cs) with
    | none => none
    | some (key, r') => _) = _
  rw [parseStr_flatMap]
  change (match parseVal n cs with
    | none => none
    | some (v, rest) => _) = _
  rw [hv]
  dsimp only
  rw [hs, String.ofList_toList]
  rfl

/-- Text of a nonempty array after its bracket and first line break. -/
def itemsText (layout : Layout) (depth : ℕ) (v : Val) (vs : List Val) : List Char :=
  render layout (depth + 1) v ++
    closing layout depth ']' (renderItems layout (depth + 1) vs)

/-- Text of a nonempty object after its brace and first line break. -/
def membersText (layout : Layout) (depth : ℕ) (key : String) (v : Val) (ms : Members) :
    List Char :=
  (quote key ++ ':' :: (layout.colon ++ render layout (depth + 1) v)) ++
    closing layout depth '}' (renderMembers layout (depth + 1) ms)

theorem render_arr_cons (layout : Layout) (depth : ℕ) (v : Val) (vs : List Val) :
    render layout depth (.arr (v :: vs)) =
      '[' :: (layout.line (depth + 1) ++ itemsText layout depth v vs) := by
  rw [render, renderItems, enclose_cons, itemsText]

theorem render_obj_cons (layout : Layout) (depth : ℕ) (key : String) (v : Val) (ms : Members) :
    render layout depth (.obj ((key, v) :: ms)) =
      '{' :: (layout.line (depth + 1) ++ membersText layout depth key v ms) := by
  rw [render, renderMembers, enclose_cons, membersText]

theorem itemsText_cons (layout : Layout) (depth : ℕ) (v w : Val) (ws : List Val) :
    itemsText layout depth v (w :: ws) =
      render layout (depth + 1) v ++
        ',' :: (layout.line (depth + 1) ++ itemsText layout depth w ws) := by
  rw [itemsText, renderItems, closing_cons, itemsText]

theorem membersText_cons (layout : Layout) (depth : ℕ) (key name : String) (v w : Val)
    (ms : Members) :
    membersText layout depth key v ((name, w) :: ms) =
      quote key ++ ':' :: (layout.colon ++ (render layout (depth + 1) v ++
        ',' :: (layout.line (depth + 1) ++ membersText layout depth name w ms))) := by
  rw [membersText, renderMembers, closing_cons, membersText]
  simp only [List.append_assoc, List.cons_append]

mutual
/-- Every written value reads back as its canonical tree, whatever follows. -/
theorem parseVal_render (layout : Layout) (depth : ℕ) :
    ∀ (v : Val) (n : ℕ) (r : List Char), v.realFree = true →
      (render layout depth v).length < n → NoDigitHead r →
      parseVal n (render layout depth v ++ r) = some (v.canon, r)
  | _, 0, _, _, hn, _ => absurd hn (Nat.not_lt_zero _)
  | .null, n + 1, r, _, _, _ => rfl
  | .bool true, n + 1, r, _, _, _ => rfl
  | .bool false, n + 1, r, _, _, _ => rfl
  | .int kind bits, n + 1, r, _, _, hr => parseVal_intText n kind bits hr
  | .real _, n + 1, _, h, _, _ => absurd h (by simp [Val.realFree])
  | .str s, n + 1, r, _, _, _ => by
    rw [render, quote, List.cons_append, List.append_assoc, parseVal_quote, List.singleton_append,
      parseStr_flatMap, Option.map_some, String.ofList_toList]
    rfl
  | .arr [], n + 1, r, _, _, _ => rfl
  | .arr (v :: vs), n + 1, r, h, hn, _ => by
    rw [Val.realFree] at h
    rw [render_arr_cons] at hn ⊢
    have hl := layout.line_space (depth + 1)
    have hi := parseItems_render layout depth v vs n r h
      (by simp only [List.length_cons, List.length_append] at hn; omega)
    rw [Val.realFreeItems, Bool.and_eq_true] at h
    obtain ⟨c, cs, he, ho, hc, -⟩ := render_opens layout (depth + 1) h.1
    rw [List.cons_append, parseVal_bracket, List.append_assoc, parseItems_skip hl, hi]
    · rfl
    · intro cs' heq
      rw [List.append_assoc, skipSpace_append hl, itemsText, he, List.cons_append,
        List.cons_append, skipSpace_cons ho] at heq
      exact hc (List.cons.inj heq).1
  | .obj [], n + 1, r, _, _, _ => rfl
  | .obj ((key, v) :: ms), n + 1, r, h, hn, _ => by
    rw [Val.realFree] at h
    rw [render_obj_cons] at hn ⊢
    have hl := layout.line_space (depth + 1)
    have hi := parseMembers_render layout depth key v ms n r h
      (by simp only [List.length_cons, List.length_append] at hn; omega)
    rw [List.cons_append, parseVal_brace, List.append_assoc, parseMembers_skip hl, hi]
    · rfl
    · intro cs' heq
      rw [List.append_assoc, skipSpace_append hl, membersText, quote, List.cons_append,
        List.cons_append, List.cons_append, skipSpace_cons (by decide)] at heq
      exact absurd (List.cons.inj heq).1 (by decide)

/-- The items of a nonempty array read back in order, up to the bracket. -/
theorem parseItems_render (layout : Layout) (depth : ℕ) :
    ∀ (v : Val) (vs : List Val) (n : ℕ) (r : List Char),
      Val.realFreeItems (v :: vs) = true → (itemsText layout depth v vs).length < n →
      parseItems n (itemsText layout depth v vs ++ r) = some (Val.canonItems (v :: vs), r)
  | _, _, 0, _, _, hn => absurd hn (Nat.not_lt_zero _)
  | v, [], n + 1, r, h, hn => by
    rw [Val.realFreeItems, Bool.and_eq_true] at h
    rw [itemsText, renderItems, closing_nil] at hn ⊢
    have hl := layout.line_space depth
    have hv := parseVal_render layout (depth + 1) v n (layout.line depth ++ ']' :: r) h.1
      (by simp only [List.length_append, List.length_cons, List.length_nil] at hn; omega)
      (noDigitHead_append hl (by decide) r)
    rw [List.append_assoc, List.append_assoc, List.singleton_append, parseItems_last hv]
    · rfl
    · rw [skipSpace_append hl, skipSpace_cons (by decide)]
  | v, w :: ws, n + 1, r, h, hn => by
    rw [Val.realFreeItems, Bool.and_eq_true] at h
    rw [itemsText_cons] at hn ⊢
    have hl := layout.line_space (depth + 1)
    simp only [List.length_append, List.length_cons] at hn
    have hv := parseVal_render layout (depth + 1) v n
      (',' :: (layout.line (depth + 1) ++ (itemsText layout depth w ws ++ r))) h.1
      (by omega) (noDigitHead_cons (by decide) _)
    have hw := parseItems_render layout depth w ws n r h.2 (by omega)
    rw [List.append_assoc, List.cons_append, List.append_assoc,
      parseItems_more hv (skipSpace_cons (by decide) _), parseItems_skip hl, hw]
    rfl

/-- The members of a nonempty object read back in order, up to the brace. -/
theorem parseMembers_render (layout : Layout) (depth : ℕ) :
    ∀ (key : String) (v : Val) (ms : Members) (n : ℕ) (r : List Char),
      Val.realFreeMembers ((key, v) :: ms) = true →
      (membersText layout depth key v ms).length < n →
      parseMembers n (membersText layout depth key v ms ++ r) =
        some (Val.canonMembers ((key, v) :: ms), r)
  | _, _, _, 0, _, _, hn => absurd hn (Nat.not_lt_zero _)
  | key, v, [], n + 1, r, h, hn => by
    rw [Val.realFreeMembers, Bool.and_eq_true] at h
    rw [membersText, renderMembers, closing_nil] at hn ⊢
    have hl := layout.line_space depth
    have hv := parseVal_render layout (depth + 1) v n (layout.line depth ++ '}' :: r) h.1
      (by simp only [List.length_append, List.length_cons, List.length_nil] at hn; omega)
      (noDigitHead_append hl (by decide) r)
    rw [← parseVal_skip layout.colon_space] at hv
    simp only [List.append_assoc, List.cons_append, List.nil_append]
    rw [parseMembers_last hv]
    · rfl
    · rw [skipSpace_append hl, skipSpace_cons (by decide)]
  | key, v, (name, w) :: ms, n + 1, r, h, hn => by
    rw [Val.realFreeMembers, Bool.and_eq_true] at h
    rw [membersText_cons] at hn ⊢
    have hl := layout.line_space (depth + 1)
    simp only [List.length_append, List.length_cons] at hn
    have hv := parseVal_render layout (depth + 1) v n
      (',' :: (layout.line (depth + 1) ++ (membersText layout depth name w ms ++ r))) h.1
      (by omega) (noDigitHead_cons (by decide) _)
    have hw := parseMembers_render layout depth name w ms n r h.2 (by omega)
    rw [← parseVal_skip layout.colon_space] at hv
    simp only [List.append_assoc, List.cons_append]
    rw [parseMembers_more hv (skipSpace_cons (by decide) _), parseMembers_skip hl, hw]
    rfl
end

/-- Writing and reading a whole document without floating-point numbers gives
its canonical tree, in every layout. -/
theorem parse_render (layout : Layout) {v : Val} (h : v.realFree = true) :
    parse (render layout 0 v) = some v.canon := by
  have hp := parseVal_render layout 0 v ((render layout 0 v).length + 1) [] h
    (Nat.lt_succ_self _) noDigitHead_nil
  rw [List.append_nil] at hp
  rw [parse, hp]
  rfl

/-- No character of the text has a code below `low`. -/
def Above (low : ℕ) (cs : List Char) : Prop := ∀ c ∈ cs, low ≤ c.toNat

theorem above_append {low : ℕ} {cs ds : List Char} (hc : Above low cs) (hd : Above low ds) :
    Above low (cs ++ ds) := by
  intro c h
  rcases List.mem_append.mp h with h | h
  · exact hc c h
  · exact hd c h

theorem above_cons {low : ℕ} {c : Char} {cs : List Char} (hc : low ≤ c.toNat) (h : Above low cs) :
    Above low (c :: cs) := by
  intro d hd
  rcases List.mem_cons.mp hd with rfl | hd
  · exact hc
  · exact h d hd

theorem above_nil (low : ℕ) : Above low [] := fun _ h => nomatch h

theorem above_of_all {low : ℕ} {cs : List Char}
    (h : (cs.all fun c => low ≤ c.toNat) = true) : Above low cs := by
  intro c hc
  exact of_decide_eq_true (List.all_eq_true.mp h c hc)

theorem Above.mono {low high : ℕ} (hle : low ≤ high) {cs : List Char} (h : Above high cs) :
    Above low cs := fun c hc => Nat.le_trans hle (h c hc)

theorem hexDigit_above : ∀ n < 16, 32 ≤ (hexDigit n).toNat := by decide

/-- Control characters appear in strings only as escapes. -/
theorem escChar_above (c : Char) : Above 32 (escChar c) := by
  unfold escChar
  cases hs : shortEscape c with
  | some e =>
    have he : 32 ≤ e.toNat := by
      unfold shortEscape at hs
      split_ifs at hs <;> cases hs <;> decide
    exact above_cons (by decide) (above_cons he (above_nil 32))
  | none =>
    dsimp only
    split
    · have h1 := hexDigit_above (c.toNat / 16) (by omega)
      have h2 := hexDigit_above (c.toNat % 16) (by omega)
      exact above_cons (by decide) (above_cons (by decide) (above_cons (by decide)
        (above_cons (by decide) (above_cons h1 (above_cons h2 (above_nil 32))))))
    · exact above_cons (by omega) (above_nil 32)

theorem quote_above (s : String) : Above 32 (quote s) := by
  refine above_cons (by decide) (above_append ?_ (above_cons (by decide) (above_nil 32)))
  intro c hc
  obtain ⟨d, -, hd⟩ := List.mem_flatMap.mp hc
  exact escChar_above d c hd

theorem natText_above (n : ℕ) : Above 32 (natText n) := by
  intro c hc
  have hd := natText_digits n c hc
  simp only [Char.isDigit, Bool.and_eq_true, decide_eq_true_eq] at hd
  have h48 : '0'.toNat ≤ c.toNat := UInt32.le_iff_toNat_le.mp hd.1
  have hz : '0'.toNat = 48 := rfl
  omega

/-- A bound up to the blank that the white space of a layout keeps. -/
structure Layout.Keeps (layout : Layout) (low : ℕ) : Prop where
  le : low ≤ 32
  line : ∀ depth, Above low (layout.line depth)
  colon : Above low layout.colon

theorem compact_keeps : compact.Keeps 32 := ⟨le_rfl, fun _ => above_nil 32, above_nil 32⟩

theorem pretty_keeps : pretty.Keeps 10 := by
  refine ⟨by omega, ?_, above_cons (by decide) (above_nil 10)⟩
  intro depth
  refine above_cons (by decide) ?_
  intro c hc
  rw [List.eq_of_mem_replicate hc]
  decide

theorem enclose_above {layout : Layout} {low : ℕ} (hk : layout.Keeps low) (depth : ℕ)
    {left right : Char} (hl : 32 ≤ left.toNat) (hr : 32 ≤ right.toNat)
    {pieces : List (List Char)} (hp : ∀ p ∈ pieces, Above low p) :
    Above low (enclose layout depth left right pieces) := by
  have hle := hk.le
  have hleft : low ≤ left.toNat := by omega
  have hright : low ≤ right.toNat := by omega
  have hcomma : low ≤ ','.toNat := hle.trans (by decide)
  cases pieces with
  | nil => exact above_cons hleft (above_cons hright (above_nil low))
  | cons piece pieces =>
    have hmore : Above low (pieces.flatMap fun p => ',' :: (layout.line (depth + 1) ++ p)) := by
      intro c hc
      obtain ⟨p, hm, hd⟩ := List.mem_flatMap.mp hc
      have hpiece := hp p (List.mem_cons_of_mem _ hm)
      exact above_cons hcomma (above_append (hk.line _) hpiece) c hd
    have hfirst := hp piece List.mem_cons_self
    exact above_cons hleft (above_append (above_append (above_append
      (above_append (hk.line _) hfirst) hmore) (hk.line depth)) (above_cons hright (above_nil low)))

mutual
/-- The text of a value keeps every bound its layout keeps. -/
theorem render_above {layout : Layout} {low : ℕ} (hk : layout.Keeps low) (depth : ℕ) :
    ∀ v : Val, Above low (render layout depth v)
  | .null => by
    have h : Above 32 ['n', 'u', 'l', 'l'] := above_of_all rfl
    exact h.mono hk.le
  | .bool true => by
    have h : Above 32 ['t', 'r', 'u', 'e'] := above_of_all rfl
    exact h.mono hk.le
  | .bool false => by
    have h : Above 32 ['f', 'a', 'l', 's', 'e'] := above_of_all rfl
    exact h.mono hk.le
  | .int .uint bits => (natText_above _).mono hk.le
  | .int .sint bits => by
    rw [render, intText]
    split
    · exact (above_cons (by decide) (natText_above _)).mono hk.le
    · exact (natText_above _).mono hk.le
  | .real _ => above_nil low
  | .str s => (quote_above s).mono hk.le
  | .arr items =>
    enclose_above hk depth (by decide) (by decide) (renderItems_above hk (depth + 1) items)
  | .obj members =>
    enclose_above hk depth (by decide) (by decide) (renderMembers_above hk (depth + 1) members)

theorem renderItems_above {layout : Layout} {low : ℕ} (hk : layout.Keeps low) (depth : ℕ) :
    ∀ (vs : List Val), ∀ p ∈ renderItems layout depth vs, Above low p
  | [], _, hp => nomatch hp
  | v :: vs, p, hp => by
    rcases List.mem_cons.mp hp with rfl | hp
    · exact render_above hk depth v
    · exact renderItems_above hk depth vs p hp

theorem renderMembers_above {layout : Layout} {low : ℕ} (hk : layout.Keeps low) (depth : ℕ) :
    ∀ (ms : Members), ∀ p ∈ renderMembers layout depth ms, Above low p
  | [], _, hp => nomatch hp
  | (key, v) :: ms, p, hp => by
    have hcolon : low ≤ ':'.toNat := hk.le.trans (by decide)
    rcases List.mem_cons.mp hp with rfl | hp
    · exact above_append ((quote_above key).mono hk.le)
        (above_cons hcolon (above_append hk.colon (render_above hk depth v)))
    · exact renderMembers_above hk depth ms p hp
end

/-- UTF-8 bytes of a text. -/
def utf8 (cs : List Char) : List UInt8 := cs.flatMap String.utf8EncodeChar

/-- Text of UTF-8 bytes, if they are well formed. -/
def ofUtf8 (bytes : List UInt8) : Option (List Char) :=
  bytes.toByteArray.utf8Decode?.map Array.toList

theorem ofUtf8_utf8 (cs : List Char) : ofUtf8 (utf8 cs) = some cs := by
  have hd := List.utf8Decode?_utf8Encode (l := cs)
  rw [List.utf8Encode] at hd
  rw [ofUtf8, utf8, hd, Option.map_some]

/-- Bytes that are well formed are the bytes of their text. -/
theorem utf8_of_ofUtf8 {bytes : List UInt8} {cs : List Char} (h : ofUtf8 bytes = some cs) :
    utf8 cs = bytes := by
  obtain ⟨text, htext, rfl⟩ := Option.map_eq_some_iff.mp h
  have hvalid : bytes.toByteArray.utf8Decode?.isSome := by rw [htext]; rfl
  obtain ⟨cs, hcs⟩ := ByteArray.isSome_utf8Decode?_iff.mp hvalid
  rw [hcs, List.utf8Decode?_utf8Encode] at htext
  rw [List.utf8Encode] at hcs
  rw [← Option.some.inj htext]
  exact (List.toByteArray_inj.mp hcs).symm

/-- A bound on the characters below the multi-byte codes bounds the bytes. -/
theorem utf8_above {low : ℕ} (hlow : low ≤ 32) {cs : List Char} (h : Above low cs) :
    ∀ b ∈ utf8 cs, low ≤ b.toNat := by
  intro b hb
  obtain ⟨c, hc, hbc⟩ := List.mem_flatMap.mp hb
  have hge : low ≤ c.val.toNat := h c hc
  unfold String.utf8EncodeChar at hbc
  dsimp only at hbc
  split_ifs at hbc <;> simp only [List.mem_cons, List.not_mem_nil, or_false] at hbc <;>
    rcases hbc with rfl | rfl | rfl | rfl <;> simp only [UInt8.toNat_ofNat'] <;> omega

/-- Write a document as bytes; floating-point numbers are refused. -/
def writeBytes (layout : Layout) (v : Val) : Option (List UInt8) :=
  if v.realFree then some (utf8 (render layout 0 v)) else none

/-- Read a document from bytes. -/
def readBytes (bytes : List UInt8) : Option Val := (ofUtf8 bytes).bind parse

/-- Writing and reading bytes gives the canonical tree, in every layout. -/
theorem readBytes_writeBytes (layout : Layout) {v : Val} (h : v.realFree = true) :
    ∃ bytes, writeBytes layout v = some bytes ∧ readBytes bytes = some v.canon := by
  refine ⟨utf8 (render layout 0 v), if_pos h, ?_⟩
  rw [readBytes, ofUtf8_utf8, Option.bind_some, parse_render layout h]

/-- The bytes of a document keep every bound its layout keeps: compact text
holds no control code, indented text none below the newline. -/
theorem writeBytes_above {layout : Layout} {low : ℕ} (hk : layout.Keeps low) {v : Val}
    {bytes : List UInt8} (h : writeBytes layout v = some bytes) : ∀ b ∈ bytes, low ≤ b.toNat := by
  rw [writeBytes] at h
  split at h
  · rw [← Option.some.inj h]
    exact utf8_above hk.le (render_above hk 0 v)
  · cases h

/-- An empty input is no document. -/
theorem readBytes_nil : readBytes [] = none := by
  have h := ofUtf8_utf8 []
  rw [utf8, List.flatMap_nil] at h
  rw [readBytes, h]
  rfl

end KdeConnectNx.JsonText
