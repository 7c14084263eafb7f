import Mathlib.Data.Nat.Digits.Defs
import KdeConnectNx.PacketBody

/-!
# Sizes of compact texts

How long a text gets is needed where a line has to stay within a limit.
Compact text has no white space, so the size of an object is the sum over its
members, and that of a string or an integer is bounded. A newline after a
document is white space to the reader.
-/

namespace KdeConnectNx.TextSizes

open JsonTree JsonText PacketBody

/-- Number of bytes of the compact text. -/
def size (y : Yyjson) (v : Val) : ℕ := ((y.write v).getD []).length

/-- A member: its name and its value, the colon, and a comma or the brace. -/
def memberSize (y : Yyjson) (member : String × Val) : ℕ :=
  size y (.str member.1) + size y member.2 + 2

def membersSize (y : Yyjson) (members : Members) : ℕ := (members.map (memberSize y)).sum

/-- What is relied on of compact texts beside that they read back: nothing
stands between the members of an object but their commas, a byte of a string
takes at most the six of an escape, an integer has at most twenty characters,
and a newline may follow. -/
structure Minified (y : Yyjson) : Prop where
  read_newline : ∀ v text, v.realFree = true → y.write v = some text →
    y.read (text ++ [10]) = some v.canon
  size_obj : ∀ members : Members, members ≠ [] → Val.realFreeMembers members = true →
    size y (.obj members) = 1 + membersSize y members
  size_str : ∀ s, size y (.str s) ≤ 6 * (utf8 s.toList).length + 2
  size_int : ∀ kind bits, size y (.int kind bits) ≤ 20

/-- A member is its key, its value, the colon and the comma. -/
theorem memberSize_mk (y : Yyjson) (key : String) (v : Val) :
    memberSize y (key, v) = size y (.str key) + size y v + 2 := rfl

/-- Members add up. -/
@[simp] theorem membersSize_cons (y : Yyjson) (member : String × Val) (members : Members) :
    membersSize y (member :: members) = memberSize y member + membersSize y members := by
  rw [membersSize, List.map_cons, List.sum_cons]
  rfl

/-- No members, no bytes. -/
@[simp] theorem membersSize_nil (y : Yyjson) : membersSize y [] = 0 := rfl

/-- So do two lists of them. -/
@[simp] theorem membersSize_append (y : Yyjson) (first second : Members) :
    membersSize y (first ++ second) = membersSize y first + membersSize y second := by
  rw [membersSize, List.map_append, List.sum_append]
  rfl

/-- The text of a body that can be written is of the size of its object. -/
theorem length_dump {y : Yyjson} (hy : y.Lawful) {body : JsonBody} (h : body.realFree = true) :
    (body.dump y).length = size y (.obj body.members) := by
  obtain ⟨text, hw, -⟩ := hy.read_write (.obj body.members) h
  rw [JsonBody.dump, size, hw]
  rfl

/-! ## The reference writer -/

/-- Texts in UTF-8 add up. -/
theorem length_utf8_append (cs ds : List Char) :
    (utf8 (cs ++ ds)).length = (utf8 cs).length + (utf8 ds).length := by
  rw [utf8, List.flatMap_append, List.length_append]
  rfl

/-- The first character and the rest. -/
theorem length_utf8_cons (c : Char) (cs : List Char) :
    (utf8 (c :: cs)).length = (utf8 [c]).length + (utf8 cs).length :=
  length_utf8_append [c] cs

/-- Every character has a byte. -/
theorem length_utf8_pos (c : Char) : 1 ≤ (utf8 [c]).length := by
  rw [utf8, List.flatMap_singleton, String.length_utf8EncodeChar]
  exact Char.utf8Size_pos c

/-- Characters below 128 take one byte. -/
theorem length_utf8_ascii {cs : List Char} (h : ∀ c ∈ cs, c.val.toNat ≤ 127) :
    (utf8 cs).length = cs.length := by
  induction cs with
  | nil => rfl
  | cons c cs ih =>
    have hone : (utf8 [c]).length = 1 := by
      have hc := h c List.mem_cons_self
      rw [utf8, List.flatMap_singleton, String.length_utf8EncodeChar, Char.utf8Size, if_pos]
      rw [UInt32.le_iff_toNat_le]
      exact hc
    rw [length_utf8_cons, hone, ih fun d hd => h d (List.mem_cons_of_mem c hd), List.length_cons,
      Nat.add_comm]

/-- The digits of an escape are ASCII. -/
theorem hexDigit_ascii : ∀ n < 16, (hexDigit n).val.toNat ≤ 127 := by decide

/-- The letter of a short escape is one byte. -/
theorem shortEscape_ascii {c e : Char} (h : shortEscape c = some e) : e.val.toNat ≤ 127 := by
  unfold shortEscape at h
  split_ifs at h <;> cases h <;> decide

/-- An escape is at most six bytes long. -/
theorem length_escChar (c : Char) : (utf8 (escChar c)).length ≤ 6 * (utf8 [c]).length := by
  have hpos := length_utf8_pos c
  unfold escChar
  cases hs : shortEscape c with
  | some e =>
    have htwo : (utf8 ['\\', e]).length = 2 := by
      refine length_utf8_ascii ?_
      intro d hd
      rcases List.mem_pair.mp hd with rfl | rfl
      · decide
      · exact shortEscape_ascii hs
    dsimp only
    omega
  | none =>
    dsimp only
    split
    · have hx := hexDigit_ascii (c.toNat / 16) (by omega)
      have hz := hexDigit_ascii (c.toNat % 16) (by omega)
      have hsix : (utf8 ['\\', 'u', '0', '0', hexDigit (c.toNat / 16),
          hexDigit (c.toNat % 16)]).length = 6 := by
        refine length_utf8_ascii ?_
        simp only [List.forall_mem_cons]
        exact ⟨by decide, by decide, by decide, by decide, hx, hz, fun _ h => by cases h⟩
      omega
    · omega

/-- A quoted text has at most six bytes for each of its own, and the quotes. -/
theorem length_quote (s : String) : (utf8 (quote s)).length ≤ 6 * (utf8 s.toList).length + 2 := by
  have hescaped : ∀ cs : List Char,
      (utf8 (cs.flatMap escChar)).length ≤ 6 * (utf8 cs).length := by
    intro cs
    induction cs with
    | nil => exact Nat.le_refl _
    | cons c cs ih =>
      have hc := length_escChar c
      rw [List.flatMap_cons, length_utf8_append, length_utf8_cons c cs]
      omega
  have hquote : (utf8 ['"']).length = 1 := by decide
  have hall := hescaped s.toList
  rw [quote, length_utf8_cons, length_utf8_append, hquote]
  omega

/-- A number below `10 ^ e` has at most `e` digits. -/
theorem length_natText {n : ℕ} {e : ℕ} (he : 0 < e) (h : n < 10 ^ e) :
    (utf8 (natText n)).length ≤ e := by
  have hascii : ∀ c ∈ natText n, c.val.toNat ≤ 127 := by
    intro c hc
    have hd := natText_digits n c hc
    rw [Char.isDigit, Bool.and_eq_true, decide_eq_true_eq, decide_eq_true_eq] at hd
    have hnine : c.val.toNat ≤ 57 := UInt32.le_iff_toNat_le.mp hd.2
    omega
  rw [length_utf8_ascii hascii]
  exact Nat.toDigits_length 10 n e he h

/-- No integer of 64 bits takes more than twenty characters. -/
theorem length_intText (kind : IntKind) (bits : BitVec 64) :
    (utf8 (intText kind bits)).length ≤ 20 := by
  have hnat : (utf8 (natText bits.toNat)).length ≤ 20 := by
    have hlt := bits.isLt
    exact length_natText (by decide) (by omega)
  cases kind with
  | uint => exact hnat
  | sint =>
    rw [intText]
    split
    · have hlow := BitVec.le_toInt bits
      have hhigh := BitVec.toInt_lt (x := bits)
      have habs : (utf8 (natText bits.toInt.natAbs)).length ≤ 19 :=
        length_natText (by decide) (by omega)
      have hminus : (utf8 ['-']).length = 1 := by decide
      rw [length_utf8_cons, hminus]
      omega
    · exact hnat

/-- The compact layout is the same at every depth. -/
theorem enclose_compact (depth depth' : ℕ) (left right : Char) (pieces : List (List Char)) :
    enclose compact depth left right pieces = enclose compact depth' left right pieces := by
  cases pieces <;> rfl

mutual
/-- Compact text does not depend on the depth. -/
theorem render_compact (depth depth' : ℕ) :
    ∀ v : Val, render compact depth v = render compact depth' v
  | .null => rfl
  | .bool true => rfl
  | .bool false => rfl
  | .int _ _ => rfl
  | .real _ => rfl
  | .str _ => rfl
  | .arr items => by
    rw [render, render, renderItems_compact (depth + 1) (depth' + 1) items]
    exact enclose_compact depth depth' '[' ']' _
  | .obj members => by
    rw [render, render, renderMembers_compact (depth + 1) (depth' + 1) members]
    exact enclose_compact depth depth' '{' '}' _

/-- Nor does that of the items of an array. -/
theorem renderItems_compact (depth depth' : ℕ) :
    ∀ vs : List Val, renderItems compact depth vs = renderItems compact depth' vs
  | [] => rfl
  | v :: vs => by
    rw [renderItems, renderItems, render_compact depth depth' v,
      renderItems_compact depth depth' vs]

/-- Nor that of the members of an object. -/
theorem renderMembers_compact (depth depth' : ℕ) :
    ∀ ms : Members, renderMembers compact depth ms = renderMembers compact depth' ms
  | [] => rfl
  | (key, v) :: ms => by
    rw [renderMembers, renderMembers, render_compact depth depth' v,
      renderMembers_compact depth depth' ms]
end

/-- Brackets and commas are one byte each. -/
theorem length_enclose (depth : ℕ) {left right : Char} (hl : (utf8 [left]).length = 1)
    (hr : (utf8 [right]).length = 1) {pieces : List (List Char)} (hne : pieces ≠ []) :
    (utf8 (enclose compact depth left right pieces)).length =
      1 + (pieces.map fun piece => (utf8 piece).length + 1).sum := by
  have hcomma : (utf8 [',']).length = 1 := by decide
  have hmore : ∀ pieces : List (List Char),
      (utf8 (pieces.flatMap fun p => ',' :: (compact.line (depth + 1) ++ p))).length =
        (pieces.map fun piece => (utf8 piece).length + 1).sum := by
    intro pieces
    induction pieces with
    | nil => rfl
    | cons piece pieces ih =>
      rw [List.flatMap_cons, length_utf8_append, ih, length_utf8_cons, hcomma, List.map_cons,
        List.sum_cons]
      change 1 + (utf8 piece).length + _ = _
      omega
  cases pieces with
  | nil => exact absurd rfl hne
  | cons piece pieces =>
    have hrest := hmore pieces
    change (utf8 (left :: (piece ++
      (pieces.flatMap fun p => ',' :: (compact.line (depth + 1) ++ p)) ++
      [] ++ [right]))).length = _
    rw [length_utf8_cons, hl, length_utf8_append, hr, length_utf8_append, length_utf8_append, hrest,
      List.map_cons, List.sum_cons]
    change 1 + ((utf8 piece).length + _ + 0 + 1) = _
    omega

/-- The reference codec's compact text is the rendering at depth zero. -/
theorem size_reference {v : Val} (h : v.realFree = true) :
    size Yyjson.reference v = (utf8 (render compact 0 v)).length := by
  change ((writeBytes compact v).getD []).length = _
  rw [writeBytes, if_pos h]
  rfl

/-- Names, colons and commas of an object's members beside their values. -/
theorem sum_renderMembers {members : Members} (h : Val.realFreeMembers members = true) :
    ((renderMembers compact 1 members).map fun piece => (utf8 piece).length + 1).sum =
      membersSize Yyjson.reference members := by
  have hcolon : (utf8 [':']).length = 1 := by decide
  induction members with
  | nil => rfl
  | cons member members ih =>
    obtain ⟨key, v⟩ := member
    rw [Val.realFreeMembers, Bool.and_eq_true] at h
    have hkey : size Yyjson.reference (.str key) = (utf8 (quote key)).length := size_reference rfl
    have hvalue : size Yyjson.reference v = (utf8 (render compact 1 v)).length := by
      rw [size_reference h.1, render_compact 0 1]
    rw [renderMembers, List.map_cons, List.sum_cons, membersSize_cons, memberSize, ih h.2, hkey,
      hvalue, length_utf8_append, length_utf8_cons, hcolon]
    change (utf8 (quote key)).length + (1 + (utf8 (render compact 1 v)).length) + 1 + _ = _
    omega

/-- The reference codec stays within these sizes. -/
theorem minified_reference : Minified Yyjson.reference where
  read_newline := by
    intro v text h hw
    have htext : utf8 (render compact 0 v) = text := by
      change writeBytes compact v = some text at hw
      rw [writeBytes, if_pos h] at hw
      exact Option.some.inj hw
    have hline : text ++ [10] = utf8 (render compact 0 v ++ ['\n']) := by
      rw [utf8, List.flatMap_append, ← htext]
      rfl
    have hp := parseVal_render compact 0 v ((render compact 0 v ++ ['\n']).length + 1) ['\n'] h
      (by rw [List.length_append]; omega) (noDigitHead_cons (by decide) [])
    change readBytes (text ++ [10]) = _
    rw [readBytes, hline, ofUtf8_utf8, Option.bind_some, parse, hp]
    rfl
  size_obj := by
    intro members hne h
    have hpieces : renderMembers compact 1 members ≠ [] := by
      cases members with
      | nil => exact absurd rfl hne
      | cons member members => exact List.cons_ne_nil _ _
    rw [size_reference (v := .obj members) h, ← sum_renderMembers h]
    exact length_enclose 0 (by decide) (by decide) hpieces
  size_str := by
    intro s
    rw [size_reference rfl]
    exact length_quote s
  size_int := by
    intro kind bits
    rw [size_reference rfl]
    exact length_intText kind bits

end KdeConnectNx.TextSizes
