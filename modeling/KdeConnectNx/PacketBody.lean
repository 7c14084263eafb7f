import Mathlib.Data.List.Basic
import KdeConnectNx.JsonText

/-!
# JsonBody: the object wrapper every packet body goes through

A body is the member list of one JSON object. Typed reads fall back to a
default when the member is missing or of another type; strings pass through
C strings on both sides, so they end at their first NUL; setters upsert. The
JSON library itself is a parameter with the laws the wrapper relies on.
-/

namespace KdeConnectNx.PacketBody

open JsonTree

/-- The calls made into the JSON library. -/
structure Yyjson where
  /-- `yyjson_read` and the copy into a mutable document; none on an error. -/
  read : List UInt8 → Option Val
  /-- `yyjson_mut_write` with no flags; none on an error. -/
  write : Val → Option (List UInt8)
  /-- `yyjson_mut_write` with two-space indentation; none on an error. -/
  writePretty : Val → Option (List UInt8)

/-- What is relied on: reading what was written gives the same tree up to the
subtype of integers, control characters are written as escapes, the only one
an indented text adds is the newline, and an empty input is an error. -/
structure Yyjson.Lawful (y : Yyjson) : Prop where
  read_write : ∀ v, v.realFree = true → ∃ text, y.write v = some text ∧ y.read text = some v.canon
  write_escapes : ∀ v text, y.write v = some text → ∀ b ∈ text, 32 ≤ b.toNat
  read_writePretty : ∀ v, v.realFree = true →
    ∃ text, y.writePretty v = some text ∧ y.read text = some v.canon
  writePretty_escapes : ∀ v text, y.writePretty v = some text → ∀ b ∈ text, 10 ≤ b.toNat
  read_nil : y.read [] = none

/-- The reference library: the compact and the indented writer and the reader
proved inverse to both. -/
def Yyjson.reference : Yyjson where
  read := JsonText.readBytes
  write := JsonText.writeBytes JsonText.compact
  writePretty := JsonText.writeBytes JsonText.pretty

/-- The reference codec satisfies the laws. -/
theorem Yyjson.reference_lawful : Yyjson.reference.Lawful where
  read_write := fun _ h => JsonText.readBytes_writeBytes JsonText.compact h
  write_escapes := fun _ _ h => JsonText.writeBytes_above JsonText.compact_keeps h
  read_writePretty := fun _ h => JsonText.readBytes_writeBytes JsonText.pretty h
  writePretty_escapes := fun _ _ h => JsonText.writeBytes_above JsonText.pretty_keeps h
  read_nil := JsonText.readBytes_nil

/-- A string passed through `c_str()`: everything before its first NUL. -/
def cstr (s : String) : String := String.ofList (s.toList.takeWhile (· != '\x00'))

/-- A byte buffer read with `strlen`: everything before its first NUL. -/
def cbytes (text : List UInt8) : List UInt8 := text.takeWhile (· != 0)

/-- No NUL occurs in the string. -/
def NulFree (s : String) : Prop := '\x00' ∉ s.toList

instance (s : String) : Decidable (NulFree s) := inferInstanceAs (Decidable (¬ _))

/-- Strings without NUL survive the C string. -/
theorem cstr_of_nulFree {s : String} (h : NulFree s) : cstr s = s := by
  have ht : s.toList.takeWhile (· != '\x00') = s.toList := by
    rw [List.takeWhile_eq_self_iff]
    intro c hc
    rw [bne_iff_ne]
    rintro rfl
    exact h hc
  rw [cstr, ht, String.ofList_toList]

/-- A C string holds no NUL. -/
theorem cstr_nulFree (s : String) : NulFree (cstr s) := by
  intro h
  rw [cstr, String.toList_ofList] at h
  have hp := List.mem_takeWhile_imp h
  exact absurd hp (by decide)

/-- An owned JSON object. -/
structure JsonBody where
  /-- Members in document order, names possibly repeated. -/
  members : Members := []

namespace JsonBody

/-- The member node `yyjson_mut_obj_get` finds. -/
def field (body : JsonBody) (key : String) : Option Val := lookup key body.members

/-- A non-owning view of a node; reads on a node that is no object find no
member. -/
def view : Val → JsonBody
  | .obj members => ⟨members⟩
  | _ => {}

def has (body : JsonBody) (key : String) : Bool := (body.field key).isSome

def isStr (body : JsonBody) (key : String) : Bool := (body.field key).any Val.isStr

def isNum (body : JsonBody) (key : String) : Bool := (body.field key).any Val.isNum

def isBool (body : JsonBody) (key : String) : Bool := (body.field key).any Val.isBool

def isArray (body : JsonBody) (key : String) : Bool := (body.field key).any Val.isArr

def isObj (body : JsonBody) (key : String) : Bool := (body.field key).any Val.isObj

/-- `value(key, bool)`: other types give the default. -/
def valueBool (body : JsonBody) (key : String) (default : Bool) : Bool :=
  match body.field key with
  | some v => if v.isBool then v.getBool else default
  | none => default

/-- `value(key, int)`: any number is read, cut to 32 bits. -/
def valueInt (body : JsonBody) (key : String) (default : Int32) : Int32 :=
  match body.field key with
  | some v => if v.isNum then Int32.ofBitVec v.getInt else default
  | none => default

/-- `value(key, int64_t)`: any number is read, as 64 signed bits. -/
def valueI64 (body : JsonBody) (key : String) (default : Int64) : Int64 :=
  match body.field key with
  | some v => if v.isNum then Int64.ofBitVec v.getSint else default
  | none => default

/-- `value(key, const char*)` and `value(key, std::string)`. -/
def valueStr (body : JsonBody) (key : String) (default : String) : String :=
  match body.field key with
  | some v => if v.isStr then cstr v.getStr else default
  | none => default

def getBool (body : JsonBody) (key : String) : Bool := body.valueBool key false

def getInt (body : JsonBody) (key : String) : Int32 := body.valueInt key 0

def getI64 (body : JsonBody) (key : String) : Int64 := body.valueI64 key 0

def getStr (body : JsonBody) (key : String) : String := body.valueStr key ""

/-- The string items of an array member; other items are passed over. -/
def getStrArray (body : JsonBody) (key : String) : List String :=
  match body.field key with
  | some (.arr items) => (items.filter Val.isStr).map fun v => cstr v.getStr
  | _ => []

/-- An owned copy of an object member, empty for every other type. -/
def getObj (body : JsonBody) (key : String) : JsonBody :=
  match body.field key with
  | some (.obj members) => ⟨members⟩
  | _ => {}

def setVal (body : JsonBody) (key : String) (v : Val) : JsonBody := ⟨upsert key v body.members⟩

/-- `set(key, bool)`. -/
def setBool (body : JsonBody) (key : String) (v : Bool) : JsonBody := body.setVal key (.bool v)

/-- `set(key, int)`: stored sign-extended with the signed subtype. -/
def setInt (body : JsonBody) (key : String) (v : Int32) : JsonBody :=
  body.setVal key (.int .sint (v.toBitVec.signExtend 64))

/-- `set(key, int64_t)`. -/
def setI64 (body : JsonBody) (key : String) (v : Int64) : JsonBody :=
  body.setVal key (.int .sint v.toBitVec)

/-- `set(key, const std::string&)`. -/
def setStr (body : JsonBody) (key : String) (v : String) : JsonBody :=
  body.setVal key (.str (cstr v))

/-- `set(key, const JsonBody&)`. -/
def setObj (body : JsonBody) (key : String) (child : JsonBody) : JsonBody :=
  body.setVal key (.obj child.members)

def setStrArray (body : JsonBody) (key : String) (v : List String) : JsonBody :=
  body.setVal key (.arr (v.map fun s => .str (cstr s)))

/-- Copy a member of another body; nothing changes when it has none. -/
def copyField (body : JsonBody) (key : String) (src : JsonBody) : JsonBody :=
  match src.field key with
  | some v => body.setVal key v
  | none => body

/-- An array of one object. -/
def setArrayWithObject (body : JsonBody) (key : String) (fn : JsonBody → JsonBody) : JsonBody :=
  body.setVal key (.arr [.obj (fn {}).members])

/-- The object items of an array member, as views; other items are passed over. -/
def getObjArray (body : JsonBody) (key : String) : List JsonBody :=
  match body.field key with
  | some (.arr items) => (items.filter Val.isObj).map view
  | _ => []

/-- The members of an object member, none for every other type. -/
def membersAt (body : JsonBody) (key : String) : Members :=
  match body.field key with
  | some (.obj members) => members
  | _ => []

/-- Go through the members of one type, their names as C strings. -/
def each {α σ : Type} (isVal : Val → Bool) (get : Val → α) (body : JsonBody) (key : String)
    (fn : σ → String → α → σ) (s : σ) : σ :=
  (body.membersAt key).foldl
    (fun s member => if isVal member.2 then fn s (cstr member.1) (get member.2) else s) s

def eachBool {σ : Type} (body : JsonBody) (key : String) (fn : σ → String → Bool → σ) (s : σ) : σ :=
  body.each Val.isBool Val.getBool key fn s

/-- Integers are cut to 32 bits. -/
def eachInt {σ : Type} (body : JsonBody) (key : String) (fn : σ → String → Int32 → σ) (s : σ) : σ :=
  body.each Val.isInt (fun v => Int32.ofBitVec v.getInt) key fn s

/-- Compact text; the empty object when the writer fails. -/
def dump (y : Yyjson) (body : JsonBody) : List UInt8 :=
  (y.write (.obj body.members)).getD [123, 125]

/-- Indented text; the empty object when the writer fails. -/
def dumpPretty (y : Yyjson) (body : JsonBody) : List UInt8 :=
  (y.writePretty (.obj body.members)).getD [123, 125]

/-- Parse a C string; anything but an object gives an empty body. -/
def parse (y : Yyjson) (json : List UInt8) : JsonBody :=
  match cbytes json with
  | [] => {}
  | text =>
    match y.read text with
    | some (.obj members) => ⟨members⟩
    | _ => {}

/-- The body as a reader returns it: integer subtypes follow the sign. -/
def canon (body : JsonBody) : JsonBody := ⟨Val.canonMembers body.members⟩

/-- No floating-point number occurs in the body. -/
def realFree (body : JsonBody) : Bool := Val.realFreeMembers body.members

/-- An empty body has no field. -/
@[simp] theorem field_empty (key : String) : ({} : JsonBody).field key = none := rfl

/-- A field that was set is there. -/
@[simp] theorem field_setVal_self (body : JsonBody) (key : String) (v : Val) :
    (body.setVal key v).field key = some v := lookup_upsert_self key v body.members

/-- The others stay. -/
theorem field_setVal_ne {key other : String} (h : other ≠ key) (body : JsonBody) (v : Val) :
    (body.setVal key v).field other = body.field other := lookup_upsert_ne h v body.members

/-- Reading a body back keeps its fields, each read back. -/
@[simp] theorem field_canon (body : JsonBody) (key : String) :
    body.canon.field key = (body.field key).map Val.canon := lookup_canonMembers key body.members

/-- Type tests and typed reads do not see the subtype a reader chose. -/
@[simp] theorem has_canon (body : JsonBody) (key : String) :
    body.canon.has key = body.has key := by
  simp only [has, field_canon, Option.isSome_map]

/-- A number stays one. -/
@[simp] theorem isNum_canon (body : JsonBody) (key : String) :
    body.canon.isNum key = body.isNum key := by
  unfold isNum
  rw [field_canon]
  cases body.field key <;> simp

/-- An object stays one. -/
@[simp] theorem isObj_canon (body : JsonBody) (key : String) :
    body.canon.isObj key = body.isObj key := by
  unfold isObj
  rw [field_canon]
  cases body.field key <;> simp

/-- The truth value of a field stays. -/
@[simp] theorem valueBool_canon (body : JsonBody) (key : String) (default : Bool) :
    body.canon.valueBool key default = body.valueBool key default := by
  unfold valueBool
  rw [field_canon]
  cases body.field key <;> simp

/-- So does its integer. -/
@[simp] theorem valueInt_canon (body : JsonBody) (key : String) (default : Int32) :
    body.canon.valueInt key default = body.valueInt key default := by
  unfold valueInt
  rw [field_canon]
  cases body.field key <;> simp

/-- So does its 64-bit integer. -/
@[simp] theorem valueI64_canon (body : JsonBody) (key : String) (default : Int64) :
    body.canon.valueI64 key default = body.valueI64 key default := by
  unfold valueI64
  rw [field_canon]
  cases body.field key <;> simp

/-- So does its text. -/
@[simp] theorem valueStr_canon (body : JsonBody) (key : String) (default : String) :
    body.canon.valueStr key default = body.valueStr key default := by
  unfold valueStr
  rw [field_canon]
  cases body.field key <;> simp

/-- An object member of a body that was read is the member, as it is read. -/
theorem getObj_canon (body : JsonBody) (key : String) :
    body.canon.getObj key = (body.getObj key).canon := by
  unfold getObj
  rw [field_canon]
  cases body.field key with
  | none => rfl
  | some v => cases v <;> rfl

/-- A 32-bit value that was set reads back unchanged. -/
theorem getInt_signExtend (v : Int32) :
    Int32.ofBitVec ((v.toBitVec.signExtend 64).setWidth 32) = v := by
  have h : (v.toBitVec.signExtend 64).setWidth 32 = v.toBitVec := by
    apply BitVec.eq_of_getLsbD_eq
    intro i hi
    have h64 : i < 64 := by omega
    rw [BitVec.getLsbD_setWidth, BitVec.getLsbD_signExtend]
    simp only [hi, h64, decide_true, Bool.true_and, if_true]
  rw [h, Int32.ofBitVec_toBitVec]

/-- A new member comes last. -/
theorem members_setVal {body : JsonBody} {members : Members} (h : body.members = members)
    (key : String) (hk : key ∉ members.map Prod.fst) (v : Val) :
    (body.setVal key v).members = members ++ [(key, v)] := by
  have hkept : remove key body.members = members := by
    rw [h]
    refine List.filter_eq_self.mpr ?_
    intro member hm
    rw [bne_iff_ne]
    rintro rfl
    exact hk (List.mem_map_of_mem hm)
  unfold JsonBody.setVal upsert
  dsimp only
  rw [hkept]

/-- A field without floating-point numbers brings none. -/
theorem realFree_setVal {body : JsonBody} {v : Val} (h : body.realFree = true)
    (hv : v.realFree = true) (key : String) : (body.setVal key v).realFree = true :=
  realFreeMembers_upsert h hv key

/-- A text that reads as an object parses to its members, when no byte of it
is a NUL. -/
theorem parse_of_read {y : Yyjson} (hy : y.Lawful) {text : List UInt8} {members : Members}
    (hr : y.read text = some (.obj members)) (hb : ∀ b ∈ text, 10 ≤ b.toNat) :
    text ≠ [] ∧ parse y text = ⟨members⟩ := by
  have hc : cbytes text = text := by
    rw [cbytes, List.takeWhile_eq_self_iff]
    intro b hm
    rw [bne_iff_ne]
    rintro rfl
    exact absurd (hb 0 hm) (by decide)
  unfold parse
  rw [hc]
  cases text with
  | nil =>
    rw [hy.read_nil] at hr
    cases hr
  | cons b text =>
    refine ⟨List.cons_ne_nil b text, ?_⟩
    dsimp only
    rw [hr]

/-- The compact text of a body without floating-point numbers parses to the
body as it is read, and holds no control code. -/
theorem parse_dump {y : Yyjson} (hy : y.Lawful) {body : JsonBody} (h : body.realFree = true) :
    parse y (body.dump y) = body.canon ∧ ∀ b ∈ body.dump y, 32 ≤ b.toNat := by
  obtain ⟨text, hw, hr⟩ := hy.read_write (.obj body.members) h
  have he : body.dump y = text := by rw [dump, hw, Option.getD_some]
  have hb := hy.write_escapes _ _ hw
  have hten : ∀ b ∈ text, 10 ≤ b.toNat := fun b hm => Nat.le_trans (by omega) (hb b hm)
  rw [he]
  exact ⟨(parse_of_read hy hr hten).2, hb⟩

/-- So does its indented text, which is not empty. -/
theorem parse_dumpPretty {y : Yyjson} (hy : y.Lawful) {body : JsonBody}
    (h : body.realFree = true) :
    body.dumpPretty y ≠ [] ∧ parse y (body.dumpPretty y) = body.canon := by
  obtain ⟨text, hw, hr⟩ := hy.read_writePretty (.obj body.members) h
  have he : body.dumpPretty y = text := by rw [dumpPretty, hw, Option.getD_some]
  rw [he]
  exact parse_of_read hy hr (hy.writePretty_escapes _ _ hw)

end JsonBody

end KdeConnectNx.PacketBody
