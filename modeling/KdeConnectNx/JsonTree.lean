import Mathlib.Data.List.Basic
import Mathlib.Data.Int.Notation

/-!
# JSON trees as a mutable document library holds them

Integers keep the 64 stored bits and the subtype they were written with, so
a value set through a signed setter and the same value read back from text
differ in subtype only. Objects are ordered member lists: a lookup finds the
first member of a name, an upsert removes every member of the name and adds
the new one last.
-/

namespace KdeConnectNx.JsonTree

/-- Integer subtypes: what a signed setter stores and what the reader makes of
a literal without a minus sign. -/
inductive IntKind where
  | uint
  | sint
  deriving DecidableEq, Repr

/-- A JSON value. -/
inductive Val where
  | null
  | bool (b : Bool)
  /-- The 64 stored bits, read as unsigned or signed by the subtype. -/
  | int (kind : IntKind) (bits : BitVec 64)
  /-- A number with a fraction, an exponent or too many digits. -/
  | real (q : Rat)
  | str (s : String)
  | arr (items : List Val)
  | obj (members : List (String × Val))

/-- Members of an object in document order. -/
abbrev Members := List (String × Val)

namespace Val

/-- Type test for strings. -/
def isStr : Val → Bool
  | .str _ => true
  | _ => false

/-- Type test for numbers of every subtype. -/
def isNum : Val → Bool
  | .int _ _ => true
  | .real _ => true
  | _ => false

/-- Type test for integers of either subtype. -/
def isInt : Val → Bool
  | .int _ _ => true
  | _ => false

/-- Type test for booleans. -/
def isBool : Val → Bool
  | .bool _ => true
  | _ => false

/-- Type test for arrays. -/
def isArr : Val → Bool
  | .arr _ => true
  | _ => false

/-- Type test for objects. -/
def isObj : Val → Bool
  | .obj _ => true
  | _ => false

/-- Boolean payload, false for every other type. -/
def getBool : Val → Bool
  | .bool b => b
  | _ => false

/-- The 64 bits of an integer of either subtype; reals and other types give
zero. -/
def getSint : Val → BitVec 64
  | .int _ bits => bits
  | _ => 0

/-- The low 32 bits of an integer of either subtype; reals and other types
give zero. -/
def getInt : Val → BitVec 32
  | .int _ bits => bits.setWidth 32
  | _ => 0

/-- String payload, with the stored length (it may hold a NUL). -/
def getStr : Val → String
  | .str s => s
  | _ => ""

/-- The mathematical value of an integer node. -/
def intValue : IntKind → BitVec 64 → ℤ
  | .uint, bits => bits.toNat
  | .sint, bits => bits.toInt

mutual
/-- No floating-point number occurs anywhere in the tree. -/
def realFree : Val → Bool
  | .real _ => false
  | .arr items => realFreeItems items
  | .obj members => realFreeMembers members
  | _ => true

/-- No floating-point number occurs in any of the array's items. -/
def realFreeItems : List Val → Bool
  | [] => true
  | v :: vs => v.realFree && realFreeItems vs

/-- No floating-point number occurs in any of the object's members. -/
def realFreeMembers : Members → Bool
  | [] => true
  | (_, v) :: ms => v.realFree && realFreeMembers ms
end

/-- Subtype the reader gives an integer: signed only below zero. -/
def readKind : IntKind → BitVec 64 → IntKind
  | .uint, _ => .uint
  | .sint, bits => if bits.msb then .sint else .uint

mutual
/-- The tree a reader makes of the written tree: integer subtypes follow the
sign, everything else is unchanged. -/
def canon : Val → Val
  | .int kind bits => .int (readKind kind bits) bits
  | .arr items => .arr (canonItems items)
  | .obj members => .obj (canonMembers members)
  | .null => .null
  | .bool b => .bool b
  | .real q => .real q
  | .str s => .str s

/-- Canonical items of an array, in order. -/
def canonItems : List Val → List Val
  | [] => []
  | v :: vs => v.canon :: canonItems vs

/-- Canonical members of an object, in order and with unchanged names. -/
def canonMembers : Members → Members
  | [] => []
  | (key, v) :: ms => (key, v.canon) :: canonMembers ms
end

/-- What is read back of a string is a string. -/
@[simp] theorem canon_isStr (v : Val) : v.canon.isStr = v.isStr := by
  cases v <;> rfl

/-- Of a number a number. -/
@[simp] theorem canon_isNum (v : Val) : v.canon.isNum = v.isNum := by
  cases v <;> rfl

/-- Of an integer an integer. -/
@[simp] theorem canon_isInt (v : Val) : v.canon.isInt = v.isInt := by
  cases v <;> rfl

/-- Of a truth value one of these. -/
@[simp] theorem canon_isBool (v : Val) : v.canon.isBool = v.isBool := by
  cases v <;> rfl

/-- Of an array an array. -/
@[simp] theorem canon_isArr (v : Val) : v.canon.isArr = v.isArr := by
  cases v <;> rfl

/-- Of an object an object. -/
@[simp] theorem canon_isObj (v : Val) : v.canon.isObj = v.isObj := by
  cases v <;> rfl

/-- The truth value is the same. -/
@[simp] theorem canon_getBool (v : Val) : v.canon.getBool = v.getBool := by
  cases v <;> rfl

/-- So are the 64 bits of an integer. -/
@[simp] theorem canon_getSint (v : Val) : v.canon.getSint = v.getSint := by
  cases v <;> rfl

/-- So is what is left of them in 32. -/
@[simp] theorem canon_getInt (v : Val) : v.canon.getInt = v.getInt := by
  cases v <;> rfl

/-- So is the text. -/
@[simp] theorem canon_getStr (v : Val) : v.canon.getStr = v.getStr := by
  cases v <;> rfl

end Val

/-- Value of the first member with this name. -/
def lookup (key : String) (members : Members) : Option Val := List.lookup key members

/-- Every member with this name is removed. -/
def remove (key : String) (members : Members) : Members :=
  members.filter fun member => member.1 != key

/-- Replace whatever the name held: remove all its members, add one last. -/
def upsert (key : String) (v : Val) (members : Members) : Members :=
  remove key members ++ [(key, v)]

/-- Nothing is found among no members. -/
@[simp] theorem lookup_nil (key : String) : lookup key [] = none := rfl

/-- The first member of a name is the one that is found. -/
theorem lookup_cons (key name : String) (v : Val) (members : Members) :
    lookup key ((name, v) :: members) = if key = name then some v else lookup key members := by
  unfold lookup
  rw [List.lookup_cons]
  by_cases h : key = name
  · simp [h]
  · simp only [beq_eq_false_iff_ne.mpr h, if_neg h]

/-- A removed name is found nowhere. -/
@[simp] theorem lookup_remove_self (key : String) (members : Members) :
    lookup key (remove key members) = none := by
  induction members with
  | nil => rfl
  | cons member members ih =>
    obtain ⟨name, v⟩ := member
    by_cases h : name = key
    · simpa [remove, h] using ih
    · have hk : key ≠ name := fun he => h he.symm
      simp only [remove, List.filter_cons, bne_iff_ne, ne_eq, h, not_false_eq_true, if_true,
        lookup_cons, hk, if_false]
      exact ih

/-- Removing one name leaves the other names' values. -/
theorem lookup_remove_ne {key other : String} (h : other ≠ key) (members : Members) :
    lookup other (remove key members) = lookup other members := by
  induction members with
  | nil => rfl
  | cons member members ih =>
    obtain ⟨name, v⟩ := member
    by_cases hn : name = key
    · have ho : other ≠ name := fun he => h (he.trans hn)
      have hr : remove key ((name, v) :: members) = remove key members := by
        simp [remove, hn]
      rw [hr, ih, lookup_cons, if_neg ho]
    · have hr : remove key ((name, v) :: members) = (name, v) :: remove key members := by
        simp [remove, hn]
      rw [hr, lookup_cons, lookup_cons, ih]

/-- What stands before is found first. -/
theorem lookup_append (key : String) (first second : Members) :
    lookup key (first ++ second) = (lookup key first).or (lookup key second) :=
  List.lookup_append

/-- An upserted name reads back as the new value. -/
@[simp] theorem lookup_upsert_self (key : String) (v : Val) (members : Members) :
    lookup key (upsert key v members) = some v := by
  rw [upsert, lookup_append, lookup_remove_self, lookup_cons, if_pos rfl]
  rfl

/-- An upsert leaves every other name's value. -/
theorem lookup_upsert_ne {key other : String} (h : other ≠ key) (v : Val) (members : Members) :
    lookup other (upsert key v members) = lookup other members := by
  rw [upsert, lookup_append, lookup_remove_ne h, lookup_cons, if_neg h, lookup_nil, Option.or_none]

/-- Reading a name commutes with canonicalisation. -/
@[simp] theorem lookup_canonMembers (key : String) (members : Members) :
    lookup key (Val.canonMembers members) = (lookup key members).map Val.canon := by
  induction members with
  | nil => rfl
  | cons member members ih =>
    obtain ⟨name, v⟩ := member
    rw [Val.canonMembers, lookup_cons, lookup_cons, ih]
    by_cases h : key = name
    · rw [if_pos h, if_pos h]
      rfl
    · rw [if_neg h, if_neg h]

/-- Two lists are free of floating-point numbers if both are. -/
theorem realFreeMembers_append (first second : Members) :
    Val.realFreeMembers (first ++ second) =
      (Val.realFreeMembers first && Val.realFreeMembers second) := by
  induction first with
  | nil => rfl
  | cons member first ih =>
    rw [List.cons_append, Val.realFreeMembers, Val.realFreeMembers, ih, Bool.and_assoc]

/-- Removing members introduces no floating-point number. -/
theorem realFreeMembers_remove {members : Members} (h : Val.realFreeMembers members = true)
    (key : String) : Val.realFreeMembers (remove key members) = true := by
  induction members with
  | nil => rfl
  | cons member members ih =>
    obtain ⟨name, v⟩ := member
    rw [Val.realFreeMembers, Bool.and_eq_true] at h
    have hm := ih h.2
    by_cases hn : name = key
    · have hr : remove key ((name, v) :: members) = remove key members := by
        simp [remove, hn]
      rw [hr]
      exact hm
    · have hr : remove key ((name, v) :: members) = (name, v) :: remove key members := by
        simp [remove, hn]
      rw [hr, Val.realFreeMembers, h.1, hm]
      rfl

/-- Upserting a tree without floating-point numbers keeps the object free of
them. -/
theorem realFreeMembers_upsert {members : Members} {v : Val}
    (h : Val.realFreeMembers members = true) (hv : v.realFree = true) (key : String) :
    Val.realFreeMembers (upsert key v members) = true := by
  rw [upsert, realFreeMembers_append, realFreeMembers_remove h key]
  simp [Val.realFreeMembers, hv]

end KdeConnectNx.JsonTree
