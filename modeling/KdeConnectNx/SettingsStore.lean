import Mathlib.Data.List.AList
import KdeConnectNx.PairedFiles

/-!
# The settings and their file

Two hash maps, from the byte of a key to a boolean and to an integer, filled with
defaults, then with what the file holds under the names of the keys, and written
to the file after every change. Tables give each key its name and default; the
number of a key is its place in its table.
-/

namespace KdeConnectNx.SettingsStore

open JsonTree PacketBody PairedFiles PathNames

/-- `KDEC_BOOL_SETTINGS`. -/
def kdecBoolSettings : List (String × Bool) :=
  [("NotificationShowRemoteMessages", true), ("NotificationShowOnConnect", false),
    ("NotificationShowIcon", true), ("NotificationShowTime", true),
    ("NotificationDynamicFontSize", false), ("NotificationShowOnBatteryLow", true),
    ("RunCommandPowerCommandsEnabled", true), ("MprisShowAlbumArt", true),
    ("MprisAlbumArtTopLayout", true)]

/-- `KDEC_INT_SETTINGS`. -/
def kdecIntSettings : List (String × Int32) :=
  [("NotificationDuration", 4000), ("MprisSeekStepSize", 10000), ("NotificationFontSize", 22),
    ("NotificationStyle", 0)]

/-- `unordered_map<uint8_t, α>`; the order in which it is gone through is not that of
the entries. -/
abbrev Settings (α : Type) := AList fun _ : UInt8 => α

abbrev Entry (α : Type) := (_ : UInt8) × α

section Tables

variable {α : Type}

def keyName (table : List (String × α)) (key : UInt8) : Option String :=
  table[key.toNat]?.map Prod.fst

def keyFromName (table : List (String × α)) (name : String) : Option UInt8 :=
  (table.findIdx? fun entry => entry.1 == name).map UInt8.ofNat

def keyDefault (table : List (String × α)) (key : UInt8) : Option α :=
  table[key.toNat]?.map Prod.snd

/-- Defaults for the keys that are not there yet. -/
def applyDefaults (table : List (String × α)) (m : Settings α) : Settings α :=
  table.zipIdx.foldl
    (fun m e => if UInt8.ofNat e.2 ∈ m then m else m.insert (UInt8.ofNat e.2) e.1.2) m

/-- The value of a key, its default when it has none, and the fallback for a byte that
is no key. -/
def getIn (table : List (String × α)) (fallback : α) (m : Settings α) (key : UInt8) : α :=
  (m.lookup key).getD ((keyDefault table key).getD fallback)

/-- A member of the file is entered when its name is that of a key. -/
def enter (table : List (String × α)) (m : Settings α) (name : String) (value : α) : Settings α :=
  match keyFromName table name with
  | some key => m.insert key value
  | none => m

/-- A key is found as in the map, in whatever order that is gone through. -/
theorem dlookup_of_perm {m : Settings α} {entries : List (Entry α)} (h : entries.Perm m.entries)
    (key : UInt8) : entries.dlookup key = m.lookup key := by
  have hnodup : entries.NodupKeys := (List.perm_nodupKeys h).mpr m.nodupKeys
  exact List.perm_dlookup key hnodup h

end Tables

def boolKeyName (key : UInt8) : Option String := keyName kdecBoolSettings key

def intKeyName (key : UInt8) : Option String := keyName kdecIntSettings key

/-- `g_bool` and `g_int`. -/
structure Store where
  bools : Settings Bool := ∅
  ints : Settings Int32 := ∅

/-- The orders in which the two maps are gone through. -/
structure Iteration where
  bools : List (Entry Bool) → List (Entry Bool)
  ints : List (Entry Int32) → List (Entry Int32)
  bools_perm : ∀ entries, (bools entries).Perm entries
  ints_perm : ∀ entries, (ints entries).Perm entries

def settingsPath : String := "/config/kdeconnect/settings.json"

section Files

variable {φ : Type} [FileSystem φ]

def load (y : Yyjson) (s : Store) (fs : φ) : Store × φ :=
  let s : Store :=
    { bools := applyDefaults kdecBoolSettings s.bools,
      ints := applyDefaults kdecIntSettings s.ints }
  let content := readFile settingsPath fs
  if content.1.isEmpty then (s, content.2)
  else
    let j := JsonBody.parse y content.1
    ({ bools := j.eachBool "bool" (enter kdecBoolSettings) s.bools
       ints := j.eachInt "int" (enter kdecIntSettings) s.ints }, content.2)

/-- The document that is saved. -/
def document (order : Iteration) (s : Store) : JsonBody :=
  let jBool := (order.bools s.bools.entries).foldl
    (fun body e => (boolKeyName e.1).elim body fun name => body.setBool name e.2) {}
  let jInt := (order.ints s.ints.entries).foldl
    (fun body e => (intKeyName e.1).elim body fun name => body.setInt name e.2) {}
  (({} : JsonBody).setObj "bool" jBool).setObj "int" jInt

def save (y : Yyjson) (order : Iteration) (s : Store) (fs : φ) : φ :=
  let fs := (parentPath settingsPath).elim fs fun parent => makeDirectories parent fs
  (writeFile settingsPath ((document order s).dumpPretty y) fs).2

def getBool (s : Store) (key : UInt8) : Bool := getIn kdecBoolSettings false s.bools key

def getInt (s : Store) (key : UInt8) : Int32 := getIn kdecIntSettings 0 s.ints key

/-- `set(KdecBoolSettingKey, bool)`. -/
def setBool (y : Yyjson) (order : Iteration) (key : UInt8) (value : Bool) (s : Store) (fs : φ) :
    Store × φ :=
  let s := { s with bools := s.bools.insert key value }
  (s, save y order s fs)

/-- `set(KdecIntSettingKey, int32_t)`. -/
def setInt (y : Yyjson) (order : Iteration) (key : UInt8) (value : Int32) (s : Store) (fs : φ) :
    Store × φ :=
  let s := { s with ints := s.ints.insert key value }
  (s, save y order s fs)

end Files

/-- One of the two maps with its table, and what its values are in the file. -/
structure SettingKind (α : Type) where
  table : List (String × α)
  toVal : α → Val
  isVal : Val → Bool
  ofVal : Val → α
  names_nodup : (table.map Prod.fst).Nodup
  names_nulFree : ∀ entry ∈ table, NulFree entry.1
  length_le : table.length ≤ 256
  isVal_toVal : ∀ v, isVal (toVal v).canon = true
  ofVal_toVal : ∀ v, ofVal (toVal v).canon = v
  realFree_toVal : ∀ v, (toVal v).realFree = true

def boolKind : SettingKind Bool where
  table := kdecBoolSettings
  toVal := Val.bool
  isVal := Val.isBool
  ofVal := Val.getBool
  names_nodup := by decide
  names_nulFree := by decide
  length_le := by decide
  isVal_toVal := fun _ => rfl
  ofVal_toVal := fun _ => rfl
  realFree_toVal := fun _ => rfl

def intKind : SettingKind Int32 where
  table := kdecIntSettings
  toVal := fun v => .int .sint (v.toBitVec.signExtend 64)
  isVal := Val.isInt
  ofVal := fun v => Int32.ofBitVec v.getInt
  names_nodup := by decide
  names_nulFree := by decide
  length_le := by decide
  isVal_toVal := fun _ => rfl
  ofVal_toVal := fun v => JsonBody.getInt_signExtend v
  realFree_toVal := fun _ => rfl

namespace SettingKind

variable {α : Type} (kind : SettingKind α)

/-- The object that is made of a map. -/
def body (entries : List (Entry α)) : JsonBody :=
  entries.foldl (fun body e => (keyName kind.table e.1).elim body fun name =>
    body.setVal name (kind.toVal e.2)) {}

/-- What a key has after the members of the file, and what it had before them. -/
def heldFrom (key : UInt8) (start : Option α) (members : Members) : Option α :=
  members.foldl (fun found member =>
    if kind.isVal member.2 && keyFromName kind.table (cstr member.1) == some key then
      some (kind.ofVal member.2)
    else found) start

/-- Names and keys belong together. -/
theorem keyFromName_of_keyName {key : UInt8} {name : String}
    (h : keyName kind.table key = some name) :
    keyFromName kind.table name = some key := by
  obtain ⟨entry, hentry, rfl⟩ := Option.map_eq_some_iff.mp h
  obtain ⟨hlt, hget⟩ := List.getElem?_eq_some_iff.mp hentry
  have hfound : (kind.table.findIdx? fun e => e.1 == entry.1) = some key.toNat := by
    rw [List.findIdx?_eq_some_iff_getElem]
    refine ⟨hlt, by simp [hget], ?_⟩
    intro j hj hname
    have hsame : (kind.table.map Prod.fst)[j]? = (kind.table.map Prod.fst)[key.toNat]? := by
      rw [List.getElem?_map, List.getElem?_map, List.getElem?_eq_getElem hlt, hget,
        List.getElem?_eq_getElem (Nat.lt_trans hj hlt)]
      exact congrArg some (beq_iff_eq.mp hname)
    have hj' : j < (kind.table.map Prod.fst).length := by
      rw [List.length_map]
      omega
    exact absurd ((List.getElem?_inj hj' kind.names_nodup).mp hsame) (Nat.ne_of_lt hj)
  rw [keyFromName, hfound, Option.map_some, UInt8.ofNat_toNat]

theorem keyName_of_keyFromName {key : UInt8} {name : String}
    (h : keyFromName kind.table name = some key) : keyName kind.table key = some name := by
  obtain ⟨i, hi, rfl⟩ := Option.map_eq_some_iff.mp h
  obtain ⟨hlt, hname, -⟩ := List.findIdx?_eq_some_iff_getElem.mp hi
  have hsmall : i < 256 := Nat.lt_of_lt_of_le hlt kind.length_le
  rw [keyName, UInt8.toNat_ofNat', Nat.mod_eq_of_lt hsmall, List.getElem?_eq_getElem hlt,
    Option.map_some, beq_iff_eq.mp hname]

theorem cstr_of_keyName {key : UInt8} {name : String} (h : keyName kind.table key = some name) :
    cstr name = name := by
  obtain ⟨entry, hentry, rfl⟩ := Option.map_eq_some_iff.mp h
  exact cstr_of_nulFree (kind.names_nulFree entry (List.mem_of_getElem? hentry))

/-- Keys with one name are one key. -/
theorem keyName_inj {key other : UInt8} {name : String} (h : keyName kind.table key = some name)
    (hother : keyName kind.table other = some name) : key = other := by
  have hkey := kind.keyFromName_of_keyName h
  rw [kind.keyFromName_of_keyName hother] at hkey
  exact (Option.some.inj hkey).symm

/-- Every key of the table has a value then, the default where it had none. -/
theorem lookup_applyDefaults (m : Settings α) (key : UInt8) :
    (applyDefaults kind.table m).lookup key = (m.lookup key).or (keyDefault kind.table key) := by
  have hall : ∀ (table : List (String × α)) (n : ℕ) (m : Settings α), n + table.length ≤ 256 →
      ((table.zipIdx n).foldl (fun m e => if UInt8.ofNat e.2 ∈ m then m
          else m.insert (UInt8.ofNat e.2) e.1.2) m).lookup key =
        (m.lookup key).or (if n ≤ key.toNat then table[key.toNat - n]?.map Prod.snd else none) := by
    intro table
    induction table with
    | nil =>
      intro n m _
      simp
    | cons entry table ih =>
      intro n m hsmall
      rw [List.length_cons] at hsmall
      rw [List.zipIdx_cons, List.foldl_cons, ih (n + 1) _ (by omega)]
      dsimp only
      by_cases hkey : key.toNat = n
      · have hbyte : UInt8.ofNat n = key := by rw [← hkey, UInt8.ofNat_toNat]
        have hpast : ¬ n + 1 ≤ key.toNat := by omega
        rw [hbyte, if_neg hpast, if_pos (Nat.le_of_eq hkey.symm), hkey, Nat.sub_self,
          List.getElem?_cons_zero, Option.or_none]
        by_cases hin : key ∈ m
        · obtain ⟨v, hv⟩ := Option.isSome_iff_exists.mp (AList.lookup_isSome.mpr hin)
          rw [if_pos hin, hv]
          rfl
        · rw [if_neg hin, AList.lookup_insert, AList.lookup_eq_none.mpr hin]
          rfl
      · have hbyte : key ≠ UInt8.ofNat n := by
          rintro rfl
          rw [UInt8.toNat_ofNat', Nat.mod_eq_of_lt (by omega)] at hkey
          exact hkey rfl
        have hsame : (if UInt8.ofNat n ∈ m then m else m.insert (UInt8.ofNat n) entry.2).lookup
            key =
            m.lookup key := by
          split
          · rfl
          · exact AList.lookup_insert_ne hbyte
        have hrest : (if n + 1 ≤ key.toNat then table[key.toNat - (n + 1)]?.map Prod.snd
            else none) =
            if n ≤ key.toNat then (entry :: table)[key.toNat - n]?.map Prod.snd else none := by
          by_cases hle : n + 1 ≤ key.toNat
          · have hindex : key.toNat - n = key.toNat - (n + 1) + 1 := by omega
            rw [if_pos hle, if_pos (by omega), hindex, List.getElem?_cons_succ]
          · rw [if_neg hle, if_neg (by omega)]
        rw [hsame, hrest]
  have hwhole := hall kind.table 0 m (by rw [Nat.zero_add]; exact kind.length_le)
  rw [if_pos (Nat.zero_le _), Nat.sub_zero] at hwhole
  exact hwhole

/-- What the file holds is entered key by key. -/
theorem lookup_foldl_enter (m : Settings α) (key : UInt8) (members : Members) :
    (members.foldl (fun m member => if kind.isVal member.2 then
        enter kind.table m (cstr member.1) (kind.ofVal member.2) else m) m).lookup key =
      kind.heldFrom key (m.lookup key) members := by
  unfold heldFrom
  induction members generalizing m with
  | nil => rfl
  | cons member members ih =>
    rw [List.foldl_cons, List.foldl_cons, ih]
    congr 1
    by_cases hval : kind.isVal member.2 = true
    · rw [if_pos hval, hval, Bool.true_and]
      unfold enter
      cases hname : keyFromName kind.table (cstr member.1) with
      | none => rfl
      | some other =>
        by_cases hother : other = key
        · subst hother
          rw [if_pos (beq_iff_eq.mpr rfl)]
          exact AList.lookup_insert m
        · rw [if_neg (by simp [hother])]
          exact AList.lookup_insert_ne (Ne.symm hother)
    · rw [if_neg hval, if_neg (by simp [hval])]

/-- A key has what it had, or the value of a member of its name and type. -/
theorem heldFrom_cases (key : UInt8) (start : Option α) (members : Members) :
    kind.heldFrom key start members = start ∨
      ∃ member ∈ members, kind.isVal member.2 = true ∧
        keyFromName kind.table (cstr member.1) = some key ∧
        kind.heldFrom key start members = some (kind.ofVal member.2) := by
  unfold heldFrom
  induction members generalizing start with
  | nil => exact .inl rfl
  | cons member members ih =>
    rw [List.foldl_cons]
    rcases ih (if kind.isVal member.2 && keyFromName kind.table (cstr member.1) == some key then
        some (kind.ofVal member.2) else start) with hsame | ⟨other, hmem, hrest⟩
    · rw [hsame]
      split
      · next hheld =>
        rw [Bool.and_eq_true, beq_iff_eq] at hheld
        exact .inr ⟨member, List.mem_cons_self, hheld.1, hheld.2, rfl⟩
      · exact .inl rfl
    · exact .inr ⟨other, List.mem_cons_of_mem _ hmem, hrest⟩

/-- The members that are made of the entries of a map. -/
def memberOf (e : Entry α) : Option (String × Val) :=
  (keyName kind.table e.1).map fun name => (name, kind.toVal e.2)

/-- Every entry with a name gets one member. -/
theorem members_body {entries : List (Entry α)} (h : entries.NodupKeys) :
    (kind.body entries).members = entries.filterMap kind.memberOf := by
  have hall : ∀ (entries : List (Entry α)) (body : JsonBody), entries.NodupKeys →
      (∀ e ∈ entries, ∀ name, keyName kind.table e.1 = some name →
        name ∉ body.members.map Prod.fst) →
      (entries.foldl (fun body e => (keyName kind.table e.1).elim body fun name =>
        body.setVal name (kind.toVal e.2)) body).members =
          body.members ++ entries.filterMap kind.memberOf := by
    intro entries
    induction entries with
    | nil =>
      intro body _ _
      rw [List.foldl_nil, List.filterMap_nil, List.append_nil]
    | cons e entries ih =>
      intro body hnodup hfresh
      obtain ⟨hnew, hrest⟩ := List.nodupKeys_cons.mp hnodup
      rw [List.foldl_cons]
      cases hname : keyName kind.table e.1 with
      | none =>
        have hskip : kind.memberOf e = none := by rw [memberOf, hname]; rfl
        rw [Option.elim_none, List.filterMap_cons_none hskip]
        exact ih body hrest fun other hother => hfresh other (List.mem_cons_of_mem _ hother)
      | some name =>
        have hmember : kind.memberOf e = some (name, kind.toVal e.2) := by rw [memberOf, hname]; rfl
        have hmembers : (body.setVal name (kind.toVal e.2)).members =
            body.members ++ [(name, kind.toVal e.2)] :=
          JsonBody.members_setVal rfl name (hfresh e List.mem_cons_self name hname) (kind.toVal e.2)
        rw [Option.elim_some, List.filterMap_cons_some hmember, ih _ hrest, hmembers,
          List.append_assoc]
        · rfl
        · intro other hother name' hname'
          rw [hmembers, List.map_append, List.mem_append, not_or]
          refine ⟨hfresh other (List.mem_cons_of_mem _ hother) name' hname', ?_⟩
          intro hsame
          obtain rfl := List.mem_singleton.mp hsame
          have hkey := kind.keyName_inj hname hname'
          exact hnew (hkey ▸ List.mem_map_of_mem hother)
  exact hall entries {} h fun _ _ _ _ => List.not_mem_nil

theorem realFree_body (entries : List (Entry α)) : (kind.body entries).realFree = true := by
  have hall : ∀ (entries : List (Entry α)) (body : JsonBody), body.realFree = true →
      (entries.foldl (fun body e => (keyName kind.table e.1).elim body fun name =>
        body.setVal name (kind.toVal e.2)) body).realFree = true := by
    intro entries
    induction entries with
    | nil => exact fun _ h => h
    | cons e entries ih =>
      intro body h
      rw [List.foldl_cons]
      cases keyName kind.table e.1 with
      | none => exact ih body h
      | some name => exact ih _ (JsonBody.realFree_setVal h (kind.realFree_toVal e.2) name)
  exact hall entries {} rfl

/-- Read back, a key has the value of its entry. -/
theorem heldFrom_body {key : UInt8} {name : String} (hname : keyName kind.table key = some name)
    {entries : List (Entry α)} (h : entries.NodupKeys) (start : Option α) :
    kind.heldFrom key start (Val.canonMembers (entries.filterMap kind.memberOf)) =
      (entries.dlookup key).or start := by
  induction entries generalizing start with
  | nil => rfl
  | cons e entries ih =>
    obtain ⟨hnew, hrest⟩ := List.nodupKeys_cons.mp h
    cases hown : keyName kind.table e.1 with
    | none =>
      have hskip : kind.memberOf e = none := by rw [memberOf, hown]; rfl
      have hother : key ≠ e.1 := by
        rintro rfl
        rw [hname] at hown
        cases hown
      rw [List.filterMap_cons_none hskip, ih hrest, List.dlookup_cons_ne _ _ hother]
    | some own =>
      have hmember : kind.memberOf e = some (own, kind.toVal e.2) := by rw [memberOf, hown]; rfl
      rw [List.filterMap_cons_some hmember]
      unfold Val.canonMembers heldFrom
      rw [List.foldl_cons, kind.isVal_toVal, kind.ofVal_toVal, kind.cstr_of_keyName hown,
        kind.keyFromName_of_keyName hown, Bool.true_and]
      by_cases hkey : e.1 = key
      · subst hkey
        rw [if_pos (beq_iff_eq.mpr rfl)]
        have hgone : entries.dlookup e.1 = none := List.dlookup_eq_none.mpr hnew
        have htail := ih hrest (some e.2)
        unfold heldFrom at htail
        rw [htail, hgone, List.dlookup_cons_eq]
        rfl
      · have htail := ih hrest start
        unfold heldFrom at htail
        rw [if_neg (by simp [hkey]), htail, List.dlookup_cons_ne _ _ (Ne.symm hkey)]

end SettingKind

end KdeConnectNx.SettingsStore
