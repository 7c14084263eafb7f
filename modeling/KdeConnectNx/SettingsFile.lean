import KdeConnectNx.Runs
import KdeConnectNx.SettingsStore

/-!
# Settings across a restart

What was set is what the next process loads, in whatever order the maps were gone
through for the file. Whatever the file holds, every key has a value, and another one
than its default only from a member of its name and type. Content and names end at
their first NUL.
-/

namespace KdeConnectNx.SettingsFile

open JsonTree PacketBody PairedFiles PathNames SettingsStore Runs
open LawfulFileSystem (contents)

/-- One call of `SettingsStore::set`, with the orders in which `save` goes through the
maps. -/
inductive Write
  | bool (key : UInt8) (value : Bool) (order : Iteration)
  | int (key : UInt8) (value : Int32) (order : Iteration)

structure World (φ : Type) where
  store : Store
  fs : φ

section Runs

variable {φ : Type} [FileSystem φ]

def step (y : Yyjson) (w : World φ) : Write → World φ
  | .bool key value order =>
    let r := setBool y order key value w.store w.fs
    ⟨r.1, r.2⟩
  | .int key value order =>
    let r := setInt y order key value w.store w.fs
    ⟨r.1, r.2⟩

/-- A process that has loaded its settings. -/
def start (y : Yyjson) (fs : φ) : World φ :=
  let r := load y {} fs
  ⟨r.1, r.2⟩

/-- What the next process loads. -/
def reloaded (y : Yyjson) (w : World φ) : Store := (start y w.fs).store

/-- What `load` makes of the file. -/
def fileDocument (y : Yyjson) (fs : φ) : JsonBody := JsonBody.parse y (readFile settingsPath fs).1

end Runs

/-- The bytes of the settings file, none when there is no file. -/
def settingsContent {φ : Type} [LawfulFileSystem φ] (fs : φ) : List UInt8 :=
  (contents fs (normalize settingsPath.toList)).getD []

/-- The object a text is, an empty one when it is no JSON or something else. -/
def objectOf (y : Yyjson) (text : List UInt8) : JsonBody :=
  match y.read text with
  | some (.obj members) => ⟨members⟩
  | _ => {}

/-- The value a boolean key was last set to. -/
def lastBool (key : UInt8) (writes : List Write) : Option Bool :=
  writes.foldl (fun last write => match write with
    | .bool k value _ => if k = key then some value else last
    | .int _ _ _ => last) none

/-- The value an integer key was last set to. -/
def lastInt (key : UInt8) (writes : List Write) : Option Int32 :=
  writes.foldl (fun last write => match write with
    | .int k value _ => if k = key then some value else last
    | .bool _ _ _ => last) none

theorem lastBool_append (key : UInt8) (writes : List Write) (write : Write) :
    lastBool key (writes ++ [write]) = match write with
      | .bool k value _ => if k = key then some value else lastBool key writes
      | .int _ _ _ => lastBool key writes := by
  unfold lastBool
  rw [List.foldl_append]
  rfl

theorem lastInt_append (key : UInt8) (writes : List Write) (write : Write) :
    lastInt key (writes ++ [write]) = match write with
      | .int k value _ => if k = key then some value else lastInt key writes
      | .bool _ _ _ => lastInt key writes := by
  unfold lastInt
  rw [List.foldl_append]
  rfl

/-- A key has its default, or the value of a member of the file that has the key's name,
read up to a NUL, and its type. -/
def FromFile {α : Type} (kind : SettingKind α) (key : UInt8) (members : Members) (value : α) :
    Prop :=
  keyDefault kind.table key = some value ∨
    ∃ member ∈ members, keyName kind.table key = some (cstr member.1) ∧
      kind.isVal member.2 = true ∧ kind.ofVal member.2 = value

section Loading

variable {φ : Type} [FileSystem φ] {y : Yyjson}

/-- A map that has been loaded, key by key. -/
theorem lookup_each {α : Type} (kind : SettingKind α) (j : JsonBody) (field : String)
    (m : Settings α) (key : UInt8) :
    (j.each kind.isVal kind.ofVal field (enter kind.table) (applyDefaults kind.table m)).lookup
      key =
      kind.heldFrom key ((m.lookup key).or (keyDefault kind.table key)) (j.membersAt field) := by
  rw [JsonBody.each, kind.lookup_foldl_enter, kind.lookup_applyDefaults]

/-- Both maps come from the document of the file, which has no members when nothing is
read. -/
theorem load_eq (y : Yyjson) (s : Store) (fs : φ) :
    (load y s fs).1 =
      { bools := (fileDocument y fs).eachBool "bool" (enter kdecBoolSettings)
          (applyDefaults kdecBoolSettings s.bools)
        ints := (fileDocument y fs).eachInt "int" (enter kdecIntSettings)
          (applyDefaults kdecIntSettings s.ints) } := by
  unfold load fileDocument
  dsimp only
  generalize applyDefaults kdecBoolSettings s.bools = bools
  generalize applyDefaults kdecIntSettings s.ints = ints
  cases (readFile settingsPath fs).1 with
  | nil => rfl
  | cons b content => rfl

theorem load_snd (y : Yyjson) (s : Store) (fs : φ) :
    (load y s fs).2 = (readFile settingsPath fs).2 := by
  unfold load
  dsimp only
  split <;> rfl

theorem lookup_start_bools (y : Yyjson) (fs : φ) (key : UInt8) :
    (start y fs).store.bools.lookup key = boolKind.heldFrom key (keyDefault kdecBoolSettings key)
      ((fileDocument y fs).membersAt "bool") := by
  have hloaded : (start y fs).store = (load y {} fs).1 := rfl
  rw [hloaded, load_eq]
  exact lookup_each boolKind (fileDocument y fs) "bool" ∅ key

theorem lookup_start_ints (y : Yyjson) (fs : φ) (key : UInt8) :
    (start y fs).store.ints.lookup key = intKind.heldFrom key (keyDefault kdecIntSettings key)
      ((fileDocument y fs).membersAt "int") := by
  have hloaded : (start y fs).store = (load y {} fs).1 := rfl
  rw [hloaded, load_eq]
  exact lookup_each intKind (fileDocument y fs) "int" ∅ key

/-- A key of the table has a value after its default and the file. -/
theorem fromFile_of_key {α : Type} (kind : SettingKind α) {key : UInt8}
    (hkey : key.toNat < kind.table.length) (members : Members) :
    ∃ value, kind.heldFrom key (keyDefault kind.table key) members = some value ∧
      FromFile kind key members value := by
  have hdefault : keyDefault kind.table key = some (kind.table[key.toNat]).2 := by
    rw [keyDefault, List.getElem?_eq_getElem hkey, Option.map_some]
  rcases kind.heldFrom_cases key (keyDefault kind.table key) members with
    hsame | ⟨member, hmem, hval, hname, hheld⟩
  · exact ⟨_, hsame.trans hdefault, .inl hdefault⟩
  · exact ⟨_, hheld, .inr ⟨member, hmem, kind.keyName_of_keyFromName hname, hval, rfl⟩⟩

end Loading

section Saving

variable (order : Iteration) (s : Store)

theorem membersAt_document_bool : (document order s).canon.membersAt "bool" =
    Val.canonMembers (boolKind.body (order.bools s.bools.entries)).members := by
  have hfield : (document order s).field "bool" =
      some (.obj (boolKind.body (order.bools s.bools.entries)).members) := by
    rw [document, JsonBody.setObj, JsonBody.field_setVal_ne (by decide)]
    exact JsonBody.field_setVal_self _ _ _
  rw [JsonBody.membersAt, JsonBody.field_canon, hfield]
  rfl

theorem membersAt_document_int : (document order s).canon.membersAt "int" =
    Val.canonMembers (intKind.body (order.ints s.ints.entries)).members := by
  have hfield : (document order s).field "int" =
      some (.obj (intKind.body (order.ints s.ints.entries)).members) :=
    JsonBody.field_setVal_self _ _ _
  rw [JsonBody.membersAt, JsonBody.field_canon, hfield]
  rfl

theorem realFree_document : (document order s).realFree = true := by
  have hbools : (Val.obj (boolKind.body (order.bools s.bools.entries)).members).realFree = true :=
    boolKind.realFree_body _
  have hints : (Val.obj (intKind.body (order.ints s.ints.entries)).members).realFree = true :=
    intKind.realFree_body _
  have hempty : ({} : JsonBody).realFree = true := rfl
  exact JsonBody.realFree_setVal (JsonBody.realFree_setVal hempty hbools "bool") hints "int"

/-- A map that went through the file has its values again, in whatever order it was
gone through. -/
theorem heldFrom_saved {α : Type} (kind : SettingKind α) {key : UInt8}
    (hkey : key.toNat < kind.table.length) {m : Settings α} {entries : List (Entry α)}
    (hperm : entries.Perm m.entries) (fallback : α) :
    kind.heldFrom key (keyDefault kind.table key) (Val.canonMembers (kind.body entries).members) =
      some (getIn kind.table fallback m key) := by
  have hname : keyName kind.table key = some (kind.table[key.toNat]).1 := by
    rw [keyName, List.getElem?_eq_getElem hkey, Option.map_some]
  have hdefault : keyDefault kind.table key = some (kind.table[key.toNat]).2 := by
    rw [keyDefault, List.getElem?_eq_getElem hkey, Option.map_some]
  have hnodup : entries.NodupKeys := (List.perm_nodupKeys hperm).mpr m.nodupKeys
  have hlookup := dlookup_of_perm hperm key
  rw [kind.members_body hnodup, kind.heldFrom_body hname hnodup, hlookup, hdefault, getIn, hdefault]
  cases m.lookup key <;> rfl

end Saving

section Writes

variable {φ : Type} [LawfulFileSystem φ] {y : Yyjson}

/-- What is read is the content of the file. -/
theorem readFile_settings (fs : φ) : (readFile settingsPath fs).1 = settingsContent fs := by
  have hshort : decide (fsMaxPath ≤ settingsPath.utf8ByteSize) = false := by decide
  rw [readFile, LawfulFileSystem.mounted_eq, hshort]
  exact LawfulFileSystem.read_fst settingsPath fs

/-- What is made of it is the object that its first part is, up to a NUL. -/
theorem fileDocument_eq (hy : y.Lawful) (fs : φ) :
    fileDocument y fs = objectOf y (cbytes (settingsContent fs)) := by
  rw [fileDocument, readFile_settings, JsonBody.parse, objectOf]
  cases cbytes (settingsContent fs) with
  | nil => rw [hy.read_nil]
  | cons b text => rfl

/-- A load changes no file. -/
theorem contents_start (y : Yyjson) (fs : φ) : contents (start y fs).fs = contents fs := by
  have hloaded : (start y fs).fs = (load y {} fs).2 := rfl
  have hshort : decide (fsMaxPath ≤ settingsPath.utf8ByteSize) = false := by decide
  rw [hloaded, load_snd, readFile, LawfulFileSystem.mounted_eq, hshort]
  exact LawfulFileSystem.contents_read settingsPath fs

theorem contents_save (y : Yyjson) (order : Iteration) (s : Store) (fs : φ) :
    contents (save y order s fs) (normalize settingsPath.toList) =
      some ((document order s).dumpPretty y) := by
  unfold save
  dsimp only
  rw [contents_writeFile (by decide)]
  exact if_pos rfl

/-- After a write the file holds the document of the store. -/
theorem contents_step (y : Yyjson) (w : World φ) (write : Write) : ∃ order,
    contents (step y w write).fs (normalize settingsPath.toList) =
      some ((document order (step y w write).store).dumpPretty y) := by
  cases write with
  | bool key value order => exact ⟨order, contents_save y order _ _⟩
  | int key value order => exact ⟨order, contents_save y order _ _⟩

theorem fileDocument_saved (hy : y.Lawful) {fs : φ} {order : Iteration} {s : Store}
    (h : contents fs (normalize settingsPath.toList) = some ((document order s).dumpPretty y)) :
    fileDocument y fs = (document order s).canon := by
  rw [fileDocument, readFile_settings, settingsContent, h, Option.getD_some]
  exact (JsonBody.parse_dumpPretty hy (realFree_document order s)).2

theorem fileDocument_none {fs : φ} (h : contents fs (normalize settingsPath.toList) = none) :
    fileDocument y fs = {} := by
  rw [fileDocument, readFile_settings, settingsContent, h]
  rfl

/-- The next process reads what the store had when it was last saved. -/
theorem getBool_reloaded (hy : y.Lawful) {w : World φ} {order : Iteration}
    (h : contents w.fs (normalize settingsPath.toList) =
      some ((document order w.store).dumpPretty y)) {key : UInt8}
    (hkey : key.toNat < kdecBoolSettings.length) :
    getBool (reloaded y w) key = getBool w.store key := by
  have hlookup := lookup_start_bools y w.fs key
  have hsaved := heldFrom_saved boolKind hkey (order.bools_perm w.store.bools.entries) false
  rw [fileDocument_saved hy h, membersAt_document_bool] at hlookup
  unfold getBool reloaded getIn
  rw [hlookup.trans hsaved]
  rfl

theorem getInt_reloaded (hy : y.Lawful) {w : World φ} {order : Iteration}
    (h : contents w.fs (normalize settingsPath.toList) =
      some ((document order w.store).dumpPretty y)) {key : UInt8}
    (hkey : key.toNat < kdecIntSettings.length) :
    getInt (reloaded y w) key = getInt w.store key := by
  have hlookup := lookup_start_ints y w.fs key
  have hsaved := heldFrom_saved intKind hkey (order.ints_perm w.store.ints.entries) 0
  rw [fileDocument_saved hy h, membersAt_document_int] at hlookup
  unfold getInt reloaded getIn
  rw [hlookup.trans hsaved]
  rfl

/-- A map with the default of a key has it for the key. -/
theorem getIn_default {α : Type} {table : List (String × α)} {m : Settings α} {key : UInt8}
    (h : m.lookup key = keyDefault table key) (fallback : α) :
    getIn table fallback m key = (keyDefault table key).getD fallback := by
  rw [getIn, h]
  cases keyDefault table key <;> rfl

/-- An entry changes its key only. -/
theorem getIn_insert {α : Type} (table : List (String × α)) (fallback : α) (m : Settings α)
    (k : UInt8) (value : α) (key : UInt8) :
    getIn table fallback (m.insert k value) key =
      if k = key then value else getIn table fallback m key := by
  split
  · next hkey =>
    subst hkey
    rw [getIn, AList.lookup_insert, Option.getD_some]
  · next hkey => rw [getIn, AList.lookup_insert_ne (Ne.symm hkey), getIn]

/-- Without a file every key has its default. -/
theorem getBool_start {fs : φ} (h : contents fs (normalize settingsPath.toList) = none)
    (key : UInt8) :
    getBool (start y fs).store key = (keyDefault kdecBoolSettings key).getD false := by
  have hlookup := lookup_start_bools y fs key
  rw [fileDocument_none h] at hlookup
  exact getIn_default hlookup false

theorem getInt_start {fs : φ} (h : contents fs (normalize settingsPath.toList) = none)
    (key : UInt8) :
    getInt (start y fs).store key = (keyDefault kdecIntSettings key).getD 0 := by
  have hlookup := lookup_start_ints y fs key
  rw [fileDocument_none h] at hlookup
  exact getIn_default hlookup 0

/-- A write changes its key only. -/
theorem getBool_step (y : Yyjson) (w : World φ) (write : Write) (key : UInt8) :
    getBool (step y w write).store key = match write with
      | .bool k value _ => if k = key then value else getBool w.store key
      | .int _ _ _ => getBool w.store key := by
  cases write with
  | int k value order => rfl
  | bool k value order => exact getIn_insert kdecBoolSettings false w.store.bools k value key

theorem getInt_step (y : Yyjson) (w : World φ) (write : Write) (key : UInt8) :
    getInt (step y w write).store key = match write with
      | .int k value _ => if k = key then value else getInt w.store key
      | .bool _ _ _ => getInt w.store key := by
  cases write with
  | bool k value order => rfl
  | int k value order => exact getIn_insert kdecIntSettings 0 w.store.ints k value key

/-- After a run a key has what it was last set to, or what it had. -/
theorem getBool_run (y : Yyjson) (w : World φ) (writes : List Write) (key : UInt8) :
    getBool (run (step y) w writes).store key =
      (lastBool key writes).getD (getBool w.store key) := by
  induction writes using List.reverseRecOn with
  | nil => rfl
  | append_singleton writes write ih =>
    rw [run_append, run_cons, run_nil, getBool_step, ih, lastBool_append]
    cases write with
    | int k value order => rfl
    | bool k value order =>
      dsimp only
      split <;> rfl

theorem getInt_run (y : Yyjson) (w : World φ) (writes : List Write) (key : UInt8) :
    getInt (run (step y) w writes).store key =
      (lastInt key writes).getD (getInt w.store key) := by
  induction writes using List.reverseRecOn with
  | nil => rfl
  | append_singleton writes write ih =>
    rw [run_append, run_cons, run_nil, getInt_step, ih, lastInt_append]
    cases write with
    | bool k value order => rfl
    | int k value order =>
      dsimp only
      split <;> rfl

/-- The next process reads what this one has, whether it has saved or not. -/
theorem reloaded_run (hy : y.Lawful) {fs : φ}
    (h : contents fs (normalize settingsPath.toList) = none) (writes : List Write) :
    (∀ key : UInt8, key.toNat < kdecBoolSettings.length →
      getBool (reloaded y (run (step y) (start y fs) writes)) key =
        getBool (run (step y) (start y fs) writes).store key) ∧
    ∀ key : UInt8, key.toNat < kdecIntSettings.length →
      getInt (reloaded y (run (step y) (start y fs) writes)) key =
        getInt (run (step y) (start y fs) writes).store key := by
  induction writes using List.reverseRecOn with
  | nil =>
    have hagain : contents (start y fs).fs (normalize settingsPath.toList) = none := by
      rw [contents_start, h]
    constructor
    · intro key _
      rw [run_nil, reloaded, getBool_start hagain, getBool_start h]
    · intro key _
      rw [run_nil, reloaded, getInt_start hagain, getInt_start h]
  | append_singleton writes write _ =>
    rw [run_append, run_cons, run_nil]
    obtain ⟨order, hcontents⟩ := contents_step y (run (step y) (start y fs) writes) write
    exact ⟨fun key hkey => getBool_reloaded hy hcontents hkey,
      fun key hkey => getInt_reloaded hy hcontents hkey⟩

/-- What was set persists, and no file takes the value of a key away or gives it another
one than its default without a member of its name and type in the object that the
content is up to its first NUL. -/
theorem persists_and_tolerates (hy : y.Lawful) :
    (∀ (fs : φ) (writes : List Write), contents fs (normalize settingsPath.toList) = none →
      (∀ key : UInt8, key.toNat < kdecBoolSettings.length →
        getBool (reloaded y (run (step y) (start y fs) writes)) key =
          (lastBool key writes).getD ((keyDefault kdecBoolSettings key).getD false)) ∧
      ∀ key : UInt8, key.toNat < kdecIntSettings.length →
        getInt (reloaded y (run (step y) (start y fs) writes)) key =
          (lastInt key writes).getD ((keyDefault kdecIntSettings key).getD 0)) ∧
    ∀ fs : φ,
      (∀ key : UInt8, key.toNat < kdecBoolSettings.length → ∃ value,
        (start y fs).store.bools.lookup key = some value ∧
          FromFile boolKind key
            ((objectOf y (cbytes (settingsContent fs))).membersAt "bool") value) ∧
      ∀ key : UInt8, key.toNat < kdecIntSettings.length → ∃ value,
        (start y fs).store.ints.lookup key = some value ∧
          FromFile intKind key
            ((objectOf y (cbytes (settingsContent fs))).membersAt "int") value := by
  constructor
  · intro fs writes hnone
    obtain ⟨hbools, hints⟩ := reloaded_run hy hnone writes
    constructor
    · intro key hkey
      rw [hbools key hkey, getBool_run, getBool_start hnone]
    · intro key hkey
      rw [hints key hkey, getInt_run, getInt_start hnone]
  · intro fs
    rw [← fileDocument_eq hy]
    constructor
    · intro key hkey
      rw [lookup_start_bools]
      exact fromFile_of_key boolKind hkey _
    · intro key hkey
      rw [lookup_start_ints]
      exact fromFile_of_key intKind hkey _

end Writes

/-- The maps are gone through as they are. -/
def inOrder : Iteration where
  bools := id
  ints := id
  bools_perm := fun _ => List.Perm.refl _
  ints_perm := fun _ => List.Perm.refl _

/-- The other way round. -/
def backwards : Iteration where
  bools := List.reverse
  ints := List.reverse
  bools_perm := List.reverse_perm
  ints_perm := List.reverse_perm

/-- A card with this settings file. -/
def settingsFile (content : List UInt8) : MemoryFiles :=
  ⟨[(normalize settingsPath.toList, some content)]⟩

/-- A number stands where a boolean should. -/
def wrongType : MemoryFiles :=
  settingsFile (JsonText.utf8
    "\x7b\"bool\":\x7b\"MprisShowAlbumArt\":0,\"NotificationShowIcon\":false\x7d\x7d".toList)

/-- Two settings that were changed are found again, and a third has its default; and a
file that has one of them wrong leaves it a value of its own. -/
theorem persists_albumArt :
    (let writes := [Write.bool 7 false inOrder, .int 1 (-5) backwards]
    let fresh := reloaded Yyjson.reference
      (run (step Yyjson.reference) (start Yyjson.reference ({} : MemoryFiles)) writes)
    getBool fresh 7 = false ∧ getInt fresh 1 = -5 ∧ getInt fresh 0 = 4000) ∧
    ∃ value, (start Yyjson.reference wrongType).store.bools.lookup 7 = some value ∧
      FromFile boolKind 7
        ((objectOf Yyjson.reference (cbytes (settingsContent wrongType))).membersAt "bool")
        value := by
  obtain ⟨hpersists, htolerates⟩ :=
    persists_and_tolerates (φ := MemoryFiles) Yyjson.reference_lawful
  obtain ⟨hbools, hints⟩ := hpersists ({} : MemoryFiles)
    [.bool 7 false inOrder, .int 1 (-5) backwards] rfl
  exact ⟨⟨hbools 7 (by decide), hints 1 (by decide), hints 0 (by decide)⟩,
    (htolerates wrongType).1 7 (by decide)⟩

/-- Every key has its default or a value that the whole file holds under its name. -/
def Tolerates (fs : MemoryFiles) : Prop :=
  ∀ key : UInt8, key.toNat < kdecBoolSettings.length →
    ∃ value, (start Yyjson.reference fs).store.bools.lookup key = some value ∧
      (keyDefault kdecBoolSettings key = some value ∨
        ∃ member ∈ (objectOf Yyjson.reference (settingsContent fs)).membersAt "bool",
          boolKeyName key = some member.1 ∧ member.2.isBool = true ∧ member.2.getBool = value)

/-- A file with a member that only begins with the name of a key. -/
def paddedName : MemoryFiles :=
  settingsFile (JsonText.utf8
    "\x7b\"bool\":\x7b\"MprisShowAlbumArt\\u0000x\":false\x7d\x7d".toList)

/-- A file that goes on behind a NUL, and is no JSON. -/
def cutContent : MemoryFiles :=
  settingsFile (JsonText.utf8
    "\x7b\"bool\":\x7b\"MprisShowAlbumArt\":false\x7d\x7d".toList ++ [0, 120])

/-- What changes the key is a member of its name. -/
theorem not_tolerates_of_name {fs : MemoryFiles}
    (hchanged : (start Yyjson.reference fs).store.bools.lookup 7 = some false)
    (hnames : "MprisShowAlbumArt" ∉
      ((objectOf Yyjson.reference (settingsContent fs)).membersAt "bool").map Prod.fst) :
    ¬ Tolerates fs := by
  intro h
  obtain ⟨value, hvalue, hheld⟩ := h 7 (by decide)
  obtain rfl := Option.some.inj (hchanged.symm.trans hvalue)
  rcases hheld with hdefault | ⟨member, hmem, hname, -, -⟩
  · exact absurd hdefault (by decide)
  · have hown : boolKeyName 7 = some "MprisShowAlbumArt" := by decide
    rw [hown] at hname
    exact hnames (Option.some.inj hname ▸ List.mem_map_of_mem hmem)

/-- The key takes the value of a member of another name, in a file without a NUL; and
that of a member of a file that is no JSON. -/
theorem notTolerated_padded :
    (¬ ∀ fs : MemoryFiles, 0 ∉ settingsContent fs → Tolerates fs) ∧
      ¬ ∀ fs : MemoryFiles, Yyjson.reference.read (settingsContent fs) = none → Tolerates fs := by
  constructor
  · intro h
    exact not_tolerates_of_name (by decide +kernel) (by decide +kernel)
      (h paddedName (by decide +kernel))
  · intro h
    exact not_tolerates_of_name (by decide +kernel) (by decide +kernel)
      (h cutContent (by decide +kernel))

end KdeConnectNx.SettingsFile
