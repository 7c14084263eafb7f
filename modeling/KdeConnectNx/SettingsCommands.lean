import KdeConnectNx.LittleEndian
import KdeConnectNx.SettingsFile

/-!
# Settings over IPC

Four commands read and write single settings by the byte of a key, and a fifth lists
both maps, booleans first, in one array of untagged entries; the buffer of the client has
room for one entry a key. The reads check the key; the writes do not.
-/

namespace KdeConnectNx.SettingsCommands

open JsonTree PacketBody PairedFiles PathNames SettingsStore SettingsFile Runs
open LawfulFileSystem (contents)

/-- `KDEC_BOOL_SETTING_COUNT` and `KDEC_INT_SETTING_COUNT`. -/
def kdecBoolSettingCount : ℕ := kdecBoolSettings.length

def kdecIntSettingCount : ℕ := kdecIntSettings.length

/-- `constants::kMaxSettings`. -/
def kMaxSettings : ℕ := kdecBoolSettingCount + kdecIntSettingCount

inductive Command
  | readBoolSetting
  | writeBoolSetting
  | readIntSetting
  | writeIntSetting
deriving DecidableEq, Repr

/-- A request with its data, and the orders in which the maps are gone through when it
is saved. -/
structure Request where
  command : Command
  data : List UInt8
  /-- `app_->client()` is there. -/
  client : Bool := true
  order : Iteration

/-- What the handler returns: a library error, or success with its output. -/
inductive Reply
  | notInitialized
  | badInput
  | notFound
  | done
  | bool (value : Bool)
  | int (value : Int32)
deriving DecidableEq, Repr

def Reply.accepted : Reply → Bool
  | done => true
  | bool _ => true
  | int _ => true
  | _ => false

/-- `sizeof` the data a command takes: a key, a key and a byte, or a key and a padded
32-bit number. -/
def Command.size : Command → ℕ
  | readBoolSetting => 1
  | writeBoolSetting => 2
  | readIntSetting => 1
  | writeIntSetting => 8

/-- The keys of the map a command is about. -/
def Command.count : Command → ℕ
  | readBoolSetting => kdecBoolSettingCount
  | writeBoolSetting => kdecBoolSettingCount
  | readIntSetting => kdecIntSettingCount
  | writeIntSetting => kdecIntSettingCount

def Request.key (r : Request) : UInt8 := r.data.headD 0

/-- `KdecWireWriteBoolSetting::value`. -/
def Request.boolValue (r : Request) : Bool := (r.data.drop 1).headD 0 != 0

/-- `KdecWireWriteIntSetting::value`, behind three bytes of padding. -/
def Request.intValue (r : Request) : Int32 :=
  Int32.ofNat (LittleEndian.decode ((r.data.drop 4).take 4))

section Handler

variable {φ : Type} [FileSystem φ]

/-- `handle_command` for these commands. After a change of the power setting the command
list is sent to the devices once more, which touches no setting. -/
def handleCommand (y : Yyjson) (r : Request) (w : World φ) : Reply × World φ :=
  if !r.client then (.notInitialized, w)
  else if r.data.length < r.command.size then (.badInput, w)
  else
    match r.command with
    | .readBoolSetting =>
      if kdecBoolSettingCount ≤ r.key.toNat then (.notFound, w)
      else (.bool (getBool w.store r.key), w)
    | .writeBoolSetting => (.done, step y w (.bool r.key r.boolValue r.order))
    | .readIntSetting =>
      if kdecIntSettingCount ≤ r.key.toNat then (.notFound, w)
      else (.int (getInt w.store r.key), w)
    | .writeIntSetting => (.done, step y w (.int r.key r.intValue r.order))

end Handler

/-- `KdecWireSettingEntry`: the union is four bytes, of which a boolean uses the lowest. -/
structure WireSettingEntry where
  key : UInt8
  value : Int32
deriving DecidableEq, Repr

def WireSettingEntry.asBool (e : WireSettingEntry) : Bool := e.value.toUInt32.toUInt8 != 0

/-- `SettingsStore::get_all`. -/
def getAll (order : Iteration) (s : Store) : List WireSettingEntry :=
  ((order.bools s.bools.entries).map fun e => ⟨e.1, if e.2 then 1 else 0⟩) ++
    (order.ints s.ints.entries).map fun e => ⟨e.1, e.2⟩

/-- `sizeof(KdecWireSettingEntry)`. -/
def entrySize : ℕ := 16

/-- The loop of `GetAllSettings`: entries until the next does not fit the buffer. -/
def fill (recvSize : ℕ) : ℕ → List WireSettingEntry → List WireSettingEntry
  | _, [] => []
  | count, e :: entries =>
    if recvSize < (count + 1) * entrySize then [] else e :: fill recvSize (count + 1) entries

/-- `kdecIpcGetAllSettings`, with the client's buffer. -/
def kdecIpcGetAllSettings (order : Iteration) (s : Store) : List WireSettingEntry :=
  (fill (kMaxSettings * entrySize) 0 (getAll order s)).take kMaxSettings

/-- How a client tells the value of a key: as many entries as there are boolean keys come
first. -/
def clientBool (entries : List WireSettingEntry) (key : UInt8) : Option Bool :=
  ((entries.take kdecBoolSettingCount).find? fun e => e.key == key).map WireSettingEntry.asBool

def clientInt (entries : List WireSettingEntry) (key : UInt8) : Option Int32 :=
  ((entries.drop kdecBoolSettingCount).find? fun e => e.key == key).map WireSettingEntry.value

/-- The keys of a table in order. -/
def validKeys (count : ℕ) : List UInt8 := (List.range count).map UInt8.ofNat

/-- Whatever the order of the maps, the listing has one entry for each key, and the values
of all keys can be told from it. -/
structure Listed (s : Store) : Prop where
  length : ∀ order, (kdecIpcGetAllSettings order s).length = kMaxSettings
  keys : ∀ order, ((kdecIpcGetAllSettings order s).map WireSettingEntry.key).Perm
    (validKeys kdecBoolSettingCount ++ validKeys kdecIntSettingCount)
  bools : ∀ order (key : UInt8), key.toNat < kdecBoolSettingCount →
    clientBool (kdecIpcGetAllSettings order s) key = some (getBool s key)
  ints : ∀ order (key : UInt8), key.toNat < kdecIntSettingCount →
    clientInt (kdecIpcGetAllSettings order s) key = some (getInt s key)

section Domain

variable {φ : Type} [FileSystem φ]

/-- Well-formed requests are accepted exactly for the keys of the command's table, one that
is not changes nothing, and the listing is complete afterwards. -/
structure InDomain (y : Yyjson) (w : World φ) (r : Request) : Prop where
  accepts : r.client = true → r.command.size ≤ r.data.length →
    ((handleCommand y r w).1.accepted = true ↔ r.key.toNat < r.command.count)
  rejects : (handleCommand y r w).1.accepted = false → (handleCommand y r w).2 = w
  listed : Listed (handleCommand y r w).2.store

/-- A write that is carried out names a key. -/
def KeyChecked (_ : World φ) (r : Request) : Prop :=
  r.command = .writeBoolSetting ∨ r.command = .writeIntSetting → r.client = true →
    r.command.size ≤ r.data.length → r.key.toNat < r.command.count

end Domain

/-- The maps have values for the keys of their tables and for no other byte. -/
structure Closed (s : Store) : Prop where
  bools : ∀ key : UInt8, key ∈ s.bools ↔ key.toNat < kdecBoolSettingCount
  ints : ∀ key : UInt8, key ∈ s.ints ↔ key.toNat < kdecIntSettingCount

theorem mem_validKeys {count : ℕ} (h : count ≤ 256) (key : UInt8) :
    key ∈ validKeys count ↔ key.toNat < count := by
  rw [validKeys, List.mem_map]
  constructor
  · rintro ⟨n, hn, rfl⟩
    have hlt := List.mem_range.mp hn
    rw [UInt8.toNat_ofNat', Nat.mod_eq_of_lt (by omega)]
    exact hlt
  · intro hkey
    exact ⟨key.toNat, List.mem_range.mpr hkey, UInt8.ofNat_toNat⟩

theorem nodup_validKeys {count : ℕ} (h : count ≤ 256) : (validKeys count).Nodup := by
  refine List.Nodup.map_on ?_ List.nodup_range
  intro m hm n hn heq
  have hm' := List.mem_range.mp hm
  have hn' := List.mem_range.mp hn
  have hnat := congrArg UInt8.toNat heq
  rw [UInt8.toNat_ofNat', UInt8.toNat_ofNat', Nat.mod_eq_of_lt (by omega),
    Nat.mod_eq_of_lt (by omega)] at hnat
  exact hnat

section Maps

variable {α : Type} {m : Settings α} {count : ℕ} {entries : List (Entry α)}

/-- A map that has the keys of a table has each of them once, in any order. -/
theorem keys_perm (hcount : count ≤ 256) (h : ∀ key : UInt8, key ∈ m ↔ key.toNat < count)
    (hperm : entries.Perm m.entries) : (entries.map Sigma.fst).Perm (validKeys count) := by
  refine (hperm.map Sigma.fst).trans ?_
  refine (List.perm_ext_iff_of_nodup m.nodupKeys (nodup_validKeys hcount)).mpr ?_
  intro key
  rw [mem_validKeys hcount]
  exact h key

theorem length_entries (hcount : count ≤ 256) (h : ∀ key : UInt8, key ∈ m ↔ key.toNat < count)
    (hperm : entries.Perm m.entries) : entries.length = count := by
  have hlength := (keys_perm hcount h hperm).length_eq
  rw [List.length_map, validKeys, List.length_map, List.length_range] at hlength
  exact hlength

/-- The first entry with a key is the one the map has for it. -/
theorem find_map_entry (entries : List (Entry α)) (f : α → Int32) (g : WireSettingEntry → α)
    (hg : ∀ key v, g ⟨key, f v⟩ = v) (key : UInt8) :
    ((entries.map fun e => (⟨e.1, f e.2⟩ : WireSettingEntry)).find? fun e => e.key == key).map g =
      entries.dlookup key := by
  induction entries with
  | nil => rfl
  | cons e entries ih =>
    rw [List.map_cons]
    by_cases hkey : e.1 = key
    · subst hkey
      rw [List.find?_cons_of_pos (by simp), List.dlookup_cons_eq, Option.map_some, hg]
    · rw [List.find?_cons_of_neg (by simp [hkey]), ih, List.dlookup_cons_ne _ _ (Ne.symm hkey)]

end Maps

/-- A listing that fits the buffer is written whole. -/
theorem fill_of_fits {recvSize count : ℕ} {entries : List WireSettingEntry}
    (h : (count + entries.length) * entrySize ≤ recvSize) :
    fill recvSize count entries = entries := by
  induction entries generalizing count with
  | nil => rfl
  | cons e entries ih =>
    rw [List.length_cons] at h
    have hfits : ¬ recvSize < (count + 1) * entrySize := by
      unfold entrySize at h ⊢
      omega
    have hrest : (count + 1 + entries.length) * entrySize ≤ recvSize := by
      unfold entrySize at h ⊢
      omega
    rw [fill, if_neg hfits, ih hrest]

section Listing

variable {s : Store}

theorem boolCount_le : kdecBoolSettingCount ≤ 256 := by decide

theorem intCount_le : kdecIntSettingCount ≤ 256 := by decide

theorem length_getAll (h : Closed s) (order : Iteration) :
    (getAll order s).length = kMaxSettings := by
  rw [getAll, List.length_append, List.length_map, List.length_map,
    length_entries boolCount_le h.bools (order.bools_perm _),
    length_entries intCount_le h.ints (order.ints_perm _)]
  rfl

/-- Closed maps are listed whole. -/
theorem kdecIpcGetAllSettings_eq (h : Closed s) (order : Iteration) :
    kdecIpcGetAllSettings order s = getAll order s := by
  have hlength := length_getAll h order
  rw [kdecIpcGetAllSettings, fill_of_fits, List.take_of_length_le (Nat.le_of_eq hlength)]
  rw [hlength, Nat.zero_add]

theorem clientBool_getAll (h : Closed s) (order : Iteration) (key : UInt8) :
    clientBool (getAll order s) key = s.bools.lookup key := by
  have hlength := length_entries boolCount_le h.bools (order.bools_perm _)
  have hbools : (getAll order s).take kdecBoolSettingCount =
      (order.bools s.bools.entries).map fun e => ⟨e.1, if e.2 then 1 else 0⟩ :=
    List.take_left' (by rw [List.length_map, hlength])
  have hvalue : ∀ (k : UInt8) (v : Bool),
      WireSettingEntry.asBool ⟨k, if v then 1 else 0⟩ = v := by
    intro k v
    cases v <;> rfl
  have hfound := find_map_entry (order.bools s.bools.entries) (fun v => if v then 1 else 0)
    WireSettingEntry.asBool hvalue key
  rw [clientBool, hbools]
  exact hfound.trans (dlookup_of_perm (order.bools_perm s.bools.entries) key)

theorem clientInt_getAll (h : Closed s) (order : Iteration) (key : UInt8) :
    clientInt (getAll order s) key = s.ints.lookup key := by
  have hlength := length_entries boolCount_le h.bools (order.bools_perm _)
  have hints : (getAll order s).drop kdecBoolSettingCount =
      (order.ints s.ints.entries).map fun e => ⟨e.1, e.2⟩ :=
    List.drop_left' (by rw [List.length_map, hlength])
  have hfound := find_map_entry (order.ints s.ints.entries) (fun v => v) WireSettingEntry.value
    (fun _ _ => rfl) key
  rw [clientInt, hints]
  exact hfound.trans (dlookup_of_perm (order.ints_perm s.ints.entries) key)

/-- The value of a key that is in its map. -/
theorem lookup_eq_getIn {α : Type} {table : List (String × α)} (fallback : α) {m : Settings α}
    {key : UInt8} (h : key ∈ m) : m.lookup key = some (getIn table fallback m key) := by
  obtain ⟨v, hv⟩ := Option.isSome_iff_exists.mp (AList.lookup_isSome.mpr h)
  rw [getIn, hv, Option.getD_some]

theorem listed_of_closed (h : Closed s) : Listed s where
  length := fun order => by rw [kdecIpcGetAllSettings_eq h, length_getAll h]
  keys := by
    intro order
    have hbools := keys_perm boolCount_le h.bools (order.bools_perm _)
    have hints := keys_perm intCount_le h.ints (order.ints_perm _)
    rw [kdecIpcGetAllSettings_eq h, getAll, List.map_append, List.map_map, List.map_map]
    exact hbools.append hints
  bools := by
    intro order key hkey
    rw [kdecIpcGetAllSettings_eq h, clientBool_getAll h]
    exact lookup_eq_getIn false ((h.bools key).mpr hkey)
  ints := by
    intro order key hkey
    rw [kdecIpcGetAllSettings_eq h, clientInt_getAll h]
    exact lookup_eq_getIn 0 ((h.ints key).mpr hkey)

end Listing

/-- A process begins with the keys of the tables and no others. -/
theorem closed_start {φ : Type} [FileSystem φ] (y : Yyjson) (fs : φ) :
    Closed (start y fs).store := by
  have hkind : ∀ {α : Type} (kind : SettingKind α) (key : UInt8) (members : Members),
      (kind.heldFrom key (keyDefault kind.table key) members).isSome = true ↔
        key.toNat < kind.table.length := by
    intro α kind key members
    constructor
    · intro hsome
      rcases kind.heldFrom_cases key (keyDefault kind.table key) members with
        hsame | ⟨member, -, -, hname, -⟩
      · rw [hsame, keyDefault, Option.isSome_map, Option.isSome_iff_ne_none, ne_eq,
          List.getElem?_eq_none_iff, not_le] at hsome
        exact hsome
      · obtain ⟨entry, hentry, -⟩ := Option.map_eq_some_iff.mp (kind.keyName_of_keyFromName hname)
        exact (List.getElem?_eq_some_iff.mp hentry).1
    · intro hkey
      obtain ⟨value, hvalue, -⟩ := fromFile_of_key kind hkey members
      rw [hvalue]
      rfl
  constructor
  · intro key
    rw [← AList.lookup_isSome, lookup_start_bools]
    exact hkind boolKind key _
  · intro key
    rw [← AList.lookup_isSome, lookup_start_ints]
    exact hkind intKind key _

/-- A write under a key of its table keeps the maps closed. -/
theorem mem_insert_iff {α : Type} {m : Settings α} {count : ℕ}
    (h : ∀ key : UInt8, key ∈ m ↔ key.toNat < count) {key : UInt8} (hkey : key.toNat < count)
    (value : α) (other : UInt8) : other ∈ m.insert key value ↔ other.toNat < count := by
  rw [AList.mem_insert, h other]
  constructor
  · rintro (rfl | hother)
    · exact hkey
    · exact hother
  · exact .inr

section Steps

variable {φ : Type} [FileSystem φ] {y : Yyjson} {w : World φ} {r : Request}

/-- The next state after a request. -/
def handled (y : Yyjson) (w : World φ) (r : Request) : World φ := (handleCommand y r w).2

theorem closed_handled (h : Closed w.store) (hok : KeyChecked w r) :
    Closed (handled y w r).store := by
  unfold handled handleCommand
  cases hclient : r.client with
  | false => exact h
  | true =>
    rw [Bool.not_true, if_neg Bool.false_ne_true]
    by_cases hshort : r.data.length < r.command.size
    · rw [if_pos hshort]
      exact h
    · rw [if_neg hshort]
      have hkey := fun hwrite => hok hwrite hclient (Nat.not_lt.mp hshort)
      cases hcommand : r.command with
      | readBoolSetting =>
        dsimp only
        split <;> exact h
      | readIntSetting =>
        dsimp only
        split <;> exact h
      | writeBoolSetting =>
        have hvalid := hkey (.inl hcommand)
        rw [hcommand] at hvalid
        exact ⟨mem_insert_iff h.bools hvalid r.boolValue, h.ints⟩
      | writeIntSetting =>
        have hvalid := hkey (.inr hcommand)
        rw [hcommand] at hvalid
        exact ⟨h.bools, mem_insert_iff h.ints hvalid r.intValue⟩

/-- What is not accepted changes nothing. -/
theorem handleCommand_rejected (hreply : (handleCommand y r w).1.accepted = false) :
    (handleCommand y r w).2 = w := by
  unfold handleCommand at hreply ⊢
  cases hclient : r.client with
  | false => rfl
  | true =>
    rw [hclient, Bool.not_true, if_neg Bool.false_ne_true] at hreply
    rw [Bool.not_true, if_neg Bool.false_ne_true]
    by_cases hshort : r.data.length < r.command.size
    · rw [if_pos hshort]
    · rw [if_neg hshort] at hreply ⊢
      cases hcommand : r.command with
      | readBoolSetting =>
        dsimp only
        split <;> rfl
      | readIntSetting =>
        dsimp only
        split <;> rfl
      | writeBoolSetting =>
        rw [hcommand] at hreply
        cases hreply
      | writeIntSetting =>
        rw [hcommand] at hreply
        cases hreply

/-- Reads are accepted for the keys of the table, writes always. -/
theorem accepted_iff (hclient : r.client = true) (hsize : r.command.size ≤ r.data.length) :
    (handleCommand y r w).1.accepted = true ↔
      (r.command = .writeBoolSetting ∨ r.command = .writeIntSetting ∨
        r.key.toNat < r.command.count) := by
  unfold handleCommand
  rw [hclient, Bool.not_true, if_neg Bool.false_ne_true, if_neg (Nat.not_lt.mpr hsize)]
  cases hcommand : r.command with
  | readBoolSetting =>
    dsimp only [Command.count]
    split <;> simp [Reply.accepted] <;> omega
  | readIntSetting =>
    dsimp only [Command.count]
    split <;> simp [Reply.accepted] <;> omega
  | writeBoolSetting => simp [Reply.accepted]
  | writeIntSetting => simp [Reply.accepted]

/-- With closed maps a request stays in the domain exactly when a write names a key. -/
theorem inDomain_iff (h : Closed w.store) : InDomain y w r ↔ KeyChecked w r := by
  constructor
  · intro hdomain hwrite hclient hsize
    rw [← hdomain.accepts hclient hsize, accepted_iff hclient hsize]
    rcases hwrite with hwrite | hwrite
    · exact .inl hwrite
    · exact .inr (.inl hwrite)
  · intro hok
    refine ⟨?_, handleCommand_rejected, listed_of_closed (closed_handled h hok)⟩
    intro hclient hsize
    rw [accepted_iff hclient hsize]
    constructor
    · rintro (hwrite | hwrite | hkey)
      · exact hok (.inl hwrite) hclient hsize
      · exact hok (.inr hwrite) hclient hsize
      · exact hkey
    · exact fun hkey => .inr (.inr hkey)

/-- All requests of a run stay in the domain exactly when all its writes name keys. -/
theorem inDomain_iff_keyChecked (y : Yyjson) (fs : φ) (requests : List Request) :
    EveryStep (handled y) (InDomain y) (start y fs) requests ↔
      EveryStep (handled y) KeyChecked (start y fs) requests :=
  everyStep_iff_everyStep (P := fun w => Closed w.store)
    (fun _ _ h hdomain => closed_handled h ((inDomain_iff h).mp hdomain))
    (fun _ _ h => inDomain_iff h) (closed_start y fs) requests

end Steps

/-- A boolean is written under a byte that is no key. -/
def unknownKey : Request where
  command := .writeBoolSetting
  data := [200, 1]
  order := inOrder

theorem notInDomain_unknownKey :
    ¬ ∀ (fs : MemoryFiles) (requests : List Request),
      EveryStep (handled Yyjson.reference) (InDomain Yyjson.reference) (start Yyjson.reference fs)
        requests := by
  intro h
  have hwrite : InDomain Yyjson.reference (start Yyjson.reference ({} : MemoryFiles)) unknownKey :=
    (h {} [unknownKey]).1
  have hkey := (hwrite.accepts rfl (by decide)).mp rfl
  exact absurd hkey (by decide)

end KdeConnectNx.SettingsCommands
