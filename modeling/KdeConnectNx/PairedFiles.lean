import Mathlib.Data.List.Basic
import KdeConnectNx.PacketFormat
import KdeConnectNx.PathNames

/-!
# Storage: one file per paired device

The file of a device is named after its id, below `paired`. Every operation
goes through a file system of which only the calls made are fixed; the laws
of one whose calls succeed are stated apart, over files named by where their
path leads. A logging file system records what is touched.
-/

namespace KdeConnectNx.PairedFiles

open JsonTree PacketBody PacketFormat PathNames

/-- The calls made into the platform's file system. -/
class FileSystem (φ : Type) where
  /-- The memory card is there (`fsdevGetDeviceFileSystem`). -/
  mounted : φ → Bool
  /-- `stat` succeeds. -/
  stat : String → φ → Bool × φ
  /-- Open, size query and reads up to the size; empty when one fails. -/
  read : String → φ → List UInt8 × φ
  /-- `mkdir`, its result not looked at. -/
  mkdir : List Char → φ → φ
  /-- Create, open, resize and writes; false when one fails. -/
  write : String → List UInt8 → φ → Bool × φ
  /-- `remove`, its result not looked at. -/
  remove : String → φ → φ

/-- Size of the path buffers of the platform. -/
def fsMaxPath : Nat := 0x301

/-- The prefixes `make_directories` cuts a path into, the path itself last. -/
def directoryPrefixes (tmp : List Char) : List (List Char) :=
  (((List.range tmp.length).filter fun i => 1 ≤ i ∧ tmp[i]? = some '/').map tmp.take) ++ [tmp]

/-- What stands before the last slash of a path that has one. -/
def parentPath (path : String) : Option (List Char) :=
  if '/' ∈ path.toList then some ((path.toList.reverse.dropWhile (· != '/')).drop 1).reverse
  else none

section Storage

variable {φ : Type} [FileSystem φ]

def makeDirectories (path : List Char) (fs : φ) : φ :=
  (directoryPrefixes ("sdmc:/".toList ++ path)).foldl (fun fs dir => FileSystem.mkdir dir fs) fs

/-- What no `mkdir` changes, the directories of a path leave as it is. -/
theorem view_makeDirectories {α : Type} (view : φ → α)
    (h : ∀ dir fs, view (FileSystem.mkdir dir fs) = view fs) (path : List Char) (fs : φ) :
    view (makeDirectories path fs) = view fs := by
  unfold makeDirectories
  generalize directoryPrefixes ("sdmc:/".toList ++ path) = dirs
  induction dirs generalizing fs with
  | nil => rfl
  | cons dir dirs ih => rw [List.foldl_cons, ih, h]

theorem view_makeParents {α : Type} (view : φ → α)
    (h : ∀ dir fs, view (FileSystem.mkdir dir fs) = view fs) (path : String) (fs : φ) :
    view ((parentPath path).elim fs fun parent => makeDirectories parent fs) = view fs := by
  cases parentPath path with
  | none => rfl
  | some parent => exact view_makeDirectories view h parent fs

/-- Whole content of a file, empty on any failure. -/
def readFile (path : String) (fs : φ) : List UInt8 × φ :=
  if !FileSystem.mounted fs || decide (fsMaxPath ≤ path.utf8ByteSize) then ([], fs)
  else FileSystem.read path fs

/-- Replace the content of a file; parent directories are made first. -/
def writeFile (path : String) (data : List UInt8) (fs : φ) : Bool × φ :=
  if !FileSystem.mounted fs then (false, fs)
  else
    let fs := (parentPath path).elim fs fun parent => makeDirectories parent fs
    if fsMaxPath ≤ path.utf8ByteSize then (false, fs)
    else FileSystem.write path data fs

/-- The stored description of a paired device. -/
structure PairedDeviceInfo where
  info : DeviceInfo
  certificatePem : String
  deriving DecidableEq

/-- The store: where it lives and the files. -/
structure Storage (φ : Type) where
  basePath : String
  fs : φ

/-- The file of a device. -/
def pairedPath (base deviceId : String) : String := base ++ "/paired/" ++ deviceId ++ ".json"

/-- The stored entry out of the document of a file. -/
def entryOf (deviceId : String) (data : JsonBody) : Option PairedDeviceInfo :=
  if !data.has "deviceId" || !data.has "certificatePem" then none
  else some
    { info :=
        { id := data.valueStr "deviceId" deviceId
          name := data.valueStr "deviceName" "unknown"
          type := data.valueStr "deviceType" "desktop"
          protocolVersion := data.valueInt "protocolVersion" kProtocolVersion }
      certificatePem := data.valueStr "certificatePem" "" }

def loadPairedDevice (y : Yyjson) (deviceId : String) (s : Storage φ) :
    Option PairedDeviceInfo × Storage φ :=
  let path := pairedPath s.basePath deviceId
  let found := FileSystem.stat path s.fs
  if !found.1 then (none, { s with fs := found.2 })
  else
    let content := readFile path found.2
    if content.1.isEmpty then (none, { s with fs := content.2 })
    else (entryOf deviceId (JsonBody.parse y content.1), { s with fs := content.2 })

/-- The document of a device's file. -/
def pairedData (info : DeviceInfo) (certificatePem : String) : JsonBody :=
  ((((({} : JsonBody).setStr "deviceId" info.id).setStr "deviceName" info.name).setStr
    "deviceType" info.type).setInt "protocolVersion" info.protocolVersion).setStr
    "certificatePem" certificatePem

/-- Write the device's file; a failure goes unnoticed. -/
def savePairedDevice (y : Yyjson) (info : DeviceInfo) (certificatePem : String) (s : Storage φ) :
    Storage φ :=
  { s with fs := (writeFile (pairedPath s.basePath info.id)
      ((pairedData info certificatePem).dumpPretty y) s.fs).2 }

def removePairedDevice (deviceId : String) (s : Storage φ) : Storage φ :=
  let path := pairedPath s.basePath deviceId
  let found := FileSystem.stat path s.fs
  { s with fs := if found.1 then FileSystem.remove path found.2 else found.2 }

/-- The entry of a device, as a load would return it. -/
def Storage.entry (y : Yyjson) (s : Storage φ) (deviceId : String) : Option PairedDeviceInfo :=
  (loadPairedDevice y deviceId s).1

end Storage

/-- A file system whose calls succeed, by the content of the files it holds.
Reads change nothing, a write and a removal change the one file. -/
class LawfulFileSystem (φ : Type) extends FileSystem φ where
  contents : φ → Folder → Option (List UInt8)
  mounted_eq : ∀ fs, mounted fs = true
  stat_fst : ∀ path fs, (stat path fs).1 = (contents fs (normalize path.toList)).isSome
  contents_stat : ∀ path fs, contents (stat path fs).2 = contents fs
  read_fst : ∀ path fs, (read path fs).1 = (contents fs (normalize path.toList)).getD []
  contents_read : ∀ path fs, contents (read path fs).2 = contents fs
  contents_mkdir : ∀ dir fs, contents (mkdir dir fs) = contents fs
  contents_write : ∀ path data fs, contents (write path data fs).2 =
    fun file => if file = normalize path.toList then some data else contents fs file
  contents_remove : ∀ path fs, contents (remove path fs) =
    fun file => if file = normalize path.toList then none else contents fs file

section Entries

variable {φ : Type} [LawfulFileSystem φ]

open LawfulFileSystem

/-- The path buffers hold the device's path. -/
def ShortPath (s : Storage φ) (deviceId : String) : Prop :=
  (pairedPath s.basePath deviceId).utf8ByteSize < fsMaxPath

/-- Content of the device's file. -/
def Storage.content (s : Storage φ) (deviceId : String) : Option (List UInt8) :=
  contents s.fs (normalize (pairedPath s.basePath deviceId).toList)

/-- Where the path fits the buffers, the directories are made and the file is written. -/
theorem writeFile_eq {path : String} (h : path.utf8ByteSize < fsMaxPath) (data : List UInt8)
    (fs : φ) : writeFile path data fs = FileSystem.write path data
      ((parentPath path).elim fs fun parent => makeDirectories parent fs) := by
  have hmounted : (!FileSystem.mounted fs) = false := by rw [mounted_eq]; rfl
  have hshort : ¬ fsMaxPath ≤ path.utf8ByteSize := by omega
  rw [writeFile, hmounted, if_neg Bool.false_ne_true]
  dsimp only
  rw [if_neg hshort]

/-- What is written to a path that fits the buffers replaces that file. -/
theorem contents_writeFile {path : String} (h : path.utf8ByteSize < fsMaxPath)
    (data : List UInt8) (fs : φ) : contents (writeFile path data fs).2 =
      fun file => if file = normalize path.toList then some data else contents fs file := by
  rw [writeFile_eq h, contents_write, view_makeParents contents contents_mkdir]

/-- A load parses the content of the device's file. -/
theorem entry_eq (y : Yyjson) {s : Storage φ} {deviceId : String} (h : ShortPath s deviceId) :
    s.entry y deviceId =
      ((s.content deviceId).filter (!·.isEmpty)).bind fun text =>
        entryOf deviceId (JsonBody.parse y text) := by
  have hread : ∀ fs : φ, readFile (pairedPath s.basePath deviceId) fs =
      FileSystem.read (pairedPath s.basePath deviceId) fs := by
    intro fs
    have hlong : decide (fsMaxPath ≤ (pairedPath s.basePath deviceId).utf8ByteSize) = false := by
      have hshort : (pairedPath s.basePath deviceId).utf8ByteSize < fsMaxPath := h
      rw [decide_eq_false_iff_not]
      omega
    rw [readFile, mounted_eq, hlong]
    rfl
  have hcontent : contents s.fs (normalize (pairedPath s.basePath deviceId).toList) =
      s.content deviceId := rfl
  unfold Storage.entry loadPairedDevice
  dsimp only
  rw [hread, stat_fst, read_fst, contents_stat, hcontent]
  cases s.content deviceId with
  | none => rfl
  | some text =>
    cases text with
    | nil => rfl
    | cons b text => rfl

/-- The document of a device's file names the device and its certificate. -/
theorem entryOf_pairedData (deviceId : String) (info : DeviceInfo) (pem : String) :
    entryOf deviceId (pairedData info pem).canon =
      some
        { info :=
            { id := cstr info.id
              name := cstr info.name
              type := cstr info.type
              protocolVersion := info.protocolVersion }
          certificatePem := cstr pem } := by
  have hpem : (pairedData info pem).field "certificatePem" = some (.str (cstr pem)) :=
    JsonBody.field_setVal_self _ _ _
  have hversion : (pairedData info pem).field "protocolVersion" =
      some (.int .sint (info.protocolVersion.toBitVec.signExtend 64)) := by
    rw [pairedData, JsonBody.setStr, JsonBody.field_setVal_ne (by decide)]
    exact JsonBody.field_setVal_self _ _ _
  have htype : (pairedData info pem).field "deviceType" = some (.str (cstr info.type)) := by
    rw [pairedData, JsonBody.setStr, JsonBody.field_setVal_ne (by decide), JsonBody.setInt,
      JsonBody.field_setVal_ne (by decide)]
    exact JsonBody.field_setVal_self _ _ _
  have hname : (pairedData info pem).field "deviceName" = some (.str (cstr info.name)) := by
    rw [pairedData, JsonBody.setStr, JsonBody.field_setVal_ne (by decide), JsonBody.setInt,
      JsonBody.field_setVal_ne (by decide), JsonBody.setStr, JsonBody.field_setVal_ne (by decide)]
    exact JsonBody.field_setVal_self _ _ _
  have hid : (pairedData info pem).field "deviceId" = some (.str (cstr info.id)) := by
    rw [pairedData, JsonBody.setStr, JsonBody.field_setVal_ne (by decide), JsonBody.setInt,
      JsonBody.field_setVal_ne (by decide), JsonBody.setStr, JsonBody.field_setVal_ne (by decide),
      JsonBody.setStr, JsonBody.field_setVal_ne (by decide)]
    exact JsonBody.field_setVal_self _ _ _
  have hstr : ∀ (key value default : String),
      (pairedData info pem).field key = some (.str (cstr value)) →
      (pairedData info pem).valueStr key default = cstr value := by
    intro key value default hfield
    unfold JsonBody.valueStr
    rw [hfield]
    exact cstr_of_nulFree (cstr_nulFree value)
  have hint : (pairedData info pem).valueInt "protocolVersion" kProtocolVersion =
      info.protocolVersion := by
    unfold JsonBody.valueInt
    rw [hversion]
    exact JsonBody.getInt_signExtend info.protocolVersion
  have hhasId : (pairedData info pem).has "deviceId" = true := by
    rw [JsonBody.has, hid]
    rfl
  have hhasPem : (pairedData info pem).has "certificatePem" = true := by
    rw [JsonBody.has, hpem]
    rfl
  unfold entryOf
  rw [JsonBody.has_canon, JsonBody.has_canon, hhasId, hhasPem, JsonBody.valueStr_canon,
    JsonBody.valueStr_canon, JsonBody.valueStr_canon, JsonBody.valueStr_canon,
    JsonBody.valueInt_canon, hstr _ _ _ hid, hstr _ _ _ hname, hstr _ _ _ htype,
    hstr _ _ _ hpem, hint]
  rfl

/-- A device whose file holds its document has the entry the document names. -/
theorem entry_of_content {y : Yyjson} (hy : y.Lawful) {s : Storage φ} {info : DeviceInfo}
    {pem : String} {deviceId : String} (h : ShortPath s deviceId)
    (hcontent : s.content deviceId = some ((pairedData info pem).dumpPretty y)) :
    s.entry y deviceId =
      some
        { info :=
            { id := cstr info.id
              name := cstr info.name
              type := cstr info.type
              protocolVersion := info.protocolVersion }
          certificatePem := cstr pem } := by
  have hfree : (pairedData info pem).realFree = true := by
    have hid : (({} : JsonBody).setStr "deviceId" info.id).realFree = true :=
      JsonBody.realFree_setVal rfl rfl _
    have htype := JsonBody.realFree_setVal (JsonBody.realFree_setVal hid
      (show (Val.str (cstr info.name)).realFree = true from rfl) "deviceName")
      (show (Val.str (cstr info.type)).realFree = true from rfl) "deviceType"
    exact JsonBody.realFree_setVal (JsonBody.realFree_setVal htype rfl _) rfl _
  obtain ⟨hne, hparse⟩ := JsonBody.parse_dumpPretty hy hfree
  have hfull : (!((pairedData info pem).dumpPretty y).isEmpty) = true := by
    rw [Bool.not_eq_true', List.isEmpty_eq_false_iff]
    exact hne
  rw [entry_eq y h, hcontent, Option.filter_some, if_pos hfull, Option.bind_some, hparse,
    entryOf_pairedData]

/-- A saved device is stored with its certificate. -/
theorem entry_savePairedDevice {y : Yyjson} (hy : y.Lawful) {s : Storage φ} {info : DeviceInfo}
    (h : ShortPath s info.id) (pem : String) :
    (savePairedDevice y info pem s).entry y info.id =
      some
        { info :=
            { id := cstr info.id
              name := cstr info.name
              type := cstr info.type
              protocolVersion := info.protocolVersion }
          certificatePem := cstr pem } := by
  have hcontent : (savePairedDevice y info pem s).content info.id =
      some ((pairedData info pem).dumpPretty y) := by
    unfold Storage.content savePairedDevice
    dsimp only
    rw [contents_writeFile h]
    exact if_pos rfl
  exact entry_of_content hy h hcontent

/-- A device without a file has no entry. -/
theorem entry_of_content_none (y : Yyjson) {s : Storage φ} {deviceId : String}
    (h : s.content deviceId = none) : s.entry y deviceId = none := by
  have hfile : contents s.fs (normalize (pairedPath s.basePath deviceId).toList) = none := h
  have hstat : (FileSystem.stat (pairedPath s.basePath deviceId) s.fs).1 = false := by
    rw [stat_fst, hfile]
    rfl
  unfold Storage.entry loadPairedDevice
  dsimp only
  rw [hstat]
  rfl

/-- A removal takes the device's file away, and no other. -/
theorem contents_removePairedDevice (deviceId : String) (s : Storage φ) :
    contents (removePairedDevice deviceId s).fs =
      fun file => if file = normalize (pairedPath s.basePath deviceId).toList then none
        else contents s.fs file := by
  unfold removePairedDevice
  dsimp only
  rw [stat_fst]
  cases hfile : contents s.fs (normalize (pairedPath s.basePath deviceId).toList) with
  | none =>
    rw [Option.isSome_none, if_neg Bool.false_ne_true, contents_stat]
    funext file
    split
    · next hsame => rw [hsame, hfile]
    · rfl
  | some text => rw [Option.isSome_some, if_pos rfl, contents_remove, contents_stat]

/-- A removal leaves the device without a file. -/
theorem content_removePairedDevice (deviceId : String) (s : Storage φ) :
    (removePairedDevice deviceId s).content deviceId = none := by
  have hbase : (removePairedDevice deviceId s).basePath = s.basePath := rfl
  rw [Storage.content, hbase, contents_removePairedDevice]
  exact if_pos rfl

/-- A removed device has no entry. -/
theorem entry_removePairedDevice (y : Yyjson) {s : Storage φ} {deviceId : String}
    (h : ShortPath s deviceId) : (removePairedDevice deviceId s).entry y deviceId = none := by
  rw [entry_eq y (s := removePairedDevice deviceId s) h, content_removePairedDevice]
  rfl

/-- A load leaves every entry as it was. -/
theorem content_loadPairedDevice (y : Yyjson) (s : Storage φ) (deviceId other : String) :
    (loadPairedDevice y deviceId s).2.content other = s.content other := by
  unfold loadPairedDevice Storage.content
  dsimp only
  split
  · dsimp only
    rw [contents_stat]
  · have hread : contents (readFile (pairedPath s.basePath deviceId)
        (FileSystem.stat (pairedPath s.basePath deviceId) s.fs).2).2 = contents s.fs := by
      unfold readFile
      split
      · rw [contents_stat]
      · rw [contents_read, contents_stat]
    split <;> dsimp only <;> rw [hread]

end Entries

/-- Files in memory, the newest entry of a file first; none marks a removal. -/
structure MemoryFiles where
  entries : List (Folder × Option (List UInt8)) := []

/-- Content of a file in memory. -/
def MemoryFiles.content (m : MemoryFiles) (file : Folder) : Option (List UInt8) :=
  (m.entries.lookup file).join

instance : FileSystem MemoryFiles where
  mounted := fun _ => true
  stat := fun path m => ((m.content (normalize path.toList)).isSome, m)
  read := fun path m => ((m.content (normalize path.toList)).getD [], m)
  mkdir := fun _ m => m
  write := fun path data m => (true, ⟨(normalize path.toList, some data) :: m.entries⟩)
  remove := fun path m => ⟨(normalize path.toList, none) :: m.entries⟩

/-- Putting an entry first changes the content of its file only. -/
theorem MemoryFiles.content_cons (file : Folder) (value : Option (List UInt8))
    (entries : List (Folder × Option (List UInt8))) :
    MemoryFiles.content ⟨(file, value) :: entries⟩ =
      fun other => if other = file then value else MemoryFiles.content ⟨entries⟩ other := by
  funext other
  unfold MemoryFiles.content
  dsimp only
  rw [List.lookup_cons]
  by_cases h : other = file
  · rw [h, beq_self_eq_true, if_pos rfl]
    rfl
  · rw [beq_eq_false_iff_ne.mpr h, if_neg h]

instance : LawfulFileSystem MemoryFiles where
  contents := MemoryFiles.content
  mounted_eq := fun _ => rfl
  stat_fst := fun _ _ => rfl
  contents_stat := fun _ _ => rfl
  read_fst := fun _ _ => rfl
  contents_read := fun _ _ => rfl
  contents_mkdir := fun _ _ => rfl
  contents_write := fun _ data m => MemoryFiles.content_cons _ (some data) m.entries
  contents_remove := fun _ m => MemoryFiles.content_cons _ none m.entries

/-- What a call does to the path it names. -/
inductive Access where
  | stat
  | read
  | mkdir
  | write
  | delete
  deriving DecidableEq, Repr

/-- A file system and the calls made into it, the latest first. -/
structure Logged (φ : Type) where
  inner : φ
  log : List (Access × List Char) := []

instance {φ : Type} [FileSystem φ] : FileSystem (Logged φ) where
  mounted := fun fs => FileSystem.mounted fs.inner
  stat := fun path fs =>
    ((FileSystem.stat path fs.inner).1,
      ⟨(FileSystem.stat path fs.inner).2, (.stat, path.toList) :: fs.log⟩)
  read := fun path fs =>
    ((FileSystem.read path fs.inner).1,
      ⟨(FileSystem.read path fs.inner).2, (.read, path.toList) :: fs.log⟩)
  mkdir := fun dir fs => ⟨FileSystem.mkdir dir fs.inner, (.mkdir, dir) :: fs.log⟩
  write := fun path data fs =>
    ((FileSystem.write path data fs.inner).1,
      ⟨(FileSystem.write path data fs.inner).2, (.write, path.toList) :: fs.log⟩)
  remove := fun path fs =>
    ⟨FileSystem.remove path fs.inner, (.delete, path.toList) :: fs.log⟩

section Paths

variable {φ : Type} [FileSystem φ]

/-- Every file that is touched is named so; directories made do not count. -/
def Touches (named : List Char → Prop) (log : List (Access × List Char)) : Prop :=
  ∀ entry ∈ log, entry.1 ≠ .mkdir → named entry.2

variable {named : List Char → Prop}

theorem touches_nil (named : List Char → Prop) : Touches named [] := by
  intro entry hm
  cases hm

theorem Touches.cons {log : List (Access × List Char)} (h : Touches named log) (kind : Access)
    {path : List Char} (hpath : named path) : Touches named ((kind, path) :: log) := by
  intro entry hm hkind
  rcases List.mem_cons.mp hm with rfl | hm
  · exact hpath
  · exact h entry hm hkind

theorem touches_makeDirectories {fs : Logged φ} (h : Touches named fs.log)
    (dir : List Char) : Touches named (makeDirectories dir fs).log := by
  have hall : ∀ (dirs : List (List Char)) (fs : Logged φ), Touches named fs.log →
      Touches named (dirs.foldl (fun fs dir => FileSystem.mkdir dir fs) fs).log := by
    intro dirs
    induction dirs with
    | nil => intro fs h; exact h
    | cons dir dirs ih =>
      intro fs h
      refine ih _ ?_
      intro entry hm hkind
      rcases List.mem_cons.mp hm with rfl | hm
      · exact absurd rfl hkind
      · exact h entry hm hkind
  exact hall _ fs h

theorem touches_readFile {path : String} {fs : Logged φ} (hpath : named path.toList)
    (h : Touches named fs.log) : Touches named (readFile path fs).2.log := by
  unfold readFile
  split
  · exact h
  · exact h.cons .read hpath

theorem touches_writeFile {path : String} {fs : Logged φ} (hpath : named path.toList)
    (h : Touches named fs.log) (data : List UInt8) :
    Touches named (writeFile path data fs).2.log := by
  have hdirs : Touches named
      ((parentPath path).elim fs fun parent => makeDirectories parent fs).log := by
    cases parentPath path with
    | none => exact h
    | some parent => exact touches_makeDirectories h parent
  unfold writeFile
  split
  · exact h
  · dsimp only
    split
    · exact hdirs
    · exact hdirs.cons .write hpath

/-- The three operations on a device touch its file only. -/
theorem touches_loadPairedDevice (y : Yyjson) {deviceId : String} {s : Storage (Logged φ)}
    (hpath : named (pairedPath s.basePath deviceId).toList) (h : Touches named s.fs.log) :
    Touches named (loadPairedDevice y deviceId s).2.fs.log := by
  unfold loadPairedDevice
  dsimp only
  split
  · exact h.cons .stat hpath
  · split
    · exact touches_readFile hpath (h.cons .stat hpath)
    · exact touches_readFile hpath (h.cons .stat hpath)

theorem touches_savePairedDevice (y : Yyjson) {info : DeviceInfo} (pem : String)
    {s : Storage (Logged φ)} (hpath : named (pairedPath s.basePath info.id).toList)
    (h : Touches named s.fs.log) : Touches named (savePairedDevice y info pem s).fs.log :=
  touches_writeFile hpath h _

theorem touches_removePairedDevice {deviceId : String} {s : Storage (Logged φ)}
    (hpath : named (pairedPath s.basePath deviceId).toList) (h : Touches named s.fs.log) :
    Touches named (removePairedDevice deviceId s).fs.log := by
  unfold removePairedDevice
  dsimp only
  split
  · exact (h.cons .stat hpath).cons .delete hpath
  · exact h.cons .stat hpath

/-- The folder the device files belong to. -/
def pairedFolder (base : String) : Folder := normalize (base ++ "/paired").toList

/-- The path leads to a file directly inside the folder of device files. -/
def DirectChild (base : String) (path : List Char) : Prop :=
  ∃ name, normalize path = pairedFolder base ++ [name]

/-- The part of an id before its last slash leads from the folder of device
files back to it. -/
def StaysInside (base deviceId : String) : Prop :=
  resolve (pairedFolder base) (leading deviceId.toList) = pairedFolder base

/-- Where a device's file is: the id is followed to its last slash, and what
comes after it names the file. -/
theorem normalize_pairedPath (base deviceId : String) :
    normalize (pairedPath base deviceId).toList =
      resolve (pairedFolder base) (leading deviceId.toList) ++
        [final deviceId.toList ++ ".json".toList] := by
  have hpath : (pairedPath base deviceId).toList =
      (base ++ "/paired").toList ++ '/' :: (deviceId.toList ++ ".json".toList) := by
    have hslash : "/paired/".toList = "/paired".toList ++ ['/'] := rfl
    simp only [pairedPath, String.toList_append]
    rw [hslash]
    simp only [List.append_assoc]
    rfl
  rw [hpath]
  exact normalize_inside (by decide) (by decide) _ _

/-- A device's file is a direct child of the folder exactly when the part of
the id before its last slash leads back there. -/
theorem directChild_pairedPath (base deviceId : String) :
    DirectChild base (pairedPath base deviceId).toList ↔ StaysInside base deviceId := by
  constructor
  · rintro ⟨name, hname⟩
    rw [normalize_pairedPath] at hname
    exact (List.append_inj' hname rfl).1
  · intro h
    refine ⟨final deviceId.toList ++ ".json".toList, ?_⟩
    rw [normalize_pairedPath, h]

/-- Two devices share a file exactly when their ids lead to the same folder
and agree after their last slash. -/
theorem samePath_iff (base first second : String) :
    normalize (pairedPath base first).toList = normalize (pairedPath base second).toList ↔
      resolve (pairedFolder base) (leading first.toList) =
          resolve (pairedFolder base) (leading second.toList) ∧
        final first.toList = final second.toList := by
  rw [normalize_pairedPath, normalize_pairedPath]
  constructor
  · intro h
    obtain ⟨hfolder, hfinal⟩ := List.append_inj' h rfl
    exact ⟨hfolder, List.append_cancel_right (List.cons.inj hfinal).1⟩
  · rintro ⟨hfolder, hfinal⟩
    rw [hfolder, hfinal]

/-- An id without a slash stays inside. -/
theorem staysInside_of_noSlash {deviceId : String} (h : '/' ∉ deviceId.toList) (base : String) :
    StaysInside base deviceId := by
  rw [StaysInside, leading_of_noSlash h]
  rfl

end Paths

end KdeConnectNx.PairedFiles
