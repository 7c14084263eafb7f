import Mathlib.Data.List.Dedup
import Mathlib.Logic.Function.Basic
import KdeConnectNx.PairedFiles
import KdeConnectNx.Runs

/-!
# The paired store as a map

A device's id is written three times: as the name of its file, as the stem that
is cut from that name in a listing, and as a member of the document. Over all
sequences of saves and removals the store is the map of what was saved last.
-/

namespace KdeConnectNx.PairedStore

open JsonTree PacketBody PacketFormat PathNames PairedFiles Runs

/-- A file system that can list a folder. Subfolders are left out: the store
makes none below `paired`. -/
class ListedFileSystem (φ : Type) extends LawfulFileSystem φ where
  /-- `opendir`, and `readdir` to the end; none when the folder cannot be
  opened. -/
  listDir : String → φ → Option (List String) × φ
  listDir_fst : ∀ path fs, ∃ names, (listDir path fs).1 = some names ∧ names.Nodup ∧
    ∀ name : String, name ∈ names ↔
      (contents fs (normalize path.toList ++ [name.toList])).isSome = true
  contents_listDir : ∀ path fs, contents (listDir path fs).2 = contents fs

/-- `path_stem`: the last component without its last extension. -/
def pathStem (path : String) : String :=
  let name := (path.toList.reverse.takeWhile (· != '/')).reverse
  if '.' ∈ name then String.ofList ((name.reverse.dropWhile (· != '.')).drop 1).reverse
  else String.ofList name

/-- `ends_with(".json")`. -/
def endsWithJson (name : String) : Bool := ".json".toList.isSuffixOf name.toList

section Listing

variable {φ : Type} [ListedFileSystem φ]

def listPairedDeviceIds (s : Storage φ) : List String × Storage φ :=
  let listed := ListedFileSystem.listDir (s.basePath ++ "/paired") s.fs
  match listed.1 with
  | none => ([], { s with fs := listed.2 })
  | some names => ((names.filter endsWithJson).map pathStem, { s with fs := listed.2 })

end Listing

/-- An id that is the name of a file. -/
def FileName : Type := { id : String // '/' ∉ id.toList ∧ NulFree id }

instance : DecidableEq FileName :=
  inferInstanceAs (DecidableEq { id : String // '/' ∉ id.toList ∧ NulFree id })

/-- A device whose texts are C strings, its id a file name. -/
structure PlainDevice where
  info : DeviceInfo
  certificatePem : String
  noSlash : '/' ∉ info.id.toList
  id : NulFree info.id
  name : NulFree info.name
  type : NulFree info.type
  pem : NulFree certificatePem

def PlainDevice.fileName (d : PlainDevice) : FileName := ⟨d.info.id, d.noSlash, d.id⟩

/-- What is stored of a device. -/
def PlainDevice.stored (d : PlainDevice) : PairedDeviceInfo where
  info :=
    { id := d.info.id
      name := d.info.name
      type := d.info.type
      protocolVersion := d.info.protocolVersion }
  certificatePem := d.certificatePem

/-- The calls that change the store. -/
inductive Op where
  | save (d : PlainDevice)
  | remove (deviceId : FileName)

def Op.deviceId : Op → FileName
  | .save d => d.fileName
  | .remove deviceId => deviceId

/-- What the store is for: the devices that are saved, by their ids. -/
abbrev Saved := FileName → Option PairedDeviceInfo

/-- The last save of an id counts, until it is removed. -/
def Saved.apply (saved : Saved) : Op → Saved
  | .save d => Function.update saved d.fileName (some d.stored)
  | .remove deviceId => Function.update saved deviceId none

/-- The stem of a device's file name is its id, however many dots it has. -/
theorem pathStem_json {id : String} (h : '/' ∉ id.toList) : pathStem (id ++ ".json") = id := by
  have hslash : '/' ∉ (id ++ ".json").toList := by
    rw [String.toList_append, List.mem_append, not_or]
    exact ⟨h, by decide⟩
  have hname : ((id ++ ".json").toList.reverse.takeWhile (· != '/')).reverse =
      (id ++ ".json").toList := by
    have hall : (id ++ ".json").toList.reverse.takeWhile (· != '/') =
        (id ++ ".json").toList.reverse := by
      rw [List.takeWhile_eq_self_iff]
      intro c hc
      rw [bne_iff_ne]
      rintro rfl
      exact hslash (List.mem_reverse.mp hc)
    rw [hall, List.reverse_reverse]
  have hdot : '.' ∈ (id ++ ".json").toList := by
    rw [String.toList_append, List.mem_append]
    exact .inr (by decide)
  have hcut : ((id ++ ".json").toList.reverse.dropWhile (· != '.')).drop 1 =
      id.toList.reverse := by
    rw [String.toList_append, List.reverse_append]
    rfl
  unfold pathStem
  dsimp only
  rw [hname, if_pos hdot, hcut, List.reverse_reverse, String.ofList_toList]

theorem endsWithJson_json (id : String) : endsWithJson (id ++ ".json") = true := by
  rw [endsWithJson, List.isSuffixOf_iff_suffix, String.toList_append]
  exact List.suffix_append _ _

section Store

variable {φ : Type} [ListedFileSystem φ]

open LawfulFileSystem

/-- Where the file of an id is. -/
def fileOf (base : String) (deviceId : FileName) : Folder :=
  pairedFolder base ++ [(deviceId.val ++ ".json").toList]

theorem normalize_fileName (base : String) (deviceId : FileName) :
    normalize (pairedPath base deviceId.val).toList = fileOf base deviceId := by
  rw [normalize_pairedPath, leading_of_noSlash deviceId.property.1,
    final_of_noSlash deviceId.property.1, fileOf, String.toList_append]
  rfl

/-- Two ids have two files. -/
theorem fileOf_injective (base : String) : Function.Injective (fileOf base) := by
  intro first second h
  have hname := (List.cons.inj (List.append_inj' h rfl).2).1
  rw [String.toList_append, String.toList_append] at hname
  exact Subtype.ext (String.toList_inj.mp (List.append_cancel_right hname))

/-- A call of the store. -/
def step (y : Yyjson) (s : Storage φ) : Op → Storage φ
  | .save d => savePairedDevice y d.info d.certificatePem s
  | .remove deviceId => removePairedDevice deviceId.val s

/-- The write of a save succeeds. -/
def Succeeds (y : Yyjson) (s : Storage φ) : Op → Prop
  | .save d =>
    (writeFile (pairedPath s.basePath d.info.id)
      ((pairedData d.info d.certificatePem).dumpPretty y) s.fs).1 = true
  | .remove _ => True

/-- The text of a stored device. -/
def textOf (y : Yyjson) (e : PairedDeviceInfo) : List UInt8 :=
  (pairedData e.info e.certificatePem).dumpPretty y

/-- The files are those of the saved devices, each under a path that fits the
buffers. -/
structure Refines (y : Yyjson) (base : String) (s : Storage φ) (saved : Saved) : Prop where
  basePath : s.basePath = base
  file : ∀ id, contents s.fs (fileOf base id) = (saved id).map (textOf y)
  named : ∀ name, (contents s.fs (pairedFolder base ++ [name])).isSome = true →
    ∃ id : FileName, name = (id.val ++ ".json").toList
  plain : ∀ id e, saved id = some e →
    ShortPath s id.val ∧ ∃ d : PlainDevice, d.fileName = id ∧ d.stored = e

/-- A path that is written to fits the buffers. -/
theorem short_of_succeeds {y : Yyjson} {s : Storage φ} {d : PlainDevice}
    (h : Succeeds y s (.save d)) : ShortPath s d.info.id := by
  have hwrite : (writeFile (pairedPath s.basePath d.info.id)
      ((pairedData d.info d.certificatePem).dumpPretty y) s.fs).1 = true := h
  unfold writeFile at hwrite
  split at hwrite
  · exact Bool.noConfusion hwrite
  · dsimp only at hwrite
    split at hwrite
    · exact Bool.noConfusion hwrite
    · next hshort => exact Nat.lt_of_not_le hshort

/-- Where the file of one id gets a new content and the others stay, the map
changes at that id. -/
theorem Refines.update {y : Yyjson} {base : String} {s s' : Storage φ} {saved : Saved}
    (h : Refines y base s saved) (hbase : s'.basePath = base) {deviceId : FileName}
    {value : Option PairedDeviceInfo}
    (hcontents : ∀ file, contents s'.fs file =
      if file = fileOf base deviceId then value.map (textOf y) else contents s.fs file)
    (hplain : ∀ e, value = some e →
      ShortPath s deviceId.val ∧ ∃ d : PlainDevice, d.fileName = deviceId ∧ d.stored = e) :
    Refines y base s' (Function.update saved deviceId value) where
  basePath := hbase
  file := by
    intro id
    rw [hcontents]
    by_cases hid : id = deviceId
    · subst hid
      rw [Function.update_self, if_pos rfl]
    · rw [Function.update_of_ne hid, if_neg (mt (fun hf => fileOf_injective base hf) hid)]
      exact h.file id
  named := by
    intro name hname
    rw [hcontents] at hname
    by_cases hfile : pairedFolder base ++ [name] = fileOf base deviceId
    · exact ⟨deviceId, (List.cons.inj (List.append_inj' hfile rfl).2).1⟩
    · rw [if_neg hfile] at hname
      exact h.named name hname
  plain := by
    have hshort : ∀ id : FileName, ShortPath s id.val ↔ ShortPath s' id.val := by
      intro id
      rw [ShortPath, ShortPath, h.basePath, hbase]
    intro id e he
    rw [← hshort]
    by_cases hid : id = deviceId
    · subst hid
      rw [Function.update_self] at he
      exact hplain e he
    · rw [Function.update_of_ne hid] at he
      exact h.plain id e he

theorem refines_step {y : Yyjson} {base : String} {s : Storage φ} {saved : Saved} {op : Op}
    (h : Refines y base s saved) (hok : Succeeds y s op) :
    Refines y base (step y s op) (saved.apply op) := by
  have hpath : ∀ id : FileName, normalize (pairedPath s.basePath id.val).toList =
      fileOf base id := by
    intro id
    rw [h.basePath]
    exact normalize_fileName base id
  cases op with
  | save d =>
    have hshort := short_of_succeeds hok
    have hnext : Refines y base (savePairedDevice y d.info d.certificatePem s)
        (Function.update saved d.fileName (some d.stored)) := by
      refine h.update ?_ ?_ ?_
      · exact h.basePath
      · intro file
        have hwrite := congrFun (contents_writeFile hshort
          ((pairedData d.info d.certificatePem).dumpPretty y) s.fs) file
        rw [← hpath d.fileName]
        exact hwrite
      · intro e he
        exact ⟨hshort, d, rfl, Option.some.inj he⟩
    exact hnext
  | remove deviceId =>
    have hnext : Refines y base (removePairedDevice deviceId.val s)
        (Function.update saved deviceId none) := by
      refine h.update ?_ ?_ ?_
      · exact h.basePath
      · intro file
        have hremove := congrFun (contents_removePairedDevice deviceId.val s) file
        rw [← hpath deviceId]
        exact hremove
      · intro e he
        cases he
    exact hnext

/-- A load gives what is saved. -/
theorem Refines.entry {y : Yyjson} (hy : y.Lawful) {base : String} {s : Storage φ} {saved : Saved}
    (h : Refines y base s saved) (id : FileName) : s.entry y id.val = saved id := by
  have hcontent : s.content id.val = (saved id).map (textOf y) := by
    rw [Storage.content, h.basePath, normalize_fileName]
    exact h.file id
  cases hsaved : saved id with
  | none =>
    rw [hsaved] at hcontent
    exact entry_of_content_none y hcontent
  | some e =>
    obtain ⟨hshort, d, -, rfl⟩ := h.plain id e hsaved
    rw [hsaved] at hcontent
    rw [entry_of_content hy hshort hcontent]
    have hid : cstr d.stored.info.id = d.info.id := cstr_of_nulFree d.id
    have hname : cstr d.stored.info.name = d.info.name := cstr_of_nulFree d.name
    have htype : cstr d.stored.info.type = d.info.type := cstr_of_nulFree d.type
    have hpem : cstr d.stored.certificatePem = d.certificatePem := cstr_of_nulFree d.pem
    rw [hid, hname, htype, hpem]
    rfl

/-- The names in the folder are the ids that are saved, with the extension. -/
theorem Refines.isSome_iff {y : Yyjson} {base : String} {s : Storage φ} {saved : Saved}
    (h : Refines y base s saved) (name : List Char) :
    (contents s.fs (pairedFolder base ++ [name])).isSome = true ↔
      ∃ id : FileName, name = (id.val ++ ".json").toList ∧ (saved id).isSome = true := by
  have hfile : ∀ id : FileName, (contents s.fs (pairedFolder base ++
      [(id.val ++ ".json").toList])).isSome = (saved id).isSome := by
    intro id
    have hid := congrArg Option.isSome (h.file id)
    rw [Option.isSome_map] at hid
    exact hid
  constructor
  · intro hname
    obtain ⟨id, rfl⟩ := h.named name hname
    exact ⟨id, rfl, (hfile id).symm.trans hname⟩
  · rintro ⟨id, rfl, hsome⟩
    exact (hfile id).trans hsome

/-- A listing gives the ids that are saved, each once. -/
theorem Refines.listed {y : Yyjson} {base : String} {s : Storage φ} {saved : Saved}
    (h : Refines y base s saved) :
    (listPairedDeviceIds s).1.Nodup ∧ ∀ deviceId, deviceId ∈ (listPairedDeviceIds s).1 ↔
      ∃ id : FileName, id.val = deviceId ∧ (saved id).isSome = true := by
  obtain ⟨names, hnames, hnodup, hmem⟩ :=
    ListedFileSystem.listDir_fst (s.basePath ++ "/paired") s.fs
  have hlist : (listPairedDeviceIds s).1 = (names.filter endsWithJson).map pathStem := by
    simp only [listPairedDeviceIds, hnames]
  have hname : ∀ name, name ∈ names ↔
      ∃ id : FileName, name = id.val ++ ".json" ∧ (saved id).isSome = true := by
    intro name
    have hfolder : normalize (s.basePath ++ "/paired").toList = pairedFolder base := by
      rw [h.basePath]
      rfl
    rw [hmem, hfolder, h.isSome_iff]
    constructor
    · rintro ⟨id, hid, hsome⟩
      exact ⟨id, String.toList_inj.mp hid, hsome⟩
    · rintro ⟨id, rfl, hsome⟩
      exact ⟨id, rfl, hsome⟩
  rw [hlist]
  constructor
  · refine (List.nodup_map_iff_inj_on (hnodup.filter _)).mpr ?_
    intro first hfirst second hsecond hstem
    obtain ⟨id, rfl, -⟩ := (hname first).mp (List.mem_filter.mp hfirst).1
    obtain ⟨other, rfl, -⟩ := (hname second).mp (List.mem_filter.mp hsecond).1
    rw [pathStem_json id.property.1, pathStem_json other.property.1] at hstem
    rw [hstem]
  · intro deviceId
    rw [List.mem_map]
    constructor
    · rintro ⟨name, hmem, rfl⟩
      obtain ⟨id, rfl, hsome⟩ := (hname name).mp (List.mem_filter.mp hmem).1
      exact ⟨id, (pathStem_json id.property.1).symm, hsome⟩
    · rintro ⟨id, rfl, hsome⟩
      exact ⟨id.val ++ ".json",
        List.mem_filter.mpr ⟨(hname _).mpr ⟨id, rfl, hsome⟩, endsWithJson_json id.val⟩,
        pathStem_json id.property.1⟩

/-- The store shows a map: what a load gives and what a listing gives, and a
call about one id that succeeds leaves every other id as it was. -/
structure Shows (y : Yyjson) (s : Storage φ) (saved : Saved) : Prop where
  entry : ∀ id : FileName, s.entry y id.val = saved id
  nodup : (listPairedDeviceIds s).1.Nodup
  listed : ∀ deviceId, deviceId ∈ (listPairedDeviceIds s).1 ↔
    ∃ id : FileName, id.val = deviceId ∧ (saved id).isSome = true
  apart : ∀ op, Succeeds y s op → ∀ id : FileName, id ≠ op.deviceId →
    (step y s op).entry y id.val = s.entry y id.val

theorem Refines.shows {y : Yyjson} (hy : y.Lawful) {base : String} {s : Storage φ} {saved : Saved}
    (h : Refines y base s saved) : Shows y s saved where
  entry := h.entry hy
  nodup := h.listed.1
  listed := h.listed.2
  apart := by
    intro op hok id hid
    rw [(refines_step h hok).entry hy id, h.entry hy id]
    cases op with
    | save d => exact Function.update_of_ne hid _ _
    | remove deviceId => exact Function.update_of_ne hid _ _

/-- No device has a file. -/
def Fresh (s : Storage φ) : Prop :=
  ∀ name, contents s.fs (pairedFolder s.basePath ++ [name]) = none

theorem refines_fresh (y : Yyjson) {s : Storage φ} (h : Fresh s) :
    Refines y s.basePath s fun _ => none where
  basePath := rfl
  file := fun id => h _
  named := by
    intro name hname
    rw [h name] at hname
    cases hname
  plain := by
    intro id e he
    cases he

/-- After any sequence of saves and removals whose writes succeed the store
shows what was saved last of each device. -/
theorem shows_run {y : Yyjson} (hy : y.Lawful) {s : Storage φ} (hs : Fresh s) {ops : List Op}
    (hok : EveryStep (step y) (Succeeds y) s ops) :
    Shows y (run (step y) s ops) (run Saved.apply (fun _ => none) ops) := by
  have hstep : ∀ (s' : Storage φ) (saved : Saved) (op : Op), Refines y s.basePath s' saved →
      Succeeds y s' op → Refines y s.basePath (step y s' op) (saved.apply op) :=
    fun s' saved op h hop => refines_step h hop
  have hrefines := run_related hstep (refines_fresh y hs) hok
  exact hrefines.shows hy

end Store

/-- The names of the files in a folder. -/
def memoryList (folder : Folder) (m : MemoryFiles) : List String :=
  (m.entries.filterMap fun entry =>
    entry.1.getLast?.bind fun name =>
      if entry.1 = folder ++ [name] ∧ (m.content entry.1).isSome = true then
        some (String.ofList name)
      else none).dedup

theorem mem_memoryList (folder : Folder) (m : MemoryFiles) (name : String) :
    name ∈ memoryList folder m ↔ (m.content (folder ++ [name.toList])).isSome = true := by
  unfold memoryList
  rw [List.mem_dedup, List.mem_filterMap]
  constructor
  · rintro ⟨entry, -, hentry⟩
    obtain ⟨last, hlast, hname⟩ := Option.bind_eq_some_iff.mp hentry
    split at hname
    · next hfile =>
      cases hname
      rw [String.toList_ofList, ← hfile.1]
      exact hfile.2
    · cases hname
  · intro hsome
    have hlookup : (m.entries.lookup (folder ++ [name.toList])).isSome = true := by
      unfold MemoryFiles.content at hsome
      cases hl : m.entries.lookup (folder ++ [name.toList]) with
      | none =>
        rw [hl] at hsome
        cases hsome
      | some value => rfl
    obtain ⟨value, hvalue⟩ := Option.isSome_iff_exists.mp hlookup
    obtain ⟨before, after, hentries, -⟩ := List.lookup_eq_some_iff.mp hvalue
    refine ⟨(folder ++ [name.toList], value), ?_, ?_⟩
    · rw [hentries]
      simp
    · simp [hsome]

instance : ListedFileSystem MemoryFiles where
  listDir := fun path m => (some (memoryList (normalize path.toList) m), m)
  listDir_fst := fun path m =>
    ⟨_, rfl, List.nodup_dedup _, fun name => mem_memoryList (normalize path.toList) m name⟩
  contents_listDir := fun _ _ => rfl

/-- A phone whose id has dots. -/
def dottedPhone : PlainDevice where
  info := { id := "5f0c.v2.json", name := "phone", type := "phone" }
  certificatePem := "phone certificate"
  noSlash := by decide
  id := by decide
  name := by decide
  type := by decide
  pem := by decide

/-- A tablet with an id of its own. -/
def tablet : PlainDevice where
  info := { id := "77aa", name := "tablet", type := "tablet" }
  certificatePem := "tablet certificate"
  noSlash := by decide
  id := by decide
  name := by decide
  type := by decide
  pem := by decide

/-- Both are saved, the phone is removed and comes back. -/
def twoDevices : List Op :=
  [.save dottedPhone, .save tablet, .remove dottedPhone.fileName, .save dottedPhone]

theorem shows_twoDevices :
    Shows Yyjson.reference
      (run (step Yyjson.reference) (⟨"/config/kdeconnect", {}⟩ : Storage MemoryFiles) twoDevices)
      (run Saved.apply (fun _ => none) twoDevices) :=
  shows_run Yyjson.reference_lawful (fun _ => rfl) ⟨rfl, rfl, trivial, rfl, trivial⟩

end KdeConnectNx.PairedStore
