import KdeConnectNx.ConnectionRuns

/-!
# Which files a device id can reach

A device id comes from whoever connects, and names a file. Over all runs about
some devices only the files of these ids are touched; whether those are files
of their own directly inside the folder depends on the ids alone.
-/

namespace KdeConnectNx.DeviceFiles

open Runs PathNames PacketBody PacketFormat PairedFiles Sessions Pairing Connection ConnectionRuns
open KdeConnectClient (setStorage)

/-- The id can come out of an identity packet and passes the first checks. -/
def Accepted {φ π : Type} (c : KdeConnectClient φ π) (deviceId : String) : Prop :=
  (∃ pkt : NetworkPacket, (infoFromIdentity pkt).id = deviceId) ∧
    deviceId ≠ "" ∧ deviceId ≠ c.localDevice.id

/-- Any text without a NUL is accepted, the empty one and the client's own id
excepted. -/
theorem accepted_iff {φ π : Type} (c : KdeConnectClient φ π) (deviceId : String) :
    Accepted c deviceId ↔
      NulFree deviceId ∧ deviceId ≠ "" ∧ deviceId ≠ c.localDevice.id := by
  constructor
  · rintro ⟨⟨pkt, rfl⟩, hempty, hown⟩
    exact ⟨infoFromIdentity_id_nulFree pkt, hempty, hown⟩
  · rintro ⟨hfree, hempty, hown⟩
    have hfield : (({} : JsonBody).setStr "deviceId" deviceId).field "deviceId" =
        some (.str (cstr deviceId)) := JsonBody.field_setVal_self _ _ _
    have hvalue : (({} : JsonBody).setStr "deviceId" deviceId).valueStr "deviceId" "" =
        deviceId := by
      simp only [JsonBody.valueStr, hfield]
      exact (cstr_of_nulFree (cstr_nulFree deviceId)).trans (cstr_of_nulFree hfree)
    exact ⟨⟨{ type := PacketTypes.identity
              body := ({} : JsonBody).setStr "deviceId" deviceId }, hvalue⟩, hempty, hown⟩

/-- Two ids name one file. -/
def SameFile (base first second : String) : Prop :=
  normalize (pairedPath base first).toList = normalize (pairedPath base second).toList

/-- In every run about these devices every file that is touched is a direct
child of the folder, and no two of the ids name one file. -/
def Confined {φ π ε : Type} [FileSystem φ] [PluginHost π ε] (y : Yyjson) (ids : Set String)
    (w : World (Logged φ) π) : Prop :=
  (∀ events : List (EventOf ε ids),
    Touches (DirectChild w.client.storage.basePath)
      (run (stepOf y) w events).client.storage.fs.log) ∧
    ∀ first ∈ ids, ∀ second ∈ ids,
      SameFile w.client.storage.basePath first second → first = second

/-- What comes before the last slash of each id leads back to the folder, and
no two ids agree after it. -/
structure PlainNames (base : String) (ids : Set String) : Prop where
  staysInside : ∀ deviceId ∈ ids, StaysInside base deviceId
  final : ∀ first ∈ ids, ∀ second ∈ ids,
    final first.toList = final second.toList → first = second

/-- Ids without a slash are plain names. -/
theorem plainNames_of_noSlash (base : String) {ids : Set String}
    (h : ∀ deviceId ∈ ids, '/' ∉ deviceId.toList) : PlainNames base ids where
  staysInside := fun deviceId hid => staysInside_of_noSlash (h deviceId hid) base
  final := by
    intro first hfirst second hsecond hfinal
    rw [final_of_noSlash (h first hfirst), final_of_noSlash (h second hsecond)] at hfinal
    exact String.toList_inj.mp hfinal

section Steps

variable {φ π ε : Type} [FileSystem φ] [PluginHost π ε]

/-- The path is the file of one of these ids. -/
def NamesDevice (base : String) (ids : Set String) (path : List Char) : Prop :=
  ∃ deviceId ∈ ids, path = (pairedPath base deviceId).toList

omit [PluginHost π ε] in
/-- The effect of a step of the automaton touches the device's file only. -/
theorem touches_applyEffect (y : Yyjson) {named : List Char → Prop} {k : Core}
    {s : Storage (Logged φ)} (hpath : named (pairedPath s.basePath k.info.id).toList)
    (h : Touches named s.fs.log) (effect : StoreEffect) :
    Touches named (applyEffect y k s effect).fs.log := by
  cases effect with
  | keep => exact h
  | save => exact touches_savePairedDevice y k.certPem hpath h
  | remove => exact touches_removePairedDevice hpath h

/-- A step about the given devices touches the files of their ids only. -/
theorem touches_step (y : Yyjson) {ids : Set String} {base : String} {w : World (Logged φ) π}
    (hw : Grounded ids base w) {e : Event ε} (he : e.Concerns ids)
    (h : Touches (NamesDevice base ids) w.client.storage.fs.log) :
    Touches (NamesDevice base ids) (step y w e).client.storage.fs.log := by
  have houtcome := step_outcome y hw.table e
  have hnamed : ∀ deviceId ∈ ids,
      NamesDevice base ids (pairedPath w.client.storage.basePath deviceId).toList := by
    intro deviceId hid
    rw [hw.basePath]
    exact ⟨deviceId, hid, rfl⟩
  have hfollows : ∀ {c' : KdeConnectClient (Logged φ) π} {ref : Nat} {act : Act},
      ref < w.client.next → Follows y w.client c' ref act →
      Touches (NamesDevice base ids) c'.storage.fs.log := by
    intro c' ref act href hf
    rw [hf.storage]
    exact touches_applyEffect y (hnamed _ (hw.sessions ref href)) h _
  generalize step y w e = w' at houtcome ⊢
  cases houtcome with
  | idle e hidle => exact h
  | checked thread identity => exact h
  | loaded thread identity hthread =>
    exact touches_loadPairedDevice y (hnamed _ (hw.threads thread _ hthread)) h
  | dropped thread tcpServerSide io => exact h
  | made thread tcpServerSide io identity stored s hthread hs => exact h
  | installed thread m showOnConnect identity ref hthread =>
    have hannounced := sameCores_announce m identity showOnConnect ref (install ref w.client)
    rw [proceed_client, hannounced.storage, (install_frame ref w.client).1]
    exact h
  | heard ref m body c' href hf => exact hfollows href hf
  | ended ref c' href hf => exact hfollows href hf
  | asked e deviceId ref act c' htarget hact hcurrent hf =>
    exact hfollows (hw.table deviceId ref hcurrent).1 hf
  | forgotten deviceId m hnone =>
    exact touches_removePairedDevice (hnamed deviceId (he.2 deviceId rfl)) h

/-- Over a whole run only the files of the given ids are touched. -/
theorem touches_run (y : Yyjson) {ids : Set String} {w : World (Logged φ) π} (hw : Started w)
    (hlog : w.client.storage.fs.log = []) (events : List (EventOf ε ids)) :
    Touches (NamesDevice w.client.storage.basePath ids)
      (run (stepOf y) w events).client.storage.fs.log := by
  have hstart : Touches (NamesDevice w.client.storage.basePath ids) w.client.storage.fs.log := by
    rw [hlog]
    exact touches_nil _
  have hall : Always (stepOf y) (fun w' => Grounded ids w.client.storage.basePath w' ∧
      Touches (NamesDevice w.client.storage.basePath ids) w'.client.storage.fs.log) w events := by
    refine always_of_step ?_ ⟨hw.grounded ids, hstart⟩ events
    intro w' e h
    exact ⟨step_grounded y h.1 e.property, touches_step y h.1 e.property h.2⟩
  exact hall.last.2

omit [PluginHost π ε] in
/-- A load looks for the device's file. -/
theorem stat_mem_loadPairedDevice (y : Yyjson) (deviceId : String) (s : Storage (Logged φ)) :
    (Access.stat, (pairedPath s.basePath deviceId).toList) ∈
      (loadPairedDevice y deviceId s).2.fs.log := by
  have hread : ∀ fs : Logged φ, (Access.stat, (pairedPath s.basePath deviceId).toList) ∈ fs.log →
      (Access.stat, (pairedPath s.basePath deviceId).toList) ∈
        (readFile (pairedPath s.basePath deviceId) fs).2.log := by
    intro fs hfs
    simp only [readFile]
    split
    · exact hfs
    · exact List.mem_cons_of_mem _ hfs
  have hstat : (Access.stat, (pairedPath s.basePath deviceId).toList) ∈
      (FileSystem.stat (pairedPath s.basePath deviceId) s.fs).2.log := List.mem_cons_self
  simp only [loadPairedDevice]
  split
  · exact hstat
  · split
    · exact hread _ hstat
    · exact hread _ hstat

/-- Any accepted id can make the client look for its file, so a confined one
leads back to the folder. -/
theorem staysInside_of_confined {y : Yyjson} {ids : Set String} {w : World (Logged φ) π}
    (hw : Started w) (h : Confined y ids w) {deviceId : String} (hid : deviceId ∈ ids)
    (haccepted : Accepted w.client deviceId) : StaysInside w.client.storage.basePath deviceId := by
  have hadmitted : admitted w.client { id := deviceId } = true := by
    obtain ⟨-, hempty, hown⟩ := haccepted
    have hnone := hw.device deviceId
    simp [admitted, hempty, hown, hnone]
  have hconcerns : ∀ e ∈ [Event.check 0 { id := deviceId }, Event.load 0],
      Event.Concerns (ε := ε) ids e := by
    simp [Event.Concerns, Event.target, hid]
  have htouches := h.1 (eventsOf _ hconcerns)
  rw [run_eventsOf] at htouches
  have hrun : (run (step y) w [Event.check 0 { id := deviceId }, Event.load 0]).client.storage =
      (loadPairedDevice y deviceId w.client.storage).2 := by
    simp [step, hw.attempts, hadmitted, KdeConnectClient.setStorage]
  rw [hrun] at htouches
  have hchild := htouches _ (stat_mem_loadPairedDevice y deviceId w.client.storage) (by simp)
  exact (directChild_pairedPath _ _).mp hchild

/-- Accepted ids reach files of their own inside the folder, and only these,
exactly if they are plain names. -/
theorem confined_iff (y : Yyjson) {ids : Set String} {w : World (Logged φ) π} (hw : Started w)
    (hlog : w.client.storage.fs.log = []) (hids : ∀ id ∈ ids, Accepted w.client id) :
    Confined y ids w ↔ PlainNames w.client.storage.basePath ids := by
  constructor
  · intro h
    have hinside : ∀ deviceId ∈ ids, StaysInside w.client.storage.basePath deviceId :=
      fun deviceId hid => staysInside_of_confined hw h hid (hids deviceId hid)
    refine ⟨hinside, ?_⟩
    intro first hfirst second hsecond hfinal
    have hfolder := (hinside first hfirst).trans (hinside second hsecond).symm
    exact h.2 first hfirst second hsecond ((samePath_iff _ _ _).mpr ⟨hfolder, hfinal⟩)
  · intro h
    refine ⟨?_, ?_⟩
    · intro events entry hm hkind
      obtain ⟨deviceId, hid, hpath⟩ := touches_run y hw hlog events entry hm hkind
      rw [hpath]
      exact (directChild_pairedPath _ _).mpr (h.staysInside deviceId hid)
    · intro first hfirst second hsecond hsame
      exact h.final first hfirst second hsecond ((samePath_iff _ _ _).mp hsame).2

end Steps

/-- A client without sessions, on an empty file system that is watched. -/
def watched : World (Logged MemoryFiles) Empty where
  client := { storage := ⟨"/config/kdeconnect", ⟨{}, []⟩⟩, localDevice := { id := "0a" } }

theorem watched_started : Started watched := ⟨rfl, rfl, fun _ => rfl⟩

/-- The id of a device that asks for the settings file. -/
theorem notConfined_watched :
    ¬ Confined Yyjson.reference { deviceId | Accepted watched.client deviceId } watched := by
  intro h
  have haccepted : Accepted watched.client "../settings" :=
    (accepted_iff _ _).mpr ⟨by decide, by decide, by decide⟩
  have hinside := staysInside_of_confined watched_started h haccepted haccepted
  unfold StaysInside at hinside
  revert hinside
  decide

theorem confined_watched : Confined Yyjson.reference {"5f0c"} watched := by
  refine (confined_iff Yyjson.reference watched_started rfl ?_).mpr ?_
  · rintro _ rfl
    exact (accepted_iff _ _).mpr ⟨by decide, by decide, by decide⟩
  · refine plainNames_of_noSlash _ ?_
    rintro _ rfl
    decide

end KdeConnectNx.DeviceFiles
