import KdeConnectNx.PairingRuns
import KdeConnectNx.RecordStream

/-!
# Setting up a connection

`handle_new_connection` in its phases: the duplicate check, the load of the
stored device, the handshake with the identity exchange inside TLS, the entry
into the table, and what is sent afterwards. Both roles run the same code; a
check of the certificate is made in one of them only.
-/

namespace KdeConnectNx.Connection

open PacketBody PacketFormat PairedFiles Sessions Pairing PairingRuns
open KdeConnectClient (setStorage post sendPacket notifyPluginsConnected)
open RecordStream (phone phoneIdentity)

/-- What the connection gives: the results of the TLS calls, the certificate
presented, and the line read. -/
structure ConnectionIo where
  /-- `TlsContext::create_session` succeeds. -/
  tls : Bool := true
  handshake : Bool := true
  /-- PEM text of the peer's certificate, none when it presents none. -/
  certificate : Option String := none
  peerPubkey : List UInt8 := []
  /-- The own identity packet is sent through TLS. -/
  sent : Bool := true
  /-- The line read through TLS. -/
  line : Option (List UInt8) := none
  /-- The setting that asks for a notice on each connection. -/
  showOnConnect : Bool := false

/-- `TlsContext::peer_cert_pem`, empty without a certificate. -/
def ConnectionIo.peerPem (io : ConnectionIo) : String := io.certificate.getD ""

variable {φ π ε : Type}

/-- The first checks: an id of its own, and no live session with it yet. -/
def admitted (c : KdeConnectClient φ π) (identity : DeviceInfo) : Bool :=
  !identity.id.isEmpty && identity.id != c.localDevice.id &&
    (c.device identity.id).all fun ref => (c.heap ref).disconnected

/-- From the handshake to the session object; none where the connection is
dropped. -/
def makeSession [PluginHost π ε] (y : Yyjson) (identity : DeviceInfo) (tcpServerSide : Bool)
    (io : ConnectionIo) (stored : Option PairedDeviceInfo) : Option (DeviceSession π) :=
  let paired := stored.isSome
  let storedPem := (stored.map PairedDeviceInfo.certificatePem).getD ""
  if !io.tls then none
  else if !io.handshake then none
  else if io.peerPem.isEmpty && tcpServerSide then none
  else if paired && !storedPem.isEmpty && io.peerPem != storedPem && tcpServerSide then none
  else if !io.sent then none
  else
    (io.line.bind (secureInfo y identity)).map fun info =>
      { info := info
        paired := paired
        pairState := if paired then .paired else .notPaired
        certPem := io.peerPem
        peerPubkey := io.peerPubkey
        plugins := PluginHost.instantiate info.id }

/-- A session object is put on the heap, its io thread running. -/
def allocate (s : DeviceSession π) (c : KdeConnectClient φ π) : KdeConnectClient φ π :=
  { c with heap := Function.update c.heap c.next s, next := c.next + 1 }

/-- A session takes its device's place in the table; the one it replaces is
closed. -/
def install (ref : Nat) (c : KdeConnectClient φ π) : KdeConnectClient φ π :=
  let id := (c.heap ref).info.id
  let old := c.device id
  let c := { c with sessions := (id, ref) :: c.sessions.filter fun entry => entry.1 != id }
  old.elim c fun oldRef => c.modify oldRef DeviceSession.markDisconnected

/-- What follows the entry into the table: a notice, a denial when the device
is not paired, the own identity once more, and the plugins' part. -/
def announce [PluginHost π ε] (m : Moment ε) (identity : DeviceInfo) (showOnConnect : Bool)
    (ref : Nat) (c : KdeConnectClient φ π) : KdeConnectClient φ π :=
  let s := c.heap ref
  let c := if s.paired && showOnConnect then
      post c s.info.name "Connected" ("connect_" ++ s.info.id)
    else c
  let c := if !(c.heap ref).paired then (sendPacket m identity.id unpairPacket c).2 else c
  let c := (sendPacket m identity.id (makeIdentityPacket c.localDevice (some identity.id)
    (some identity.protocolVersion) (some c.tcpPort)) c).2
  notifyPluginsConnected m ref c

/-- A connection that was accepted (`tcpServerSide`) or dialled, from the
announced identity on. -/
def handleNewConnection [FileSystem φ] [PluginHost π ε] (y : Yyjson) (m : Moment ε)
    (identity : DeviceInfo) (tcpServerSide : Bool) (io : ConnectionIo)
    (c : KdeConnectClient φ π) : KdeConnectClient φ π :=
  if !admitted c identity then c
  else
    let loaded := loadPairedDevice y identity.id c.storage
    let c := setStorage c loaded.2
    match makeSession y identity tcpServerSide io loaded.1 with
    | none => c
    | some s => announce m identity io.showOnConnect c.next (install c.next (allocate s c))

/-- The table holds only sessions that are on the heap. -/
def TableOnHeap (c : KdeConnectClient φ π) : Prop :=
  ∀ deviceId ref, c.device deviceId = some ref → ref < c.next

/-- The connection gets through the handshake and the identity exchange. -/
structure GetsThrough (y : Yyjson) (identity : DeviceInfo) (io : ConnectionIo)
    (c : KdeConnectClient φ π) : Prop where
  admitted : admitted c identity = true
  tls : io.tls = true
  handshake : io.handshake = true
  sent : io.sent = true
  line : (io.line.bind (secureInfo y identity)).isSome = true

/-- If this connection put a paired session into the table, the store has an
entry for the id and the certificate presented is the stored one. -/
def Pinned [FileSystem φ] (y : Yyjson) (identity : DeviceInfo) (io : ConnectionIo)
    (c c' : KdeConnectClient φ π) : Prop :=
  c'.device identity.id = some c.next → (c'.heap c.next).paired = true →
    ∃ entry, c.storage.entry y identity.id = some entry ∧
      io.certificate = some entry.certificatePem

/-- Only the certificate the store has for the device was presented. -/
def StoredCertificate [FileSystem φ] (y : Yyjson) (identity : DeviceInfo) (io : ConnectionIo)
    (c : KdeConnectClient φ π) : Prop :=
  ∀ entry, c.storage.entry y identity.id = some entry →
    io.certificate = some entry.certificatePem

/-- After its entry into the table a session is found under its id. -/
theorem install_device (ref : Nat) (c : KdeConnectClient φ π) :
    (install ref c).device (c.heap ref).info.id = some ref := by
  unfold install
  dsimp only
  cases c.device (c.heap ref).info.id with
  | none =>
    unfold KdeConnectClient.device
    dsimp only [Option.elim]
    rw [List.lookup_cons, beq_self_eq_true]
  | some old =>
    unfold KdeConnectClient.device
    dsimp only [Option.elim]
    rw [KdeConnectClient.modify_sessions, List.lookup_cons, beq_self_eq_true]

/-- Other devices keep their sessions. -/
theorem install_device_ne {ref : Nat} {c : KdeConnectClient φ π} {deviceId : String}
    (h : deviceId ≠ (c.heap ref).info.id) :
    (install ref c).device deviceId = c.device deviceId := by
  have hlookup : ∀ entries : List (String × Nat),
      (entries.filter fun entry => entry.1 != (c.heap ref).info.id).lookup deviceId =
        entries.lookup deviceId := by
    intro entries
    induction entries with
    | nil => rfl
    | cons entry entries ih =>
      by_cases hentry : entry.1 = (c.heap ref).info.id
      · have hother : deviceId ≠ entry.1 := hentry ▸ h
        rw [List.filter_cons_of_neg (by simp [hentry]), ih, List.lookup_cons,
          beq_eq_false_iff_ne.mpr hother]
      · rw [List.filter_cons_of_pos (by simp [hentry]), List.lookup_cons, List.lookup_cons, ih]
  have hcons : (((c.heap ref).info.id, ref) ::
      c.sessions.filter fun entry => entry.1 != (c.heap ref).info.id).lookup deviceId =
        c.sessions.lookup deviceId := by
    rw [List.lookup_cons, beq_eq_false_iff_ne.mpr h, hlookup]
  simp only [install]
  cases c.device (c.heap ref).info.id with
  | none => exact hcons
  | some old => exact hcons

/-- The entry changes neither the store nor which sessions there are. -/
theorem install_frame (ref : Nat) (c : KdeConnectClient φ π) :
    (install ref c).storage = c.storage ∧ (install ref c).next = c.next ∧
      ∀ other, ((install ref c).heap other).info = (c.heap other).info := by
  simp only [install]
  cases c.device (c.heap ref).info.id with
  | none => exact ⟨rfl, rfl, fun _ => rfl⟩
  | some old => exact ⟨rfl, rfl, KdeConnectClient.modify_info _ old fun _ => rfl⟩

/-- Only the session that is replaced changes. -/
theorem install_heap {ref other : Nat} {c : KdeConnectClient φ π}
    (h : c.device (c.heap ref).info.id ≠ some other) :
    (install ref c).heap other = c.heap other := by
  unfold install
  dsimp only
  cases hold : c.device (c.heap ref).info.id with
  | none => rfl
  | some old =>
    have hne : other ≠ old := by
      rintro rfl
      exact h hold
    exact KdeConnectClient.modify_heap_ne _ hne _

/-- A new session is what was allocated. -/
theorem allocate_heap (s : DeviceSession π) (c : KdeConnectClient φ π) :
    (allocate s c).heap c.next = s := Function.update_self ..

theorem allocate_heap_ne (s : DeviceSession π) {c : KdeConnectClient φ π} {ref : Nat}
    (h : ref < c.next) : (allocate s c).heap ref = c.heap ref :=
  Function.update_of_ne (Nat.ne_of_lt h) ..

/-- What is sent afterwards changes no pairing part and no entry. -/
theorem sameCores_announce [PluginHost π ε] (m : Moment ε) (identity : DeviceInfo)
    (showOnConnect : Bool) (ref : Nat) (c : KdeConnectClient φ π) :
    SameCores c (announce m identity showOnConnect ref c) := by
  have hpost : SameCores c (if ((c.heap ref).paired && showOnConnect) = true then
      post c (c.heap ref).info.name "Connected" ("connect_" ++ (c.heap ref).info.id) else c) := by
    split
    · exact sameCores_post c _ _ _
    · exact SameCores.refl c
  have hdeny : ∀ c : KdeConnectClient φ π, SameCores c (if (!(c.heap ref).paired) = true then
      (sendPacket m identity.id unpairPacket c).2 else c) := by
    intro c
    split
    · exact SameCores.sendPacket m identity.id _ _
    · exact SameCores.refl c
  refine (hpost.trans (hdeny _)).trans ?_
  exact (SameCores.sendPacket m identity.id _ _).trans (SameCores.notifyPluginsConnected m ref _)

/-- The checks of the certificate, made for accepted connections only. -/
def certificateRefused (tcpServerSide : Bool) (io : ConnectionIo)
    (stored : Option PairedDeviceInfo) : Bool :=
  (io.peerPem.isEmpty && tcpServerSide) ||
    (stored.isSome && !((stored.map PairedDeviceInfo.certificatePem).getD "").isEmpty &&
      io.peerPem != (stored.map PairedDeviceInfo.certificatePem).getD "" && tcpServerSide)

section Session

variable [PluginHost π ε] {y : Yyjson} {identity : DeviceInfo} {tcpServerSide : Bool}
  {io : ConnectionIo} {stored : Option PairedDeviceInfo}

/-- All phases of the connection at once. -/
theorem makeSession_eq : makeSession (π := π) y identity tcpServerSide io stored =
    if io.tls = true ∧ io.handshake = true ∧ io.sent = true ∧
        certificateRefused tcpServerSide io stored = false then
      (io.line.bind (secureInfo y identity)).map fun info =>
        { info := info
          paired := stored.isSome
          pairState := if stored.isSome then .paired else .notPaired
          certPem := io.peerPem
          peerPubkey := io.peerPubkey
          plugins := PluginHost.instantiate info.id }
    else none := by
  unfold makeSession certificateRefused
  dsimp only
  generalize (io.peerPem.isEmpty && tcpServerSide) = missing
  generalize (stored.isSome && !((stored.map PairedDeviceInfo.certificatePem).getD "").isEmpty &&
    io.peerPem != (stored.map PairedDeviceInfo.certificatePem).getD "" && tcpServerSide) = other
  cases io.tls <;> cases io.handshake <;> cases io.sent <;> cases missing <;> cases other <;> simp

/-- What is known of a session that is made. -/
theorem makeSession_some {s : DeviceSession π}
    (h : makeSession y identity tcpServerSide io stored = some s) :
    s.info.id = identity.id ∧ s.paired = stored.isSome ∧ s.certPem = io.peerPem ∧
      s.disconnected = false ∧ s.pairState = if s.paired then .paired else .notPaired := by
  rw [makeSession_eq] at h
  obtain ⟨-, h⟩ := Option.ite_none_right_eq_some.mp h
  obtain ⟨info, hinfo, rfl⟩ := Option.map_eq_some_iff.mp h
  obtain ⟨line, -, hsecure⟩ := Option.bind_eq_some_iff.mp hinfo
  exact ⟨secureInfo_id hsecure, rfl, rfl, rfl, rfl⟩

/-- A session is made exactly when every phase succeeds. -/
theorem makeSession_isSome :
    (makeSession (π := π) y identity tcpServerSide io stored).isSome = true ↔
      (io.tls = true ∧ io.handshake = true ∧ io.sent = true) ∧
        certificateRefused tcpServerSide io stored = false ∧
        (io.line.bind (secureInfo y identity)).isSome = true := by
  rw [makeSession_eq]
  by_cases hpasses : io.tls = true ∧ io.handshake = true ∧ io.sent = true ∧
      certificateRefused tcpServerSide io stored = false
  · obtain ⟨htls, hhandshake, hsent, hcertificate⟩ := id hpasses
    rw [if_pos hpasses, Option.isSome_map]
    exact ⟨fun h => ⟨⟨htls, hhandshake, hsent⟩, hcertificate, h⟩, fun h => h.2.2⟩
  · rw [if_neg hpasses]
    constructor
    · intro h
      cases h
    · rintro ⟨⟨htls, hhandshake, hsent⟩, hcertificate, -⟩
      exact absurd ⟨htls, hhandshake, hsent, hcertificate⟩ hpasses

end Session

/-- An accepted connection passes the checks with the stored certificate only. -/
theorem certificate_of_accepted {io : ConnectionIo} {entry : PairedDeviceInfo}
    (hpem : entry.certificatePem ≠ "")
    (h : certificateRefused true io (some entry) = false) :
    io.certificate = some entry.certificatePem := by
  unfold certificateRefused at h
  rw [Bool.or_eq_false_iff] at h
  obtain ⟨hpresent, hsame⟩ := h
  have hpeer : io.peerPem = entry.certificatePem := by
    by_contra hne
    simp [hpem, hne] at hsame
  unfold ConnectionIo.peerPem at hpeer hpresent
  cases hc : io.certificate with
  | none =>
    rw [hc] at hpresent
    cases hpresent
  | some pem =>
    rw [hc] at hpeer
    rw [← hpeer]
    rfl

/-- The stored certificate passes the checks. -/
theorem certificateRefused_stored {io : ConnectionIo} {entry : PairedDeviceInfo}
    (hpem : entry.certificatePem ≠ "") (h : io.certificate = some entry.certificatePem)
    (tcpServerSide : Bool) : certificateRefused tcpServerSide io (some entry) = false := by
  have hpeer : io.peerPem = entry.certificatePem := by
    unfold ConnectionIo.peerPem
    rw [h]
    rfl
  unfold certificateRefused
  rw [hpeer]
  simp [hpem]

/-- A dialled connection passes them with any certificate, or none. -/
theorem certificateRefused_dialled (io : ConnectionIo) (stored : Option PairedDeviceInfo) :
    certificateRefused false io stored = false := by
  simp only [certificateRefused, Bool.and_false, Bool.or_false]

section Runs

variable [FileSystem φ] [PluginHost π ε]

/-- A connection that makes no session leaves the table as it was. -/
theorem sessions_of_dropped {y : Yyjson} {identity : DeviceInfo} {tcpServerSide : Bool}
    {io : ConnectionIo} {c : KdeConnectClient φ π} (m : Moment ε)
    (h : admitted c identity = true → makeSession (π := π) y identity tcpServerSide io
      (c.storage.entry y identity.id) = none) :
    (handleNewConnection y m identity tcpServerSide io c).sessions = c.sessions := by
  unfold handleNewConnection
  by_cases ha : admitted c identity = true
  · have hnone := h ha
    unfold Storage.entry at hnone
    rw [ha, Bool.not_true, if_neg Bool.false_ne_true]
    dsimp only
    rw [hnone]
    rfl
  · rw [Bool.not_eq_true] at ha
    rw [ha, Bool.not_false, if_pos rfl]

/-- A session that is made gets into the table, its pairing part as made. -/
theorem core_of_made {y : Yyjson} {identity : DeviceInfo} {tcpServerSide : Bool}
    {io : ConnectionIo} {c : KdeConnectClient φ π} (m : Moment ε) {s : DeviceSession π}
    (ha : admitted c identity = true)
    (h : makeSession y identity tcpServerSide io (c.storage.entry y identity.id) = some s)
    (hheap : TableOnHeap c) :
    (handleNewConnection y m identity tcpServerSide io c).device identity.id = some c.next ∧
      ((handleNewConnection y m identity tcpServerSide io c).heap c.next).core = s.core := by
  have hid := (makeSession_some h).1
  unfold Storage.entry at h
  unfold handleNewConnection
  rw [ha, Bool.not_true, if_neg Bool.false_ne_true]
  dsimp only
  rw [h]
  dsimp only
  generalize hc : setStorage c (loadPairedDevice y identity.id c.storage).2 = loaded
  have hnext : loaded.next = c.next := by rw [← hc]; rfl
  have hdevice : ∀ deviceId, (allocate s loaded).device deviceId = c.device deviceId := by
    intro deviceId
    rw [← hc]
    rfl
  have hnew : (allocate s loaded).heap c.next = s := by
    rw [← hnext]
    exact allocate_heap s loaded
  have hold : (allocate s loaded).device ((allocate s loaded).heap c.next).info.id ≠
      some c.next := by
    intro heq
    rw [hdevice] at heq
    exact absurd (hheap _ _ heq) (Nat.lt_irrefl _)
  have hsame := sameCores_announce m identity io.showOnConnect c.next
    (install c.next (allocate s loaded))
  rw [hnext]
  constructor
  · have hinstalled := install_device c.next (allocate s loaded)
    rw [hnew, hid] at hinstalled
    rw [hsame.device]
    exact hinstalled
  · rw [hsame.core, install_heap hold, hnew]

/-- It is paired when the device is stored. -/
theorem paired_of_made {y : Yyjson} {identity : DeviceInfo} {tcpServerSide : Bool}
    {io : ConnectionIo} {c : KdeConnectClient φ π} (m : Moment ε) {s : DeviceSession π}
    (ha : admitted c identity = true)
    (h : makeSession y identity tcpServerSide io (c.storage.entry y identity.id) = some s)
    (hheap : TableOnHeap c) :
    ((handleNewConnection y m identity tcpServerSide io c).heap c.next).paired =
      (c.storage.entry y identity.id).isSome := by
  have hcore := (core_of_made m ha h hheap).2
  have hpaired : ((handleNewConnection y m identity tcpServerSide io c).heap c.next).paired =
      s.paired := congrArg Core.paired hcore
  rw [hpaired, (makeSession_some h).2.1]

/-- A paired session is pinned exactly where the certificate is checked, where
the connection comes to nothing, or where it presents what is stored. -/
theorem pinned_iff (y : Yyjson) (m : Moment ε) (identity : DeviceInfo) (tcpServerSide : Bool)
    (io : ConnectionIo) {c : KdeConnectClient φ π} (hheap : TableOnHeap c)
    (hpem : ∀ entry, c.storage.entry y identity.id = some entry → entry.certificatePem ≠ "") :
    Pinned y identity io c (handleNewConnection y m identity tcpServerSide io c) ↔
      tcpServerSide = true ∨ ¬ GetsThrough y identity io c ∨
        StoredCertificate y identity io c := by
  have hdropped : (admitted c identity = true → makeSession (π := π) y identity tcpServerSide io
      (c.storage.entry y identity.id) = none) →
      Pinned y identity io c (handleNewConnection y m identity tcpServerSide io c) := by
    intro hnone hdevice
    unfold KdeConnectClient.device at hdevice
    rw [sessions_of_dropped m hnone] at hdevice
    exact absurd (hheap _ _ hdevice) (Nat.lt_irrefl _)
  constructor
  · intro hpinned
    by_contra hnot
    rw [not_or, not_or, not_not] at hnot
    obtain ⟨hrole, hthrough, hother⟩ := hnot
    have hrefused : certificateRefused tcpServerSide io (c.storage.entry y identity.id) =
        false := by
      rw [Bool.not_eq_true] at hrole
      rw [hrole, certificateRefused_dialled]
    obtain ⟨s, hs⟩ := Option.isSome_iff_exists.mp ((makeSession_isSome (π := π)).mpr
      ⟨⟨hthrough.tls, hthrough.handshake, hthrough.sent⟩, hrefused, hthrough.line⟩)
    have hdevice := (core_of_made m hthrough.admitted hs hheap).1
    have hpaired := paired_of_made m hthrough.admitted hs hheap
    apply hother
    intro entry hentry
    rw [hentry, Option.isSome_some] at hpaired
    obtain ⟨entry', hentry', hcertificate⟩ := hpinned hdevice hpaired
    rw [hentry] at hentry'
    rw [hcertificate, Option.some.inj hentry']
  · intro hcondition
    by_cases hmade : admitted c identity = true ∧ ∃ s, makeSession (π := π) y identity tcpServerSide
        io (c.storage.entry y identity.id) = some s
    · obtain ⟨ha, s, hs⟩ := hmade
      have hflag := paired_of_made m ha hs hheap
      obtain ⟨⟨htls, hhandshake, hsent⟩, hrefused, hline⟩ :=
        makeSession_isSome.mp (Option.isSome_iff_exists.mpr ⟨s, hs⟩)
      intro _ hpaired
      rw [hpaired] at hflag
      obtain ⟨entry, hentry⟩ := Option.isSome_iff_exists.mp hflag.symm
      refine ⟨entry, hentry, ?_⟩
      rcases hcondition with rfl | hfails | hsame
      · rw [hentry] at hrefused
        exact certificate_of_accepted (hpem entry hentry) hrefused
      · exact absurd ⟨ha, htls, hhandshake, hsent, hline⟩ hfails
      · exact hsame entry hentry
    · apply hdropped
      intro ha
      rw [← Option.not_isSome_iff_eq_none, Option.isSome_iff_exists]
      exact fun hs => hmade ⟨ha, hs⟩

end Runs

/-- A client that has stored the phone and is not connected to it. -/
def phoneStored : KdeConnectClient MemoryFiles Empty where
  storage := savePairedDevice Yyjson.reference phone "phone certificate" ⟨"/config/kdeconnect", {}⟩
  localDevice := { id := "0a" }

/-- Someone who speaks for the phone, with a certificate of their own. -/
def impostor : ConnectionIo where
  certificate := some "other certificate"
  line := some phoneIdentity

theorem phoneStored_tableOnHeap : TableOnHeap phoneStored := by
  intro deviceId ref h
  cases h

theorem phoneStored_entry : ∃ entry,
    phoneStored.storage.entry Yyjson.reference phone.id = some entry ∧
      entry.certificatePem = "phone certificate" := by
  have hshort : ShortPath (⟨"/config/kdeconnect", {}⟩ : Storage MemoryFiles) phone.id := by
    unfold ShortPath
    decide
  have hentry := entry_savePairedDevice Yyjson.reference_lawful hshort "phone certificate"
  exact ⟨_, hentry, by decide⟩

/-- The line read inside TLS is accepted as the phone's. -/
theorem impostor_line : (impostor.line.bind (secureInfo Yyjson.reference phone)).isSome = true := by
  decide +kernel

/-- Dialled out to, the impostor gets a paired session. -/
theorem notPinned_impostor :
    ¬ ∀ (identity : DeviceInfo) (tcpServerSide : Bool) (io : ConnectionIo)
        (c : KdeConnectClient MemoryFiles Empty), TableOnHeap c →
      (∀ entry, c.storage.entry Yyjson.reference identity.id = some entry →
        entry.certificatePem ≠ "") →
      Pinned Yyjson.reference identity io c
        (handleNewConnection Yyjson.reference (atSecond 0) identity tcpServerSide io c) := by
  intro h
  obtain ⟨entry, hentry, hstored⟩ := phoneStored_entry
  have hpem : ∀ other, phoneStored.storage.entry Yyjson.reference phone.id = some other →
      other.certificatePem ≠ "" := by
    intro other hother
    rw [← Option.some.inj (hentry.symm.trans hother), hstored]
    decide
  have hrefused := certificateRefused_dialled impostor
    (phoneStored.storage.entry Yyjson.reference phone.id)
  obtain ⟨s, hs⟩ := Option.isSome_iff_exists.mp ((makeSession_isSome (π := Empty)).mpr
    ⟨⟨rfl, rfl, rfl⟩, hrefused, impostor_line⟩)
  have hadmitted : admitted phoneStored phone = true := by decide +kernel
  have hdevice := (core_of_made (atSecond 0) hadmitted hs phoneStored_tableOnHeap).1
  have hpaired := paired_of_made (atSecond 0) hadmitted hs phoneStored_tableOnHeap
  rw [hentry, Option.isSome_some] at hpaired
  obtain ⟨other, hother, hcertificate⟩ :=
    h phone false impostor phoneStored phoneStored_tableOnHeap hpem hdevice hpaired
  rw [← Option.some.inj (hentry.symm.trans hother), hstored] at hcertificate
  revert hcertificate
  decide

/-- The phone itself, dialled out to. -/
theorem pinned_phone :
    Pinned Yyjson.reference phone { impostor with certificate := some "phone certificate" }
      phoneStored (handleNewConnection Yyjson.reference (atSecond 0) phone false
        { impostor with certificate := some "phone certificate" } phoneStored) := by
  obtain ⟨entry, hentry, hstored⟩ := phoneStored_entry
  refine (pinned_iff Yyjson.reference (atSecond 0) phone false _ phoneStored_tableOnHeap ?_).mpr
    (.inr (.inr ?_))
  · intro other hother
    rw [← Option.some.inj (hentry.symm.trans hother), hstored]
    decide
  · intro other hother
    rw [← Option.some.inj (hentry.symm.trans hother), hstored]

end KdeConnectNx.Connection
