import KdeConnectNx.ConnectionRuns

/-!
# Live sessions and the stored devices

A session is paired when it goes into the table if the device was stored when
its thread looked, a handshake earlier. Whether the two still tell the same
depends on what came in between, and on what sessions outside the table hear.
-/

namespace KdeConnectNx.LiveSessions

open Runs PacketBody PacketFormat PairedFiles Sessions Pairing Connection ConnectionRuns
open KdeConnectClient (setStorage)
open RecordStream (phone phoneIdentity)

/-- No thread is between its load and its entry into the table. -/
def Quiet {φ π : Type} (w : World φ π) : Prop :=
  ∀ thread attempt, w.attempts thread = some attempt → attempt.phase = .checked

/-- A live session of the device is paired exactly if the device is stored. -/
def Agrees {φ π : Type} [FileSystem φ] (y : Yyjson) (deviceId : String)
    (c : KdeConnectClient φ π) : Prop :=
  ∀ ref, c.device deviceId = some ref → (c.heap ref).disconnected = false →
    ((c.heap ref).paired = true ↔ (c.storage.entry y deviceId).isSome = true)

/-- The effect leaves it as it is whether the device is stored. -/
def Redundant (present : Bool) : StoreEffect → Prop
  | .keep => True
  | .save => present = true
  | .remove => present = false

/-- A session goes into the table with the pairing the store has by then, and a
pair packet that is not for the device's live session does not change whether
the device is stored. -/
def UpToDate {φ π ε : Type} [FileSystem φ] (y : Yyjson) (deviceId : String) (w : World φ π) :
    Event ε → Prop
  | .install thread _ _ =>
    ∀ identity ref, w.attempts thread = some ⟨identity, .made ref⟩ →
      (w.client.heap ref).disconnected = false →
      ((w.client.heap ref).paired = true ↔ (w.client.storage.entry y deviceId).isSome = true)
  | .received ref m body =>
    ref < w.client.next → ∀ live, w.client.device deviceId = some live →
      (w.client.heap live).disconnected = false → live ≠ ref →
      Redundant (w.client.storage.entry y deviceId).isSome
        (react (w.client.heap ref).core (.heard (body.valueBool "pair" false)
          (timely m.seconds (body.valueI64 "timestamp" 0)) (body.valueI64 "timestamp" 0))).store
  | _ => True

/-- What a step of the automaton does to the store is what it does to the flag. -/
theorem react_paired (k : Core) (a : Act) : (react k a).core.paired =
    match (react k a).store with
    | .keep => k.paired
    | .save => true
    | .remove => false := by
  cases a with
  | heard wants inTime timestamp =>
    cases wants with
    | false => rfl
    | true =>
      simp only [react]
      split
      · rfl
      · split
        · split <;> rfl
        · rfl
  | request now => simp only [react]; split <;> rfl
  | accept => simp only [react]; split <;> rfl
  | reject => simp only [react]; split <;> rfl
  | unpair =>
    simp only [react]
    split
    · rfl
    · split <;> rfl
  | lost => rfl

section Entries

variable {φ : Type} [LawfulFileSystem φ]

/-- A load leaves every entry as it was. -/
theorem entry_loadPairedDevice (y : Yyjson) (deviceId : String) {s : Storage φ} {other : String}
    (h : ShortPath s other) :
    (loadPairedDevice y deviceId s).2.entry y other = s.entry y other := by
  have hbase := loadPairedDevice_basePath y deviceId s
  have h' : ShortPath (loadPairedDevice y deviceId s).2 other := by
    simp only [ShortPath, hbase]
    exact h
  rw [entry_eq y h', entry_eq y h, content_loadPairedDevice]

/-- Whether the device is stored after an effect on its own entry. -/
theorem entry_applyEffect {y : Yyjson} (hy : y.Lawful) {k : Core} {s : Storage φ}
    (h : ShortPath s k.info.id) (effect : StoreEffect) :
    ((applyEffect y k s effect).entry y k.info.id).isSome =
      match effect with
      | .keep => (s.entry y k.info.id).isSome
      | .save => true
      | .remove => false := by
  cases effect with
  | keep => rfl
  | save =>
    have hentry := entry_savePairedDevice hy h k.certPem
    simp only [applyEffect, hentry, Option.isSome_some]
  | remove =>
    have hentry := entry_removePairedDevice y h
    simp only [applyEffect, hentry, Option.isSome_none]

end Entries

section Steps

variable {φ π ε : Type} [LawfulFileSystem φ] [PluginHost π ε]

/-- A session of the device that agrees with the store still does after a step
of its own. -/
theorem agrees_own {y : Yyjson} (hy : y.Lawful) {c c' : KdeConnectClient φ π} {ref : Nat} {a : Act}
    (hf : Follows y c c' ref a) (hshort : ShortPath c.storage (c.heap ref).info.id)
    (h : (c.heap ref).paired = (c.storage.entry y (c.heap ref).info.id).isSome) :
    (c'.heap ref).paired = (c'.storage.entry y (c.heap ref).info.id).isSome := by
  have hpaired : (c'.heap ref).paired = (react (c.heap ref).core a).core.paired :=
    congrArg Core.paired hf.core
  have hentry := entry_applyEffect hy (k := (c.heap ref).core) hshort
    (react (c.heap ref).core a).store
  rw [hpaired, react_paired, hf.storage]
  refine Eq.trans ?_ hentry.symm
  cases (react (c.heap ref).core a).store with
  | keep => exact h
  | save => rfl
  | remove => rfl

omit [LawfulFileSystem φ] [PluginHost π ε] in
/-- The parts of a session that agreement is about. -/
theorem agreeing_of_core {s s' : DeviceSession π} (h : s'.core = s.core) :
    s'.disconnected = s.disconnected ∧ s'.paired = s.paired :=
  ⟨congrArg Core.disconnected h, congrArg Core.paired h⟩

omit [PluginHost π ε] in
/-- Agreement is about the table, the sessions in it and the device's entry. -/
theorem agrees_congr {y : Yyjson} {deviceId : String} {c c' : KdeConnectClient φ π}
    (hdevice : c'.device deviceId = c.device deviceId)
    (hheap : ∀ ref, c.device deviceId = some ref → (c'.heap ref).core = (c.heap ref).core)
    (hentry : c'.storage.entry y deviceId = c.storage.entry y deviceId) :
    Agrees y deviceId c' ↔ Agrees y deviceId c := by
  have hsame : ∀ ref, c.device deviceId = some ref →
      (c'.heap ref).disconnected = (c.heap ref).disconnected ∧
        (c'.heap ref).paired = (c.heap ref).paired := by
    intro ref hd
    exact agreeing_of_core (hheap ref hd)
  constructor
  · intro h ref hd hlive
    obtain ⟨hdown, hpaired⟩ := hsame ref hd
    have := h ref (hdevice.trans hd) (hdown.trans hlive)
    rw [hpaired, hentry] at this
    exact this
  · intro h ref hd hlive
    rw [hdevice] at hd
    obtain ⟨hdown, hpaired⟩ := hsame ref hd
    rw [hdown] at hlive
    rw [hpaired, hentry]
    exact h ref hd hlive

/-- The entry of a session into the table keeps agreement exactly if the
session itself agrees with the store. -/
theorem agrees_install {y : Yyjson} {deviceId : String} {c c' : KdeConnectClient φ π} {ref : Nat}
    (hid : (c.heap ref).info.id = deviceId) (hout : c.device deviceId ≠ some ref)
    (hc : SameCores (install ref c) c') :
    Agrees y deviceId c' ↔
      ((c.heap ref).disconnected = false →
        ((c.heap ref).paired = true ↔ (c.storage.entry y deviceId).isSome = true)) := by
  have hdevice : c'.device deviceId = some ref := by
    rw [hc.device, ← hid]
    exact install_device ref c
  have hcore : (c'.heap ref).core = (c.heap ref).core := by
    rw [hc.core, install_heap (by rw [hid]; exact hout)]
  obtain ⟨hdown, hpaired⟩ := agreeing_of_core hcore
  have hstorage : c'.storage = c.storage := by
    rw [hc.storage, (install_frame ref c).1]
  constructor
  · intro h hlive
    have := h ref hdevice (hdown.trans hlive)
    rw [hpaired, hstorage] at this
    exact this
  · intro h other hd hlive
    rw [hdevice] at hd
    cases hd
    rw [hdown] at hlive
    rw [hpaired, hstorage]
    exact h hlive

omit [PluginHost π ε] in
/-- A pair packet on any session of the device keeps agreement exactly if,
wherever another session is live, it leaves the store as it is. -/
theorem agrees_heard {y : Yyjson} (hy : y.Lawful) {deviceId : String} {c c' : KdeConnectClient φ π}
    {ref : Nat} {a : Act} (hf : Follows y c c' ref a) (ha : a ≠ .lost)
    (hid : (c.heap ref).info.id = deviceId) (hshort : ShortPath c.storage deviceId)
    (h : Agrees y deviceId c) :
    Agrees y deviceId c' ↔
      ∀ live, c.device deviceId = some live → (c.heap live).disconnected = false → live ≠ ref →
        Redundant (c.storage.entry y deviceId).isSome (react (c.heap ref).core a).store := by
  subst hid
  have hdevice := (sameNames_of_follows hf).device (c.heap ref).info.id
  cases hd : c.device (c.heap ref).info.id with
  | none =>
    refine iff_of_true ?_ (by simp)
    intro live hlive
    rw [hdevice, hd] at hlive
    cases hlive
  | some live =>
    by_cases hown : live = ref
    · subst hown
      refine iff_of_true ?_ ?_
      · intro other hother hlive
        rw [hdevice, hd] at hother
        cases hother
        rw [(PairingRuns.link_of_follows hf ha).1] at hlive
        exact Bool.eq_iff_iff.mp (agrees_own hy hf hshort (Bool.eq_iff_iff.mpr (h live hd hlive)))
      · intro other hother _ hne
        exact absurd (Option.some.inj hother).symm hne
    · obtain ⟨hdown, hpaired⟩ := agreeing_of_core (hf.others live hown)
      have hentry := entry_applyEffect hy (k := (c.heap ref).core) hshort
        (react (c.heap ref).core a).store
      rw [← hf.storage] at hentry
      have hagrees : Agrees y (c.heap ref).info.id c' ↔ ((c.heap live).disconnected = false →
          (c.heap live).paired = (c'.storage.entry y (c.heap ref).info.id).isSome) := by
        rw [← hdown, ← hpaired]
        constructor
        · intro h' hlive
          exact Bool.eq_iff_iff.mpr (h' live (hdevice.trans hd) hlive)
        · intro h' other hother hlive
          rw [hdevice, hd] at hother
          cases hother
          exact Bool.eq_iff_iff.mp (h' hlive)
      rw [hagrees]
      constructor
      · intro h' other hother hlive _
        cases hother
        have hbefore := Bool.eq_iff_iff.mpr (h live hd hlive)
        have hafter := (h' hlive).trans hentry
        rw [← hbefore]
        cases he : (react (c.heap ref).core a).store with
        | keep => trivial
        | save => rw [he] at hafter; exact hafter
        | remove => rw [he] at hafter; exact hafter
      · intro h' hlive
        have hbefore := Bool.eq_iff_iff.mpr (h live hd hlive)
        have hredundant := h' live rfl hlive hown
        rw [← hbefore] at hredundant
        refine Eq.trans ?_ hentry.symm
        cases he : (react (c.heap ref).core a).store with
        | keep => exact hbefore
        | save => rw [he] at hredundant; exact hredundant
        | remove => rw [he] at hredundant; exact hredundant

omit [PluginHost π ε] in
/-- The end of a connection keeps agreement. -/
theorem agrees_lost {y : Yyjson} {deviceId : String} {c c' : KdeConnectClient φ π} {ref : Nat}
    (hf : Follows y c c' ref .lost) (h : Agrees y deviceId c) : Agrees y deviceId c' := by
  have hdevice := (sameNames_of_follows hf).device deviceId
  have hstorage : c'.storage = c.storage := hf.storage
  intro other hd hlive
  rw [hdevice] at hd
  by_cases hown : other = ref
  · have hdown : (c'.heap ref).disconnected = true := congrArg Core.disconnected hf.core
    rw [hown, hdown] at hlive
    cases hlive
  · obtain ⟨hdown, hpaired⟩ := agreeing_of_core (hf.others other hown)
    rw [hdown] at hlive
    rw [hpaired, hstorage]
    exact h other hd hlive

/-- Agreement is kept by exactly the steps that are up to date. -/
theorem agrees_step {y : Yyjson} (hy : y.Lawful) {deviceId base : String} {w : World φ π}
    (hw : Grounded {deviceId} base w) (hshort : ShortPath w.client.storage deviceId)
    {e : Event ε} (he : e.Concerns {deviceId}) (h : Agrees y deviceId w.client) :
    Agrees y deviceId (step y w e).client ↔ UpToDate y deviceId w e := by
  have houtcome := step_outcome y hw.table e
  have hofDevice : ∀ ref, ref < w.client.next → (w.client.heap ref).info.id = deviceId :=
    hw.sessions
  generalize step y w e = w' at houtcome ⊢
  cases houtcome with
  | idle e hidle =>
    refine iff_of_true h ?_
    cases e with
    | install thread m showOnConnect =>
      intro identity ref hthread
      exact absurd hthread (hidle identity ref)
    | received ref m body =>
      intro href
      exact absurd href hidle
    | _ => trivial
  | checked thread identity => exact iff_of_true h trivial
  | loaded thread identity hthread =>
    refine iff_of_true ?_ trivial
    have hentry := entry_loadPairedDevice y identity.id hshort
    have hcongr : Agrees y deviceId (setStorage w.client
        (loadPairedDevice y identity.id w.client.storage).2) ↔ Agrees y deviceId w.client :=
      agrees_congr rfl (fun _ _ => rfl) hentry
    exact hcongr.mpr h
  | dropped thread tcpServerSide io => exact iff_of_true h trivial
  | made thread tcpServerSide io identity stored s hthread hs =>
    refine iff_of_true ?_ trivial
    have hcongr : Agrees y deviceId (allocate s w.client) ↔ Agrees y deviceId w.client := by
      refine agrees_congr rfl ?_ rfl
      intro ref hd
      rw [allocate_heap_ne s (hw.table deviceId ref hd).1]
    exact hcongr.mpr h
  | installed thread m showOnConnect identity ref hthread =>
    obtain ⟨href, -⟩ := hw.made thread identity ref hthread
    have hid := hofDevice ref href
    have hinstall := agrees_install hid (hw.outside thread identity ref hthread deviceId)
      (sameCores_announce m identity showOnConnect ref (install ref w.client)) (y := y)
    refine hinstall.trans ?_
    constructor
    · intro hagrees identity' ref' hthread'
      rw [hthread] at hthread'
      cases hthread'
      exact hagrees
    · intro hupToDate
      exact hupToDate identity ref hthread
  | heard ref m body c' href hf =>
    refine (agrees_heard hy hf (by simp) (hofDevice ref href) hshort h).trans ?_
    exact ⟨fun hredundant _ => hredundant, fun hupToDate => hupToDate href⟩
  | ended ref c' href hf => exact iff_of_true (agrees_lost hf h) trivial
  | asked e target ref act c' htarget hact hcurrent hf =>
    have htarget' : target = deviceId := he.2 target htarget
    subst htarget'
    have hid := (hw.table target ref hcurrent).2
    refine iff_of_true ((agrees_heard hy hf hact hid hshort h).mpr ?_) ?_
    · intro live hlive _ hne
      rw [hcurrent] at hlive
      exact absurd (Option.some.inj hlive).symm hne
    · cases e with
      | request _ _ => trivial
      | accept _ _ => trivial
      | reject _ _ => trivial
      | unpair _ _ => trivial
      | _ => cases htarget
  | forgotten target m hnone =>
    have htarget : target = deviceId := he.2 target rfl
    subst htarget
    refine iff_of_true ?_ trivial
    intro ref hd
    change w.client.device target = some ref at hd
    rw [hnone] at hd
    cases hd

/-- From the start, live sessions and the store agree in every state exactly if
every step is up to date. -/
theorem agrees_always_iff {y : Yyjson} (hy : y.Lawful) {deviceId : String} {w : World φ π}
    (hw : Started w) (hshort : ShortPath w.client.storage deviceId)
    (events : List (EventOf ε {deviceId})) :
    Always (stepOf y) (fun w => Agrees y deviceId w.client) w events ↔
      EveryStep (stepOf y) (fun w e => UpToDate y deviceId w e.val) w events := by
  refine always_iff_everyStep_of_inv
    (I := Grounded {deviceId} w.client.storage.basePath) ?_ ?_ (hw.grounded _) ?_ events
  · intro w' e h
    exact step_grounded y h e.property
  · intro w' e hgrounded h
    have hshort' : ShortPath w'.client.storage deviceId := by
      simp only [ShortPath, hgrounded.basePath]
      exact hshort
    exact agrees_step hy hgrounded hshort' e.property h
  · intro ref hd
    rw [hw.device] at hd
    cases hd

/-- In every run whose steps are up to date, a live session is paired exactly
if its device is stored, whenever no connection is on its way. -/
theorem agrees_of_upToDate {y : Yyjson} (hy : y.Lawful) {deviceId : String} {w : World φ π}
    (hw : Started w) (hshort : ShortPath w.client.storage deviceId)
    (events : List (EventOf ε {deviceId}))
    (h : EveryStep (stepOf y) (fun w e => UpToDate y deviceId w e.val) w events) :
    Always (stepOf y) (fun w => Quiet w → Agrees y deviceId w.client) w events := by
  have hagrees := (agrees_always_iff hy hw hshort events).mpr h
  refine hagrees.imp ?_
  intro w' hw' _
  exact hw'

/-- A thread that is not interrupted is up to date. -/
theorem upToDate_phases (y : Yyjson) {w : World φ π} (hw : Started w) {identity : DeviceInfo}
    (hshort : ShortPath w.client.storage identity.id) (tcpServerSide : Bool) (io : ConnectionIo)
    (thread : Nat) (m : Moment ε) :
    EveryStep (step y) (UpToDate y identity.id) w
      (phases thread identity tcpServerSide io m) := by
  refine ⟨trivial, trivial, trivial, ?_, trivial⟩
  have hentry := entry_loadPairedDevice y identity.id hshort
  cases ha : admitted w.client identity with
  | false =>
    intro identity' ref hthread
    simp only [step, hw.attempts, ha, Option.isNone_none, Bool.and_false, Bool.false_eq_true,
      if_false] at hthread
    cases hthread
  | true =>
    intro identity' ref hthread
    cases hs : makeSession (π := π) y identity tcpServerSide io
        (loadPairedDevice y identity.id w.client.storage).1 with
    | none =>
      simp [step, hw.attempts, ha, hs] at hthread
    | some s =>
      obtain ⟨-, hpaired, -⟩ := makeSession_some hs
      have hnew := allocate_heap s
        (setStorage w.client (loadPairedDevice y identity.id w.client.storage).2)
      simp only [step, hw.attempts, Option.isNone_none, ha, Bool.and_self, ↓reduceIte,
        proceed_attempts, proceed_client, hs, Option.some.injEq, Attempt.mk.injEq,
        Phase.made.injEq, Bool.coe_iff_coe] at hthread ⊢
      intro _
      rw [← hthread.2, hnew, hpaired]
      exact (congrArg Option.isSome hentry).symm

/-- A thread that is interrupted by the user's unpairing after its load. -/
def reconnectUnpaired (thread : Nat) (identity : DeviceInfo) (tcpServerSide : Bool)
    (io : ConnectionIo) (m : Moment ε) : List (Event ε) :=
  [.check thread identity, .load thread, .unpair identity.id m,
    .connect thread tcpServerSide io, .install thread m io.showOnConnect]

/-- The unpairing is lost: whichever stored device connects, its session is
live and paired afterwards, and it is not stored. -/
theorem not_agrees_reconnectUnpaired (y : Yyjson) {w : World φ π} (hw : Started w)
    {identity : DeviceInfo} (hshort : ShortPath w.client.storage identity.id)
    (hstored : (w.client.storage.entry y identity.id).isSome = true)
    (ha : admitted w.client identity = true) {tcpServerSide : Bool} {io : ConnectionIo}
    {s : DeviceSession π}
    (hs : makeSession y identity tcpServerSide io (w.client.storage.entry y identity.id) = some s)
    (thread : Nat) (m : Moment ε) :
    Quiet (run (step y) w (reconnectUnpaired thread identity tcpServerSide io m)) ∧
      ¬ Agrees y identity.id
        (run (step y) w (reconnectUnpaired thread identity tcpServerSide io m)).client := by
  obtain ⟨hid, hpaired, -, hlive, -⟩ := makeSession_some hs
  obtain ⟨removed, hremoved⟩ : ∃ removed, removed = setStorage w.client
      (removePairedDevice identity.id (loadPairedDevice y identity.id w.client.storage).2) :=
    ⟨_, rfl⟩
  have hdevice : ∀ storage, (setStorage w.client storage).device identity.id = none :=
    fun _ => hw.device identity.id
  have hrun : run (step y) w (reconnectUnpaired thread identity tcpServerSide io m) =
      { client := announce m identity io.showOnConnect removed.next
          (install removed.next (allocate s removed))
        attempts := fun _ => none } := by
    have hnone : Function.update w.attempts thread none = fun _ => none := by
      funext other
      by_cases h : other = thread
      · rw [h, Function.update_self]
      · rw [Function.update_of_ne h, hw.attempts]
    unfold Storage.entry at hs
    simp only [reconnectUnpaired, run_cons, step, hw.attempts, Option.isNone_none, ha,
      Bool.and_self, ↓reduceIte, proceed_attempts, proceed_client, World.operate, unpair, hdevice,
      hs, run_nil]
    simp only [World.proceed, Function.update_idem, World.mk.injEq]
    subst hremoved
    exact ⟨rfl, hnone⟩
  have hmade : (allocate s removed).heap removed.next = s := allocate_heap s removed
  have hgone : (removed.storage.entry y identity.id).isSome = false := by
    have hshort' : ShortPath (loadPairedDevice y identity.id w.client.storage).2 identity.id := by
      simp only [ShortPath, loadPairedDevice_basePath]
      exact hshort
    have hentry : removed.storage.entry y identity.id = none := by
      rw [hremoved]
      exact entry_removePairedDevice y hshort'
    rw [hentry, Option.isSome_none]
  rw [hrun]
  refine ⟨?_, ?_⟩
  · intro other attempt hattempt
    cases hattempt
  have hfree : (allocate s removed).device identity.id ≠ some removed.next := by
    change removed.device identity.id ≠ _
    rw [hremoved, hdevice]
    simp
  have hinstall := agrees_install (y := y) (by rw [hmade, hid]) hfree
    (sameCores_announce m identity io.showOnConnect removed.next
      (install removed.next (allocate s removed)))
  rw [hinstall, hmade]
  intro hagrees
  have hflag := hagrees hlive
  rw [hpaired] at hflag
  have hpresent : (removed.storage.entry y identity.id).isSome = true := hflag.mp hstored
  rw [hgone] at hpresent
  cases hpresent

end Steps

/-- The client that has stored the phone, as it starts. -/
def phoneWorld : World MemoryFiles Empty where
  client := phoneStored

theorem phoneWorld_started : Started phoneWorld := ⟨rfl, rfl, fun _ => rfl⟩

theorem phoneWorld_shortPath : ShortPath phoneWorld.client.storage phone.id := by
  change (pairedPath "/config/kdeconnect" "5f0c").utf8ByteSize < fsMaxPath
  decide

/-- The phone is dialled out to, and unpaired by the user meanwhile. -/
theorem not_agrees_phone :
    ¬ ∀ events : List (EventOf Unit {phone.id}),
      Always (stepOf Yyjson.reference)
        (fun w => Quiet w → Agrees Yyjson.reference phone.id w.client) phoneWorld events := by
  intro h
  obtain ⟨entry, hentry, -⟩ := phoneStored_entry
  have hstored : (phoneWorld.client.storage.entry Yyjson.reference phone.id).isSome = true :=
    Option.isSome_iff_exists.mpr ⟨entry, hentry⟩
  have hrefused := certificateRefused_dialled impostor
    (phoneWorld.client.storage.entry Yyjson.reference phone.id)
  obtain ⟨s, hs⟩ := Option.isSome_iff_exists.mp ((makeSession_isSome (π := Empty)).mpr
    ⟨⟨rfl, rfl, rfl⟩, hrefused, impostor_line⟩)
  have hconcerns : ∀ e ∈ reconnectUnpaired 0 phone false impostor (⟨0, ()⟩ : Moment Unit),
      e.Concerns {phone.id} := by
    simp [reconnectUnpaired, Event.Concerns, Event.target]
  have hlast := (h (eventsOf _ hconcerns)).last
  rw [run_eventsOf] at hlast
  obtain ⟨hquiet, hnot⟩ := not_agrees_reconnectUnpaired Yyjson.reference phoneWorld_started
    phoneWorld_shortPath hstored (by decide +kernel) hs 0 ⟨0, ()⟩
  exact hnot (hlast hquiet)

theorem phases_concern (thread : Nat) (identity : DeviceInfo) (tcpServerSide : Bool)
    (io : ConnectionIo) (m : Moment Unit) :
    ∀ e ∈ phases thread identity tcpServerSide io m, e.Concerns {identity.id} := by
  simp [phases, Event.Concerns, Event.target]

/-- The phone is dialled out to without interruption. -/
theorem agrees_phone :
    Always (stepOf Yyjson.reference)
      (fun w => Quiet w → Agrees Yyjson.reference phone.id w.client) phoneWorld
      (eventsOf _ (phases_concern 0 phone false impostor ⟨0, ()⟩)) := by
  refine agrees_of_upToDate Yyjson.reference_lawful phoneWorld_started phoneWorld_shortPath _ ?_
  rw [everyStep_eventsOf]
  exact upToDate_phases Yyjson.reference phoneWorld_started phoneWorld_shortPath false impostor 0 _

end KdeConnectNx.LiveSessions
