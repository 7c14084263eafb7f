import KdeConnectNx.MalformedPackets
import KdeConnectNx.SessionTable

/-!
# Where the replies of plugins go

A plugin knows its device by the id only, so each packet it sends in reply
goes to whatever session the table has for that id when the packet is sent.
The io thread runs before its session is in the table and goes on after it
was replaced.
-/

namespace KdeConnectNx.Replies

open Runs PacketBody PacketFormat PairedFiles Sessions Pairing Plugins Connection SessionTable
open KdeConnectClient (setStorage modify push sendAll)
open RecordStream (phone)

section Replies

variable {φ π ε : Type}

/-- What the io threads work with: a thread of a session there is, and a
session of the same device. -/
structure Addressed (w : World φ π) : Prop where
  idle : ∀ ref, w.client.next ≤ ref → w.io ref = {}
  found : ∀ ref other, (w.io ref).found = some (some other) →
    other < w.client.next ∧ (w.client.heap other).info.id = (w.client.heap ref).info.id

theorem addressed_fresh (c : KdeConnectClient φ π) : Addressed (World.fresh c) where
  idle := by
    intro ref _
    rfl
  found := by
    intro ref other h
    cases h

/-- Sessions there are stay whose they are, while the io threads are as they
were. -/
theorem Addressed.keep {w w' : World φ π} (h : Addressed w) (hio : w'.io = w.io)
    (hnext : w.client.next ≤ w'.client.next)
    (hinfo : ∀ ref < w.client.next, (w'.client.heap ref).info = (w.client.heap ref).info) :
    Addressed w' where
  idle := by
    intro ref href
    rw [hio]
    exact h.idle ref (Nat.le_trans hnext href)
  found := by
    intro ref other hfound
    rw [hio] at hfound
    obtain ⟨hother, hid⟩ := h.found ref other hfound
    have href : ref < w.client.next := by
      by_contra hge
      rw [h.idle ref (Nat.le_of_not_lt hge)] at hfound
      cases hfound
    refine ⟨Nat.lt_of_lt_of_le hother hnext, ?_⟩
    rw [hinfo other hother, hinfo ref href, hid]

/-- One io thread goes on. -/
theorem Addressed.thread {w : World φ π} (h : Addressed w) {c' : KdeConnectClient φ π}
    (hc : SameTable w.client c') {ref : Nat} (href : ref < w.client.next) {io : IoThread}
    (hio : ∀ other, io.found = some (some other) →
      other < w.client.next ∧ (w.client.heap other).info.id = (w.client.heap ref).info.id) :
    Addressed (w.thread ref c' io) where
  idle := by
    intro other hother
    have hge : w.client.next ≤ other := by
      change c'.next ≤ other at hother
      rw [hc.next] at hother
      exact hother
    have hne : other ≠ ref := by omega
    exact (Function.update_of_ne hne ..).trans (h.idle other hge)
  found := by
    intro k other hfound
    change other < c'.next ∧ (c'.heap other).info.id = (c'.heap k).info.id
    rw [hc.next, hc.info, hc.info]
    by_cases hk : k = ref
    · subst hk
      have hself : (w.thread k c' io).io k = io := Function.update_self ..
      rw [hself] at hfound
      exact hio other hfound
    · have hother : (w.thread ref c' io).io k = w.io k := Function.update_of_ne hk ..
      rw [hother] at hfound
      exact h.found k other hfound

variable [FileSystem φ] [PluginHost π ε]

theorem addressed_step (y : Yyjson) {w : World φ π} (hsound : Sound w) (h : Addressed w)
    (e : Event ε) : Addressed (step y w e) := by
  have hreplying : ∀ ref, w.io ref ≠ {} → ref < w.client.next := by
    intro ref hne
    by_contra hge
    exact hne (h.idle ref (Nat.le_of_not_lt hge))
  have houtcome := step_outcome y w e
  generalize step y w e = w' at houtcome
  cases houtcome with
  | idle => exact h
  | checked identity hopen ha => exact h.keep rfl (Nat.le_refl _) fun _ _ => rfl
  | loaded n identity hn => exact h.keep rfl (Nat.le_refl _) fun _ _ => rfl
  | dropped n tcpServerSide io identity stored hn => exact h.keep rfl (Nat.le_refl _) fun _ _ => rfl
  | started n tcpServerSide io identity stored s hn hs =>
    refine h.keep rfl (Nat.le_succ _) ?_
    intro ref href
    exact congrArg DeviceSession.info (allocate_heap_ne s href)
  | entered n identity ref hn => exact h.keep rfl (Nat.le_refl _) fun _ _ => rfl
  | cleaned n identity ref old hn =>
    cases old with
    | none => exact h.keep rfl (Nat.le_refl _) fun _ _ => rfl
    | some oldRef =>
      exact h.keep rfl (Nat.le_refl _) fun other _ => (sameTable_close w.client oldRef).info other
  | announced n m showOnConnect identity ref hn =>
    have hcores := sameCores_announce m identity showOnConnect ref w.client
    exact h.keep rfl (Nat.le_of_eq hcores.next.symm) fun other _ => hcores.info other
  | received ref m line hio href =>
    refine h.thread (sameTable_hear y m ref line w.client) href ?_
    intro other hfound
    cases hfound
  | lookedUp ref pkt rest hio =>
    refine h.thread (SameTable.refl w.client) (hreplying ref (by simp [hio])) ?_
    intro other hfound
    exact hsound.device (Option.some.inj hfound)
  | appended ref m pkt rest found hio =>
    refine h.thread (sameTable_appendTo m pkt found w.client) (hreplying ref (by simp [hio])) ?_
    intro other hfound
    cases hfound
  | lost ref href =>
    refine h.thread (sameTable_close w.client ref) href ?_
    intro other hfound
    cases hfound
  | stopped hopen => exact h.keep rfl (Nat.le_refl _) fun _ _ => rfl
  | cleared hjoining hjoined => exact h.keep rfl (Nat.le_refl _) fun _ _ => rfl
  | closed ref rest hclosing =>
    exact h.keep rfl (Nat.le_refl _) fun other _ => (sameTable_close w.client ref).info other

/-- A packet that a plugin sends while it handles a packet of the session goes
to the end of that session's queue, unless the session is closed, and to no
other session of the device. -/
def Home (y : Yyjson) (w : World φ π) : Event ε → Prop
  | .append ref m => ∀ pkt rest found, w.io ref = ⟨pkt :: rest, some found, false⟩ →
    ((w.client.heap ref).disconnected = false →
      ((step y w (.append ref m)).client.heap ref).sendQueue =
        (w.client.heap ref).sendQueue ++ [⟨m.millis, pkt⟩]) ∧
    ∀ other, other ≠ ref → (w.client.heap other).info.id = (w.client.heap ref).info.id →
      ((step y w (.append ref m)).client.heap other).sendQueue =
        (w.client.heap other).sendQueue
  | _ => True

omit [FileSystem φ] [PluginHost π ε] in
/-- What is found gets the packet when it is connected. -/
theorem appendTo_live {c : KdeConnectClient φ π} {ref : Nat}
    (h : (c.heap ref).disconnected = false) (m : Moment ε) (pkt : NetworkPacket) :
    appendTo m pkt (some ref) c = c.modify ref (push m pkt) := by
  simp only [appendTo, h, Bool.false_eq_true, if_false]

omit [FileSystem φ] [PluginHost π ε] in
/-- Otherwise the packet is dropped. -/
theorem appendTo_dropped {c : KdeConnectClient φ π} {found : Option Nat}
    (h : ∀ ref, found = some ref → (c.heap ref).disconnected = true) (m : Moment ε)
    (pkt : NetworkPacket) : appendTo m pkt found c = c := by
  cases found with
  | none => rfl
  | some ref => simp only [appendTo, h ref rfl, if_true]

omit [FileSystem φ] [PluginHost π ε] in
/-- A packet that is appended is on the queue of the one session. -/
theorem push_queue (m : Moment ε) (pkt : NetworkPacket) (c : KdeConnectClient φ π) (ref : Nat) :
    ((c.modify ref (push m pkt)).heap ref).sendQueue =
      (c.heap ref).sendQueue ++ [⟨m.millis, pkt⟩] := by
  rw [KdeConnectClient.modify_heap_self]
  rfl

/-- The look-up gave the session itself; or the session is closed by now, and so
is the one the look-up gave, if any. -/
def FoundItself (w : World φ π) : Event ε → Prop
  | .append ref _ => ∀ pkt rest found, w.io ref = ⟨pkt :: rest, some found, false⟩ →
    found = some ref ∨ (w.client.heap ref).disconnected = true ∧
      ∀ other, found = some other → (w.client.heap other).disconnected = true
  | _ => True

/-- A reply comes home exactly if the session found itself. -/
theorem home_iff (y : Yyjson) {w : World φ π} (h : Addressed w) (e : Event ε) :
    Home y w e ↔ FoundItself w e := by
  cases e with
  | append ref m =>
    refine forall_congr' fun pkt => forall_congr' fun rest => forall_congr' fun found =>
      forall_congr' fun hio => ?_
    have hstep : (step y w (.append ref m)).client = appendTo m pkt found w.client := by
      simp only [step, hio]
      rfl
    rw [hstep]
    constructor
    · rintro ⟨hown, hothers⟩
      by_cases hself : found = some ref
      · exact .inl hself
      · right
        -- whatever was found is not this session, so its queue must not grow
        have hdropped : ∀ other, found = some other →
            (w.client.heap other).disconnected = true := by
          intro other hfound
          have hne : other ≠ ref := by
            rintro rfl
            exact hself hfound
          have hid := (h.found ref other (by rw [hio, hfound])).2
          by_contra hlive
          have hqueue := hothers other hne hid
          rw [hfound, appendTo_live (Bool.eq_false_iff.mpr hlive), push_queue] at hqueue
          simp at hqueue
        refine ⟨?_, hdropped⟩
        by_contra hlive
        have hqueue := hown (Bool.eq_false_iff.mpr hlive)
        rw [appendTo_dropped hdropped] at hqueue
        simp at hqueue
    · rintro (rfl | ⟨hdown, hdropped⟩)
      · cases hlive : (w.client.heap ref).disconnected with
        | true =>
          rw [appendTo_dropped (by simp [hlive])]
          simp
        | false =>
          rw [appendTo_live hlive]
          refine ⟨fun _ => push_queue m pkt w.client ref, ?_⟩
          intro other hne _
          rw [KdeConnectClient.modify_heap_ne _ hne]
      · rw [appendTo_dropped hdropped, hdown]
        simp
  | _ => exact Iff.rfl

/-! ### Where the table has a session -/

/-- The run of `handle_new_connection` that started the session puts it into the
table. -/
def Enters (ref : Nat) (w : World φ π) (e : Event ε) : Prop :=
  ∃ n identity, e = .enter n ∧ w.runs n = some ⟨identity, .started ref⟩

/-- A run puts a session of the same device into the table, or `stop()` empties
it. -/
def Supplants (ref : Nat) (w : World φ π) (e : Event ε) : Prop :=
  (∃ n identity other, e = .enter n ∧ w.runs n = some ⟨identity, .started other⟩ ∧
    (w.client.heap other).info.id = (w.client.heap ref).info.id) ∨
  e = .clear ∧ w.stopping = .joining ∧ ∀ n < w.spawned, (w.runs n).isNone = true

/-- After these events the session is past its insertion into the table, no
other session of the device was inserted since, and `stop()` has not cleared the
table since. -/
def InPlace (y : Yyjson) (c : KdeConnectClient φ π) (events : List (Event ε)) (ref : Nat) : Prop :=
  Since (step y) (Enters ref) (Supplants ref) (World.fresh c) events

/-- A step that is no insertion and no clearing leaves the table, and whose the
sessions there are. -/
theorem table_step (y : Yyjson) {w : World φ π} {e : Event ε}
    (henter : ∀ n identity ref, e = .enter n → w.runs n ≠ some ⟨identity, .started ref⟩)
    (hclear : ¬ (e = .clear ∧ w.stopping = .joining ∧
      ∀ n < w.spawned, (w.runs n).isNone = true)) :
    (step y w e).client.sessions = w.client.sessions ∧
      ∀ ref < w.client.next, ((step y w e).client.heap ref).info = (w.client.heap ref).info := by
  have houtcome := step_outcome y w e
  generalize step y w e = w' at houtcome
  cases houtcome with
  | idle => exact ⟨rfl, fun _ _ => rfl⟩
  | checked identity hopen ha => exact ⟨rfl, fun _ _ => rfl⟩
  | loaded n identity hn => exact ⟨rfl, fun _ _ => rfl⟩
  | dropped n tcpServerSide io identity stored hn => exact ⟨rfl, fun _ _ => rfl⟩
  | started n tcpServerSide io identity stored s hn hs =>
    exact ⟨rfl, fun ref href => congrArg DeviceSession.info (allocate_heap_ne s href)⟩
  | entered n identity ref hn => exact absurd hn (henter n identity ref rfl)
  | cleaned n identity ref old hn =>
    refine ⟨cleanUp_sessions old w.client, ?_⟩
    cases old with
    | none => exact fun _ _ => rfl
    | some oldRef => exact fun other _ => (sameTable_close w.client oldRef).info other
  | announced n m showOnConnect identity ref hn =>
    have hcores := sameCores_announce m identity showOnConnect ref w.client
    exact ⟨hcores.sessions, fun other _ => hcores.info other⟩
  | received ref m line hio href =>
    have hsame := sameTable_hear y m ref line w.client
    exact ⟨hsame.sessions, fun other _ => hsame.info other⟩
  | lookedUp ref pkt rest hio => exact ⟨rfl, fun _ _ => rfl⟩
  | appended ref m pkt rest found hio =>
    have hsame := sameTable_appendTo m pkt found w.client
    exact ⟨hsame.sessions, fun other _ => hsame.info other⟩
  | lost ref href => exact ⟨rfl, fun other _ => (sameTable_close w.client ref).info other⟩
  | stopped hopen => exact ⟨rfl, fun _ _ => rfl⟩
  | cleared hjoining hjoined => exact absurd ⟨rfl, hjoining, hjoined⟩ hclear
  | closed ref rest hclosing =>
    exact ⟨rfl, fun other _ => (sameTable_close w.client ref).info other⟩

/-- A run that inserts its session has it found under its id. -/
theorem step_enter (y : Yyjson) {w : World φ π} {n ref : Nat} {identity : DeviceInfo}
    (hn : w.runs n = some ⟨identity, .started ref⟩) :
    (step y w (.enter n : Event ε)).client = enter ref w.client := by
  simp only [step, hn]
  rfl

/-- The table has a session under its id exactly where the session is in place. -/
theorem device_iff_inPlace (y : Yyjson) (c : KdeConnectClient φ π) (events : List (Event ε))
    (ref : Nat) :
    (run (step y) (World.fresh c) events).client.device
        ((run (step y) (World.fresh c) events).client.heap ref).info.id = some ref ↔
      InPlace y c events ref := by
  refine run_iff_since (I := Sound)
    (P := fun w : World φ π => w.client.device (w.client.heap ref).info.id = some ref)
    (fun w e h => sound_step y h e) ?_ ?_ ?_ (sound_fresh c) ?_ events
  · rintro w e - ⟨n, identity, rfl, hn⟩
    rw [step_enter y hn]
    exact enter_device ref w.client
  · intro w e hsound hsets hspoils
    rcases hspoils with ⟨n, identity, other, rfl, hn, hid⟩ | ⟨rfl, hjoining, hjoined⟩
    · have hne : other ≠ ref := by
        rintro rfl
        exact hsets ⟨n, identity, rfl, hn⟩
      have hdevice := enter_device other w.client
      rw [step_enter y hn]
      change (enter other w.client).device (w.client.heap ref).info.id ≠ some ref
      rw [← hid, hdevice]
      exact fun h => hne (Option.some.inj h)
    · simp only [step, hjoining, if_pos hjoined, KdeConnectClient.device]
      intro h
      cases h
  · intro w e hsound hsets hspoils
    by_cases henter : ∃ n identity other, e = .enter n ∧ w.runs n = some ⟨identity, .started other⟩
    · obtain ⟨n, identity, other, rfl, hn⟩ := henter
      have hid : (w.client.heap ref).info.id ≠ (w.client.heap other).info.id := by
        intro hid
        exact hspoils (.inl ⟨n, identity, other, rfl, hn, hid.symm⟩)
      rw [step_enter y hn]
      exact iff_of_eq (congrArg (· = some ref) (enter_device_ne hid))
    · obtain ⟨hsessions, hinfo⟩ := table_step y (w := w) (e := e)
        (fun n identity other he hn => henter ⟨n, identity, other, he, hn⟩)
        (fun h => hspoils (.inr h))
      by_cases href : ref < w.client.next
      · rw [hinfo ref href, KdeConnectClient.device, hsessions, KdeConnectClient.device]
      · refine iff_of_false ?_ fun h => href (hsound.device h).1
        intro h
        have hmem := mem_of_device h
        rw [hsessions] at hmem
        exact href (hsound.table _ hmem).1
  · intro h
    cases h

/-! ### Which look-up a reply goes by -/

omit [FileSystem φ] [PluginHost π ε] in
/-- The io thread that goes on is where it goes, and every other where it was. -/
theorem thread_io_self (w : World φ π) (ref : Nat) (client : KdeConnectClient φ π)
    (io : IoThread) : (w.thread ref client io).io ref = io := Function.update_self ..

omit [FileSystem φ] [PluginHost π ε] in
theorem thread_io_ne (w : World φ π) {ref other : Nat} (h : other ≠ ref)
    (client : KdeConnectClient φ π) (io : IoThread) :
    (w.thread ref client io).io other = w.io other := Function.update_of_ne h ..

/-- A reply of the io thread looks its device up, with this result. -/
def LooksUp (ref : Nat) (pkt : NetworkPacket) (rest : List NetworkPacket) (found : Option Nat)
    (w : World φ π) (e : Event ε) : Prop :=
  e = .lookUp ref ∧ w.io ref = ⟨pkt :: rest, none, false⟩ ∧
    w.client.device (w.client.heap ref).info.id = found

/-- The result that a reply is appended by is the one of the look-up behind
which the thread has appended nothing. -/
theorem found_iff_lookedUp (y : Yyjson) (c : KdeConnectClient φ π) (events : List (Event ε))
    (ref : Nat) (pkt : NetworkPacket) (rest : List NetworkPacket) (found : Option Nat) :
    (run (step y) (World.fresh c) events).io ref = ⟨pkt :: rest, some found, false⟩ ↔
      Since (step y) (LooksUp ref pkt rest found) (fun _ e => ∃ m, e = .append ref m)
        (World.fresh c) events := by
  refine run_iff_since (I := fun _ => True)
    (P := fun w : World φ π => w.io ref = ⟨pkt :: rest, some found, false⟩)
    (fun _ _ _ => trivial) ?_ ?_ ?_ trivial ?_ events
  · rintro w e - ⟨rfl, hio, hfound⟩
    simp only [step, hio, thread_io_self, hfound]
  · rintro w e - - ⟨m, rfl⟩
    simp only [step]
    split
    · simp [thread_io_self]
    · rename_i hready
      exact hready pkt rest found
  · intro w e _ hlooks hkept
    have hlost : ∀ other, e = .lost other →
        ((step y w e).io ref = ⟨pkt :: rest, some found, false⟩ ↔
          w.io ref = ⟨pkt :: rest, some found, false⟩) := by
      rintro other rfl
      simp only [step]
      split
      · rename_i hio
        split
        · by_cases hother : ref = other
          · subst hother
            simp [thread_io_self, hio]
          · rw [thread_io_ne w hother]
        · exact Iff.rfl
      · exact Iff.rfl
    have houtcome := step_outcome y w e
    generalize step y w e = w' at houtcome hlost
    cases houtcome with
    | received other m line hio href =>
      by_cases hother : ref = other
      · subst hother
        simp [thread_io_self, hio]
      · rw [thread_io_ne w hother]
    | lookedUp other pkt' rest' hio =>
      by_cases hother : ref = other
      · subst hother
        refine iff_of_false ?_ (by simp [hio])
        intro h
        simp only [thread_io_self, IoThread.mk.injEq, List.cons.injEq,
          Option.some.injEq] at h
        exact hlooks ⟨rfl, by rw [hio, h.1.1, h.1.2], h.2.1⟩
      · rw [thread_io_ne w hother]
    | appended other m pkt' rest' found' hio =>
      have hother : ref ≠ other := by
        rintro rfl
        exact hkept ⟨m, rfl⟩
      rw [thread_io_ne w hother]
    | lost other href => exact hlost other rfl
    | _ => exact Iff.rfl
  · intro h
    cases h

/-- Each reply that is appended looked its device up where its session was in
place; or the session is closed by then, and so is the session of the device
that was in place instead, if there was one. -/
def AnsweredInPlace (y : Yyjson) (c : KdeConnectClient φ π) (events : List (Event ε)) : Prop :=
  ∀ before between after ref m pkt rest,
    events = before ++ .lookUp ref :: (between ++ .append ref m :: after) →
    (run (step y) (World.fresh c) before).io ref = ⟨pkt :: rest, none, false⟩ →
    (∀ m', Event.append ref m' ∉ between) →
    let asked := (run (step y) (World.fresh c) before).client
    let answered := (run (step y) (World.fresh c) (before ++ .lookUp ref :: between)).client
    InPlace y c before ref ∨ (answered.heap ref).disconnected = true ∧
      ∀ other, InPlace y c before other →
        (asked.heap other).info.id = (asked.heap ref).info.id →
        (answered.heap other).disconnected = true

/-- What a look-up gives is the session of the device that is in place. -/
theorem device_eq_some_iff (y : Yyjson) (c : KdeConnectClient φ π) (events : List (Event ε))
    (ref other : Nat) :
    (run (step y) (World.fresh c) events).client.device
        ((run (step y) (World.fresh c) events).client.heap ref).info.id = some other ↔
      InPlace y c events other ∧
        ((run (step y) (World.fresh c) events).client.heap other).info.id =
          ((run (step y) (World.fresh c) events).client.heap ref).info.id := by
  have hsound : Sound (run (step y) (World.fresh c) events) :=
    (always_of_step (P := Sound) (fun _ e h => sound_step y h e) (sound_fresh c) events).last
  rw [← device_iff_inPlace]
  constructor
  · intro h
    have hid := (hsound.device h).2
    exact ⟨by rw [hid, h], hid⟩
  · rintro ⟨h, hid⟩
    rw [← hid, h]

/-- In a run the replies find themselves each time exactly if each time their
session was in place. -/
theorem foundItself_iff (y : Yyjson) (c : KdeConnectClient φ π) (events : List (Event ε)) :
    EveryStep (step y) FoundItself (World.fresh c) events ↔ AnsweredInPlace y c events := by
  rw [everyStep_iff]
  constructor
  · intro h before between after ref m pkt rest hevents hio hkept
    dsimp only
    have hfound := (found_iff_lookedUp y c (before ++ .lookUp ref :: between) ref pkt rest _).mpr
      ⟨before, _, between, rfl, ⟨rfl, hio, rfl⟩, everyStep_of_mem fun e he => ?_⟩
    · have hself := h (before ++ .lookUp ref :: between) (.append ref m) after
        (by rw [hevents, List.append_assoc, List.cons_append]) pkt rest _ hfound
      rcases hself with hself | ⟨hdown, hothers⟩
      · exact .inl ((device_iff_inPlace y c before ref).mp hself)
      · refine .inr ⟨hdown, ?_⟩
        intro other hother hid
        exact hothers other ((device_eq_some_iff y c before ref other).mpr ⟨hother, hid⟩)
    · rintro s ⟨m', rfl⟩
      exact hkept m' he
  · intro h before e after hevents
    cases e with
    | append ref m =>
      intro pkt rest found hio
      obtain ⟨first, e, between, rfl, ⟨rfl, hwaits, hdevice⟩, hkept⟩ :=
        (found_iff_lookedUp y c before ref pkt rest found).mp hio
      have hnone : ∀ m', Event.append ref m' ∉ between := by
        intro m' hm
        obtain ⟨_, _, rfl⟩ := List.append_of_mem hm
        exact (everyStep_iff ..).mp hkept _ _ _ rfl ⟨m', rfl⟩
      rw [List.append_assoc, List.cons_append] at hevents
      have hplace := h first between after ref m pkt rest hevents hwaits hnone
      rcases hplace with hplace | ⟨hdown, hothers⟩
      · left
        rw [← hdevice]
        exact (device_iff_inPlace y c first ref).mpr hplace
      · refine .inr ⟨hdown, ?_⟩
        rintro other rfl
        obtain ⟨hother, hid⟩ := (device_eq_some_iff y c first ref other).mp hdevice
        exact hothers other hother hid
    | _ => trivial

/-- In every run from the start, whatever is interleaved, the replies all come
home exactly if each was looked up while its session was in place, or the
sessions it could go to are closed. -/
theorem home_run_iff (y : Yyjson) (c : KdeConnectClient φ π) (events : List (Event ε)) :
    EveryStep (step y) (Home y) (World.fresh c) events ↔ AnsweredInPlace y c events := by
  have hinv := always_of_step (P := fun w : World φ π => Sound w ∧ Addressed w)
    (fun w e h => ⟨sound_step y h.1 e, addressed_step y h.1 h.2 e⟩)
    ⟨sound_fresh c, addressed_fresh c⟩ events
  rw [everyStep_congr (fun w e h => home_iff y h.2 e) hinv, foundItself_iff]

/-- A connection is made, and its first packet is answered before it is in the
table. -/
def answeredEarly (identity : DeviceInfo) (tcpServerSide : Bool) (io : ConnectionIo)
    (m : Moment ε) (line : List UInt8) : List (Event ε) :=
  [.check identity, .load 0, .connect 0 tcpServerSide io, .receive 0 m line, .lookUp 0,
    .append 0 m]

/-- The answer is dropped. -/
theorem not_home_answeredEarly (y : Yyjson) {c : KdeConnectClient φ π} {identity : DeviceInfo}
    (ha : admitted (World.fresh c).client identity = true) {tcpServerSide : Bool}
    {io : ConnectionIo} {s : DeviceSession π}
    (hs : makeSession y identity tcpServerSide io (c.storage.entry y identity.id) = some s)
    {m : Moment ε} {line : List UInt8} {pkt : NetworkPacket}
    (hparse : NetworkPacket.parse y line = some pkt) (htype : pkt.type ≠ PacketTypes.pair)
    (hpaired : s.paired = true) (hreply : (offer m.env pkt s.plugins).2 ≠ []) :
    ¬ EveryStep (step y) (Home y) (World.fresh c)
      (answeredEarly identity tcpServerSide io m line) := by
  obtain ⟨reply, rest, hreplies⟩ := List.exists_cons_of_ne_nil hreply
  obtain ⟨made, hmade⟩ : ∃ made, made = allocate s
      (setStorage (World.fresh c).client (loadPairedDevice y identity.id c.storage).2) := ⟨_, rfl⟩
  have hsession : made.heap 0 = s := by
    rw [hmade]
    exact allocate_heap s _
  have hstarted : run (step y) (World.fresh c)
      [.check identity, .load 0, .connect 0 tcpServerSide io] =
      { client := made
        runs := Function.update (fun _ => none) 0 (some ⟨identity, .started 0⟩)
        spawned := 1 } := by
    unfold Storage.entry at hs
    rw [hmade]
    unfold World.fresh at ha ⊢
    simp only [run_cons, run_nil, step, World.proceed, ha, if_true, Function.update_self,
      Function.update_idem, hs]
    rfl
  obtain ⟨heard, hheard⟩ : ∃ heard, heard = made.modify 0 fun session =>
      { session with plugins := (offer m.env pkt s.plugins).1 } := ⟨_, rfl⟩
  have hhear : hear y m 0 line made = (heard, reply :: rest) := by
    simp only [hear, hparse, if_neg htype, hsession, hpaired, hreplies, hheard, Bool.not_true,
      Bool.false_eq_true, if_false]
  have hready : run (step y) (World.fresh c)
      [.check identity, .load 0, .connect 0 tcpServerSide io, .receive 0 m line, .lookUp 0] =
      { client := heard
        runs := Function.update (fun _ => none) 0 (some ⟨identity, .started 0⟩)
        spawned := 1
        io := Function.update (fun _ => {}) 0 ⟨reply :: rest, some none, false⟩ } := by
    have hdevice : ∀ deviceId, heard.device deviceId = none := by
      intro deviceId
      rw [hheard, hmade]
      rfl
    have hnext : 0 < made.next := by
      rw [hmade]
      exact Nat.succ_pos _
    have happend := run_append (step y) (World.fresh c)
      [.check identity, .load 0, .connect 0 tcpServerSide io] [.receive 0 m line, .lookUp 0]
    rw [hstarted] at happend
    refine happend.trans ?_
    simp only [run_cons, run_nil, step, hnext, if_true, hhear, World.thread, Function.update_self,
      Function.update_idem, hdevice]
  intro h
  have hlast :=
    (everyStep_iff ..).mp h [.check identity, .load 0, .connect 0 tcpServerSide io,
      .receive 0 m line,
    .lookUp 0] (.append 0 m) [] rfl
  rw [hready] at hlast
  have hlive : (heard.heap 0).disconnected = false := by
    rw [hheard, KdeConnectClient.modify_heap_self, hsession]
    exact (makeSession_some hs).2.2.2.1
  have hqueue := (hlast reply rest none rfl).1 hlive
  simp [step, appendTo, World.thread] at hqueue

end Replies

/-! ## An answer that is dropped -/

/-- The client that has stored the phone, with its plugins. -/
def phoneStored : KdeConnectClient MemoryFiles Plugin where
  storage := Connection.phoneStored.storage
  localDevice := Connection.phoneStored.localDevice

/-- The phone asks for the list of commands. -/
def listRequest : NetworkPacket where
  type := PacketTypes.runCommandRequest
  body := ({} : JsonBody).setBool "requestCommandList" true

/-- The line `{"type":"kdeconnect.runcommand.request","body":{"requestCommandList":true}}`. -/
def listRequestLine : List UInt8 :=
  ((({} : JsonBody).setStr "type" listRequest.type).setObj "body" listRequest.body).dump
    Yyjson.reference

theorem parse_listRequestLine :
    NetworkPacket.parse Yyjson.reference listRequestLine = some listRequest := by
  have hfree : ((({} : JsonBody).setStr "type" listRequest.type).setObj "body"
      listRequest.body).realFree = true := rfl
  have hparse := (JsonBody.parse_dump Yyjson.reference_lawful hfree).1
  unfold NetworkPacket.parse listRequestLine
  rw [hparse]
  rfl

/-- The phone asks before its session is in the table. -/
theorem not_home_listRequest :
    ¬ ∀ events : List (Event PluginEnv), EveryStep (step Yyjson.reference)
      (Home Yyjson.reference) (World.fresh phoneStored) events := by
  intro h
  obtain ⟨entry, hentry, -⟩ := phoneStored_entry
  have hrefused := certificateRefused_dialled impostor
    (phoneStored.storage.entry Yyjson.reference phone.id)
  obtain ⟨s, hs⟩ := Option.isSome_iff_exists.mp ((makeSession_isSome (π := Plugin)).mpr
    ⟨⟨rfl, rfl, rfl⟩, hrefused, impostor_line⟩)
  have hpaired : s.paired = true := by
    rw [(makeSession_some hs).2.1]
    exact Option.isSome_iff_exists.mpr ⟨entry, hentry⟩
  have hplugins : s.plugins = instantiatePlugins := by
    rw [makeSession_eq] at hs
    obtain ⟨-, hs⟩ := Option.ite_none_right_eq_some.mp hs
    obtain ⟨info, -, rfl⟩ := Option.map_eq_some_iff.mp hs
    rfl
  refine not_home_answeredEarly Yyjson.reference (by decide +kernel) hs
    (m := MalformedPackets.atEpoch) parse_listRequestLine (by decide) hpaired ?_ (h _)
  have hoffer : (offer MalformedPackets.atEpoch.env listRequest instantiatePlugins).2.isEmpty =
      false := by
    decide +kernel
  rw [hplugins]
  exact List.isEmpty_eq_false_iff.mp hoffer

end KdeConnectNx.Replies
