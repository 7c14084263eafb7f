import KdeConnectNx.DeviceFinding

/-!
# Devices on one network

Every device asks, answers and reports in the order in which the system lets it. A datagram
may be lost, late, doubled or overtaken. Only devices of the network are reported, and one
whose answer arrives is.
-/

namespace KdeConnectNx.MdnsNetwork

open Runs DomainNames MdnsMessages MdnsAnswers MdnsDiscovery DeviceFinding

/-! ## The loop of one device -/

/-- The storages of `mdns_loop` and of what is sent, and the devices that were reported. -/
structure Loop where
  svcBuf : List UInt8
  discBuf : List UInt8
  sendBuffer : List UInt8
  queryBuffer : List UInt8
  found : List (List UInt8 × List UInt8) := []

/-- What a turn of `mdns_loop` finds: the query is due, with the port of the socket it is sent
from, or a socket has a datagram. -/
inductive Turn where
  | query (localPort : Option ℕ)
  | service (sendto : Target → List UInt8 → Bool) (datagram : List UInt8)
  | discovery (sender : Option InAddr) (datagram : List UInt8)

/-- A turn of `mdns_loop`: the loop behind it and the datagrams that were sent. -/
def mdnsLoop (device : Announcer) (s : Loop) : Turn → Option (Loop × List (Target × List UInt8))
  | .query localPort =>
    (sendQuery (buildAnnouncedInfo device) localPort s.queryBuffer).map fun r =>
      ({ s with queryBuffer := r.1 }, r.2.toList.map fun datagram => (Target.all, datagram))
  | .service sendto datagram =>
    (serviceHears (buildAnnouncedInfo device) sendto s.svcBuf s.sendBuffer datagram).map fun r =>
      ({ s with svcBuf := r.1, sendBuffer := r.2.sendBuffer }, r.2.sent)
  | .discovery sender datagram =>
    (discoveryHears (bytes device.localDevice.id) sender s.discBuf datagram).map fun r =>
      ({ s with discBuf := r.1, found := s.found ++ r.2.toList }, [])

/-- The storages have their size. -/
structure Sized (s : Loop) : Prop where
  svcBuf : s.svcBuf.length = 2048
  discBuf : s.discBuf.length = 2048
  sendBuffer : s.sendBuffer.length = 2048
  queryBuffer : s.queryBuffer.length = 2048

/-- A datagram for the service leaves four bytes of its storage free. -/
def Turn.Short : Turn → Prop
  | .service _ datagram => datagram.length + 4 ≤ 2048
  | _ => True

variable {device : Announcer} {s : Loop} {datagram : List UInt8}

/-- A query is written whatever the buffer held, and asks for the service. -/
theorem mdnsLoop_query (device : Announcer) (localPort : Option ℕ) (hs : Sized s) :
    ∃ s' datagram, mdnsLoop device s (.query localPort) = some (s', [(.all, datagram)]) ∧ Sized s' ∧
      s'.found = s.found ∧ datagram.length + 4 ≤ 2048 ∧
      Says datagram (querySays (buildAnnouncedInfo device) localPort) := by
  have hname : ProperName (bytes "local") (buildAnnouncedInfo device).serviceType :=
    ⟨serviceLabels, kServiceType_eq, by decide, proper_service⟩
  have hshort : (buildAnnouncedInfo device).serviceType.length = 23 := by
    have hlength : kServiceType.length = 23 := by decide
    exact hlength
  have hlength := hs.queryBuffer
  obtain ⟨buffer, datagram, hsend, hbuffer, hdatagram, htells⟩ := mdnsQuerySend_eq s.queryBuffer
    localPort MDNS_RECORDTYPE_PTR 0 (by omega) (by omega) hname (by omega)
  refine ⟨{ s with queryBuffer := buffer }, datagram, ?_,
    ⟨hs.svcBuf, hs.discBuf, hs.sendBuffer, hbuffer.trans hlength⟩, rfl, by omega, htells⟩
  rw [mdnsLoop, sendQuery, hsend]
  rfl

/-- A short datagram for the service is heard whatever it is, and nobody is reported. -/
theorem mdnsLoop_service (hfew : device.addresses.length ≤ 59) (hs : Sized s)
    (sendto : Target → List UInt8 → Bool) (hshort : datagram.length + 4 ≤ 2048) :
    ∃ s' sent, mdnsLoop device s (.service sendto datagram) = some (s', sent) ∧ Sized s' ∧
      s'.found = s.found := by
  have hlength := hs.svcBuf
  have hlarge : 12 ≤ s.svcBuf.length := by omega
  obtain ⟨storage, service, hhears, hstorage, hbuffer⟩ :=
    serviceHears_safe (answering hfew) sendto hlarge
      (hlength.symm ▸ hshort) s.sendBuffer
  refine ⟨{ s with svcBuf := storage, sendBuffer := service.sendBuffer }, service.sent, ?_,
    ⟨hstorage.trans hlength, hs.discBuf, hbuffer.trans hs.sendBuffer, hs.queryBuffer⟩, rfl⟩
  rw [mdnsLoop, hhears]
  rfl

/-- A query is answered to the one who asked. -/
theorem mdnsLoop_answers (h : Findable device) (hs : Sized s) {sendto : Target → List UInt8 → Bool}
    (hsendto : ∀ datagram, sendto .asker datagram = true) {asker : Announcer} {localPort : Option ℕ}
    (hport : localPort ≠ some MDNS_PORT) (hshort : datagram.length + 4 ≤ 2048)
    (htells : Says datagram (querySays (buildAnnouncedInfo asker) localPort)) :
    ∃ s' answer, mdnsLoop device s (.service sendto datagram) = some (s', [(.asker, answer)]) ∧
      Sized s' ∧
      s'.found = s.found ∧ answer.length ≤ 2048 ∧
      Says answer (answerSays (buildAnnouncedInfo device) 0 MDNS_RECORDTYPE_PTR) := by
  have hlength := hs.svcBuf
  have hname : (buildAnnouncedInfo device).serviceType.length ≤ 256 := by
    have hservice : kServiceType.length ≤ 256 := by decide
    exact hservice
  have hfits : datagram.length ≤ s.svcBuf.length := by omega
  obtain ⟨storage, service, answer, hhears, hstorage, hbuffer, hsent, hanswer, hsaysAnswer⟩ :=
    serviceHears_query h.announceable hname hsendto hport hs.sendBuffer hfits (by omega) htells
  refine ⟨{ s with svcBuf := storage, sendBuffer := service.sendBuffer }, answer, ?_,
    ⟨hstorage.trans hlength, hs.discBuf, hbuffer, hs.queryBuffer⟩, rfl, hanswer, hsaysAnswer⟩
  rw [mdnsLoop, hhears, ← hsent]
  rfl

/-- An answer is reported, unless it is one's own. -/
theorem mdnsLoop_reports {other : Announcer} (h : Findable other) (device : Announcer)
    (hs : Sized s) (sender : InAddr) {queryId rtype : ℕ} (hfits : datagram.length ≤ 2048)
    (htells : Says datagram (answerSays (buildAnnouncedInfo other) queryId rtype)) :
    ∃ s', mdnsLoop device s (.discovery (some sender) datagram) = some (s', []) ∧ Sized s' ∧
      s'.found = s.found ++
        if bytes other.localDevice.id = bytes device.localDevice.id then []
        else [(bytes other.localDevice.id, foundHost other sender)] := by
  have hlength := hs.discBuf
  obtain ⟨storage, hstorage, hhears⟩ :=
    discoveryHears_of_says (bytes device.localDevice.id) (some sender)
      (hlength.symm ▸ hfits) (by omega) htells (typed_answer h queryId rtype)
  rw [peerFound_answer h] at hhears
  rw [mdnsLoop, hhears, Option.map_some]
  refine ⟨_, rfl, ⟨hs.svcBuf, hstorage.trans hlength, hs.sendBuffer, hs.queryBuffer⟩, ?_⟩
  by_cases hown : bytes other.localDevice.id = bytes device.localDevice.id
  · rw [if_pos hown, if_pos hown, Option.toList_none]
  · rw [if_neg hown, if_neg hown, Option.toList_some]

/-- A discovery datagram among the turns states the id and the host. -/
def Stated (device : Announcer) (turns : List Turn) (peer : List UInt8 × List UInt8) : Prop :=
  ∃ sender datagram, .discovery sender datagram ∈ turns ∧
    peer.1 ≠ bytes device.localDevice.id ∧ peer.1 ≠ [] ∧
    IdStands (bytesOf (datagram.take 2048)) peer.1 ∧
    HostStands (bytesOf (datagram.take 2048)) sender peer.2

theorem Stated.mono {turns more : List Turn} {peer : List UInt8 × List UInt8} (hsub : turns ⊆ more)
    (h : Stated device turns peer) : Stated device more peer := by
  obtain ⟨sender, datagram, hmem, hstated⟩ := h
  exact ⟨sender, datagram, hsub hmem, hstated⟩

variable {ι : Type*}

/-- The devices of a network, each with its address and the port it asks from. -/
structure Peers (ι : Type*) where
  device : ι → Announcer
  address : ι → InAddr
  localPort : ι → Option ℕ

/-- All devices can be found, and none asks from the port of mDNS itself. -/
structure Peers.Findable (peers : Peers ι) : Prop where
  device : ∀ i, DeviceFinding.Findable (peers.device i)
  localPort : ∀ i, peers.localPort i ≠ some MDNS_PORT

/-- A datagram on its way, to all devices or to one that asked. -/
structure Flight (ι : Type*) where
  sender : ι
  target : Option ι
  datagram : List UInt8

/-- The loops of the devices, and all datagrams that were ever sent. -/
structure Network (ι : Type*) where
  loops : ι → Loop
  flights : List (Flight ι)

/-- What happens next: a device asks, one of the datagrams arrives at a device, or a datagram
from elsewhere arrives at its service. A datagram stays on its way when it arrives, so it may
arrive again, or at another device; one that never arrives is lost. -/
inductive Move (ι : Type*) where
  | ask (i : ι)
  | arrive (k : ℕ) (i : ι)
  | stray (i : ι) (datagram : List UInt8)

/-- Everything that is sent is taken by the system. -/
def taken : Target → List UInt8 → Bool := fun _ _ => true

variable [DecidableEq ι]

/-- The network once a device has taken its turn; what it sends to the one who asked goes to
`asker`, and what it sends to all goes to all. -/
def turn (peers : Peers ι) (net : Network ι) (i : ι) (asker : Option ι) (t : Turn) :
    Option (Network ι) :=
  (mdnsLoop (peers.device i) (net.loops i) t).map fun r =>
    { loops := Function.update net.loops i r.1
      flights := net.flights ++ r.2.filterMap fun sent =>
        if sent.1 = .asker then asker.map fun j => ⟨i, some j, sent.2⟩ else some ⟨i, none, sent.2⟩ }

/-- One step of the network. -/
def step (peers : Peers ι) (net : Network ι) : Move ι → Option (Network ι)
  | .ask i => turn peers net i none (.query (peers.localPort i))
  | .arrive k i =>
    match net.flights[k]? with
    | none => some net
    | some flight =>
      match flight.target with
      | none => turn peers net i (some flight.sender) (.service taken flight.datagram)
      | some j =>
        if i = j then turn peers net i none
          (.discovery (some (peers.address flight.sender)) flight.datagram)
        else some net
  -- what is answered to a stranger is no concern of the network
  | .stray i datagram =>
    (turn peers net i none (.service taken datagram)).map fun after =>
      { after with flights := net.flights }

/-- A run of the network, which ends when something outside a storage is read or written. -/
def runNetwork (peers : Peers ι) (net : Option (Network ι)) (moves : List (Move ι)) :
    Option (Network ι) :=
  run (fun net move => net.bind fun net => step peers net move) net moves

/-! ## What holds of every network -/

variable {peers : Peers ι} {net : Network ι}

/-- A datagram on its way is a query, or an answer to the one who asked. -/
def Meant (peers : Peers ι) (flight : Flight ι) : Prop :=
  match flight.target with
  | none => flight.datagram.length + 4 ≤ 2048 ∧ Says flight.datagram
      (querySays (buildAnnouncedInfo (peers.device flight.sender)) (peers.localPort flight.sender))
  | some _ => flight.datagram.length ≤ 2048 ∧ Says flight.datagram
      (answerSays (buildAnnouncedInfo (peers.device flight.sender)) 0 MDNS_RECORDTYPE_PTR)

/-- What device `i` reports is another device of the network. -/
def IsPeer (peers : Peers ι) (i : ι) (peer : List UInt8 × List UInt8) : Prop :=
  ∃ j, bytes (peers.device j).localDevice.id ≠ bytes (peers.device i).localDevice.id ∧
    peer = (bytes (peers.device j).localDevice.id, foundHost (peers.device j) (peers.address j))

/-- The storages have their sizes, and what is on its way and what was reported is meant. -/
structure Sound (peers : Peers ι) (net : Network ι) : Prop where
  sized : ∀ i, Sized (net.loops i)
  meant : ∀ flight ∈ net.flights, Meant peers flight
  found : ∀ i, ∀ peer ∈ (net.loops i).found, IsPeer peers i peer

/-- Nothing that was sent or reported is taken back. -/
structure Later (net after : Network ι) : Prop where
  flights : net.flights <+: after.flights
  found : ∀ i, (net.loops i).found <+: (after.loops i).found

omit [DecidableEq ι] in
theorem Later.refl (net : Network ι) : Later net net := ⟨List.prefix_rfl, fun _ => List.prefix_rfl⟩

omit [DecidableEq ι] in
theorem Later.trans {after last : Network ι} (h : Later net after) (h' : Later after last) :
    Later net last :=
  ⟨h.flights.trans h'.flights, fun i => (h.found i).trans (h'.found i)⟩

/-- The loop of device `i` and the datagrams on their way go on as they should. -/
theorem update_sound (h : Sound peers net) {i : ι} {s : Loop} (hs : Sized s)
    (hfound : ∃ more, s.found = (net.loops i).found ++ more ∧ ∀ peer ∈ more, IsPeer peers i peer)
    {flights : List (Flight ι)} (hmeant : ∀ flight ∈ flights, Meant peers flight) :
    Sound peers ⟨Function.update net.loops i s, net.flights ++ flights⟩ ∧
      Later net ⟨Function.update net.loops i s, net.flights ++ flights⟩ := by
  obtain ⟨more, hmore, hpeers⟩ := hfound
  have hloops : ∀ j, j = i ∧ Function.update net.loops i s j = s ∨
      j ≠ i ∧ Function.update net.loops i s j = net.loops j := by
    intro j
    by_cases hj : j = i
    · subst hj
      exact .inl ⟨rfl, Function.update_self j s net.loops⟩
    · exact .inr ⟨hj, Function.update_of_ne hj s net.loops⟩
  refine ⟨⟨fun j => ?_, fun flight hmem => ?_, fun j => ?_⟩, List.prefix_append _ _, fun j => ?_⟩
  · dsimp only
    rcases hloops j with ⟨rfl, hj⟩ | ⟨-, hj⟩
    · rw [hj]
      exact hs
    · rw [hj]
      exact h.sized j
  · rcases List.mem_append.mp hmem with hmem | hmem
    · exact h.meant flight hmem
    · exact hmeant flight hmem
  · dsimp only
    rcases hloops j with ⟨rfl, hj⟩ | ⟨-, hj⟩
    · rw [hj, hmore]
      intro peer hmem
      rcases List.mem_append.mp hmem with hmem | hmem
      · exact h.found j peer hmem
      · exact hpeers peer hmem
    · rw [hj]
      exact h.found j
  · dsimp only
    rcases hloops j with ⟨rfl, hj⟩ | ⟨-, hj⟩
    · rw [hj, hmore]
      exact List.prefix_append _ _
    · rw [hj]

/-- A turn of device `i` whose loop and datagrams are as they should be. -/
theorem turn_sound (asker : Option ι) {i : ι} {t : Turn} {s : Loop}
    {sent : List (Target × List UInt8)}
    (h : Sound peers net) (hloop : mdnsLoop (peers.device i) (net.loops i) t = some (s, sent))
    (hs : Sized s) (hfound : ∃ more, s.found = (net.loops i).found ++ more ∧
        ∀ peer ∈ more, IsPeer peers i peer)
    {flights : List (Flight ι)} (hmeant : ∀ flight ∈ flights, Meant peers flight)
    (hflights : (sent.filterMap fun sent =>
      if sent.1 = .asker then asker.map fun j => ⟨i, some j, sent.2⟩
      else some ⟨i, none, sent.2⟩) = flights) :
    ∃ after, turn peers net i asker t = some after ∧ Sound peers after ∧ Later net after ∧
      after.loops i = s ∧ after.flights = net.flights ++ flights := by
  obtain ⟨hsound, hlater⟩ := update_sound h hs hfound hmeant
  refine ⟨_, ?_, hsound, hlater, Function.update_self i s net.loops, rfl⟩
  rw [turn, hloop, Option.map_some, hflights]

/-- A device asks, and its query is on its way. -/
theorem step_ask (h : Sound peers net) (i : ι) :
    ∃ after flight, step peers net (.ask i) = some after ∧ Sound peers after ∧ Later net after ∧
      flight.sender = i ∧ flight.target = none ∧ after.flights = net.flights ++ [flight] := by
  obtain ⟨s, datagram, hloop, hs, hfound, hshort, htells⟩ :=
    mdnsLoop_query (peers.device i) (peers.localPort i) (h.sized i)
  have hmeant : ∀ flight ∈ [(⟨i, none, datagram⟩ : Flight ι)], Meant peers flight := by
    intro flight hmem
    obtain rfl := List.mem_singleton.mp hmem
    exact ⟨hshort, htells⟩
  obtain ⟨after, hturn, hsound, hlater, -, hflights⟩ := turn_sound none h hloop hs
    ⟨[], by rw [hfound, List.append_nil], fun _ hmem => absurd hmem List.not_mem_nil⟩ hmeant rfl
  exact ⟨after, _, hturn, hsound, hlater, rfl, rfl, hflights⟩

/-- A query that arrives is answered, and the answer is on its way to the one who asked. -/
theorem step_arrive_query (hpeers : peers.Findable) (h : Sound peers net) (i : ι) {k : ℕ}
    {flight : Flight ι} (hk : net.flights[k]? = some flight) (htarget : flight.target = none) :
    ∃ after answer, step peers net (.arrive k i) = some after ∧ Sound peers after ∧
      Later net after ∧
      answer.sender = i ∧ answer.target = some flight.sender ∧
      after.flights = net.flights ++ [answer] := by
  have hflight := h.meant flight (List.mem_of_getElem? hk)
  unfold Meant at hflight
  rw [htarget] at hflight
  obtain ⟨s, answer, hloop, hs, hfound, hlength, htells⟩ :=
    mdnsLoop_answers (hpeers.device i) (h.sized i)
    (fun _ => rfl : ∀ datagram, taken .asker datagram = true) (hpeers.localPort flight.sender)
      hflight.1 hflight.2
  have hmeant : ∀ flight' ∈ [(⟨i, some flight.sender, answer⟩ : Flight ι)],
      Meant peers flight' := by
    intro flight' hmem
    obtain rfl := List.mem_singleton.mp hmem
    exact ⟨hlength, htells⟩
  obtain ⟨after, hturn, hsound, hlater, -, hflights⟩ := turn_sound (some flight.sender) h hloop hs
    ⟨[], by rw [hfound, List.append_nil], fun _ hmem => absurd hmem List.not_mem_nil⟩ hmeant rfl
  refine ⟨after, _, ?_, hsound, hlater, rfl, rfl, hflights⟩
  simp only [step, hk, htarget]
  exact hturn

/-- An answer that arrives at the one who asked is reported, unless it is one's own. -/
theorem step_arrive_answer (hpeers : peers.Findable) (h : Sound peers net) {i : ι} {k : ℕ}
    {flight : Flight ι} (hk : net.flights[k]? = some flight) (htarget : flight.target = some i) :
    ∃ after, step peers net (.arrive k i) = some after ∧ Sound peers after ∧ Later net after ∧
      (after.loops i).found = (net.loops i).found ++
        if bytes (peers.device flight.sender).localDevice.id =
            bytes (peers.device i).localDevice.id then []
        else [(bytes (peers.device flight.sender).localDevice.id,
          foundHost (peers.device flight.sender) (peers.address flight.sender))] := by
  have hflight := h.meant flight (List.mem_of_getElem? hk)
  unfold Meant at hflight
  rw [htarget] at hflight
  obtain ⟨s, hloop, hs, hfound⟩ :=
    mdnsLoop_reports (hpeers.device flight.sender) (peers.device i) (h.sized i)
      (peers.address flight.sender) hflight.1 hflight.2
  have hnew : ∀ peer ∈
      if bytes (peers.device flight.sender).localDevice.id =
          bytes (peers.device i).localDevice.id then []
      else [(bytes (peers.device flight.sender).localDevice.id,
        foundHost (peers.device flight.sender) (peers.address flight.sender))],
      IsPeer peers i peer := by
    intro peer hmem
    split at hmem
    · exact absurd hmem List.not_mem_nil
    · next hother =>
      obtain rfl := List.mem_singleton.mp hmem
      exact ⟨flight.sender, hother, rfl⟩
  obtain ⟨after, hturn, hsound, hlater, hself, -⟩ := turn_sound none h hloop hs ⟨_, hfound, hnew⟩
    (fun _ hmem => absurd hmem List.not_mem_nil) rfl
  refine ⟨after, ?_, hsound, hlater, by rw [hself, hfound]⟩
  simp only [step, hk, htarget, if_pos]
  exact hturn

/-- A short datagram from elsewhere changes nothing but storages. -/
theorem step_stray (hpeers : peers.Findable) (h : Sound peers net) (i : ι) {datagram : List UInt8}
    (hshort : datagram.length + 4 ≤ 2048) :
    ∃ after, step peers net (.stray i datagram) = some after ∧ Sound peers after ∧
      Later net after := by
  obtain ⟨s, sent, hloop, hs, hfound⟩ :=
    mdnsLoop_service (hpeers.device i).addresses (h.sized i) taken hshort
  have hnone : ∀ flight ∈ ([] : List (Flight ι)), Meant peers flight :=
    fun _ hmem => absurd hmem List.not_mem_nil
  have hall := update_sound h hs
    ⟨[], by rw [hfound, List.append_nil], fun _ hmem => absurd hmem List.not_mem_nil⟩ hnone
  rw [List.append_nil] at hall
  refine ⟨_, ?_, hall⟩
  rw [step, turn, hloop, Option.map_some, Option.map_some]

/-- A datagram from elsewhere leaves four bytes of the storage free. -/
def Move.Short : Move ι → Prop
  | .stray _ datagram => datagram.length + 4 ≤ 2048
  | _ => True

/-- Every step is taken, and keeps what holds of every network. -/
theorem step_sound (hpeers : peers.Findable) (h : Sound peers net) {move : Move ι}
    (hshort : move.Short) :
    ∃ after, step peers net move = some after ∧ Sound peers after ∧ Later net after := by
  cases move with
  | ask i =>
    obtain ⟨after, -, hstep, hsound, hlater, -⟩ := step_ask h i
    exact ⟨after, hstep, hsound, hlater⟩
  | stray i datagram => exact step_stray hpeers h i hshort
  | arrive k i =>
    cases hk : net.flights[k]? with
    | none => exact ⟨net, by simp only [step, hk], h, .refl net⟩
    | some flight =>
      cases htarget : flight.target with
      | none =>
        obtain ⟨after, -, hstep, hsound, hlater, -⟩ := step_arrive_query hpeers h i hk htarget
        exact ⟨after, hstep, hsound, hlater⟩
      | some j =>
        by_cases hij : i = j
        · obtain ⟨after, hstep, hsound, hlater, -⟩ := step_arrive_answer hpeers h hk (hij ▸ htarget)
          exact ⟨after, hstep, hsound, hlater⟩
        · exact ⟨net, by simp only [step, hk, htarget, if_neg hij], h, .refl net⟩

/-- Every run goes on. -/
theorem run_sound (hpeers : peers.Findable) (h : Sound peers net) {moves : List (Move ι)}
    (hshort : ∀ move ∈ moves, move.Short) :
    ∃ after, runNetwork peers (some net) moves = some after ∧ Sound peers after ∧
      Later net after := by
  induction moves generalizing net with
  | nil => exact ⟨net, rfl, h, .refl net⟩
  | cons move moves ih =>
    obtain ⟨next, hstep, hsound, hlater⟩ := step_sound hpeers h (hshort move List.mem_cons_self)
    obtain ⟨after, hrun, hsound', hlater'⟩ :=
      ih hsound fun other hmem => hshort other (List.mem_cons_of_mem _ hmem)
    refine ⟨after, ?_, hsound', hlater.trans hlater'⟩
    rw [runNetwork, run_cons, Option.bind_some, hstep]
    exact hrun

/-- A network in which nothing was sent or reported yet, whatever the storages hold. -/
structure Fresh (net : Network ι) : Prop where
  sized : ∀ i, Sized (net.loops i)
  flights : net.flights = []
  found : ∀ i, (net.loops i).found = []

omit [DecidableEq ι] in
theorem Fresh.sound (h : Fresh net) (peers : Peers ι) : Sound peers net where
  sized := h.sized
  meant flight hmem := by
    rw [h.flights] at hmem
    exact absurd hmem List.not_mem_nil
  found i peer hmem := by
    rw [h.found] at hmem
    exact absurd hmem List.not_mem_nil

/-- In no run is anything read or written outside of a storage, and whoever is reported to a
device is another device of the network, under the host of that one. -/
theorem reported_are_peers (hpeers : peers.Findable) (hfresh : Fresh net) {moves : List (Move ι)}
    (hshort : ∀ move ∈ moves, move.Short) :
    ∃ after, runNetwork peers (some net) moves = some after ∧
      ∀ i, ∀ peer ∈ (after.loops i).found, IsPeer peers i peer := by
  obtain ⟨after, hrun, hsound, -⟩ := run_sound hpeers (hfresh.sound peers) hshort
  exact ⟨after, hrun, hsound.found⟩

theorem runNetwork_append (peers : Peers ι) (net : Option (Network ι))
    (moves more : List (Move ι)) :
    runNetwork peers net (moves ++ more) = runNetwork peers (runNetwork peers net moves) more :=
  run_append _ net moves more

theorem runNetwork_cons (peers : Peers ι) (net : Network ι) (move : Move ι)
    (moves : List (Move ι)) :
    runNetwork peers (some net) (move :: moves) = runNetwork peers (step peers net move) moves :=
  rfl

omit [DecidableEq ι] in
/-- What was sent is still on its way later. -/
theorem Later.getElem? {after : Network ι} (h : Later net after) {k : ℕ} {flight : Flight ι}
    (hk : net.flights[k]? = some flight) : after.flights[k]? = some flight := by
  obtain ⟨rest, hrest⟩ := h.flights
  rw [← hrest, List.getElem?_append_left (List.getElem?_eq_some_iff.mp hk).1, hk]

omit [DecidableEq ι] in
theorem getElem?_last {flights : List (Flight ι)} (flight : Flight ι) :
    (flights ++ [flight])[flights.length]? = some flight := by
  rw [List.getElem?_append_right (Nat.le_refl _), Nat.sub_self, List.getElem?_cons_zero]

/-- Once a device has asked, its query has arrived at another one, and the answer of that has
arrived, the other one is reported from then on, whatever else happens before, between and
after. -/
theorem asked_is_reported (hpeers : peers.Findable) (hfresh : Fresh net) {i j : ι}
    (hother : bytes (peers.device j).localDevice.id ≠ bytes (peers.device i).localDevice.id)
    {before : List (Move ι)} (hbefore : ∀ move ∈ before, move.Short) :
    ∃ query, ∀ between, (∀ move ∈ between, move.Short) → ∃ answer, ∀ between' later : List (Move ι),
      (∀ move ∈ between' ++ later, move.Short) →
      ∃ after, runNetwork peers (some net)
        (before ++ .ask i :: between ++ .arrive query j :: between' ++
          .arrive answer i :: later) = some after ∧
        (bytes (peers.device j).localDevice.id, foundHost (peers.device j) (peers.address j)) ∈
          (after.loops i).found := by
  obtain ⟨net₁, hrun₁, hsound₁, -⟩ := run_sound hpeers (hfresh.sound peers) hbefore
  obtain ⟨net₂, query, hstep₂, hsound₂, -, hsender, htarget, hflights₂⟩ := step_ask hsound₁ i
  refine ⟨net₁.flights.length, fun between hbetween => ?_⟩
  obtain ⟨net₃, hrun₃, hsound₃, hlater₃⟩ := run_sound hpeers hsound₂ hbetween
  have hquery : net₃.flights[net₁.flights.length]? = some query :=
    hlater₃.getElem? (hflights₂ ▸ getElem?_last query)
  obtain ⟨net₄, answer, hstep₄, hsound₄, -, hsender', htarget', hflights₄⟩ :=
    step_arrive_query hpeers hsound₃ j hquery htarget
  refine ⟨net₃.flights.length, fun between' later hshort => ?_⟩
  obtain ⟨net₅, hrun₅, hsound₅, hlater₅⟩ := run_sound hpeers hsound₄
    fun move hmem => hshort move (List.mem_append_left _ hmem)
  have hanswer : net₅.flights[net₃.flights.length]? = some answer :=
    hlater₅.getElem? (hflights₄ ▸ getElem?_last answer)
  obtain ⟨net₆, hstep₆, hsound₆, -, hfound⟩ :=
    step_arrive_answer hpeers hsound₅ hanswer (hsender ▸ htarget')
  obtain ⟨after, hrun, -, hlater⟩ := run_sound hpeers hsound₆
    fun move hmem => hshort move (List.mem_append_right _ hmem)
  refine ⟨after, ?_, ?_⟩
  · rw [runNetwork_append, runNetwork_append, runNetwork_append, hrun₁, runNetwork_cons, hstep₂,
      hrun₃, runNetwork_cons, hstep₄, hrun₅, runNetwork_cons, hstep₆, hrun]
  · refine (hlater.found i).subset ?_
    rw [hfound, hsender', if_neg hother]
    exact List.mem_append_right _ List.mem_cons_self

/-! ## Two devices -/

/-- A console on the left and one on the right. -/
def twoConsoles : Peers Bool where
  device right :=
    { localDevice :=
        { id := if right then "right" else "left", name := "Console", type := "console" }
      tcpPort := 1716
      gethostname := none
      addresses := [⟨10, 0, 0, if right then 2 else 1⟩]
      iterate := id
      iterate_perm := List.Perm.refl }
  address right := ⟨10, 0, 0, if right then 2 else 1⟩
  localPort _ := none

/-- Storages of zeros. -/
def quiet : Loop where
  svcBuf := List.replicate 2048 0
  discBuf := List.replicate 2048 0
  sendBuffer := List.replicate 2048 0
  queryBuffer := List.replicate 2048 0

theorem quiet_sized : Sized quiet :=
  ⟨List.length_replicate, List.length_replicate, List.length_replicate, List.length_replicate⟩

def quietNetwork : Network Bool where
  loops _ := quiet
  flights := []

theorem quietNetwork_fresh : Fresh quietNetwork := ⟨fun _ => quiet_sized, rfl, fun _ => rfl⟩

theorem properName_default : ProperName (bytes "local") (hostnameOrDefault none) := by
  have hname : hostnameOrDefault none = bytes "MiniKDEConnect" ++ bytes ".local." := by decide
  rw [hname]
  exact properName_host ⟨by decide, by decide, by decide⟩ (by decide)

theorem twoConsoles_findable : twoConsoles.Findable where
  device right := by
    cases right with
    | false => exact ⟨⟨by decide, by decide, by decide⟩, by decide, properName_default, by decide,
        by decide, by decide, by decide⟩
    | true => exact ⟨⟨by decide, by decide, by decide⟩, by decide, properName_default, by decide,
        by decide, by decide, by decide⟩
  localPort _ := nofun

/-- The left console asks, the right one answers. -/
theorem reported_are_peers_twoConsoles : ∃ after,
    runNetwork twoConsoles (some quietNetwork) [.ask false, .arrive 0 true, .arrive 1 false] =
      some after ∧
      ∀ i, ∀ peer ∈ (after.loops i).found, IsPeer twoConsoles i peer :=
  reported_are_peers twoConsoles_findable quietNetwork_fresh fun move hmem => by
    rcases List.mem_cons.mp hmem with rfl | hmem
    · trivial
    rcases List.mem_cons.mp hmem with rfl | hmem
    · trivial
    obtain rfl := List.mem_singleton.mp hmem
    trivial

/-- The left console comes to report the right one. -/
theorem asked_is_reported_twoConsoles : ∃ query, ∀ between : List (Move Bool),
    (∀ move ∈ between, move.Short) → ∃ answer, ∀ between' later : List (Move Bool),
      (∀ move ∈ between' ++ later, move.Short) →
      ∃ after, runNetwork twoConsoles (some quietNetwork) ([] ++ .ask false :: between ++
          .arrive query true :: between' ++ .arrive answer false :: later) = some after ∧
        (bytes "right", foundHost (twoConsoles.device true) (twoConsoles.address true)) ∈
          (after.loops false).found :=
  asked_is_reported twoConsoles_findable quietNetwork_fresh (i := false) (j := true) (by decide)
    fun _ hmem => absurd hmem List.not_mem_nil

theorem zeros_length : (List.replicate 2048 (0 : UInt8)).length = 2048 := List.length_replicate

/-- What the consoles announce. -/
def consoleInfo (right : Bool) : AnnouncedInfo := buildAnnouncedInfo (twoConsoles.device right)

theorem console_announceable (right : Bool) :
    Announceable (consoleInfo right) (bytes "local") 2048 :=
  (twoConsoles_findable.device right).announceable

/-- The right console answers the question for the service. -/
theorem unicast_answer_received_right : ∃ buffer datagram,
    mdnsQueryAnswerUnicast (List.replicate 2048 0) 0 MDNS_RECORDTYPE_PTR kServiceType
        (ptrRecord (consoleInfo true)) [] (additionalOf (consoleInfo true)) =
          some (buffer, some datagram) ∧
      MdnsExchange.Received datagram
        { queryId := 0
          flags := 0x8400
          questions :=
            [⟨kServiceType, MDNS_RECORDTYPE_PTR, MDNS_UNICAST_RESPONSE ||| MDNS_CLASS_IN⟩]
          answers := [{ MdnsExchange.toldToOne (ptrRecord (consoleInfo true)) with ttl := 10 }]
          authority := []
          additional := MdnsExchange.toldSection MdnsExchange.toldToOne
            (MdnsExchange.toldToAll MDNS_CLASS_IN 10) (additionalOf (consoleInfo true)) } :=
  MdnsExchange.unicast_answer_received 0 MDNS_RECORDTYPE_PTR (by rw [zeros_length]; decide)
    (by rw [zeros_length]; decide) (console_announceable true).serviceType
      (proper_ptr (console_announceable true)) (proper_section_nil _ _)
    (proper_section (console_announceable true) _ (fun _ => rfl) (fun _ => rfl))
      (by rw [zeros_length]; decide)

/-- The right console says goodbye. -/
theorem multicast_answer_received_right : ∃ buffer datagram,
    mdnsAnswerMulticastRclassTtl (List.replicate 2048 0) (ptrRecord (consoleInfo true)) []
        (additionalOf (consoleInfo true)) MDNS_CLASS_IN 0 = some (buffer, some datagram) ∧
      MdnsExchange.Received datagram
        { queryId := 0
          flags := 0x8400
          answers := [MdnsExchange.toldToAll MDNS_CLASS_IN 0 (ptrRecord (consoleInfo true))]
          authority := []
          additional := MdnsExchange.toldSection (MdnsExchange.toldToAll MDNS_CLASS_IN 0)
            (MdnsExchange.toldToAll MDNS_CLASS_IN 0) (additionalOf (consoleInfo true)) } :=
  MdnsExchange.multicast_answer_received MDNS_CLASS_IN 0 (by rw [zeros_length]; decide)
    (by rw [zeros_length]; decide)
    (proper_ptr (console_announceable true)) (proper_section_nil _ _)
    (proper_section (console_announceable true) _ (fun _ => rfl) fun _ => rfl)
    (by rw [zeros_length]; decide)

end KdeConnectNx.MdnsNetwork
