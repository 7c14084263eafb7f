import KdeConnectNx.EstablishmentTurns
import KdeConnectNx.Retraction

/-!
# Two devices connect and agree

Every event is a run of the moves of two ends that retract what only one of them
remembers, and every round of turns brings both nearer to the end.
-/

namespace KdeConnectNx.Establishment

open Runs JsonTree PacketBody PacketFormat LineReader PairedFiles Sessions Pairing Connection
  PairingRuns PairingExchange TlsRoles TextSizes IdentityPackets PluginTalk Plugins
open KdeConnectClient (modify setStorage post sendPacket notifyPluginsConnected)
open PairingAgreement (Side)
open SessionTable (enter cleanUp)

/-! ## What only one side remembers is taken back -/

/-- Whether a packet is about the pairing. -/
def isDenial (o : Outgoing) : Bool := o.packet.type == PacketTypes.pair

theorem isDenial_ordinary {o : Outgoing} (h : Ordinary o.packet) : isDenial o = false :=
  beq_eq_false_iff_ne.mpr h.notPair

theorem isDenial_unpairPacket {o : Outgoing} (h : o.packet = unpairPacket) :
    isDenial o = true := by
  unfold isDenial
  rw [h]
  rfl

theorem isDenial_talk {more : List Outgoing} (h : ∀ o ∈ more, Ordinary o.packet) :
    more.map isDenial = List.replicate more.length false := by
  rw [List.eq_replicate_iff]
  refine ⟨List.length_map _, ?_⟩
  intro b hb
  obtain ⟨o, ho, rfl⟩ := List.mem_map.mp hb
  exact isDenial_ordinary (h o ho)

section View

variable {φ : Type}

/-- The two devices as ends that remember each other. -/
def view (w : World φ) : Retraction.Ends Side where
  belief s := (w s).belief
  spoken s := decide ((w s).stage.togo ≤ 2)
  wire s := ((w s).queue.drop (w s.other).heard).map isDenial

/-- No device has heard more than was said. -/
def Heard (w : World φ) : Prop := ∀ s, (w s.other).heard ≤ (w s).queue.length

/-- What becomes of the view when one device changes. -/
theorem view_update (w : World φ) (s : Side) (p : Party φ) :
    view (Function.update w s p) =
      { belief := Function.update (view w).belief s p.belief
        spoken := Function.update (view w).spoken s (decide (p.stage.togo ≤ 2))
        wire := Function.update (Function.update (view w).wire s.other
            (((w s.other).queue.drop p.heard).map isDenial)) s
          ((p.queue.drop (w s.other).heard).map isDenial) } := by
  have hself : Function.update w s p s = p := Function.update_self ..
  have hother : Function.update w s p s.other = w s.other :=
    Function.update_of_ne s.other_ne ..
  unfold view
  rw [Retraction.Ends.mk.injEq]
  refine ⟨?_, ?_, ?_⟩
  · funext t
    rcases Side.eq_or_other s t with rfl | rfl
    · rw [hself, Function.update_self]
    · rw [hother, Function.update_of_ne s.other_ne]
  · funext t
    rcases Side.eq_or_other s t with rfl | rfl
    · rw [hself, Function.update_self]
    · rw [hother, Function.update_of_ne s.other_ne]
  · funext t
    rcases Side.eq_or_other s t with rfl | rfl
    · rw [hself, hother, Function.update_self]
    · rw [hother, Side.other_other, hself, Function.update_of_ne s.other_ne, Function.update_self]

/-- As long as it hears nothing, its own part of the wire alone changes. -/
theorem view_update_of_heard {w : World φ} {s : Side} {p : Party φ} (h : p.heard = (w s).heard) :
    view (Function.update w s p) =
      { belief := Function.update (view w).belief s p.belief
        spoken := Function.update (view w).spoken s (decide (p.stage.togo ≤ 2))
        wire := Function.update (view w).wire s
          ((p.queue.drop (w s.other).heard).map isDenial) } := by
  have hwire : ((w s.other).queue.drop p.heard).map isDenial =
      (view w).wire s.other := by
    unfold view
    dsimp only
    rw [Side.other_other, h]
  rw [view_update, hwire, Function.update_eq_self]

variable {remembered : Side → Bool}

/-- A device that says nothing new has chatted. -/
theorem view_talks {w : World φ} (hw : Heard w) {s : Side} {p : Party φ}
    (hheard : p.heard = (w s).heard) (h : Talks (w s) p)
    (hspoken : p.stage.togo ≤ 2 ↔ (w s).stage.togo ≤ 2) :
    ∃ moves, view (Function.update w s p) =
      run (Retraction.Ends.step Side.other remembered) (view w) moves := by
  obtain ⟨more, hqueue, hmore⟩ := h.queue
  refine ⟨List.replicate more.length (.chat s), ?_⟩
  have hbelief : p.belief = (view w).belief s := h.belief
  have hsaid : decide (p.stage.togo ≤ 2) = (view w).spoken s := decide_eq_decide.mpr hspoken
  have hwire : (p.queue.drop (w s.other).heard).map isDenial =
      (view w).wire s ++ List.replicate more.length false := by
    rw [hqueue, List.drop_append_of_le_length (hw s), List.map_append, isDenial_talk hmore]
    rfl
  rw [Retraction.run_chats, view_update_of_heard hheard, hbelief, hsaid, hwire,
    Function.update_eq_self, Function.update_eq_self]

/-- The thread remembers, chats, or has its say. -/
theorem view_pace {w : World φ} (hw : Heard w) {s : Side} {p : Party φ}
    (hheard : p.heard = (w s).heard) (h : Pace remembered s (w s.other) (w s) p) :
    ∃ moves, view (Function.update w s p) =
      run (Retraction.Ends.step Side.other remembered) (view w) moves := by
  cases h with
  | stays hwaits hsame =>
    refine ⟨[], ?_⟩
    rw [hsame, Function.update_eq_self]
    rfl
  | talks htalks htogo hlate => exact view_talks hw hheard htalks ⟨hlate, fun hle => by omega⟩
  | opens hbefore hafter htogo =>
    refine ⟨[.remember s], ?_⟩
    have hbelief : (view w).belief s = none := hbefore.1
    have hsaid : decide (p.stage.togo ≤ 2) = (view w).spoken s :=
      decide_eq_decide.mpr (by omega)
    have hwire : (p.queue.drop (w s.other).heard).map isDenial = (view w).wire s := by
      unfold view
      dsimp only
      rw [hafter.2, hbefore.2]
    rw [view_update_of_heard hheard, hafter.1, hsaid, hwire, Function.update_eq_self,
      Function.update_eq_self, run_cons, run_nil]
    unfold Retraction.Ends.step
    dsimp only
    rw [hbelief]
  | denies paired now hbelief hqueue htogo =>
    refine ⟨[.speak s], ?_⟩
    have hbefore : (view w).belief s = some paired := hbelief.1
    have hspoken : decide (p.stage.togo ≤ 2) = true := decide_eq_true (by omega)
    have hwire : (p.queue.drop (w s.other).heard).map isDenial =
        (view w).wire s ++ if paired then [] else [true] := by
      rw [hqueue, List.drop_append_of_le_length (hw s), List.map_append]
      cases paired <;> rfl
    rw [view_update_of_heard hheard, hbelief.2, ← hbefore, hspoken, hwire,
      Function.update_eq_self, run_cons, run_nil]
    unfold Retraction.Ends.step
    dsimp only
    rw [hbefore]
    cases paired with
    | true =>
      rw [if_pos rfl, List.append_nil, Function.update_eq_self]
    | false => rfl

/-- The io thread has nothing to do, or handles the next packet. -/
inductive Hears (peer me me' : Party φ) : Prop
  | nothing (heq : me' = me)
  | chat (o : Outgoing) (next : peer.queue[me.heard]? = some o) (ordinary : Ordinary o.packet)
    (begun : me.belief.isSome = true) (h : Talks me me') (heard : me'.heard = me.heard + 1)
  | denial (o : Outgoing) (next : peer.queue[me.heard]? = some o) (denial : o.packet = unpairPacket)
    (paired : Bool) (belief : me.belief = some paired ∧ me'.belief = some false)
    (queue : me'.queue = me.queue) (heard : me'.heard = me.heard + 1)

theorem deliver_stage [FileSystem φ] (y : Yyjson) (m : Moment PluginEnv) (peer me : Party φ) :
    (deliver y m peer me).stage = me.stage := by
  unfold deliver
  split <;> rfl

theorem hears_deliver [FileSystem φ] {y : Yyjson} (hy : y.Lawful) {x : Meeting}
    {info : Side → DeviceInfo} {s : Side} {peer me : Party φ}
    (h : Sane y x info remembered s me) (hpeer : Sane y x info remembered s.other peer)
    (m : Moment PluginEnv) : Hears peer me (deliver y m peer me) := by
  have hstage := deliver_stage y m peer me
  unfold deliver at hstage ⊢
  split
  · rename_i ref o hr ho
    have hholds := h.holds hr
    have hbelief : me.belief = some (me.client.heap ref).paired := by
      rw [Party.belief, hr, Option.map_some]
    rcases hpeer.packets o (List.mem_of_getElem? ho) with hordinary | hdenial
    · have hc := fun other => chats_handlePacket hy m ref me.client hordinary other
      refine .chat o ho hordinary ?_ (.of_chats rfl hc) rfl
      rw [hbelief]
      rfl
    · have hheard := handlePacket_unpairPacket hy m ref me.client hdenial hholds.calm
      have hheap : ((setStorage (modify me.client ref DeviceSession.markUnpaired)
          (removePairedDevice (me.client.heap ref).info.id me.client.storage)).heap ref) =
            (me.client.heap ref).markUnpaired := KdeConnectClient.modify_heap_self ..
      refine .denial o ho hdenial (me.client.heap ref).paired ⟨hbelief, ?_⟩ ?_ rfl
      · rw [Party.belief]
        dsimp only
        rw [hr, Option.map_some, hheard, hheap]
        rfl
      · rw [Party.queue, Party.queue]
        dsimp only
        rw [hr, Option.elim_some, Option.elim_some, hheard, hheap]
        rfl
  · exact .nothing rfl

/-- A packet that arrives is heard. -/
theorem view_hears {w : World φ} (hw : Heard w) {s : Side} {p : Party φ}
    (hstage : p.stage = (w s).stage) (h : Hears (w s.other) (w s) p) :
    ∃ moves, view (Function.update w s p) =
      run (Retraction.Ends.step Side.other remembered) (view w) moves := by
  have hsaid : decide (p.stage.togo ≤ 2) = (view w).spoken s := by
    rw [hstage]
    rfl
  have hnext : ∀ {o : Outgoing}, (w s.other).queue[(w s).heard]? = some o →
      (view w).wire s.other = isDenial o ::
        ((w s.other).queue.drop ((w s).heard + 1)).map isDenial := by
    intro o ho
    obtain ⟨hlt, rfl⟩ := List.getElem?_eq_some_iff.mp ho
    unfold view
    dsimp only
    rw [Side.other_other, List.drop_eq_getElem_cons hlt, List.map_cons]
  cases h with
  | nothing hsame =>
    refine ⟨[], ?_⟩
    rw [hsame, Function.update_eq_self]
    rfl
  | chat o ho hordinary hbegun htalks hheard =>
    obtain ⟨more, hqueue, hmore⟩ := htalks.queue
    have hwire := hnext ho
    rw [isDenial_ordinary hordinary] at hwire
    have hown : (p.queue.drop (w s.other).heard).map isDenial =
        (view w).wire s ++ List.replicate more.length false := by
      rw [hqueue, List.drop_append_of_le_length (hw s), List.map_append, isDenial_talk hmore]
      rfl
    obtain ⟨b, hb⟩ := Option.isSome_iff_exists.mp hbegun
    have hbelief : (view w).belief s = some b := hb
    have hkept : p.belief = (view w).belief s := htalks.belief
    have hhears : (view w).step Side.other remembered (.hear s) =
        { view w with
          wire := Function.update (view w).wire s.other
            (((w s.other).queue.drop ((w s).heard + 1)).map isDenial) } := by
      unfold Retraction.Ends.step
      dsimp only
      rw [hbelief, hwire]
      dsimp only
      rw [Bool.not_false, Bool.and_true, ← hbelief, Function.update_eq_self]
    refine ⟨.hear s :: List.replicate more.length (.chat s), ?_⟩
    rw [run_cons, hhears, Retraction.run_chats, view_update, hheard, hkept, hsaid, hown,
      Function.update_eq_self, Function.update_eq_self]
    dsimp only
    rw [Function.update_of_ne s.ne_other]
  | denial o ho hdenial paired hbelief hqueue hheard =>
    have hwire := hnext ho
    rw [isDenial_unpairPacket hdenial] at hwire
    have hb : (view w).belief s = some paired := hbelief.1
    have hown : (p.queue.drop (w s.other).heard).map isDenial = (view w).wire s := by
      rw [hqueue]
      rfl
    refine ⟨[.hear s], ?_⟩
    rw [run_cons, run_nil, view_update, hheard, hbelief.2, hsaid, hown, Function.update_eq_self,
      Function.update_comm s.other_ne, Function.update_eq_self]
    unfold Retraction.Ends.step
    dsimp only
    rw [hb, hwire]
    dsimp only
    rw [Bool.not_true, Bool.and_false]

end View

/-! ## Runs -/

section Invariant

variable {φ : Type} [FileSystem φ] {y : Yyjson} {x : Meeting} {info : Side → DeviceInfo}
  {remembered : Side → Bool} {w : World φ}

/-- Both devices are sane, and what they believe is sound. -/
structure Coherent (y : Yyjson) (x : Meeting) (info : Side → DeviceInfo)
    (remembered : Side → Bool) (w : World φ) : Prop where
  sane : ∀ s, Sane y x info remembered s (w s)
  heard : Heard w
  sound : Retraction.Sound Side.other remembered (view w)

/-- What an event does to the device it happens at. -/
theorem sane_event (hy : y.Lawful) (hm : Minified y) (hx : Presentable y x info)
    (hsane : ∀ s, Sane y x info remembered s (w s)) (e : Event) :
    Sane y x info remembered e.side (e.party y x w) := by
  cases e with
  | turn s m showOnConnect =>
    exact (goes_advance hy hm hx (hsane s) (hsane s.other) m showOnConnect).sane
  | arrival s m => exact sane_deliver hy (hsane s) (hsane s.other) m
  | mainLoop s m => exact sane_tick (hsane s) m

omit [FileSystem φ] in
theorem talks_tick (m : Moment PluginEnv) (me : Party φ) : Talks me (tick m me) :=
  .of_chats rfl fun ref => .processEvents m ref me.client

/-- Every event is a run of moves. -/
theorem view_step (hy : y.Lawful) (hm : Minified y) (hx : Presentable y x info)
    (hw : Coherent y x info remembered w) (e : Event) :
    ∃ moves, view (step y x w e) =
      run (Retraction.Ends.step Side.other remembered) (view w) moves := by
  cases e with
  | turn s m showOnConnect =>
    have hgoes := goes_advance hy hm hx (hw.sane s) (hw.sane s.other) m showOnConnect
    exact view_pace hw.heard hgoes.heard hgoes.pace
  | arrival s m =>
    exact view_hears hw.heard (deliver_stage y m (w s.other) (w s))
      (hears_deliver hy (hw.sane s) (hw.sane s.other) m)
  | mainLoop s m => exact view_talks hw.heard rfl (talks_tick m (w s)) Iff.rfl

omit [FileSystem φ] in
theorem Talks.length_le {me me' : Party φ} (h : Talks me me') :
    me.queue.length ≤ me'.queue.length := by
  obtain ⟨more, hqueue, -⟩ := h.queue
  rw [hqueue, List.length_append]
  omega

omit [FileSystem φ] in
theorem Pace.length_le {s : Side} {peer me me' : Party φ} (h : Pace remembered s peer me me') :
    me.queue.length ≤ me'.queue.length := by
  cases h with
  | stays hwaits hsame => rw [hsame]
  | talks htalks htogo hlate => exact htalks.length_le
  | opens hbefore hafter htogo =>
    rw [hbefore.2, List.length_nil]
    omega
  | denies paired now hbelief hqueue htogo =>
    rw [hqueue, List.length_append]
    omega

omit [FileSystem φ] in
/-- A device that goes on may hear as much as was said. -/
theorem Heard.update (hw : Heard w) {s : Side} {p : Party φ}
    (hqueue : (w s).queue.length ≤ p.queue.length)
    (hheard : p.heard ≤ (w s.other).queue.length) : Heard (Function.update w s p) := by
  intro t
  have hself : Function.update w s p s = p := Function.update_self ..
  have hother : Function.update w s p s.other = w s.other :=
    Function.update_of_ne s.other_ne ..
  rcases Side.eq_or_other s t with rfl | rfl
  · rw [hself, hother]
    exact Nat.le_trans (hw t) hqueue
  · rw [Side.other_other, hself, hother]
    exact hheard

omit [FileSystem φ] in
theorem Hears.heard_update (hw : Heard w) {s : Side} {p : Party φ}
    (h : Hears (w s.other) (w s) p) : Heard (Function.update w s p) := by
  have hbefore : (w s).heard ≤ (w s.other).queue.length := by
    have := hw s.other
    rw [Side.other_other] at this
    exact this
  cases h with
  | nothing hsame =>
    rw [hsame, Function.update_eq_self]
    exact hw
  | chat o ho hordinary hbegun htalks hheard =>
    obtain ⟨hlt, -⟩ := List.getElem?_eq_some_iff.mp ho
    refine hw.update htalks.length_le ?_
    omega
  | denial o ho hdenial paired hbelief hqueue hheard =>
    obtain ⟨hlt, -⟩ := List.getElem?_eq_some_iff.mp ho
    refine hw.update (by rw [hqueue]) ?_
    omega

theorem heard_step (hy : y.Lawful) (hm : Minified y) (hx : Presentable y x info)
    (hw : Coherent y x info remembered w) (e : Event) : Heard (step y x w e) := by
  have hback : ∀ s, (w s).heard ≤ (w s.other).queue.length := by
    intro s
    have := hw.heard s.other
    rw [Side.other_other] at this
    exact this
  cases e with
  | turn s m showOnConnect =>
    have hgoes := goes_advance hy hm hx (hw.sane s) (hw.sane s.other) m showOnConnect
    exact hw.heard.update hgoes.pace.length_le (Nat.le_trans (Nat.le_of_eq hgoes.heard) (hback s))
  | arrival s m =>
    exact (hears_deliver hy (hw.sane s) (hw.sane s.other) m).heard_update hw.heard
  | mainLoop s m => exact hw.heard.update (talks_tick m (w s)).length_le (hback s)

theorem coherent_step (hy : y.Lawful) (hm : Minified y) (hx : Presentable y x info)
    (hw : Coherent y x info remembered w) (e : Event) :
    Coherent y x info remembered (step y x w e) := by
  refine ⟨?_, heard_step hy hm hx hw e, ?_⟩
  · intro t
    have hevent := sane_event hy hm hx hw.sane e
    unfold step
    by_cases ht : t = e.side
    · rw [ht, Function.update_self]
      exact hevent
    · rw [Function.update_of_ne ht]
      exact hw.sane t
  · obtain ⟨moves, hview⟩ := view_step hy hm hx hw e
    rw [hview]
    exact Retraction.sound_run Side.other_other hw.sound moves

end Invariant

/-! ## Both get through -/

section Progress

variable {φ : Type} [FileSystem φ] {y : Yyjson} {x : Meeting} {info : Side → DeviceInfo}
  {remembered : Side → Bool} {s : Side} {w : World φ} {peer me : Party φ}

omit [FileSystem φ] in
/-- A thread that can go on does. -/
theorem Pace.togo_lt {me' : Party φ} (h : Pace remembered s peer me me')
    (hready : Ready s peer me) : me'.stage.togo < me.stage.togo := by
  cases h with
  | stays hwaits hsame => exact absurd hready hwaits
  | talks htalks htogo hlate => exact htogo
  | opens hbefore hafter htogo => omega
  | denies paired now hbelief hqueue htogo => omega

omit [FileSystem φ] in
theorem Pace.togo_le {me' : Party φ} (h : Pace remembered s peer me me') :
    me'.stage.togo ≤ me.stage.togo := by
  cases h with
  | stays hwaits hsame => rw [hsame]
  | talks htalks htogo hlate => omega
  | opens hbefore hafter htogo => omega
  | denies paired now hbelief hqueue htogo => omega

/-- A member of the peer's that is there from some stage on is missing before
that stage only. -/
theorem early_of_isNone {α : Type} {o : Option α} {n togo : Nat}
    (h : togo ≤ n → o.isSome = true) (hnone : ¬ o.isSome = true) : n < togo := by
  by_contra hle
  exact hnone (h (by omega))

/-- A thread that cannot go on waits for the line, the handshake or the
identity of its peer, which is not as far, or it is done. -/
theorem Sane.waits (h : Sane y x info remembered s me)
    (hpeer : Sane y x info remembered s.other peer) (hwaits : ¬ Ready s peer me) :
    (s = .right ∧ me.stage.togo = 14 ∧ 12 < peer.stage.togo) ∨
      (me.stage.togo = 9 ∧ 9 < peer.stage.togo) ∨ (me.stage.togo = 7 ∧ 7 < peer.stage.togo) ∨
      me.stage.togo = 0 := by
  have hstage := h.stage
  unfold Ready at hwaits
  cases hst : me.stage with
  | waiting =>
    rw [hst, not_or] at hwaits
    cases s with
    | left => exact absurd rfl hwaits.1
    | right => exact .inl ⟨rfl, rfl, early_of_isNone (hpeer.hailed rfl) hwaits.2⟩
  | discovered identity port =>
    rw [hst] at hwaits
    exact absurd trivial hwaits
  | running identity phase =>
    rw [hst] at hwaits
    cases phase with
    | created stored => exact .inr (.inl ⟨rfl, early_of_isNone hpeer.opened hwaits⟩)
    | said stored session =>
      exact .inr (.inr (.inl ⟨rfl, early_of_isNone hpeer.spoke hwaits⟩))
    | done ref => exact .inr (.inr (.inr rfl))
    | _ => exact absurd trivial hwaits
  | dropped =>
    rw [hst] at hstage
    exact hstage.elim

/-- What is still to be done by both. -/
def World.togo (w : World φ) : Nat := (w .left).stage.togo + (w .right).stage.togo

/-- They never wait for each other. -/
theorem ready_or_done (hsane : ∀ s, Sane y x info remembered s (w s)) :
    (∃ s, Ready s (w s.other) (w s)) ∨ w.togo = 0 := by
  by_cases hready : ∃ s, Ready s (w s.other) (w s)
  · exact .inl hready
  · refine .inr ?_
    have hstuck : ∀ s, ¬ Ready s (w s.other) (w s) := fun s h => hready ⟨s, h⟩
    have hleft := (hsane .left).waits (hsane .right) (hstuck .left)
    have hright := (hsane .right).waits (hsane .left) (hstuck .right)
    have hleft' := hleft.resolve_left fun h => by cases h.1
    unfold World.togo
    omega

/-- A turn of the thread of one of them. -/
def Event.TurnOf (s : Side) (e : Event) : Prop := ∃ m showOnConnect, e = .turn s m showOnConnect

/-- A round: both threads get a turn, in whatever order and among whatever
else. -/
def Round (events : List Event) : Prop := ∀ s, ∃ e ∈ events, e.TurnOf s

/-- Where the thread stands after an event that is no turn of its. -/
theorem stage_event (y : Yyjson) (x : Meeting) (w : World φ) (e : Event)
    (h : ¬ e.TurnOf e.side) : (e.party y x w).stage = (w e.side).stage := by
  cases e with
  | turn s m showOnConnect => exact absurd ⟨m, showOnConnect, rfl⟩ h
  | arrival s m => exact deliver_stage y m (w s.other) (w s)
  | mainLoop s m => rfl

theorem keeps_event (hy : y.Lawful) (hm : Minified y) (hx : Presentable y x info)
    (hsane : ∀ s, Sane y x info remembered s (w s)) (e : Event) :
    Keeps (w e.side) (e.party y x w) := by
  cases e with
  | turn s m showOnConnect =>
    exact (goes_advance hy hm hx (hsane s) (hsane s.other) m showOnConnect).keeps
  | arrival s m =>
    change Keeps (w s) (deliver y m (w s.other) (w s))
    unfold deliver
    split
    · exact ⟨id, id, id⟩
    · exact ⟨id, id, id⟩
  | mainLoop s m => exact ⟨id, id, id⟩

omit [FileSystem φ] in
/-- A thread that can go on still can when its peer goes on. -/
theorem Ready.keeps {peer' me' : Party φ} (h : Ready s peer me) (hstage : me'.stage = me.stage)
    (hk : Keeps peer peer') : Ready s peer' me' := by
  unfold Ready at h ⊢
  rw [hstage]
  cases hst : me.stage with
  | waiting =>
    rw [hst] at h
    exact h.imp_right hk.hail
  | discovered identity port => trivial
  | running identity phase =>
    rw [hst] at h
    cases phase with
    | created stored => exact hk.tls h
    | said stored session => exact hk.said h
    | done ref => exact h
    | _ => trivial
  | dropped =>
    rw [hst] at h
    exact h

theorem ready_step (hy : y.Lawful) (hm : Minified y) (hx : Presentable y x info)
    (hsane : ∀ s, Sane y x info remembered s (w s)) (hready : Ready s (w s.other) (w s))
    (e : Event) (he : ¬ e.TurnOf s) : Ready s (step y x w e s.other) (step y x w e s) := by
  unfold step
  rcases Side.eq_or_other e.side s with rfl | rfl
  · rw [Function.update_self, Function.update_of_ne e.side.other_ne]
    exact hready.keeps (stage_event y x w e he) ⟨id, id, id⟩
  · rw [Side.other_other, Function.update_self, Function.update_of_ne e.side.other_ne]
    rw [Side.other_other] at hready
    exact hready.keeps rfl (keeps_event hy hm hx hsane e)

/-- No event sets a thread back. -/
theorem togo_event (hy : y.Lawful) (hm : Minified y) (hx : Presentable y x info)
    (hsane : ∀ s, Sane y x info remembered s (w s)) (e : Event) :
    (e.party y x w).stage.togo ≤ (w e.side).stage.togo := by
  cases e with
  | turn s m showOnConnect =>
    exact (goes_advance hy hm hx (hsane s) (hsane s.other) m showOnConnect).pace.togo_le
  | arrival s m =>
    change (deliver y m (w s.other) (w s)).stage.togo ≤ (w s).stage.togo
    rw [deliver_stage]
  | mainLoop s m => exact Nat.le_refl _

omit [FileSystem φ] in
theorem togo_update (w : World φ) (s : Side) (p : Party φ) :
    World.togo (Function.update w s p) + (w s).stage.togo = w.togo + p.stage.togo := by
  cases s with
  | left =>
    unfold World.togo
    rw [Function.update_self, Function.update_of_ne (by decide)]
    omega
  | right =>
    unfold World.togo
    rw [Function.update_self, Function.update_of_ne (by decide)]
    omega

theorem togo_step (hy : y.Lawful) (hm : Minified y) (hx : Presentable y x info)
    (hsane : ∀ s, Sane y x info remembered s (w s)) (e : Event) :
    World.togo (step y x w e) ≤ w.togo := by
  have hevent := togo_event hy hm hx hsane e
  have hsum := togo_update w e.side (e.party y x w)
  unfold step
  omega

/-- The turn of a thread that can go on brings both nearer. -/
theorem togo_turn (hy : y.Lawful) (hm : Minified y) (hx : Presentable y x info)
    (hsane : ∀ s, Sane y x info remembered s (w s)) (hready : Ready s (w s.other) (w s))
    {e : Event} (he : e.TurnOf s) : World.togo (step y x w e) < w.togo := by
  obtain ⟨m, showOnConnect, rfl⟩ := he
  have hlt := (goes_advance hy hm hx (hsane s) (hsane s.other) m showOnConnect).pace.togo_lt hready
  have hsum := togo_update w s (advance y x m showOnConnect s (w s.other) (w s))
  change World.togo (Function.update w s (advance y x m showOnConnect s (w s.other) (w s))) < w.togo
  omega

/-- A round brings both nearer. -/
theorem togo_round (hy : y.Lawful) (hm : Minified y) (hx : Presentable y x info)
    (hw : Coherent y x info remembered w) {events : List Event} (hround : Round events)
    (htogo : w.togo ≠ 0) : World.togo (run (step y x) w events) < w.togo := by
  obtain ⟨s, hready⟩ := (ready_or_done hw.sane).resolve_right htogo
  exact rank_run_lt (P := Coherent y x info remembered) (fun w => Ready s (w s.other) (w s))
    (Event.TurnOf s) (fun _ e hw => coherent_step hy hm hx hw e)
    (fun _ e hw => togo_step hy hm hx hw.sane e)
    (fun _ e hw hready he => togo_turn hy hm hx hw.sane hready he)
    (fun _ e hw hready he => ready_step hy hm hx hw.sane hready e he) hw hready (hround s)

end Progress

/-! ## The exchange -/

section Exchange

variable {φ : Type} [FileSystem φ]

/-- Each device as it describes itself. -/
def World.info (w : World φ) (s : Side) : DeviceInfo := (w s).client.localDevice

/-- Whether the store of a device has an entry for its peer. -/
def World.remembers (y : Yyjson) (w : World φ) (s : Side) : Bool :=
  ((w s).client.storage.entry y (w.info s.other).id).isSome

/-- Before the exchange: no live session with the peer, nothing sent, and
whichever store has an entry for the peer has the peer's certificate in it. -/
structure Starting (y : Yyjson) (x : Meeting) (w : World φ) : Prop where
  presentable : Presentable y x w.info
  tcpPort : ∀ s, (w s).client.tcpPort = x.tcpPort s
  fresh : ∀ s, w s = { client := (w s).client }
  below : ∀ s, Below w.info s (w s).client
  ended : ∀ s ref, (w s).client.device (w.info s.other).id = some ref →
    ((w s).client.heap ref).disconnected = true
  certPem : ∀ s entry, (w s).client.storage.entry y (w.info s.other).id = some entry →
    entry.certificatePem = x.certPem s.other

/-- The thread of a device has got through with a session. -/
def Party.Done (ref : Nat) (p : Party φ) : Prop :=
  ∃ identity, p.stage = .running identity (.done ref)

/-- What the exchange comes to, from devices as they were before it. -/
structure Met (y : Yyjson) (before w : World φ) : Prop where
  goesOn : ∀ s, (w s).stage ≠ .dropped
  roles : (∀ s, ∃ ref, (w s).Done ref) → ∃ e e', (w .left).tls = some e ∧
    (w .right).tls = some e' ∧ e.isClient = !e'.isClient
  installed : ∀ s ref, (w s).Done ref →
    (w s).client.device (before.info s.other).id = some ref ∧
      ((w s).client.heap ref).info = before.info s.other ∧
        ((w s).client.heap ref).disconnected = false
  /-- Once no pair packet is on its way. -/
  agreed : ∀ ref : Side → Nat, (∀ s, (w s).Done (ref s)) →
    (∀ s, ∀ o ∈ (w s).queue.drop (w s.other).heard, o.packet.type ≠ PacketTypes.pair) →
      ∀ s, ((w s).client.heap (ref s)).paired =
        (before.remembers y s && before.remembers y s.other)

variable {y : Yyjson} {x : Meeting} {w before : World φ}

/-- Devices that have not begun are coherent. -/
theorem Starting.coherent (h : Starting y x w) :
    Coherent y x w.info (w.remembers y) w := by
  have hstage : ∀ s, (w s).stage = .waiting := fun s => by rw [h.fresh s]
  have hsane : ∀ s, Sane y x w.info (w.remembers y) s (w s) := by
    intro s
    have hunmet : Unmet y x w.info (w.remembers y) s (w s).client :=
      ⟨h.below s, h.ended s, rfl, h.certPem s⟩
    have hhail : (w s).hail = none := by rw [h.fresh s]
    have htls : (w s).tls = none := by rw [h.fresh s]
    have hsaid : (w s).said = none := by rw [h.fresh s]
    have htogo : (w s).stage.togo = 14 := by
      rw [hstage s]
      rfl
    refine ⟨rfl, ?_, ?_, fun _ hle => by omega, ?_, fun hle => by omega, ?_, fun hle => by omega⟩
    · rw [hstage s]
      exact hunmet
    · rw [hhail]
      exact fun _ hline => by cases hline
    · rw [htls]
      exact fun _ he => by cases he
    · rw [hsaid]
      exact fun _ htext => by cases htext
  have hqueue : ∀ s, (w s).queue = [] := by
    intro s
    rw [Party.queue, hstage s]
    rfl
  refine ⟨hsane, ?_, ?_⟩
  · intro s
    rw [h.fresh s.other]
    exact Nat.zero_le _
  · have hview : view w = {} := by
      unfold view
      rw [Retraction.Ends.mk.injEq]
      refine ⟨?_, ?_, ?_⟩
      · funext s
        rw [Party.belief, hstage s]
        rfl
      · funext s
        rw [hstage s]
        rfl
      · funext s
        rw [hqueue s, List.drop_nil]
        rfl
    rw [hview]
    exact Retraction.sound_start _ _

omit [FileSystem φ] in
theorem Party.Done.ref? {ref : Nat} {p : Party φ} (h : p.Done ref) :
    p.stage.ref? = some ref ∧ p.stage.togo = 0 := by
  obtain ⟨identity, hst⟩ := h
  rw [hst]
  exact ⟨rfl, rfl⟩

/-- Coherent devices are on the way to what the exchange comes to. -/
theorem Coherent.met (h : Coherent y x before.info (before.remembers y) w) : Met y before w := by
  refine ⟨?_, ?_, ?_, ?_⟩
  · intro s hdropped
    have hstage := (h.sane s).stage
    rw [hdropped] at hstage
    exact hstage
  · intro hdone
    have hopened : ∀ s, ∃ e, (w s).tls = some e := by
      intro s
      obtain ⟨ref, hdone⟩ := hdone s
      have htogo := hdone.ref?.2
      exact Option.isSome_iff_exists.mp ((h.sane s).opened (by omega))
    obtain ⟨e, he⟩ := hopened .left
    obtain ⟨e', he'⟩ := hopened .right
    exact ⟨e, e', he, he', roles_peer (h.sane .left) (h.sane .right) he he'⟩
  · rintro s ref ⟨identity, hst⟩
    have hstage := (h.sane s).stage
    rw [hst] at hstage
    obtain ⟨-, hholds, hdevice⟩ := hstage
    exact ⟨hdevice, hholds.info, hholds.connected⟩
  · intro ref hdone hquiet s
    have hspoken : ∀ s, (view w).spoken s = true := by
      intro s
      have htogo := (hdone s).ref?.2
      exact decide_eq_true (by omega)
    have hnone : ∀ s, true ∉ (view w).wire s := by
      intro s hm
      obtain ⟨o, ho, hdenial⟩ := List.mem_map.mp hm
      exact hquiet s o ho (beq_iff_eq.mp hdenial)
    have hagreed := h.sound.agreed Side.other_other (s := s) ⟨hspoken s, hspoken s.other⟩
      ⟨hnone s, hnone s.other⟩
    have hbelief : (view w).belief s = some ((w s).client.heap (ref s)).paired := by
      change (w s).belief = _
      rw [Party.belief, (hdone s).ref?.1, Option.map_some]
    rw [hbelief] at hagreed
    exact Option.some.inj hagreed

omit [FileSystem φ] in
theorem done_of_togo {p : Party φ} (h : p.stage.togo = 0) : ∃ ref, p.Done ref := by
  cases hst : p.stage with
  | waiting =>
    rw [hst] at h
    cases h
  | discovered identity port =>
    rw [hst] at h
    cases h
  | running identity phase =>
    rw [hst] at h
    cases phase <;> cases h
    exact ⟨_, identity, hst⟩
  | dropped =>
    rw [hst] at h
    cases h

/-- Two devices that find each other connect and agree: whatever the order of
their steps, no attempt fails, both ends are in opposite roles, each that is
done serves a session of the other, and once they are both done and all is
delivered both or neither takes the other for paired. They do get done. -/
theorem established (hy : y.Lawful) (hm : Minified y) (hstart : Starting y x w) :
    (∀ events, Always (step y x) (Met y w) w events) ∧
      ∀ rounds : List (List Event), (∀ events ∈ rounds, Round events) → 28 ≤ rounds.length →
        ∀ s, ∃ ref, (run (step y x) w rounds.flatten s).Done ref := by
  have hx := hstart.presentable
  have hinv : ∀ (v : World φ) e, Coherent y x w.info (w.remembers y) v →
      Coherent y x w.info (w.remembers y) (step y x v e) :=
    fun _ e hv => coherent_step hy hm hx hv e
  constructor
  · intro events
    exact (always_of_step hinv hstart.coherent events).imp fun _ hv => hv.met
  · intro rounds hrounds hmany s
    have htogo : w.togo = 28 := by
      unfold World.togo
      rw [hstart.fresh .left, hstart.fresh .right]
      rfl
    have hround : ∀ (v : World φ) events, Coherent y x w.info (w.remembers y) v → Round events →
        World.togo v ≠ 0 → World.togo (run (step y x) v events) < World.togo v :=
      fun _ _ hv hround hne => togo_round hy hm hx hv hround hne
    have hle : ∀ (v : World φ) e, Coherent y x w.info (w.remembers y) v →
        World.togo (step y x v e) ≤ World.togo v :=
      fun _ e hv => togo_step hy hm hx hv.sane e
    have hend := rank_rounds_eq_zero hinv hround hle hstart.coherent hrounds (by omega)
    refine done_of_togo ?_
    unfold World.togo at hend
    cases s <;> omega

end Exchange

/-! ## A console and a phone -/

def console : DeviceInfo where
  id := "0a"
  name := "console"
  type := "tv"
  incomingCapabilities := ["kdeconnect.ping", "kdeconnect.share.request"]
  outgoingCapabilities := ["kdeconnect.battery"]

/-- The console remembers the phone, which has forgotten it. -/
def apart : World MemoryFiles
  | .left =>
    { client :=
        { storage := Connection.phoneStored.storage, localDevice := console, tcpPort := 1716 } }
  | .right =>
    { client :=
        { storage := ⟨"/config/kdeconnect", {}⟩, localDevice := RecordStream.phone
          tcpPort := 1716 } }

def meeting : Meeting where
  tls := .reference
  datagram s :=
    (makeIdentityPacket (apart.info s) none none (some 1716)).serialize Yyjson.reference 0
  certPem
    | .left => "console certificate"
    | .right => "phone certificate"
  tcpPort _ := 1716

theorem apart_presentable : Presentable Yyjson.reference meeting apart.info where
  tls := Tls.reference_lawful
  plain := by
    intro s
    cases s <;> exact ⟨by decide, by decide, by decide, by decide, by decide⟩
  id_ne := by
    intro s
    cases s <;> decide
  distinct := by
    intro s
    cases s <;> decide
  version := by
    intro s
    cases s <;> rfl
  certPem := by
    intro s
    cases s <;> decide
  datagram := fun _ => ⟨0, none, rfl⟩
  short := by
    intro s
    cases s
    · decide +kernel
    · decide +kernel

theorem apart_starting : Starting Yyjson.reference meeting apart where
  presentable := apart_presentable
  tcpPort := by
    intro s
    cases s <;> rfl
  fresh := by
    intro s
    cases s <;> rfl
  below := by
    intro s ref h
    cases s <;> cases h
  ended := by
    intro s ref h
    cases s <;> cases h
  certPem := by
    intro s entry hentry
    cases s with
    | left =>
      obtain ⟨stored, hstored, hpem⟩ := phoneStored_entry
      rw [← Option.some.inj (hstored.symm.trans hentry), hpem]
      rfl
    | right =>
      have hnone : (apart .right).client.storage.entry Yyjson.reference console.id = none := rfl
      cases hnone.symm.trans hentry

/-- Both threads in turn. -/
def bothTurns : List Event :=
  [.turn .left (UnpairedSends.atCharge 0 80) true, .turn .right (UnpairedSends.atCharge 0 80) true]

/-- They meet. -/
theorem established_apart :
    Met Yyjson.reference apart
        (run (step Yyjson.reference meeting) apart (List.replicate 28 bothTurns).flatten) ∧
      ∃ ref, (run (step Yyjson.reference meeting) apart
        (List.replicate 28 bothTurns).flatten .left).Done ref := by
  obtain ⟨halways, hdone⟩ :=
    established Yyjson.reference_lawful minified_reference apart_starting
  have hround : Round bothTurns := by
    intro s
    cases s with
    | left => exact ⟨_, List.mem_cons_self, _, _, rfl⟩
    | right => exact ⟨_, List.mem_cons_of_mem _ List.mem_cons_self, _, _, rfl⟩
  refine ⟨(halways _).last, hdone _ ?_ ?_ .left⟩
  · intro events hevents
    rw [List.eq_of_mem_replicate hevents]
    exact hround
  · rw [List.length_replicate]

end KdeConnectNx.Establishment
