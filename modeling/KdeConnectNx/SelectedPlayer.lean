import KdeConnectNx.Plugins
import KdeConnectNx.Runs

/-!
# The selected player

A device lists its media players and reports of all of them; the plugin follows
the first of the list and passes the reports of others over. The clock is read
twice in a report, once against the seek lock and once for the new position, and
twice in a local seek.
-/

namespace KdeConnectNx.SelectedPlayer

open JsonTree PacketBody PacketFormat Plugins Plugins.MprisPlugin Runs

inductive Event where
  /-- A packet, with the readings that test the seek lock and date a position. -/
  | packet (np : NetworkPacket) (test stamp : Int64)
  /-- `set_position`, with the readings that date it and set the lock. -/
  | setPosition (positionMs stamp lockFrom : Int64)

/-- The members of a status packet that are there replace the old values. -/
def takeStatus (test stamp seekLock : Int64) (body : JsonBody) (s : PlayerState) : PlayerState :=
  { PlayerState.update test seekLock body s with
    lastPositionTimeMs :=
      if takesPosition test seekLock body then stamp else s.lastPositionTimeMs }

/-- `on_packet_received`, without what it sends. -/
def onPacketReceived (test stamp : Int64) (np : NetworkPacket) (p : MprisPlugin) : MprisPlugin :=
  if np.type ≠ PacketTypes.mpris then p
  else if np.body.has "playerList" then
    let players := np.body.getStrArray "playerList"
    let p := { p with playerList := players }
    match players with
    | [] => p
    | first :: _ =>
      if first ≠ p.currentPlayer then
        { p with currentPlayer := first, state := {}, seekLockUntilMs := 0 }
      else p
  else if np.body.isStr "player" then
    let player := np.body.getStr "player"
    if !p.currentPlayer.isEmpty && player != p.currentPlayer then p
    else { p with state := takeStatus test stamp p.seekLockUntilMs np.body p.state }
  else p

def setPosition (positionMs stamp lockFrom : Int64) (p : MprisPlugin) : MprisPlugin :=
  { p with
    state := { p.state with position := positionMs, lastPositionTimeMs := stamp }
    seekLockUntilMs := lockFrom + 500 }

/-- `player_state`: the position goes on while the player plays. -/
def playerState (now : Int64) (p : MprisPlugin) : PlayerState :=
  let s := p.state
  if s.isPlaying && decide (0 < s.lastPositionTimeMs) then
    let position := s.position + (now - s.lastPositionTimeMs)
    { s with position := if 0 < s.length then min position s.length else position }
  else s

def step (p : MprisPlugin) : Event → MprisPlugin
  | .packet np test stamp => onPacketReceived test stamp np p
  | .setPosition positionMs stamp lockFrom => setPosition positionMs stamp lockFrom p

/-- The packet has a list of players. -/
def lists (np : NetworkPacket) : Bool := np.type == PacketTypes.mpris && np.body.has "playerList"

/-- The list has another player in front than the one that is followed. -/
def selects (p : MprisPlugin) (np : NetworkPacket) : Bool :=
  lists np && (np.body.getStrArray "playerList").head?.any fun first => first != p.currentPlayer

/-- The packet has the status of the player that is followed, or of any player
while that one has no name. -/
def follows (p : MprisPlugin) (np : NetworkPacket) : Bool :=
  np.type == PacketTypes.mpris && !np.body.has "playerList" && np.body.isStr "player" &&
    (p.currentPlayer.isEmpty || np.body.getStr "player" == p.currentPlayer)

/-- What a packet does to the plugin. -/
inductive Received (p : MprisPlugin) (test stamp : Int64) (np : NetworkPacket) :
    MprisPlugin → Prop where
  | selected (first : String) (players : List String) (h : selects p np = true)
    (hplayers : np.body.getStrArray "playerList" = first :: players) :
    Received p test stamp np
      { playerList := first :: players, currentPlayer := first, state := {}, seekLockUntilMs := 0 }
  | listed (h : lists np = true) (hselects : selects p np = false) :
    Received p test stamp np { p with playerList := np.body.getStrArray "playerList" }
  | followed (h : follows p np = true) :
    Received p test stamp np
      { p with state := takeStatus test stamp p.seekLockUntilMs np.body p.state }
  | passed (hlists : lists np = false) (hfollows : follows p np = false) :
    Received p test stamp np p

theorem lists_of_selects {p : MprisPlugin} {np : NetworkPacket} (h : selects p np = true) :
    lists np = true := by
  rw [selects, Bool.and_eq_true] at h
  exact h.1

theorem selects_of_not_lists {np : NetworkPacket} (h : lists np = false) (p : MprisPlugin) :
    selects p np = false := by
  rw [selects, h, Bool.false_and]

theorem follows_of_lists {np : NetworkPacket} (h : lists np = true) (p : MprisPlugin) :
    follows p np = false := by
  rw [lists, Bool.and_eq_true] at h
  rw [follows, h.2, Bool.not_true, Bool.and_false, Bool.false_and, Bool.false_and]

/-- No packet is a list and a status. -/
theorem selects_of_follows {p : MprisPlugin} {np : NetworkPacket} (h : follows p np = true) :
    selects p np = false := by
  by_contra hselects
  rw [follows_of_lists (lists_of_selects (eq_true_of_ne_false hselects))] at h
  cases h

theorem received (p : MprisPlugin) (test stamp : Int64) (np : NetworkPacket) :
    Received p test stamp np (onPacketReceived test stamp np p) := by
  unfold onPacketReceived
  by_cases htype : np.type = PacketTypes.mpris
  · have htrue : (np.type == PacketTypes.mpris) = true := beq_iff_eq.mpr htype
    rw [if_neg (not_not_intro htype)]
    cases hhas : np.body.has "playerList" with
    | true =>
      have hlists : lists np = true := by
        rw [lists, htrue, hhas]
        rfl
      rw [if_pos rfl]
      dsimp only
      cases hplayers : np.body.getStrArray "playerList" with
      | nil =>
        have hselects : selects p np = false := by
          rw [selects, hplayers, List.head?_nil, Option.any_none, Bool.and_false]
        have hlisted : Received p test stamp np
            { p with playerList := np.body.getStrArray "playerList" } := .listed hlists hselects
        rw [hplayers] at hlisted
        exact hlisted
      | cons first players =>
        have hselects : selects p np = (first != p.currentPlayer) := by
          rw [selects, hlists, hplayers, List.head?_cons, Option.any_some, Bool.true_and]
        dsimp only
        split
        · rename_i hother
          exact .selected first players (hselects.trans (bne_iff_ne.mpr hother)) hplayers
        · rename_i hsame
          rw [bne_eq_false_iff_eq.mpr (not_not.mp hsame)] at hselects
          have hlisted : Received p test stamp np
            { p with playerList := np.body.getStrArray "playerList" } := .listed hlists hselects
          rw [hplayers] at hlisted
          exact hlisted
    | false =>
      have hlists : lists np = false := by rw [lists, hhas, Bool.and_false]
      have hfollows : follows p np = (np.body.isStr "player" &&
          (p.currentPlayer.isEmpty || np.body.getStr "player" == p.currentPlayer)) := by
        rw [follows, htrue, hhas]
        rfl
      have hdiffers : (!p.currentPlayer.isEmpty && np.body.getStr "player" != p.currentPlayer) =
          !(p.currentPlayer.isEmpty || np.body.getStr "player" == p.currentPlayer) := by
        rw [Bool.not_or]
        rfl
      rw [if_neg Bool.false_ne_true]
      dsimp only
      rw [hdiffers]
      split
      · rename_i hstr
        rw [hstr, Bool.true_and] at hfollows
        rw [← hfollows]
        cases hf : follows p np with
        | true => exact .followed hf
        | false => exact .passed hlists hf
      · rename_i hstr
        rw [eq_false_of_ne_true hstr, Bool.false_and] at hfollows
        exact .passed hlists hfollows
  · have hfalse : (np.type == PacketTypes.mpris) = false := beq_eq_false_iff_ne.mpr htype
    rw [if_pos htype]
    refine .passed ?_ ?_
    · rw [lists, hfalse, Bool.false_and]
    · rw [follows, hfalse, Bool.false_and, Bool.false_and, Bool.false_and]

/-- A status of the followed player. -/
theorem onPacketReceived_of_follows {p : MprisPlugin} {np : NetworkPacket}
    (h : follows p np = true) (test stamp : Int64) :
    onPacketReceived test stamp np p =
      { p with state := takeStatus test stamp p.seekLockUntilMs np.body p.state } := by
  have hreceived := received p test stamp np
  generalize onPacketReceived test stamp np p = q at hreceived ⊢
  cases hreceived with
  | selected first players hselects =>
    rw [selects_of_follows h] at hselects
    cases hselects
  | listed hlists =>
    rw [follows_of_lists hlists] at h
    cases h
  | followed => rfl
  | passed hlists hfollows =>
    rw [hfollows] at h
    cases h

/-- A list with another player in front leaves nothing of the state. -/
theorem state_of_selects {p : MprisPlugin} {np : NetworkPacket} (h : selects p np = true)
    (test stamp : Int64) : (onPacketReceived test stamp np p).state = {} := by
  have hreceived := received p test stamp np
  generalize onPacketReceived test stamp np p = q at hreceived ⊢
  cases hreceived with
  | selected => rfl
  | listed hlists hselects =>
    rw [hselects] at h
    cases h
  | followed hfollows =>
    rw [selects_of_follows hfollows] at h
    cases h
  | passed hlists =>
    rw [selects_of_not_lists hlists] at h
    cases h

/-- Other packets leave all of it. -/
theorem state_of_other {p : MprisPlugin} {np : NetworkPacket} (hselects : selects p np = false)
    (hfollows : follows p np = false) (test stamp : Int64) :
    (onPacketReceived test stamp np p).state = p.state := by
  have hreceived := received p test stamp np
  generalize onPacketReceived test stamp np p = q at hreceived ⊢
  cases hreceived with
  | selected first players h =>
    rw [hselects] at h
    cases h
  | listed => rfl
  | followed h =>
    rw [hfollows] at h
    cases h
  | passed => rfl

/-- With one reading for both, this is what the plugin keeps. -/
theorem onPacketReceived_nowMs (env : PluginEnv) (np : NetworkPacket) (p : MprisPlugin) :
    onPacketReceived env.nowMs env.nowMs np p = (p.onPacketReceived env np).1 := by
  unfold onPacketReceived MprisPlugin.onPacketReceived
  split
  · rfl
  · split
    · cases np.body.getStrArray "playerList" with
      | nil => rfl
      | cons first players =>
        dsimp only
        split <;> rfl
    · split
      · dsimp only
        split <;> rfl
      · rfl

/-- A status packet of another player than the one that is followed. -/
def differs (p : MprisPlugin) : Event → Bool
  | .packet np _ _ => np.type == PacketTypes.mpris && !np.body.has "playerList" &&
    np.body.getStr "player" != p.currentPlayer
  | .setPosition _ _ _ => false

/-- Such a packet while a player with a name is followed. -/
def foreign (p : MprisPlugin) (e : Event) : Bool := !p.currentPlayer.isEmpty && differs p e

/-- What the plugin shows of its players, whenever it is asked. -/
structure SameShown (p q : MprisPlugin) : Prop where
  playerList : p.playerList = q.playerList
  currentPlayer : p.currentPlayer = q.currentPlayer
  seekLock : p.seekLockUntilMs = q.seekLockUntilMs
  playerState : ∀ now, playerState now p = playerState now q

/-- A packet of another player is passed over before anything is read of it. -/
theorem step_foreign (p : MprisPlugin) (e : Event) (h : foreign p e = true) : step p e = p := by
  unfold foreign at h
  rw [Bool.and_eq_true] at h
  obtain ⟨hnamed, hdiffers⟩ := h
  cases e with
  | packet np test stamp =>
    simp only [differs, Bool.and_eq_true, beq_iff_eq, Bool.not_eq_true'] at hdiffers
    obtain ⟨⟨htype, hlist⟩, hplayer⟩ := hdiffers
    unfold step onPacketReceived
    dsimp only
    rw [if_neg (not_not_intro htype), hlist, hnamed, hplayer]
    split
    · contradiction
    · split <;> rfl
  | setPosition positionMs stamp lockFrom => cases hdiffers

/-- A list with another player in front starts that player anew. -/
theorem step_selects {p : MprisPlugin} {np : NetworkPacket} {first : String}
    {players : List String} (htype : np.type = PacketTypes.mpris)
    (hlist : np.body.has "playerList" = true)
    (hplayers : np.body.getStrArray "playerList" = first :: players)
    (hfirst : first ≠ p.currentPlayer) (test stamp : Int64) :
    step p (.packet np test stamp) =
      { playerList := first :: players, currentPlayer := first, state := {},
        seekLockUntilMs := 0 } := by
  unfold step onPacketReceived
  dsimp only
  rw [if_neg (not_not_intro htype), if_pos hlist, hplayers]
  exact if_pos hfirst

/-- Over every sequence of packets, seeks and readings of the clock, from every
state: without the packets of other players than the named one that is followed
the plugin shows the same at every moment, and a list that changes the player in
front leaves nothing of the state and the seek lock. -/
theorem undisturbed (s : MprisPlugin) (events : List Event) :
    (∀ before after, events = before ++ after →
      ∃ rest, kept step foreign s events = kept step foreign s before ++ rest ∧
        SameShown (run step s (kept step foreign s before)) (run step s before)) ∧
    (∀ before after np test stamp first players,
      events = before ++ .packet np test stamp :: after →
      np.type = PacketTypes.mpris → np.body.has "playerList" = true →
      np.body.getStrArray "playerList" = first :: players →
      first ≠ (run step s before).currentPlayer →
      run step s (before ++ [.packet np test stamp]) =
        { playerList := first :: players, currentPlayer := first, state := {},
          seekLockUntilMs := 0 }) := by
  constructor
  · rintro before after rfl
    refine ⟨_, kept_append step foreign s before after, ?_⟩
    rw [run_kept step_foreign]
    exact ⟨rfl, rfl, rfl, fun _ => rfl⟩
  · intro before after np test stamp first players _ htype hlist hplayers hfirst
    rw [run_append, run_cons, run_nil]
    exact step_selects htype hlist hplayers hfirst test stamp

/-- A list whose only player has no name. -/
def unnamedList : NetworkPacket where
  type := PacketTypes.mpris
  body := ({} : JsonBody).setStrArray "playerList" [""]

/-- The title of a player that is not on it. -/
def titlePacket : NetworkPacket where
  type := PacketTypes.mpris
  body := (({} : JsonBody).setStr "player" "spotify").setStr "title" "Intro"

/-- With no name to compare, the title of the other player is shown. -/
theorem disturbed_unnamed :
    ¬ ∀ (s : MprisPlugin) (events : List Event), s.currentPlayer ≠ "" →
      SameShown (run step s (kept step differs s events)) (run step s events) := by
  intro h
  have hshown := (h { currentPlayer := "vlc" }
    [.packet unnamedList 0 0, .packet titlePacket 0 0] (by decide)).playerState 0
  have htitle : ("" : String) = "Intro" := congrArg PlayerState.title hshown
  exact absurd htitle (by decide)

end KdeConnectNx.SelectedPlayer
