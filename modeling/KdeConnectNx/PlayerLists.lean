import KdeConnectNx.Identifiers
import KdeConnectNx.SelectedPlayer

/-!
# Lists of players

The plugin follows the first player of the last list, and the overlay asks for that
player and acts on it. Beside the plugin the last list is kept.
-/

namespace KdeConnectNx.PlayerLists

open Identifiers JsonText JsonTree PacketBody PacketFormat Plugins Runs
open Plugins.MprisPlugin hiding onPacketReceived
open SelectedPlayer hiding Event step

/-! ## What the overlay asks -/

inductive KdecMediaAction where
  | play
  | pause
  | playPause
  | stop
  | next
  | previous
  | setVolume
  | seek
  | setPosition
  deriving DecidableEq

/-- The action a byte stands for; others are passed over. -/
def KdecMediaAction.ofByte (byte : UInt8) : Option KdecMediaAction :=
  [play, pause, playPause, stop, next, previous, setVolume, seek, setPosition][byte.toNat]?

/-- The entry with the texts cut to their arrays. -/
structure KdecMediaInfo where
  deviceId : List UInt8
  player : List UInt8
  title : List UInt8
  artist : List UInt8
  album : List UInt8
  position : Int64
  length : Int64
  volume : Int32
  isPlaying : Bool
  canPlay : Bool
  canPause : Bool
  canGoNext : Bool
  canGoPrevious : Bool
  canSeek : Bool
  albumArtHash : List UInt8

/-- Size of the arrays of texts, and of the one of a hash. -/
def kTextMax : Nat := 256
def kHashMax : Nat := 17

def mediaInfo (deviceId player : String) (s : PlayerState) : KdecMediaInfo where
  deviceId := charArray kIdMax (utf8 deviceId.toList)
  player := charArray kTextMax (utf8 player.toList)
  title := charArray kTextMax (utf8 s.title.toList)
  artist := charArray kTextMax (utf8 s.artist.toList)
  album := charArray kTextMax (utf8 s.album.toList)
  position := s.position
  length := s.length
  volume := s.volume
  isPlaying := s.isPlaying
  canPlay := s.canPlay
  canPause := s.canPause
  canGoNext := s.canGoNext
  canGoPrevious := s.canGoPrevious
  canSeek := s.canSeek && decide (0 < s.length)
  albumArtHash := charArray kHashMax (utf8 s.albumArtHash.toList)

/-- `GetMediaInfo` of a device with a session; none where no player is found. -/
def getMediaInfo (deviceId : String) (now : Int64) (p : MprisPlugin) : Option KdecMediaInfo :=
  if p.currentPlayer.isEmpty then none
  else some (mediaInfo deviceId p.currentPlayer (playerState now p))

/-- The request an action sends: `send_action`, `set_volume`, `seek` or
`set_position`. -/
def actionRequest (player : String) (value : Int64) (action : KdecMediaAction) : NetworkPacket where
  type := PacketTypes.mprisRequest
  body :=
    let body := ({} : JsonBody).setStr "player" player
    match action with
    | .play => body.setStr "action" "Play"
    | .pause => body.setStr "action" "Pause"
    | .playPause => body.setStr "action" "PlayPause"
    | .stop => body.setStr "action" "Stop"
    | .next => body.setStr "action" "Next"
    | .previous => body.setStr "action" "Previous"
    | .setVolume => body.setInt "setVolume" value.toInt32
    | .seek => body.setI64 "Seek" (value * 1000)
    | .setPosition => body.setI64 "SetPosition" value

/-- `SendMediaAction` to a device with a session: the request that is sent, and the
plugin after it. -/
def sendMediaAction (byte : UInt8) (value stamp lockFrom : Int64) (p : MprisPlugin) :
    Option NetworkPacket × MprisPlugin :=
  if p.currentPlayer.isEmpty then (none, p)
  else
    let action := KdecMediaAction.ofByte byte
    (action.map (actionRequest p.currentPlayer value),
      if action = some .setPosition then setPosition value stamp lockFrom p else p)

/-! ## Packets and calls -/

inductive Event where
  | packet (np : NetworkPacket) (test stamp : Int64)
  | getMediaInfo (deviceId : String) (now : Int64)
  | sendMediaAction (byte : UInt8) (value stamp lockFrom : Int64)

/-- The plugin, and the last list of players that came. -/
structure World where
  plugin : MprisPlugin := {}
  latest : List String := []

def players (np : NetworkPacket) : List String := np.body.getStrArray "playerList"

def step (w : World) : Event → World
  | .packet np test stamp =>
    ⟨onPacketReceived test stamp np w.plugin, if lists np then players np else w.latest⟩
  | .getMediaInfo _ _ => w
  | .sendMediaAction byte value stamp lockFrom =>
    { w with plugin := (sendMediaAction byte value stamp lockFrom w.plugin).2 }

/-- A list makes its first player the one that is followed, and none if it has none;
nothing else changes it. -/
def FollowsList (w : World) (e : Event) : Prop :=
  (step w e).plugin.currentPlayer =
    match e with
    | .packet np _ _ => if lists np then (players np).headD "" else w.plugin.currentPlayer
    | .getMediaInfo _ _ => w.plugin.currentPlayer
    | .sendMediaAction _ _ _ _ => w.plugin.currentPlayer

/-- The overlay is only told of players of the last list, and acts on no others. -/
def OnlyListed (w : World) : Event → Prop
  | .packet _ _ _ => True
  | .getMediaInfo deviceId now => ∀ info, getMediaInfo deviceId now w.plugin = some info →
    ∃ player ∈ w.latest, info = mediaInfo deviceId player (playerState now w.plugin)
  | .sendMediaAction byte value stamp lockFrom =>
    ∀ np, (sendMediaAction byte value stamp lockFrom w.plugin).1 = some np →
      ∃ player ∈ w.latest, ∃ action, np = actionRequest player value action

/-- A list without players comes only while none is followed. -/
def NoneGoes (w : World) : Event → Prop
  | .packet np _ _ => lists np = true → players np = [] → w.plugin.currentPlayer = ""
  | .getMediaInfo _ _ => True
  | .sendMediaAction _ _ _ _ => True

section Steps

variable {w : World} {e : Event}

/-- What the code makes of a list: an empty one leaves the player. -/
theorem currentPlayer_packet (p : MprisPlugin) (np : NetworkPacket) (test stamp : Int64) :
    (onPacketReceived test stamp np p).currentPlayer =
      if lists np then (players np).headD p.currentPlayer else p.currentPlayer := by
  have hreceived := received p test stamp np
  generalize onPacketReceived test stamp np p = q at hreceived ⊢
  cases hreceived with
  | selected first rest hselects hplayers =>
    rw [if_pos (lists_of_selects hselects), players, hplayers]
    rfl
  | listed hlists hselects =>
    rw [selects, hlists, Bool.true_and] at hselects
    rw [if_pos hlists, players]
    cases hplayers : np.body.getStrArray "playerList" with
    | nil => rfl
    | cons first rest =>
      rw [hplayers, List.head?_cons, Option.any_some] at hselects
      exact (bne_eq_false_iff_eq.mp hselects).symm
  | followed hfollows =>
    have hlists : lists np = false := by
      by_contra hlists
      rw [follows_of_lists (eq_true_of_ne_false hlists)] at hfollows
      cases hfollows
    rw [hlists, if_neg Bool.false_ne_true]
  | passed hlists hfollows => rw [hlists, if_neg Bool.false_ne_true]

/-- No action changes the player. -/
theorem currentPlayer_action (byte : UInt8) (value stamp lockFrom : Int64) (p : MprisPlugin) :
    (sendMediaAction byte value stamp lockFrom p).2.currentPlayer = p.currentPlayer := by
  unfold sendMediaAction
  split
  · rfl
  · dsimp only
    split <;> rfl

/-- The step lemma. -/
theorem followsList_iff (w : World) (e : Event) : FollowsList w e ↔ NoneGoes w e := by
  cases e with
  | packet np test stamp =>
    have hplayer := currentPlayer_packet w.plugin np test stamp
    unfold FollowsList NoneGoes step
    dsimp only
    rw [hplayer]
    cases hlists : lists np with
    | false => exact iff_of_true rfl fun h => by cases h
    | true =>
      rw [if_pos rfl, if_pos rfl]
      cases players np with
      | nil => exact ⟨fun h _ _ => h, fun h => h rfl rfl⟩
      | cons first rest => exact iff_of_true rfl fun _ h => by cases h
  | getMediaInfo deviceId now => exact iff_of_true rfl trivial
  | sendMediaAction byte value stamp lockFrom =>
    exact iff_of_true (currentPlayer_action byte value stamp lockFrom w.plugin) trivial

/-- The player is the first of the last list. -/
def Listed (w : World) : Prop := w.plugin.currentPlayer = w.latest.headD ""

theorem listed_step (h : Listed w) (hkeeps : NoneGoes w e) : Listed (step w e) := by
  have hfollows := (followsList_iff w e).mpr hkeeps
  cases e with
  | packet np test stamp =>
    unfold Listed step
    refine hfollows.trans ?_
    dsimp only
    split
    · rfl
    · exact h
  | getMediaInfo deviceId now => exact h
  | sendMediaAction byte value stamp lockFrom => exact hfollows.trans h

theorem mem_latest (h : Listed w) (hnamed : ¬ w.plugin.currentPlayer.isEmpty = true) :
    w.plugin.currentPlayer ∈ w.latest := by
  rw [h] at hnamed ⊢
  cases hlatest : w.latest with
  | nil =>
    rw [hlatest] at hnamed
    exact absurd rfl hnamed
  | cons first rest => exact List.mem_cons_self

theorem onlyListed (h : Listed w) (e : Event) : OnlyListed w e := by
  cases e with
  | packet np test stamp => trivial
  | getMediaInfo deviceId now =>
    intro info hinfo
    unfold getMediaInfo at hinfo
    split at hinfo
    · cases hinfo
    · rename_i hnamed
      exact ⟨_, mem_latest h hnamed, (Option.some.inj hinfo).symm⟩
  | sendMediaAction byte value stamp lockFrom =>
    intro np hnp
    unfold sendMediaAction at hnp
    split at hnp
    · cases hnp
    · rename_i hnamed
      obtain ⟨action, -, rfl⟩ := Option.map_eq_some_iff.mp hnp
      exact ⟨_, mem_latest h hnamed, action, rfl⟩

end Steps

/-- Over every sequence of packets and calls: the player is always that of the last
list, and no player that is gone is shown or acted on, exactly if no list without
players comes while one is followed. -/
theorem followsLists_iff (events : List Event) :
    (EveryStep step FollowsList {} events ∧ EveryStep step OnlyListed {} events) ↔
      EveryStep step NoneGoes {} events := by
  constructor
  · rintro ⟨hfollows, -⟩
    exact hfollows.imp fun w e => (followsList_iff w e).mp
  · intro hkeeps
    refine ⟨hkeeps.imp fun w e => (followsList_iff w e).mpr, ?_⟩
    exact everyStep_of_inv (P := Listed) (fun _ _ hw hkeeps => listed_step hw hkeeps)
      (fun _ e hw _ => onlyListed hw e) rfl hkeeps

/-- A list of players. -/
def listOf (names : List String) : NetworkPacket where
  type := PacketTypes.mpris
  body := ({} : JsonBody).setStrArray "playerList" names

/-- The only player goes, and is paused. -/
def lastGoes : List Event :=
  [.packet (listOf ["vlc"]) 0 0, .packet (listOf []) 0 0, .sendMediaAction 1 0 0 0]

/-- The request still goes to that player. -/
theorem notFollowsLists_lastGoes :
    ¬ ∀ events : List Event,
      EveryStep step FollowsList {} events ∧ EveryStep step OnlyListed {} events := by
  intro h
  obtain ⟨-, -, honly, -⟩ := (h lastGoes).2
  obtain ⟨player, hm, -⟩ := honly (actionRequest "vlc" 0 .pause) rfl
  have hnone : (run step {} (lastGoes.take 2)).latest = [] := by decide
  cases (hnone ▸ hm : player ∈ [])

end KdeConnectNx.PlayerLists
