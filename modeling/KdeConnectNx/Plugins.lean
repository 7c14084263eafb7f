import KdeConnectNx.Sessions

/-!
# The nine plugins

What each plugin keeps between calls and what it sends on a connection, on a
packet and on a tick of the main loop. Local effects on the console are left
out, and so are notices, but for the decision to show a remote notification.
-/

namespace KdeConnectNx.Plugins

open JsonTree JsonText PacketBody PacketFormat Sessions

/-- What the plugins look at outside themselves during one call. -/
structure PluginEnv where
  /-- Reader of texts inside packets. -/
  json : Yyjson
  /-- The steady clock in nanoseconds. -/
  steady : Int64
  /-- `BatteryPlugin::read_hardware`: charge and charging; none when it fails. -/
  hardware : Option (Int32 × Bool) := none
  /-- A second reading in the same call. -/
  hardwareAgain : Option (Int32 × Bool) := none
  /-- `get_system_volume`. -/
  systemVolume : Int32 := 50
  /-- The setting `RunCommandPowerCommandsEnabled`. -/
  powerCommands : Bool := true
  /-- The setting `NotificationShowOnBatteryLow`. -/
  showOnBatteryLow : Bool := true
  /-- Remote notifications are shown: the setting, the flag file of the overlay,
  and the console awake. -/
  showRemoteMessages : Bool := true
  notifyFlag : Bool := true
  awake : Bool := true
  /-- Position of `begin()` in the hash map of icon hashes. -/
  mapBegin : Nat := 0
  /-- Whether the album art with this hash is on the card. -/
  artStored : String → Bool := fun _ => false
  /-- A screenshot that was taken and can be served: its name, size and port. -/
  screenshot : Option (String × Int64 × Int32) := none

def PluginEnv.nowMs (env : PluginEnv) : Int64 := env.steady / 1000000

/-! ## Ping -/

structure PingPlugin where
  /-- Number of the next notice. -/
  id : UInt32 := 0
  deriving DecidableEq

/-- Whatever the packet, a notice is shown and the packet counts as handled. -/
def PingPlugin.onPacketReceived (p : PingPlugin) : PingPlugin × List NetworkPacket × Bool :=
  ({ id := p.id + 1 }, [], true)

/-! ## Battery -/

structure BatteryPlugin where
  cachedCharge : Int32 := 100
  cachedCharging : Bool := false
  cacheValid : Bool := false
  cachedRemoteCharge : Int32 := -1
  cachedRemoteCharging : Bool := false
  active : Bool := false
  /-- A notice of a low battery was shown; written but never looked at. -/
  notifiedLow : Bool := false
  lastPoll : Int64 := 0
  deriving DecidableEq

namespace BatteryPlugin

/-- The packet that reports a charge; a negative one counts as large. -/
def statusPacket (charge : Int32) (charging : Bool) : NetworkPacket where
  type := PacketTypes.battery
  body := ((({} : JsonBody).setInt "currentCharge" charge).setBool "isCharging" charging).setInt
    "thresholdEvent" (if !charging && decide (charge.toUInt32 ≤ 15) then 1 else 0)

def sendStatus (reading : Option (Int32 × Bool)) (p : BatteryPlugin) : List NetworkPacket :=
  if p.cacheValid then [statusPacket p.cachedCharge p.cachedCharging]
  else
    match reading with
    | some (charge, charging) => [statusPacket charge charging]
    | none => []

def onConnected (env : PluginEnv) (paired : Bool) (p : BatteryPlugin) :
    BatteryPlugin × List NetworkPacket :=
  if !paired then (p, [])
  else
    match env.hardware with
    | some (charge, charging) =>
      let p := { p with
        active := true
        notifiedLow := false
        cachedCharge := charge
        cachedCharging := charging
        cacheValid := true }
      ({ p with lastPoll := env.steady }, sendStatus env.hardwareAgain p)
    | none => ({ p with active := true, notifiedLow := false, lastPoll := env.steady }, [])

/-- Ten seconds have passed since the last poll. -/
def due (env : PluginEnv) (p : BatteryPlugin) : Bool :=
  !decide (env.steady - p.lastPoll < 10000000000)

def processEvents (env : PluginEnv) (p : BatteryPlugin) : BatteryPlugin × List NetworkPacket :=
  if !p.active then (p, [])
  else if !p.due env then (p, [])
  else
    let p := { p with lastPoll := env.steady }
    match env.hardware with
    | none => (p, [])
    | some (charge, charging) =>
      if charge != p.cachedCharge || charging != p.cachedCharging then
        let p := { p with cachedCharge := charge, cachedCharging := charging }
        (p, sendStatus env.hardwareAgain p)
      else (p, [])

def onPacketReceived (env : PluginEnv) (np : NetworkPacket) (p : BatteryPlugin) :
    BatteryPlugin × List NetworkPacket × Bool :=
  if np.type = PacketTypes.batteryRequest then (p, sendStatus env.hardware p, true)
  else if np.type = PacketTypes.battery then
    let remoteCharge := np.body.valueInt "currentCharge" (-1)
    let remoteCharging := np.body.valueBool "isCharging" false
    let isLow := np.body.valueInt "thresholdEvent" 0 == 1
    ({ p with
        cachedRemoteCharge := remoteCharge
        cachedRemoteCharging := remoteCharging
        notifiedLow :=
          if !remoteCharging && isLow && env.showOnBatteryLow then true
          else if remoteCharging || decide (15 < remoteCharge) then false
          else p.notifiedLow }, [], true)
  else (p, [], false)

end BatteryPlugin

/-! ## Media players -/

/-- FNV-1a over the bytes of the text, as 16 hexadecimal digits. -/
def urlHash (url : String) : String :=
  let h := (utf8 url.toList).foldl
    (fun h c => (h ^^^ c.toUInt64) * 1099511628211) (14695981039346656037 : UInt64)
  let digits := Nat.toDigits 16 h.toNat
  String.ofList (List.replicate (16 - digits.length) '0' ++ digits)

structure PlayerState where
  canPause : Bool := false
  canPlay : Bool := false
  canGoNext : Bool := false
  canGoPrevious : Bool := false
  isPlaying : Bool := false
  canSeek : Bool := false
  title : String := ""
  artist : String := ""
  album : String := ""
  albumArtUrl : String := ""
  albumArtHash : String := ""
  volume : Int32 := 0
  position : Int64 := 0
  lastPositionTimeMs : Int64 := 0
  length : Int64 := 0

structure MprisPlugin where
  playerList : List String := []
  currentPlayer : String := ""
  state : PlayerState := {}
  seekLockUntilMs : Int64 := 0

namespace MprisPlugin

def requestPlayerList : NetworkPacket where
  type := PacketTypes.mprisRequest
  body := ({} : JsonBody).setBool "requestPlayerList" true

def requestStatus (player : String) : NetworkPacket where
  type := PacketTypes.mprisRequest
  body := ((({} : JsonBody).setStr "player" player).setBool "requestNowPlaying" true).setBool
    "requestVolume" true

def requestAlbumArt (player url : String) : NetworkPacket where
  type := PacketTypes.mprisRequest
  body := (({} : JsonBody).setStr "player" player).setStr "albumArtUrl" url

/-- A member that is read when it is there, whatever its type. -/
def flag (body : JsonBody) (key : String) (old : Bool) : Bool :=
  if body.has key then body.getBool key else old

/-- A member that is read when it is a string. -/
def text (body : JsonBody) (key : String) (old : String) : String :=
  if body.isStr key then body.getStr key else old

/-- The position of a status packet is taken over unless a local seek is recent,
it is negative, or it is zero beside a negative length. -/
def takesPosition (now seekLock : Int64) (body : JsonBody) : Bool :=
  body.isNum "pos" && decide (seekLock ≤ now) && decide (0 ≤ body.getI64 "pos") &&
    (decide (0 < body.getI64 "pos") ||
      !(body.isNum "length" && decide (body.getI64 "length" < 0)))

/-- The members of a status packet that are there replace the old values. -/
def PlayerState.update (now seekLock : Int64) (body : JsonBody) (s : PlayerState) : PlayerState :=
  { s with
    isPlaying := flag body "isPlaying" s.isPlaying
    canPause := flag body "canPause" s.canPause
    canPlay := flag body "canPlay" s.canPlay
    canGoNext := flag body "canGoNext" s.canGoNext
    canGoPrevious := flag body "canGoPrevious" s.canGoPrevious
    canSeek := flag body "canSeek" s.canSeek
    title := text body "title" s.title
    artist := text body "artist" s.artist
    album := text body "album" s.album
    volume := if body.isNum "volume" then body.getInt "volume" else s.volume
    position := if takesPosition now seekLock body then body.getI64 "pos" else s.position
    lastPositionTimeMs := if takesPosition now seekLock body then now else s.lastPositionTimeMs
    length := if body.isNum "length" && decide (0 ≤ body.getI64 "length") then
        body.getI64 "length" else s.length
    albumArtUrl := text body "albumArtUrl" s.albumArtUrl
    albumArtHash := if body.isStr "albumArtUrl" then
        (if (body.getStr "albumArtUrl").isEmpty then "" else urlHash (body.getStr "albumArtUrl"))
      else s.albumArtHash }

/-- Art that is not stored is fetched when the packet carries it, and asked for
otherwise. -/
def artRequests (env : PluginEnv) (player : String) (np : NetworkPacket) (s : PlayerState) :
    List NetworkPacket :=
  if s.albumArtHash.isEmpty then []
  else if env.artStored s.albumArtHash then []
  else if np.body.valueBool "transferringAlbumArt" false && np.hasPayload then []
  else if s.albumArtUrl.isEmpty then []
  else [requestAlbumArt player s.albumArtUrl]

def onPacketReceived (env : PluginEnv) (np : NetworkPacket) (p : MprisPlugin) :
    MprisPlugin × List NetworkPacket × Bool :=
  if np.type ≠ PacketTypes.mpris then (p, [], false)
  else if np.body.has "playerList" then
    let players := np.body.getStrArray "playerList"
    let p := { p with playerList := players }
    match players with
    | [] => (p, [], true)
    | first :: _ =>
      if first ≠ p.currentPlayer then
        ({ p with currentPlayer := first, state := {}, seekLockUntilMs := 0 },
          if first.isEmpty then [] else [requestStatus first], true)
      else (p, [], true)
  else if np.body.isStr "player" then
    let player := np.body.getStr "player"
    if !p.currentPlayer.isEmpty && player != p.currentPlayer then (p, [], true)
    else
      let state := PlayerState.update env.nowMs p.seekLockUntilMs np.body p.state
      ({ p with state := state }, artRequests env player np state, true)
  else (p, [], false)

end MprisPlugin

/-! ## Volume -/

structure SinkState where
  name : String := ""
  description : String := ""
  volume : Int32 := 0
  maxVolume : Int32 := 100
  isMuted : Bool := false
  isDefaultOutput : Bool := false

structure SystemVolumePlugin where
  volume : Int32 := 50
  muted : Bool := false
  remoteSinks : List SinkState := []

namespace SystemVolumePlugin

def kSinkName : String := "Output"
def kSinkDescription : String := "Master Audio Output"
def kMaxVolume : Int32 := 100

def sinkListPacket (vol : Int32) : NetworkPacket where
  type := PacketTypes.systemVolume
  body := ({} : JsonBody).setArrayWithObject "sinkList" fun obj =>
    (((((obj.setStr "name" kSinkName).setStr "description" kSinkDescription).setBool
      "muted" false).setInt "volume" vol).setInt "maxVolume" kMaxVolume).setBool "enabled" true

def requestSinks : NetworkPacket where
  type := PacketTypes.systemVolumeRequest
  body := ({} : JsonBody).setBool "requestSinks" true

/-- The reply to a change of the own volume. -/
def statePacket (p : SystemVolumePlugin) : NetworkPacket where
  type := PacketTypes.systemVolume
  body := (((({} : JsonBody).setStr "name" kSinkName).setInt "volume" p.volume).setBool
    "muted" p.muted).setBool "enabled" true

/-- A raw volume in percent of the sink's maximum. -/
def normalized (raw maxVolume : Int32) : Int32 := if 0 < maxVolume then raw * 100 / maxVolume else 0

def sinkOf (s : JsonBody) : SinkState where
  name := s.valueStr "name" ""
  description := s.valueStr "description" ""
  maxVolume := s.valueInt "maxVolume" 100
  volume := normalized (s.valueInt "volume" 0) (s.valueInt "maxVolume" 100)
  isMuted := s.valueBool "muted" false
  isDefaultOutput := s.valueBool "enabled" false

def SinkState.update (body : JsonBody) (s : SinkState) : SinkState :=
  { s with
    volume := if body.isNum "volume" then normalized (body.getInt "volume") s.maxVolume
      else s.volume
    isMuted := if body.isBool "muted" then body.getBool "muted" else s.isMuted
    isDefaultOutput := if body.isBool "enabled" then body.getBool "enabled" else s.isDefaultOutput }

/-- The first sink of that name is updated. -/
def updateSink (name : String) (body : JsonBody) : List SinkState → List SinkState
  | [] => []
  | s :: sinks =>
    if s.name = name then SinkState.update body s :: sinks else s :: updateSink name body sinks

def onConnected (env : PluginEnv) (paired : Bool) : List NetworkPacket :=
  if !paired then [] else [sinkListPacket env.systemVolume, requestSinks]

def onPacketReceived (env : PluginEnv) (np : NetworkPacket) (p : SystemVolumePlugin) :
    SystemVolumePlugin × List NetworkPacket × Bool :=
  if np.type = PacketTypes.systemVolumeRequest then
    if np.body.valueBool "requestSinks" false then (p, [sinkListPacket env.systemVolume], true)
    else if !np.body.has "name" then (p, [], false)
    else
      let p := { p with
        volume := if np.body.isNum "volume" then max (np.body.getInt "volume") 0 else p.volume
        muted := if np.body.isBool "muted" then np.body.getBool "muted" else p.muted }
      (p, [statePacket p], true)
  else if np.type = PacketTypes.systemVolume then
    if np.body.isArray "sinkList" then
      ({ p with remoteSinks := (np.body.getObjArray "sinkList").map sinkOf }, [], true)
    else if np.body.has "name" then
      ({ p with remoteSinks := updateSink (np.body.getStr "name") np.body p.remoteSinks }, [], true)
    else (p, [], true)
  else (p, [], false)

end SystemVolumePlugin

/-! ## Commands -/

structure NxCommand where
  key : String
  description : String
  displayName : String
  dangerous : Bool

def nxCommands : List NxCommand :=
  [⟨"nx-auto-bright-off", "Disable auto brightness", "Auto Brightness Off", false⟩,
    ⟨"nx-auto-bright-on", "Enable auto brightness", "Auto Brightness On", false⟩,
    ⟨"nx-bluetooth-off", "Turn Bluetooth radio off", "Bluetooth Off", false⟩,
    ⟨"nx-bluetooth-on", "Turn Bluetooth radio on", "Bluetooth On", false⟩,
    ⟨"nx-bright-max", "Set brightness to maximum strength", "Brightness Max", false⟩,
    ⟨"nx-bright-min", "Set brightness to minimum strength", "Brightness Min", false⟩,
    ⟨"nx-reboot", "Restart console", "Reboot", true⟩,
    ⟨"nx-screen-off", "Turn screen backlight off", "Screen Off", false⟩,
    ⟨"nx-screen-on", "Turn screen backlight on", "Screen On", false⟩,
    ⟨"nx-screenshot", "Take screenshot and send it to this device", "Receive screenshot", false⟩,
    ⟨"nx-shutdown", "Turn off console", "Shutdown", true⟩]

structure RunCommandPlugin where
  /-- Ids and names of the remote device's commands. -/
  remoteCommands : List (String × String) := []

namespace RunCommandPlugin

def commandText (c : NxCommand) : String :=
  "\"" ++ c.key ++ "\":\x7b\"command\":\"" ++ c.description ++ "\",\"name\":\"" ++
    c.displayName ++ "\"\x7d"

def localCommandList (powerEnabled : Bool) : NetworkPacket where
  type := PacketTypes.runCommand
  body := (({} : JsonBody).setBool "canAddCommand" false).setStr "commandList"
    ("\x7b" ++ ",".intercalate
      ((nxCommands.filter fun c => !c.dangerous || powerEnabled).map commandText) ++ "\x7d")

def requestRemoteCommandList : NetworkPacket where
  type := PacketTypes.runCommandRequest
  body := ({} : JsonBody).setBool "requestCommandList" true

def onConnected (env : PluginEnv) (paired : Bool) : List NetworkPacket :=
  if paired then [localCommandList env.powerCommands, requestRemoteCommandList] else []

/-- The commands of a list, an id that occurs twice with its last name. -/
def commandsOf (list : JsonBody) : List (String × String) :=
  list.members.foldl (fun commands entry =>
    if (JsonBody.view entry.2).isStr "name" then
      (cstr entry.1, (JsonBody.view entry.2).getStr "name") ::
        commands.filter fun c => c.1 != cstr entry.1
    else commands) []

/-- What a command that was run here sends: the screenshot, if it is that one
and could be taken. -/
def runLocalCommand (env : PluginEnv) (key : String) : List NetworkPacket :=
  if key = "nx-screenshot" then
    env.screenshot.toList.map fun shot =>
      { type := PacketTypes.shareRequest
        body := ({} : JsonBody).setStr "filename" shot.1
        payloadSize := shot.2.1
        payloadPort := shot.2.2 }
  else []

def onPacketReceived (env : PluginEnv) (np : NetworkPacket) (p : RunCommandPlugin) :
    RunCommandPlugin × List NetworkPacket × Bool :=
  if np.type = PacketTypes.runCommand then
    if np.body.isStr "commandList" then
      ({ remoteCommands := commandsOf
          (JsonBody.parse env.json (utf8 (np.body.getStr "commandList").toList)) }, [], true)
    else (p, [], true)
  else if np.type = PacketTypes.runCommandRequest then
    if np.body.valueBool "requestCommandList" false then
      (p, [localCommandList env.powerCommands], true)
    else if np.body.isStr "key" then (p, runLocalCommand env (np.body.getStr "key"), true)
    else (p, [], false)
  else (p, [], false)

end RunCommandPlugin

/-! ## Notifications -/

/-- What is remembered of a notification that came in lately. -/
structure PostedEntry where
  hasIcon : Bool
  time : String
  /-- The steady clock in nanoseconds. -/
  when : Int64
  deriving DecidableEq

structure NotificationPlugin where
  /-- App names and the icon hash each came with last. -/
  appIconHash : List (String × String) := []
  postedIds : List (String × PostedEntry) := []

/-- A notification that is to be shown. -/
structure AppNotice where
  id : String
  app : String
  title : String
  text : String
  iconHash : String

namespace NotificationPlugin

def kMaxPostedIds : Nat := 10
def kMaxAppIconHashes : Nat := 100

/-- The icon of an app: the hash in the packet, which is remembered, or else the
remembered one. -/
def iconOf (mapBegin : Nat) (app payloadHash : String) (icons : List (String × String)) :
    String × List (String × String) :=
  if payloadHash.isEmpty then ((icons.lookup app).getD "", icons)
  else
    let kept := if decide (kMaxAppIconHashes ≤ icons.length) && (icons.lookup app).isNone then
        icons.eraseIdx (mapBegin % icons.length)
      else icons
    (payloadHash, (app, payloadHash) :: kept.filter fun entry => entry.1 != app)

/-- The entry with the earliest time, the first of several. -/
def oldest : List (String × PostedEntry) → Option (String × PostedEntry)
  | [] => none
  | entry :: entries =>
    match oldest entries with
    | none => some entry
    | some other => if other.2.when < entry.2.when then some other else some entry

/-- Make room when the table is full. -/
def evict (posted : List (String × PostedEntry)) : List (String × PostedEntry) :=
  if kMaxPostedIds ≤ posted.length then
    (oldest posted).elim posted fun entry => posted.filter fun other => other.1 != entry.1
  else posted

/-- The table after a notification with this id, none where it repeats one that
was shown at least as well. -/
def debounce (now : Int64) (id time : String) (hasIcon : Bool)
    (posted : List (String × PostedEntry)) : Option (List (String × PostedEntry)) :=
  let recorded := some ((id, ⟨hasIcon, time, now⟩) ::
    (evict posted).filter fun other => other.1 != id)
  if id.isEmpty then some posted
  else
    match posted.lookup id with
    | some entry =>
      if entry.time = time ∧ now - entry.when < 2000000000 then
        if entry.hasIcon || !hasIcon then none
        else some (posted.map fun other =>
          if other.1 = id then (other.1, { other.2 with hasIcon := true }) else other)
      else recorded
    | none => recorded

/-- A packet of the plugin's type: the next state and what is shown. -/
def receive (env : PluginEnv) (body : JsonBody) (p : NotificationPlugin) :
    NotificationPlugin × Option AppNotice :=
  let id := body.valueStr "id" ""
  if body.valueBool "isCancel" false then
    ({ p with postedIds := p.postedIds.filter fun entry => entry.1 != id }, none)
  else
    let app := body.valueStr "appName" "Unknown"
    let icon := iconOf env.mapBegin app (body.valueStr "payloadHash" "") p.appIconHash
    match debounce env.steady id (body.valueStr "time" "") (!icon.1.isEmpty) p.postedIds with
    | none => ({ p with appIconHash := icon.2 }, none)
    | some posted =>
      ({ appIconHash := icon.2, postedIds := posted },
        if body.valueBool "silent" false then none
        else if !env.showRemoteMessages then none
        else if !env.notifyFlag then none
        else if !env.awake then none
        else some ⟨id, app, body.valueStr "title" "", body.valueStr "text" "", icon.1⟩)

def onPacketReceived (env : PluginEnv) (np : NetworkPacket) (p : NotificationPlugin) :
    NotificationPlugin × List NetworkPacket × Bool :=
  if np.type ≠ PacketTypes.notification then (p, [], false)
  else ((receive env np.body p).1, [], true)

def requestActiveNotifications : NetworkPacket where
  type := PacketTypes.notificationRequest
  body := ({} : JsonBody).setBool "request" true

end NotificationPlugin

/-! ## Shares -/

structure SharePlugin where
  /-- Number of the next notice. -/
  notificationId : UInt32 := 0
  deriving DecidableEq

/-- A shared link, a text, or a file that can be fetched; a large file is
announced by a notice of its own. -/
def SharePlugin.onPacketReceived (np : NetworkPacket) (p : SharePlugin) :
    SharePlugin × List NetworkPacket × Bool :=
  if np.type ≠ PacketTypes.shareRequest then (p, [], false)
  else if np.body.isStr "url" then (p, [], true)
  else if np.body.isStr "text" then ({ notificationId := p.notificationId + 1 }, [], true)
  else if np.body.isStr "filename" && np.hasPayload then
    ({ notificationId := p.notificationId + if 1024 * 1024 < np.payloadSize then 2 else 1 }, [],
      true)
  else (p, [], false)

/-! ## Keyboard -/

namespace MousepadPlugin

def keyboardState : NetworkPacket where
  type := PacketTypes.mousepadKeyboardState
  body := ({} : JsonBody).setBool "state" true

def echoFields : List String :=
  ["key", "specialKey", "alt", "ctrl", "shift", "super", "singleclick", "doubleclick",
    "middleclick", "rightclick", "singlehold", "singlerelease", "dx", "dy", "scroll"]

def echo (np : NetworkPacket) : NetworkPacket where
  type := PacketTypes.mousepadEcho
  body :=
    (echoFields.foldl (fun body key => JsonBody.copyField body key np.body) {}).setBool "isAck" true

end MousepadPlugin

inductive Plugin where
  | ping (p : PingPlugin)
  | battery (p : BatteryPlugin)
  | notification (p : NotificationPlugin)
  | findMyPhone
  | mpris (p : MprisPlugin)
  | systemVolume (p : SystemVolumePlugin)
  | share (p : SharePlugin)
  | runCommand (p : RunCommandPlugin)
  | mousepad

namespace Plugin

def supportedPacketTypes : Plugin → List String
  | .ping _ => [PacketTypes.ping]
  | .battery _ => [PacketTypes.battery, PacketTypes.batteryRequest]
  | .notification _ => [PacketTypes.notification]
  | .findMyPhone => []
  | .mpris _ => [PacketTypes.mpris, PacketTypes.mprisRequest]
  | .systemVolume _ => [PacketTypes.systemVolumeRequest, PacketTypes.systemVolume]
  | .share _ => [PacketTypes.shareRequest]
  | .runCommand _ => [PacketTypes.runCommandRequest, PacketTypes.runCommand]
  | .mousepad => [PacketTypes.mousepadRequest]

def onConnected (env : PluginEnv) (paired : Bool) : Plugin → Plugin × List NetworkPacket
  | .ping p => (.ping p, [])
  | .battery p =>
    let r := p.onConnected env paired
    (.battery r.1, r.2)
  | .notification p =>
    (.notification p, if paired then [NotificationPlugin.requestActiveNotifications] else [])
  | .findMyPhone => (.findMyPhone, [])
  | .mpris p => (.mpris p, if paired then [MprisPlugin.requestPlayerList] else [])
  | .systemVolume p => (.systemVolume p, SystemVolumePlugin.onConnected env paired)
  | .share p => (.share p, [])
  | .runCommand p => (.runCommand p, RunCommandPlugin.onConnected env paired)
  | .mousepad => (.mousepad, if paired then [MousepadPlugin.keyboardState] else [])

def onPacketReceived (env : PluginEnv) (np : NetworkPacket) :
    Plugin → Plugin × List NetworkPacket × Bool
  | .ping p =>
    let r := p.onPacketReceived
    (.ping r.1, r.2)
  | .battery p =>
    let r := p.onPacketReceived env np
    (.battery r.1, r.2)
  | .notification p =>
    let r := p.onPacketReceived env np
    (.notification r.1, r.2)
  | .findMyPhone => (.findMyPhone, [], false)
  | .mpris p =>
    let r := p.onPacketReceived env np
    (.mpris r.1, r.2)
  | .systemVolume p =>
    let r := p.onPacketReceived env np
    (.systemVolume r.1, r.2)
  | .share p =>
    let r := p.onPacketReceived np
    (.share r.1, r.2)
  | .runCommand p =>
    let r := p.onPacketReceived env np
    (.runCommand r.1, r.2)
  | .mousepad =>
    (.mousepad,
      if np.type == PacketTypes.mousepadRequest && np.body.valueBool "sendAck" false then
        [MousepadPlugin.echo np]
      else [],
      np.type == PacketTypes.mousepadRequest)

/-- Only the battery plugin acts on a tick; shared links cannot be opened. -/
def processEvents (env : PluginEnv) : Plugin → Plugin × List NetworkPacket
  | .battery p =>
    let r := p.processEvents env
    (.battery r.1, r.2)
  | p => (p, [])

end Plugin

/-- `PluginRegistry::instantiate_plugins`. -/
def instantiatePlugins : List Plugin :=
  [.ping {}, .battery {}, .notification {}, .findMyPhone, .mpris {}, .systemVolume {}, .share {},
    .runCommand {}, .mousepad]

instance : PluginHost Plugin PluginEnv where
  instantiate := fun _ => instantiatePlugins
  supportedPacketTypes := Plugin.supportedPacketTypes
  onConnected := Plugin.onConnected
  onPacketReceived := Plugin.onPacketReceived
  processEvents := Plugin.processEvents

/-- No plugin sends anything to a device that connects unpaired, or changes. -/
theorem onConnected_unpaired (env : PluginEnv) (p : Plugin) :
    PluginHost.onConnected env false p = (p, []) := by
  cases p with
  | battery p => rfl
  | _ => rfl

/-- The status can be told: from the cache, or from a reading. -/
theorem BatteryPlugin.sendStatus_nil (reading : Option (Int32 × Bool)) (p : BatteryPlugin) :
    sendStatus reading p = [] ↔ ¬ (p.cacheValid = true ∨ reading.isSome = true) := by
  unfold sendStatus
  cases p.cacheValid with
  | true => simp
  | false => cases reading <;> simp

/-- The battery plugin has something to report on a tick: it was told of a
pairing once, a poll is due, and the reading is new. -/
def BatteryPlugin.Reports (env : PluginEnv) (p : BatteryPlugin) : Prop :=
  p.active = true ∧ p.due env = true ∧
    (∃ reading, env.hardware = some reading ∧ reading ≠ (p.cachedCharge, p.cachedCharging)) ∧
    (p.cacheValid = true ∨ env.hardwareAgain.isSome = true)

/-- It sends nothing otherwise. -/
theorem BatteryPlugin.processEvents_nil (env : PluginEnv) (p : BatteryPlugin) :
    (p.processEvents env).2 = [] ↔ ¬ p.Reports env := by
  unfold processEvents Reports
  by_cases hactive : p.active = true
  · by_cases hdue : p.due env = true
    · rw [hdue, if_neg (by simp [hactive]), Bool.not_true, if_neg Bool.false_ne_true]
      cases hread : env.hardware with
      | none => simp
      | some reading =>
        have hnew : (reading.1 != p.cachedCharge || reading.2 != p.cachedCharging) = true ↔
            reading ≠ (p.cachedCharge, p.cachedCharging) := by
          simp only [Bool.or_eq_true, bne_iff_ne, ne_eq, Prod.ext_iff, not_and_or]
        dsimp only
        by_cases hdiffers : reading ≠ (p.cachedCharge, p.cachedCharging)
        · rw [if_pos (hnew.mpr hdiffers), sendStatus_nil]
          simp [hactive, hdiffers]
        · rw [if_neg (mt hnew.mp hdiffers)]
          simp [not_not.mp hdiffers]
    · simp [hactive, hdue]
  · simp [hactive]

/-- What it sends are battery packets. -/
theorem BatteryPlugin.type_of_processEvents {env : PluginEnv} {p : BatteryPlugin}
    {pkt : NetworkPacket} (h : pkt ∈ (p.processEvents env).2) : pkt.type = PacketTypes.battery := by
  have hstatus : ∀ (reading : Option (Int32 × Bool)) (p : BatteryPlugin),
      pkt ∈ sendStatus reading p → pkt.type = PacketTypes.battery := by
    intro reading p hm
    unfold sendStatus at hm
    split at hm
    · rw [List.mem_singleton.mp hm]
      rfl
    · split at hm
      · rw [List.mem_singleton.mp hm]
        rfl
      · cases hm
  unfold processEvents at h
  split at h
  · cases h
  · split at h
    · cases h
    · dsimp only at h
      split at h
      · cases h
      · split at h
        · exact hstatus _ _ h
        · cases h

/-- On a tick a session sends something exactly if its battery plugin reports. -/
theorem processEvents_nil (env : PluginEnv) (plugins : List Plugin) :
    (plugins.flatMap fun p => (PluginHost.processEvents env p).2) = [] ↔
      ∀ p, Plugin.battery p ∈ plugins → ¬ p.Reports env := by
  rw [List.flatMap_eq_nil_iff]
  constructor
  · intro h p hp
    exact (p.processEvents_nil env).mp (h _ hp)
  · intro h p hp
    cases p with
    | battery p => exact (p.processEvents_nil env).mpr (h p hp)
    | _ => rfl

/-- What a session sends on a tick are battery packets. -/
theorem type_of_processEvents {env : PluginEnv} {plugins : List Plugin} {pkt : NetworkPacket}
    (h : pkt ∈ plugins.flatMap fun p => (PluginHost.processEvents env p).2) :
    pkt.type = PacketTypes.battery := by
  obtain ⟨p, -, hpkt⟩ := List.mem_flatMap.mp h
  cases p with
  | battery p => exact BatteryPlugin.type_of_processEvents hpkt
  | _ => cases hpkt

end KdeConnectNx.Plugins
