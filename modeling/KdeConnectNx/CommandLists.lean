import KdeConnectNx.Identifiers
import KdeConnectNx.PairingAgreement
import Mathlib.Data.List.Nodup

/-!
# Command lists between two consoles

A console tells the other one which commands it offers, in a text that is put
together by hand, and tells it anew when power commands are switched on or off.
What the other end shows is what is offered, once all lists have arrived and
unless the setting changed while a list was put together. What it asks for is
run once, in order, call by call, if it is offered when it is looked at.
-/

namespace KdeConnectNx.CommandLists

open JsonTree JsonText PacketBody PacketFormat Plugins RunCommandPlugin PairingAgreement
  Identifiers Runs

/-! ## The text of a list -/

/-- The library reads every text without white space. -/
def ReadsCompact (y : Yyjson) : Prop :=
  ∀ v : Val, v.realFree = true → y.read (utf8 (render compact 0 v)) = some v.canon

/-- The reference codec reads its own compact text, when that is UTF-8. -/
theorem reference_readsCompact : ReadsCompact Yyjson.reference := by
  intro v h
  have hread : Yyjson.reference.read (utf8 (render compact 0 v)) =
      (ofUtf8 (utf8 (render compact 0 v))).bind parse :=
    rfl
  rw [hread, ofUtf8_utf8, Option.bind_some, parse_render compact h]

/-- The commands that are offered. -/
def offered (powerEnabled : Bool) : List NxCommand :=
  nxCommands.filter fun c => !c.dangerous || powerEnabled

/-- No character of the string is escaped. -/
def Unescaped (s : String) : Prop := ∀ c ∈ s.toList, escChar c = [c]

instance (s : String) : Decidable (Unescaped s) :=
  decidable_of_iff ((s.toList.all fun c => decide (escChar c = [c])) = true)
    (List.all_eq_true.trans (forall₂_congr fun _ _ => decide_eq_true_iff))

/-- A text without escapes is quoted as it is. -/
theorem quote_of_unescaped {s : String} (h : Unescaped s) :
    quote s = '"' :: (s.toList ++ ['"']) := by
  have hflat : s.toList.flatMap escChar = s.toList := by
    rw [List.flatMap_congr (g := fun c => [c]) h, List.flatMap_singleton']
  rw [quote, hflat]

/-- A command whose texts stand as they are. -/
structure Plain (c : NxCommand) : Prop where
  key : Unescaped c.key
  description : Unescaped c.description
  displayName : Unescaped c.displayName

/-- The member of a list for a command. -/
def memberOf (c : NxCommand) : String × Val :=
  (c.key, .obj [("command", .str c.description), ("name", .str c.displayName)])

/-- The key of the command text is such a text. -/
theorem unescaped_command : Unescaped "command" := by decide

/-- The key of the name is one too. -/
theorem unescaped_name : Unescaped "name" := by decide

/-- What is put together for one command is the rendering of its member. -/
theorem toList_commandText {c : NxCommand} (h : Plain c) :
    (commandText c).toList = quote c.key ++ ':' :: render compact 1 (memberOf c).2 := by
  have hquote : "\"".toList = ['"'] := rfl
  have hopen : "\":\x7b\"command\":\"".toList =
      '"' :: ':' :: '\x7b' :: '"' :: ("command".toList ++ ['"', ':', '"']) := rfl
  have hnext : "\",\"name\":\"".toList = '"' :: ',' :: '"' :: ("name".toList ++ ['"', ':', '"']) :=
    rfl
  have hclose : "\"\x7d".toList = ['"', '\x7d'] := rfl
  rw [memberOf, render, renderMembers, renderMembers, renderMembers, enclose, render, render,
    quote_of_unescaped h.key, quote_of_unescaped h.description, quote_of_unescaped h.displayName,
    quote_of_unescaped unescaped_command, quote_of_unescaped unescaped_name]
  simp only [commandText, String.toList_append, hquote, hopen, hnext, hclose, compact,
    List.append_assoc, List.cons_append, List.nil_append, List.flatMap_cons, List.flatMap_nil]

/-- The text of a list, as it is put together. -/
def listText (commands : List NxCommand) : String :=
  "\x7b" ++ ",".intercalate (commands.map commandText) ++ "\x7d"

/-- Commas between the pieces, written as a comma before each piece but the first. -/
theorem intercalate_cons_eq (piece : List Char) (pieces : List (List Char)) :
    [','].intercalate (piece :: pieces) = piece ++ pieces.flatMap fun p => ',' :: p := by
  induction pieces generalizing piece with
  | nil => rw [List.intercalate_singleton, List.flatMap_nil, List.append_nil]
  | cons next pieces ih =>
    rw [List.intercalate_cons_cons, ih, List.flatMap_cons, List.append_assoc, List.singleton_append,
      List.cons_append]

/-- Without white space, pieces in brackets have only commas between them. -/
theorem enclose_compact (depth : ℕ) (left right : Char) (pieces : List (List Char)) :
    enclose compact depth left right pieces = left :: ([','].intercalate pieces ++ [right]) := by
  cases pieces with
  | nil => rfl
  | cons piece pieces =>
    rw [intercalate_cons_eq]
    simp only [enclose, compact, List.nil_append, List.append_nil]

/-- The text put together by hand is the compact text of the commands as an object. -/
theorem toList_listText {commands : List NxCommand} (h : ∀ c ∈ commands, Plain c) :
    (listText commands).toList = render compact 0 (.obj (commands.map memberOf)) := by
  have hopen : "\x7b".toList = ['\x7b'] := rfl
  have hclose : "\x7d".toList = ['\x7d'] := rfl
  have hcomma : ",".toList = [','] := rfl
  have hmembers : ∀ rest : List NxCommand, (∀ c ∈ rest, Plain c) →
      rest.map (String.toList ∘ commandText) = renderMembers compact 1 (rest.map memberOf) := by
    intro rest hrest
    induction rest with
    | nil => rfl
    | cons c rest ih =>
      rw [List.map_cons, List.map_cons, ih fun d hd => hrest d (List.mem_cons_of_mem _ hd),
        Function.comp_apply, toList_commandText (hrest c List.mem_cons_self)]
      rfl
  rw [listText, String.toList_append, String.toList_append, String.toList_intercalate, hopen,
    hclose, hcomma, List.map_map, hmembers commands h, render, enclose_compact]
  rfl

/-! ## What is shown of a list -/

/-- What the other end shows of a command. -/
def entryOf (c : NxCommand) : String × String := (c.key, c.displayName)

/-- A command whose texts are C strings. -/
structure NulFreeTexts (c : NxCommand) : Prop where
  key : NulFree c.key
  displayName : NulFree c.displayName

/-- The name that is read back, cut at its first NUL. -/
theorem view_memberOf (c : NxCommand) :
    (JsonBody.view (memberOf c).2.canon).isStr "name" = true ∧
      (JsonBody.view (memberOf c).2.canon).getStr "name" = cstr c.displayName := ⟨rfl, rfl⟩

/-- A list of commands with different keys is shown as it is. -/
theorem commandsOf_members {commands : List NxCommand} (htexts : ∀ c ∈ commands, NulFreeTexts c)
    (hkeys : (commands.map NxCommand.key).Nodup) :
    commandsOf ⟨Val.canonMembers (commands.map memberOf)⟩ = (commands.map entryOf).reverse := by
  have hall : ∀ (rest : List NxCommand) (shown : List (String × String)),
      (∀ c ∈ rest, NulFreeTexts c) →
      (shown.map Prod.fst ++ rest.map NxCommand.key).Nodup →
      (Val.canonMembers (rest.map memberOf)).foldl (fun commands entry =>
        if (JsonBody.view entry.2).isStr "name" then
          (cstr entry.1, (JsonBody.view entry.2).getStr "name") :: commands.filter fun c =>
            c.1 != cstr entry.1
        else commands) shown = (rest.map entryOf).reverse ++ shown := by
    intro rest
    induction rest with
    | nil => exact fun shown _ _ => rfl
    | cons c rest ih =>
      intro shown hrest hnodup
      have hc := hrest c List.mem_cons_self
      obtain ⟨hname, hget⟩ := view_memberOf c
      rw [List.map_cons, List.nodup_append] at hnodup
      have hfilter : shown.filter (fun d => d.1 != c.key) = shown := by
        refine List.filter_eq_self.mpr fun d hd => bne_iff_ne.mpr fun heq => ?_
        exact hnodup.2.2 d.1 (List.mem_map_of_mem hd) c.key List.mem_cons_self heq
      have hmore : (((c.key, c.displayName) :: shown).map Prod.fst ++
          rest.map NxCommand.key).Nodup := by
        rw [List.map_cons, List.cons_append, ← List.nodup_middle, List.nodup_append]
        exact hnodup
      have hcons : Val.canonMembers ((c :: rest).map memberOf) =
          (c.key, (memberOf c).2.canon) :: Val.canonMembers (rest.map memberOf) := rfl
      rw [hcons, List.foldl_cons, if_pos hname, hget]
      dsimp only
      rw [cstr_of_nulFree hc.key, cstr_of_nulFree hc.displayName, hfilter,
        ih _ (fun d hd => hrest d (List.mem_cons_of_mem _ hd)) hmore, List.map_cons,
        List.reverse_cons, List.append_assoc]
      rfl
  have h := hall commands [] htexts (by rw [List.map_nil, List.nil_append]; exact hkeys)
  rwa [List.append_nil] at h

instance (c : NxCommand) : Decidable (Plain c) :=
  decidable_of_iff (Unescaped c.key ∧ Unescaped c.description ∧ Unescaped c.displayName)
    ⟨fun h => ⟨h.1, h.2.1, h.2.2⟩, fun h => ⟨h.key, h.description, h.displayName⟩⟩

instance (c : NxCommand) : Decidable (NulFreeTexts c) :=
  decidable_of_iff (NulFree c.key ∧ NulFree c.displayName)
    ⟨fun h => ⟨h.1, h.2⟩, fun h => ⟨h.key, h.displayName⟩⟩

/-- What is offered needs no escapes. -/
theorem offered_plain (powerEnabled : Bool) :
    ∀ c ∈ offered powerEnabled, Plain c ∧ NulFreeTexts c := by
  have hall : ∀ c ∈ nxCommands, Plain c ∧ NulFreeTexts c := by decide +kernel
  exact fun c hc => hall c (List.mem_of_mem_filter hc)

/-- No key is offered twice. -/
theorem offered_nodup (powerEnabled : Bool) : ((offered powerEnabled).map NxCommand.key).Nodup := by
  have hall : (nxCommands.map NxCommand.key).Nodup := by decide +kernel
  exact hall.sublist (List.filter_sublist.map _)

/-- What the other end shows of what is offered. -/
def shown (powerEnabled : Bool) : List (String × String) :=
  ((offered powerEnabled).map entryOf).reverse

/-- The text of a list reads as its commands. -/
theorem commandsOf_listText {y : Yyjson} (hy : y.Lawful) (hreads : ReadsCompact y)
    (powerEnabled : Bool) :
    commandsOf (JsonBody.parse y (utf8 (listText (offered powerEnabled)).toList)) =
      shown powerEnabled := by
  have hplain := offered_plain powerEnabled
  have hfree : ∀ commands : List NxCommand, (Val.obj (commands.map memberOf)).realFree = true := by
    intro commands
    induction commands with
    | nil => rfl
    | cons c commands ih => exact ih
  have hread := hreads _ (hfree (offered powerEnabled))
  have habove : ∀ b ∈ utf8 (render compact 0 (.obj ((offered powerEnabled).map memberOf))),
      10 ≤ b.toNat := by
    intro b hb
    have hb' := utf8_above (Nat.le_refl 32) (render_above compact_keeps 0 _) b hb
    omega
  rw [toList_listText fun c hc => (hplain c hc).1, (JsonBody.parse_of_read hy hread habove).2]
  exact commandsOf_members (fun c hc => (hplain c hc).2) (offered_nodup powerEnabled)

/-! ## What a command does -/

inductive Service where
  | bpc
  | lbl
  | btm
deriving DecidableEq, Repr

/-- The calls into the system, and the screenshot that is sent. -/
inductive Op where
  | start (service : Service)
  | exit (service : Service)
  | rebootSystem
  | shutdownSystem
  | switchBacklightOff
  | switchBacklightOn
  /-- `lblSetCurrentBrightnessSetting`, to the maximum or to zero. -/
  | setCurrentBrightnessSetting (maximum : Bool)
  | applyCurrentBrightnessSettingToBacklight
  | enableAutoBrightnessControl
  | disableAutoBrightnessControl
  | disableRadio
  | enableRadio
  | sendScreenshot
deriving DecidableEq, Repr

def Op.isPower : Op → Bool
  | .rebootSystem | .shutdownSystem => true
  | _ => false

/-- Calls of a service, where it can be opened. -/
def within (opens : Service → Bool) (service : Service) (calls : List Op) : List Op :=
  if opens service then .start service :: (calls ++ [.exit service]) else []

/-- `run_local_command`. -/
def runLocalCommand (opens : Service → Bool) (powerEnabled : Bool) (key : String) : List Op :=
  let isDangerous := nxCommands.any fun c => key == c.key && c.dangerous
  if isDangerous && !powerEnabled then []
  else if key = "nx-reboot" then within opens .bpc [.rebootSystem]
  else if key = "nx-shutdown" then within opens .bpc [.shutdownSystem]
  else if key = "nx-screen-off" then within opens .lbl [.switchBacklightOff]
  else if key = "nx-screen-on" then within opens .lbl [.switchBacklightOn]
  else if key = "nx-bright-max" then
    within opens .lbl [.setCurrentBrightnessSetting true, .applyCurrentBrightnessSettingToBacklight]
  else if key = "nx-bright-min" then
    within opens .lbl [.setCurrentBrightnessSetting false,
      .applyCurrentBrightnessSettingToBacklight]
  else if key = "nx-auto-bright-on" then within opens .lbl [.enableAutoBrightnessControl]
  else if key = "nx-auto-bright-off" then within opens .lbl [.disableAutoBrightnessControl]
  else if key = "nx-bluetooth-off" then within opens .btm [.disableRadio]
  else if key = "nx-bluetooth-on" then within opens .btm [.enableRadio]
  else if key = "nx-screenshot" then [.sendScreenshot]
  else []

/-- What the commands are for: the service each opens, and its calls there. -/
def actions : List (String × Option Service × List Op) :=
  [("nx-auto-bright-off", some .lbl, [.disableAutoBrightnessControl]),
    ("nx-auto-bright-on", some .lbl, [.enableAutoBrightnessControl]),
    ("nx-bluetooth-off", some .btm, [.disableRadio]),
    ("nx-bluetooth-on", some .btm, [.enableRadio]),
    ("nx-bright-max", some .lbl,
      [.setCurrentBrightnessSetting true, .applyCurrentBrightnessSettingToBacklight]),
    ("nx-bright-min", some .lbl,
      [.setCurrentBrightnessSetting false, .applyCurrentBrightnessSettingToBacklight]),
    ("nx-reboot", some .bpc, [.rebootSystem]),
    ("nx-screen-off", some .lbl, [.switchBacklightOff]),
    ("nx-screen-on", some .lbl, [.switchBacklightOn]),
    ("nx-screenshot", none, [.sendScreenshot]),
    ("nx-shutdown", some .bpc, [.shutdownSystem])]

/-- The calls of an action. -/
def callsOf (opens : Service → Bool) : Option Service × List Op → List Op
  | (none, calls) => calls
  | (some service, calls) => within opens service calls

/-- Which of the services can be opened. -/
def opening (bpc lbl btm : Bool) : Service → Bool
  | .bpc => bpc
  | .lbl => lbl
  | .btm => btm

/-- One `run_local_command`: its key, the setting it read, which services opened, and its calls. -/
structure Ran where
  key : String
  powerEnabled : Bool
  opens : Service → Bool
  calls : List Op

/-- Where the session's thread is in `run_local_command`. -/
inductive Stage where
  /-- Before the look at the setting. -/
  | heard (key : String)
  /-- Behind it, with the calls that are still to be made. -/
  | running (r : Ran) (rest : List Op)

/-- What one console holds: the setting, its plugin for the other console, the threads that are to
put a list together, and the lists that are and not yet sent, each with the setting it was made
for. -/
structure End where
  powerEnabled : Bool
  plugin : RunCommandPlugin := {}
  due : ℕ := 0
  built : List Bool := []
  /-- What the other console was asked to run. -/
  asked : List String := []
  /-- The command that the session's thread is at. -/
  command : Option Stage := none
  /-- What was run here. -/
  ran : List Ran := []
  /-- All calls that were made here. -/
  calls : List Op := []

/-- The packets of the plugin. -/
inductive Msg where
  | list (powerEnabled : Bool)
  | request
  | run (key : String)
deriving DecidableEq, Repr

def Msg.packet : Msg → NetworkPacket
  | .list powerEnabled => localCommandList powerEnabled
  | .request => requestRemoteCommandList
  | .run key => runRemoteCommand key

/-- Both consoles, and what each has sent and the other not yet heard. -/
structure Talk (μ : Type) where
  ends : Side → End
  wire : Side → List μ

inductive Turn where
  /-- The setting is written over IPC, which then sends the list. -/
  | set (s : Side) (powerEnabled : Bool)
  /-- A thread reads the setting and puts the list together. -/
  | build (s : Side)
  /-- One of the lists is sent. -/
  | send (s : Side) (i : ℕ) (now : Int64)
  /-- The other console is asked for its list, on a connection. -/
  | request (s : Side) (now : Int64)
  /-- The user runs a command of the other console. -/
  | run (s : Side) (key : String) (now : Int64)
  /-- The session's thread takes the next packet. -/
  | hear (s : Side)
  /-- It reads the setting for a command; `opens` is what the services will give. -/
  | check (s : Side) (opens : Service → Bool)
  /-- It makes the next call of the command, or is done with it. -/
  | call (s : Side)

def setEnd {μ : Type} (t : Talk μ) (s : Side) (e : End) : Talk μ :=
  { t with ends := Function.update t.ends s e }

def say {μ : Type} (t : Talk μ) (s : Side) (e : End) (letter : μ) : Talk μ :=
  { ends := Function.update t.ends s e, wire := Function.update t.wire s (t.wire s ++ [letter]) }

def deliver {μ : Type} (t : Talk μ) (s : Side) (e : End) (rest : List μ) : Talk μ :=
  { ends := Function.update t.ends s e, wire := Function.update t.wire s.other rest }

/-- `run_local_command` up to the look at the setting. -/
def checkCommand (opens : Service → Bool) (e : End) : End :=
  match e.command with
  | some (.heard key) =>
    { e with
      command :=
        some (.running ⟨key, e.powerEnabled, opens, []⟩
          (runLocalCommand opens e.powerEnabled key)) }
  | _ => e

/-- The next call of `run_local_command`. -/
def callNext (e : End) : End :=
  match e.command with
  | some (.running r (op :: rest)) =>
    { e with
      calls := e.calls ++ [op]
      command := some (.running { r with calls := r.calls ++ [op] } rest) }
  | some (.running r []) => { e with ran := e.ran ++ [r], command := none }
  | _ => e

/-- One turn, where `write` puts a packet on the wire and `take` is what an end does with it. -/
def step {μ : Type} (write : Int64 → Msg → μ) (take : μ → End → End) (t : Talk μ) : Turn → Talk μ
  | .set s powerEnabled =>
    let e := t.ends s
    setEnd t s { e with powerEnabled := powerEnabled, due := e.due + 1 }
  | .build s =>
    let e := t.ends s
    if e.due = 0 then t
    else setEnd t s { e with due := e.due - 1, built := e.built ++ [e.powerEnabled] }
  | .send s i now =>
    let e := t.ends s
    match e.built[i]? with
    | none => t
    | some powerEnabled =>
      say t s { e with built := e.built.eraseIdx i } (write now (.list powerEnabled))
  | .request s now => say t s (t.ends s) (write now .request)
  | .run s key now =>
    let e := t.ends s
    say t s { e with asked := e.asked ++ [cstr key] } (write now (.run key))
  | .hear s =>
    if (t.ends s).command.isSome then t
    else
      match t.wire s.other with
      | [] => t
      | letter :: rest => deliver t s (take letter (t.ends s)) rest
  | .check s opens => setEnd t s (checkCommand opens (t.ends s))
  | .call s => setEnd t s (callNext (t.ends s))

/-- A packet on the wire. -/
def line (y : Yyjson) (now : Int64) (msg : Msg) : List UInt8 := (msg.packet.root now).dump y

/-- `on_packet_received`: a list that is asked for is put together by the thread that hears it, and
a command is run by it. -/
def hearPacket (y : Yyjson) (np : NetworkPacket) (e : End) : End :=
  if np.type = PacketTypes.runCommandRequest && np.body.valueBool "requestCommandList" false then
    { e with due := e.due + 1 }
  else if np.type = PacketTypes.runCommandRequest && np.body.isStr "key" then
    { e with command := some (.heard (np.body.getStr "key")) }
  else { e with plugin := (onPacketReceived { json := y, steady := 0 } np e.plugin).1 }

def hearLine (y : Yyjson) (text : List UInt8) (e : End) : End :=
  (NetworkPacket.parse y text).elim e fun np => hearPacket y np e

/-- Both consoles just connected: each is about to send its list. -/
def connected (μ : Type) (power : Side → Bool) : Talk μ where
  ends s := { powerEnabled := power s, due := 1 }
  wire _ := []

/-- Two consoles with their packets as text. -/
def runTalk (y : Yyjson) (t : Talk (List UInt8)) (turns : List Turn) : Talk (List UInt8) :=
  Runs.run (step (line y) (hearLine y)) t turns

/-! ## The packets as what they mean -/

def hearMsg (msg : Msg) (e : End) : End :=
  match msg with
  | .list powerEnabled => { e with plugin := { remoteCommands := shown powerEnabled } }
  | .request => { e with due := e.due + 1 }
  | .run key => { e with command := some (.heard (cstr key)) }

/-- No message carries a NUL in its type, or a floating-point number. -/
theorem msg_plain (msg : Msg) : NulFree msg.packet.type ∧ msg.packet.body.realFree = true := by
  cases msg with
  | list powerEnabled =>
    have htype : NulFree PacketTypes.runCommand := by decide
    exact ⟨htype, rfl⟩
  | request => exact ⟨by decide, rfl⟩
  | run key =>
    have htype : NulFree PacketTypes.runCommandRequest := by decide
    exact ⟨htype, rfl⟩

/-- The list text has no NUL. -/
theorem nulFree_listText (powerEnabled : Bool) : NulFree (listText (offered powerEnabled)) := by
  intro hmem
  rw [toList_listText fun c hc => (offered_plain powerEnabled c hc).1] at hmem
  exact absurd (render_above compact_keeps 0 _ _ hmem) (by decide)

/-- A packet is heard as what it means. -/
theorem hearLine_line {y : Yyjson} (hy : y.Lawful) (hreads : ReadsCompact y) (now : Int64)
    (msg : Msg) (e : End) :
    hearLine y (line y now msg) e = hearMsg msg e := by
  obtain ⟨htype, hfree⟩ := msg_plain msg
  rw [hearLine, line, (NetworkPacket.parse_root hy htype hfree now).1, Option.elim_some]
  cases msg with
  | list powerEnabled =>
    have hstr : (localCommandList powerEnabled).body.canon.isStr "commandList" = true := rfl
    have hget : (localCommandList powerEnabled).body.canon.getStr "commandList" =
        listText (offered powerEnabled) := by
      have hraw : (localCommandList powerEnabled).body.canon.getStr "commandList" =
          cstr (cstr (listText (offered powerEnabled))) := rfl
      rw [hraw, cstr_of_nulFree (cstr_nulFree _), cstr_of_nulFree (nulFree_listText powerEnabled)]
    have htypes : (Msg.list powerEnabled).packet.received.type = PacketTypes.runCommand := rfl
    have hother : ¬ PacketTypes.runCommand = PacketTypes.runCommandRequest := by decide
    have hbody : (Msg.list powerEnabled).packet.received.body =
        (localCommandList powerEnabled).body.canon := rfl
    unfold hearPacket onPacketReceived
    rw [htypes, hbody, decide_eq_false hother, Bool.false_and, Bool.false_and,
      if_neg Bool.false_ne_true, if_neg Bool.false_ne_true, if_pos rfl, if_pos hstr, hget,
      commandsOf_listText hy hreads]
    rfl
  | request => rfl
  | run key =>
    have hget : (runRemoteCommand key).body.canon.getStr "key" = cstr key := by
      have hraw : (runRemoteCommand key).body.canon.getStr "key" = cstr (cstr key) := rfl
      rw [hraw, cstr_of_nulFree (cstr_nulFree key)]
    have hheard : hearPacket y (Msg.run key).packet.received e =
        { e with command := some (.heard ((runRemoteCommand key).body.canon.getStr "key")) } := rfl
    rw [hheard, hget]
    rfl

/-- The same exchange with packets as what they mean. -/
def stepMsg : Talk Msg → Turn → Talk Msg := step (fun _ msg => msg) hearMsg

/-- The texts on the wire are those of the packets. -/
structure Says (y : Yyjson) (t : Talk (List UInt8)) (a : Talk Msg) : Prop where
  ends : t.ends = a.ends
  wire : ∀ s, List.Forall₂ (fun text msg => ∃ now, text = line y now msg) (t.wire s) (a.wire s)

variable {y : Yyjson} {t : Talk (List UInt8)} {a : Talk Msg}

/-- An end changes on both sides alike. -/
theorem Says.setEnd (h : Says y t a) (s : Side) (e : End) : Says y (setEnd t s e) (setEnd a s e) :=
  ⟨by simp only [CommandLists.setEnd, h.ends], h.wire⟩

/-- A message and its text go out together. -/
theorem Says.say (h : Says y t a) (s : Side) (e : End) (now : Int64) (msg : Msg) :
    Says y (say t s e (line y now msg)) (say a s e msg) := by
  refine ⟨by simp only [CommandLists.say, h.ends], fun other => ?_⟩
  by_cases heq : other = s
  · subst heq
    simp only [CommandLists.say, Function.update_self]
    exact List.rel_append (h.wire other) (.cons ⟨now, rfl⟩ .nil)
  · simp only [CommandLists.say, Function.update_of_ne heq]
    exact h.wire other

/-- No messages, no texts. -/
theorem Says.wire_nil (h : Says y t a) {s : Side} (hnone : a.wire s = []) : t.wire s = [] := by
  have hall := h.wire s
  rwa [hnone, List.forall₂_nil_right_iff] at hall

/-- A turn over the texts is the turn over what they mean. -/
theorem Says.step (hy : y.Lawful) (hreads : ReadsCompact y) (h : Says y t a) (turn : Turn) :
    Says y (step (line y) (hearLine y) t turn) (stepMsg a turn) := by
  cases turn with
  | set s powerEnabled =>
    simp only [CommandLists.step, stepMsg, h.ends]
    exact h.setEnd s _
  | build s =>
    simp only [CommandLists.step, stepMsg, h.ends]
    split
    · exact h
    · exact h.setEnd s _
  | send s i now =>
    simp only [CommandLists.step, stepMsg, h.ends]
    split
    · exact h
    · exact h.say s _ now _
  | request s now =>
    simp only [CommandLists.step, stepMsg, h.ends]
    exact h.say s _ now _
  | run s key now =>
    simp only [CommandLists.step, stepMsg, h.ends]
    exact h.say s _ now _
  | hear s =>
    have hwire := h.wire s.other
    simp only [CommandLists.step, stepMsg, h.ends]
    split
    · exact h
    · cases htexts : t.wire s.other with
      | nil =>
        rw [htexts, List.forall₂_nil_left_iff] at hwire
        rw [hwire]
        exact h
      | cons text rest =>
        rw [htexts, List.forall₂_cons_left_iff] at hwire
        obtain ⟨msg, msgs, ⟨now, rfl⟩, hrest, hmsgs⟩ := hwire
        rw [hmsgs]
        dsimp only
        rw [hearLine_line hy hreads]
        refine ⟨by simp only [deliver, h.ends], fun other => ?_⟩
        by_cases heq : other = s.other
        · subst heq
          simp only [deliver, Function.update_self]
          exact hrest
        · simp only [deliver, Function.update_of_ne heq]
          exact h.wire other
  | check s opens =>
    simp only [CommandLists.step, stepMsg, h.ends]
    exact h.setEnd s _
  | call s =>
    simp only [CommandLists.step, stepMsg, h.ends]
    exact h.setEnd s _

/-- A conversation in texts is one in messages, over every run. -/
theorem says_run (hy : y.Lawful) (hreads : ReadsCompact y) (h : Says y t a) (turns : List Turn) :
    Says y (runTalk y t turns) (Runs.run stepMsg a turns) := by
  induction turns generalizing t a with
  | nil => exact h
  | cons turn turns ih => exact ih (h.step hy hreads turn)

/-- At the start nothing is on the wires. -/
theorem says_connected (y : Yyjson) (power : Side → Bool) :
    Says y (connected _ power) (connected Msg power) :=
  ⟨rfl, fun _ => .nil⟩

/-! ## What holds of every exchange -/

def Msg.key : Msg → Option String
  | .list _ => none
  | .request => none
  | .run key => some (cstr key)

def Msg.setting : Msg → Option Bool
  | .list powerEnabled => some powerEnabled
  | .request => none
  | .run _ => none

/-- The commands among packets. -/
def keysOf (msgs : List Msg) : List String := msgs.filterMap Msg.key

/-- The lists among packets. -/
def listsOf (msgs : List Msg) : List Bool := msgs.filterMap Msg.setting

/-- What will be shown of a console's commands once its packets have arrived. -/
def willShow (a : Talk Msg) (s : Side) : List (String × String) :=
  ((listsOf (a.wire s)).getLast?.map shown).getD (a.ends s.other).plugin.remoteCommands

def Stage.key : Stage → String
  | .heard key => key
  | .running r _ => r.key

/-- The calls that were made so far. -/
def Stage.made : Stage → List Op
  | .heard _ => []
  | .running r _ => r.calls

/-- The commands that were heard: those that were run, and the one that is. -/
def End.taken (e : End) : List String := e.ran.map Ran.key ++ (e.command.map Stage.key).toList

/-- What a console was asked to run it has run, in order, or is yet to hear. -/
def Ordered (a : Talk Msg) : Prop :=
  ∀ s, (a.ends s).asked = (a.ends s.other).taken ++ keysOf (a.wire s)

/-- A command makes its calls, one after the other. -/
structure Proper (e : End) : Prop where
  calls : e.calls = e.ran.flatMap Ran.calls ++ (e.command.map Stage.made).getD []
  ran : ∀ r ∈ e.ran, r.calls = runLocalCommand r.opens r.powerEnabled r.key
  running : ∀ r rest, e.command = some (.running r rest) →
    r.calls ++ rest = runLocalCommand r.opens r.powerEnabled r.key

/-- The lists that are put together are of the setting, and so is what will be shown unless a list
is due. -/
structure Current (a : Talk Msg) (s : Side) : Prop where
  built : ∀ powerEnabled ∈ (a.ends s).built, powerEnabled = (a.ends s).powerEnabled
  shows : (a.ends s).due = 0 → (a.ends s).built = [] → willShow a s = shown (a.ends s).powerEnabled

/-- The setting is not written between the making and the sending of a list. -/
def InTurn {μ : Type} (t : Talk μ) : Turn → Prop
  | .set s _ => (t.ends s).built = []
  | _ => True

/-- One more message brings one more list, or none. -/
theorem listsOf_append (msgs : List Msg) (msg : Msg) :
    listsOf (msgs ++ [msg]) = listsOf msgs ++ msg.setting.toList := by
  rw [listsOf, List.filterMap_append, List.filterMap_cons, List.filterMap_nil]
  cases msg.setting <;> rfl

/-- The first message brings the first list, if it brings one. -/
theorem listsOf_cons (msg : Msg) (msgs : List Msg) :
    listsOf (msg :: msgs) = msg.setting.toList ++ listsOf msgs := by
  rw [listsOf, List.filterMap_cons]
  cases msg.setting <;> rfl

/-- The end that is set. -/
@[simp] theorem ends_setEnd_self (a : Talk Msg) (s : Side) (e : End) : (setEnd a s e).ends s = e :=
  Function.update_self _ _ _

/-- The other end stays. -/
theorem ends_setEnd_ne (a : Talk Msg) {s u : Side} (h : u ≠ s) (e : End) :
    (setEnd a s e).ends u = a.ends u :=
  Function.update_of_ne h _ _

/-- The end that speaks. -/
@[simp] theorem ends_say_self (a : Talk Msg) (s : Side) (e : End) (msg : Msg) :
    (say a s e msg).ends s = e :=
  Function.update_self _ _ _

/-- The other end stays. -/
theorem ends_say_ne (a : Talk Msg) {s u : Side} (h : u ≠ s) (e : End) (msg : Msg) :
    (say a s e msg).ends u = a.ends u := Function.update_of_ne h _ _

/-- What is said goes behind what is on the wire. -/
@[simp] theorem wire_say_self (a : Talk Msg) (s : Side) (e : End) (msg : Msg) :
    (say a s e msg).wire s = a.wire s ++ [msg] := Function.update_self _ _ _

/-- The other wire stays. -/
theorem wire_say_ne (a : Talk Msg) {s u : Side} (h : u ≠ s) (e : End) (msg : Msg) :
    (say a s e msg).wire u = a.wire u := Function.update_of_ne h _ _

/-- The end that hears. -/
@[simp] theorem ends_deliver_self (a : Talk Msg) (s : Side) (e : End) (rest : List Msg) :
    (deliver a s e rest).ends s = e := Function.update_self _ _ _

/-- The other end stays. -/
@[simp] theorem ends_deliver_other (a : Talk Msg) (s : Side) (e : End) (rest : List Msg) :
    (deliver a s e rest).ends s.other = a.ends s.other := Function.update_of_ne s.other_ne _ _

/-- Its own wire stays. -/
@[simp] theorem wire_deliver_self (a : Talk Msg) (s : Side) (e : End) (rest : List Msg) :
    (deliver a s e rest).wire s = a.wire s := Function.update_of_ne s.ne_other _ _

/-- What was heard is off the wire. -/
@[simp] theorem wire_deliver_other (a : Talk Msg) (s : Side) (e : End) (rest : List Msg) :
    (deliver a s e rest).wire s.other = rest := Function.update_self _ _ _

/-- Nothing of a list is touched by a command. -/
theorem lists_checkCommand (opens : Service → Bool) (e : End) :
    (checkCommand opens e).plugin = e.plugin ∧
    (checkCommand opens e).built = e.built ∧ (checkCommand opens e).due = e.due ∧
      (checkCommand opens e).powerEnabled = e.powerEnabled := by
  unfold checkCommand
  split <;> exact ⟨rfl, rfl, rfl, rfl⟩

/-- A call leaves the lists and the setting alone. -/
theorem lists_callNext (e : End) : (callNext e).plugin = e.plugin ∧ (callNext e).built = e.built ∧
    (callNext e).due = e.due ∧ (callNext e).powerEnabled = e.powerEnabled := by
  unfold callNext
  split <;> exact ⟨rfl, rfl, rfl, rfl⟩

/-- What will be shown of a console depends on its packets and on what the other end shows. -/
theorem willShow_congr {b : Talk Msg} {s : Side} (hwire : b.wire s = a.wire s)
    (hplugin : (b.ends s.other).plugin = (a.ends s.other).plugin) :
    willShow b s = willShow a s := by
  rw [willShow, willShow, hwire, hplugin]

/-- A packet without a list changes nothing of it, a list is shown. -/
theorem willShow_say (a : Talk Msg) (s : Side) (e : End) (msg : Msg) :
    willShow (say a s e msg) s = (msg.setting.map shown).getD (willShow a s) := by
  rw [willShow, willShow, wire_say_self, listsOf_append, ends_say_ne a s.other_ne]
  cases msg.setting with
  | none => rw [Option.toList_none, List.append_nil]; rfl
  | some powerEnabled => rw [Option.toList_some, List.getLast?_concat]; rfl

/-- A list replaces the one that was there. -/
theorem plugin_hearMsg (msg : Msg) (e : End) :
    (hearMsg msg e).plugin.remoteCommands =
      (msg.setting.map shown).getD e.plugin.remoteCommands := by
  cases msg <;> rfl

/-- A change at one end that keeps its lists current. -/
theorem current_setEnd (h : ∀ u, Current a u) (s : Side) {e : End}
    (hplugin : e.plugin = (a.ends s).plugin)
    (hbuilt : ∀ powerEnabled ∈ e.built, powerEnabled = e.powerEnabled)
    (hshows : e.due = 0 → e.built = [] → willShow a s = shown e.powerEnabled) :
    ∀ u, Current (setEnd a s e) u := by
  intro u
  rcases s.eq_or_other u with rfl | rfl
  · have hwill : willShow (setEnd a u e) u = willShow a u :=
      willShow_congr rfl (congrArg End.plugin (ends_setEnd_ne a u.other_ne e))
    refine ⟨?_, ?_⟩
    · rw [ends_setEnd_self]
      exact hbuilt
    · rw [ends_setEnd_self, hwill]
      exact hshows
  · have hwill : willShow (setEnd a s e) s.other = willShow a s.other := by
      refine willShow_congr rfl ?_
      rw [Side.other_other, ends_setEnd_self, hplugin]
    have hs := h s.other
    refine ⟨?_, ?_⟩
    · rw [ends_setEnd_ne a s.other_ne]
      exact hs.built
    · rw [ends_setEnd_ne a s.other_ne, hwill]
      exact hs.shows

/-- The same for a change with which something is sent. -/
theorem current_say (h : ∀ u, Current a u) (s : Side) {e : End} {msg : Msg}
    (hplugin : e.plugin = (a.ends s).plugin)
    (hbuilt : ∀ powerEnabled ∈ e.built, powerEnabled = e.powerEnabled)
    (hshows : e.due = 0 → e.built = [] →
      (msg.setting.map shown).getD (willShow a s) = shown e.powerEnabled) :
    ∀ u, Current (say a s e msg) u := by
  intro u
  rcases s.eq_or_other u with rfl | rfl
  · refine ⟨?_, ?_⟩
    · rw [ends_say_self]
      exact hbuilt
    · rw [ends_say_self, willShow_say]
      exact hshows
  · have hwill : willShow (say a s e msg) s.other = willShow a s.other := by
      refine willShow_congr (wire_say_ne a s.other_ne e msg) ?_
      rw [Side.other_other, ends_say_self, hplugin]
    have hs := h s.other
    refine ⟨?_, ?_⟩
    · rw [ends_say_ne a s.other_ne]
      exact hs.built
    · rw [ends_say_ne a s.other_ne, hwill]
      exact hs.shows

/-- What hearing a packet does to the lists of the end that hears it. -/
theorem current_hearMsg {e : End} {shows : Prop} (msg : Msg)
    (hbuilt : ∀ powerEnabled ∈ e.built, powerEnabled = e.powerEnabled)
    (hshows : e.due = 0 → e.built = [] → shows) :
    (∀ powerEnabled ∈ (hearMsg msg e).built, powerEnabled = (hearMsg msg e).powerEnabled) ∧
      ((hearMsg msg e).due = 0 → (hearMsg msg e).built = [] → shows) := by
  cases msg with
  | list powerEnabled => exact ⟨hbuilt, hshows⟩
  | request => exact ⟨hbuilt, fun hdue => absurd hdue (Nat.succ_ne_zero _)⟩
  | run key => exact ⟨hbuilt, hshows⟩

/-- Hearing leaves the setting alone. -/
theorem powerEnabled_hearMsg (msg : Msg) (e : End) :
    (hearMsg msg e).powerEnabled = e.powerEnabled := by
  cases msg <;> rfl

/-- A turn whose lists are sent under the setting they were made for keeps both lists
current. -/
theorem current_stepMsg (h : ∀ u, Current a u) {turn : Turn} (hturn : InTurn a turn) :
    ∀ u, Current (stepMsg a turn) u := by
  cases turn with
  | set s powerEnabled =>
    have hbuilt : (a.ends s).built = [] := hturn
    refine current_setEnd h s rfl ?_ fun hdue => absurd hdue (Nat.succ_ne_zero _)
    dsimp only
    rw [hbuilt]
    exact fun _ hmem => absurd hmem List.not_mem_nil
  | build s =>
    simp only [stepMsg, step]
    split
    · exact h
    · refine current_setEnd h s rfl ?_ fun _ hbuilt => absurd hbuilt (by simp)
      intro powerEnabled hmem
      rcases List.mem_append.mp hmem with hmem | hmem
      · exact (h s).built powerEnabled hmem
      · exact List.mem_singleton.mp hmem
  | send s i now =>
    simp only [stepMsg, step]
    cases hget : (a.ends s).built[i]? with
    | none => exact h
    | some powerEnabled =>
      have hnow : powerEnabled = (a.ends s).powerEnabled :=
        (h s).built _ (List.mem_of_getElem? hget)
      refine current_say h s rfl
        (fun other hmem => (h s).built other (List.mem_of_mem_eraseIdx hmem)) fun _ _ => ?_
      rw [hnow]
      rfl
  | request s now => exact current_say h s rfl (h s).built (h s).shows
  | run s key now => exact current_say h s rfl (h s).built (h s).shows
  | check s opens =>
    obtain ⟨hplugin, hbuilt, hdue, hpower⟩ := lists_checkCommand opens (a.ends s)
    refine current_setEnd h s hplugin ?_ ?_
    · rw [hbuilt, hpower]
      exact (h s).built
    · rw [hbuilt, hdue, hpower]
      exact (h s).shows
  | call s =>
    obtain ⟨hplugin, hbuilt, hdue, hpower⟩ := lists_callNext (a.ends s)
    refine current_setEnd h s hplugin ?_ ?_
    · rw [hbuilt, hpower]
      exact (h s).built
    · rw [hbuilt, hdue, hpower]
      exact (h s).shows
  | hear s =>
    simp only [stepMsg, step]
    split
    · exact h
    cases hwire : a.wire s.other with
    | nil => exact h
    | cons msg rest =>
      intro u
      dsimp only
      rcases s.eq_or_other u with rfl | rfl
      · obtain ⟨hbuilt, hshows⟩ := current_hearMsg msg (h u).built (h u).shows
        have hwill : willShow (deliver a u (hearMsg msg (a.ends u)) rest) u = willShow a u :=
          willShow_congr (wire_deliver_self a u _ rest)
            (congrArg End.plugin (ends_deliver_other a u _ rest))
        refine ⟨?_, ?_⟩
        · rw [ends_deliver_self]
          exact hbuilt
        · rw [ends_deliver_self, powerEnabled_hearMsg, hwill]
          exact hshows
      · have hs := h s.other
        have hwill : willShow (deliver a s (hearMsg msg (a.ends s)) rest) s.other =
            willShow a s.other := by
          rw [willShow, willShow, hwire, listsOf_cons, Side.other_other, ends_deliver_self,
            wire_deliver_other, plugin_hearMsg]
          cases msg.setting with
          | none => rfl
          | some powerEnabled =>
            rw [Option.toList_some, List.singleton_append, List.getLast?_cons]
            cases (listsOf rest).getLast? <;> rfl
        refine ⟨?_, ?_⟩
        · rw [ends_deliver_other]
          exact hs.built
        · rw [ends_deliver_other, hwill]
          exact hs.shows

/-- Both are still to send the list of the start. -/
theorem current_connected (power : Side → Bool) (s : Side) : Current (connected Msg power) s :=
  ⟨fun _ hmem => absurd hmem List.not_mem_nil, fun hdue => absurd hdue Nat.one_ne_zero⟩

/-- The order of a turn is the same for texts and messages. -/
theorem inTurn_iff (h : Says y t a) (turn : Turn) : InTurn t turn ↔ InTurn a turn := by
  cases turn with
  | set s powerEnabled => rw [InTurn, InTurn, h.ends]
  | build s | send s i now | request s now | run s key now | hear s | check s opens | call s =>
    exact Iff.rfl

/-- And so is that of a whole run. -/
theorem everyStep_texts (hy : y.Lawful) (hreads : ReadsCompact y) (h : Says y t a)
    {turns : List Turn}
    (hturns : EveryStep (step (line y) (hearLine y)) InTurn t turns) :
    EveryStep stepMsg InTurn a turns := by
  induction turns generalizing t a with
  | nil => trivial
  | cons turn turns ih =>
    exact ⟨(inTurn_iff h turn).mp hturns.1, ih (h.step hy hreads turn) hturns.2⟩

/-- Whatever the order of settings, connections, commands and arrivals, once no list is due and all
packets of a console have arrived, the other one shows the commands it offers under its setting,
unless the setting was written between the making and the sending of a list. -/
theorem lists_agree {y : Yyjson} (hy : y.Lawful) (hreads : ReadsCompact y) (power : Side → Bool)
    {turns : List Turn} (hturns : EveryStep (step (line y) (hearLine y)) InTurn
        (connected _ power) turns)
    (s : Side) (hdue : ((runTalk y (connected _ power) turns).ends s).due = 0)
    (hbuilt : ((runTalk y (connected _ power) turns).ends s).built = [])
    (hwire : (runTalk y (connected _ power) turns).wire s = []) :
    ((runTalk y (connected _ power) turns).ends s.other).plugin.remoteCommands =
      shown ((runTalk y (connected _ power) turns).ends s).powerEnabled := by
  have htexts := says_run hy hreads (says_connected y power) turns
  have hcurrent : ∀ u, Current (Runs.run stepMsg (connected Msg power) turns) u :=
    (always_of_everyStep (P := fun a => ∀ u, Current a u)
      (fun _ _ h hturn => current_stepMsg h hturn)
      (current_connected power) (everyStep_texts hy hreads (says_connected y power) hturns)).last
  have hnone : (Runs.run stepMsg (connected Msg power) turns).wire s = [] := by
    have hall := htexts.wire s
    rwa [hwire, List.forall₂_nil_left_iff] at hall
  rw [htexts.ends] at hdue hbuilt ⊢
  rw [← (hcurrent s).shows hdue hbuilt, willShow, hnone]
  rfl

/-- What a run of a command is: nothing if it was not offered under the setting it read, else what
it is for; and nothing that restarts or turns off the console unless that setting was on. -/
structure Meant (r : Ran) : Prop where
  refused : r.key ∉ (offered r.powerEnabled).map NxCommand.key → r.calls = []
  done : r.key ∈ (offered r.powerEnabled).map NxCommand.key →
    ∃ action, (r.key, action) ∈ actions ∧ r.calls = callsOf r.opens action
  power : ∀ op ∈ r.calls, op.isPower = true → r.powerEnabled = true

/-- The setting is written just after the connection was made; both lists are put together and
arrive. -/
def lateSetting : List Turn :=
  [.set .left true, .build .left, .build .left, .send .left 0 0, .send .left 0 1, .hear .right,
    .hear .right]

/-- A setting written between two lists, both of them sent behind it. -/
theorem lists_agree_lateSetting :
    ((runTalk .reference (connected _ fun _ => false) lateSetting).ends
      (Side.other .left)).plugin.remoteCommands =
      shown true := by
  have hturns : EveryStep (step (line .reference) (hearLine .reference)) InTurn
      (connected _ fun _ => false)
      lateSetting := ⟨rfl, trivial, trivial, trivial, trivial, trivial, trivial, trivial⟩
  have htexts :=
    says_run Yyjson.reference_lawful reference_readsCompact
      (says_connected .reference fun _ => false)
    lateSetting
  have hends : (runTalk .reference (connected _ fun _ => false) lateSetting).ends .left =
      { powerEnabled := true } := by
    rw [htexts.ends]
    rfl
  have hwire : (runTalk .reference (connected _ fun _ => false) lateSetting).wire .left = [] :=
    htexts.wire_nil rfl
  exact (lists_agree Yyjson.reference_lawful reference_readsCompact (fun _ => false) hturns .left
    (congrArg End.due hends) (congrArg End.built hends) hwire).trans
    (congrArg shown (congrArg End.powerEnabled hends))

/-- A list that was put together before the setting was written and sent after the new one stays. -/
example :
    ((Runs.run stepMsg (connected Msg fun _ => false)
      [.build .left, .set .left true, .build .left, .send .left 1 0, .send .left 0 0,
        .hear .right, .hear .right]).ends .right).plugin.remoteCommands ≠ shown true := by
  decide

end KdeConnectNx.CommandLists
