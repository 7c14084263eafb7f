import Mathlib.Data.List.Nodup
import KdeConnectNx.Runs

/-!
# The server of the overlay's sessions

The server waits on its service handle and on the handles of its sessions, one array with
the service in front. A session that is accepted is added at the end or closed at once, one
whose turn fails is closed and taken out. What the kernel and the handler do is not known.
-/

namespace KdeConnectNx.IpcSessions

open Runs

abbrev Handle := ℕ

/-- `Result`: success, an error of the library, or one that the kernel or the handler chose. -/
inductive Rc where
  | succeeded
  | badInput
  | outOfMemory
  | notFound
  | timedOut
  /-- `MAKERESULT(11, 403)`. -/
  | unknownType
  | other (code : ℕ)
deriving DecidableEq, Repr

def MAX_WAIT_OBJECTS : ℕ := 0x40

/-- `IpcServer`, without the name of the service. -/
structure IpcServer where
  handles : List Handle
  max : ℕ
  count : ℕ
deriving DecidableEq, Repr

/-- What a message is, by its `CmifCommandType`. -/
inductive CommandType where
  | request
  | close
  | other
deriving DecidableEq, Repr

/-- `IpcServerRawHeader`. -/
structure RawHeader where
  magic : ℕ
  cmdId : ℕ
deriving DecidableEq, Repr

/-- A message as `hipcParseRequest` finds it, with the header at the aligned start of its data. -/
structure Hipc where
  type : CommandType
  numDataWords : ℕ
  header : Option RawHeader
deriving DecidableEq, Repr

/-- `IpcServerRequestData`, the pointer left out: it is where the header ends. -/
structure RequestData where
  cmdId : ℕ
  size : ℕ
deriving DecidableEq, Repr

/-- What the client reads. -/
structure Response where
  result : Rc
  data : List UInt8
deriving DecidableEq, Repr

/-- `CMIF_IN_HEADER_MAGIC`. -/
def CMIF_IN_HEADER_MAGIC : ℕ := 0x49434653

def rawHeaderSize : ℕ := 16

/-- What the server does to a session, in its order. -/
inductive Call where
  | accepted (h : Handle)
  | closed (h : Handle)
  | received (h : Handle) (message : Hipc)
  | handled (h : Handle) (data : RequestData)
  | replied (h : Handle) (response : Response)
deriving DecidableEq, Repr

/-- What the kernel and the handler do in one call of `ipcServerProcess`. -/
structure Turn where
  /-- `svcWaitSynchronization`. -/
  wait : Except Rc ℤ
  /-- `svcAcceptSession`. -/
  accept : Except Rc Handle
  /-- The first `svcReplyAndReceive`. -/
  receive : Except Rc Hipc
  handler : RequestData → Rc × List UInt8
  /-- The second `svcReplyAndReceive`. -/
  reply : Rc

/-- `ipcServerInit`, with what stands in the array and what `smRegisterService` gives. -/
def ipcServerInit (handles : List Handle) (maxSessions : ℕ) (register : Except Rc Handle) :
    Rc × Option IpcServer :=
  if maxSessions < 1 ∨ MAX_WAIT_OBJECTS - 1 < maxSessions then (.badInput, none)
  else
    match register with
    | .error rc => (rc, some { handles := handles, max := maxSessions + 1, count := 0 })
    | .ok service =>
      (.succeeded, some { handles := handles.set 0 service, max := maxSessions + 1, count := 1 })

/-- `ipcServerExit`: the server and the handles that are closed. -/
def ipcServerExit (server : IpcServer) : IpcServer × List Handle :=
  ({ server with count := 0 }, server.handles.take server.count)

/-- `_ipcServerAddSession`. -/
def addSession (server : IpcServer) (session : Handle) : IpcServer × Rc :=
  if server.max ≤ server.count then (server, .outOfMemory)
  else
    ({ server with handles := server.handles.set server.count session, count := server.count + 1 },
      .succeeded)

/-- The loop of `_ipcServerDeleteSession` from `j` on, for so many places. -/
def shiftFrom (handles : List Handle) (j : ℕ) : ℕ → List Handle
  | 0 => handles
  | n + 1 => shiftFrom (handles.set j (handles.getD (j + 1) 0)) (j + 1) n

/-- `_ipcServerDeleteSession`. -/
def deleteSession (server : IpcServer) (index : ℕ) : IpcServer × List Call :=
  if index = 0 ∨ server.count ≤ index then (server, [])
  else
    ({ server with
        handles := shiftFrom server.handles index (server.count - 1 - index)
        count := server.count - 1 }, [.closed (server.handles.getD index 0)])

/-- `_ipcServerParseRequest`. -/
def parseRequest (message : Hipc) : Except Rc RequestData :=
  if message.type = .request then
    let dataSize := message.numDataWords * 4
    match message.header with
    | none => .error .badInput
    | some header =>
      if dataSize < rawHeaderSize ∨ header.magic ≠ CMIF_IN_HEADER_MAGIC then .error .badInput
      else .ok ⟨header.cmdId, if rawHeaderSize < dataSize then dataSize - rawHeaderSize else 0⟩
  else .ok ⟨0, 0⟩

/-- `_ipcServerPrepareResponse`: data is copied with a success only. -/
def prepareResponse (rc : Rc) (data : List UInt8) : Response :=
  ⟨rc, if rc = .succeeded then data else []⟩

/-- The answer to a message, and whether the session ends with it. -/
def answer (h : Handle) (message : Hipc) (data : RequestData)
    (handler : RequestData → Rc × List UInt8) :
    List Call × Bool :=
  match message.type with
  | .request =>
    ([.handled h data, .replied h (prepareResponse (handler data).1 (handler data).2)], false)
  | .close => ([.replied h (prepareResponse .succeeded [])], true)
  | .other => ([.replied h (prepareResponse .unknownType [])], false)

/-- `_ipcServerProcessNewSession`. -/
def processNewSession (server : IpcServer) (turn : Turn) : IpcServer × List Call × Rc :=
  match turn.accept with
  | .error rc => (server, [], rc)
  | .ok session =>
    let (after, rc) := addSession server session
    if rc = .succeeded then (after, [.accepted session], rc)
    else (after, [.accepted session, .closed session], rc)

/-- `_ipcServerProcessSession`. -/
def processSession (server : IpcServer) (turn : Turn) (index : ℕ) : IpcServer × List Call × Rc :=
  let h := server.handles.getD index 0
  match turn.receive with
  | .error rc => let (after, calls) := deleteSession server index; (after, calls, rc)
  | .ok message =>
    match parseRequest message with
    | .error rc =>
      let (after, calls) := deleteSession server index
      (after, .received h message :: calls, rc)
    | .ok data =>
      let (calls, close) := answer h message data turn.handler
      let rc := if turn.reply = .timedOut then .succeeded else turn.reply
      if rc ≠ .succeeded ∨ close then
        let (after, closing) := deleteSession server index
        (after, .received h message :: calls ++ closing, rc)
      else (server, .received h message :: calls, rc)

/-- `ipcServerProcess`. -/
def ipcServerProcess (server : IpcServer) (turn : Turn) : IpcServer × List Call × Rc :=
  match turn.wait with
  | .error rc => (server, [], rc)
  | .ok handleIndex =>
    if handleIndex < 0 ∨ server.count ≤ handleIndex.toNat then (server, [], .notFound)
    else if handleIndex = 0 then processNewSession server turn
    else processSession server turn handleIndex.toNat

/-! ## The array -/

/-- The handles that are waited on. -/
def IpcServer.live (server : IpcServer) : List Handle := server.handles.take server.count

variable {handles : List Handle} {server : IpcServer} {turn : Turn} {service session : Handle}
    {index : ℕ}

theorem getElem?_shiftFrom {j n : ℕ} (h : j + n < handles.length) (i : ℕ) :
    (shiftFrom handles j n)[i]? = if j ≤ i ∧ i < j + n then handles[i + 1]? else handles[i]? := by
  induction n generalizing handles j with
  | zero => rw [shiftFrom, if_neg (by omega)]
  | succ n ih =>
    have hnext : handles.getD (j + 1) 0 = handles[j + 1] := by
      rw [List.getD_eq_getElem?_getD, List.getElem?_eq_getElem (by omega), Option.getD_some]
    rw [shiftFrom, ih (by rw [List.length_set]; omega), List.getElem?_set, List.getElem?_set, hnext]
    by_cases hi : i = j
    · subst hi
      rw [if_neg (by omega), if_pos rfl, if_pos (by omega), if_pos (by omega),
        List.getElem?_eq_getElem (by omega)]
    · by_cases hin : j + 1 ≤ i ∧ i < j + 1 + n
      · rw [if_pos hin, if_neg (by omega), if_pos (by omega)]
      · rw [if_neg hin, if_neg (Ne.symm hi), if_neg (by omega)]

theorem length_shiftFrom (handles : List Handle) (j n : ℕ) :
    (shiftFrom handles j n).length = handles.length := by
  induction n generalizing handles j with
  | zero => rfl
  | succ n ih => rw [shiftFrom, ih, List.length_set]

/-- The array has its places and the service in front, and no more handles than are allowed. -/
structure Tabled (service : Handle) (server : IpcServer) : Prop where
  places : server.handles.length = MAX_WAIT_OBJECTS
  max : server.max ≤ MAX_WAIT_OBJECTS
  count : 1 ≤ server.count ∧ server.count ≤ server.max
  service : server.handles[0]? = some service

theorem Tabled.length_live (h : Tabled service server) : server.live.length = server.count := by
  have hplaces := h.places
  have hmax := h.max
  have hcount := h.count
  rw [IpcServer.live, List.length_take]
  omega

/-- A session is added behind the others, or there is no place for it. -/
theorem addSession_eq (h : Tabled service server) (session : Handle) :
    (addSession server session = (server, .outOfMemory) ∧ server.count = server.max) ∨
      ((addSession server session).2 = .succeeded ∧ Tabled service (addSession server session).1 ∧
        (addSession server session).1.live = server.live ++ [session]) := by
  have hplaces := h.places
  have hmax := h.max
  have hcount := h.count
  unfold addSession
  by_cases hfull : server.max ≤ server.count
  · rw [if_pos hfull]
    exact .inl ⟨rfl, by omega⟩
  · rw [if_neg hfull]
    refine .inr ⟨rfl, ⟨?_, hmax, ⟨by dsimp only; omega, by dsimp only; omega⟩, ?_⟩, ?_⟩
    · dsimp only
      rw [List.length_set, hplaces]
    · dsimp only
      rw [List.getElem?_set_ne (by omega)]
      exact h.service
    · rw [IpcServer.live, IpcServer.live]
      dsimp only
      rw [List.take_add_one, List.take_set_of_le (Nat.le_refl _), List.getElem?_set_self (by omega)]
      rfl

/-- A session is taken out and the others keep their order. -/
theorem deleteSession_eq (h : Tabled service server) (hpos : index ≠ 0)
    (hlt : index < server.count) :
    (deleteSession server index).2 = [.closed (server.live.getD index 0)] ∧
      Tabled service (deleteSession server index).1 ∧
      (deleteSession server index).1.live = server.live.eraseIdx index := by
  have hplaces := h.places
  have hmax := h.max
  have hcount := h.count
  have hroom : index + (server.count - 1 - index) < server.handles.length := by omega
  rw [deleteSession, if_neg (by omega)]
  refine ⟨?_, ⟨?_, hmax, ⟨by dsimp only; omega, by dsimp only; omega⟩, ?_⟩, ?_⟩
  · rw [IpcServer.live, List.getD_eq_getElem?_getD, List.getD_eq_getElem?_getD, List.getElem?_take,
      if_pos hlt]
  · dsimp only
    rw [length_shiftFrom, hplaces]
  · dsimp only
    rw [getElem?_shiftFrom hroom, if_neg (by omega)]
    exact h.service
  · refine List.ext_getElem? fun i => ?_
    rw [IpcServer.live, IpcServer.live]
    dsimp only
    rw [List.getElem?_take, List.getElem?_eraseIdx, List.getElem?_take, List.getElem?_take,
      getElem?_shiftFrom hroom]
    by_cases hi : i < server.count - 1
    · rw [if_pos hi, if_pos (by omega : i < server.count), if_pos (by omega : i + 1 < server.count)]
      by_cases hindex : i < index
      · rw [if_pos hindex, if_neg (by omega)]
      · rw [if_neg hindex, if_pos (by omega)]
    · rw [if_neg hi, if_neg (by omega : ¬ i < index), if_neg (by omega)]

/-! ## What the sessions see -/

/-- The open sessions behind a call. -/
def openedBy (sessions : List Handle) : Call → List Handle
  | .accepted h => sessions ++ [h]
  | .closed h => sessions.erase h
  | _ => sessions

/-- The sessions that were accepted and are not closed, in the order of their coming. -/
def opened (calls : List Call) : List Handle := calls.foldl openedBy []

/-- A well-formed request: with a header in front, for this command and so many bytes. -/
def Hipc.Asks (message : Hipc) (data : RequestData) : Prop :=
  message.type = .request ∧ message.header = some ⟨CMIF_IN_HEADER_MAGIC, data.cmdId⟩ ∧
    message.numDataWords * 4 = rawHeaderSize + data.size

/-- A message and what it is answered; whether the session ends with it. -/
inductive Exchange (h : Handle) (handler : RequestData → Rc × List UInt8) (message : Hipc) :
    Bool → List Call → Prop
  | request {data : RequestData} {out : List UInt8} (hasks : message.Asks data)
      (hhandler : handler data = (.succeeded, out)) :
      Exchange h handler message false
        [.received h message, .handled h data, .replied h ⟨.succeeded, out⟩]
  /-- The handler failed: its result is all that goes back. -/
  | denied {data : RequestData} {rc : Rc} {out : List UInt8} (hasks : message.Asks data)
      (hhandler : handler data = (rc, out)) (hrc : rc ≠ .succeeded) :
      Exchange h handler message false
        [.received h message, .handled h data, .replied h ⟨rc, []⟩]
  | close (htype : message.type = .close) :
      Exchange h handler message true [.received h message, .replied h ⟨.succeeded, []⟩]
  | other (htype : message.type = .other) :
      Exchange h handler message false [.received h message, .replied h ⟨.unknownType, []⟩]

/-- The reply has gone out: nothing more came in the meantime. -/
def Turn.Sent (turn : Turn) : Prop := turn.reply = .succeeded ∨ turn.reply = .timedOut

/-- The session that the turn is about: what is waited on is the service, then the sessions. -/
def Turn.Wakes (turn : Turn) (sessions : List Handle) (h : Handle) : Prop :=
  ∃ place : ℕ, turn.wait = .ok (place + 1) ∧ sessions[place]? = some h

/-- What is done in a turn, while these sessions are open. -/
inductive Part (maxSessions : ℕ) (sessions : List Handle) (turn : Turn) : List Call → Prop
  /-- The wait failed, or it named nobody. -/
  | nothing (hwait : ∀ place : ℕ, turn.wait = .ok place → sessions.length < place) :
      Part maxSessions sessions turn []
  | unaccepted {rc : Rc} (hwait : turn.wait = .ok 0) (haccept : turn.accept = .error rc) :
      Part maxSessions sessions turn []
  | accepted {h : Handle} (hwait : turn.wait = .ok 0) (haccept : turn.accept = .ok h)
      (hnew : h ∉ sessions) (hroom : sessions.length < maxSessions) :
      Part maxSessions sessions turn [.accepted h]
  /-- There is no place for it. -/
  | refused {h : Handle} (hwait : turn.wait = .ok 0) (haccept : turn.accept = .ok h)
      (hnew : h ∉ sessions) (hfull : sessions.length = maxSessions) :
      Part maxSessions sessions turn [.accepted h, .closed h]
  /-- Nothing could be received. -/
  | lost {h : Handle} {rc : Rc} (hwakes : turn.Wakes sessions h)
    (hreceive : turn.receive = .error rc) :
      Part maxSessions sessions turn [.closed h]
  | malformed {h : Handle} {message : Hipc} (hwakes : turn.Wakes sessions h)
      (hreceive : turn.receive = .ok message) (htype : message.type = .request)
      (hmalformed : ∀ data, ¬ message.Asks data) :
      Part maxSessions sessions turn [.received h message, .closed h]
  | answered {h : Handle} {message : Hipc} {calls : List Call} (hwakes : turn.Wakes sessions h)
      (hreceive : turn.receive = .ok message)
    (hexchange : Exchange h turn.handler message false calls)
      (hsent : turn.Sent) : Part maxSessions sessions turn calls
  /-- The client closed the session, or it could not be answered. -/
  | last {h : Handle} {message : Hipc} {ends : Bool} {calls : List Call}
      (hwakes : turn.Wakes sessions h) (hreceive : turn.receive = .ok message)
      (hexchange : Exchange h turn.handler message ends calls) (hends : ends = true ∨ ¬ turn.Sent) :
      Part maxSessions sessions turn (calls ++ [.closed h])

/-- Turn after turn, each with the sessions that are open by then. -/
inductive Talk (maxSessions : ℕ) : List Turn → List Call → Prop
  | nil : Talk maxSessions [] []
  | turn {turns : List Turn} {turn : Turn} {calls more : List Call}
    (htalk : Talk maxSessions turns calls)
      (hpart : Part maxSessions (opened calls) turn more) :
      Talk maxSessions (turns ++ [turn]) (calls ++ more)

theorem opened_append (calls more : List Call) :
    opened (calls ++ more) = more.foldl openedBy (opened calls) :=
  List.foldl_append

/-- An exchange opens and closes nothing. -/
theorem Exchange.keeps_opened {h : Handle} {handler : RequestData → Rc × List UInt8}
    {message : Hipc}
    {ends : Bool} {more : List Call} (hexchange : Exchange h handler message ends more)
    (calls : List Call) : opened (calls ++ more) = opened calls := by
  rw [opened_append]
  cases hexchange <;> rfl

/-- What is parsed to a command is a well-formed request or no request. -/
theorem asks_of_parseRequest {message : Hipc} {data : RequestData}
    (h : parseRequest message = .ok data) (htype : message.type = .request) :
    message.Asks data := by
  rw [parseRequest, if_pos htype] at h
  dsimp only at h
  split at h
  · cases h
  · next header hheader =>
    split at h
    · cases h
    · next hsound =>
      obtain ⟨hsize, hmagic⟩ := not_or.mp hsound
      obtain rfl := Except.ok.inj h
      refine ⟨htype, ?_, ?_⟩
      · rw [hheader, ← not_not.mp hmagic]
      · dsimp only
        split <;> omega

/-- What is not parsed is a request and not a well-formed one. -/
theorem malformed_of_parseRequest {message : Hipc} {rc : Rc}
    (h : parseRequest message = .error rc) :
    message.type = .request ∧ ∀ data, ¬ message.Asks data := by
  unfold parseRequest at h
  split at h
  · next htype =>
    refine ⟨htype, fun data hasks => ?_⟩
    obtain ⟨-, hheader, hsize⟩ := hasks
    rw [hheader] at h
    dsimp only at h
    rw [if_neg (by omega)] at h
    cases h
  · cases h

/-- What is answered is an exchange. -/
theorem exchange_answer (h : Handle) {message : Hipc} {data : RequestData}
    (hdata : parseRequest message = .ok data) (handler : RequestData → Rc × List UInt8) :
    Exchange h handler message (answer h message data handler).2
      (.received h message :: (answer h message data handler).1) := by
  unfold answer
  cases htype : message.type with
  | request =>
    have hasks := asks_of_parseRequest hdata htype
    dsimp only
    unfold prepareResponse
    by_cases hsuccess : (handler data).1 = .succeeded
    · rw [if_pos hsuccess, hsuccess]
      exact .request hasks (Prod.ext hsuccess rfl)
    · rw [if_neg hsuccess]
      exact .denied hasks rfl hsuccess
  | close => exact .close htype
  | other => exact .other htype

/-- The server and all it did to its sessions. -/
structure Serving where
  server : IpcServer
  calls : List Call := []

/-- One call of `ipcServerProcess`. -/
def step (s : Serving) (turn : Turn) : Serving :=
  { server := (ipcServerProcess s.server turn).1,
    calls := s.calls ++ (ipcServerProcess s.server turn).2.1 }

/-- The kernel does not give out a handle that is still open. -/
def Fresh (s : Serving) (turn : Turn) : Prop :=
  ∀ session, turn.accept = .ok session → session ∉ s.server.live

/-- The array holds the service and the open sessions. -/
structure Good (service : Handle) (maxSessions : ℕ) (s : Serving) : Prop where
  tabled : Tabled service s.server
  max : s.server.max = maxSessions + 1
  live : s.server.live = service :: opened s.calls
  nodup : s.server.live.Nodup

variable {s : Serving} {maxSessions : ℕ}

/-- As many sessions are open as handles are waited on behind the service. -/
theorem Good.count (h : Good service maxSessions s) :
    s.server.count = (opened s.calls).length + 1 := by
  rw [← h.tabled.length_live, h.live, List.length_cons]

/-- The session at a place behind the service, and what is left without it. -/
theorem Good.session_at (h : Good service maxSessions s) {place : ℕ}
    (hlt : place + 1 < s.server.count) :
    (opened s.calls)[place]? = some (s.server.live.getD (place + 1) 0) ∧
      s.server.live.eraseIdx (place + 1) =
        service :: (opened s.calls).erase (s.server.live.getD (place + 1) 0) ∧
      (s.server.live.eraseIdx (place + 1)).Nodup := by
  have hcount := h.count
  have hnodup := h.nodup
  rw [h.live] at hnodup ⊢
  have hplace : place < (opened s.calls).length := by omega
  have hget : (service :: opened s.calls).getD (place + 1) 0 = (opened s.calls)[place] := by
    rw [List.getD_cons_succ, List.getD_eq_getElem?_getD, List.getElem?_eq_getElem hplace,
      Option.getD_some]
  refine ⟨?_, ?_, hnodup.eraseIdx _⟩
  · rw [hget, List.getElem?_eq_getElem hplace]
  · rw [hget, List.eraseIdx_cons_succ, (List.nodup_cons.mp hnodup).2.erase_getElem]

/-- What a turn leads to: the server as it should be, and calls that suit the turn. -/
structure Served (service : Handle) (maxSessions : ℕ) (s : Serving) (turn : Turn)
    (after : IpcServer) (calls : List Call) : Prop where
  good : Good service maxSessions ⟨after, s.calls ++ calls⟩
  part : Part maxSessions (opened s.calls) turn calls

/-- Nothing is done. -/
theorem Good.unchanged (h : Good service maxSessions s)
    (hpart : Part maxSessions (opened s.calls) turn []) :
    Served service maxSessions s turn s.server [] := by
  refine ⟨?_, hpart⟩
  rw [List.append_nil]
  exact h

/-- What a session is closed with. -/
theorem Good.delete (h : Good service maxSessions s) {place : ℕ} (hlt : place + 1 < s.server.count)
    (calls : List Call) (hopened : opened (s.calls ++ calls) = opened s.calls)
    (hpart : Part maxSessions (opened s.calls) turn
      (calls ++ [.closed (s.server.live.getD (place + 1) 0)])) :
    Served service maxSessions s turn (deleteSession s.server (place + 1)).1
      (calls ++ (deleteSession s.server (place + 1)).2) := by
  obtain ⟨hclosed, htabled, hlive⟩ := deleteSession_eq h.tabled (Nat.succ_ne_zero place) hlt
  obtain ⟨-, herase, hnodup⟩ := h.session_at hlt
  rw [hclosed]
  refine ⟨⟨htabled, ?_, ?_, ?_⟩, hpart⟩
  · dsimp only
    rw [deleteSession]
    split
    · exact h.max
    · exact h.max
  · dsimp only
    rw [hlive, herase, ← List.append_assoc, opened_append, hopened]
    rfl
  · dsimp only
    rw [hlive]
    exact hnodup

/-- A new session is added, or closed again. -/
theorem newSession_served (h : Good service maxSessions s) (hfresh : Fresh s turn)
    (hwait : turn.wait = .ok 0) :
    Served service maxSessions s turn (processNewSession s.server turn).1
      (processNewSession s.server turn).2.1 := by
  have hcount := h.count
  have hmax := h.max
  unfold processNewSession
  cases haccept : turn.accept with
  | error rc => exact h.unchanged (.unaccepted hwait haccept)
  | ok session =>
    have hnew := hfresh session haccept
    have hunknown : session ∉ opened s.calls := by
      rw [h.live] at hnew
      exact fun hmem => hnew (List.mem_cons_of_mem _ hmem)
    rcases addSession_eq h.tabled session with ⟨hadd, hfull⟩ | ⟨hadd, htabled, hlive⟩
    · simp only [hadd]
      rw [if_neg (by decide)]
      refine ⟨⟨h.tabled, h.max, ?_, h.nodup⟩, .refused hwait haccept hunknown (by omega)⟩
      dsimp only
      rw [h.live, opened_append]
      simp only [List.foldl_cons, List.foldl_nil, openedBy]
      rw [List.erase_append_right _ hunknown, List.erase_cons_head, List.append_nil]
    · dsimp only
      rw [if_pos hadd]
      have hroom := htabled.count.2
      have hlength := htabled.length_live
      rw [hlive, List.length_append, h.tabled.length_live, List.length_singleton] at hlength
      have hsame : (addSession s.server session).1.max = s.server.max := by
        rw [addSession]
        split <;> rfl
      refine ⟨⟨htabled, ?_, ?_, ?_⟩, .accepted hwait haccept hunknown (by omega)⟩
      · exact hsame.trans hmax
      · dsimp only
        rw [hlive, h.live, opened_append, List.cons_append]
        rfl
      · dsimp only
        rw [hlive]
        exact List.nodup_append.mpr ⟨h.nodup, by simp, fun a ha b hb => by
          obtain rfl := List.mem_singleton.mp hb
          rintro rfl
          exact hnew ha⟩

/-- A session is answered, or it ends. -/
theorem session_served (h : Good service maxSessions s) {place : ℕ}
    (hlt : place + 1 < s.server.count) (hwait : turn.wait = .ok (place + 1)) :
    Served service maxSessions s turn (processSession s.server turn (place + 1)).1
      (processSession s.server turn (place + 1)).2.1 := by
  have hhandle : s.server.handles.getD (place + 1) 0 = s.server.live.getD (place + 1) 0 := by
    rw [IpcServer.live, List.getD_eq_getElem?_getD, List.getD_eq_getElem?_getD, List.getElem?_take,
      if_pos hlt]
  have hwakes : turn.Wakes (opened s.calls) (s.server.live.getD (place + 1) 0) :=
    ⟨place, hwait, (h.session_at hlt).1⟩
  unfold processSession
  rw [hhandle]
  cases hreceive : turn.receive with
  | error rc => exact h.delete hlt [] (by rw [List.append_nil]) (.lost hwakes hreceive)
  | ok message =>
    dsimp only
    cases hparse : parseRequest message with
    | error rc =>
      exact h.delete hlt [.received (s.server.live.getD (place + 1) 0) message]
        (by rw [opened_append]; rfl)
          (.malformed hwakes hreceive (malformed_of_parseRequest hparse).1
            (malformed_of_parseRequest hparse).2)
    | ok data =>
      have hexchange := exchange_answer (s.server.live.getD (place + 1) 0) hparse turn.handler
      have hsent : (if turn.reply = .timedOut then Rc.succeeded else turn.reply) = .succeeded ↔
          turn.Sent := by
        unfold Turn.Sent
        by_cases htimed : turn.reply = .timedOut
        · rw [if_pos htimed]
          exact iff_of_true rfl (.inr htimed)
        · rw [if_neg htimed, or_iff_left htimed]
      dsimp only
      generalize (if turn.reply = .timedOut then Rc.succeeded else turn.reply) = rc at hsent ⊢
      split
      · next hends =>
        rw [ne_eq, hsent] at hends
        exact h.delete hlt _ (hexchange.keeps_opened s.calls)
          (.last hwakes hreceive hexchange hends.symm)
      · next hstays =>
        rw [ne_eq, hsent] at hstays
        obtain ⟨hsuccess, hopen⟩ := not_or.mp hstays
        refine ⟨⟨h.tabled, h.max, ?_, h.nodup⟩, .answered hwakes hreceive
          (eq_false_of_ne_true hopen ▸ hexchange) (not_not.mp hsuccess)⟩
        rw [hexchange.keeps_opened]
        exact h.live

/-- Every turn keeps the array as it should be, and its calls suit it. -/
theorem step_served (h : Good service maxSessions s) (hfresh : Fresh s turn) :
    Served service maxSessions s turn (ipcServerProcess s.server turn).1
      (ipcServerProcess s.server turn).2.1 := by
  have hcount := h.count
  unfold ipcServerProcess
  cases hwait : turn.wait with
  | error rc =>
    refine h.unchanged (.nothing fun place hplace => ?_)
    rw [hwait] at hplace
    cases hplace
  | ok handleIndex =>
    dsimp only
    by_cases hrange : handleIndex < 0 ∨ s.server.count ≤ handleIndex.toNat
    · rw [if_pos hrange]
      refine h.unchanged (.nothing fun place hplace => ?_)
      rw [hwait] at hplace
      cases hplace
      omega
    rw [if_neg hrange]
    by_cases hzero : handleIndex = 0
    · rw [if_pos hzero]
      exact newSession_served h hfresh (hzero ▸ hwait)
    · rw [if_neg hzero]
      obtain ⟨place, rfl⟩ : ∃ place : ℕ, handleIndex = place + 1 :=
        ⟨handleIndex.toNat - 1, by omega⟩
      exact session_served h (by omega) hwait

theorem step_good (h : Good service maxSessions s) (hfresh : Fresh s turn) :
    Good service maxSessions (step s turn) :=
  (step_served h hfresh).good

/-! ## Every run -/

/-- The session a call accepts. -/
def Call.accepts : Call → Option Handle
  | .accepted h => some h
  | _ => none

/-- The session a call closes. -/
def Call.closes : Call → Option Handle
  | .closed h => some h
  | _ => none

/-- Every session that was accepted is open, or was closed, once. -/
def Balanced (calls : List Call) : Prop :=
  (calls.filterMap Call.accepts).Perm (calls.filterMap Call.closes ++ opened calls)

variable {calls more : List Call}

/-- What is accepted and closed by more calls. -/
theorem balanced_append (calls more : List Call) :
    Balanced (calls ++ more) ↔
      (calls.filterMap Call.accepts ++ more.filterMap Call.accepts).Perm
        (calls.filterMap Call.closes ++
          (more.filterMap Call.closes ++ more.foldl openedBy (opened calls))) := by
  rw [Balanced, List.filterMap_append, List.filterMap_append, opened_append, List.append_assoc]

theorem Balanced.accepted (h : Balanced calls) (session : Handle) :
    Balanced (calls ++ [.accepted session]) := by
  have hall := h.append_right [session]
  rw [List.append_assoc] at hall
  exact (balanced_append _ _).mpr hall

theorem Balanced.closed (h : Balanced calls) (hmem : session ∈ opened calls) :
    Balanced (calls ++ [.closed session]) := by
  have hall := h.trans ((List.perm_cons_erase hmem).append_left _)
  rw [← List.append_nil (calls.filterMap Call.accepts)] at hall
  exact (balanced_append _ _).mpr hall

/-- An exchange accepts and closes nothing. -/
theorem Balanced.exchange {handler : RequestData → Rc × List UInt8} {message : Hipc} {ends : Bool}
    (h : Balanced calls) (hexchange : Exchange session handler message ends more) :
    Balanced (calls ++ more) := by
  have hall : Balanced (calls ++ []) := by
    rw [List.append_nil]
    exact h
  rw [balanced_append] at hall ⊢
  cases hexchange <;> exact hall

theorem Balanced.received (h : Balanced calls) (message : Hipc) :
    Balanced (calls ++ [.received session message]) := by
  have hall : Balanced (calls ++ []) := by
    rw [List.append_nil]
    exact h
  rw [balanced_append] at hall ⊢
  exact hall

/-- A session that is woken is open. -/
theorem Turn.Wakes.mem {sessions : List Handle} (h : turn.Wakes sessions session) :
    session ∈ sessions := by
  obtain ⟨place, -, hplace⟩ := h
  exact List.mem_of_getElem? hplace

theorem Talk.balanced {turns : List Turn} (h : Talk maxSessions turns calls) : Balanced calls := by
  induction h with
  | nil => exact .refl _
  | @turn turns turn calls more htalk hpart ih =>
    cases hpart with
    | nothing hwait =>
      rw [List.append_nil]
      exact ih
    | unaccepted hwait haccept =>
      rw [List.append_nil]
      exact ih
    | @accepted session hwait haccept hnew hroom => exact ih.accepted session
    | @refused session hwait haccept hnew hfull =>
      rw [← List.singleton_append, ← List.append_assoc]
      refine (ih.accepted session).closed ?_
      rw [opened_append]
      exact List.mem_append_right _ List.mem_cons_self
    | lost hwakes hreceive => exact ih.closed hwakes.mem
    | @malformed session message hwakes hreceive htype hmalformed =>
      rw [← List.singleton_append, ← List.append_assoc]
      refine (ih.received message).closed ?_
      rw [opened_append]
      exact hwakes.mem
    | answered hwakes hreceive hexchange hsent => exact ih.exchange hexchange
    | last hwakes hreceive hexchange hends =>
      rw [← List.append_assoc]
      refine (ih.exchange hexchange).closed ?_
      rw [hexchange.keeps_opened]
      exact hwakes.mem

/-- The server is as it should be once its service is registered. -/
theorem good_init (hplaces : handles.length = MAX_WAIT_OBJECTS)
    (hinit : ipcServerInit handles maxSessions (.ok service) = (.succeeded, some server)) :
    Good service maxSessions ⟨server, []⟩ := by
  unfold ipcServerInit at hinit
  split at hinit
  · cases hinit
  · next hrange =>
    cases hinit
    have hobjects : MAX_WAIT_OBJECTS = 64 := rfl
    obtain ⟨hlower, hupper⟩ := not_or.mp hrange
    have hlive : (handles.set 0 service).take 1 = [service] := by
      rw [List.take_one, List.head?_eq_getElem?, List.getElem?_set_self (by omega)]
      rfl
    refine ⟨⟨by rw [List.length_set]; exact hplaces, by dsimp only; omega,
      ⟨Nat.le_refl 1, by dsimp only; omega⟩, List.getElem?_set_self (by omega)⟩, rfl, hlive, ?_⟩
    rw [IpcServer.live, hlive]
    exact List.nodup_cons.mpr ⟨List.not_mem_nil, List.nodup_nil⟩

variable {turns : List Turn}

theorem run_good (hplaces : handles.length = MAX_WAIT_OBJECTS)
    (hinit : ipcServerInit handles maxSessions (.ok service) = (.succeeded, some server))
    (hfresh : EveryStep step Fresh ⟨server, []⟩ turns) :
    Good service maxSessions (run step ⟨server, []⟩ turns) :=
  (always_of_everyStep (fun _ _ h hf => step_good h hf) (good_init hplaces hinit) hfresh).last

/-- The calls of a run are those of its turns. -/
theorem run_talk (hplaces : handles.length = MAX_WAIT_OBJECTS)
    (hinit : ipcServerInit handles maxSessions (.ok service) = (.succeeded, some server))
    (hfresh : EveryStep step Fresh ⟨server, []⟩ turns) :
    Talk maxSessions turns (run step ⟨server, []⟩ turns).calls := by
  induction turns using List.reverseRecOn with
  | nil => exact .nil
  | append_singleton turns turn ih =>
    obtain ⟨hbefore, hlast, -⟩ := (everyStep_append ..).mp hfresh
    rw [run_append]
    exact .turn (ih hbefore) (step_served (run_good hplaces hinit hbefore) hlast).part

/-- Whatever fails, every session that was accepted is closed once, or is open and among the
handles that are waited on, and then it is closed at the end; the service is never lost. There
are never more sessions than were registered. -/
theorem sessions_closed_once (hplaces : handles.length = MAX_WAIT_OBJECTS)
    (hinit : ipcServerInit handles maxSessions (.ok service) = (.succeeded, some server))
    (hfresh : EveryStep step Fresh ⟨server, []⟩ turns) :
    Balanced (run step ⟨server, []⟩ turns).calls ∧
      (opened (run step ⟨server, []⟩ turns).calls).Nodup ∧
      (opened (run step ⟨server, []⟩ turns).calls).length ≤ maxSessions ∧
      (run step ⟨server, []⟩ turns).server.live = service :: opened
        (run step ⟨server, []⟩ turns).calls ∧
      (ipcServerExit (run step ⟨server, []⟩ turns).server).2 =
        service :: opened (run step ⟨server, []⟩ turns).calls := by
  have hgood := run_good hplaces hinit hfresh
  have hnodup := hgood.nodup
  have hlength := hgood.tabled.length_live
  have hcount := hgood.tabled.count.2
  have hmax := hgood.max
  rw [hgood.live] at hnodup hlength
  rw [List.length_cons] at hlength
  exact ⟨(run_talk hplaces hinit hfresh).balanced, (List.nodup_cons.mp hnodup).2, by omega,
    hgood.live, hgood.live⟩

/-- In every run the sessions are served turn after turn: a well-formed request is handled once
and answered at once to the session that sent it, with the handler's result and, if that is a
success, its data; anything else is answered without the handler or ends its session. A receive
or a reply that fails ends the session it was for, and nothing is done to a session that is not
open. -/
theorem sessions_served (hplaces : handles.length = MAX_WAIT_OBJECTS)
    (hinit : ipcServerInit handles maxSessions (.ok service) = (.succeeded, some server))
    (hfresh : EveryStep step Fresh ⟨server, []⟩ turns) :
    Talk maxSessions turns (run step ⟨server, []⟩ turns).calls :=
  run_talk hplaces hinit hfresh

/-! ## Two sessions for one place -/

/-- The first session is accepted, the second finds no place, the first asks and then closes. -/
def fourTurns : List Turn :=
  [{ wait := .ok 0, accept := .ok 7, receive := .error .notFound,
      handler := fun _ => (.succeeded, []), reply := .timedOut },
    { wait := .ok 0, accept := .ok 8, receive := .error .notFound,
      handler := fun _ => (.succeeded, []), reply := .timedOut },
    { wait := .ok 1, accept := .error .notFound,
      receive := .ok ⟨.request, 6, some ⟨CMIF_IN_HEADER_MAGIC, 0⟩⟩,
      handler := fun _ => (.succeeded, [1, 0, 0, 0]), reply := .timedOut },
    { wait := .ok 1, accept := .error .notFound, receive := .ok ⟨.close, 0, none⟩,
      handler := fun _ => (.succeeded, []), reply := .timedOut }]

/-- A server with one place, its service behind handle 5. -/
def onePlace : IpcServer :=
  { handles := (List.replicate MAX_WAIT_OBJECTS 0).set 0 5, max := 2, count := 1 }

example : (run step ⟨onePlace, []⟩ fourTurns).calls =
    [.accepted 7, .accepted 8, .closed 8,
      .received 7 ⟨.request, 6, some ⟨CMIF_IN_HEADER_MAGIC, 0⟩⟩, .handled 7 ⟨0, 8⟩,
      .replied 7 ⟨.succeeded, [1, 0, 0, 0]⟩,
      .received 7 ⟨.close, 0, none⟩, .replied 7 ⟨.succeeded, []⟩, .closed 7] := by
  decide

theorem onePlace_init : ipcServerInit (List.replicate MAX_WAIT_OBJECTS 0) 1 (.ok 5) =
    (.succeeded, some onePlace) := rfl

theorem fourTurns_fresh : EveryStep step Fresh ⟨onePlace, []⟩ fourTurns := by
  refine ⟨?_, ?_, ?_, ?_, trivial⟩
  · rintro session ⟨⟩
    decide
  · rintro session ⟨⟩
    decide
  · rintro session ⟨⟩
  · rintro session ⟨⟩

theorem fourTurns_closed_once :
    Balanced (run step ⟨onePlace, []⟩ fourTurns).calls ∧
      (opened (run step ⟨onePlace, []⟩ fourTurns).calls).Nodup ∧
      (opened (run step ⟨onePlace, []⟩ fourTurns).calls).length ≤ 1 ∧
      (run step ⟨onePlace, []⟩ fourTurns).server.live =
        5 :: opened (run step ⟨onePlace, []⟩ fourTurns).calls ∧
      (ipcServerExit (run step ⟨onePlace, []⟩ fourTurns).server).2 =
        5 :: opened (run step ⟨onePlace, []⟩ fourTurns).calls :=
  sessions_closed_once List.length_replicate onePlace_init fourTurns_fresh

/-- A session whose answer cannot be sent, then one whose request cannot be received. -/
def failingTurns : List Turn :=
  [{ wait := .ok 0, accept := .ok 7, receive := .error .notFound,
      handler := fun _ => (.succeeded, []), reply := .timedOut },
    { wait := .ok 1, accept := .error .notFound,
      receive := .ok ⟨.request, 6, some ⟨CMIF_IN_HEADER_MAGIC, 0⟩⟩,
      handler := fun _ => (.succeeded, [1, 0, 0, 0]), reply := .other 1 },
    { wait := .ok 0, accept := .ok 7, receive := .error .notFound,
      handler := fun _ => (.succeeded, []), reply := .timedOut },
    { wait := .ok 1, accept := .error .notFound, receive := .error (.other 2),
      handler := fun _ => (.succeeded, []), reply := .timedOut }]

example : (run step ⟨onePlace, []⟩ failingTurns).calls =
    [.accepted 7,
      .received 7 ⟨.request, 6, some ⟨CMIF_IN_HEADER_MAGIC, 0⟩⟩, .handled 7 ⟨0, 8⟩,
      .replied 7 ⟨.succeeded, [1, 0, 0, 0]⟩, .closed 7,
      .accepted 7, .closed 7] := by
  decide

theorem failingTurns_fresh : EveryStep step Fresh ⟨onePlace, []⟩ failingTurns := by
  refine ⟨?_, ?_, ?_, ?_, trivial⟩
  · rintro session ⟨⟩
    decide
  · rintro session ⟨⟩
  · rintro session ⟨⟩
    decide
  · rintro session ⟨⟩

theorem failingTurns_served : Talk 1 failingTurns (run step ⟨onePlace, []⟩ failingTurns).calls :=
  sessions_served List.length_replicate onePlace_init failingTurns_fresh

end KdeConnectNx.IpcSessions
