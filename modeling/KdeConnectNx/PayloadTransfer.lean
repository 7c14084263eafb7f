import KdeConnectNx.SendLoop

/-!
# Payload transfers

A payload goes over a TLS session of its own. The sender cuts what its reader
callback returns into writes; the receiver gathers reads in a chunk and moves
full chunks to a file that was created in its final size. Both loops run one
test or one call a step, with every result the calls can give.
-/

namespace KdeConnectNx.PayloadTransfer

open Runs SendLoop

/-! ## The sending side -/

/-- The callback a payload is read from: what it still holds, and how much it
returns at each of its calls, at most the bytes asked for. After these calls it
returns nothing. -/
structure Reader where
  data : List UInt8
  pace : List Nat := []

def Reader.read (r : Reader) (len : Nat) : List UInt8 × Reader :=
  match r.pace with
  | [] => ([], r)
  | n :: pace => (r.data.take (min n len), { data := r.data.drop (min n len), pace := pace })

/-- Size of the buffer in `send_payload_reader`. -/
def kBufferSize : Nat := 4096

/-- How many bytes come from a callback until it returns nothing, when it is
asked for a full buffer each time. -/
def producedFrom (data : List UInt8) : List Nat → Nat
  | [] => 0
  | n :: pace =>
    let taken := min (min n kBufferSize) data.length
    if taken = 0 then 0 else taken + producedFrom (data.drop taken) pace

def Reader.produced (r : Reader) : Nat := producedFrom r.data r.pace

inductive UploadPhase where
  /-- At the condition of the loop. -/
  | head
  /-- In `send_all_tls`, with a piece the callback returned. -/
  | writing (piece : List UInt8) (total : Nat)
  | closing
  deriving DecidableEq

/-- The thread of `send_payload_reader` after the handshake. -/
structure Upload where
  reader : Reader
  remaining : Int
  phase : UploadPhase := .head
  /-- History: the bytes the TLS library took. -/
  sent : List UInt8 := []
  /-- History: a write has failed. -/
  failed : Bool := false

inductive UploadEvent where
  /-- A test, and the call of the callback behind it. -/
  | turn
  | write (r : SslWrite)

namespace Upload

def start (r : Reader) (size : Int64) : Upload := { reader := r, remaining := size.toInt }

def turn (u : Upload) : Upload :=
  match u.phase with
  | .head =>
    if 0 < u.remaining then
      let r := u.reader.read (min u.remaining kBufferSize).toNat
      { u with reader := r.2, phase := if r.1.isEmpty then .closing else .writing r.1 0 }
    else { u with phase := .closing }
  | .writing piece total =>
    if total < piece.length then u
    else { u with remaining := u.remaining - piece.length, phase := .head }
  | .closing => u

/-- One step. An event the thread is not ready for changes nothing. -/
def step (u : Upload) : UploadEvent → Upload
  | .turn => u.turn
  | .write r =>
    match u.phase with
    | .writing piece total =>
      if total < piece.length then
        let u := { u with
          sent := u.sent ++ r.taken (piece.drop total), failed := u.failed || r.fails }
        match sendStep piece.length total r with
        | some total' => { u with phase := .writing piece total' }
        | none => { u with phase := .closing }
      else u
    | _ => u

end Upload

/-! ### What is sent -/

section Sending

/-- A callback returns the first bytes it holds and no more than asked for. -/
theorem Reader.read_append (r : Reader) (len : Nat) :
    (r.read len).1 ++ (r.read len).2.data = r.data ∧ (r.read len).1.length ≤ len := by
  unfold Reader.read
  split
  · exact ⟨rfl, Nat.zero_le _⟩
  · refine ⟨List.take_append_drop _ _, ?_⟩
    rw [List.length_take]
    omega

/-- A call that is not the last returns the first bytes that are held. -/
theorem Reader.read_cons {r : Reader} {n : Nat} {pace : List Nat} (h : r.pace = n :: pace)
    (len : Nat) : r.read len =
      (r.data.take (min n len), { data := r.data.drop (min n len), pace := pace }) := by
  unfold Reader.read
  rw [h]

theorem Reader.produced_cons {r : Reader} {n : Nat} {pace : List Nat} (h : r.pace = n :: pace) :
    r.produced =
      if min (min n kBufferSize) r.data.length = 0 then 0
      else min (min n kBufferSize) r.data.length +
        producedFrom (r.data.drop (min (min n kBufferSize) r.data.length)) pace := by
  unfold Reader.produced
  rw [h]
  rfl

/-- A callback that returns nothing produces nothing more. -/
theorem Reader.produced_of_read_nil {r : Reader} {len : Nat} (hlen : 0 < len)
    (h : (r.read len).1 = []) : r.produced = 0 := by
  cases hpace : r.pace with
  | nil =>
    unfold Reader.produced
    rw [hpace]
    rfl
  | cons n pace =>
    rw [Reader.read_cons hpace] at h
    dsimp only at h
    have hempty : (r.data.take (min n len)).length = 0 := by rw [h, List.length_nil]
    rw [List.length_take] at hempty
    rw [Reader.produced_cons hpace, if_pos (by omega)]

/-- A call moves what it returns from what is to come to what was produced, as
far as the size that is wanted. -/
theorem Reader.produced_read (r : Reader) {len before size : Nat}
    (hlen : len = min (size - before) kBufferSize) (hbefore : before < size)
    (h : (r.read len).1 ≠ []) :
    min size (before + (r.read len).1.length + (r.read len).2.produced) =
      min size (before + r.produced) := by
  cases hpace : r.pace with
  | nil =>
    unfold Reader.read at h
    rw [hpace] at h
    exact absurd rfl h
  | cons n pace =>
    rw [Reader.read_cons hpace] at h ⊢
    have hpos : (r.data.take (min n len)).length ≠ 0 := mt List.length_eq_zero_iff.mp h
    have hproduced : ({ data := r.data.drop (min n len), pace := pace } : Reader).produced =
        producedFrom (r.data.drop (min n len)) pace := rfl
    rw [hproduced, Reader.produced_cons hpace]
    dsimp only
    rw [List.length_take] at hpos ⊢
    rw [if_neg (by omega)]
    by_cases hshort : min (min n len) r.data.length = min (min n kBufferSize) r.data.length
    · have hdrop : r.data.drop (min n len) =
          r.data.drop (min (min n kBufferSize) r.data.length) := by
        rw [← hshort]
        by_cases hle : min n len ≤ r.data.length
        · rw [Nat.min_eq_left hle]
        · rw [List.drop_eq_nil_of_le (by omega), List.drop_eq_nil_of_le (by omega)]
      rw [hdrop, hshort, Nat.add_assoc]
    · have hwhole : min (min n len) r.data.length = size - before := by omega
      omega

/-- The state of an upload, phase by phase: what was sent and what is in the
buffer are the first bytes of the payload, and the bytes that are still to come
are known. -/
def Upload.Sound (r : Reader) (size : Nat) (u : Upload) : Prop :=
  match u.phase with
  | .head =>
    u.sent ++ u.reader.data = r.data ∧ (u.sent.length : Int) + u.remaining = size ∧
      0 ≤ u.remaining ∧ min size (u.sent.length + u.reader.produced) = min size r.produced ∧
      u.failed = false
  | .writing piece total =>
    ∃ before, u.sent = before ++ piece.take total ∧ total ≤ piece.length ∧
      before ++ piece ++ u.reader.data = r.data ∧ (before.length : Int) + u.remaining = size ∧
      piece.length ≤ u.remaining ∧
      min size (before.length + piece.length + u.reader.produced) = min size r.produced ∧
      u.failed = false
  | .closing =>
    u.sent <+: r.data.take (min size r.produced) ∧
      (u.failed = false → u.sent = r.data.take (min size r.produced))

/-- What an upload in a sound state has sent. -/
theorem Upload.Sound.sent {r : Reader} {size : Nat} {u : Upload} (h : u.Sound r size) :
    u.sent <+: r.data.take (min size r.produced) := by
  unfold Upload.Sound at h
  split at h
  · obtain ⟨hdata, hcount, hrest, hproduced, -⟩ := h
    have hpre : u.sent <+: r.data := ⟨u.reader.data, hdata⟩
    rw [List.prefix_take_iff]
    exact ⟨hpre, by omega⟩
  · rename_i piece total hphase
    obtain ⟨before, hsent, htotal, hdata, hcount, hpiece, hproduced, -⟩ := h
    have hpre : u.sent <+: r.data := by
      refine ⟨piece.drop total ++ u.reader.data, ?_⟩
      rw [hsent, ← hdata, List.append_assoc before, ← List.append_assoc (piece.take total),
        List.take_append_drop, List.append_assoc]
    have hlength : u.sent.length = before.length + total := by
      rw [hsent, List.length_append, List.length_take]
      omega
    rw [List.prefix_take_iff]
    exact ⟨hpre, by omega⟩
  · exact h.1

/-- At the end of the loop everything that is wanted and produced was sent. -/
theorem Upload.Sound.sent_of_done {r : Reader} {size : Nat} {u : Upload} (h : u.Sound r size)
    (hphase : u.phase = .head) (hdone : ¬ 0 < u.remaining ∨ u.reader.produced = 0) :
    u.sent = r.data.take (min size r.produced) := by
  apply h.sent.eq_of_length
  simp only [Upload.Sound, hphase] at h
  obtain ⟨hdata, hcount, hrest, hproduced, -⟩ := h
  have hprefix : u.sent.length ≤ r.data.length := by
    rw [← hdata, List.length_append]
    omega
  rw [List.length_take]
  omega

theorem Upload.sound_start (r : Reader) {size : Int64} (hsize : 0 < size.toInt) :
    (Upload.start r size).Sound r size.toInt.toNat := by
  refine ⟨rfl, ?_, ?_, ?_, rfl⟩
  · simp only [Upload.start, List.length_nil]
    omega
  · simp only [Upload.start]
    omega
  · simp only [Upload.start, List.length_nil, Nat.zero_add]

/-- The tests and the calls of the callback keep the state sound. -/
theorem Upload.sound_turn {r : Reader} {size : Nat} {u : Upload} (h : u.Sound r size) :
    u.turn.Sound r size := by
  cases hphase : u.phase with
  | head =>
    have hhead := h
    simp only [Upload.Sound, hphase] at hhead
    obtain ⟨hdata, hcount, hrest, hproduced, hfailed⟩ := hhead
    simp only [Upload.turn, hphase]
    split
    · rename_i hpositive
      have hlen : (min u.remaining (kBufferSize : Int)).toNat =
          min (size - u.sent.length) kBufferSize := by omega
      rw [hlen]
      generalize hasked : min (size - u.sent.length) kBufferSize = len
      have hlenpos : 0 < len := by
        have hbuffer : kBufferSize = 4096 := rfl
        omega
      obtain ⟨happend, hshort⟩ := u.reader.read_append len
      cases hpiece : (u.reader.read len).1 with
      | nil =>
        have hnone := Reader.produced_of_read_nil hlenpos hpiece
        have hall : u.sent = r.data.take (min size r.produced) :=
          h.sent_of_done hphase (.inr hnone)
        exact ⟨hall ▸ List.prefix_rfl, fun _ => hall⟩
      | cons b piece =>
        have hnil : (u.reader.read len).1 ≠ [] := by simp [hpiece]
        have hnext := u.reader.produced_read hasked.symm (by omega) hnil
        rw [hpiece] at happend hshort hnext
        refine ⟨u.sent, ?_, Nat.zero_le _, ?_, hcount, ?_, ?_, hfailed⟩
        · rw [List.take_zero, List.append_nil]
        · rw [List.append_assoc, happend, hdata]
        · dsimp only
          omega
        · exact hnext.trans hproduced
    · rename_i hzero
      have hall : u.sent = r.data.take (min size r.produced) :=
        h.sent_of_done hphase (.inl hzero)
      exact ⟨hall ▸ List.prefix_rfl, fun _ => hall⟩
  | writing piece total =>
    simp only [Upload.turn, hphase]
    split
    · exact h
    · rename_i hdone
      simp only [Upload.Sound, hphase] at h
      obtain ⟨before, hsent, htotal, hdata, hcount, hpiece, hproduced, hfailed⟩ := h
      have hwhole : u.sent = before ++ piece := by
        rw [hsent, List.take_of_length_le (by omega)]
      refine ⟨?_, ?_, ?_, ?_, hfailed⟩
      · rw [hwhole, hdata]
      · rw [hwhole, List.length_append]
        dsimp only
        omega
      · dsimp only
        omega
      · rw [hwhole, List.length_append]
        exact hproduced
  | closing =>
    simp only [Upload.turn, hphase]
    exact h

/-- Every step keeps the state sound. -/
theorem Upload.sound_step {r : Reader} {size : Nat} {u : Upload} (h : u.Sound r size)
    (e : UploadEvent) : (u.step e).Sound r size := by
  cases e with
  | turn => exact Upload.sound_turn h
  | write result =>
    simp only [Upload.step]
    split
    · rename_i piece total hphase
      split
      · rename_i hshort
        split
        · rename_i total' hsend
          simp only [Upload.Sound, hphase] at h
          obtain ⟨before, hsent, htotal, hdata, hcount, hpiece, hproduced, hfailed⟩ := h
          have hfails := sendStep_isNone piece.length total result
          rw [hsend] at hfails
          refine ⟨before, ?_, sendStep_le hsend htotal, hdata, hcount, hpiece, hproduced, ?_⟩
          · dsimp only
            rw [hsent, List.append_assoc, (sendStep_taken hsend).1]
          · dsimp only
            rw [hfailed, ← hfails]
            rfl
        · rename_i hfails
          have hfailed := sendStep_isNone piece.length total result
          rw [hfails] at hfailed
          refine ⟨?_, fun hnever => ?_⟩
          · dsimp only
            rw [taken_of_fails hfails, List.append_nil]
            exact h.sent
          · dsimp only at hnever
            rw [← hfailed, Option.isNone_none, Bool.or_true] at hnever
            cases hnever
      · exact h
    · exact h

end Sending

/-! ## The receiving side -/

/-- Size of the chunk in `download_payload`. -/
def kChunkSize : Nat := 16384 * 4

theorem kChunkSize_pos : 0 < kChunkSize := by decide

/-- Result of an `mbedtls_ssl_read`. -/
inductive TlsRead where
  /-- So many bytes, at most those asked for and those that have come. -/
  | got (n : Nat)
  | wantRead
  /-- The stream has ended, or the call fails. -/
  | ended
  deriving DecidableEq, Repr

inductive DownloadPhase where
  /-- At the condition of the loop. -/
  | head
  | reading
  /-- In `flush_chunk`, in the loop. -/
  | flushing
  /-- Behind the loop, before its last `flush_chunk`. -/
  | leaving (writeError : Bool)
  /-- The file is closed. -/
  | closing (writeError : Bool)
  /-- Before the removal of the file. -/
  | deleting
  | returned (ok : Bool)
  deriving DecidableEq

/-- The state of `download_payload`. -/
structure Download where
  remaining : Int
  offset : Nat := 0
  /-- The filled part of the chunk. -/
  chunk : List UInt8 := []
  /-- The file under the path, if there is one. -/
  file : Option (List UInt8)
  /-- What the TLS session has still to deliver. -/
  stream : List UInt8
  /-- The session that wants the payload is closed. -/
  disconnected : Bool := false
  phase : DownloadPhase

inductive DownloadEvent where
  /-- Another thread closes the session. -/
  | disconnect
  /-- A test. -/
  | turn
  | read (r : TlsRead)
  /-- `fsFileWrite`. -/
  | write (ok : Bool)
  /-- `fsFsDeleteFile`. -/
  | delete (ok : Bool)

/-- The results of the calls before the loop. -/
structure DownloadIo where
  socket : Bool := true
  /-- The address of the session is one. -/
  address : Bool := true
  connect : Bool := true
  session : Bool := true
  handshake : Bool := true
  mounted : Bool := true
  /-- An old file is removed. -/
  deleteOld : Bool := true
  create : Bool := true
  openFile : Bool := true
  /-- What a new file holds before it is written. -/
  blank : Nat → UInt8 := fun _ => 0

/-- A file with these bytes at this place. -/
def patch (file : List UInt8) (offset : Nat) (bytes : List UInt8) : List UInt8 :=
  file.take offset ++ bytes ++ file.drop (offset + bytes.length)

namespace Download

/-- `download_payload` up to its loop. A file that is there cannot be created. -/
def start (io : DownloadIo) (size : Int64) (stream : List UInt8) (old : Option (List UInt8)) :
    Download :=
  let kept := if io.deleteOld then none else old
  if !(io.socket && io.address && io.connect && io.session && io.handshake && io.mounted) then
    { remaining := size.toInt, file := old, stream := stream, phase := .returned false }
  else if !io.create || kept.isSome then
    { remaining := size.toInt, file := kept, stream := stream, phase := .returned false }
  else
    { remaining := size.toInt
      file := some ((List.range size.toInt.toNat).map io.blank)
      stream := stream
      phase := if io.openFile then .head else .returned false }

/-- The length of the next read. -/
def toRead (d : Download) : Nat := min d.remaining.toNat (kChunkSize - d.chunk.length)

def turn (d : Download) : Download :=
  match d.phase with
  | .head =>
    { d with phase := if 0 < d.remaining ∧ d.disconnected = false then .reading
        else .leaving false }
  | .leaving writeError =>
    if writeError = false ∧ d.chunk ≠ [] then d else { d with phase := .closing writeError }
  | .closing writeError =>
    { d with phase := if d.disconnected = true ∨ 0 < d.remaining ∨ writeError = true
        then .deleting else .returned true }
  | _ => d

def read (d : Download) : TlsRead → Download
  | .got n =>
    let bytes := d.stream.take (min n d.toRead)
    if bytes = [] then { d with phase := .head }
    else
      { d with
        chunk := d.chunk ++ bytes
        remaining := d.remaining - bytes.length
        stream := d.stream.drop bytes.length
        phase :=
          if (d.chunk ++ bytes).length = kChunkSize ∨ d.remaining - bytes.length = 0 then .flushing
          else .head }
  | .wantRead => { d with phase := .head }
  | .ended => { d with phase := .leaving false }

/-- `flush_chunk`, with the result of its write. -/
def flush (d : Download) (ok : Bool) : Download :=
  if ok then
    { d with
      file := d.file.map fun file => patch file d.offset d.chunk
      offset := d.offset + d.chunk.length
      chunk := [] }
  else d

/-- One step. An event the call is not ready for changes nothing. -/
def step (d : Download) : DownloadEvent → Download
  | .disconnect => { d with disconnected := true }
  | .turn => d.turn
  | .read r => if d.phase = .reading then d.read r else d
  | .write ok =>
    match d.phase with
    | .flushing => { d.flush ok with phase := if ok then .head else .leaving true }
    | .leaving false =>
      if d.chunk = [] then d else { d.flush ok with phase := .closing !ok }
    | _ => d
  | .delete ok =>
    if d.phase = .deleting then
      { d with file := if ok then none else d.file, phase := .returned false }
    else d

end Download

/-! ### What is received -/

section Receiving

theorem length_patch {file bytes : List UInt8} {offset : Nat}
    (h : offset + bytes.length ≤ file.length) :
    (patch file offset bytes).length = file.length := by
  simp only [patch, List.length_append, List.length_take, List.length_drop]
  omega

/-- Up to the end of what was written, a file is what it was, then that. -/
theorem take_patch {file bytes : List UInt8} {offset : Nat} (h : offset ≤ file.length) :
    (patch file offset bytes).take (offset + bytes.length) = file.take offset ++ bytes := by
  have hlength : (file.take offset ++ bytes).length = offset + bytes.length := by
    rw [List.length_append, List.length_take, Nat.min_eq_left h]
  rw [patch, ← hlength, List.take_left]

/-- Bytes put right behind bytes that were put there. -/
theorem patch_patch {file first : List UInt8} {offset : Nat}
    (h : offset + first.length ≤ file.length) (second : List UInt8) :
    patch (patch file offset first) (offset + first.length) second =
      patch file offset (first ++ second) := by
  have hhead : (file.take offset ++ first).length = offset + first.length := by
    rw [List.length_append, List.length_take]
    omega
  unfold patch
  rw [List.take_left' hhead, ← List.drop_drop, List.drop_left' hhead, List.drop_drop,
    List.length_append, List.append_assoc _ first, Nat.add_assoc]

/-- Bytes no shorter than the file replace it. -/
theorem patch_zero {file bytes : List UInt8} (h : file.length ≤ bytes.length) :
    patch file 0 bytes = bytes := by
  rw [patch, List.take_zero, List.nil_append, Nat.zero_add, List.drop_of_length_le h,
    List.append_nil]

/-- The account of a download of `size` bytes out of `whole`: the bytes on the
card, in the chunk and to come add up to the size; while the file is open it
has that size, and its first bytes, the chunk and the rest of the stream are
the stream as it was. -/
structure Download.Sound (size : Nat) (whole : List UInt8) (d : Download) : Prop where
  count : (d.offset : Int) + d.chunk.length + d.remaining = size
  rest : 0 ≤ d.remaining
  opened : d.phase = .returned false ∨ ∃ file, d.file = some file ∧ file.length = size ∧
    file.take d.offset ++ d.chunk ++ d.stream = whole
  head : d.phase = .head → d.chunk.length < kChunkSize ∧ (d.remaining = 0 → d.chunk = [])
  reading : d.phase = .reading → d.chunk.length < kChunkSize ∧ 0 < d.remaining
  closing : d.phase = .closing false → d.chunk = []
  returned : d.phase = .returned true → d.chunk = [] ∧ d.remaining = 0

namespace Download

variable {size : Nat} {whole : List UInt8} {d : Download}

theorem sound_start (io : DownloadIo) {size : Int64} (hsize : 0 < size.toInt)
    (stream : List UInt8) (old : Option (List UInt8)) :
    (start io size stream old).Sound size.toInt.toNat stream := by
  have hcount : ((0 : Nat) : Int) + ([] : List UInt8).length + size.toInt = size.toInt.toNat := by
    rw [List.length_nil]
    omega
  have hfailed : ∀ file, Sound size.toInt.toNat stream
      { remaining := size.toInt, file := file, stream := stream, phase := .returned false } :=
    fun file => ⟨hcount, Int.le_of_lt hsize, .inl rfl, by simp, by simp, by simp, by simp⟩
  unfold start
  generalize (if io.deleteOld then none else old) = kept
  dsimp only
  split
  · exact hfailed old
  · split
    · exact hfailed kept
    · cases io.openFile with
      | true =>
        refine ⟨hcount, Int.le_of_lt hsize, .inr ⟨_, rfl, ?_, ?_⟩, ?_, by simp, by simp, by simp⟩
        · rw [List.length_map, List.length_range]
        · rw [List.take_zero, List.nil_append, List.nil_append]
        · intro _
          exact ⟨kChunkSize_pos, fun _ => rfl⟩
      | false => exact hfailed _

/-- The tests keep the account. -/
theorem sound_turn (h : d.Sound size whole) : d.turn.Sound size whole := by
  cases hphase : d.phase with
  | head =>
    have hopened := h.opened
    rw [hphase] at hopened
    simp only [turn, hphase]
    by_cases hmore : 0 < d.remaining ∧ d.disconnected = false
    · rw [if_pos hmore]
      exact ⟨h.count, h.rest, .inr (hopened.resolve_left (by simp)), by simp,
        fun _ => ⟨(h.head hphase).1, hmore.1⟩, by simp, by simp⟩
    · rw [if_neg hmore]
      exact ⟨h.count, h.rest, .inr (hopened.resolve_left (by simp)), by simp, by simp, by simp,
        by simp⟩
  | leaving writeError =>
    have hopened := h.opened
    rw [hphase] at hopened
    simp only [turn, hphase]
    split
    · exact h
    · rename_i hdone
      refine ⟨h.count, h.rest, .inr (hopened.resolve_left (by simp)), by simp, by simp, ?_,
        by simp⟩
      intro hclosing
      have herror : writeError = false := DownloadPhase.closing.inj hclosing
      by_contra hchunk
      exact hdone ⟨herror, hchunk⟩
  | closing writeError =>
    have hopened := h.opened
    rw [hphase] at hopened
    simp only [turn, hphase]
    by_cases hbad : d.disconnected = true ∨ 0 < d.remaining ∨ writeError = true
    · rw [if_pos hbad]
      exact ⟨h.count, h.rest, .inr (hopened.resolve_left (by simp)), by simp, by simp, by simp,
        by simp⟩
    · rw [if_neg hbad]
      refine ⟨h.count, h.rest, .inr (hopened.resolve_left (by simp)), by simp, by simp, by simp,
        ?_⟩
      intro _
      simp only [not_or, Int.not_lt, Bool.not_eq_true] at hbad
      rw [hbad.2.2] at hphase
      have hrest := h.rest
      exact ⟨h.closing hphase, Int.le_antisymm hbad.2.1 hrest⟩
  | reading => simpa only [turn, hphase] using h
  | flushing => simpa only [turn, hphase] using h
  | deleting => simpa only [turn, hphase] using h
  | returned ok => simpa only [turn, hphase] using h

/-- So does a read. -/
theorem sound_read (h : d.Sound size whole) (hphase : d.phase = .reading) (r : TlsRead) :
    (d.read r).Sound size whole := by
  obtain ⟨hspace, hmore⟩ := h.reading hphase
  have hopened := h.opened
  rw [hphase] at hopened
  have hfile := hopened.resolve_left (by simp)
  have hnext : ∀ phase, (phase = .head ∨ phase = .leaving false) →
      Sound size whole { d with phase := phase } := by
    intro phase hcases
    refine ⟨h.count, h.rest, .inr hfile, ?_, ?_, ?_, ?_⟩
    · intro _
      exact ⟨hspace, fun hzero => absurd hzero (Int.ne_of_gt hmore)⟩
    all_goals
      intro heq
      rcases hcases with hcase | hcase <;> simp [hcase] at heq
  cases r with
  | got n =>
    simp only [read]
    split
    · exact hnext .head (.inl rfl)
    · generalize hbytes : d.stream.take (min n d.toRead) = bytes
      have hlength : bytes.length ≤ d.toRead := by
        rw [← hbytes, List.length_take]
        omega
      have hstream : bytes ++ d.stream.drop bytes.length = d.stream := by
        have hprefix : bytes <+: d.stream := hbytes ▸ List.take_prefix _ _
        obtain ⟨rest, hrest⟩ := hprefix
        rw [← hrest, List.drop_left]
      have hcount := h.count
      have hasked : d.toRead = min d.remaining.toNat (kChunkSize - d.chunk.length) := rfl
      obtain ⟨file, hsome, hsize, hwhole⟩ := hfile
      refine ⟨?_, ?_, .inr ⟨file, hsome, hsize, ?_⟩, ?_, ?_, ?_, ?_⟩
      · dsimp only
        rw [List.length_append]
        omega
      · dsimp only
        omega
      · dsimp only
        rw [← hwhole]
        simp only [List.append_assoc, hstream]
      · intro hhead
        dsimp only at hhead ⊢
        split at hhead
        · cases hhead
        · rename_i hflush
          rw [not_or, List.length_append] at hflush
          rw [List.length_append]
          exact ⟨by omega, fun hzero => absurd hzero hflush.2⟩
      all_goals
        intro heq
        dsimp only at heq
        split at heq <;> cases heq
  | wantRead => exact hnext .head (.inl rfl)
  | ended => exact hnext (.leaving false) (.inr rfl)

/-- What is in the chunk moves to the file. -/
theorem sound_flush (h : d.Sound size whole) {file : List UInt8} (hfile : d.file = some file)
    (hsize : file.length = size) (hwhole : file.take d.offset ++ d.chunk ++ d.stream = whole) :
    ∃ file', (d.flush true).file = some file' ∧ file'.length = size ∧
      file'.take (d.flush true).offset ++ (d.flush true).chunk ++ (d.flush true).stream =
        whole := by
  have hcount := h.count
  have hrest := h.rest
  refine ⟨patch file d.offset d.chunk, ?_, ?_, ?_⟩
  · simp only [flush, if_true, hfile, Option.map_some]
  · rw [length_patch (by omega), hsize]
  · simp only [flush, if_true]
    rw [take_patch (by omega), List.append_nil, hwhole]

/-- So does a write, and the removal of the file. -/
theorem sound_step (h : d.Sound size whole) (e : DownloadEvent) :
    (d.step e).Sound size whole := by
  cases e with
  | disconnect => exact ⟨h.count, h.rest, h.opened, h.head, h.reading, h.closing, h.returned⟩
  | turn => exact sound_turn h
  | read r =>
    simp only [step]
    split
    · rename_i hphase
      exact sound_read h hphase r
    · exact h
  | write ok =>
    have hcount := h.count
    have hopened := h.opened
    simp only [step]
    split
    · rename_i hphase
      rw [hphase] at hopened
      obtain ⟨file, hfile, hsize, hwhole⟩ := hopened.resolve_left (by simp)
      cases ok with
      | true =>
        refine ⟨?_, h.rest, .inr (sound_flush h hfile hsize hwhole), ?_, by simp, by simp, by simp⟩
        · simp only [flush, if_true, List.length_nil]
          omega
        · intro _
          exact ⟨kChunkSize_pos, fun _ => rfl⟩
      | false =>
        exact ⟨hcount, h.rest, .inr ⟨file, hfile, hsize, hwhole⟩, by simp, by simp, by simp,
          by simp⟩
    · rename_i hphase
      rw [hphase] at hopened
      obtain ⟨file, hfile, hsize, hwhole⟩ := hopened.resolve_left (by simp)
      split
      · exact h
      · cases ok with
        | true =>
          refine ⟨?_, h.rest, .inr (sound_flush h hfile hsize hwhole), by simp, by simp,
            fun _ => rfl, by simp⟩
          simp only [flush, if_true, List.length_nil]
          omega
        | false =>
          exact ⟨hcount, h.rest, .inr ⟨file, hfile, hsize, hwhole⟩, by simp, by simp, by simp,
            by simp⟩
    · exact h
  | delete ok =>
    simp only [step]
    split
    · exact ⟨h.count, h.rest, .inl rfl, by simp, by simp, by simp, by simp⟩
    · exact h

/-- A download that returns true leaves the first bytes of the stream in a file
of the wanted size. -/
theorem Sound.content (h : d.Sound size whole) (hphase : d.phase = .returned true) :
    ∃ file, d.file = some file ∧ file.length = size ∧ file <+: whole := by
  have hcount := h.count
  obtain ⟨hchunk, hrest⟩ := h.returned hphase
  have hopened := h.opened
  rw [hphase] at hopened
  obtain ⟨file, hfile, hsize, hwhole⟩ := hopened.resolve_left (by simp)
  rw [hchunk, List.length_nil] at hcount
  refine ⟨file, hfile, hsize, d.stream, ?_⟩
  rw [hchunk, List.append_nil, List.take_of_length_le (by omega)] at hwhole
  exact hwhole

/-- A read asks for at least one byte, and for none beyond the chunk. -/
theorem Sound.toRead (h : d.Sound size whole) (hphase : d.phase = .reading) :
    0 < d.toRead ∧ d.chunk.length + d.toRead ≤ kChunkSize := by
  obtain ⟨hspace, hmore⟩ := h.reading hphase
  unfold Download.toRead
  omega

end Download

end Receiving

/-! ## End to end -/

/-- However the callback splits the payload, however the stream is cut and
whenever it ends: what is sent are the first bytes of the payload, as many as
are wanted and produced unless a write fails; at every point of the download
its bytes add up; and it returns true only with the payload in the file. -/
theorem transferred (r : Reader) {size : Int64} (hsize : 0 < size.toInt)
    (uploads : List UploadEvent) {stream : List UInt8}
    (hstream : stream <+: (run Upload.step (.start r size) uploads).sent) (io : DownloadIo)
    (old : Option (List UInt8)) (downloads : List DownloadEvent) :
    let u := run Upload.step (.start r size) uploads
    let n := size.toInt.toNat
    u.sent <+: r.data.take (min n r.produced) ∧
      (u.phase = .closing → u.failed = false → u.sent = r.data.take (min n r.produced)) ∧
      Always Download.step (fun d =>
          (d.offset : Int) + d.chunk.length + d.remaining = size.toInt ∧ 0 ≤ d.remaining ∧
          (d.phase = .reading → 0 < d.toRead ∧ d.chunk.length + d.toRead ≤ kChunkSize) ∧
          (d.phase = .returned true → ∃ file, d.file = some file ∧ file.length = n ∧
            file = r.data.take n))
        (.start io size stream old) downloads := by
  intro u n
  have hupload : u.Sound r n := (always_of_step (P := Upload.Sound r n)
    (fun _ e h => Upload.sound_step h e) (Upload.sound_start r hsize) uploads).last
  refine ⟨hupload.sent, ?_, ?_⟩
  · intro hphase hfailed
    simp only [Upload.Sound, hphase] at hupload
    exact hupload.2 hfailed
  · have hdownload : Always Download.step (Download.Sound n stream) (.start io size stream old)
        downloads := always_of_step (P := Download.Sound n stream)
      (fun _ e h => Download.sound_step h e) (Download.sound_start io hsize stream old) downloads
    refine hdownload.imp ?_
    intro d h
    have hcount := h.count
    refine ⟨by omega, h.rest, h.toRead, ?_⟩
    intro hphase
    obtain ⟨file, hfile, hlength, hprefix⟩ := h.content hphase
    refine ⟨file, hfile, hlength, ?_⟩
    have hdata : file <+: r.data :=
      hprefix.trans (hstream.trans (hupload.sent.trans (List.take_prefix _ _)))
    rw [← hlength]
    exact List.prefix_iff_eq_take.mp hdata

/-- Three bytes that come out of the callback in two pieces, and arrive in two
reads with a time-out between them. -/
theorem transferred_threeBytes :
    ∃ file, (run Download.step (.start {} 3 [1, 2, 3] none)
        [.turn, .read (.got 1), .turn, .read .wantRead, .turn, .read (.got 9), .write true, .turn,
          .turn, .turn]).file = some file ∧ file.length = 3 ∧ file = [1, 2, 3] := by
  have hstream : [1, 2, 3] <+: (run Upload.step (.start ⟨[1, 2, 3], [2, 7]⟩ 3)
      [.turn, .write (.wrote 2), .turn, .turn, .write .wantWrite, .write (.wrote 1), .turn,
        .turn]).sent := by
    decide
  have hdownload := (transferred ⟨[1, 2, 3], [2, 7]⟩ (by decide) _ hstream {} none
    [.turn, .read (.got 1), .turn, .read .wantRead, .turn, .read (.got 9), .write true, .turn,
      .turn, .turn]).2.2
  exact hdownload.last.2.2.2 (by decide)

end KdeConnectNx.PayloadTransfer
