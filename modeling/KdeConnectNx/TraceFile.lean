import KdeConnectNx.Framing
import KdeConnectNx.JsonText
import KdeConnectNx.LittleEndian
import KdeConnectNx.Runs

/-!
# The memory trace

Every hook appends a record to a buffer that is written out when the next record does
not fit; two scripts read the file. A header with the address of `MemTracker::init` comes
first.
-/

namespace KdeConnectNx.TraceFile

open Framing LittleEndian Runs
open JsonText (utf8)

/-- What a call of `write_record` is given. -/
structure Call where
  type : Char
  ptr : UInt64
  sz : UInt64
  ts : UInt64
  frames : List UInt64
deriving DecidableEq, Repr

/-- The trace file and the buffer in front of it. -/
structure Tracker where
  /-- `g_trace_fd` is not negative. -/
  opened : Bool := false
  /-- `g_wbuf` up to `g_wbuf_pos`. -/
  wbuf : List UInt8 := []
  /-- What was written. -/
  file : List UInt8 := []

def kWBufSize : ℕ := 32768

def kMaxFrames : ℕ := 12

def flushLocked (t : Tracker) : Tracker :=
  if t.wbuf.isEmpty || !t.opened then t
  else { t with file := t.file ++ t.wbuf, wbuf := [] }

/-- `MemTracker::init` with the file opened; the anchor is its own address. -/
def init (anchor : UInt64) : Tracker where
  opened := true
  file := utf8 "KDMT".toList ++ [2, 0, 0, 0] ++ encode 8 anchor.toNat

def closeTrace (t : Tracker) : Tracker :=
  if t.opened then { flushLocked t with opened := false } else t

/-- Type, number of frames, size, address, tick and frames. -/
def recordBytes (c : Call) : List UInt8 :=
  [UInt8.ofNat c.type.toNat, UInt8.ofNat c.frames.length] ++ encode 4 c.sz.toNat ++
    encode 8 c.ptr.toNat ++ encode 8 c.ts.toNat ++ c.frames.flatMap fun f => encode 8 f.toNat

def writeRecord (t : Tracker) (c : Call) : Tracker :=
  if !t.opened then t
  else
    let buf := recordBytes c
    let t := if kWBufSize < t.wbuf.length + buf.length then flushLocked t else t
    { t with wbuf := t.wbuf ++ buf }

/-- A record as `parse_trace` returns it. -/
structure Record where
  type : Char
  size : ℕ
  ptr : ℕ
  ts : ℕ
  frames : List ℕ
deriving DecidableEq, Repr

inductive ParseError
  | notTraceFile (got : List UInt8)
  | unsupportedVersion (version : ℕ)
deriving DecidableEq, Repr

/-- One number of a packed struct, by its place and width. -/
def unpack (offset width : ℕ) (chunk : List UInt8) : ℕ := decode ((chunk.drop offset).take width)

/-- As many 64-bit numbers. -/
def unpackQ : ℕ → List UInt8 → List ℕ
  | 0, _ => []
  | n + 1, raw => decode (raw.take 8) :: unpackQ n (raw.drop 8)

def hdrSize : ℕ := 16

/-- `_REC_V2_SIZE` and `_REC_V1_SIZE`. -/
def recSize (version : ℕ) : ℕ := if version = 2 then 22 else 14

/-- The loop of `parse_trace` for one record; none where it breaks off. -/
def readRecord (version : ℕ) (f : List UInt8) : Option (Record × List UInt8) :=
  let chunk := f.take (recSize version)
  if chunk.isEmpty then none
  else if chunk.length < recSize version then none
  else
    let nframes := unpack 1 1 chunk
    let kind := Char.ofNat (unpack 0 1 chunk)
    if kind != 'A' && kind != 'F' then none
    else
      let raw := (f.drop (recSize version)).take (nframes * 8)
      if nframes != 0 && decide (raw.length < nframes * 8) then none
      else
        some
          ({ type := kind
             size := unpack 2 4 chunk
             ptr := unpack 6 8 chunk
             ts := if version = 2 then unpack 14 8 chunk else 0
             frames := unpackQ nframes raw }, f.drop (recSize version + nframes * 8))

/-- A record has bytes. -/
theorem recSize_pos (version : ℕ) : 0 < recSize version := by
  unfold recSize
  split <;> decide

/-- A record that was read is gone from the rest. -/
theorem readRecord_shorter (version : ℕ) (f : List UInt8) (record : Record) (rest : List UInt8)
    (h : readRecord version f = some (record, rest)) : rest.length < f.length := by
  unfold readRecord at h
  dsimp only at h
  split at h
  · cases h
  · split at h
    · cases h
    · next hsize =>
      split at h
      · cases h
      · split at h
        · cases h
        · cases h
          have hpos := recSize_pos version
          rw [List.length_take] at hsize
          rw [List.length_drop]
          omega

def recordReader (version : ℕ) : Reader Record UInt8 where
  read := readRecord version
  shorter := readRecord_shorter version

/-- `parse_trace`: the records, the anchor and the version. -/
def parseTrace (f : List UInt8) : Except ParseError (List Record × ℕ × ℕ) :=
  let rawHdr := f.take hdrSize
  if decide (rawHdr.length < 8) || rawHdr.take 4 != utf8 "KDMT".toList then
    .error (.notTraceFile (rawHdr.take 4))
  else
    let version := unpack 4 1 rawHdr
    if version != 1 && version != 2 then .error (.unsupportedVersion version)
    else
      let anchorAddr := if rawHdr.length = hdrSize then unpack 8 8 rawHdr else 0
      .ok ((recordReader version).readAll (f.drop hdrSize), anchorAddr, version)

/-- A record as the dashboard's `parse` returns it. -/
abbrev Row := Char × ℕ × ℕ × ℕ × List ℕ

/-- The loop of the dashboard's `parse` for one record. -/
def readRow (version : ℕ) (f : List UInt8) : Option (Row × List UInt8) :=
  let rf := if version = 2 then 22 else 14
  let chunk := f.take rf
  if chunk.isEmpty || decide (chunk.length < rf) then none
  else
    let tb := unpack 0 1 chunk
    let nf := unpack 1 1 chunk
    let sz := unpack 2 4 chunk
    let ptr := unpack 6 8 chunk
    let ts := if version = 2 then unpack 14 8 chunk else 0
    let k := Char.ofNat tb
    if !(k == 'A' || k == 'F') then none
    else if nf = 0 then some ((k, sz, ptr, ts, []), f.drop rf)
    else
      let raw := (f.drop rf).take (nf * 8)
      if raw.length < nf * 8 then none
      else some ((k, sz, ptr, ts, unpackQ nf raw), f.drop (rf + nf * 8))

def Record.toRow (r : Record) : Row := (r.type, r.size, r.ptr, r.ts, r.frames)

/-- Both loops read the same record. -/
theorem readRow_eq (version : ℕ) (f : List UInt8) :
    readRow version f = (readRecord version f).map fun p => (p.1.toRow, p.2) := by
  have hsize : (if version = 2 then 22 else 14) = recSize version := rfl
  unfold readRow readRecord
  simp only [hsize]
  generalize f.take (recSize version) = chunk
  by_cases hempty : chunk.isEmpty = true
  · rw [if_pos (by rw [hempty]; rfl), if_pos hempty]
    rfl
  by_cases hshort : chunk.length < recSize version
  · rw [if_pos (by simp [hshort]), if_neg hempty, if_pos hshort]
    rfl
  rw [if_neg (by simp [hempty, hshort]), if_neg hempty, if_neg hshort]
  generalize Char.ofNat (unpack 0 1 chunk) = kind
  generalize unpack 1 1 chunk = nframes
  have hkind : (!(kind == 'A' || kind == 'F')) = (kind != 'A' && kind != 'F') := Bool.not_or _ _
  rw [hkind]
  by_cases hother : (kind != 'A' && kind != 'F') = true
  · rw [if_pos hother, if_pos hother]
    rfl
  rw [if_neg hother, if_neg hother]
  by_cases hnone : nframes = 0
  · subst hnone
    rfl
  have hframes : (nframes != 0) = true := bne_iff_ne.mpr hnone
  rw [if_neg hnone, hframes, Bool.true_and]
  by_cases hraw : ((f.drop (recSize version)).take (nframes * 8)).length < nframes * 8
  · rw [if_pos hraw, if_pos (decide_eq_true hraw)]
    rfl
  · have hwhole : ¬ decide (((f.drop (recSize version)).take (nframes * 8)).length <
        nframes * 8) = true := fun h => hraw (of_decide_eq_true h)
    rw [if_neg hraw, if_neg hwhole]
    rfl

def rowReader (version : ℕ) : Reader Row UInt8 where
  read := readRow version
  shorter := by
    intro f row rest h
    rw [readRow_eq] at h
    obtain ⟨p, hp, hrow⟩ := Option.map_eq_some_iff.mp h
    cases hrow
    exact readRecord_shorter version f p.1 p.2 hp

/-- `parse` of the dashboard: the rows, the anchor and the version. -/
def dashboardParse (f : List UInt8) : Except ParseError (List Row × ℕ × ℕ) :=
  let hdr := f.take 16
  if decide (hdr.length < 8) || hdr.take 4 != utf8 "KDMT".toList then
    .error (.notTraceFile (hdr.take 4))
  else
    let ver := unpack 4 1 hdr
    if ver != 1 && ver != 2 then .error (.unsupportedVersion ver)
    else
      let anchor := if hdr.length = 16 then unpack 8 8 hdr else 0
      .ok ((rowReader ver).readAll (f.drop 16), anchor, ver)

/-- Both scripts read the same from every file. -/
theorem dashboardParse_eq (f : List UInt8) :
    dashboardParse f = (parseTrace f).map fun r => (r.1.map Record.toRow, r.2) := by
  have hrows : ∀ version, (rowReader version).readAll (f.drop 16) =
      ((recordReader version).readAll (f.drop 16)).map Record.toRow :=
    fun version => Reader.readAll_map Record.toRow (readRow_eq version) _
  unfold dashboardParse parseTrace hdrSize
  dsimp only
  simp only [hrows]
  split
  · rfl
  · split <;> rfl

/-- The record a call stands for. -/
def Call.record (c : Call) : Record where
  type := c.type
  size := c.sz.toNat
  ptr := c.ptr.toNat
  ts := c.ts.toNat
  frames := c.frames.map UInt64.toNat

/-- The record that is kept of it: the size is cut to 32 bits. -/
def Call.stored (c : Call) : Record := { c.record with size := c.sz.toNat % 4294967296 }

/-- What the hooks pass: one of the two types and what `capture_bt` collects. -/
def Call.Proper (c : Call) : Prop := (c.type = 'A' ∨ c.type = 'F') ∧ c.frames.length ≤ kMaxFrames

instance (c : Call) : Decidable c.Proper := inferInstanceAs (Decidable (_ ∧ _))

/-- A size of 32 bits is stored as it is. -/
theorem stored_of_lt {c : Call} (h : c.sz.toNat < 4294967296) : c.stored = c.record := by
  rw [Call.stored, Nat.mod_eq_of_lt h]
  rfl

section Numbers

variable {before rest : List UInt8} {offset : ℕ}

/-- A field is read where it was written. -/
theorem unpack_encode (h : before.length = offset) (width n : ℕ) :
    unpack offset width (before ++ (encode width n ++ rest)) = n % 256 ^ width := by
  rw [unpack, List.drop_left' h, List.take_left' (length_encode width n), decode_encode]

/-- So is a byte. -/
theorem unpack_byte (h : before.length = offset) (b : UInt8) :
    unpack offset 1 (before ++ b :: rest) = b.toNat := by
  rw [unpack, List.drop_left' h]
  exact Nat.add_zero b.toNat

/-- An address or a tick is read as it was. -/
theorem unpack_uint64 (h : before.length = offset) (n : UInt64) :
    unpack offset 8 (before ++ (encode 8 n.toNat ++ rest)) = n.toNat := by
  have hlt : n.toNat < 256 ^ 8 := n.toNat_lt
  rw [unpack_encode h, Nat.mod_eq_of_lt hlt]

/-- So are the frames. -/
theorem unpackQ_flatMap (frames : List UInt64) (rest : List UInt8) :
    unpackQ frames.length ((frames.flatMap fun f => encode 8 f.toNat) ++ rest) =
      frames.map UInt64.toNat := by
  induction frames with
  | nil => rfl
  | cons f frames ih =>
    have hlt : f.toNat < 256 ^ 8 := f.toNat_lt
    rw [List.flatMap_cons, List.append_assoc, List.length_cons, unpackQ,
      List.take_left' (length_encode 8 _), List.drop_left' (length_encode 8 _), ih,
      decode_encode_of_lt hlt, List.map_cons]

/-- Eight bytes a frame. -/
theorem length_flatMap_frames (frames : List UInt64) :
    (frames.flatMap fun f => encode 8 f.toNat).length = frames.length * 8 := by
  induction frames with
  | nil => rfl
  | cons f frames ih =>
    rw [List.flatMap_cons, List.length_append, length_encode, ih, List.length_cons]
    omega

end Numbers

/-- The fixed part of a record. -/
def head (c : Call) : List UInt8 :=
  [UInt8.ofNat c.type.toNat, UInt8.ofNat c.frames.length] ++ encode 4 c.sz.toNat ++
    encode 8 c.ptr.toNat ++ encode 8 c.ts.toNat

/-- A record is its head and its frames. -/
theorem recordBytes_eq (c : Call) :
    recordBytes c = head c ++ c.frames.flatMap fun f => encode 8 f.toNat := rfl

/-- The head has 22 bytes. -/
theorem length_head (c : Call) : (head c).length = 22 := by
  simp only [head, List.length_append, length_encode]
  rfl

/-- And the frames come on top. -/
theorem length_recordBytes (c : Call) : (recordBytes c).length = 22 + c.frames.length * 8 := by
  rw [recordBytes_eq, List.length_append, length_head, length_flatMap_frames]

/-- With the fixed part there, a record is read when its frames are. -/
theorem readRecord_of_head {c : Call} (h : c.Proper) {f : List UInt8} (hhead : f.take 22 = head c) :
    readRecord 2 f =
      if c.frames.length ≠ 0 ∧ ((f.drop 22).take (c.frames.length * 8)).length < c.frames.length * 8
      then none
      else some
        ({ c.stored with
            frames := unpackQ c.frames.length ((f.drop 22).take (c.frames.length * 8)) },
          f.drop (22 + c.frames.length * 8)) := by
  have hsize : recSize 2 = 22 := rfl
  have hlength := length_head c
  have htype : Char.ofNat (unpack 0 1 (head c)) = c.type := by
    have hbyte : unpack 0 1 (head c) = (UInt8.ofNat c.type.toNat).toNat := by
      simp only [head, List.append_assoc, List.cons_append, List.nil_append]
      exact unpack_byte (rfl : ([] : List UInt8).length = 0) _
    rw [hbyte]
    rcases h.1 with ha | hf
    · rw [ha]
      rfl
    · rw [hf]
      rfl
  have hframes : unpack 1 1 (head c) = c.frames.length := by
    have hbyte : unpack 1 1 (head c) = (UInt8.ofNat c.frames.length).toNat := by
      simp only [head, List.append_assoc, List.cons_append, List.nil_append]
      exact unpack_byte (rfl : [UInt8.ofNat c.type.toNat].length = 1) _
    have hsmall := h.2
    unfold kMaxFrames at hsmall
    rw [hbyte, UInt8.toNat_ofNat', Nat.mod_eq_of_lt (by omega)]
  have hsz : unpack 2 4 (head c) = c.sz.toNat % 4294967296 := by
    simp only [head, List.append_assoc, List.cons_append, List.nil_append]
    have hlength : [UInt8.ofNat c.type.toNat, UInt8.ofNat c.frames.length].length = 2 := rfl
    exact unpack_encode hlength 4 _
  have hptr : unpack 6 8 (head c) = c.ptr.toNat := by
    have hsplit : head c = ([UInt8.ofNat c.type.toNat, UInt8.ofNat c.frames.length] ++
        encode 4 c.sz.toNat) ++ (encode 8 c.ptr.toNat ++ encode 8 c.ts.toNat) := by
      simp only [head, List.append_assoc]
    rw [hsplit]
    exact unpack_uint64 (by rw [List.length_append, length_encode]; rfl) _
  have hts : unpack 14 8 (head c) = c.ts.toNat := by
    have hsplit : head c = ([UInt8.ofNat c.type.toNat, UInt8.ofNat c.frames.length] ++
        encode 4 c.sz.toNat ++ encode 8 c.ptr.toNat) ++ (encode 8 c.ts.toNat ++ []) := by
      simp only [head, List.append_assoc, List.append_nil]
    rw [hsplit]
    exact unpack_uint64
      (by rw [List.length_append, List.length_append, length_encode, length_encode]; rfl) _
  have hknown : (c.type != 'A' && c.type != 'F') = false := by
    rcases h.1 with ha | hf
    · rw [ha]
      rfl
    · rw [hf]
      rfl
  have hnonempty : ¬ (head c).isEmpty = true := by
    intro hempty
    rw [List.isEmpty_iff.mp hempty] at hlength
    cases hlength
  unfold readRecord
  dsimp only
  rw [hsize, hhead, if_neg hnonempty, if_neg (by omega), htype, hframes, hsz, hptr, hknown,
    if_neg Bool.false_ne_true, if_pos rfl, hts]
  simp only [Bool.and_eq_true, bne_iff_ne, decide_eq_true_eq]
  rfl

/-- The reader of the trace reads what the hooks write. -/
theorem reads_recordBytes : Reads (recordReader 2) recordBytes Call.stored Call.Proper where
  read_append := by
    intro c h rest
    have hlength := length_flatMap_frames c.frames
    have hhead : (recordBytes c ++ rest).take 22 = head c := by
      rw [recordBytes_eq, List.append_assoc, List.take_left' (length_head c)]
    have hdrop : (recordBytes c ++ rest).drop 22 =
        (c.frames.flatMap fun f => encode 8 f.toNat) ++ rest := by
      rw [recordBytes_eq, List.append_assoc, List.drop_left' (length_head c)]
    have hrest : (recordBytes c ++ rest).drop (22 + c.frames.length * 8) = rest :=
      List.drop_left' (length_recordBytes c)
    have hraw : ((recordBytes c ++ rest).drop 22).take (c.frames.length * 8) =
        (c.frames.flatMap fun f => encode 8 f.toNat) := by
      rw [hdrop, List.take_left' hlength]
    have hunpacked := unpackQ_flatMap c.frames []
    rw [List.append_nil] at hunpacked
    have hread : (recordReader 2).read (recordBytes c ++ rest) =
        readRecord 2 (recordBytes c ++ rest) := rfl
    rw [hread, readRecord_of_head h hhead, hraw, hrest, hlength, if_neg (by omega), hunpacked]
    rfl
  read_take := by
    intro c h n hn
    rw [length_recordBytes] at hn
    have hread : (recordReader 2).read ((recordBytes c).take n) =
        readRecord 2 ((recordBytes c).take n) := rfl
    rw [hread]
    by_cases hshort : n < 22
    · have hchunk : ((recordBytes c).take n).take (recSize 2) = (recordBytes c).take n :=
        List.take_of_length_le (by rw [List.length_take]; change _ ≤ 22; omega)
      have hlength : ((recordBytes c).take n).length < recSize 2 := by
        rw [List.length_take]
        change _ < 22
        omega
      unfold readRecord
      dsimp only
      rw [hchunk, if_pos hlength, ite_self]
    · have hhead : ((recordBytes c).take n).take 22 = head c := by
        rw [List.take_take, Nat.min_eq_left (by omega), recordBytes_eq,
          List.take_left' (length_head c)]
      rw [readRecord_of_head h hhead, if_pos]
      rw [List.length_take, List.length_drop, List.length_take, length_recordBytes]
      omega
  read_nil := rfl

/-- The header of a file. -/
def header (anchor : UInt64) : List UInt8 := (init anchor).file

/-- The header of the file has its size. -/
theorem length_header (anchor : UInt64) : (header anchor).length = hdrSize := by
  have hmagic : (utf8 "KDMT".toList).length = 4 := by decide
  simp only [header, init, List.length_append, length_encode, hmagic]
  rfl

/-- A file with a header is its anchor and what is read behind the header. -/
theorem parseTrace_header (anchor : UInt64) (body : List UInt8) :
    parseTrace (header anchor ++ body) = .ok ((recordReader 2).readAll body, anchor.toNat, 2) := by
  have hlength := length_header anchor
  have hhdr : (header anchor ++ body).take hdrSize = header anchor := List.take_left' hlength
  have hbody : (header anchor ++ body).drop hdrSize = body := List.drop_left' hlength
  have hstart : header anchor = utf8 "KDMT".toList ++
      2 :: ([0, 0, 0] ++ encode 8 anchor.toNat) := by
    simp only [header, init, List.append_assoc, List.cons_append, List.nil_append]
  have hend : header anchor = (utf8 "KDMT".toList ++ [2, 0, 0, 0]) ++
      (encode 8 anchor.toNat ++ []) := by
    simp only [header, init, List.append_nil]
  have hletters : (utf8 "KDMT".toList).length = 4 := by decide
  have hmagic : (header anchor).take 4 = utf8 "KDMT".toList := by
    rw [hstart, List.take_left' hletters]
  have hversion : unpack 4 1 (header anchor) = 2 := by
    rw [hstart, unpack_byte hletters]
    rfl
  have hanchor : unpack 8 8 (header anchor) = anchor.toNat := by
    rw [hend, unpack_uint64 (by rw [List.length_append, hletters]; rfl)]
  unfold parseTrace
  dsimp only
  rw [hhdr, hbody, hlength, hmagic, hversion, hanchor, if_pos rfl]
  rfl

/-- After these calls file and buffer hold the header and all records, and the buffer is not
over its end. -/
structure Holds (anchor : UInt64) (calls : List Call) (t : Tracker) : Prop where
  opened : t.opened = true
  content : t.file ++ t.wbuf = header anchor ++ calls.flatMap recordBytes
  fits : t.wbuf.length ≤ kWBufSize

/-- At the start the header is all there is. -/
theorem holds_init (anchor : UInt64) : Holds anchor [] (init anchor) :=
  ⟨rfl, rfl, Nat.zero_le _⟩

/-- Flushing moves what is buffered to the file. -/
theorem holds_flushLocked {anchor : UInt64} {calls : List Call} {t : Tracker}
    (h : Holds anchor calls t) :
    Holds anchor calls (flushLocked t) ∧ (flushLocked t).wbuf = [] := by
  unfold flushLocked
  rw [h.opened, Bool.not_true, Bool.or_false]
  by_cases hempty : t.wbuf.isEmpty = true
  · rw [if_pos hempty]
    exact ⟨h, List.isEmpty_iff.mp hempty⟩
  · rw [if_neg hempty]
    refine ⟨⟨rfl, ?_, Nat.zero_le _⟩, rfl⟩
    rw [List.append_nil]
    exact h.content

/-- A record goes behind what was written, through the buffer or past it. -/
theorem holds_writeRecord {anchor : UInt64} {calls : List Call} {t : Tracker}
    (h : Holds anchor calls t) {c : Call} (hc : c.frames.length ≤ kMaxFrames) :
    Holds anchor (calls ++ [c]) (writeRecord t c) := by
  have hlength := length_recordBytes c
  have happend : ∀ t : Tracker, Holds anchor calls t →
      t.wbuf.length + (recordBytes c).length ≤ kWBufSize →
      Holds anchor (calls ++ [c]) { t with wbuf := t.wbuf ++ recordBytes c } := by
    intro t h hroom
    refine ⟨h.opened, ?_, ?_⟩
    · rw [List.flatMap_append, List.flatMap_singleton, ← List.append_assoc, h.content,
        List.append_assoc]
    · rw [List.length_append]
      exact hroom
  unfold writeRecord
  rw [h.opened, Bool.not_true, if_neg Bool.false_ne_true]
  dsimp only
  by_cases hfull : kWBufSize < t.wbuf.length + (recordBytes c).length
  · rw [if_pos hfull]
    obtain ⟨hflushed, hempty⟩ := holds_flushLocked h
    apply happend _ hflushed
    rw [hempty, hlength, List.length_nil]
    unfold kMaxFrames at hc
    unfold kWBufSize
    omega
  · rw [if_neg hfull]
    exact happend t h (by omega)

/-- So after every run file and buffer hold all calls in order. -/
theorem holds_run (anchor : UInt64) {calls : List Call} (h : ∀ c ∈ calls, c.Proper) :
    Holds anchor calls (run writeRecord (init anchor) calls) := by
  induction calls using List.reverseRecOn with
  | nil => exact holds_init anchor
  | append_singleton calls c ih =>
    rw [List.forall_mem_append] at h
    rw [run_append]
    exact holds_writeRecord (ih h.1) (h.2 c (List.mem_singleton_self c)).2

/-- The closed file is the header and all records. -/
theorem file_closeTrace {anchor : UInt64} {calls : List Call} {t : Tracker}
    (h : Holds anchor calls t) :
    (closeTrace t).file = header anchor ++ calls.flatMap recordBytes := by
  obtain ⟨hflushed, hempty⟩ := holds_flushLocked h
  have hcontent := hflushed.content
  rw [hempty, List.append_nil] at hcontent
  rw [closeTrace, if_pos h.opened]
  exact hcontent

/-- The trace of these calls. -/
def traceOf (anchor : UInt64) (calls : List Call) : List UInt8 :=
  (closeTrace (run writeRecord (init anchor) calls)).file

/-- Whatever the sizes are, the records that are kept come back. -/
theorem parseTrace_traceOf (anchor : UInt64) {calls : List Call} (h : ∀ c ∈ calls, c.Proper) :
    parseTrace (traceOf anchor calls) = .ok (calls.map Call.stored, anchor.toNat, 2) := by
  rw [traceOf, file_closeTrace (holds_run anchor h), parseTrace_header,
    reads_recordBytes.readAll_flatMap h]

/-- Of a file that is cut the whole records are read. -/
theorem parseTrace_take (anchor : UInt64) {calls : List Call} (h : ∀ c ∈ calls, c.Proper) {n : ℕ}
    (hn : hdrSize ≤ n) :
    parseTrace ((traceOf anchor calls).take n) =
      .ok ((wholeBefore recordBytes hdrSize n calls).map Call.stored, anchor.toNat, 2) := by
  have hsum : hdrSize + (n - hdrSize) = n := by omega
  have hlength := length_header anchor
  have hcut : (header anchor ++ calls.flatMap recordBytes).take n =
      header anchor ++ (calls.flatMap recordBytes).take (n - hdrSize) := by
    rw [List.take_append, hlength, List.take_of_length_le (by omega)]
  rw [traceOf, file_closeTrace (holds_run anchor h), hcut, parseTrace_header,
    reads_recordBytes.readAll_take h hdrSize, hsum]

/-- Sizes of 32 bits are all stored as they are. -/
theorem map_stored {calls : List Call} (h : ∀ c ∈ calls, c.sz.toNat < 4294967296) :
    calls.map Call.stored = calls.map Call.record :=
  List.map_congr_left fun c hc => stored_of_lt (h c hc)

/-- The file parses to what was recorded, cut anywhere behind the header to what lies wholly
inside, and both scripts read every file the same way. -/
theorem trace_roundTrip :
    (∀ (anchor : UInt64) (calls : List Call),
      (∀ c ∈ calls, c.Proper ∧ c.sz.toNat < 4294967296) →
        parseTrace (traceOf anchor calls) = .ok (calls.map Call.record, anchor.toNat, 2) ∧
        ∀ n, hdrSize ≤ n → parseTrace ((traceOf anchor calls).take n) =
          .ok ((wholeBefore recordBytes hdrSize n calls).map Call.record, anchor.toNat, 2)) ∧
    ∀ f, dashboardParse f = (parseTrace f).map fun r => (r.1.map Record.toRow, r.2) := by
  refine ⟨?_, dashboardParse_eq⟩
  intro anchor calls h
  have hproper : ∀ c ∈ calls, c.Proper := fun c hc => (h c hc).1
  constructor
  · rw [parseTrace_traceOf anchor hproper, map_stored fun c hc => (h c hc).2]
  · intro n hn
    have hinside : ∀ c ∈ wholeBefore recordBytes hdrSize n calls, c.sz.toNat < 4294967296 :=
      fun c hc => (h c (mem_of_mem_wholeBefore hc)).2
    rw [parseTrace_take anchor hproper hn, map_stored hinside]

/-- A block that is allocated and freed. -/
def allocatedAndFreed : List Call :=
  [{ type := 'A', ptr := 4096, sz := 24, ts := 1000, frames := [5, 6] },
    { type := 'F', ptr := 4096, sz := 24, ts := 2000, frames := [] }]

/-- More than the buffer holds: it is flushed on the way. -/
def manyCalls : List Call :=
  List.replicate 300
    { type := 'A', ptr := 4096, sz := 24, ts := 1000, frames := List.replicate 12 5 }

/-- Cut behind the first record, which ends at byte 54, only that one is there; of many calls all
are there. -/
theorem trace_roundTrip_calls :
    parseTrace (traceOf 77 allocatedAndFreed) =
        .ok ([⟨'A', 24, 4096, 1000, [5, 6]⟩, ⟨'F', 24, 4096, 2000, []⟩], 77, 2) ∧
      parseTrace ((traceOf 77 allocatedAndFreed).take 60) =
        .ok ([⟨'A', 24, 4096, 1000, [5, 6]⟩], 77, 2) ∧
      parseTrace (traceOf 77 manyCalls) = .ok (manyCalls.map Call.record, 77, 2) := by
  obtain ⟨hwhole, hcut⟩ := trace_roundTrip.1 77 allocatedAndFreed (by decide)
  have hproper : ∀ c ∈ manyCalls, c.Proper ∧ c.sz.toNat < 4294967296 := by
    intro c hc
    obtain rfl := (List.mem_replicate.mp hc).2
    decide
  exact ⟨hwhole, hcut 60 (by decide), (trace_roundTrip.1 77 manyCalls hproper).1⟩

end KdeConnectNx.TraceFile
