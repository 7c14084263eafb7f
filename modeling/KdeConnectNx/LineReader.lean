import Mathlib.Data.List.Basic
import Mathlib.Data.List.Flatten
import KdeConnectNx.PacketFormat

/-!
# Reading packets line by line from a TLS session

Bytes come one at a time out of `mbedtls_ssl_read`, with any number of
want-read and want-write results between them. The size limit is tested before
each byte, the terminator included. Reading the concatenated lines of a packet
list gives the packets back, and nothing is left over.
-/

namespace KdeConnectNx.LineReader

open PacketBody PacketFormat

/-- The longest line that is accepted, its newline included. -/
def kMaxPacketSize : Nat := 512 * 1024

/-- Result of a one-byte `mbedtls_ssl_read`. -/
inductive SslRead where
  | byte (b : UInt8)
  | wantRead
  | wantWrite
  /-- End of the stream or any other error. -/
  | error
  deriving DecidableEq, Repr

/-- What one result does to the line read so far. -/
inductive LineProgress where
  | more (out : List UInt8)
  | line (out : List UInt8)
  | failed
  deriving DecidableEq, Repr

/-- Loop body of `read_line_tls` after its read. -/
def lineStep (out : List UInt8) : SslRead → LineProgress
  | .byte b => if b = 10 then .line out else .more (out ++ [b])
  | .wantRead => .more out
  | .wantWrite => .more out
  | .error => .failed

/-- How a call stands once the results given so far are used. -/
inductive LineOutcome where
  | line (out : List UInt8)
  | failed
  /-- Still inside the loop, with this much of a line. -/
  | waiting (out : List UInt8)
  deriving DecidableEq, Repr

/-- `read_line_tls` over the results its reads get, and the results it leaves
unused. -/
def readLineTls (maxBytes : Nat) : List UInt8 → List SslRead → LineOutcome × List SslRead
  | out, [] => (if out.length < maxBytes then .waiting out else .failed, [])
  | out, r :: results =>
    if out.length < maxBytes then
      match lineStep out r with
      | .more out' => readLineTls maxBytes out' results
      | .line l => (.line l, results)
      | .failed => (.failed, results)
    else (.failed, r :: results)

/-- The byte a result delivers. -/
def SslRead.byte? : SslRead → Option UInt8
  | .byte b => some b
  | _ => none

/-- The bytes a list of results delivers, in order. -/
def delivered (results : List SslRead) : List UInt8 := results.filterMap SslRead.byte?

/-- The results deliver exactly these bytes and no error. -/
def Delivers (results : List SslRead) (bytes : List UInt8) : Prop :=
  SslRead.error ∉ results ∧ delivered results = bytes

instance (results : List SslRead) (bytes : List UInt8) : Decidable (Delivers results bytes) :=
  inferInstanceAs (Decidable (_ ∧ _))

/-- As many calls as asked for, each line parsed; the packets in order and the
results left unused, none when a call or a parse fails. -/
def readPackets (y : Yyjson) : Nat → List SslRead → Option (List NetworkPacket × List SslRead)
  | 0, results => some ([], results)
  | n + 1, results =>
    match readLineTls kMaxPacketSize [] results with
    | (.line text, rest) =>
      match NetworkPacket.parse y text, readPackets y n rest with
      | some pkt, some (pkts, left) => some (pkt :: pkts, left)
      | _, _ => none
    | _ => none

/-- A packet and the millisecond clock it was serialised at. -/
structure Outgoing where
  millis : Int64
  packet : NetworkPacket

/-- The line that is put on the send queue. -/
def Outgoing.text (y : Yyjson) (o : Outgoing) : List UInt8 := o.packet.serialize y o.millis

/-- A packet that the format carries: a type without NUL, no floating-point
number in the body, and a line within the limit. -/
structure Outgoing.Fits (y : Yyjson) (o : Outgoing) : Prop where
  nulFree : NulFree o.packet.type
  realFree : o.packet.body.realFree = true
  short : (o.text y).length ≤ kMaxPacketSize

/-- Results that are all bytes deliver them. -/
theorem delivers_map_byte (bytes : List UInt8) : Delivers (bytes.map .byte) bytes := by
  induction bytes with
  | nil => exact ⟨List.not_mem_nil, rfl⟩
  | cons b bytes ih =>
    obtain ⟨herror, hbytes⟩ := ih
    refine ⟨?_, congrArg (b :: ·) hbytes⟩
    rw [List.map_cons, List.mem_cons]
    rintro (h | h)
    · cases h
    · exact herror h

/-- A want-read result delivers nothing. -/
theorem Delivers.wantRead {results : List SslRead} {bytes : List UInt8}
    (h : Delivers results bytes) : Delivers (.wantRead :: results) bytes := by
  obtain ⟨herror, hbytes⟩ := h
  refine ⟨?_, hbytes⟩
  rw [List.mem_cons]
  rintro (h | h)
  · cases h
  · exact herror h

/-- Results without an error stay so, and a line can be read one result at a
time: a byte of it, its newline, or nothing yet. -/
theorem Delivers.tail {r : SslRead} {results : List SslRead} {bytes : List UInt8}
    (h : Delivers (r :: results) bytes) :
    (∃ b rest, r = .byte b ∧ bytes = b :: rest ∧ Delivers results rest) ∨
      ((r = .wantRead ∨ r = .wantWrite) ∧ Delivers results bytes) := by
  obtain ⟨herror, hbytes⟩ := h
  have hrest : SslRead.error ∉ results := fun hm => herror (List.mem_cons_of_mem r hm)
  cases r with
  | byte b => exact .inl ⟨b, delivered results, rfl, hbytes.symm, hrest, rfl⟩
  | wantRead => exact .inr ⟨.inl rfl, hrest, hbytes⟩
  | wantWrite => exact .inr ⟨.inr rfl, hrest, hbytes⟩
  | error => exact absurd List.mem_cons_self herror

/-- A line that ends within the limit is returned whole, and exactly its bytes
are used up. -/
theorem readLineTls_line {maxBytes : Nat} {results : List SslRead} {out text more : List UInt8}
    (hd : Delivers results (text ++ 10 :: more)) (hn : (10 : UInt8) ∉ text)
    (hlen : out.length + text.length < maxBytes) :
    ∃ rest, readLineTls maxBytes out results = (.line (out ++ text), rest) ∧
      Delivers rest more := by
  induction results generalizing out text with
  | nil =>
    have hnil : text ++ 10 :: more = [] := hd.2.symm
    simp at hnil
  | cons r results ih =>
    have hroom : out.length < maxBytes := by omega
    rcases hd.tail with ⟨b, bytes, rfl, hb, hrest⟩ | ⟨hwant, hrest⟩
    · cases text with
      | nil =>
        obtain ⟨rfl, rfl⟩ := List.cons.inj hb
        refine ⟨results, ?_, hrest⟩
        rw [readLineTls, if_pos hroom, List.append_nil]
        rfl
      | cons c text =>
        obtain ⟨rfl, rfl⟩ := List.cons.inj hb
        have hc : c ≠ 10 := fun h => hn (h ▸ List.mem_cons_self)
        have htext : (10 : UInt8) ∉ text := fun h => hn (List.mem_cons_of_mem c h)
        have hlen' : (out ++ [c]).length + text.length < maxBytes := by
          rw [List.length_append, List.length_singleton]
          rw [List.length_cons] at hlen
          omega
        obtain ⟨rest, hread, hdone⟩ := ih hrest htext hlen'
        refine ⟨rest, ?_, hdone⟩
        rw [readLineTls, if_pos hroom]
        simp only [lineStep, if_neg hc]
        rw [hread, List.append_assoc]
        rfl
    · obtain ⟨rest, hread, hdone⟩ := ih hrest hn hlen
      refine ⟨rest, ?_, hdone⟩
      rw [readLineTls, if_pos hroom]
      rcases hwant with rfl | rfl <;> exact hread

/-- Bytes without a wait between them are used up to the newline. -/
theorem readLineTls_bytes {maxBytes : Nat} (out : List UInt8) {text : List UInt8}
    (hn : (10 : UInt8) ∉ text) (hlen : out.length + text.length < maxBytes) :
    readLineTls maxBytes out ((text ++ [10]).map .byte) = (.line (out ++ text), []) := by
  induction text generalizing out with
  | nil =>
    have hroom : out.length < maxBytes := by omega
    rw [List.nil_append, List.map_singleton, readLineTls, if_pos hroom, List.append_nil]
    rfl
  | cons c text ih =>
    have hroom : out.length < maxBytes := by omega
    have hc : c ≠ 10 := fun h => hn (h ▸ List.mem_cons_self)
    have htext : (10 : UInt8) ∉ text := fun h => hn (List.mem_cons_of_mem c h)
    have hlen' : (out ++ [c]).length + text.length < maxBytes := by
      rw [List.length_append, List.length_singleton]
      rw [List.length_cons] at hlen
      omega
    have hread := ih (out ++ [c]) htext hlen'
    rw [List.cons_append, List.map_cons, readLineTls, if_pos hroom]
    simp only [lineStep, if_neg hc]
    rw [hread, List.append_assoc]
    rfl

/-- The text of a packet that fits is a line of its own and parses back to
what a receiver makes of the packet. -/
theorem Outgoing.Fits.text_line {y : Yyjson} (hy : y.Lawful) {o : Outgoing} (h : o.Fits y) :
    ∃ line, o.text y = line ++ [10] ∧ (10 : UInt8) ∉ line ∧ line.length < kMaxPacketSize ∧
      NetworkPacket.parse y line = some o.packet.received := by
  obtain ⟨hparse, hprint⟩ := NetworkPacket.parse_root hy h.nulFree h.realFree o.millis
  refine ⟨_, rfl, ?_, ?_, hparse⟩
  · intro hm
    exact absurd (hprint 10 hm) (by decide)
  · have hshort := h.short
    rw [Outgoing.text, NetworkPacket.serialize, List.length_append, List.length_singleton] at hshort
    omega

/-- Codec and framing round trip: reading the concatenated lines of packets
that fit returns the packets in order, whatever want-read and want-write
results come between the bytes, and no byte is left over. -/
theorem readPackets_sent {y : Yyjson} (hy : y.Lawful) (sent : List Outgoing)
    (hfits : ∀ o ∈ sent, o.Fits y) (results : List SslRead)
    (hd : Delivers results (sent.flatMap (Outgoing.text y))) :
    ∃ left, readPackets y sent.length results = some (sent.map fun o => o.packet.received, left) ∧
      Delivers left [] := by
  induction sent generalizing results with
  | nil => exact ⟨results, rfl, hd⟩
  | cons o sent ih =>
    obtain ⟨line, htext, hn, hlen, hparse⟩ := (hfits o List.mem_cons_self).text_line hy
    have hfirst : Delivers results (line ++ 10 :: sent.flatMap (Outgoing.text y)) := by
      rw [List.flatMap_cons, htext, List.append_assoc] at hd
      exact hd
    have hroom : ([] : List UInt8).length + line.length < kMaxPacketSize := by
      rw [List.length_nil]
      omega
    obtain ⟨rest, hread, hrest⟩ := readLineTls_line hfirst hn hroom
    obtain ⟨left, hleft, hdone⟩ := ih (fun o ho => hfits o (List.mem_cons_of_mem _ ho)) rest hrest
    refine ⟨left, ?_, hdone⟩
    rw [List.length_cons, readPackets, hread, List.nil_append]
    dsimp only
    rw [hparse, hleft]
    rfl

/-- A pair request without a payload. -/
def pairOffer : Outgoing where
  millis := 1700000000000
  packet := { type := PacketTypes.pair, body := ({} : JsonBody).setBool "pair" true }

/-- A shared file with its payload announced. -/
def fileOffer : Outgoing where
  millis := 1700000000001
  packet :=
    { type := PacketTypes.shareRequest
      body := ({} : JsonBody).setStr "filename" "a.txt"
      payloadSize := 5
      payloadPort := 1739 }

theorem pairOffer_fits : pairOffer.Fits Yyjson.reference :=
  ⟨by decide, rfl, by decide +kernel⟩

theorem fileOffer_fits : fileOffer.Fits Yyjson.reference :=
  ⟨by decide, rfl, by decide +kernel⟩

/-- The round trip on the two packets above, with a wait before the first
byte. -/
theorem readPackets_sent_offers :
    ∃ left, readPackets Yyjson.reference 2 (.wantRead ::
        ([pairOffer, fileOffer].flatMap (Outgoing.text Yyjson.reference)).map .byte) =
      some ([pairOffer.packet.received, fileOffer.packet.received], left) ∧ Delivers left [] := by
  have hfits : ∀ o ∈ [pairOffer, fileOffer], o.Fits Yyjson.reference := by
    intro o ho
    rcases List.mem_pair.mp ho with rfl | rfl
    · exact pairOffer_fits
    · exact fileOffer_fits
  exact readPackets_sent Yyjson.reference_lawful [pairOffer, fileOffer] hfits _
    (delivers_map_byte _).wantRead

end KdeConnectNx.LineReader
