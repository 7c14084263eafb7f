import KdeConnectNx.Connection
import KdeConnectNx.JsonText
import KdeConnectNx.Pem

/-!
# The peer's certificate as text

After the handshake the certificate that the peer presented is written as PEM into
a buffer of 4096 bytes. Where it does not fit, the helper returns an empty vector,
and a string is made from its null pointer; the threads that set up connections catch
`bad_alloc` only.
-/

namespace KdeConnectNx.PeerCertificate

open PacketBody PacketFormat PairedFiles Sessions Pairing PairingRuns Connection
open JsonText (utf8)
open KdeConnectClient (setStorage)
open RecordStream (phone phoneIdentity)

/-- What may be thrown on a connection's thread. -/
inductive CppException
  | badAlloc
  | logicError
deriving DecidableEq, Repr

/-- `mbedtls_pem_write_buffer`: from header, footer, the bytes and the size of the
buffer what it has written; none when it fails. -/
abbrev PemWriter := List UInt8 → List UInt8 → List UInt8 → ℕ → Option (List UInt8)

/-- It writes the text with its terminator, and fails exactly when they exceed the
buffer. -/
def PemWriter.Lawful (write : PemWriter) : Prop :=
  ∀ header footer der size, write header footer der size =
    if (Pem.text header footer der).length + 1 ≤ size then some (Pem.text header footer der ++ [0])
    else none

def PemWriter.reference : PemWriter := fun header footer der size =>
  let text := Pem.text header footer der
  if size < text.length + 1 then none else some (text ++ [0])

theorem PemWriter.reference_lawful : PemWriter.reference.Lawful := by
  intro header footer der size
  unfold reference
  dsimp only
  split <;> split <;> first | rfl | omega

/-- `pem_write_buffer`, empty when the text does not fit. -/
def pemWriteBuffer (write : PemWriter) (data header footer : List UInt8) : List UInt8 :=
  (write header footer data 4096).getD []

/-- `std::string(const char*)` from a vector's `data()`, which is null for an empty
one. -/
def stringFromData (vector : List UInt8) : Except CppException (List UInt8) :=
  if vector.isEmpty then .error .logicError else .ok (cbytes vector)

def beginCertificate : List UInt8 := utf8 "-----BEGIN CERTIFICATE-----\n".toList

def endCertificate : List UInt8 := utf8 "-----END CERTIFICATE-----\n".toList

/-- `TlsContext::peer_cert_pem`; the peer presents this certificate, or none. -/
def peerCertPem (write : PemWriter) : Option (List UInt8) → Except CppException (List UInt8)
  | none => .ok []
  | some der => stringFromData (pemWriteBuffer write der beginCertificate endCertificate)

/-- Text of one byte for each character. -/
def ofAscii (text : List UInt8) : String := String.ofList (text.map fun b => Char.ofNat b.toNat)

variable {φ π ε : Type}

/-- `handle_new_connection` on its thread, which catches `bad_alloc`: none when
anything else is thrown, which ends the process. -/
def connectionThread [FileSystem φ] [PluginHost π ε] (write : PemWriter) (y : Yyjson) (m : Moment ε)
    (identity : DeviceInfo) (tcpServerSide : Bool) (io : ConnectionIo)
    (presented : Option (List UInt8)) (c : KdeConnectClient φ π) :
    Option (KdeConnectClient φ π) :=
  if admitted c identity && io.tls && io.handshake then
    match peerCertPem write presented with
    | .ok text =>
      some (handleNewConnection y m identity tcpServerSide
        { io with certificate := some (ofAscii text) } c)
    | .error .badAlloc => some (setStorage c (loadPairedDevice y identity.id c.storage).2)
    | .error .logicError => none
  else some (handleNewConnection y m identity tcpServerSide io c)

/-- The complete PEM text of a certificate. -/
def certificateText (der : List UInt8) : List UInt8 := Pem.text beginCertificate endCertificate der

/-- The certificate presented gives its whole text or the empty one, the thread
survives, and after the empty text there is no new session. -/
structure Harmless [FileSystem φ] [PluginHost π ε] (write : PemWriter) (y : Yyjson) (m : Moment ε)
    (identity : DeviceInfo) (tcpServerSide : Bool) (io : ConnectionIo)
    (presented : Option (List UInt8)) (c : KdeConnectClient φ π) : Prop where
  text : ∀ der, presented = some der → peerCertPem write presented = .ok (certificateText der) ∨
    peerCertPem write presented = .ok []
  survives : (connectionThread write y m identity tcpServerSide io presented c).isSome = true
  aborts : peerCertPem write presented = .ok [] →
    ∀ c', connectionThread write y m identity tcpServerSide io presented c = some c' →
      c'.next = c.next ∧ c'.sessions = c.sessions

theorem length_certificateText (der : List UInt8) : (certificateText der).length =
    54 + 4 * ((der.length + 2) / 3) + (4 * ((der.length + 2) / 3) + 63) / 64 := by
  have hbegin : beginCertificate.length = 28 := by decide
  have hend : endCertificate.length = 26 := by decide
  rw [certificateText, Pem.length_text, hbegin, hend]

/-- The text and its terminator fit the buffer up to 2982 bytes of DER. -/
theorem fits_iff (der : List UInt8) :
    (certificateText der).length + 1 ≤ 4096 ↔ der.length ≤ 2982 := by
  rw [length_certificateText]
  omega

theorem cbytes_certificateText (der : List UInt8) :
    cbytes (certificateText der ++ [0]) = certificateText der := by
  have hbegin : 0 ∉ beginCertificate := by decide
  have hend : 0 ∉ endCertificate := by decide
  have hall := Pem.text_ne_zero (fun b hb h => hbegin (h ▸ hb)) (fun b hb h => hend (h ▸ hb)) der
  have htext : ∀ b ∈ certificateText der, (b != 0) = true :=
    fun b hb => bne_iff_ne.mpr (hall b hb)
  unfold cbytes
  rw [List.takeWhile_append_of_pos htext, List.takeWhile_cons_of_neg (by decide), List.append_nil]

/-- Up to that size the whole text comes back, and from there on nothing does. -/
theorem peerCertPem_some {write : PemWriter} (h : write.Lawful) (der : List UInt8) :
    peerCertPem write (some der) =
      if der.length ≤ 2982 then .ok (certificateText der) else .error .logicError := by
  unfold peerCertPem pemWriteBuffer
  dsimp only
  rw [h]
  change stringFromData
    ((if (certificateText der).length + 1 ≤ 4096 then some (certificateText der ++ [0])
      else none).getD []) = _
  by_cases hfits : der.length ≤ 2982
  · rw [if_pos ((fits_iff der).mpr hfits), if_pos hfits, Option.getD_some]
    unfold stringFromData
    rw [if_neg (by simp), cbytes_certificateText]
  · rw [if_neg (fun hle => hfits ((fits_iff der).mp hle)), if_neg hfits]
    rfl

theorem certificateText_ne_nil (der : List UInt8) : certificateText der ≠ [] := by
  intro h
  have hlength := length_certificateText der
  rw [h, List.length_nil] at hlength
  omega

section Sessions

variable [FileSystem φ] [PluginHost π ε]

/-- No session without one made in the handshake, -/
theorem next_of_dropped {y : Yyjson} {identity : DeviceInfo} {tcpServerSide : Bool}
    {io : ConnectionIo} {c : KdeConnectClient φ π} (m : Moment ε)
    (h : admitted c identity = true → makeSession (π := π) y identity tcpServerSide io
      (c.storage.entry y identity.id) = none) :
    (handleNewConnection y m identity tcpServerSide io c).next = c.next := by
  unfold handleNewConnection
  by_cases ha : admitted c identity = true
  · have hnone := h ha
    unfold Storage.entry at hnone
    rw [ha, Bool.not_true, if_neg Bool.false_ne_true]
    dsimp only
    rw [hnone]
    rfl
  · rw [Bool.not_eq_true] at ha
    rw [ha, Bool.not_false, if_pos rfl]

/-- and one more with it. -/
theorem next_of_made {y : Yyjson} {identity : DeviceInfo} {tcpServerSide : Bool}
    {io : ConnectionIo} {c : KdeConnectClient φ π} (m : Moment ε) {s : DeviceSession π}
    (ha : admitted c identity = true)
    (h : makeSession y identity tcpServerSide io (c.storage.entry y identity.id) = some s) :
    (handleNewConnection y m identity tcpServerSide io c).next = c.next + 1 := by
  unfold Storage.entry at h
  unfold handleNewConnection
  rw [ha, Bool.not_true, if_neg Bool.false_ne_true]
  dsimp only
  rw [h]
  dsimp only
  rw [(sameCores_announce m identity io.showOnConnect _ _).next, (install_frame _ _).2.1]
  rfl

end Sessions

section Connections

variable [FileSystem φ] [PluginHost π ε] {write : PemWriter} {y : Yyjson} {identity : DeviceInfo}
  {tcpServerSide : Bool} {io : ConnectionIo} {c : KdeConnectClient φ π}

/-- Where the text comes back the thread goes on. -/
theorem connectionThread_isSome (m : Moment ε) {presented : Option (List UInt8)} {text : List UInt8}
    (htext : peerCertPem write presented = .ok text) :
    (connectionThread write y m identity tcpServerSide io presented c).isSome = true := by
  unfold connectionThread
  rw [htext]
  split <;> rfl

/-- Without a certificate the text is empty; the accepting side then makes no session. -/
theorem next_of_noCertificate (m : Moment ε)
    (h : tcpServerSide = true ∨ ¬ GetsThrough y identity io c) {c' : KdeConnectClient φ π}
    (hc' : connectionThread write y m identity tcpServerSide io none c = some c') :
    c'.next = c.next ∧ c'.sessions = c.sessions := by
  have hnone : ∀ certificate : Option String, certificate = some (ofAscii []) ∨
      ¬ (io.tls = true ∧ io.handshake = true) →
      admitted c identity = true → makeSession (π := π) y identity tcpServerSide
        { io with certificate := certificate } (c.storage.entry y identity.id) = none := by
    intro certificate hempty ha
    rw [← Option.not_isSome_iff_eq_none, makeSession_isSome]
    rintro ⟨⟨htls, hhandshake, hsent⟩, hrefused, hline⟩
    have hcertificate : certificate = some (ofAscii []) :=
      hempty.resolve_right fun hnot => hnot ⟨htls, hhandshake⟩
    subst hcertificate
    rcases h with rfl | hfails
    · exact absurd hrefused (by simp [certificateRefused, ConnectionIo.peerPem, ofAscii])
    · exact hfails ⟨ha, htls, hhandshake, hsent, hline⟩
  unfold connectionThread at hc'
  split at hc'
  · obtain rfl := Option.some.inj hc'
    exact ⟨next_of_dropped m (hnone _ (.inl rfl)), sessions_of_dropped m (hnone _ (.inl rfl))⟩
  · rename_i hreached
    obtain rfl := Option.some.inj hc'
    have hdropped : admitted c identity = true → makeSession (π := π) y identity tcpServerSide io
        (c.storage.entry y identity.id) = none := by
      intro ha
      refine hnone io.certificate (.inr fun hboth => hreached ?_) ha
      rw [ha, hboth.1, hboth.2]
      rfl
    exact ⟨next_of_dropped m hdropped, sessions_of_dropped m hdropped⟩

/-- Dialled, a peer that gets through without a certificate has a session. -/
theorem next_of_dialled (write : PemWriter) (m : Moment ε) (h : GetsThrough y identity io c) :
    ∃ c', connectionThread write y m identity false io none c = some c' ∧ c'.next = c.next + 1 := by
  have hrefused := certificateRefused_dialled { io with certificate := some (ofAscii []) }
    (c.storage.entry y identity.id)
  have hmade : (makeSession (π := π) y identity false
      { io with certificate := some (ofAscii []) }
      (c.storage.entry y identity.id)).isSome = true :=
    makeSession_isSome.mpr ⟨⟨h.tls, h.handshake, h.sent⟩, hrefused, h.line⟩
  obtain ⟨s, hs⟩ := Option.isSome_iff_exists.mp hmade
  refine ⟨handleNewConnection y m identity false { io with certificate := some (ofAscii []) } c,
    ?_, next_of_made m h.admitted hs⟩
  unfold connectionThread
  rw [h.admitted, h.tls, h.handshake]
  rfl

/-- A peer's certificate does no harm exactly when it is short enough, and its
absence exactly when the connection was accepted or fails by itself. -/
theorem harmless_iff (hwrite : write.Lawful) (y : Yyjson) (m : Moment ε) (identity : DeviceInfo)
    (tcpServerSide : Bool) (io : ConnectionIo) (presented : Option (List UInt8))
    (c : KdeConnectClient φ π) :
    Harmless write y m identity tcpServerSide io presented c ↔
      (∀ der, presented = some der → der.length ≤ 2982) ∧
        (presented = none → tcpServerSide = true ∨ ¬ GetsThrough y identity io c) := by
  cases presented with
  | none =>
    constructor
    · intro h
      refine ⟨fun der hder => (by cases hder), fun _ => ?_⟩
      by_contra hnot
      rw [not_or, not_not, Bool.not_eq_true] at hnot
      obtain ⟨rfl, hthrough⟩ := hnot
      obtain ⟨c', hc', hnext⟩ := next_of_dialled write m hthrough
      have hsame := (h.aborts rfl c' hc').1
      omega
    · rintro ⟨-, hcondition⟩
      refine ⟨fun der hder => (by cases hder), connectionThread_isSome m rfl, ?_⟩
      exact fun _ c' hc' => next_of_noCertificate m (hcondition rfl) hc'
  | some der =>
    have hpem := peerCertPem_some hwrite der
    constructor
    · intro h
      refine ⟨?_, fun hnone => (by cases hnone)⟩
      rintro other hother
      obtain rfl := Option.some.inj hother
      by_contra hlong
      rw [if_neg hlong] at hpem
      rcases h.text der rfl with htext | htext
      · rw [hpem] at htext
        cases htext
      · rw [hpem] at htext
        cases htext
    · rintro ⟨hshort, -⟩
      rw [if_pos (hshort der rfl)] at hpem
      refine ⟨?_, connectionThread_isSome m hpem, ?_⟩
      · rintro other hother
        obtain rfl := Option.some.inj hother
        exact .inl hpem
      · intro hempty
        rw [hpem] at hempty
        exact absurd (Except.ok.inj hempty) (certificateText_ne_nil der)

end Connections

/-- A DER sequence of 2983 bytes in all. -/
def longCertificate : List UInt8 := [48, 130, 11, 163] ++ List.replicate 2979 0

/-- A peer that presents it ends the process. -/
theorem notHarmless_long :
    ¬ ∀ (identity : DeviceInfo) (tcpServerSide : Bool) (io : ConnectionIo)
        (presented : Option (List UInt8)) (c : KdeConnectClient MemoryFiles Empty),
      Harmless PemWriter.reference Yyjson.reference (atSecond 0) identity tcpServerSide io presented
        c := by
  intro h
  have hsurvives := (h phone true impostor (some longCertificate) phoneStored).survives
  have hlength : longCertificate.length = 2983 := by
    rw [longCertificate, List.length_append, List.length_replicate]
    rfl
  have hpem : peerCertPem PemWriter.reference (some longCertificate) = .error .logicError := by
    rw [peerCertPem_some PemWriter.reference_lawful, if_neg]
    omega
  have hadmitted : admitted phoneStored phone = true := by decide +kernel
  unfold connectionThread at hsurvives
  rw [hadmitted, hpem] at hsurvives
  exact absurd hsurvives (by decide)

/-- The phone with a short certificate. -/
theorem harmless_phone :
    Harmless PemWriter.reference Yyjson.reference (atSecond 0) phone true impostor
      (some [48, 3, 2, 1, 0]) phoneStored := by
  refine (harmless_iff PemWriter.reference_lawful Yyjson.reference (atSecond 0) phone true impostor
    (some [48, 3, 2, 1, 0]) phoneStored).mpr ⟨?_, nofun⟩
  rintro der hder
  rw [← Option.some.inj hder]
  decide

end KdeConnectNx.PeerCertificate
