import KdeConnectNx.LineReader
import KdeConnectNx.Waiting

/-!
# Handshake threads and a peer that falls silent

A time-out of the socket reaches the TLS library as a want-read, and both loops
over the library take a want-read for a reason to call again. So a thread that
sets up a connection returns if the bytes of its peer get it to the end of the
handshake and of the identity line, and otherwise never.
-/

namespace KdeConnectNx.SilentPeer

open LineReader Waiting Runs

/-- Result of an `mbedtls_ssl_handshake`. -/
inductive Handshake where
  | done
  | wantRead
  | failed
  deriving DecidableEq, Repr

/-- Result of a one-byte `mbedtls_ssl_read`. As the send callback reports no
want-write, none comes up. -/
inductive TlsRead (σ : Type) where
  | byte (b : UInt8) (s : σ)
  | wantRead
  | error

/-- The TLS library on one connection, fed with the bytes of the socket. A call
uses what was fed and asks for more through `socket_recv`; when that times out
it reports a want-read, its state as it was. -/
structure Tls (σ : Type) where
  feed : UInt8 → σ → σ
  handshake : σ → Handshake
  read : σ → TlsRead σ

variable {σ : Type}

/-- `perform_tls_handshake`: a want-read starts the loop again. -/
def performTlsHandshake (tls : Tls σ) (s : σ) : Poll σ UInt8 (Bool × σ) :=
  match tls.handshake s with
  | .done => .returned (true, s)
  | .wantRead => .needs fun b => tls.feed b s
  | .failed => .returned (false, s)

/-- `read_line_tls`, with the line read so far. -/
def readLine (tls : Tls σ) (maxBytes : Nat) (at_ : List UInt8 × σ) :
    Poll (List UInt8 × σ) UInt8 (Option (List UInt8)) :=
  if at_.1.length < maxBytes then
    match tls.read at_.2 with
    | .byte b s => if b = 10 then .returned (some at_.1) else .moves (at_.1 ++ [b], s)
    | .wantRead => .needs fun b => (at_.1, tls.feed b at_.2)
    | .error => .returned none
  else .returned none

/-- Where a thread stands in `handle_new_connection`. -/
inductive Phase (σ : Type) where
  | handshake (s : σ)
  /-- In the line of the secure identity. -/
  | line (at_ : List UInt8 × σ)
  /-- Behind it, with the line if there is one. -/
  | ended (line : Option (List UInt8))

/-- `handle_new_connection` from the handshake to the identity line. The checks
of the certificate and the sending of the own identity in between come out as
`proceeds` says. -/
def handleNewConnection (tls : Tls σ) (proceeds : σ → Bool) :
    Phase σ → Poll (Phase σ) UInt8 (Option (List UInt8))
  | .handshake s => (performTlsHandshake tls s).andThen .handshake fun r =>
      if r.1 && proceeds r.2 then .line ([], r.2) else .ended none
  | .line at_ => (readLine tls kMaxPacketSize at_).andThen .line .ended
  | .ended line => .returned line

/-! ## What the bytes of the peer amount to -/

/-- The library after these bytes. -/
def fed (tls : Tls σ) (s : σ) (bytes : List UInt8) : σ := bytes.foldl (fun s b => tls.feed b s) s

/-- Out of these bytes of the socket the library decrypts these, and comes to an
error behind them if `failed` is set. -/
inductive Decrypts (tls : Tls σ) : σ → List UInt8 → List UInt8 → Bool → Prop where
  | nothing (s : σ) (bytes : List UInt8) : Decrypts tls s bytes [] false
  | byte {s s' : σ} {bytes text : List UInt8} {b : UInt8} {failed : Bool}
    (h : tls.read s = .byte b s') (hrest : Decrypts tls s' bytes text failed) :
    Decrypts tls s bytes (b :: text) failed
  | feed {s : σ} {bytes text : List UInt8} {b : UInt8} {failed : Bool}
    (h : tls.read s = .wantRead) (hrest : Decrypts tls (tls.feed b s) bytes text failed) :
    Decrypts tls s (b :: bytes) text failed
  | error {s : σ} {bytes : List UInt8} (h : tls.read s = .error) : Decrypts tls s bytes [] true

/-- The bytes contain the end of a line that has begun, or as much as a line may
have, or lead to an error. -/
def EndsLine (tls : Tls σ) (maxBytes : Nat) (out : List UInt8) (s : σ) (bytes : List UInt8) :
    Prop :=
  ∃ text failed, Decrypts tls s bytes text failed ∧
    (10 ∈ text ∨ maxBytes ≤ out.length + text.length ∨ failed = true)

/-- The first bytes end the handshake, and if it succeeds the others end the
line. -/
def Answers (tls : Tls σ) (proceeds : σ → Bool) (s : σ) (bytes : List UInt8) : Prop :=
  ∃ first rest, bytes = first ++ rest ∧
    (∀ short, short <+: first → short ≠ first → tls.handshake (fed tls s short) = .wantRead) ∧
    (tls.handshake (fed tls s first) = .failed ∨
      tls.handshake (fed tls s first) = .done ∧
        (proceeds (fed tls s first) = false ∨
          EndsLine tls kMaxPacketSize [] (fed tls s first) rest))

section Loops

variable {tls : Tls σ}

theorem handshake_done {s : σ} (h : tls.handshake s = .done) :
    performTlsHandshake tls s = .returned (true, s) := by
  rw [performTlsHandshake, h]

theorem handshake_failed {s : σ} (h : tls.handshake s = .failed) :
    performTlsHandshake tls s = .returned (false, s) := by
  rw [performTlsHandshake, h]

theorem handshake_waits {s : σ} (h : tls.handshake s = .wantRead) :
    performTlsHandshake tls s = .needs fun b => tls.feed b s := by
  rw [performTlsHandshake, h]

/-- What comes out of the handshake, and after which bytes. -/
theorem yields_handshake_iff {s : σ} {bytes rest : List UInt8} {r : Bool × σ} :
    Yields (performTlsHandshake tls) s bytes r rest ↔
      ∃ first, bytes = first ++ rest ∧
        (∀ short, short <+: first → short ≠ first → tls.handshake (fed tls s short) = .wantRead) ∧
        (tls.handshake (fed tls s first) = .failed ∧ r = (false, fed tls s first) ∨
          tls.handshake (fed tls s first) = .done ∧ r = (true, fed tls s first)) := by
  constructor
  · intro h
    induction h with
    | @returned s result items hpoll =>
      refine ⟨[], rfl, ?_, ?_⟩
      · intro short hshort hne
        exact absurd (List.prefix_nil.mp hshort) hne
      · cases hstate : tls.handshake s with
        | done =>
          rw [handshake_done hstate] at hpoll
          exact .inr ⟨hstate, (Poll.returned.inj hpoll).symm⟩
        | failed =>
          rw [handshake_failed hstate] at hpoll
          exact .inl ⟨hstate, (Poll.returned.inj hpoll).symm⟩
        | wantRead =>
          rw [handshake_waits hstate] at hpoll
          cases hpoll
    | moves hpoll =>
      unfold performTlsHandshake at hpoll
      split at hpoll <;> cases hpoll
    | @takes s next b items rest result hpoll hnext ih =>
      unfold performTlsHandshake at hpoll
      split at hpoll
      · cases hpoll
      · rename_i hwant
        cases hpoll
        obtain ⟨first, rfl, hshort, hresult⟩ := ih
        refine ⟨b :: first, rfl, ?_, hresult⟩
        intro short hprefix hne
        cases short with
        | nil => exact hwant
        | cons c short =>
          obtain ⟨rfl, htail⟩ := List.cons_prefix_cons.mp hprefix
          exact hshort short htail fun heq => hne (by rw [heq])
      · cases hpoll
  · rintro ⟨first, rfl, hshort, hresult⟩
    induction first generalizing s with
    | nil =>
      apply Yields.returned
      rcases hresult with ⟨hfailed, rfl⟩ | ⟨hdone, rfl⟩
      · exact handshake_failed hfailed
      · exact handshake_done hdone
    | cons b first ih =>
      have hwant : tls.handshake s = .wantRead := hshort [] List.nil_prefix (by simp)
      refine .takes (handshake_waits hwant) (ih ?_ hresult)
      intro short hprefix hne
      exact hshort (b :: short) (List.cons_prefix_cons.mpr ⟨rfl, hprefix⟩)
        fun heq => hne (List.cons.inj heq).2

/-- Where the library has ended the handshake, the loop is through. -/
theorem finishes_ended {s : σ} (bytes : List UInt8) (h : tls.handshake s ≠ .wantRead) :
    Finishes (performTlsHandshake tls) s bytes := by
  cases hstate : tls.handshake s with
  | done => exact .returned (handshake_done hstate)
  | failed => exact .returned (handshake_failed hstate)
  | wantRead => exact absurd hstate h

/-- The handshake comes to an end exactly if some first bytes end it. -/
theorem finishes_handshake_iff {s : σ} {bytes : List UInt8} :
    Finishes (performTlsHandshake tls) s bytes ↔
      ∃ first, first <+: bytes ∧ tls.handshake (fed tls s first) ≠ .wantRead := by
  constructor
  · intro h
    obtain ⟨r, rest, hyields⟩ := finishes_iff_yields.mp h
    obtain ⟨first, rfl, -, hresult⟩ := yields_handshake_iff.mp hyields
    refine ⟨first, List.prefix_append first rest, ?_⟩
    rcases hresult with ⟨hfailed, -⟩ | ⟨hdone, -⟩
    · simp [hfailed]
    · simp [hdone]
  · rintro ⟨first, hprefix, hends⟩
    induction bytes generalizing s first with
    | nil =>
      rw [List.prefix_nil.mp hprefix] at hends
      exact finishes_ended [] hends
    | cons b bytes ih =>
      by_cases hwant : tls.handshake s = .wantRead
      · cases first with
        | nil => exact absurd hwant hends
        | cons c first =>
          obtain ⟨rfl, htail⟩ := List.cons_prefix_cons.mp hprefix
          exact .takes (handshake_waits hwant) (ih first htail hends)
      · exact finishes_ended _ hwant

section Line

variable {maxBytes : Nat} {out : List UInt8} {s s' : σ} {bytes : List UInt8} {b : UInt8}

theorem readLine_full (h : ¬ out.length < maxBytes) :
    readLine tls maxBytes (out, s) = .returned none := by
  rw [readLine, if_neg h]

theorem readLine_newline (h : out.length < maxBytes) (hread : tls.read s = .byte 10 s') :
    readLine tls maxBytes (out, s) = .returned (some out) := by
  simp only [readLine, h, hread, if_true]

theorem readLine_byte (h : out.length < maxBytes) (hread : tls.read s = .byte b s') (hb : b ≠ 10) :
    readLine tls maxBytes (out, s) = .moves (out ++ [b], s') := by
  simp only [readLine, h, hread, hb, if_true, if_false]

theorem readLine_waits (h : out.length < maxBytes) (hread : tls.read s = .wantRead) :
    readLine tls maxBytes (out, s) = .needs fun b => (out, tls.feed b s) := by
  simp only [readLine, h, hread, if_true]

theorem readLine_error (hread : tls.read s = .error) :
    readLine tls maxBytes (out, s) = .returned none := by
  unfold readLine
  dsimp only
  rw [hread]
  split <;> rfl

/-- A byte that is not the newline makes the line longer. -/
theorem endsLine_byte (hread : tls.read s = .byte b s')
    (h : EndsLine tls maxBytes (out ++ [b]) s' bytes) : EndsLine tls maxBytes out s bytes := by
  obtain ⟨text, failed, hdecrypts, hends⟩ := h
  refine ⟨b :: text, failed, .byte hread hdecrypts, ?_⟩
  rw [List.length_append, List.length_singleton] at hends
  rw [List.length_cons, List.mem_cons]
  rcases hends with hnewline | hlimit | hfailed
  · exact .inl (.inr hnewline)
  · exact .inr (.inl (by omega))
  · exact .inr (.inr hfailed)

/-- Where the loop returns at once, no byte of the socket is needed to end the
line. -/
theorem endsLine_returned {result : Option (List UInt8)}
    (h : readLine tls maxBytes (out, s) = .returned result) :
    EndsLine tls maxBytes out s bytes := by
  by_cases hroom : out.length < maxBytes
  · cases hread : tls.read s with
    | byte b s' =>
      by_cases hb : b = 10
      · exact ⟨[b], false, .byte hread (.nothing _ _), .inl (by simp [hb])⟩
      · rw [readLine_byte hroom hread hb] at h
        cases h
    | wantRead =>
      rw [readLine_waits hroom hread] at h
      cases h
    | error => exact ⟨[], true, .error hread, .inr (.inr rfl)⟩
  · exact ⟨[], false, .nothing _ _, .inr (.inl (by rw [List.length_nil]; omega))⟩

/-- A loop that returns has got the end of its line. -/
theorem endsLine_of_finishes (h : Finishes (readLine tls maxBytes) (out, s) bytes) :
    EndsLine tls maxBytes out s bytes := by
  generalize hat : (out, s) = place at h
  induction h generalizing out s with
  | returned hpoll =>
    subst hat
    exact endsLine_returned hpoll
  | moves hpoll hnext ih =>
    subst hat
    unfold readLine at hpoll
    dsimp only at hpoll
    split at hpoll
    · split at hpoll
      · rename_i b s' hread
        split at hpoll
        · cases hpoll
        · exact endsLine_byte hread (ih (Poll.moves.inj hpoll))
      · cases hpoll
      · cases hpoll
    · cases hpoll
  | takes hpoll hnext ih =>
    subst hat
    unfold readLine at hpoll
    dsimp only at hpoll
    split at hpoll
    · split at hpoll
      · split at hpoll <;> cases hpoll
      · rename_i hread
        cases Poll.needs.inj hpoll
        obtain ⟨text, failed, hdecrypts, hends⟩ := ih rfl
        exact ⟨text, failed, .feed hread hdecrypts, hends⟩
      · cases hpoll
    · cases hpoll

/-- A loop that gets the end of its line returns. The induction is on what the
library decrypts. -/
theorem finishes_of_endsLine (h : EndsLine tls maxBytes out s bytes) :
    Finishes (readLine tls maxBytes) (out, s) bytes := by
  obtain ⟨text, failed, hdecrypts, hends⟩ := h
  induction hdecrypts generalizing out with
  | nothing s bytes =>
    rcases hends with hnewline | hlimit | hfailed
    · cases hnewline
    · rw [List.length_nil] at hlimit
      exact .returned (readLine_full (by omega))
    · cases hfailed
  | @byte s s' bytes text b failed hread hrest ih =>
    by_cases hroom : out.length < maxBytes
    · by_cases hb : b = 10
      · subst hb
        exact .returned (readLine_newline hroom hread)
      · refine .moves (readLine_byte hroom hread hb) (ih ?_)
        rw [List.mem_cons, List.length_cons] at hends
        rw [List.length_append, List.length_singleton]
        rcases hends with (hnewline | hnewline) | hlimit | hfailed
        · exact absurd hnewline.symm hb
        · exact .inl hnewline
        · exact .inr (.inl (by omega))
        · exact .inr (.inr hfailed)
    · exact .returned (readLine_full hroom)
  | @feed s bytes text b failed hread hrest ih =>
    by_cases hroom : out.length < maxBytes
    · exact .takes (readLine_waits hroom hread) (ih hends)
    · exact .returned (readLine_full hroom)
  | @error s bytes hread => exact .returned (readLine_error hread)

/-- The line comes to an end exactly if the bytes end it. -/
theorem finishes_line_iff :
    Finishes (readLine tls maxBytes) (out, s) bytes ↔ EndsLine tls maxBytes out s bytes :=
  ⟨endsLine_of_finishes, finishes_of_endsLine⟩

end Line

/-- The connection comes to an end exactly if the peer answers. -/
theorem finishes_connection_iff {proceeds : σ → Bool} {s : σ} {bytes : List UInt8} :
    Finishes (handleNewConnection tls proceeds) (.handshake s) bytes ↔
      Answers tls proceeds s bytes := by
  have hended : ∀ line rest, Finishes (handleNewConnection tls proceeds) (.ended line) rest :=
    fun line rest => .returned rfl
  have hline : ∀ place rest, Finishes (handleNewConnection tls proceeds) (.line place) rest ↔
      EndsLine tls kMaxPacketSize place.1 place.2 rest := by
    intro place rest
    have hreads : ∀ place, handleNewConnection tls proceeds (.line place) =
        (readLine tls kMaxPacketSize place).andThen .line .ended := fun _ => rfl
    rw [finishes_andThen hreads, ← finishes_line_iff, finishes_iff_yields]
    simp only [hended, and_true]
  have hshakes : ∀ s, handleNewConnection tls proceeds (.handshake s) =
      (performTlsHandshake tls s).andThen .handshake fun r =>
        if r.1 && proceeds r.2 then .line ([], r.2) else .ended none := fun _ => rfl
  rw [finishes_andThen hshakes]
  constructor
  · rintro ⟨r, rest, hyields, hafter⟩
    obtain ⟨first, hsplit, hshort, hresult⟩ := yields_handshake_iff.mp hyields
    refine ⟨first, rest, hsplit, hshort, ?_⟩
    rcases hresult with ⟨hfailed, -⟩ | ⟨hdone, rfl⟩
    · exact .inl hfailed
    · right
      refine ⟨hdone, ?_⟩
      cases hproceeds : proceeds (fed tls s first) with
      | false => exact .inl rfl
      | true =>
        right
        simp only [hproceeds, Bool.and_self, if_true] at hafter
        exact (hline _ _).mp hafter
  · rintro ⟨first, rest, hsplit, hshort, hfailed | ⟨hdone, hends⟩⟩
    · exact ⟨_, rest, yields_handshake_iff.mpr ⟨first, hsplit, hshort, .inl ⟨hfailed, rfl⟩⟩,
        hended _ _⟩
    · refine ⟨_, rest, yields_handshake_iff.mpr ⟨first, hsplit, hshort, .inr ⟨hdone, rfl⟩⟩, ?_⟩
      cases hproceeds : proceeds (fed tls s first) with
      | false =>
        simp only [Bool.and_false, Bool.false_eq_true, if_false]
        exact hended _ _
      | true =>
        simp only [Bool.and_self, if_true]
        exact (hline _ _).mpr (hends.resolve_left (by simp [hproceeds]))

end Loops

/-! ## Silence -/

/-- A thread that sets up a connection: the library as it begins, what its
checks say, and when the bytes come. -/
structure HandshakeThread (σ : Type) where
  start : σ
  proceeds : σ → Bool
  events : List (Event UInt8)

/-- The loop has returned after so many calls in silence. -/
def ReturnsIn {α β : Type} (poll : α → Poll α UInt8 β) (state : α) (events : List (Event UInt8))
    (n : Nat) : Prop := Returned poll (run (step poll) { state := state } (events ++ silence n))

/-- Once the peer is silent each of the loops returns exactly if the bytes
ended it, the connection exactly if they answer, and whoever joins the pending
threads is through exactly if all their peers have answered. -/
theorem returnsIn_iff (tls : Tls σ) (proceeds : σ → Bool) (s : σ) (out : List UInt8)
    (maxBytes : Nat) (events : List (Event UInt8)) (pending : List (HandshakeThread σ)) :
    ((∃ n, ReturnsIn (performTlsHandshake tls) s events n) ↔
      ∃ first, first <+: sent events ∧ tls.handshake (fed tls s first) ≠ .wantRead) ∧
    ((∃ n, ReturnsIn (readLine tls maxBytes) (out, s) events n) ↔
      EndsLine tls maxBytes out s (sent events)) ∧
    ((∃ n, ReturnsIn (handleNewConnection tls proceeds) (.handshake s) events n) ↔
      Answers tls proceeds s (sent events)) ∧
    ((∃ n, ∀ t ∈ pending,
        ReturnsIn (handleNewConnection tls t.proceeds) (.handshake t.start) t.events n) ↔
      ∀ t ∈ pending, Answers tls t.proceeds t.start (sent t.events)) := by
  refine ⟨?_, ?_, ?_, ?_⟩
  · exact (returned_iff _ _ _).trans finishes_handshake_iff
  · exact (returned_iff _ _ _).trans finishes_line_iff
  · exact (returned_iff _ _ _).trans finishes_connection_iff
  · refine (all_returned_iff (fun t : HandshakeThread σ => handleNewConnection tls t.proceeds)
      (fun t => .handshake t.start) (fun t => t.events) pending).trans ?_
    simp only [finishes_connection_iff]

/-- A server that waits for the five bytes of a record header; its state counts
the bytes it was fed. -/
def waitingServer : Tls Nat where
  feed := fun _ n => n + 1
  handshake := fun n => if n < 5 then .wantRead else .failed
  read := fun _ => .wantRead

/-- A peer that connects and sends nothing holds the thread for ever. -/
theorem hangs_waitingServer :
    ¬ ∀ (tls : Tls Nat) (proceeds : Nat → Bool) (events : List (Event UInt8)),
      ∃ n, ReturnsIn (handleNewConnection tls proceeds) (.handshake 0) events n := by
  intro h
  have hfinishes := (returned_iff _ _ _).mp (h waitingServer (fun _ => true) [])
  obtain ⟨first, rest, hsplit, -, hends⟩ := finishes_connection_iff.mp hfinishes
  have hnone : first = [] := (List.append_eq_nil_iff.mp hsplit.symm).1
  rw [hnone] at hends
  rcases hends with hfailed | ⟨hdone, -⟩
  · cases hfailed
  · cases hdone

end KdeConnectNx.SilentPeer
