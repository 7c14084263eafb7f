import Mathlib.Data.List.Basic
import Mathlib.Data.List.Count
import KdeConnectNx.LineReader
import KdeConnectNx.Runs

/-!
# The receiving side of a connection: kernel buffer, record and line

The peer's bytes arrive as TLS records. A read serves the rest of the record
that is already decrypted before it takes the next one from the kernel, while
`select` sees the kernel buffer only. The machine below runs the identity read
of `handle_new_connection` and then `io_loop`, one read or one `select` a step.
-/

namespace KdeConnectNx.RecordStream

open PacketBody PacketFormat LineReader Runs

/-- Where the receiving thread stands. -/
inductive Phase where
  /-- In `handle_new_connection`, reading the identity line. -/
  | identity (out : List UInt8)
  /-- At the top of the loop, before its `select`. -/
  | selecting
  /-- In `read_line_tls`, after `select` saw a record. -/
  | reading (out : List UInt8)
  | closed
  deriving DecidableEq, Repr

/-- The buffers of one connection and the lines read from it. -/
structure Conn where
  /-- Records not yet taken from the kernel, oldest first. -/
  kernel : List (List UInt8) := []
  /-- What is left of the record decrypted last. -/
  decrypted : List UInt8 := []
  phase : Phase := .identity []
  /-- The accepted identity line, empty before it. -/
  identityLine : List UInt8 := []
  /-- Lines given to `handle_packet`, in order. -/
  handled : List (List UInt8) := []
  deriving DecidableEq, Repr

/-- What moves the machine. -/
inductive Event where
  /-- A record is put into the kernel buffer. -/
  | arrives (record : List UInt8)
  /-- The thread makes one read or one `select`. -/
  | io
  /-- The client stops, the session is disconnected, or a call fails. -/
  | abort
  deriving DecidableEq, Repr

/-- A one-byte `mbedtls_ssl_read`; an empty record gives no byte. -/
def tlsRead (c : Conn) : SslRead × Conn :=
  match c.decrypted, c.kernel with
  | b :: rest, _ => (.byte b, { c with decrypted := rest })
  | [], [] => (.wantRead, c)
  | [], [] :: more => (.wantRead, { c with kernel := more })
  | [], (b :: rest) :: more => (.byte b, { c with kernel := more, decrypted := rest })

/-- One turn of the loop in `read_line_tls`. -/
def readStep (out : List UInt8) (c : Conn) : LineProgress × Conn :=
  if out.length < kMaxPacketSize then (lineStep out (tlsRead c).1, (tlsRead c).2)
  else (.failed, c)

/-- One step; `identity` is the announcement the connection was made for. -/
def step (y : Yyjson) (identity : DeviceInfo) (c : Conn) : Event → Conn
  | .arrives record => { c with kernel := c.kernel ++ [record] }
  | .abort => { c with phase := .closed }
  | .io =>
    match c.phase with
    | .identity out =>
      match readStep out c with
      | (.more out', c') => { c' with phase := .identity out' }
      | (.line text, c') =>
        if (secureInfo y identity text).isSome then
          { c' with phase := .selecting, identityLine := text ++ [10] }
        else { c' with phase := .closed }
      | (.failed, c') => { c' with phase := .closed }
    | .selecting => if c.kernel.isEmpty then c else { c with phase := .reading [] }
    | .reading out =>
      match readStep out c with
      | (.more out', c') => { c' with phase := .reading out' }
      | (.line text, c') => { c' with phase := .selecting, handled := c'.handled ++ [text] }
      | (.failed, c') => { c' with phase := .closed }
    | .closed => c

/-- The state after the handshake. -/
def afterHandshake : Conn := {}

/-- When `select` times out on an empty kernel buffer, no complete line waits
in the decrypted bytes. -/
def NothingLeftBehind (c : Conn) : Prop :=
  c.phase = .selecting → c.kernel = [] → (10 : UInt8) ∉ c.decrypted

instance (c : Conn) : Decidable (NothingLeftBehind c) := inferInstanceAs (Decidable (_ → _ → _))

/-- A record in which at most one line ends. -/
def OneLine (record : List UInt8) : Prop := record.count 10 ≤ 1

/-- Records that end at most one line leave none behind: every record still
held ends at most one, and between two reads the decrypted one ends none. -/
structure Inv (c : Conn) : Prop where
  kernel : ∀ record ∈ c.kernel, OneLine record
  decrypted : OneLine c.decrypted
  between : c.phase = .selecting → (10 : UInt8) ∉ c.decrypted

/-- A read takes one byte off what is held, or none at all. -/
theorem tlsRead_cases {c : Conn} (hk : ∀ record ∈ c.kernel, OneLine record)
    (hd : OneLine c.decrypted) :
    (∀ record ∈ (tlsRead c).2.kernel, OneLine record) ∧ OneLine (tlsRead c).2.decrypted ∧
      ((tlsRead c).1 = .byte 10 → (10 : UInt8) ∉ (tlsRead c).2.decrypted) := by
  have hrest : ∀ (b : UInt8) (rest : List UInt8), OneLine (b :: rest) →
      OneLine rest ∧ (SslRead.byte b = .byte 10 → (10 : UInt8) ∉ rest) := by
    intro b rest h
    have hle : rest.count 10 ≤ (b :: rest).count 10 := List.count_le_count_cons
    refine ⟨Nat.le_trans hle h, ?_⟩
    intro hb
    cases hb
    unfold OneLine at h
    rw [List.count_cons_self] at h
    have hzero : rest.count 10 = 0 := by omega
    exact List.count_eq_zero.mp hzero
  obtain ⟨kernel, decrypted, phase, identityLine, handled⟩ := c
  cases decrypted with
  | cons b rest =>
    obtain ⟨hone, hnone⟩ := hrest b rest hd
    exact ⟨hk, hone, hnone⟩
  | nil =>
    cases kernel with
    | nil => exact ⟨hk, hd, fun h => by cases h⟩
    | cons record more =>
      have hmore : ∀ r ∈ more, OneLine r := fun r hr => hk r (List.mem_cons_of_mem _ hr)
      have hrecord := hk record List.mem_cons_self
      cases record with
      | nil => exact ⟨hmore, hd, fun h => by cases h⟩
      | cons b rest =>
        obtain ⟨hone, hnone⟩ := hrest b rest hrecord
        exact ⟨hmore, hone, hnone⟩

/-- Only a newline byte ends a line. -/
theorem lineStep_line {out text : List UInt8} {r : SslRead} (h : lineStep out r = .line text) :
    r = .byte 10 ∧ text = out := by
  cases r with
  | byte b =>
    simp only [lineStep] at h
    split at h
    · rename_i hb
      cases h
      exact ⟨congrArg SslRead.byte hb, rfl⟩
    · cases h
  | wantRead => cases h
  | wantWrite => cases h
  | error => cases h

/-- One turn of the line loop keeps the held records, and a line that ends
leaves no other line end in the record. -/
theorem readStep_keeps {c : Conn} (h : Inv c) (out : List UInt8) :
    (∀ record ∈ (readStep out c).2.kernel, OneLine record) ∧
      OneLine (readStep out c).2.decrypted ∧
      ∀ text, (readStep out c).1 = .line text → (10 : UInt8) ∉ (readStep out c).2.decrypted := by
  obtain ⟨hkernel, hdecrypted, hnone⟩ := tlsRead_cases h.kernel h.decrypted
  unfold readStep
  split
  · refine ⟨hkernel, hdecrypted, ?_⟩
    intro text htext
    exact hnone (lineStep_line htext).1
  · refine ⟨h.kernel, h.decrypted, ?_⟩
    intro text htext
    cases htext

/-- What one read or `select` can do: nothing, see a record, take in part of a
line, finish a line, or close the connection. -/
theorem io_cases (y : Yyjson) (identity : DeviceInfo) (c : Conn) :
    step y identity c .io = c ∨
    (c.phase = .selecting ∧ step y identity c .io = { c with phase := .reading [] }) ∨
    (∃ out out' c', readStep out c = (.more out', c') ∧
      ((c.phase = .identity out ∧ step y identity c .io = { c' with phase := .identity out' }) ∨
        (c.phase = .reading out ∧ step y identity c .io = { c' with phase := .reading out' }))) ∨
    (∃ out text c', readStep out c = (.line text, c') ∧
      ((c.phase = .identity out ∧ step y identity c .io =
          { c' with phase := .selecting, identityLine := text ++ [10] }) ∨
        (c.phase = .reading out ∧ step y identity c .io =
          { c' with phase := .selecting, handled := c'.handled ++ [text] }))) ∨
    (∃ out, step y identity c .io = { (readStep out c).2 with phase := .closed }) := by
  cases hphase : c.phase with
  | closed =>
    left
    simp only [step, hphase]
  | selecting =>
    by_cases hkernel : c.kernel.isEmpty = true
    · left
      simp only [step, hphase, hkernel, if_true]
    · right; left
      simp only [step, hphase, hkernel, Bool.false_eq_true, if_false, and_self]
  | identity out =>
    right; right
    rcases hread : readStep out c with ⟨progress, c'⟩
    cases progress with
    | more out' =>
      left
      refine ⟨out, out', c', hread, .inl ⟨rfl, ?_⟩⟩
      simp only [step, hphase, hread]
    | line text =>
      by_cases haccept : (secureInfo y identity text).isSome = true
      · right; left
        refine ⟨out, text, c', hread, .inl ⟨rfl, ?_⟩⟩
        simp only [step, hphase, hread, haccept, if_true]
      · right; right
        refine ⟨out, ?_⟩
        simp only [step, hphase, hread, haccept, Bool.false_eq_true, if_false]
    | failed =>
      right; right
      refine ⟨out, ?_⟩
      simp only [step, hphase, hread]
  | reading out =>
    right; right
    rcases hread : readStep out c with ⟨progress, c'⟩
    cases progress with
    | more out' =>
      left
      refine ⟨out, out', c', hread, .inr ⟨rfl, ?_⟩⟩
      simp only [step, hphase, hread]
    | line text =>
      right; left
      refine ⟨out, text, c', hread, .inr ⟨rfl, ?_⟩⟩
      simp only [step, hphase, hread]
    | failed =>
      right; right
      refine ⟨out, ?_⟩
      simp only [step, hphase, hread]

/-- Every step keeps the invariant, as long as the record that arrives ends at
most one line. -/
theorem inv_step {y : Yyjson} {identity : DeviceInfo} {c : Conn} {e : Event} (h : Inv c)
    (he : ∀ record, e = .arrives record → OneLine record) : Inv (step y identity c e) := by
  cases e with
  | arrives record =>
    refine ⟨?_, h.decrypted, h.between⟩
    intro r hr
    rcases List.mem_append.mp hr with hold | hnew
    · exact h.kernel r hold
    · rw [List.mem_singleton.mp hnew]
      exact he record rfl
  | abort => exact ⟨h.kernel, h.decrypted, fun hp => by cases hp⟩
  | io =>
    rcases io_cases y identity c with hsame | ⟨-, hselect⟩ | ⟨out, out', c', hread, hmore⟩ |
      ⟨out, text, c', hread, hline⟩ | ⟨out, hclosed⟩
    · rw [hsame]
      exact h
    · rw [hselect]
      exact ⟨h.kernel, h.decrypted, fun hp => by cases hp⟩
    · obtain ⟨hkernel, hdecrypted, -⟩ := readStep_keeps h out
      rw [hread] at hkernel hdecrypted
      rcases hmore with ⟨-, hstep⟩ | ⟨-, hstep⟩ <;> rw [hstep] <;>
        exact ⟨hkernel, hdecrypted, fun hp => by cases hp⟩
    · obtain ⟨hkernel, hdecrypted, hnone⟩ := readStep_keeps h out
      rw [hread] at hkernel hdecrypted hnone
      rcases hline with ⟨-, hstep⟩ | ⟨-, hstep⟩ <;> rw [hstep] <;>
        exact ⟨hkernel, hdecrypted, fun _ => hnone text rfl⟩
    · obtain ⟨hkernel, hdecrypted, -⟩ := readStep_keeps h out
      rw [hclosed]
      exact ⟨hkernel, hdecrypted, fun hp => by cases hp⟩

theorem inv_afterHandshake : Inv afterHandshake :=
  ⟨fun _ h => absurd h List.not_mem_nil, Nat.zero_le 1, fun h => by cases h⟩

/-- The part of a line a phase holds. -/
def Phase.part : Phase → List UInt8
  | .identity out => out
  | .reading out => out
  | .selecting => []
  | .closed => []

/-- Everything the connection has taken in, in the order it came. -/
def Conn.taken (c : Conn) : List UInt8 :=
  c.identityLine ++ (c.handled.flatMap (· ++ [10]) ++
    (c.phase.part ++ (c.decrypted ++ c.kernel.flatten)))

/-- The bytes an event brings. -/
def Event.bytes : Event → List UInt8
  | .arrives record => record
  | _ => []

/-- While the connection is open its bytes are accounted for: none before the
identity line has been accepted belongs to a handled line. -/
structure Accounts (c : Conn) (arrived : List UInt8) : Prop where
  taken : c.phase ≠ .closed → c.taken = arrived
  first : ∀ out, c.phase = .identity out → c.identityLine = [] ∧ c.handled = []

/-- A turn of the line loop moves at most one byte, from what is held to the
line. -/
theorem readStep_taken (out : List UInt8) (c : Conn) :
    (∀ out', (readStep out c).1 = .more out' →
      out' ++ ((readStep out c).2.decrypted ++ (readStep out c).2.kernel.flatten) =
        out ++ (c.decrypted ++ c.kernel.flatten)) ∧
    (∀ text, (readStep out c).1 = .line text →
      text ++ [10] ++ ((readStep out c).2.decrypted ++ (readStep out c).2.kernel.flatten) =
        out ++ (c.decrypted ++ c.kernel.flatten)) ∧
    (readStep out c).2.identityLine = c.identityLine ∧ (readStep out c).2.handled = c.handled := by
  have hbyte : ∀ (b : UInt8) (rest : List UInt8),
      (∀ out', lineStep out (.byte b) = .more out' → out' ++ rest = out ++ b :: rest) ∧
      (∀ text, lineStep out (.byte b) = .line text → text ++ [10] ++ rest = out ++ b :: rest) := by
    intro b rest
    constructor
    · intro out' h
      simp only [lineStep] at h
      split at h
      · cases h
      · cases h
        rw [List.append_assoc]
        rfl
    · intro text h
      obtain ⟨hb, rfl⟩ := lineStep_line h
      cases hb
      rw [List.append_assoc]
      rfl
  obtain ⟨kernel, decrypted, phase, identityLine, handled⟩ := c
  unfold readStep
  split
  · cases decrypted with
    | cons b rest =>
      obtain ⟨hmore, hline⟩ := hbyte b (rest ++ kernel.flatten)
      exact ⟨hmore, hline, rfl, rfl⟩
    | nil =>
      cases kernel with
      | nil =>
        refine ⟨?_, ?_, rfl, rfl⟩
        · intro out' h
          cases h
          rfl
        · intro text h
          cases h
      | cons record more =>
        cases record with
        | nil =>
          refine ⟨?_, ?_, rfl, rfl⟩
          · intro out' h
            cases h
            rfl
          · intro text h
            cases h
        | cons b rest =>
          obtain ⟨hmore, hline⟩ := hbyte b (rest ++ more.flatten)
          exact ⟨hmore, hline, rfl, rfl⟩
  · refine ⟨?_, ?_, rfl, rfl⟩
    · intro out' h
      cases h
    · intro text h
      cases h

/-- Every step keeps the books, adding the bytes it brings. -/
theorem accounts_step {y : Yyjson} {identity : DeviceInfo} {c : Conn} {arrived : List UInt8}
    (h : Accounts c arrived) (e : Event) : Accounts (step y identity c e) (arrived ++ e.bytes) := by
  cases e with
  | arrives record =>
    refine ⟨?_, h.first⟩
    intro hopen
    have htaken := h.taken hopen
    rw [← htaken]
    simp only [step, Conn.taken, Event.bytes, List.flatten_append, List.flatten_singleton,
      List.append_assoc]
  | abort => exact ⟨fun hopen => absurd rfl hopen, fun out hp => by cases hp⟩
  | io =>
    have hnone : Event.io.bytes = [] := rfl
    rw [hnone, List.append_nil]
    rcases io_cases y identity c with hsame | ⟨hphase, hselect⟩ | ⟨out, out', c', hread, hmore⟩ |
      ⟨out, text, c', hread, hline⟩ | ⟨out, hclosed⟩
    · rw [hsame]
      exact h
    · rw [hselect]
      refine ⟨?_, fun out hp => by cases hp⟩
      intro _
      have htaken := h.taken (by rw [hphase]; exact Phase.noConfusion)
      rw [← htaken, Conn.taken, Conn.taken, hphase]
      rfl
    · obtain ⟨hbytes, -, hidentity, hhandled⟩ := readStep_taken out c
      rw [hread] at hbytes hidentity hhandled
      have hmoved := hbytes out' rfl
      dsimp only at hmoved hidentity hhandled
      rcases hmore with ⟨hphase, hstep⟩ | ⟨hphase, hstep⟩
      · have htaken := h.taken (by rw [hphase]; exact Phase.noConfusion)
        rw [hstep]
        refine ⟨?_, ?_⟩
        · intro _
          rw [← htaken, Conn.taken, Conn.taken, hphase, hidentity, hhandled]
          dsimp only [Phase.part]
          rw [hmoved]
        · intro _ _
          rw [hidentity, hhandled]
          exact h.first out hphase
      · have htaken := h.taken (by rw [hphase]; exact Phase.noConfusion)
        rw [hstep]
        refine ⟨?_, fun _ hp => by cases hp⟩
        intro _
        rw [← htaken, Conn.taken, Conn.taken, hphase, hidentity, hhandled]
        dsimp only [Phase.part]
        rw [hmoved]
    · obtain ⟨-, hbytes, hidentity, hhandled⟩ := readStep_taken out c
      rw [hread] at hbytes hidentity hhandled
      have hmoved := hbytes text rfl
      dsimp only at hmoved hidentity hhandled
      rcases hline with ⟨hphase, hstep⟩ | ⟨hphase, hstep⟩
      · have htaken := h.taken (by rw [hphase]; exact Phase.noConfusion)
        obtain ⟨hnoLine, hnoHandled⟩ := h.first out hphase
        rw [hstep]
        refine ⟨?_, fun _ hp => by cases hp⟩
        intro _
        rw [← htaken, Conn.taken, Conn.taken, hphase, hhandled, hnoLine, hnoHandled]
        dsimp only [Phase.part]
        rw [List.flatMap_nil, List.nil_append, List.nil_append, List.nil_append, List.nil_append,
          hmoved]
      · have htaken := h.taken (by rw [hphase]; exact Phase.noConfusion)
        rw [hstep]
        refine ⟨?_, fun _ hp => by cases hp⟩
        intro _
        rw [← htaken, Conn.taken, Conn.taken, hphase, hidentity, hhandled]
        dsimp only [Phase.part]
        rw [List.flatMap_append, List.flatMap_singleton, List.append_assoc, List.nil_append, hmoved]
    · rw [hclosed]
      exact ⟨fun hopen => absurd rfl hopen, fun _ hp => by cases hp⟩

/-- The bytes of a run, in order. -/
def arrivedBytes (events : List Event) : List UInt8 := events.flatMap Event.bytes

/-- After every run an open connection accounts for every byte that arrived. -/
theorem accounts_run (y : Yyjson) (identity : DeviceInfo) (events : List Event) :
    Accounts (run (step y identity) afterHandshake events) (arrivedBytes events) := by
  have hall : ∀ (rest : List Event) (c : Conn) (arrived : List UInt8), Accounts c arrived →
      Accounts (run (step y identity) c rest) (arrived ++ arrivedBytes rest) := by
    intro rest
    induction rest with
    | nil =>
      intro c arrived h
      rw [arrivedBytes, List.flatMap_nil, List.append_nil]
      exact h
    | cons e rest ih =>
      intro c arrived h
      have hstep : Accounts (step y identity c e) (arrived ++ e.bytes) := accounts_step h e
      have hrest := ih _ _ hstep
      rw [List.append_assoc] at hrest
      exact hrest
  exact hall events afterHandshake [] ⟨fun _ => rfl, fun _ _ => ⟨rfl, rfl⟩⟩

/-- With nothing left behind, the lines handled at a quiet `select` are all
the complete lines of what arrived after the identity line. -/
theorem handled_of_quiet {y : Yyjson} {identity : DeviceInfo} {events : List Event}
    (hphase : (run (step y identity) afterHandshake events).phase = .selecting)
    (hkernel : (run (step y identity) afterHandshake events).kernel = []) :
    arrivedBytes events = (run (step y identity) afterHandshake events).identityLine ++
      ((run (step y identity) afterHandshake events).handled.flatMap (· ++ [10]) ++
        (run (step y identity) afterHandshake events).decrypted) := by
  have htaken := (accounts_run y identity events).taken (by rw [hphase]; exact Phase.noConfusion)
  rw [← htaken, Conn.taken, hphase, hkernel]
  dsimp only [Phase.part]
  rw [List.flatten_nil, List.append_nil, List.nil_append]

/-- No packet is left behind while every record that arrives ends at most one
line: in every state of every such run in which `select` times out on an empty
kernel buffer, the decrypted bytes hold no complete line, and all that arrived
before them is the identity line and the lines that were handled. -/
theorem nothingLeftBehind_of_oneLine (y : Yyjson) (identity : DeviceInfo) (events : List Event)
    (h : ∀ record, .arrives record ∈ events → OneLine record) :
    Always (step y identity) NothingLeftBehind afterHandshake events ∧
      ∀ before, before <+: events →
        (run (step y identity) afterHandshake before).phase = .selecting →
        (run (step y identity) afterHandshake before).kernel = [] →
        arrivedBytes before = (run (step y identity) afterHandshake before).identityLine ++
          ((run (step y identity) afterHandshake before).handled.flatMap (· ++ [10]) ++
            (run (step y identity) afterHandshake before).decrypted) := by
  have hok : EveryStep (step y identity)
      (fun _ e => ∀ record, e = .arrives record → OneLine record) afterHandshake events := by
    rw [everyStep_iff]
    rintro before e after rfl record rfl
    exact h record (List.mem_append_right _ List.mem_cons_self)
  have hinv : Always (step y identity) Inv afterHandshake events :=
    always_of_everyStep (fun c e hc he => inv_step hc he) inv_afterHandshake hok
  exact ⟨hinv.imp fun c hc hphase _ => hc.between hphase, fun _ _ => handled_of_quiet⟩

/-- The results of as many reads in a row, and the buffers after them. -/
def reads : Nat → Conn → List SslRead × Conn
  | 0, c => ([], c)
  | n + 1, c => ((tlsRead c).1 :: (reads n (tlsRead c).2).1, (reads n (tlsRead c).2).2)

/-- A read looks at the buffers only. -/
theorem tlsRead_phase (c : Conn) (phase : Phase) :
    tlsRead { c with phase := phase } = ((tlsRead c).1, { (tlsRead c).2 with phase := phase }) := by
  obtain ⟨kernel, decrypted, _, _, _⟩ := c
  cases decrypted with
  | cons b rest => rfl
  | nil =>
    cases kernel with
    | nil => rfl
    | cons record more =>
      cases record with
      | nil => rfl
      | cons b rest => rfl

/-- The steps taken while reading are one call of `read_line_tls`: when its
reads end a line, the thread is back at `select` with that line handled. -/
theorem run_reading (y : Yyjson) (identity : DeviceInfo) (n : Nat) (c : Conn)
    (out text : List UInt8)
    (h : readLineTls kMaxPacketSize out (reads n c).1 = (.line text, [])) :
    run (step y identity) { c with phase := .reading out } (List.replicate n .io) =
      { (reads n c).2 with phase := .selecting, handled := (reads n c).2.handled ++ [text] } := by
  induction n generalizing c out with
  | zero =>
    simp only [reads, readLineTls] at h
    split at h <;> cases h
  | succ n ih =>
    simp only [reads, readLineTls] at h
    split at h
    · rename_i hroom
      have hread : readStep out { c with phase := .reading out } =
          (lineStep out (tlsRead c).1, { (tlsRead c).2 with phase := .reading out }) := by
        rw [readStep, if_pos hroom, tlsRead_phase]
      rw [List.replicate_succ, run_cons]
      split at h
      · rename_i out' hmore
        have hstep : step y identity { c with phase := .reading out } .io =
            { (tlsRead c).2 with phase := .reading out' } := by
          simp only [step, hread, hmore]
        rw [hstep, ih (tlsRead c).2 out' h]
        rfl
      · rename_i l hline
        obtain ⟨hl, hrest⟩ := Prod.mk.inj h
        cases hl
        have hn : n = 0 := by
          cases n with
          | zero => rfl
          | succ n => cases hrest
        subst hn
        simp only [List.replicate_zero, run_nil, step, hread, hline, reads]
      · cases h
    · cases h

/-- Reads serve what is decrypted first. -/
theorem reads_decrypted (c : Conn) (served rest : List UInt8) :
    reads served.length { c with decrypted := served ++ rest } =
      (served.map .byte, { c with decrypted := rest }) := by
  induction served with
  | nil => rfl
  | cons b served ih =>
    rw [List.length_cons, reads]
    dsimp only [tlsRead, List.cons_append]
    rw [ih]
    rfl

/-- Reads in a row are the first of them and then the others. -/
theorem reads_add (m n : Nat) (c : Conn) :
    reads (m + n) c = ((reads m c).1 ++ (reads n (reads m c).2).1, (reads n (reads m c).2).2) := by
  induction m generalizing c with
  | zero => rw [Nat.zero_add, reads, List.nil_append]
  | succ m ih =>
    rw [Nat.add_right_comm, reads, ih, reads]
    rfl

/-- The condition is sharp: at a quiet `select`, a record in which two lines
end leaves the second behind, whatever part of the first line came before. -/
theorem leftBehind_of_twoLines (y : Yyjson) (identity : DeviceInfo) (c : Conn)
    (first second : List UInt8) (hphase : c.phase = .selecting) (hkernel : c.kernel = [])
    (hpart : (10 : UInt8) ∉ c.decrypted) (hfirst : (10 : UInt8) ∉ first)
    (hsecond : (10 : UInt8) ∈ second)
    (hroom : c.decrypted.length + first.length < kMaxPacketSize) :
    ∃ n, ¬ NothingLeftBehind (run (step y identity) c
      (.arrives (first ++ 10 :: second) :: List.replicate n .io)) := by
  obtain ⟨kernel, part, phase, identityLine, handled⟩ := c
  dsimp only at hphase hkernel hpart hroom
  subst hphase hkernel
  -- the buffers once the record has been taken from the kernel
  let after : Conn := ⟨[], second, .selecting, identityLine, handled⟩
  let before : Conn := ⟨[first ++ 10 :: second], part, .selecting, identityLine, handled⟩
  have hpartReads : reads part.length before =
      (part.map .byte, { before with decrypted := [] }) := by
    have h := reads_decrypted before part []
    rw [List.append_nil] at h
    exact h
  have hrecordReads : reads (first ++ [10]).length { before with decrypted := [] } =
      ((first ++ [10]).map .byte, after) := by
    have h := reads_decrypted after (first ++ [10]) second
    rw [List.append_assoc] at h
    cases first with
    | nil => exact h
    | cons b first => exact h
  have hreads : reads (part.length + (first ++ [10]).length) before =
      ((part ++ first ++ [10]).map .byte, after) := by
    rw [reads_add, hpartReads, hrecordReads, ← List.map_append, ← List.append_assoc]
  have hline : (10 : UInt8) ∉ part ++ first := by
    intro hm
    rcases List.mem_append.mp hm with h | h
    · exact hpart h
    · exact hfirst h
  have hfits : ([] : List UInt8).length + (part ++ first).length < kMaxPacketSize := by
    rw [List.length_nil, List.length_append]
    omega
  have hcall := readLineTls_bytes [] hline hfits
  refine ⟨part.length + (first ++ [10]).length + 1, ?_⟩
  have hrun := run_reading y identity (part.length + (first ++ [10]).length) before []
    (part ++ first) (by rw [hreads]; exact hcall)
  rw [run_cons, List.replicate_succ, run_cons]
  have hselect : step y identity (step y identity
      ⟨[], part, .selecting, identityLine, handled⟩ (.arrives (first ++ 10 :: second))) .io =
      { before with phase := .reading [] } := rfl
  rw [hselect, hrun, hreads]
  intro hnothing
  exact hnothing rfl rfl hsecond

/-- The announcement of a phone. -/
def phone : DeviceInfo := { id := "5f0c" }

/-- An identity line of the phone, with defaults for all but the id. -/
def phoneIdentity : List UInt8 :=
  NetworkPacket.serialize Yyjson.reference 0
    { type := PacketTypes.identity, body := ({} : JsonBody).setStr "deviceId" "5f0c" }

/-- A ping as one line. -/
def pingLine : List UInt8 :=
  NetworkPacket.serialize Yyjson.reference 0 { type := PacketTypes.ping }

/-- The phone sends its identity in one record and two pings in the next. -/
def twoPings : List Event :=
  .arrives phoneIdentity :: List.replicate phoneIdentity.length .io ++
    .arrives (pingLine ++ pingLine) :: List.replicate (1 + pingLine.length) .io

/-- The second ping waits in the decrypted record while `select` times out. -/
theorem leftBehind_twoPings :
    ¬ ∀ events, Always (step Yyjson.reference phone) NothingLeftBehind afterHandshake events := by
  intro h
  have hlast := (h twoPings).last
  revert hlast
  decide +kernel

/-- The identity and one ping, a record each. -/
def onePing : List Event := .arrives phoneIdentity :: .arrives pingLine :: List.replicate 200 .io

/-- One ping a record leaves nothing behind. -/
theorem nothingLeftBehind_onePing :
    Always (step Yyjson.reference phone) NothingLeftBehind afterHandshake onePing ∧
      ∀ before, before <+: onePing →
        (run (step Yyjson.reference phone) afterHandshake before).phase = .selecting →
        (run (step Yyjson.reference phone) afterHandshake before).kernel = [] →
        arrivedBytes before = (run (step Yyjson.reference phone) afterHandshake
          before).identityLine ++
          ((run (step Yyjson.reference phone) afterHandshake before).handled.flatMap (· ++ [10]) ++
            (run (step Yyjson.reference phone) afterHandshake before).decrypted) := by
  refine nothingLeftBehind_of_oneLine Yyjson.reference phone _ ?_
  intro record hm
  rcases List.mem_cons.mp hm with h | hm
  · cases h
    unfold OneLine
    decide +kernel
  rcases List.mem_cons.mp hm with h | hm
  · cases h
    unfold OneLine
    decide +kernel
  · cases List.eq_of_mem_replicate hm

end KdeConnectNx.RecordStream
