import Mathlib.Logic.Basic

/-!
# The two ends of a TLS session

`create_session` differs in its role only: a server asks for the certificate
of its peer, a client does not have to, as a server always presents its own.
Neither end verifies a chain, so every certificate is taken, and comparing it
with one that is known is left to the caller. The handshake itself is the
library's; what is relied on of it is named.
-/

namespace KdeConnectNx.TlsRoles

/-- `mbedtls_ssl_conf_authmode`, as far as it is used. -/
inductive AuthMode where
  | verifyNone
  | verifyOptional
  deriving DecidableEq, Repr

/-- One end before its handshake. -/
structure TlsEnd where
  isClient : Bool
  authmode : AuthMode
  /-- PEM text of the own certificate. -/
  ownCert : String
  deriving DecidableEq

/-- A session after its handshake, by what `peer_cert_pem` gives. -/
structure TlsSession where
  peerCertPem : String
  deriving DecidableEq

/-- `TlsContext::create_session`. -/
def createSession (ownCert : String) (isClient : Bool) : TlsEnd where
  isClient := isClient
  authmode := if isClient then .verifyNone else .verifyOptional
  ownCert := ownCert

/-- The handshake of two ends, as the one it is called on sees it. -/
structure Tls where
  handshake : TlsEnd → TlsEnd → Option TlsSession

namespace Tls

/-- What is relied on of a handshake in which nobody's chain is verified. -/
structure Lawful (tls : Tls) : Prop where
  /-- It goes through between a client and a server, whatever their certificates. -/
  meets : ∀ e peer, e.isClient ≠ peer.isClient → (tls.handshake e peer).isSome
  /-- A server always shows its certificate. -/
  server_shown : ∀ e peer session, tls.handshake e peer = some session → e.isClient = true →
    session.peerCertPem = peer.ownCert
  /-- A client shows its certificate to a server that asks for it. -/
  client_shown : ∀ e peer session, tls.handshake e peer = some session → e.isClient = false →
    e.authmode = .verifyOptional → session.peerCertPem = peer.ownCert

/-- What an end gets to see of another one, if their roles differ. -/
def meet (e peer : TlsEnd) : Option TlsSession :=
  if e.isClient = peer.isClient then none
  else if e.isClient || decide (e.authmode = .verifyOptional) then some ⟨peer.ownCert⟩
  else some ⟨""⟩

/-- The handshake as it is, for two ends that can reach each other. -/
def reference : Tls where
  handshake := meet

theorem reference_lawful : reference.Lawful where
  meets e peer hroles := by
    change (meet e peer).isSome
    rw [meet, if_neg hroles]
    split <;> rfl
  server_shown e peer session hshake hclient := by
    change meet e peer = some session at hshake
    unfold meet at hshake
    split at hshake
    · cases hshake
    · rw [hclient, Bool.true_or, if_pos rfl] at hshake
      cases hshake
      rfl
  client_shown e peer session hshake _ hasks := by
    change meet e peer = some session at hshake
    unfold meet at hshake
    split at hshake
    · cases hshake
    · rw [decide_eq_true hasks, Bool.or_true, if_pos rfl] at hshake
      cases hshake
      rfl

end Tls

/-- In either role an end that was created here gets through the handshake with every host in the
other role, and to see its certificate. -/
theorem handshake_createSession {tls : Tls} (h : tls.Lawful) (ownCert : String) {isClient : Bool}
    {peer : TlsEnd} (hpeer : peer.isClient = !isClient) :
    tls.handshake (createSession ownCert isClient) peer = some ⟨peer.ownCert⟩ := by
  have hroles : (createSession ownCert isClient).isClient ≠ peer.isClient := by
    rw [hpeer]
    cases isClient <;> exact Bool.noConfusion
  obtain ⟨session, hshake⟩ := Option.isSome_iff_exists.mp (h.meets _ _ hroles)
  have hcert : session.peerCertPem = peer.ownCert := by
    cases isClient with
    | true => exact h.server_shown _ _ _ hshake rfl
    | false => exact h.client_shown _ _ _ hshake rfl rfl
  rw [hshake, ← hcert]

end KdeConnectNx.TlsRoles
