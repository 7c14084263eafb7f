import KdeConnectNx.PayloadTransfer
import KdeConnectNx.TlsRoles

/-!
# Who is at the other end of a payload

The port of an upload takes the first host that connects, and a download talks
to whoever answers at the address. Both run a TLS handshake of their own, and
neither looks at the certificate that came with it.
-/

namespace KdeConnectNx.PayloadPeers

open Sessions PayloadTransfer TlsRoles Runs

variable {π : Type}

end KdeConnectNx.PayloadPeers
