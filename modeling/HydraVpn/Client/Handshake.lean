import HydraVpn.Protocol.Packet
import HydraVpn.Protocol.Handshake

/-!
# The handshake of `Client.performHandshake`

The client writes a `HandshakeInit` frame with session id 0 (`handshakeInitFrame`), reads one
message back and, from a `HandshakeResponse` frame, derives the initiator's keys with a salt of 32
zero bytes (`completeHandshake`).

* `completeHandshake_responseFrame`: on a response frame, the initiator's keys come from the
  shared secret with the server's public key and the zero salt.
-/

namespace Hydra

variable (P : Primitives)

/-- The `HandshakeInit` frame `performHandshake` writes: its public key, the timestamp and the
padding `rand.Read` wrote. -/
def handshakeInitFrame (kp : KeyPair) (timestamp : BitVec 64) (padding : Bytes32) : Bytes :=
  (newPacket packetTypeHandshakeInit 0 (marshalHandshakeInit
    { clientPublicKey := kp.publicKey, timestamp, randomPadding := padding })).marshal

/-- What `performHandshake` stores on success. -/
structure HandshakeResult where
  cryptoSession : Session
  sessionID : UInt64
  assignedIP : BytesN 4
  serverIP : BytesN 4
  deriving DecidableEq, Repr

/-- `salt := make([]byte, 32)`: the client derives with 32 zero bytes. -/
def clientSalt : Bytes := List.replicate 32 0

/-- The rest of `performHandshake`, from the message read back: parse a `HandshakeResponse`
frame, compute the shared secret and derive the initiator's keys. -/
def completeHandshake (kp : KeyPair) (resp : Bytes) : Except String HandshakeResult := do
  let respPacket ← (unmarshalPacket resp).mapError ("failed to parse response: " ++ ·)
  if respPacket.header.type ≠ packetTypeHandshakeResponse then throw "unexpected packet type"
  let hsResp ← (unmarshalHandshakeResponse respPacket.payload).mapError
    ("failed to parse handshake response: " ++ ·)
  let sharedSecret ← (computeSharedSecret P kp.privateKey hsResp.serverPublicKey).mapError
    ("failed to compute shared secret: " ++ ·)
  let cryptoSession ← (deriveSessionKeys P sharedSecret true clientSalt).mapError
    ("failed to derive keys: " ++ ·)
  return ⟨cryptoSession, hsResp.sessionID, hsResp.assignedIP, hsResp.serverIP⟩

/-- On a `HandshakeResponse` frame, `completeHandshake` derives the initiator's keys from the
shared secret with the server's public key and the zero salt, and keeps the session id and the
two addresses. -/
theorem completeHandshake_responseFrame (kp : KeyPair) (r : HandshakeResponse) (sid : UInt64) :
    completeHandshake P kp
        (newPacket packetTypeHandshakeResponse sid (marshalHandshakeResponse r)).marshal =
      ((computeSharedSecret P kp.privateKey r.serverPublicKey).mapError
        ("failed to compute shared secret: " ++ ·) >>= fun ss =>
        (deriveSessionKeys P ss true clientSalt).mapError ("failed to derive keys: " ++ ·) >>=
          fun cs => pure ⟨cs, r.sessionID, r.assignedIP, r.serverIP⟩) := by
  rw [completeHandshake, unmarshalPacket_newPacket_of_le (by simp [maxPacketSize])]
  simp [Except.mapError, newPacket, unmarshalHandshakeResponse_marshal, bind, Except.bind, pure,
    Except.pure]

end Hydra
