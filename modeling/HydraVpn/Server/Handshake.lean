import HydraVpn.Protocol.Packet
import HydraVpn.Protocol.Handshake

/-!
# The handshake of `Server.handleConnection`

Steps (a) to (b) of a connection task (`acceptHandshake`) and the response it writes at step (f)
(`handshakeResponseFrame`). Allocation and registration, steps (d) and (e), are in
`HydraVpn/Server/Tasks.lean`. Failures are the log lines of the code, after which the task
returns.

* `acceptHandshake_initFrame`: on a `HandshakeInit` frame, the responder's keys are derived from
  the shared secret with the client's public key and the salt drawn.
-/

namespace Hydra

variable (P : Primitives)

/-- `salt, _ := crypto.GenerateRandomBytes(32)`: the error is ignored, which leaves a nil salt. -/
def serverSalt (saltRnd : Bytes) : Bytes :=
  match generateRandomBytes 32 saltRnd with
  | .ok b => b
  | .error _ => []

/-- Steps (a) and (b) of `handleConnection`: parse the first message as a `HandshakeInit` frame,
compute the shared secret and derive the responder's keys with a salt from `rand.Reader`. -/
def acceptHandshake (kp : KeyPair) (msg saltRnd : Bytes) : Except String Session := do
  let packet ← (unmarshalPacket msg).mapError ("Parse packet error: " ++ ·)
  if packet.header.type ≠ packetTypeHandshakeInit then throw "Expected handshake init"
  let hsInit ← (unmarshalHandshakeInit packet.payload).mapError ("Parse handshake init error: " ++ ·)
  let sharedSecret ← (computeSharedSecret P kp.privateKey hsInit.clientPublicKey).mapError
    ("Compute shared secret error: " ++ ·)
  (deriveSessionKeys P sharedSecret false (serverSalt saltRnd)).mapError ("Derive keys error: " ++ ·)

/-- Step (c): `binary.Read(rand.Reader, binary.BigEndian, &sessionID)`; its error is ignored,
which leaves the id 0. -/
def sessionIDOf (rnd : Bytes) : UInt64 :=
  match readFull 8 rnd with
  | .ok (b, _) => uint64 b.bytes
  | .error _ => 0

/-- `net.ParseIP("10.8.0.1").To4()`, the server's tunnel address. -/
def serverTunIP : BytesN 4 := ⟨[10, 8, 0, 1], rfl⟩

/-- Step (f): the `HandshakeResponse` frame for an allocated address, with the padding
`rand.Read` wrote. -/
def handshakeResponseFrame (kp : KeyPair) (sessionID : UInt64) (clientIP : UInt32)
    (padding : Bytes32) : Bytes :=
  (newPacket packetTypeHandshakeResponse sessionID (marshalHandshakeResponse
    { serverPublicKey := kp.publicKey, sessionID
      assignedIP := ⟨putUint32 clientIP, length_putUint32 _⟩
      serverIP := serverTunIP, subnet := 24, randomPadding := padding })).marshal

/-- On a `HandshakeInit` frame with public key `pub`, `acceptHandshake` derives the responder's
keys from the shared secret with `pub` and the salt drawn. -/
theorem acceptHandshake_initFrame (kp : KeyPair) (h : HandshakeInit) (sid : UInt64)
    (saltRnd : Bytes) :
    acceptHandshake P kp (newPacket packetTypeHandshakeInit sid (marshalHandshakeInit h)).marshal
        saltRnd =
      ((computeSharedSecret P kp.privateKey h.clientPublicKey).mapError
        ("Compute shared secret error: " ++ ·) >>= fun ss =>
        (deriveSessionKeys P ss false (serverSalt saltRnd)).mapError ("Derive keys error: " ++ ·)) := by
  rw [acceptHandshake, unmarshalPacket_newPacket_of_le (by simp [maxPacketSize])]
  simp [Except.mapError, newPacket, unmarshalHandshakeInit_marshal, bind, Except.bind, pure,
    Except.pure]

end Hydra
