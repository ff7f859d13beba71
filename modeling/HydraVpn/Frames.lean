import HydraVpn.KeyAgreement

/-!
# The frames the two peers write

Every `conn.Write` of the client and the server writes the `Marshal` of a `NewPacket`:
the handshake frames, `KeepAlive` and `Disconnect` frames with an empty payload, and `Data` frames
sealing a datagram read from the TUN device into a 2048-byte buffer (`sealDatagram`, the same
steps in `Client.tunReadLoop` and `Server.tunReadLoop`).

* `fitsPeer_newPacket`: a `NewPacket` frame whose payload has at most 4082 bytes is accepted
  unchanged by `UnmarshalPacket` and fits one 4096-byte read.
* `emitted_frames_fit`: every frame either peer writes is such a frame.
-/

namespace Hydra

variable (P : Primitives)

/-- The TUN device read of both `tunReadLoop`s: `Read(buf)` with `len(buf) = 2048` returns the
first `2048` bytes of the datagram, and the loop uses `buf[:n]`. -/
def tunRead (datagram : Bytes) : Bytes := datagram.take 2048

/-- `Encrypt(buf[:n])` then `NewPacket(PacketTypeData, sessionID, ciphertext).Marshal()`, the body
of both `tunReadLoop`s once the device read succeeds (the server's also needs `n ≥ 20` and a
session whose address matches). The session is returned with its counter moved. -/
def sealDatagram (sess : Session) (sessionID : UInt64) (datagram rnd : Bytes) :
    Except String Bytes × Session :=
  match sess.encrypt P rnd (tunRead datagram) with
  | (.ok ciphertext, s') => (.ok (newPacket packetTypeData sessionID ciphertext).marshal, s')
  | (.error e, s') => (.error e, s')

/-- The frame `sealDatagram` writes, if any, is the `Data` frame under the session id carrying
the ciphertext `Encrypt` returned for the bytes read. -/
theorem sealDatagram_frame (sess : Session) (sessionID : UInt64) (datagram rnd : Bytes) :
    (sealDatagram P sess sessionID datagram rnd).1.toOption =
      (sess.encrypt P rnd (tunRead datagram)).1.toOption.map
        fun c => (newPacket packetTypeData sessionID c).marshal := by
  unfold sealDatagram
  rcases sess.encrypt P rnd (tunRead datagram) with ⟨_ | _, _⟩ <;> rfl

/-- `NewPacket(PacketTypeKeepAlive, sessionID, nil).Marshal()`: the client's `keepaliveLoop` and
the server's reply to a `KeepAlive`. -/
def keepAliveFrame (sessionID : UInt64) : Bytes :=
  (newPacket packetTypeKeepAlive sessionID []).marshal

/-- `NewPacket(PacketTypeDisconnect, sessionID, nil).Marshal()`, written by `Client.Disconnect`. -/
def disconnectFrame (sessionID : UInt64) : Bytes :=
  (newPacket packetTypeDisconnect sessionID []).marshal

/-- A frame that `UnmarshalPacket` accepts unchanged, with the magic, version 1 and a length field
equal to the payload length, and that fits the peer's 4096-byte read buffer. -/
def FitsPeer (f : Bytes) : Prop :=
  f.length ≤ 4096 ∧ ∃ q, unmarshalPacket f = .ok q ∧ q.marshal = f ∧
    q.header.magic = (magicByte1, magicByte2) ∧ q.header.version = protocolVersion ∧
    q.header.length.toNat = q.payload.length

theorem fitsPeer_newPacket {t : UInt8} {s : UInt64} {p : Bytes} (hp : p.length ≤ 4082) :
    FitsPeer (newPacket t s p).marshal := by
  refine ⟨by rw [length_marshal]; show 14 + p.length ≤ 4096; omega, _,
    unmarshalPacket_newPacket_of_le (by unfold maxPacketSize; omega), rfl, rfl, rfl, ?_⟩
  show (UInt16.ofNat p.length).toNat = p.length
  exact (BitVec.toNat_ofNat _ _).trans (Nat.mod_eq_of_lt (by omega))

theorem length_of_sealDatagram (hsl : P.SealLength) {sess s' : Session} {sid : UInt64}
    {datagram rnd f : Bytes} (h : sealDatagram P sess sid datagram rnd = (.ok f, s')) :
    ∃ c, c.length ≤ 2088 ∧ f = (newPacket packetTypeData sid c).marshal := by
  unfold sealDatagram at h
  split at h
  · rename_i c _ hc
    simp only [Prod.mk.injEq, Except.ok.injEq] at h
    have := length_of_encrypt P hsl hc
    have : (tunRead datagram).length ≤ 2048 := List.length_take_le _ _
    exact ⟨c, by omega, h.1.symm⟩
  · simp at h

/-- Every frame the client or the server writes: the `HandshakeInit` of `performHandshake`, the
`HandshakeResponse` of `handleConnection`, the `KeepAlive` frames of `keepaliveLoop` and of the
server's reply, the client's `Disconnect`, and the `Data` frames of both `tunReadLoop`s, is
accepted unchanged by `UnmarshalPacket`, has the magic, version 1 and a length field equal to its
payload length, and fits one 4096-byte read. -/
theorem emitted_frames_fit (hsl : P.SealLength) :
    (∀ kp ts pad, FitsPeer (handshakeInitFrame kp ts pad)) ∧
    (∀ kp sid ip pad, FitsPeer (handshakeResponseFrame kp sid ip pad)) ∧
    (∀ sid, FitsPeer (keepAliveFrame sid)) ∧ (∀ sid, FitsPeer (disconnectFrame sid)) ∧
    (∀ sess sid datagram rnd f s', sealDatagram P sess sid datagram rnd = (.ok f, s') →
      FitsPeer f) := by
  refine ⟨fun _ _ _ => fitsPeer_newPacket (by simp), fun _ _ _ _ => fitsPeer_newPacket (by simp),
    fun _ => fitsPeer_newPacket (by simp), fun _ => fitsPeer_newPacket (by simp),
    fun _ _ _ _ _ _ h => ?_⟩
  obtain ⟨c, hc, rfl⟩ := length_of_sealDatagram P hsl h
  exact fitsPeer_newPacket (by omega)

theorem emitted_frames_fit_saltEcho :
    saltEcho.SealLength ∧
    (∀ kp ts pad, FitsPeer (handshakeInitFrame kp ts pad)) ∧
    (∀ kp sid ip pad, FitsPeer (handshakeResponseFrame kp sid ip pad)) ∧
    (∀ sid, FitsPeer (keepAliveFrame sid)) ∧ (∀ sid, FitsPeer (disconnectFrame sid)) ∧
    (∀ sess sid datagram rnd f s', sealDatagram saltEcho sess sid datagram rnd = (.ok f, s') →
      FitsPeer f) :=
  have h : saltEcho.SealLength := fun _ _ m => by simp [saltEcho]
  ⟨h, emitted_frames_fit saltEcho h⟩

end Hydra
