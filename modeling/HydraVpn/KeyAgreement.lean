import HydraVpn.Server.Handshake
import HydraVpn.Client.Handshake

/-!
# Key agreement between `performHandshake` and `handleConnection`

The two sides compute the same X25519 secret, but derive from it with different HKDF salts: the
server with 32 bytes from `rand.Reader`, which it never sends, the client with 32 zero bytes.

* `handshake_sessions`: after the exchange, the server's session is `DeriveSessionKeys` of the
  common secret with its salt, and the client's the same with the zero salt.
* `handshake_keys_differ`: for an HKDF that depends on its salt, the client's send key is not
  the server's receive key, nor the other way round; `handshake_keys_disagree`: such an HKDF.
-/

namespace Hydra

section

variable (P : Primitives)

/-- After the server accepts the client's `HandshakeInit` frame and the client completes on the
server's response frame, both hold keys derived from one shared secret: the server's with the salt
it drew, the client's with 32 zero bytes. -/
theorem handshake_sessions (hdh : P.DhAgree) {ckp skp : KeyPair} (hc : ckp.Generated P)
    (hs : skp.Generated P) (ts : BitVec 64) (cpad spad : Bytes32) (saltRnd : Bytes) (sid : UInt64)
    (ip : UInt32) {ss : Session} {res : HandshakeResult}
    (hsrv : acceptHandshake P skp (handshakeInitFrame ckp ts cpad) saltRnd = .ok ss)
    (hcli : completeHandshake P ckp (handshakeResponseFrame skp sid ip spad) = .ok res) :
    ∃ secret, deriveSessionKeys P secret false (serverSalt saltRnd) = .ok ss ∧
      deriveSessionKeys P secret true clientSalt = .ok res.cryptoSession := by
  rw [handshakeInitFrame, acceptHandshake_initFrame] at hsrv
  rw [handshakeResponseFrame, completeHandshake_responseFrame,
    computeSharedSecret_agree P hdh hc hs] at hcli
  obtain ⟨secret, hsec, hder⟩ := except_bind_eq_ok.1 hsrv
  obtain ⟨secret', hsec', hcli⟩ := except_bind_eq_ok.1 hcli
  obtain ⟨cs, hcs, hres⟩ := except_bind_eq_ok.1 hcli
  rw [except_mapError_eq_ok] at hsec hsec' hder hcs
  obtain rfl : secret' = secret := by rw [hsec] at hsec'; cases hsec'; rfl
  cases hres
  exact ⟨_, hder, hcs⟩

/-- When HKDF of any secret under the server's salt and under the zero salt differs in its first
32 bytes and in its next 32, the client's send key is not the server's receive key, nor its
receive key the server's send key. -/
theorem handshake_keys_differ (hdh : P.DhAgree) {ckp skp : KeyPair} (hc : ckp.Generated P)
    (hs : skp.Generated P) (ts : BitVec 64) (cpad spad : Bytes32) (saltRnd : Bytes) (sid : UInt64)
    (ip : UInt32) {ss : Session} {res : HandshakeResult}
    (hsrv : acceptHandshake P skp (handshakeInitFrame ckp ts cpad) saltRnd = .ok ss)
    (hcli : completeHandshake P ckp (handshakeResponseFrame skp sid ip spad) = .ok res)
    (hsalt : ∀ secret : Bytes32,
      (P.hkdf secret.bytes (serverSalt saltRnd) sessionKeysInfo).take 32 ≠
        (P.hkdf secret.bytes clientSalt sessionKeysInfo).take 32 ∧
      ((P.hkdf secret.bytes (serverSalt saltRnd) sessionKeysInfo).drop 32).take 32 ≠
        ((P.hkdf secret.bytes clientSalt sessionKeysInfo).drop 32).take 32) :
    res.cryptoSession.sendKey ≠ ss.recvKey ∧ res.cryptoSession.recvKey ≠ ss.sendKey := by
  obtain ⟨secret, hds, hdc⟩ := handshake_sessions P hdh hc hs ts cpad spad saltRnd sid ip hsrv hcli
  obtain ⟨hs1, hs2⟩ := deriveSessionKeys_halves P hds
  obtain ⟨hc1, hc2⟩ := deriveSessionKeys_halves P hdc
  exact ⟨fun h => (hsalt secret).1 (by rw [← hs1, ← hc1]; exact (congrArg BytesN.bytes h).symm),
    fun h => (hsalt secret).2 (by rw [← hs2, ← hc2]; exact (congrArg BytesN.bytes h).symm)⟩

end

/-! ## A salt-dependent HKDF -/

/-- The all-one point. -/
def onePoint : Bytes32 := ⟨List.replicate 32 1, rfl⟩

/-- Primitives under which the two salts matter: X25519 sends every pair to one nonzero point,
which satisfies the agreement law, and HKDF outputs its salt twice. `Seal` appends a zero tag. -/
def saltEcho : Primitives where
  scalarMult _ _ := onePoint
  scalarBaseMult _ := onePoint
  hkdf _ salt _ := salt ++ salt
  aeadSeal _ _ m := m ++ List.replicate 16 0
  aeadOpen _ _ c := some (c.take (c.length - 16))

/-- A key pair generated under `saltEcho`. -/
def echoKeyPair : KeyPair := ⟨BytesN.zero 32, onePoint⟩

/-- The server's random salt: `0x01` then 31 zero bytes. -/
def oneSalt : Bytes := 1 :: List.replicate 31 0

/-- Under `saltEcho`, with the server drawing `oneSalt`, both sides complete the handshake, and
the client's send and receive keys are not the server's receive and send keys. -/
theorem handshake_keys_disagree :
    saltEcho.DhAgree ∧ echoKeyPair.Generated saltEcho ∧
    generateRandomBytes 32 oneSalt = .ok oneSalt ∧
    ∃ ss res,
      acceptHandshake saltEcho echoKeyPair (handshakeInitFrame echoKeyPair 0 (BytesN.zero 32))
        oneSalt = .ok ss ∧
      completeHandshake saltEcho echoKeyPair
        (handshakeResponseFrame echoKeyPair 7 0x0A080002 (BytesN.zero 32)) = .ok res ∧
      res.cryptoSession.sendKey ≠ ss.recvKey ∧ res.cryptoSession.recvKey ≠ ss.sendKey := by
  have hdh : saltEcho.DhAgree := fun _ _ => rfl
  have hg : echoKeyPair.Generated saltEcho := rfl
  obtain ⟨ss, hsrv⟩ : ∃ ss, acceptHandshake saltEcho echoKeyPair
      (handshakeInitFrame echoKeyPair 0 (BytesN.zero 32)) oneSalt = .ok ss := by
    rw [handshakeInitFrame, acceptHandshake_initFrame]; exact ⟨_, rfl⟩
  obtain ⟨res, hcli⟩ : ∃ res, completeHandshake saltEcho echoKeyPair
      (handshakeResponseFrame echoKeyPair 7 0x0A080002 (BytesN.zero 32)) = .ok res := by
    rw [handshakeResponseFrame, completeHandshake_responseFrame]; exact ⟨_, rfl⟩
  exact ⟨hdh, hg, rfl, ss, res, hsrv, hcli, handshake_keys_differ saltEcho hdh hg hg 0 _ _ oneSalt
    7 0x0A080002 hsrv hcli fun _ => by simp only [saltEcho]; decide⟩

end Hydra
