import HydraVpn.Bytes

/-!
# Keys and sessions (`pkg/crypto`)

The library primitives (`curve25519`, `hkdf`, `chacha20poly1305`) are parameters of the model,
collected in `Primitives`. The laws that results rely on are separate hypotheses:
`Primitives.DhAgree` (X25519 agreement), `Primitives.SealLength` (Poly1305 adds 16 bytes) and
`Primitives.OpenSeal` (AEAD correctness). Randomness is the byte sequence the reader supplies.

* `deriveSessionKeys_eq`: what `DeriveSessionKeys` computes, as the two halves of the HKDF
  output in the order the role picks.
* `computeSharedSecret_agree`: two generated key pairs compute the same shared secret from each
  other's public key.
* `length_of_encrypt`: `Encrypt` output is the 24-byte nonce, the plaintext's length and the tag.
* `encrypt_snd`, `encrypt_eq_ok`, `decrypt_cases`, `decrypt_eq_error_iff`: what one call does to
  the session and what it returns.
-/

namespace Hydra

/-- A 32-byte scalar, point or key (`[32]byte`). -/
abbrev Bytes32 := BytesN 32

/-- The primitives the code takes from `golang.org/x/crypto`: X25519 `ScalarMult` and
`ScalarBaseMult`, the output stream of `hkdf.New(sha256.New, secret, salt, info)`, and
XChaCha20-Poly1305 `Seal`/`Open` under a key and a 24-byte nonce, with no additional data. -/
structure Primitives where
  scalarMult : Bytes32 → Bytes32 → Bytes32
  scalarBaseMult : Bytes32 → Bytes32
  hkdf : Bytes → Bytes → Bytes → Bytes
  aeadSeal : Bytes32 → Bytes → Bytes → Bytes
  aeadOpen : Bytes32 → Bytes → Bytes → Option Bytes

namespace Primitives

/-- X25519 agreement: `ScalarMult(a, ScalarBaseMult(b)) = ScalarMult(b, ScalarBaseMult(a))`. -/
def DhAgree (P : Primitives) : Prop :=
  ∀ a b, P.scalarMult a (P.scalarBaseMult b) = P.scalarMult b (P.scalarBaseMult a)

/-- `Seal` appends a 16-byte tag to a ciphertext as long as the plaintext. -/
def SealLength (P : Primitives) : Prop := ∀ k n m, (P.aeadSeal k n m).length = m.length + 16

/-- `Open` inverts `Seal` under the same key and nonce. -/
def OpenSeal (P : Primitives) : Prop := ∀ k n m, P.aeadOpen k n (P.aeadSeal k n m) = some m

end Primitives

variable (P : Primitives)

/-- `KeyPair`. -/
structure KeyPair where
  privateKey : Bytes32
  publicKey : Bytes32
  deriving DecidableEq, Repr

/-- X25519 clamping of a private scalar: `&= 248` on byte 0, `&= 127` then `|= 64` on byte 31. -/
def clamp (k : Bytes32) : Bytes32 :=
  ⟨(k.bytes.set 0 (k.bytes.getD 0 0 &&& 248)).set 31 ((k.bytes.getD 31 0 &&& 127) ||| 64),
    by simp [k.length_eq]⟩

/-- `GenerateKeyPair`, from the random bytes the reader supplies. -/
def generateKeyPair (rnd : Bytes) : Except String KeyPair := do
  let (r, _) ← readFull 32 rnd
  let priv := clamp r
  return { privateKey := priv, publicKey := P.scalarBaseMult priv }

/-- A key pair whose public key is the base-point multiple of its private key, as
`GenerateKeyPair` makes them. -/
def KeyPair.Generated (kp : KeyPair) : Prop := kp.publicKey = P.scalarBaseMult kp.privateKey

/-- `ComputeSharedSecret`: the all-zero point is rejected. -/
def computeSharedSecret (privateKey peerPublicKey : Bytes32) : Except String Bytes32 :=
  let sharedSecret := P.scalarMult privateKey peerPublicKey
  if sharedSecret = BytesN.zero 32 then .error "invalid shared secret: low-order point"
  else .ok sharedSecret

/-- Two generated key pairs compute the same shared secret, each from its private key and the
other's public key. -/
theorem computeSharedSecret_agree (hdh : P.DhAgree) {a b : KeyPair} (ha : a.Generated P)
    (hb : b.Generated P) :
    computeSharedSecret P a.privateKey b.publicKey = computeSharedSecret P b.privateKey a.publicKey := by
  rw [computeSharedSecret, computeSharedSecret, ha, hb, hdh]

/-! ## Sessions -/

/-- `Session`. The two ciphers are `chacha20poly1305.NewX` of the two keys, which cannot fail on
a 32-byte key, so they are kept as the keys. -/
structure Session where
  sendKey : Bytes32
  recvKey : Bytes32
  sendNonce : UInt64
  recvNonce : UInt64
  deriving DecidableEq, Repr

/-- `[]byte("hydravpn-session-keys")`. -/
def sessionKeysInfo : Bytes := "hydravpn-session-keys".toList.map fun c => UInt8.ofNat c.toNat

/-- `DeriveSessionKeys`: read two 32-byte keys from the HKDF stream; the initiator sends with
the first, the responder with the second. -/
def deriveSessionKeys (sharedSecret : Bytes32) (isInitiator : Bool) (salt : Bytes) :
    Except String Session := do
  let stream := P.hkdf sharedSecret.bytes salt sessionKeysInfo
  let (key1, rest) ← readFull 32 stream
  let (key2, _) ← readFull 32 rest
  if isInitiator then return { sendKey := key1, recvKey := key2, sendNonce := 0, recvNonce := 0 }
  else return { sendKey := key2, recvKey := key1, sendNonce := 0, recvNonce := 0 }

/-- `DeriveSessionKeys` succeeds exactly when the HKDF stream has 64 bytes, and then gives its two
halves as keys, in the order of the role. -/
theorem deriveSessionKeys_eq {ss : Bytes32} {isInitiator : Bool} {salt : Bytes} {s : Session}
    (h : deriveSessionKeys P ss isInitiator salt = .ok s) :
    ∃ k1 k2 : Bytes32, k1.bytes ++ k2.bytes = (P.hkdf ss.bytes salt sessionKeysInfo).take 64 ∧
      s = if isInitiator then { sendKey := k1, recvKey := k2, sendNonce := 0, recvNonce := 0 }
        else { sendKey := k2, recvKey := k1, sendNonce := 0, recvNonce := 0 } := by
  simp only [deriveSessionKeys] at h
  obtain ⟨⟨k1, rest⟩, h1, h⟩ := except_bind_eq_ok.1 h
  obtain ⟨⟨k2, rest2⟩, h2, h⟩ := except_bind_eq_ok.1 h
  obtain ⟨-, hk1, rfl⟩ := readFull_eq_ok.1 h1
  obtain ⟨-, hk2, -⟩ := readFull_eq_ok.1 h2
  refine ⟨k1, k2, by rw [hk1, hk2, show 64 = 32 + 32 from rfl, List.take_add], ?_⟩
  cases isInitiator <;> simp only [Bool.false_eq_true, if_true, if_false] at h <;> cases h <;> rfl

/-- The key taken from the first 32 bytes of the stream is the initiator's send key and the
responder's receive key; the one from the next 32 the other way round. -/
theorem deriveSessionKeys_halves {ss : Bytes32} {isInitiator : Bool} {salt : Bytes} {s : Session}
    (h : deriveSessionKeys P ss isInitiator salt = .ok s) :
    (if isInitiator then s.sendKey else s.recvKey).bytes =
        (P.hkdf ss.bytes salt sessionKeysInfo).take 32 ∧
      (if isInitiator then s.recvKey else s.sendKey).bytes =
        ((P.hkdf ss.bytes salt sessionKeysInfo).drop 32).take 32 := by
  obtain ⟨k1, k2, hk, rfl⟩ := deriveSessionKeys_eq P h
  have h1 := congrArg (List.take 32) hk
  have h2 := congrArg (List.drop 32) hk
  rw [List.take_left' k1.length_eq, List.take_take] at h1
  rw [List.drop_left' k1.length_eq, List.drop_take] at h2
  cases isInitiator <;> exact ⟨h1, h2⟩

/-- `Encrypt`, with the random bytes the reader supplies: the nonce is the little-endian send
counter and 16 random bytes; the counter is incremented before the random read, so also when it
fails. -/
def Session.encrypt (s : Session) (rnd : Bytes) (plaintext : Bytes) :
    Except String Bytes × Session :=
  let s' := { s with sendNonce := s.sendNonce + 1 }
  match readFull 16 rnd with
  | .error e => (.error e, s')
  | .ok (r, _) =>
    let nonce := putUint64LE s.sendNonce ++ r.bytes
    (.ok (nonce ++ P.aeadSeal s.sendKey nonce plaintext), s')

/-- `Decrypt`: split off the 24-byte nonce; the receive counter moves only on success. -/
def Session.decrypt (s : Session) (ciphertext : Bytes) : Except String Bytes × Session :=
  if ciphertext.length < 24 then (.error "ciphertext too short", s)
  else
    match P.aeadOpen s.recvKey (ciphertext.take 24) (ciphertext.drop 24) with
    | none => (.error "chacha20poly1305: message authentication failed", s)
    | some plaintext => (.ok plaintext, { s with recvNonce := s.recvNonce + 1 })

/-- `Encrypt` moves the send counter by one and changes nothing else, whether or not the random
read fails. -/
@[simp] theorem encrypt_snd (s : Session) (rnd plaintext : Bytes) :
    (s.encrypt P rnd plaintext).2 = { s with sendNonce := s.sendNonce + 1 } := by
  unfold Session.encrypt; split <;> rfl

/-- A successful `Encrypt` returns a 24-byte nonce that starts with the little-endian send
counter, then the plaintext sealed under the send key and that nonce. -/
theorem encrypt_eq_ok {s : Session} {rnd plaintext c : Bytes}
    (h : (s.encrypt P rnd plaintext).1 = .ok c) :
    ∃ nonce, nonce.length = 24 ∧ nonce.take 8 = putUint64LE s.sendNonce ∧
      c = nonce ++ P.aeadSeal s.sendKey nonce plaintext := by
  unfold Session.encrypt at h
  split at h
  · cases h
  · rename_i r _ _
    exact ⟨_, by simp [r.length_eq], List.take_left' (length_putUint64LE _), (Except.ok.inj h).symm⟩

/-- `Decrypt` either fails and leaves the session as it was, or succeeds and moves the receive
counter by one. -/
theorem decrypt_cases (s : Session) (c : Bytes) :
    (∃ e, s.decrypt P c = (.error e, s)) ∨
      ∃ p, s.decrypt P c = (.ok p, { s with recvNonce := s.recvNonce + 1 }) := by
  unfold Session.decrypt
  split
  · exact .inl ⟨_, rfl⟩
  · split
    · exact .inl ⟨_, rfl⟩
    · exact .inr ⟨_, rfl⟩

/-- `Decrypt` fails exactly on an input shorter than the nonce or one that does not open. -/
theorem decrypt_eq_error_iff (s : Session) (c : Bytes) :
    (∃ e, (s.decrypt P c).1 = .error e) ↔
      c.length < 24 ∨ P.aeadOpen s.recvKey (c.take 24) (c.drop 24) = none := by
  unfold Session.decrypt
  split
  · simp [*]
  · split <;> simp [*]

/-- `Decrypt` of a 24-byte nonce and a ciphertext that opens under it. -/
theorem decrypt_append {s : Session} {nonce ct p : Bytes} (hn : nonce.length = 24)
    (h : P.aeadOpen s.recvKey nonce ct = some p) :
    s.decrypt P (nonce ++ ct) = (.ok p, { s with recvNonce := s.recvNonce + 1 }) := by
  rw [Session.decrypt, if_neg (by simp [hn]), List.take_left' hn, List.drop_left' hn, h]

/-- An `Encrypt` output is the 24-byte nonce, a ciphertext as long as the plaintext and the tag. -/
theorem length_of_encrypt (hsl : P.SealLength) {s s' : Session} {rnd m c : Bytes}
    (h : s.encrypt P rnd m = (.ok c, s')) : c.length = m.length + 40 := by
  unfold Session.encrypt at h
  split at h
  · cases h
  · rename_i r rest _
    simp only [Prod.mk.injEq, Except.ok.injEq] at h
    rw [← h.1, List.length_append, List.length_append, hsl, length_putUint64LE, r.length_eq]
    omega

/-- `GenerateRandomBytes`, from the bytes the reader supplies. -/
def generateRandomBytes (n : Nat) (rnd : Bytes) : Except String Bytes :=
  (readFull n rnd).map fun r => r.1.bytes

end Hydra
