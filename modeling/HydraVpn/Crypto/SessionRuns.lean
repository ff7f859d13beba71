import HydraVpn.KeyAgreement
import Mathlib.Data.List.Nodup

/-!
# Runs of a session (`Session.Encrypt`, `Session.Decrypt`)

A `Session` is used by one goroutine at a time, and each call reads and writes only its counters,
so a run of the two sessions of a pair is any sequence of calls on each; how the calls of the two
interleave does not matter.

* `keys_callAll`: no call changes a session's keys.
* `deriveSessionKeys_swap`: the two roles derive the same two keys, swapped.
* `session_aead_round_trip`: along any runs of the initiator's and the responder's sessions, what
  one side's `Encrypt` returns, the other side's `Decrypt` opens; each call moves exactly one
  counter, and a failed `Decrypt` changes nothing.
* `counters_encryptAll`: the first 8 bytes of the nonces of `k` successive `Encrypt` calls are the
  encodings of the counter values, in order, leaving out the failed calls.
* `encrypt_nonces_distinct`: for at most `2^64` calls the 24-byte nonces are pairwise distinct,
  whatever the random source supplies.
-/

namespace Hydra

/-- A call on a `Session`: `Encrypt` of a plaintext with the bytes its random read gets, or
`Decrypt` of a ciphertext. -/
inductive SessionCall
  | encrypt (rnd plaintext : Bytes)
  | decrypt (ciphertext : Bytes)
  deriving DecidableEq, Repr

variable (P : Primitives)

/-- The session after one call. -/
def Session.call (s : Session) : SessionCall → Session
  | .encrypt rnd plaintext => (s.encrypt P rnd plaintext).2
  | .decrypt ciphertext => (s.decrypt P ciphertext).2

/-- The session after a sequence of calls. -/
def Session.callAll (s : Session) (calls : List SessionCall) : Session :=
  calls.foldl (Session.call P) s

/-! ## Keys -/

theorem keys_call (s : Session) (c : SessionCall) :
    (s.call P c).sendKey = s.sendKey ∧ (s.call P c).recvKey = s.recvKey := by
  cases c with
  | encrypt rnd p => simp [Session.call]
  | decrypt c => rcases decrypt_cases P s c with ⟨e, h⟩ | ⟨p, h⟩ <;> simp [Session.call, h]

theorem keys_callAll (s : Session) (calls : List SessionCall) :
    (s.callAll P calls).sendKey = s.sendKey ∧ (s.callAll P calls).recvKey = s.recvKey := by
  induction calls generalizing s with
  | nil => exact ⟨rfl, rfl⟩
  | cons c calls ih =>
    obtain ⟨h1, h2⟩ := keys_call P s c
    obtain ⟨h3, h4⟩ := ih (s.call P c)
    exact ⟨h3.trans h1, h4.trans h2⟩

/-- The initiator sends with the key the responder receives with, and the other way round. -/
theorem deriveSessionKeys_swap {ss : Bytes32} {salt : Bytes} {I R : Session}
    (hI : deriveSessionKeys P ss true salt = .ok I) (hR : deriveSessionKeys P ss false salt = .ok R) :
    R.recvKey = I.sendKey ∧ I.recvKey = R.sendKey := by
  obtain ⟨k1, k2, hk, rfl⟩ := deriveSessionKeys_eq P hI
  obtain ⟨k1', k2', hk', rfl⟩ := deriveSessionKeys_eq P hR
  obtain ⟨h1, h2⟩ := List.append_inj (hk.trans hk'.symm) (by rw [k1.length_eq, k1'.length_eq])
  exact ⟨(BytesN.ext h1).symm, BytesN.ext h2⟩

/-- What `Encrypt` returns opens under a session whose receive key is the sender's send key. -/
theorem decrypt_encrypt (hos : P.OpenSeal) {s t : Session} (hk : t.recvKey = s.sendKey)
    {rnd p c : Bytes} (h : (s.encrypt P rnd p).1 = .ok c) :
    t.decrypt P c = (.ok p, { t with recvNonce := t.recvNonce + 1 }) := by
  obtain ⟨nonce, hn, -, rfl⟩ := encrypt_eq_ok P h
  exact decrypt_append P hn (hk ▸ hos _ _ _)

/-- The AEAD round trip between the two sessions `DeriveSessionKeys` gives the two roles, after
any calls on each, and what each call does to the counters. -/
theorem session_aead_round_trip (hos : P.OpenSeal) {ss : Bytes32} {salt : Bytes} {I R : Session}
    (hI : deriveSessionKeys P ss true salt = .ok I) (hR : deriveSessionKeys P ss false salt = .ok R) :
    (∀ callsI callsR rnd p c, ((I.callAll P callsI).encrypt P rnd p).1 = .ok c →
      ((R.callAll P callsR).decrypt P c).1 = .ok p) ∧
    (∀ callsI callsR rnd p c, ((R.callAll P callsR).encrypt P rnd p).1 = .ok c →
      ((I.callAll P callsI).decrypt P c).1 = .ok p) ∧
    (∀ (s : Session) rnd p, (s.encrypt P rnd p).2 = { s with sendNonce := s.sendNonce + 1 }) ∧
    (∀ (s : Session) c p s', s.decrypt P c = (.ok p, s') →
      s' = { s with recvNonce := s.recvNonce + 1 }) ∧
    (∀ (s : Session) c, (∃ e, (s.decrypt P c).1 = .error e) ↔
      c.length < 24 ∨ P.aeadOpen s.recvKey (c.take 24) (c.drop 24) = none) ∧
    (∀ (s : Session) c e s', s.decrypt P c = (.error e, s') → s' = s) := by
  obtain ⟨hRI, hIR⟩ := deriveSessionKeys_swap P hI hR
  refine ⟨fun callsI callsR _ _ _ h => ?_, fun callsI callsR _ _ _ h => ?_, encrypt_snd P,
    fun s c p s' h => ?_, decrypt_eq_error_iff P, fun s c e s' h => ?_⟩
  · rw [decrypt_encrypt P hos ?_ h]
    rw [(keys_callAll P R callsR).2, (keys_callAll P I callsI).1, hRI]
  · rw [decrypt_encrypt P hos ?_ h]
    rw [(keys_callAll P R callsR).1, (keys_callAll P I callsI).2, hIR]
  · rcases decrypt_cases P s c with ⟨e, he⟩ | ⟨q, hq⟩
    · rw [he] at h; cases h
    · rw [hq] at h; cases h; rfl
  · rcases decrypt_cases P s c with ⟨e', he⟩ | ⟨q, hq⟩
    · rw [he] at h; cases h; rfl
    · rw [hq] at h; cases h

theorem openSeal_saltEcho : saltEcho.OpenSeal := fun _ _ m => by simp [saltEcho]

theorem session_aead_round_trip_saltEcho :
    saltEcho.OpenSeal ∧ ∃ I R, deriveSessionKeys saltEcho onePoint true oneSalt = .ok I ∧
      deriveSessionKeys saltEcho onePoint false oneSalt = .ok R ∧
    ((∀ callsI callsR rnd p c, ((I.callAll saltEcho callsI).encrypt saltEcho rnd p).1 = .ok c →
      ((R.callAll saltEcho callsR).decrypt saltEcho c).1 = .ok p) ∧
    (∀ callsI callsR rnd p c, ((R.callAll saltEcho callsR).encrypt saltEcho rnd p).1 = .ok c →
      ((I.callAll saltEcho callsI).decrypt saltEcho c).1 = .ok p) ∧
    (∀ (s : Session) rnd p, (s.encrypt saltEcho rnd p).2 = { s with sendNonce := s.sendNonce + 1 }) ∧
    (∀ (s : Session) c p s', s.decrypt saltEcho c = (.ok p, s') →
      s' = { s with recvNonce := s.recvNonce + 1 }) ∧
    (∀ (s : Session) c, (∃ e, (s.decrypt saltEcho c).1 = .error e) ↔
      c.length < 24 ∨ saltEcho.aeadOpen s.recvKey (c.take 24) (c.drop 24) = none) ∧
    (∀ (s : Session) c e s', s.decrypt saltEcho c = (.error e, s') → s' = s)) :=
  ⟨openSeal_saltEcho, _, _, rfl, rfl,
    @session_aead_round_trip saltEcho openSeal_saltEcho onePoint oneSalt _ _ rfl rfl⟩

/-! ## Nonces -/

/-- `k` successive `Encrypt` calls on one session, each with the bytes its random read gets and
its plaintext: the results in order, and the session after. -/
def Session.encryptAll (s : Session) : List (Bytes × Bytes) → List (Except String Bytes) × Session
  | [] => ([], s)
  | (rnd, plaintext) :: calls =>
    let r := s.encrypt P rnd plaintext
    let rest := r.2.encryptAll calls
    (r.1 :: rest.1, rest.2)

theorem uint64_add_one_add (a : UInt64) (i : Nat) :
    a + 1 + UInt64.ofNat i = a + UInt64.ofNat (i + 1) := by
  apply UInt64.toNat.inj
  have ha := a.toBitVec.isLt
  show ((a.toNat + 1 % 2 ^ 64) % 2 ^ 64 + i % 2 ^ 64) % 2 ^ 64 = (a.toNat + (i + 1) % 2 ^ 64) % 2 ^ 64
  omega

theorem uint64_add_ofNat_inj (a : UInt64) {i j : Nat} (hi : i < 2 ^ 64) (hj : j < 2 ^ 64)
    (h : a + UInt64.ofNat i = a + UInt64.ofNat j) : i = j := by
  have ha := a.toBitVec.isLt
  have := congrArg UInt64.toNat h
  change (a.toNat + i % 2 ^ 64) % 2 ^ 64 = (a.toNat + j % 2 ^ 64) % 2 ^ 64 at this
  omega

theorem putUint64LE_inj {a b : UInt64} (h : putUint64LE a = putUint64LE b) : a = b := by
  have : putUint64 a = putUint64 b := List.reverse_injective h
  rw [← uint64_putUint64 a, this, uint64_putUint64]

/-- The counter halves of the nonces of successive `Encrypt` calls are the encodings of the
counter from its value at the start, one per call, skipping the calls whose random read failed. -/
theorem counters_encryptAll (s : Session) (calls : List (Bytes × Bytes)) :
    (((s.encryptAll P calls).1.filterMap Except.toOption).map (·.take 8)).Sublist
      ((List.range calls.length).map fun i => putUint64LE (s.sendNonce + UInt64.ofNat i)) := by
  induction calls generalizing s with
  | nil => exact .slnil
  | cons call calls ih =>
    obtain ⟨rnd, p⟩ := call
    have htail := ih (s.encrypt P rnd p).2
    rw [encrypt_snd] at htail
    simp only [uint64_add_one_add] at htail
    rw [List.length_cons, List.range_succ_eq_map, List.map_cons, List.map_map, Function.comp_def]
    cases hc : (s.encrypt P rnd p).1 with
    | error e =>
      have hstep : (s.encryptAll P ((rnd, p) :: calls)).1.filterMap Except.toOption =
          (Session.encryptAll P { s with sendNonce := s.sendNonce + 1 } calls).1.filterMap
            Except.toOption := by
        simp [Session.encryptAll, hc, Except.toOption]
      rw [hstep]
      exact htail.cons _
    | ok c =>
      obtain ⟨nonce, hn, h8, rfl⟩ := encrypt_eq_ok P hc
      have h0 : s.sendNonce + UInt64.ofNat 0 = s.sendNonce := UInt64.toNat.inj <| by
        have : s.sendNonce.toNat < 2 ^ 64 := s.sendNonce.toBitVec.isLt
        show (s.sendNonce.toNat + 0 % 2 ^ 64) % 2 ^ 64 = s.sendNonce.toNat
        omega
      have hstep : (s.encryptAll P ((rnd, p) :: calls)).1.filterMap Except.toOption =
          (nonce ++ P.aeadSeal s.sendKey nonce p) ::
            (Session.encryptAll P { s with sendNonce := s.sendNonce + 1 } calls).1.filterMap
              Except.toOption := by
        simp [Session.encryptAll, hc, Except.toOption]
      rw [hstep, List.map_cons, List.take_append_of_le_length (by omega), h8, h0]
      exact htail.cons₂ _

/-- At most `2^64` successive `Encrypt` calls on one session prefix pairwise distinct 24-byte
nonces to their outputs, whatever bytes the random reads get and whichever of them fail. -/
theorem encrypt_nonces_distinct (s : Session) (calls : List (Bytes × Bytes))
    (hk : calls.length ≤ 2 ^ 64) :
    (((s.encryptAll P calls).1.filterMap Except.toOption).map (·.take 24)).Nodup := by
  have hrange : ((List.range calls.length).map fun i =>
      putUint64LE (s.sendNonce + UInt64.ofNat i)).Nodup :=
    (List.nodup_range _).map_on fun i hi j hj h => uint64_add_ofNat_inj s.sendNonce
      (by simp at hi; omega) (by simp at hj; omega) (putUint64LE_inj h)
  refine List.Nodup.of_map (·.take 8) ?_
  rw [List.map_map]
  simpa [Function.comp_def, List.take_take] using (counters_encryptAll P s calls).nodup hrange

theorem encrypt_nonces_distinct_threeCalls :
    ([(List.replicate 16 7, [1]), ([], [2]), (List.replicate 16 7, [3])] :
      List (Bytes × Bytes)).length ≤ 2 ^ 64 ∧
    (((Session.encryptAll saltEcho ⟨onePoint, onePoint, 0, 0⟩
      [(List.replicate 16 7, [1]), ([], [2]), (List.replicate 16 7, [3])]).1.filterMap
        Except.toOption).map (·.take 24)).Nodup :=
  ⟨by decide, encrypt_nonces_distinct saltEcho _ _ (by decide)⟩

end Hydra
