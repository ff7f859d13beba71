import HydraVpn.Crypto.SessionRuns
import HydraVpn.Server.Delivery

/-!
# A session shared without a lock

On the server, the data loop of `handleConnection` calls `Decrypt` on its client's `Session` while
`tunReadLoop`, holding only `sessionsMu.RLock`, calls `Encrypt` on the same `Session`; on the
client, `receiveLoop` and `tunReadLoop` do the same on `c.cryptoSession`. `Encrypt` reads the send
key and writes only `SendNonce`, `Decrypt` reads the receive key and writes only `RecvNonce`: the
two goroutines touch disjoint fields.

* `encrypt_decrypt_swap`: an `Encrypt` and a `Decrypt` return the same in either order and leave
  the same session.
* `shared_interleaving`: every interleaving of the two goroutines' calls returns to each goroutine
  what it gets, and leaves the session, as running all of `tunReadLoop`'s calls and then all of
  the data loop's: no counter update is lost.
* `serve_tunReadLoop_commute`: in the server's step relation, a `serve` step and a `tunReadLoop`
  step on the same task reach the same state in either order, and `tunReadLoop` writes the same
  frame.
-/

namespace Hydra

variable (P : Primitives)

/-! ## The two calls touch disjoint fields -/

namespace Session

/-- `Decrypt` does not read `SendNonce`. -/
theorem decrypt_with_sendNonce (s : Session) (n : UInt64) (c : Bytes) :
    ({ s with sendNonce := n } : Session).decrypt P c =
      ((s.decrypt P c).1, { (s.decrypt P c).2 with sendNonce := n }) := by
  unfold decrypt; split
  · rfl
  · cases h : P.aeadOpen s.recvKey (c.take 24) (c.drop 24) <;> simp only [h]

/-- `Encrypt` does not read `RecvNonce`. -/
theorem encrypt_with_recvNonce (s : Session) (n : UInt64) (rnd p : Bytes) :
    ({ s with recvNonce := n } : Session).encrypt P rnd p =
      ((s.encrypt P rnd p).1, { (s.encrypt P rnd p).2 with recvNonce := n }) := by
  unfold encrypt; split <;> rfl

/-- `Decrypt` writes only `RecvNonce`. -/
theorem decrypt_snd_eq (s : Session) (c : Bytes) :
    (s.decrypt P c).2 = { s with recvNonce := (s.decrypt P c).2.recvNonce } := by
  rcases decrypt_cases P s c with ⟨e, h⟩ | ⟨p, h⟩ <;> rw [h]

@[simp] theorem sendNonce_decrypt (s : Session) (c : Bytes) :
    (s.decrypt P c).2.sendNonce = s.sendNonce := by
  rw [decrypt_snd_eq]

end Session

/-- An `Encrypt` and a `Decrypt` in either order: each returns the same, and the session after
both is the same. -/
theorem encrypt_decrypt_swap (s : Session) (rnd p c : Bytes) :
    ((s.decrypt P c).2.encrypt P rnd p).1 = (s.encrypt P rnd p).1 ∧
      (s.encrypt P rnd p).2.decrypt P c =
        ((s.decrypt P c).1, ((s.decrypt P c).2.encrypt P rnd p).2) := by
  have hd := Session.decrypt_with_sendNonce P s (s.sendNonce + 1) c
  rcases decrypt_cases P s c with ⟨e, h⟩ | ⟨q, h⟩ <;> rw [h] at hd ⊢ <;>
    simp only [encrypt_snd, hd, Session.encrypt_with_recvNonce, and_self]

/-! ## Every interleaving -/

/-- The goroutine a call comes from: `Encrypt` from `tunReadLoop`, `Decrypt` from the data
loop. -/
def SessionCall.isEncrypt : SessionCall → Bool
  | .encrypt _ _ => true
  | .decrypt _ => false

@[simp] theorem SessionCall.isEncrypt_encrypt (rnd p : Bytes) : (encrypt rnd p).isEncrypt = true :=
  rfl

@[simp] theorem SessionCall.isEncrypt_decrypt (c : Bytes) : (decrypt c).isEncrypt = false := rfl

/-- The calls of the two goroutines on one session in the order they happen: what each `Encrypt`
returned, what each `Decrypt` returned, and the session after. -/
def Session.shared (s : Session) :
    List SessionCall → List (Except String Bytes) × List (Except String Bytes) × Session
  | [] => ([], [], s)
  | .encrypt rnd p :: calls =>
    let r := s.encrypt P rnd p
    let rest := r.2.shared calls
    (r.1 :: rest.1, rest.2)
  | .decrypt c :: calls =>
    let r := s.decrypt P c
    let rest := r.2.shared calls
    (rest.1, r.1 :: rest.2.1, rest.2.2)

/-- A `Decrypt` after a run of `Encrypt` calls can be made first. -/
theorem shared_encrypts_decrypt (c : Bytes) :
    ∀ (s : Session) (E rest : List SessionCall), (∀ x ∈ E, x.isEncrypt) →
      s.shared P (E ++ .decrypt c :: rest) = s.shared P (.decrypt c :: (E ++ rest))
  | _, [], _, _ => rfl
  | s, .encrypt rnd p :: E, rest, hE => by
    have ih := shared_encrypts_decrypt c (s.encrypt P rnd p).2 E rest
      fun x hx => hE x (.tail _ hx)
    obtain ⟨h1, h2⟩ := encrypt_decrypt_swap P s rnd p c
    rw [List.cons_append, List.cons_append, Session.shared, ih]
    simp only [Session.shared, h2, h1]
  | _, .decrypt _ :: _, _, hE => absurd (hE _ (.head _)) Bool.false_ne_true

/-- Whatever the order in which `tunReadLoop`'s `Encrypt` calls and the data loop's `Decrypt`
calls reach the shared session, each call returns what it returns when all `Encrypt` calls run
first, and the session ends the same. -/
theorem shared_interleaving (s : Session) (calls : List SessionCall) :
    s.shared P calls =
      s.shared P (calls.filter SessionCall.isEncrypt ++ calls.filter fun x => !x.isEncrypt) := by
  induction calls generalizing s with
  | nil => rfl
  | cons call calls ih =>
    cases call with
    | encrypt rnd p =>
      simp only [List.filter_cons, SessionCall.isEncrypt_encrypt, Bool.not_true,
        Bool.false_eq_true, ↓reduceIte]
      rw [List.cons_append, Session.shared, Session.shared, ih]
    | decrypt c =>
      simp only [List.filter_cons, SessionCall.isEncrypt_decrypt, Bool.not_false,
        Bool.false_eq_true, ↓reduceIte]
      rw [shared_encrypts_decrypt P c _ _ _ fun x hx => List.of_mem_filter hx]
      simp only [Session.shared, ih]

/-! ## The server's `serve` and `tunReadLoop` steps -/

@[simp] theorem Server.setTask_tasks_self (st : Server) (t : Nat) (ph : Phase) :
    (st.setTask t ph).tasks t = ph :=
  Function.update_same _ _ _

@[simp] theorem Server.setTask_setTask (st : Server) (t : Nat) (ph ph' : Phase) :
    (st.setTask t ph).setTask t ph' = st.setTask t ph' := by
  simp only [Server.setTask, Function.update_idem]

/-- What `sealDatagram` does to the session is what its `Encrypt` does. -/
@[simp] theorem sealDatagram_snd (s : Session) (sid : UInt64) (datagram rnd : Bytes) :
    (sealDatagram P s sid datagram rnd).2 = { s with sendNonce := s.sendNonce + 1 } := by
  rw [← encrypt_snd P s rnd (tunRead datagram), sealDatagram]
  split <;> rename_i h <;> rw [h]

/-- The frame `sealDatagram` returns does not depend on the receive counter. -/
theorem sealDatagram_with_recvNonce (s : Session) (n sid : UInt64) (datagram rnd : Bytes) :
    (sealDatagram P { s with recvNonce := n } sid datagram rnd).1 =
      (sealDatagram P s sid datagram rnd).1 := by
  unfold sealDatagram
  rw [Session.encrypt_with_recvNonce]
  cases s.encrypt P rnd (tunRead datagram) with
  | mk r _ => cases r <;> rfl

/-- The data loop's iteration does not read the send counter. -/
theorem serveFrame_with_sendNonce (s : Session) (n : UInt64) (msg : Bytes) :
    serveFrame P { s with sendNonce := n } msg =
      (serveFrame P s msg).map fun s' => { s' with sendNonce := n } := by
  unfold serveFrame
  cases unmarshalPacket (msg.take 4096) with
  | error _ => rfl
  | ok packet =>
    simp only
    split_ifs <;> simp only [Session.decrypt_with_sendNonce, Option.map_some', Option.map_none']

/-- The data loop's iteration writes only the receive counter. -/
theorem serveFrame_eq_some {s s' : Session} {msg : Bytes} (h : serveFrame P s msg = some s') :
    s' = s ∨ ∃ c, s' = (s.decrypt P c).2 := by
  unfold serveFrame at h
  split at h
  · exact .inl (Option.some_injective _ h).symm
  · split_ifs at h <;> cases h
    · exact .inr ⟨_, rfl⟩
    · exact .inl rfl

/-- A `serve` step and a seal of `tunReadLoop` on the task's phase commute. -/
theorem servePhase_seal (sess : Session) (sid : UInt64) (ip : UInt32) (msg : Bytes) (sid' : UInt64)
    (datagram rnd : Bytes) :
    (servePhase P sess sid ip msg).mapSession (fun s => (sealDatagram P s sid' datagram rnd).2) =
      servePhase P (sealDatagram P sess sid' datagram rnd).2 sid ip msg := by
  simp only [sealDatagram_snd]
  unfold servePhase
  rw [serveFrame_with_sendNonce P sess (sess.sendNonce + 1)]
  cases h : serveFrame P sess msg with
  | none => rfl
  | some s' =>
    have : s'.sendNonce = sess.sendNonce := by
      rcases serveFrame_eq_some P h with rfl | ⟨c, rfl⟩ <;> simp
    simp only [Option.map_some', Phase.mapSession, this]

variable {P} {kp : KeyPair}

/-- The data loop of a task and `tunReadLoop` sealing a datagram for the same task, from any
state: a `serve` step then the `tunReadLoop` step, or the other way round, reach the same state,
and the frame `tunReadLoop` writes is the same. -/
theorem serve_tunReadLoop_commute {st : Server} {t : Nat} {sess : Session} {sid : UInt64}
    {ip : UInt32} (ht : st.tasks t = .established sess sid ip) {sid' : UInt64} {e : ClientSession}
    (he : st.sessions sid' = some e) (ho : e.owner = t) {datagram : Bytes}
    (hlen : 20 ≤ (tunRead datagram).length) (hdst : e.assignedIP = destIP datagram)
    (msg rnd : Bytes) :
    let sealing : Session → Session := fun s => (sealDatagram P s e.id datagram rnd).2
    let both := st.setTask t (servePhase P (sealing sess) sid ip msg)
    (ServerStep P kp st (st.setTask t (servePhase P sess sid ip msg)) ∧
      ServerStep P kp (st.setTask t (servePhase P sess sid ip msg)) both) ∧
    (ServerStep P kp st (st.setTask t (.established (sealing sess) sid ip)) ∧
      ServerStep P kp (st.setTask t (.established (sealing sess) sid ip)) both) ∧
    ∀ s', serveFrame P sess msg = some s' →
      (sealDatagram P s' e.id datagram rnd).1 = (sealDatagram P sess e.id datagram rnd).1 := by
  subst ho
  refine ⟨⟨.serve msg ht, ?_⟩, ⟨?_, ?_⟩, fun s' hs' => ?_⟩
  · have h := (ServerStep.tunReadLoop datagram rnd he hlen hdst :
      ServerStep P kp (st.setTask e.owner (servePhase P sess sid ip msg)) _)
    rwa [Server.setTask_tasks_self, Server.setTask_setTask, servePhase_seal] at h
  · have h := (ServerStep.tunReadLoop datagram rnd he hlen hdst : ServerStep P kp st _)
    rwa [ht] at h
  · have h := (ServerStep.serve msg (Server.setTask_tasks_self _ _ _) :
      ServerStep P kp (st.setTask e.owner (.established (sealDatagram P sess e.id datagram rnd).2
        sid ip)) _)
    rwa [Server.setTask_setTask] at h
  · rcases serveFrame_eq_some P hs' with rfl | ⟨c, rfl⟩
    · rfl
    · rw [Session.decrypt_snd_eq, sealDatagram_with_recvNonce]

/-- A server whose task 0 serves the client at `10.8.0.2` under session id 0. -/
def servingTo2 : Server :=
  { sessions := Function.update (fun _ => none) 0 (some ⟨0, 0, destIP datagramTo2⟩)
    ipPool := newIPPool serverSubnet
    tasks := Function.update (fun _ => .idle) 0 (.established zeroSession 0 (destIP datagramTo2)) }

theorem serve_tunReadLoop_commute_servingTo2 :
    let sealing : Session → Session := fun s => (sealDatagram saltEcho s 0 datagramTo2 []).2
    let both := servingTo2.setTask 0
      (servePhase saltEcho (sealing zeroSession) 0 (destIP datagramTo2) [])
    (ServerStep saltEcho echoKeyPair servingTo2
        (servingTo2.setTask 0 (servePhase saltEcho zeroSession 0 (destIP datagramTo2) [])) ∧
      ServerStep saltEcho echoKeyPair
        (servingTo2.setTask 0 (servePhase saltEcho zeroSession 0 (destIP datagramTo2) [])) both) ∧
    (ServerStep saltEcho echoKeyPair servingTo2
        (servingTo2.setTask 0 (.established (sealing zeroSession) 0 (destIP datagramTo2))) ∧
      ServerStep saltEcho echoKeyPair
        (servingTo2.setTask 0 (.established (sealing zeroSession) 0 (destIP datagramTo2))) both) ∧
    ∀ s', serveFrame saltEcho zeroSession [] = some s' →
      (sealDatagram saltEcho s' 0 datagramTo2 []).1 =
        (sealDatagram saltEcho zeroSession 0 datagramTo2 []).1 :=
  serve_tunReadLoop_commute rfl (rfl : servingTo2.sessions 0 = some ⟨0, 0, destIP datagramTo2⟩) rfl
    (by decide) rfl [] []

end Hydra
