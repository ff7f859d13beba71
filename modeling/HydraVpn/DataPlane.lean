import HydraVpn.Server.SharedSession

/-!
# The data plane, end to end

Each side's `tunReadLoop` reads a datagram from its TUN device, seals it with its session
(`sealDatagram`) and writes the frame; the peer's data loop (`handleConnection` on the server,
`receiveLoop` on the client) reads each frame with one 4096-byte `Read` and writes what `Decrypt`
returns to its TUN device. `sealAll` is successive iterations of a `tunReadLoop` whose TUN reads
succeed: an `Encrypt` whose random read comes up short writes no frame, and the loop goes on.

* `receiveFrame_sealDatagram`: a sealed frame fits one read, parses, and opens under a receive key
  equal to the sender's send key.
* `dataPlane_delivers`: over every sequence of datagrams, the peer's data loop writes to its TUN
  device exactly the datagrams whose `Encrypt` succeeded, in order, answers none and does not
  return.
* `dataPlane_drops`: when `Open` under the peer's receive key rejects everything the sender's key
  seals, the peer writes none of them and its session stays as it was.
* `receiveFrame_effects_of_recvKey`, `dataLoop_stateless`: `Decrypt` never compares the counter
  in a nonce with the receive counter, so on every run that does not return a data loop writes,
  frame by frame, what it would write for that frame alone: dropped, reordered and replayed frames
  go unnoticed.
-/

namespace Hydra

variable (P : Primitives)

/-- Successive iterations of a `tunReadLoop` on the datagrams its TUN reads return, each with the
bytes its `Encrypt` reads: the frames written, and the session after. -/
def sealAll (s : Session) (sessionID : UInt64) : List (Bytes × Bytes) → List Bytes × Session
  | [] => ([], s)
  | (datagram, rnd) :: calls =>
    match sealDatagram P s sessionID datagram rnd with
    | (.ok frame, s') =>
      let r := sealAll s' sessionID calls
      (frame :: r.1, r.2)
    | (.error _, s') => sealAll s' sessionID calls

/-- `Encrypt` returns a ciphertext exactly when its random read gets 16 bytes. -/
theorem encrypt_ok_iff (s : Session) (rnd p : Bytes) :
    (∃ c, (s.encrypt P rnd p).1 = .ok c) ↔ 16 ≤ rnd.length := by
  unfold Session.encrypt readFull
  by_cases h : 16 ≤ rnd.length
  · simp [h]
  · simp only [h, dif_neg, not_false_eq_true, iff_false]
    split
    · simp
    · rename_i heq; split_ifs at heq

/-- `sealDatagram` writes a frame exactly when the random read of its `Encrypt` gets 16 bytes: the
`Data` frame under the session id of what `Encrypt` returned. Either way the send counter moves
by one. -/
theorem sealDatagram_cases (s : Session) (sid : UInt64) (datagram rnd : Bytes) :
    (16 ≤ rnd.length ∧ ∃ c, (s.encrypt P rnd (tunRead datagram)).1 = .ok c ∧
      sealDatagram P s sid datagram rnd =
        (.ok (newPacket packetTypeData sid c).marshal, { s with sendNonce := s.sendNonce + 1 })) ∨
    (rnd.length < 16 ∧ ∃ e, sealDatagram P s sid datagram rnd =
      (.error e, { s with sendNonce := s.sendNonce + 1 })) := by
  have hs := encrypt_snd P s rnd (tunRead datagram)
  have hok := encrypt_ok_iff P s rnd (tunRead datagram)
  unfold sealDatagram
  rcases hE : s.encrypt P rnd (tunRead datagram) with ⟨_ | c, s'⟩ <;> rw [hE] at hs hok <;>
    subst hs
  · exact .inr ⟨by simpa using hok, _, rfl⟩
  · exact .inl ⟨hok.1 ⟨c, rfl⟩, c, rfl, rfl⟩

variable {P}

/-- A `Data` frame sealed by the sender fits one 4096-byte `Read`, parses, and opens under a
receive key equal to the sender's send key: the peer writes the datagram to its TUN device, moves
its receive counter by one, answers nothing and goes on. -/
theorem receiveFrame_sealDatagram (hos : P.OpenSeal) (hsl : P.SealLength) {s r : Session}
    (hk : r.recvKey = s.sendKey) {sid : UInt64} {datagram rnd c : Bytes}
    (hc : (s.encrypt P rnd (tunRead datagram)).1 = .ok c) (keepAliveReply : Option Bytes) :
    receiveFrame P r keepAliveReply (newPacket packetTypeData sid c).marshal =
      ⟨{ r with recvNonce := r.recvNonce + 1 }, some (tunRead datagram), none, false⟩ := by
  have hc' := length_of_encrypt P hsl (Prod.ext hc rfl)
  have ht : (tunRead datagram).length ≤ 2048 := List.length_take_le _ _
  rw [receiveFrame, List.take_of_length_le (by rw [length_marshal]; simp [newPacket, headerSize]; omega),
    unmarshalPacket_newPacket_of_le (by simp only [maxPacketSize]; omega)]
  simp only [newPacket, if_true, decrypt_encrypt P hos hk hc]

/-- The sender's `tunReadLoop` seals datagrams one after the other; the peer's data loop, whose
receive key is the sender's send key, reads each frame with one `Read`. It writes to its TUN
device exactly the datagrams whose `Encrypt` got its 16 random bytes, in order, answers none of
them, and does not return. -/
theorem dataPlane_delivers (hos : P.OpenSeal) (hsl : P.SealLength) (sid : UInt64)
    (keepAliveReply : Option Bytes) :
    ∀ (calls : List (Bytes × Bytes)) {s r : Session}, r.recvKey = s.sendKey →
      (dataLoop P r keepAliveReply ((sealAll P s sid calls).1.map .message)).1.map
          FrameOutcome.tunWrite =
        (calls.filter fun call => 16 ≤ call.2.length).map (fun call => some (tunRead call.1)) ∧
      (∀ o ∈ (dataLoop P r keepAliveReply ((sealAll P s sid calls).1.map .message)).1,
        o.reply = none) ∧
      (dataLoop P r keepAliveReply ((sealAll P s sid calls).1.map .message)).2 = false
  | [], _, _, _ => ⟨rfl, fun _ h => absurd h (List.not_mem_nil _), rfl⟩
  | (datagram, rnd) :: calls, s, r, hk => by
    rcases sealDatagram_cases P s sid datagram rnd with ⟨hr, c, hc, hs⟩ | ⟨hr, e, hs⟩
    · obtain ⟨h1, h2, h3⟩ := dataPlane_delivers hos hsl sid keepAliveReply calls
        (s := { s with sendNonce := s.sendNonce + 1 }) (r := { r with recvNonce := r.recvNonce + 1 }) hk
      simp only [sealAll, hs, List.map_cons, dataLoop, receiveFrame_sealDatagram hos hsl hk hc,
        Bool.false_eq_true, if_false, List.filter_cons, decide_eq_true hr, if_true, List.mem_cons,
        forall_eq_or_imp]
      exact ⟨by rw [h1], ⟨trivial, h2⟩, h3⟩
    · simp only [sealAll, hs, List.filter_cons, decide_eq_false (Nat.not_le.2 hr), Bool.false_eq_true,
        if_false]
      exact dataPlane_delivers hos hsl sid keepAliveReply calls hk

theorem sealLength_saltEcho : saltEcho.SealLength := fun _ _ m => by simp [saltEcho]

theorem dataPlane_delivers_zeroSession :
    saltEcho.OpenSeal ∧ saltEcho.SealLength ∧ zeroSession.recvKey = zeroSession.sendKey ∧
    ((dataLoop saltEcho zeroSession none ((sealAll saltEcho zeroSession 0
        [(datagramTo2, List.replicate 16 0)]).1.map .message)).1.map FrameOutcome.tunWrite =
      ([(datagramTo2, List.replicate 16 0)].filter fun call => 16 ≤ call.2.length).map
        (fun call => some (tunRead call.1)) ∧
    (∀ o ∈ (dataLoop saltEcho zeroSession none ((sealAll saltEcho zeroSession 0
        [(datagramTo2, List.replicate 16 0)]).1.map .message)).1, o.reply = none) ∧
    (dataLoop saltEcho zeroSession none ((sealAll saltEcho zeroSession 0
        [(datagramTo2, List.replicate 16 0)]).1.map .message)).2 = false) :=
  ⟨openSeal_saltEcho, sealLength_saltEcho, rfl,
    dataPlane_delivers openSeal_saltEcho sealLength_saltEcho 0 none _ rfl⟩

/-- A `Data` frame sealed under a send key that the peer's receive key does not open is dropped:
the peer's session stays as it was, and it writes nothing. -/
theorem receiveFrame_sealDatagram_rejected (hsl : P.SealLength) {s r : Session}
    (hrej : ∀ nonce m, P.aeadOpen r.recvKey nonce (P.aeadSeal s.sendKey nonce m) = none)
    {sid : UInt64} {datagram rnd c : Bytes} (hc : (s.encrypt P rnd (tunRead datagram)).1 = .ok c)
    (keepAliveReply : Option Bytes) :
    receiveFrame P r keepAliveReply (newPacket packetTypeData sid c).marshal =
      ⟨r, none, none, false⟩ := by
  have hc' := length_of_encrypt P hsl (Prod.ext hc rfl)
  have ht : (tunRead datagram).length ≤ 2048 := List.length_take_le _ _
  rw [receiveFrame, List.take_of_length_le (by rw [length_marshal]; simp [newPacket, headerSize]; omega),
    unmarshalPacket_newPacket_of_le (by simp only [maxPacketSize]; omega)]
  obtain ⟨nonce, hn, -, rfl⟩ := encrypt_eq_ok P hc
  simp only [newPacket, if_true, Session.decrypt, List.take_left' hn, List.drop_left' hn, hrej]
  rw [if_neg (by simp [hn])]

/-- When `Open` under the peer's receive key rejects everything the sender's send key seals, the
peer's data loop drops every frame of the sender's `tunReadLoop`: it writes nothing to its TUN
device, answers nothing, keeps its session and does not return. -/
theorem dataPlane_drops (hsl : P.SealLength) (sid : UInt64) (keepAliveReply : Option Bytes) :
    ∀ (calls : List (Bytes × Bytes)) {s r : Session},
      (∀ nonce m, P.aeadOpen r.recvKey nonce (P.aeadSeal s.sendKey nonce m) = none) →
      (∀ o ∈ (dataLoop P r keepAliveReply ((sealAll P s sid calls).1.map .message)).1,
        o = ⟨r, none, none, false⟩) ∧
      (dataLoop P r keepAliveReply ((sealAll P s sid calls).1.map .message)).2 = false
  | [], _, _, _ => ⟨fun _ h => absurd h (List.not_mem_nil _), rfl⟩
  | (datagram, rnd) :: calls, s, r, hrej => by
    rcases sealDatagram_cases P s sid datagram rnd with ⟨-, c, hc, hs⟩ | ⟨-, e, hs⟩
    · obtain ⟨h1, h2⟩ := dataPlane_drops hsl sid keepAliveReply calls
        (s := { s with sendNonce := s.sendNonce + 1 }) hrej
      simp only [sealAll, hs, List.map_cons, dataLoop,
        receiveFrame_sealDatagram_rejected hsl hrej hc, Bool.false_eq_true, if_false,
        List.mem_cons, forall_eq_or_imp]
      exact ⟨⟨trivial, h1⟩, h2⟩
    · simp only [sealAll, hs]
      exact dataPlane_drops hsl sid keepAliveReply calls hrej

/-- Primitives whose `Seal` appends the first 16 bytes of the key as its tag and whose `Open`
checks them, to evaluate the model under two keys that do not open each other's output. -/
def keyTag : Primitives where
  scalarMult _ _ := onePoint
  scalarBaseMult _ := onePoint
  hkdf _ salt _ := salt ++ salt
  aeadSeal k _ m := m ++ k.bytes.take 16
  aeadOpen k _ c :=
    if c.drop (c.length - 16) = k.bytes.take 16 then some (c.take (c.length - 16)) else none

theorem sealLength_keyTag : keyTag.SealLength := fun k _ m => by simp [keyTag, k.length_eq]

theorem keyTag_rejects (nonce m : Bytes) :
    keyTag.aeadOpen onePoint nonce (keyTag.aeadSeal (BytesN.zero 32) nonce m) = none := by
  have hd : (m ++ (BytesN.zero 32).bytes.take 16).drop
      ((m ++ (BytesN.zero 32).bytes.take 16).length - 16) = (BytesN.zero 32).bytes.take 16 := by
    rw [List.length_append, List.length_take, (BytesN.zero 32).length_eq,
      show min 16 32 = 16 from rfl, Nat.add_sub_cancel, List.drop_left]
  simp only [keyTag]
  rw [hd, if_neg (by decide)]

theorem dataPlane_drops_keyTag :
    keyTag.SealLength ∧
    (∀ nonce m, keyTag.aeadOpen (⟨BytesN.zero 32, onePoint, 0, 0⟩ : Session).recvKey nonce
      (keyTag.aeadSeal zeroSession.sendKey nonce m) = none) ∧
    ((∀ o ∈ (dataLoop keyTag ⟨BytesN.zero 32, onePoint, 0, 0⟩ none ((sealAll keyTag zeroSession 0
        [(datagramTo2, List.replicate 16 0)]).1.map .message)).1,
        o = ⟨⟨BytesN.zero 32, onePoint, 0, 0⟩, none, none, false⟩) ∧
      (dataLoop keyTag ⟨BytesN.zero 32, onePoint, 0, 0⟩ none ((sealAll keyTag zeroSession 0
        [(datagramTo2, List.replicate 16 0)]).1.map .message)).2 = false) :=
  ⟨sealLength_keyTag, keyTag_rejects, dataPlane_drops sealLength_keyTag 0 none _ keyTag_rejects⟩

variable (P)

/-! ## No state on the receive path -/

/-- `Decrypt` reads only the receive key. -/
theorem decrypt_fst_of_recvKey {s t : Session} (h : s.recvKey = t.recvKey) (c : Bytes) :
    (s.decrypt P c).1 = (t.decrypt P c).1 := by
  unfold Session.decrypt
  rw [h]
  split
  · rfl
  · split <;> rfl

theorem recvKey_receiveFrame (s : Session) (keepAliveReply : Option Bytes) (msg : Bytes) :
    (receiveFrame P s keepAliveReply msg).session.recvKey = s.recvKey := by
  unfold receiveFrame
  split
  · rfl
  · split_ifs
    · rcases decrypt_cases P s (‹Packet›.payload) with ⟨e, h⟩ | ⟨p, h⟩ <;> rw [h]
    all_goals rfl

/-- What a data loop writes to its TUN device and back, and whether it returns, depends on its
session only through the receive key. -/
theorem receiveFrame_effects_of_recvKey {s t : Session} (h : s.recvKey = t.recvKey)
    (keepAliveReply : Option Bytes) (msg : Bytes) :
    (receiveFrame P s keepAliveReply msg).tunWrite = (receiveFrame P t keepAliveReply msg).tunWrite ∧
    (receiveFrame P s keepAliveReply msg).reply = (receiveFrame P t keepAliveReply msg).reply ∧
    (receiveFrame P s keepAliveReply msg).ends = (receiveFrame P t keepAliveReply msg).ends := by
  unfold receiveFrame
  split
  · exact ⟨rfl, rfl, rfl⟩
  · split_ifs
    · have hd := decrypt_fst_of_recvKey P h (‹Packet›.payload)
      rcases hs : s.decrypt P (‹Packet›.payload) with ⟨_ | _, _⟩ <;>
        rcases ht : t.decrypt P (‹Packet›.payload) with ⟨_ | _, _⟩ <;> rw [hs, ht] at hd ⊢ <;>
        cases hd <;> exact ⟨rfl, rfl, rfl⟩
    all_goals exact ⟨rfl, rfl, rfl⟩

/-- Neither data loop keeps state that bears on what it delivers: `Decrypt` moves the receive
counter but never compares it with the counter in the nonce. On every sequence of messages none of
which makes it return, a loop writes to its TUN device and back, message by message, what its
first iteration would write for that message alone. A network that drops, reorders or replays
frames goes unnoticed, and a replayed frame is written again. -/
theorem dataLoop_stateless (sess : Session) (keepAliveReply : Option Bytes) (msgs : List Bytes)
    (hend : ∀ m ∈ msgs, (receiveFrame P sess keepAliveReply m).ends = false) :
    (dataLoop P sess keepAliveReply (msgs.map .message)).2 = false ∧
    (dataLoop P sess keepAliveReply (msgs.map .message)).1.map FrameOutcome.tunWrite =
      msgs.map (fun m => (receiveFrame P sess keepAliveReply m).tunWrite) ∧
    (dataLoop P sess keepAliveReply (msgs.map .message)).1.map FrameOutcome.reply =
      msgs.map (fun m => (receiveFrame P sess keepAliveReply m).reply) := by
  suffices h : ∀ s : Session, s.recvKey = sess.recvKey →
      (dataLoop P s keepAliveReply (msgs.map .message)).2 = false ∧
      (dataLoop P s keepAliveReply (msgs.map .message)).1.map FrameOutcome.tunWrite =
        msgs.map (fun m => (receiveFrame P sess keepAliveReply m).tunWrite) ∧
      (dataLoop P s keepAliveReply (msgs.map .message)).1.map FrameOutcome.reply =
        msgs.map (fun m => (receiveFrame P sess keepAliveReply m).reply) from h sess rfl
  induction msgs with
  | nil => exact fun _ _ => ⟨rfl, rfl, rfl⟩
  | cons m msgs ih =>
    intro s hk
    obtain ⟨hm, hend⟩ := List.forall_mem_cons.1 hend
    obtain ⟨hw, hr, he⟩ := receiveFrame_effects_of_recvKey P hk keepAliveReply m
    obtain ⟨h1, h2, h3⟩ := ih hend _ ((recvKey_receiveFrame P s keepAliveReply m).trans hk)
    simp only [List.map_cons, dataLoop, he, hm, Bool.false_eq_true, if_false, h1, h2, h3, hw, hr,
      and_self]

theorem dataLoop_stateless_replayed :
    let frame := (newPacket packetTypeData 0 (putUint64LE 0 ++ List.replicate 16 0 ++
      (tunRead datagramTo2 ++ List.replicate 16 0))).marshal
    (∀ m ∈ [frame, frame], (receiveFrame saltEcho zeroSession none m).ends = false) ∧
    (receiveFrame saltEcho zeroSession none frame).tunWrite = some (tunRead datagramTo2) ∧
    (dataLoop saltEcho zeroSession none ([frame, frame].map .message)).2 = false ∧
    (dataLoop saltEcho zeroSession none ([frame, frame].map .message)).1.map FrameOutcome.tunWrite =
      [frame, frame].map (fun m => (receiveFrame saltEcho zeroSession none m).tunWrite) ∧
    (dataLoop saltEcho zeroSession none ([frame, frame].map .message)).1.map FrameOutcome.reply =
      [frame, frame].map (fun m => (receiveFrame saltEcho zeroSession none m).reply) := by
  intro frame
  have hc : (zeroSession.encrypt saltEcho (List.replicate 16 0) (tunRead datagramTo2)).1 =
      .ok (putUint64LE 0 ++ List.replicate 16 0 ++ (tunRead datagramTo2 ++ List.replicate 16 0)) :=
    rfl
  have hr : receiveFrame saltEcho zeroSession none frame = _ :=
    receiveFrame_sealDatagram openSeal_saltEcho sealLength_saltEcho (r := zeroSession) rfl hc none
  have hend : ∀ m ∈ [frame, frame], (receiveFrame saltEcho zeroSession none m).ends = false := by
    simp only [List.mem_cons, List.mem_singleton, or_self, forall_eq, hr, List.not_mem_nil, or_false]
  exact ⟨hend, by rw [hr], dataLoop_stateless saltEcho zeroSession none _ hend⟩

end Hydra
