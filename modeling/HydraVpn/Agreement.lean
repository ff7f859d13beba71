import HydraVpn.Server.Delivery

/-!
# What a client holds after its handshake, against the server's table

A connection task writes its `HandshakeResponse` frame (`handshakeResponseFrame`) from the entry it
stores: its session id and the address `Allocate` gave it. The client's `performHandshake`
(`completeHandshake`) keeps the id and the two addresses of that frame.

* `completeHandshake_responseFrame_ok`: a client that completes its handshake on a task's response
  holds the task's id, the four bytes of its address and `10.8.0.1`.
* `handshake_agreement`: in every state of a run from `New` whose live ids are distinct, the
  client of a task that has stored its entry finds itself in the table under the id it holds, with
  the address it holds, and two clients of two such tasks hold different ids and different
  addresses.
* `receiveFrame_sessionID_bytes`, `dataLoop_ignores_sessionID`: neither data loop reads the
  session id a frame carries; a frame with any id, another client's included, is handled as the
  connection's own.
-/

namespace Hydra

variable (P : Primitives)

/-- The session id and the addresses `completeHandshake` keeps from a response frame. -/
theorem completeHandshake_responseFrame_ok {kp ckp : KeyPair} {sid : UInt64} {ip : UInt32}
    {pad : Bytes32} {res : HandshakeResult}
    (h : completeHandshake P ckp (handshakeResponseFrame kp sid ip pad) = .ok res) :
    res.sessionID = sid ∧ res.assignedIP.bytes = putUint32 ip ∧ res.serverIP = serverTunIP := by
  rw [handshakeResponseFrame, completeHandshake_responseFrame] at h
  obtain ⟨_, -, h⟩ := except_bind_eq_ok.1 h
  obtain ⟨_, -, h⟩ := except_bind_eq_ok.1 h
  cases h
  exact ⟨rfl, rfl, rfl⟩

variable {P} {kp : KeyPair}

/-- In every state of a run from `New` in which no two live tasks hold one session id: the client
that completed its handshake on the response of a task that has stored its entry (registered,
serving or closing) is stored in the table under the session id it holds, with the address it
holds, and holds `10.8.0.1` as the server's address; the client of another such task holds
another session id and another address. -/
theorem handshake_agreement {sts : List Server} (hrun : List.Chain (ServerStep P kp) newServer sts)
    (hd : ∀ st ∈ sts, IdsDistinct st) {st : Server} (hst : st ∈ sts) {t : Nat} {sid : UInt64}
    {ip : UInt32} (ht : (st.tasks t).entry = some (sid, ip)) {ckp : KeyPair} {pad : Bytes32}
    {res : HandshakeResult}
    (hres : completeHandshake P ckp (handshakeResponseFrame kp sid ip pad) = .ok res) :
    (st.sessions res.sessionID = some ⟨res.sessionID, t, uint32 res.assignedIP.bytes⟩ ∧
      res.serverIP = serverTunIP) ∧
    ∀ u ≠ t, ∀ {sid' : UInt64} {ip' : UInt32} {ckp' : KeyPair} {pad' : Bytes32}
      {res' : HandshakeResult}, (st.tasks u).entry = some (sid', ip') →
      completeHandshake P ckp' (handshakeResponseFrame kp sid' ip' pad') = .ok res' →
      res'.sessionID ≠ res.sessionID ∧ res'.assignedIP ≠ res.assignedIP := by
  obtain ⟨hsid, hip, hsrv⟩ := completeHandshake_responseFrame_ok P hres
  have hex := tableExact_chain .newServer hrun hd st hst
  have hi := serverReach_inv (reach_of_chain .init hrun st hst)
  refine ⟨⟨by rw [hsid, hip, uint32_putUint32]; exact hex t sid ip ht, hsrv⟩,
    fun u hu sid' ip' ckp' pad' res' hu' hres' => ?_⟩
  obtain ⟨hsid', hip', -⟩ := completeHandshake_responseFrame_ok P hres'
  constructor
  · rw [hsid, hsid']
    rintro rfl
    exact hu (hd st hst u t sid' (Phase.sessionID_of_entry hu') (Phase.sessionID_of_entry ht))
  · intro h
    have hip_eq : ip' = ip := by
      rw [← uint32_putUint32 ip', ← uint32_putUint32 ip, ← hip, ← hip', h]
    subst hip_eq
    exact hu (hi.holder_unique (Phase.clientIP_of_entry hu') (Phase.clientIP_of_entry ht))

theorem handshake_agreement_firstClient :
    ∃ sts st res, List.Chain (ServerStep saltEcho echoKeyPair) newServer sts ∧
      (∀ st ∈ sts, IdsDistinct st) ∧ st ∈ sts ∧
      (st.tasks 0).entry = some (0, serverSubnet.base + UInt32.ofNat (0 + 2)) ∧
      completeHandshake saltEcho echoKeyPair (handshakeResponseFrame echoKeyPair 0
        (serverSubnet.base + UInt32.ofNat (0 + 2)) (BytesN.zero 32)) = .ok res ∧
      ((st.sessions res.sessionID = some ⟨res.sessionID, 0, uint32 res.assignedIP.bytes⟩ ∧
        res.serverIP = serverTunIP) ∧
      ∀ u ≠ 0, ∀ {sid' : UInt64} {ip' : UInt32} {ckp' : KeyPair} {pad' : Bytes32}
        {res' : HandshakeResult}, (st.tasks u).entry = some (sid', ip') →
        completeHandshake saltEcho ckp' (handshakeResponseFrame echoKeyPair sid' ip' pad') =
          .ok res' →
        res'.sessionID ≠ res.sessionID ∧ res'.assignedIP ≠ res.assignedIP) := by
  obtain ⟨sts, st, hrun, hd, hst, ht, -⟩ := firstClient_run
  obtain ⟨res, hres⟩ : ∃ res, completeHandshake saltEcho echoKeyPair (handshakeResponseFrame
      echoKeyPair 0 (serverSubnet.base + UInt32.ofNat (0 + 2)) (BytesN.zero 32)) = .ok res := by
    rw [handshakeResponseFrame, completeHandshake_responseFrame]
    exact ⟨_, rfl⟩
  exact ⟨sts, st, res, hrun, hd, hst, ht, hres, handshake_agreement hrun hd hst ht hres⟩

/-! ## The session id of a frame -/

section Ids

variable (P) {hdr id rest : Bytes}

theorem drop_twelve_frame (hh : hdr.length = 4) (hi : id.length = 8) :
    (hdr ++ id ++ rest).drop 12 = rest :=
  List.drop_left' (by simp [hh, hi])

theorem getD_frame_lt (hh : hdr.length = 4) {i : Nat} (h : i < 4) :
    (hdr ++ id ++ rest).getD i 0 = hdr.getD i 0 := by
  rw [List.append_assoc, List.getD_eq_getElem?_getD, List.getElem?_append_left (by omega),
    List.getD_eq_getElem?_getD]

theorem slice_frame_length (hh : hdr.length = 4) (hi : id.length = 8) :
    slice (hdr ++ id ++ rest) 12 14 = rest.take 2 := by
  rw [slice, List.drop_take, drop_twelve_frame hh hi]

theorem drop_headerSize_frame (hh : hdr.length = 4) (hi : id.length = 8) :
    (hdr ++ id ++ rest).drop headerSize = rest.drop 2 := by
  rw [show headerSize = 12 + 2 from rfl, ← List.drop_drop, drop_twelve_frame hh hi]

theorem take_frame (hh : hdr.length = 4) (hi : id.length = 8) (n : Nat) :
    (hdr ++ id ++ rest).take (12 + n) = hdr ++ id ++ rest.take n := by
  rw [List.take_append_eq_append_take, List.take_of_length_le (by simp [hh, hi])]
  simp [hh, hi]

variable {id' : Bytes}

/-- `UnmarshalPacket` accepts a frame whatever its session id bytes. -/
theorem wellFramed_frame_iff (hh : hdr.length = 4) (hi : id.length = 8) (hi' : id'.length = 8) :
    WellFramed (hdr ++ id ++ rest) ↔ WellFramed (hdr ++ id' ++ rest) := by
  simp only [WellFramed, getD_frame_lt hh (by decide : 0 < 4), getD_frame_lt hh (by decide : 1 < 4),
    getD_frame_lt hh (by decide : 2 < 4), slice_frame_length hh hi, slice_frame_length hh hi',
    List.length_append, hi, hi']

theorem unmarshalPacket_error_of_not {b : Bytes} (h : ¬WellFramed b) :
    ∃ e, unmarshalPacket b = .error e := by
  cases hb : unmarshalPacket b with
  | error e => exact ⟨e, rfl⟩
  | ok q => exact absurd (wellFramed_of_unmarshalPacket hb) h

/-- Neither data loop reads the session id of a frame: with other id bytes, a message does the
same. -/
theorem receiveFrame_sessionID_bytes (sess : Session) (keepAliveReply : Option Bytes)
    (hh : hdr.length = 4) (hi : id.length = 8) (hi' : id'.length = 8) :
    receiveFrame P sess keepAliveReply (hdr ++ id ++ rest) =
      receiveFrame P sess keepAliveReply (hdr ++ id' ++ rest) := by
  rw [receiveFrame, receiveFrame, show 4096 = 12 + 4084 from rfl, take_frame hh hi,
    take_frame hh hi']
  by_cases hw : WellFramed (hdr ++ id ++ rest.take 4084)
  · rw [unmarshalPacket_of_wellFramed hw,
      unmarshalPacket_of_wellFramed ((wellFramed_frame_iff hh hi hi').1 hw)]
    dsimp only
    rw [getD_frame_lt hh (by decide : 3 < 4), getD_frame_lt hh (by decide : 3 < 4),
      drop_headerSize_frame hh hi, drop_headerSize_frame hh hi']
  · obtain ⟨e, he⟩ := unmarshalPacket_error_of_not hw
    obtain ⟨e', he'⟩ := unmarshalPacket_error_of_not (mt (wellFramed_frame_iff hh hi hi').2 hw)
    rw [he, he']

/-- Two events that differ at most in the eight session-id bytes of a message. -/
inductive SameButSessionID : LoopEvent → LoopEvent → Prop
  | refl (ev : LoopEvent) : SameButSessionID ev ev
  | message (hdr id id' rest : Bytes) : hdr.length = 4 → id.length = 8 → id'.length = 8 →
      SameButSessionID (.message (hdr ++ id ++ rest)) (.message (hdr ++ id' ++ rest))

/-- A data loop, the server's or the client's, never reads the session id of a frame: two runs
whose messages differ only in their session-id bytes do the same, message by message, and return
at the same point. A frame carrying any session id, another client's included, is handled as the
connection's own. -/
theorem dataLoop_ignores_sessionID (sess : Session) (keepAliveReply : Option Bytes)
    {events events' : List LoopEvent} (h : List.Forall₂ SameButSessionID events events') :
    dataLoop P sess keepAliveReply events = dataLoop P sess keepAliveReply events' := by
  induction h generalizing sess with
  | nil => rfl
  | @cons ev _ _ _ hx _ ih =>
    cases hx with
    | refl => cases ev <;> simp only [dataLoop, ih]
    | message hdr id id' rest hh hi hi' =>
      simp only [dataLoop, receiveFrame_sessionID_bytes P sess keepAliveReply hh hi hi', ih]

theorem dataLoop_ignores_sessionID_keepAlive :
    List.Forall₂ SameButSessionID [.message (keepAliveFrame 0)] [.message (keepAliveFrame 7)] ∧
      dataLoop saltEcho zeroSession (some (keepAliveFrame 1)) [.message (keepAliveFrame 0)] =
        dataLoop saltEcho zeroSession (some (keepAliveFrame 1)) [.message (keepAliveFrame 7)] :=
  have h : List.Forall₂ SameButSessionID [.message (keepAliveFrame 0)]
      [.message (keepAliveFrame 7)] :=
    .cons (.message [0x48, 0x56, 1, 4] (putUint64 0) (putUint64 7) (putUint16 0) rfl rfl rfl) .nil
  ⟨h, dataLoop_ignores_sessionID saltEcho _ _ h⟩

end Ids

end Hydra
