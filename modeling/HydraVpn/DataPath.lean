import HydraVpn.Server.Tasks

/-!
# The data loops

Once the handshake is done each side reads frames in a loop: the server in the rest of
`Server.handleConnection`, the client in `Client.receiveLoop`. The two loop bodies differ only in
the answer to a `KeepAlive`, so they are one function, `receiveFrame`, with that answer as a
parameter. The server's `tunReadLoop` scans the session table for the entry whose address is a
datagram's destination.

* `receiveFrame_of_dropped`: a message that does not parse, a `Data` frame that does not decrypt
  and a frame of another type change nothing, write nothing and do not end the loop.
* `serveFrame_eq`: the `serve` step of the server's step relation runs the same body.
* `dataLoop_ends_iff`: a data loop returns only on a cancellation, a `Read` error or a parsed
  `Disconnect`.
* `malformed_input_dropped`: both loops, and the server's state, over every sequence of events.
* `tunScan_of_unique`, `tunScan_of_none`: with distinct addresses the scan meets at most one
  matching entry.
* `keyedByAddr_find`: in a state that keeps the table invariant, the first entry with an address
  in any enumeration of the table is the table keyed by address.
* `tunReadLoopBody_eq_tunLookup`: over a table that keeps the invariant, the scan over any
  iteration order of the table does what one lookup in a map keyed by address does.
* `mem_tunLookup`: the lookup's one send goes to the entry at the destination and carries the
  `Data` frame of `Encrypt` under that entry's id.
-/

namespace Hydra

variable (P : Primitives)

/-! ## Receiving frames -/

/-- What one iteration of a data loop does with the bytes a `Read` returned: the crypto session
after, the plaintext written to the TUN device, the frame written back, and whether the loop
returns. -/
structure FrameOutcome where
  session : Session
  tunWrite : Option Bytes
  reply : Option Bytes
  ends : Bool
  deriving DecidableEq, Repr

/-- One iteration of a data loop on the bytes `msg` a `Read` into the 4096-byte buffer returned,
answering a `KeepAlive` with `keepAliveReply`. -/
def receiveFrame (sess : Session) (keepAliveReply : Option Bytes) (msg : Bytes) : FrameOutcome :=
  match unmarshalPacket (msg.take 4096) with
  | .error _ => ⟨sess, none, none, false⟩
  | .ok packet =>
    if packet.header.type = packetTypeData then
      match sess.decrypt P packet.payload with
      | (.ok plaintext, s') => ⟨s', some plaintext, none, false⟩
      | (.error _, s') => ⟨s', none, none, false⟩
    else if packet.header.type = packetTypeKeepAlive then ⟨sess, none, keepAliveReply, false⟩
    else if packet.header.type = packetTypeDisconnect then ⟨sess, none, none, true⟩
    else ⟨sess, none, none, false⟩

/-- The data loop of `Server.handleConnection`: a `KeepAlive` is answered with one. -/
def serverFrame (sess : Session) (sessionID : UInt64) (msg : Bytes) : FrameOutcome :=
  receiveFrame P sess (some (keepAliveFrame sessionID)) msg

/-- `Client.receiveLoop`: a `KeepAlive` needs no answer. -/
def clientFrame (sess : Session) (msg : Bytes) : FrameOutcome :=
  receiveFrame P sess none msg

/-- A message the data loops drop: `UnmarshalPacket` rejects it, or it parses as a `Data` frame
whose payload `Decrypt` rejects, or as a frame whose type is not `Data`, `KeepAlive` or
`Disconnect`. -/
def Dropped (sess : Session) (msg : Bytes) : Prop :=
  (∃ e, unmarshalPacket (msg.take 4096) = .error e) ∨
  ∃ packet, unmarshalPacket (msg.take 4096) = .ok packet ∧
    ((packet.header.type = packetTypeData ∧ ∃ e, (sess.decrypt P packet.payload).1 = .error e) ∨
      (packet.header.type ≠ packetTypeData ∧ packet.header.type ≠ packetTypeKeepAlive ∧
        packet.header.type ≠ packetTypeDisconnect))

theorem receiveFrame_of_dropped {sess : Session} {msg : Bytes} (h : Dropped P sess msg)
    (keepAliveReply : Option Bytes) :
    receiveFrame P sess keepAliveReply msg = ⟨sess, none, none, false⟩ := by
  rcases h with ⟨e, he⟩ | ⟨packet, hp, ⟨hd, e, he⟩ | ⟨hd, hk, hx⟩⟩
  · rw [receiveFrame, he]
  · obtain ⟨e', hdec⟩ : ∃ e', sess.decrypt P packet.payload = (.error e', sess) := by
      rcases decrypt_cases P sess packet.payload with h' | ⟨p, h'⟩
      · exact h'
      · rw [h'] at he; cases he
    rw [receiveFrame, hp]
    simp only [hd, if_true, hdec]
  · rw [receiveFrame, hp]
    simp only [hd, hk, hx, if_false]

/-- A data loop returns on a message exactly when it parses as a `Disconnect` frame. -/
theorem receiveFrame_ends_iff (sess : Session) (keepAliveReply : Option Bytes) (msg : Bytes) :
    (receiveFrame P sess keepAliveReply msg).ends = true ↔
      ∃ packet, unmarshalPacket (msg.take 4096) = .ok packet ∧
        packet.header.type = packetTypeDisconnect := by
  unfold receiveFrame
  cases unmarshalPacket (msg.take 4096) with
  | error e => simp
  | ok packet =>
    simp only [Except.ok.injEq, exists_eq_left']
    split_ifs with hd hk hx
    · rcases sess.decrypt P packet.payload with ⟨_ | _, _⟩ <;> simp [hd, packetTypeData,
        packetTypeDisconnect]
    · simp [hk, packetTypeKeepAlive, packetTypeDisconnect]
    · simp [hx]
    · simp [hx]

/-- The server's `serve` step runs `serverFrame`: its task returns when the frame ends the loop,
and otherwise keeps the session after the frame. -/
theorem serveFrame_eq (sess : Session) (sessionID : UInt64) (msg : Bytes) :
    serveFrame P sess msg = if (serverFrame P sess sessionID msg).ends then none
      else some (serverFrame P sess sessionID msg).session := by
  unfold serveFrame serverFrame receiveFrame
  cases unmarshalPacket (msg.take 4096) with
  | error e => rfl
  | ok packet =>
    dsimp only
    by_cases hd : packet.header.type = packetTypeData
    · rcases sess.decrypt P packet.payload with ⟨_ | _, _⟩ <;> simp [hd]
    · by_cases hx : packet.header.type = packetTypeDisconnect
      · simp [hd, hx, packetTypeData, packetTypeKeepAlive, packetTypeDisconnect]
      · by_cases hk : packet.header.type = packetTypeKeepAlive
        · simp [hk, packetTypeData, packetTypeKeepAlive, packetTypeDisconnect]
        · simp [hd, hx, hk]

/-- What a data loop meets at the top of an iteration: its context cancelled, a `Read` error, or
the bytes a `Read` returned. -/
inductive LoopEvent
  | cancelled
  | readError
  | message (msg : Bytes)
  deriving DecidableEq, Repr

/-- An event on which a data loop returns. -/
def LoopEvent.Ends : LoopEvent → Prop
  | .cancelled | .readError => True
  | .message msg => ∃ packet, unmarshalPacket (msg.take 4096) = .ok packet ∧
      packet.header.type = packetTypeDisconnect

/-- A data loop over successive events: the outcomes of the messages it handles, and whether it
has returned. -/
def dataLoop (sess : Session) (keepAliveReply : Option Bytes) :
    List LoopEvent → List FrameOutcome × Bool
  | [] => ([], false)
  | .cancelled :: _ => ([], true)
  | .readError :: _ => ([], true)
  | .message msg :: events =>
    let o := receiveFrame P sess keepAliveReply msg
    if o.ends then ([o], true)
    else
      let rest := dataLoop o.session keepAliveReply events
      (o :: rest.1, rest.2)

theorem dataLoop_ends_iff (sess : Session) (keepAliveReply : Option Bytes)
    (events : List LoopEvent) :
    (dataLoop P sess keepAliveReply events).2 = true ↔ ∃ ev ∈ events, ev.Ends := by
  induction events generalizing sess with
  | nil => exact ⟨fun h => (by cases h), fun ⟨_, h, _⟩ => (by cases h)⟩
  | cons ev events ih =>
    rw [List.exists_mem_cons_iff]
    cases ev with
    | cancelled => exact iff_of_true rfl (.inl trivial)
    | readError => exact iff_of_true rfl (.inl trivial)
    | message msg =>
      have hends := receiveFrame_ends_iff P sess keepAliveReply msg
      by_cases h : (receiveFrame P sess keepAliveReply msg).ends = true
      · exact iff_of_true (by simp only [dataLoop, h, if_true]) (.inl (hends.1 h))
      · simp only [dataLoop, h, Bool.false_eq_true, if_false, ih]
        exact ⟨.inr, fun h' => h'.resolve_left fun hm => h (hends.2 hm)⟩

/-- A dropped message leaves the rest of the run as if it had not been read. -/
theorem dataLoop_dropped {sess : Session} {msg : Bytes} (h : Dropped P sess msg)
    (keepAliveReply : Option Bytes) (events : List LoopEvent) :
    dataLoop P sess keepAliveReply (.message msg :: events) =
      (⟨sess, none, none, false⟩ :: (dataLoop P sess keepAliveReply events).1,
        (dataLoop P sess keepAliveReply events).2) := by
  simp only [dataLoop, receiveFrame_of_dropped P h, Bool.false_eq_true, if_false]

/-- On a dropped message the server's `serve` step leaves the whole server state as it was: the
task stays in its data loop with the same crypto session, its entry stays in the table and its
address stays allocated. -/
theorem serve_of_dropped {st : Server} {t : Nat} {sess : Session} {sid : UInt64} {ip : UInt32}
    {msg : Bytes} (ht : st.tasks t = .established sess sid ip) (h : Dropped P sess msg) :
    st.setTask t (servePhase P sess sid ip msg) = st := by
  have hphase : servePhase P sess sid ip msg = .established sess sid ip := by
    rw [servePhase, serveFrame_eq P sess sid, serverFrame, receiveFrame_of_dropped P h]
    rfl
  rw [hphase, ← ht, Server.setTask, Function.update_eq_self]

/-- Malformed input on an established connection: in the server's data loop and in the client's
`receiveLoop`, a dropped message changes no crypto state, writes nothing to the TUN device or the
connection and does not end the loop, which goes on with the next event as if the message had not
been read; on the server it leaves the whole state (the task, its table entry and its address) as
it was; and a loop returns only on a cancellation, a `Read` error or a parsed `Disconnect`. -/
theorem malformed_input_dropped :
    (∀ sess sessionID msg, Dropped P sess msg →
      serverFrame P sess sessionID msg = ⟨sess, none, none, false⟩) ∧
    (∀ sess msg, Dropped P sess msg → clientFrame P sess msg = ⟨sess, none, none, false⟩) ∧
    (∀ sess keepAliveReply msg events, Dropped P sess msg →
      dataLoop P sess keepAliveReply (.message msg :: events) =
        (⟨sess, none, none, false⟩ :: (dataLoop P sess keepAliveReply events).1,
          (dataLoop P sess keepAliveReply events).2)) ∧
    (∀ (st : Server) t sess sid ip msg, st.tasks t = .established sess sid ip →
      Dropped P sess msg → st.setTask t (servePhase P sess sid ip msg) = st) ∧
    (∀ sess keepAliveReply events,
      (dataLoop P sess keepAliveReply events).2 = true ↔ ∃ ev ∈ events, ev.Ends) :=
  ⟨fun _ _ _ h => receiveFrame_of_dropped P h _, fun _ _ h => receiveFrame_of_dropped P h _,
    fun _ _ _ _ h => dataLoop_dropped P h _ _, fun _ _ _ _ _ _ ht h => serve_of_dropped P ht h,
    dataLoop_ends_iff P⟩

/-! ## `Server.tunReadLoop` -/

/-- One `Encrypt` call of `tunReadLoop`'s scan: the entry whose crypto session it used, that
session after the call, and the frame written to the entry's connection (none when `Encrypt`
failed). -/
structure TunSend where
  entry : ClientSession
  session : Session
  frame : Option Bytes
  deriving DecidableEq, Repr

/-- The `range s.sessions` loop of `tunReadLoop` for one datagram, over the entries in the order
the range visits them, with each entry's crypto session (`sessionOf`) and the random bytes of
successive `Encrypt` calls: an entry whose address is the destination has its session seal the
datagram; on an `Encrypt` error the scan goes on, otherwise it writes the frame and stops. -/
def tunScan (sessionOf : ClientSession → Session) (datagram : Bytes) :
    List Bytes → List ClientSession → List TunSend
  | _, [] => []
  | rnds, e :: es =>
    if e.assignedIP = destIP datagram then
      match sealDatagram P (sessionOf e) e.id datagram (rnds.headD []) with
      | (.ok frame, s') => [⟨e, s', some frame⟩]
      | (.error _, s') => ⟨e, s', none⟩ :: tunScan sessionOf datagram rnds.tail es
    else tunScan sessionOf datagram rnds es

/-- The body of `tunReadLoop` after a TUN read of `datagram`, with the table's ids in the order
`range` visits them: a datagram shorter than an IPv4 header is skipped. -/
def tunReadLoopBody (st : Server) (sessionOf : ClientSession → Session) (datagram : Bytes)
    (rnds : List Bytes) (order : List UInt64) : List TunSend :=
  if (tunRead datagram).length < 20 then []
  else tunScan P sessionOf datagram rnds (order.filterMap st.sessions)

/-- `byAddr` is the table keyed by assigned address. -/
def KeyedByAddr (st : Server) (byAddr : UInt32 → Option ClientSession) : Prop :=
  ∀ ip e, byAddr ip = some e ↔ (∃ sid, st.sessions sid = some e) ∧ e.assignedIP = ip

/-- The same body over a map keyed by assigned address: one lookup, and at most one `Encrypt`,
whose frame goes to the entry found. -/
def tunLookup (sessionOf : ClientSession → Session) (byAddr : UInt32 → Option ClientSession)
    (datagram : Bytes) (rnds : List Bytes) : List TunSend :=
  if (tunRead datagram).length < 20 then []
  else
    match byAddr (destIP datagram) with
    | none => []
    | some e =>
      let r := sealDatagram P (sessionOf e) e.id datagram (rnds.headD [])
      [⟨e, r.2, r.1.toOption⟩]

section Scan

variable (sessionOf : ClientSession → Session) (datagram : Bytes)

theorem tunScan_of_none {es : List ClientSession} (h : ∀ e ∈ es, e.assignedIP ≠ destIP datagram)
    (rnds : List Bytes) : tunScan P sessionOf datagram rnds es = [] := by
  induction es generalizing rnds with
  | nil => rfl
  | cons e es ih =>
    rw [tunScan, if_neg (h e (.head _))]
    exact ih (fun x hx => h x (.tail _ hx)) rnds

/-- When `e` is the one entry with the destination address, the scan makes one `Encrypt` call,
with `e`'s session, whether or not it fails. -/
theorem tunScan_of_unique {es : List ClientSession} {e : ClientSession} (hnd : es.Nodup)
    (he : e ∈ es) (hip : e.assignedIP = destIP datagram)
    (huniq : ∀ x ∈ es, x.assignedIP = destIP datagram → x = e) (rnds : List Bytes) :
    tunScan P sessionOf datagram rnds es =
      [⟨e, (sealDatagram P (sessionOf e) e.id datagram (rnds.headD [])).2,
        (sealDatagram P (sessionOf e) e.id datagram (rnds.headD [])).1.toOption⟩] := by
  induction es generalizing rnds with
  | nil => cases he
  | cons x es ih =>
    obtain ⟨hx, hnd⟩ := List.nodup_cons.1 hnd
    by_cases hxe : x = e
    · subst hxe
      have hrest : ∀ y ∈ es, y.assignedIP ≠ destIP datagram := fun y hy hyip =>
        hx (huniq y (.tail _ hy) hyip ▸ hy)
      rw [tunScan, if_pos hip]
      rcases sealDatagram P (sessionOf x) x.id datagram (rnds.headD []) with ⟨_ | _, _⟩
      · simp [tunScan_of_none P sessionOf datagram hrest, Except.toOption]
      · rfl
    · rw [tunScan, if_neg fun h => hxe (huniq x (.head _) h)]
      exact ih hnd (List.mem_of_ne_of_mem (Ne.symm hxe) he)
        (fun y hy => huniq y (.tail _ hy)) rnds

end Scan

section Enumeration

variable {st : Server} {order : List UInt64}

/-- Over an enumeration of the table's ids, `range` visits the table's entries. -/
theorem mem_tableOrder (henum : ∀ sid, sid ∈ order ↔ st.sessions sid ≠ none) (e : ClientSession) :
    e ∈ order.filterMap st.sessions ↔ ∃ sid, st.sessions sid = some e := by
  simp only [List.mem_filterMap]
  exact ⟨fun ⟨sid, _, h⟩ => ⟨sid, h⟩, fun ⟨sid, h⟩ => ⟨sid, (henum sid).2 (by simp [h]), h⟩⟩

/-- Each entry is under its own id, so `range` visits it once. -/
theorem nodup_tableOrder (hi : TableInv st) (hnd : order.Nodup) :
    (order.filterMap st.sessions).Nodup :=
  hnd.filterMap fun _ _ _ hb hb' => (hi.entry_owner hb).1.symm.trans (hi.entry_owner hb').1

theorem entry_eq_of_assignedIP (hi : TableInv st) {sid sid' : UInt64} {e e' : ClientSession}
    (h : st.sessions sid = some e) (h' : st.sessions sid' = some e')
    (heq : e.assignedIP = e'.assignedIP) : e = e' := by
  rw [hi.assignedIP_inj h h' heq, h'] at h
  exact (Option.some_injective _ h).symm

/-- The first entry of the enumeration with an address is the table keyed by address. -/
theorem keyedByAddr_find (hi : TableInv st) (henum : ∀ sid, sid ∈ order ↔ st.sessions sid ≠ none) :
    KeyedByAddr st fun ip => (order.filterMap st.sessions).find? (·.assignedIP = ip) := by
  intro ip e
  constructor
  · intro h
    exact ⟨(mem_tableOrder henum e).1 (List.mem_of_find?_eq_some h), by simpa using List.find?_some h⟩
  · rintro ⟨⟨sid, hs⟩, rfl⟩
    dsimp only
    have he := (mem_tableOrder henum e).2 ⟨sid, hs⟩
    cases hf : (order.filterMap st.sessions).find? (·.assignedIP = e.assignedIP) with
    | none => exact absurd (List.find?_eq_none.1 hf e he) (by simp)
    | some e' =>
      obtain ⟨_, hs'⟩ := (mem_tableOrder henum e').1 (List.mem_of_find?_eq_some hf)
      rw [entry_eq_of_assignedIP hi hs' hs (by simpa using List.find?_some hf)]

end Enumeration

section Lookup

variable (sessionOf : ClientSession → Session) (datagram : Bytes) (rnds : List Bytes)
variable {st : Server} {byAddr : UInt32 → Option ClientSession}

/-- Over a table that keeps `TableInv`, the scan over any enumeration of the table does what one
lookup in the table keyed by address does. -/
theorem tunReadLoopBody_eq_tunLookup (hi : TableInv st) {order : List UInt64} (hnd : order.Nodup)
    (henum : ∀ sid, sid ∈ order ↔ st.sessions sid ≠ none) (hby : KeyedByAddr st byAddr) :
    tunReadLoopBody P st sessionOf datagram rnds order = tunLookup P sessionOf byAddr datagram rnds := by
  unfold tunReadLoopBody tunLookup
  split
  · rfl
  · cases hb : byAddr (destIP datagram) with
    | none =>
      exact tunScan_of_none P sessionOf datagram (fun e he hip =>
        absurd ((hby _ e).2 ⟨(mem_tableOrder henum e).1 he, hip⟩) (by rw [hb]; simp)) rnds
    | some e =>
      obtain ⟨⟨sid, hs⟩, hip⟩ := (hby _ e).1 hb
      refine tunScan_of_unique P sessionOf datagram (nodup_tableOrder hi hnd)
        ((mem_tableOrder henum e).2 ⟨sid, hs⟩) hip (fun x hx hxip => ?_) rnds
      obtain ⟨_, hx'⟩ := (mem_tableOrder henum x).1 hx
      exact entry_eq_of_assignedIP hi hx' hs (hxip.trans hip.symm)

theorem length_tunLookup_le : (tunLookup P sessionOf byAddr datagram rnds).length ≤ 1 := by
  unfold tunLookup
  split
  · exact Nat.zero_le _
  · split <;> simp

/-- A send of the lookup goes to the entry at the destination, the only one there, stored under
its own id, and carries the `Data` frame of `Encrypt` under that id. -/
theorem mem_tunLookup (hi : TableInv st) (hby : KeyedByAddr st byAddr) {x : TunSend}
    (hx : x ∈ tunLookup P sessionOf byAddr datagram rnds) :
    st.sessions x.entry.id = some x.entry ∧
    (∀ sid e, st.sessions sid = some e → (e.assignedIP = destIP datagram ↔ e = x.entry)) ∧
    x.frame = ((sessionOf x.entry).encrypt P (rnds.headD []) (tunRead datagram)).1.toOption.map
      fun c => (newPacket packetTypeData x.entry.id c).marshal := by
  unfold tunLookup at hx
  split at hx
  · cases hx
  · revert hx
    cases hb : byAddr (destIP datagram) with
    | none => simp
    | some e =>
      rintro (_ | ⟨_, ⟨⟩⟩)
      obtain ⟨⟨sid, hs⟩, hip⟩ := (hby _ e).1 hb
      refine ⟨by rw [(hi.entry_owner hs).1]; exact hs, fun _ e' hs' => ⟨fun h' =>
        entry_eq_of_assignedIP hi hs' hs (h'.trans hip.symm), fun h' => h' ▸ hip⟩,
        sealDatagram_frame P _ _ _ _⟩

theorem tunLookup_ne_nil (hby : KeyedByAddr st byAddr) (hlen : 20 ≤ (tunRead datagram).length)
    {sid : UInt64} {e : ClientSession} (hs : st.sessions sid = some e)
    (hip : e.assignedIP = destIP datagram) : tunLookup P sessionOf byAddr datagram rnds ≠ [] := by
  rw [tunLookup, if_neg (by omega), (hby _ e).2 ⟨⟨sid, hs⟩, hip⟩]
  exact List.cons_ne_nil _ _

end Lookup

end Hydra
