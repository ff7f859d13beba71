import HydraVpn.Agreement
import HydraVpn.Client.Invariants

/-!
# The client and the server together

A `System` is the client's goroutines (`Client.step`) and the server's connection tasks
(`ServerStep`) run side by side, with the `HandshakeResponse` frames written on each transport
connection and not yet read. A `Dial` that connects is accepted by an idle task (`taskOf`); the
task's `conn.Write` of its response puts the frame on that connection, and the client's
`performHandshake` reads the oldest frame there. Every other step is one party's own, with the
inputs it reads left free, so the model has more runs than the code: what holds of all of them
holds of the code's. `sessionConn` is ghost state, the connection whose response the client's
session came from.

* `SystemInv.step`: every step keeps the frames in flight those of the tasks that accepted their
  connections, and a client's session what such a frame said (`Phase.Responded`: the task has
  not stored another id or address since).
* `ConnInv.step_local`, `ConnInv.step_handshake`: with at most one goroutine in `Connect`
  (`connectCount_le_one`), the connection `performHandshake` works on is `c.conn`, and from the
  handshake to `connected = true` the session is the one negotiated on `c.conn`.
* `system_agreement`: in every reachable state, a client that holds a session holds the id and
  address that the task which accepted its connection stored, as long as the task keeps its
  entry; while it is connected, that connection is its current one.
* `response_written_once`: over every run, at most one `HandshakeResponse` is written on a
  connection: a task writes its response once (`Settled`), and only on the connection it accepted.
* `system_downlink`: while no two live tasks hold one id, a connected client's address is routed
  by the entry of the task that accepted its current connection: as long as that task keeps its
  entry, `tunReadLoop` seals each datagram for the address once, into a `Data` frame under the
  client's session id.
* `connect_progress`: from every reachable state in which a goroutine is about to `Dial`, an idle
  task can accept and the pool has room, the two parties can go on to a connected client whose
  session and connection are the new ones.
* `connected_run`: the two parties reach a state in which the client is connected.
-/

namespace Hydra

/-- The client, the server, the `HandshakeResponse` frames written on each transport connection
and not yet read, the server task that accepted each connection, and, as ghost state, the
connection the client's session was negotiated on. Connections are named by the client's
`nextId`. -/
structure System where
  client : Client
  server : Server
  toClient : Nat → List Bytes
  taskOf : Nat → Option Nat
  sessionConn : Option Nat

/-- A client and a server just created, with nothing on the network. -/
def newSystem : System := ⟨newClient, newServer, fun _ => [], fun _ => none, none⟩

/-- A client action that nothing on the network sees: every action but a `Dial` that connects and
a `performHandshake` whose `Read` returned a message. -/
def ClientAction.Local (c : Client) : ClientAction → Prop
  | .dial _ ok => ok = false ∨ c.cancelled = true
  | .handshake _ resp => resp = none
  | _ => True

section Steps

variable (P : Primitives) (ckp skp : KeyPair) (autoReconnect : Bool)

/-- The connection the client's session comes from after `performHandshake` read `resp` on
connection `k`: `k` if the handshake completed. -/
def handshakeConn (sessionConn : Option Nat) (k : Nat) (resp : Bytes) : Option Nat :=
  match completeHandshake P ckp (resp.take 4096) with
  | .ok _ => some k
  | .error _ => sessionConn

/-- One step of the client with key pair `ckp` or of the server with key pair `skp`. -/
inductive SystemStep : System → System → Prop
  /-- A client step that touches no connection. -/
  | client {sy : System} {c' : Client} (a : ClientAction) : a.Local sy.client →
      sy.client.step P ckp autoReconnect a = some c' → SystemStep sy { sy with client := c' }
  /-- `Dial` connects, and an idle server task accepts the connection. -/
  | dial {sy : System} {c' : Client} {t : Nat} (i : Nat) : sy.client.cancelled = false →
      sy.server.tasks t = .idle → sy.client.step P ckp autoReconnect (.dial i true) = some c' →
      SystemStep sy { sy with client := c', server := sy.server.setTask t .reading,
                              taskOf := Function.update sy.taskOf sy.client.nextId (some t) }
  /-- A server step that writes nothing on a connection. -/
  | server {sy : System} {st' : Server} : ServerStep P skp sy.server st' →
      SystemStep sy { sy with server := st' }
  /-- The task that accepted connection `k` writes its `HandshakeResponse` frame on it. -/
  | respond {sy : System} {k t : Nat} {sess : Session} {sid : UInt64} {ip : UInt32}
      (padding : Bytes32) : sy.taskOf k = some t → sy.server.tasks t = .registered sess sid ip →
      SystemStep sy
        { sy with server := sy.server.setTask t (.established sess sid ip),
                  toClient := Function.update sy.toClient k
                    (sy.toClient k ++ [handshakeResponseFrame skp sid ip padding]) }
  /-- `performHandshake` on connection `k` reads the oldest frame written there. -/
  | handshake {sy : System} {c' : Client} {i k : Nat} {r : Bool} {resp : Bytes}
      {rest : List Bytes} : sy.client.threads[i]? = some (.handshake r k) →
      sy.toClient k = resp :: rest →
      sy.client.step P ckp autoReconnect (.handshake i (some resp)) = some c' →
      SystemStep sy { sy with client := c', toClient := Function.update sy.toClient k rest,
                              sessionConn := handshakeConn P ckp sy.sessionConn k resp }

/-- The states of every interleaving of the two parties' steps from `New`. -/
inductive SystemReach : System → Prop
  | init : SystemReach newSystem
  | step {sy sy' : System} : SystemReach sy → SystemStep P ckp skp autoReconnect sy sy' →
      SystemReach sy'

end Steps

/-! ## The client's steps -/

namespace Client

variable {P : Primitives} {kp : KeyPair} {autoReconnect : Bool} {c c' : Client}

/-- Only a `performHandshake` that read a message sets the session. -/
theorem session_step {a : ClientAction} (h : c.step P kp autoReconnect a = some c')
    (ha : ∀ i resp, a ≠ .handshake i (some resp)) : c'.session = c.session := by
  cases a with
  | handshake i resp =>
    cases resp with
    | some resp => exact absurd rfl (ha i resp)
    | none =>
      simp only [step] at h
      split at h <;> cases h; rfl
  | _ =>
    revert h
    dsimp only [step]
    split <;> (try split) <;> intro h <;> cases h <;> rfl

/-- What `performHandshake` leaves as the session after reading `resp`. -/
theorem session_handshake {i k : Nat} {r : Bool} {resp : Bytes}
    (hth : c.threads[i]? = some (.handshake r k))
    (h : c.step P kp autoReconnect (.handshake i (some resp)) = some c') :
    c'.session = (match completeHandshake P kp (resp.take 4096) with
      | .ok res => some res
      | .error _ => c.session) ∧ c'.nextId = c.nextId := by
  simp only [step, hth, Option.map_some'] at h
  cases hc : completeHandshake P kp (resp.take 4096) <;> rw [hc] at h <;> cases h <;>
    exact ⟨rfl, rfl⟩

theorem nextId_le_step {a : ClientAction} (h : c.step P kp autoReconnect a = some c') :
    c.nextId ≤ c'.nextId := by
  revert h
  cases a <;> dsimp only [step] <;> split <;> (try split) <;> intro h <;> cases h <;>
    (try simp only [setThread, spawn]) <;> omega

/-- A `Dial` that connects names the connection `nextId`. -/
theorem nextId_dial {i : Nat} (hc : c.cancelled = false)
    (h : c.step P kp autoReconnect (.dial i true) = some c') :
    c'.nextId = c.nextId + 1 := by
  simp only [step] at h
  split at h
  · rw [if_pos ⟨trivial, hc⟩] at h; cases h; rfl
  · cases h

theorem step_of_run_singleton {a : ClientAction} (h : c.run P kp autoReconnect [a] = some c') :
    c.step P kp autoReconnect a = some c' := by
  simpa [run] using h

end Client

/-! ## The server's tasks after their response -/

namespace Phase

/-- A task that has written its response for session id `sid` and address `ip`: it serves, or
returns, or has returned. -/
def Responded (sid : UInt64) (ip : UInt32) : Phase → Prop
  | established _ sid' ip' | closing sid' ip' | releasing sid' ip' => sid' = sid ∧ ip' = ip
  | done => True
  | _ => False

theorem Responded.entry {sid sid' : UInt64} {ip ip' : UInt32} {ph : Phase}
    (h : ph.Responded sid ip) (he : ph.entry = some (sid', ip')) : sid' = sid ∧ ip' = ip := by
  cases ph <;> simp_all [Responded, Phase.entry]

end Phase

section Responded

variable {P : Primitives} {kp : KeyPair} {st st' : Server} {t : Nat} {sid : UInt64} {ip : UInt32}

theorem responded_update {f : Nat → Phase} {u : Nat} {ph : Phase} (h : (f t).Responded sid ip)
    (hph : (f u).Responded sid ip → ph.Responded sid ip) :
    (Function.update f u ph t).Responded sid ip := by
  by_cases hu : t = u
  · subst hu; rw [Function.update_same]; exact hph h
  · rw [Function.update_noteq hu]; exact h

/-- A task that has written its response stays so, with the same id and address, through every
server step. -/
theorem responded_step (h : (st.tasks t).Responded sid ip) (hs : ServerStep P kp st st') :
    (st'.tasks t).Responded sid ip := by
  cases hs with
  | accept ht | readFail ht | handshake _ _ _ ht | allocate ht _ | register ht | respond _ ht =>
    exact responded_update h fun hu => by rw [ht] at hu; exact absurd hu id
  | serve msg ht =>
    exact responded_update h fun hu => by
      rw [ht] at hu; unfold servePhase; split <;> exact hu
  | serveFail ht | deleteSession ht | releaseIP ht =>
    exact responded_update h fun hu => by rw [ht] at hu; first | exact hu | trivial
  | tunReadLoop _ _ _ _ _ =>
    exact responded_update h fun hu => by
      cases h' : st.tasks _ <;> rw [h'] at hu <;> exact hu

end Responded

/-! ## The invariant -/

theorem take_handshakeResponseFrame (kp : KeyPair) (sid : UInt64) (ip : UInt32) (padding : Bytes32) :
    (handshakeResponseFrame kp sid ip padding).take 4096 = handshakeResponseFrame kp sid ip padding :=
  List.take_of_length_le (by simp [handshakeResponseFrame, length_marshal, newPacket, headerSize])

/-- What every reachable state keeps: no frame and no task for a connection not yet dialed; every
frame in flight is the response of the task that accepted its connection, which has not stored
another id or address since; and a client that holds a session holds what such a frame said. -/
structure SystemInv (skp : KeyPair) (sy : System) : Prop where
  fresh : ∀ k, sy.client.nextId ≤ k → sy.toClient k = [] ∧ sy.taskOf k = none
  frames : ∀ k, ∀ f ∈ sy.toClient k, ∃ t sid ip, sy.taskOf k = some t ∧
    (sy.server.tasks t).Responded sid ip ∧ ∃ padding, f = handshakeResponseFrame skp sid ip padding
  session : ∀ res, sy.client.session = some res → res.serverIP = serverTunIP ∧
    ∃ k t, sy.sessionConn = some k ∧ sy.taskOf k = some t ∧
      (sy.server.tasks t).Responded res.sessionID (uint32 res.assignedIP.bytes)

namespace SystemInv

variable {P : Primitives} {ckp skp : KeyPair} {autoReconnect : Bool} {sy : System}

theorem newSystem : SystemInv skp newSystem where
  fresh _ _ := ⟨rfl, rfl⟩
  frames _ _ h := by cases h
  session _ h := by cases h

/-- A connection with a task has been dialed. -/
theorem lt_of_taskOf (hi : SystemInv skp sy) {k t : Nat} (h : sy.taskOf k = some t) :
    k < sy.client.nextId :=
  Nat.lt_of_not_le fun hk => by rw [(hi.fresh k hk).2] at h; cases h

/-- A change of a task that has not written its response, and of nothing else, keeps the
invariant. -/
theorem setTask {t : Nat} {ph : Phase} (hi : SystemInv skp sy)
    (ht : ∀ sid ip, ¬(sy.server.tasks t).Responded sid ip) :
    SystemInv skp { sy with server := sy.server.setTask t ph } := by
  have hkeep : ∀ {u sid ip}, (sy.server.tasks u).Responded sid ip →
      (sy.server.setTask t ph).tasks u = sy.server.tasks u := fun {u sid ip} hu =>
    Function.update_noteq (fun (h : u = t) => ht sid ip (h ▸ hu)) _ _
  refine ⟨hi.fresh, fun k f hf => ?_, fun res hres => ?_⟩
  · obtain ⟨u, sid, ip, hk, hu, hf⟩ := hi.frames k f hf
    exact ⟨u, sid, ip, hk, (hkeep hu).symm ▸ hu, hf⟩
  · obtain ⟨hsrv, k, u, hc, hk, hu⟩ := hi.session res hres
    exact ⟨hsrv, k, u, hc, hk, (hkeep hu).symm ▸ hu⟩

/-- Every step of either party keeps the invariant. -/
theorem step (hi : SystemInv skp sy) {sy' : System}
    (hs : SystemStep P ckp skp autoReconnect sy sy') : SystemInv skp sy' := by
  cases hs with
  | client a hloc h =>
    have hsess := Client.session_step h fun i resp ha => by
      subst ha; simp [ClientAction.Local] at hloc
    have hid := Client.nextId_le_step h
    exact ⟨fun k hk => hi.fresh k (hid.trans hk), hi.frames,
      fun res hres => hi.session res (hsess ▸ hres)⟩
  | @dial c' t i hc ht h =>
    have hid := Client.nextId_dial hc h
    have hsess := Client.session_step h fun _ _ ha => by cases ha
    have hi' : SystemInv skp { sy with server := sy.server.setTask t .reading } :=
      hi.setTask fun _ _ hu => by rw [ht] at hu; exact hu
    refine ⟨fun k hk => ?_, fun k f hf => ?_, fun res hres => ?_⟩ <;> dsimp only at *
    · have hk' : sy.client.nextId ≤ k := by omega
      exact ⟨(hi.fresh k hk').1, by
        rw [Function.update_noteq (by omega : k ≠ sy.client.nextId)]; exact (hi.fresh k hk').2⟩
    · obtain ⟨u, sid, ip, hk, hu, hf⟩ := hi'.frames k f hf
      exact ⟨u, sid, ip, by rw [Function.update_noteq (hi.lt_of_taskOf hk).ne]; exact hk, hu, hf⟩
    · obtain ⟨hsrv, k, u, hc', hk, hu⟩ := hi'.session res (hsess ▸ hres)
      exact ⟨hsrv, k, u, hc', by rw [Function.update_noteq (hi.lt_of_taskOf hk).ne]; exact hk, hu⟩
  | server hss =>
    refine ⟨hi.fresh, fun k f hf => ?_, fun res hres => ?_⟩
    · obtain ⟨u, sid, ip, hk, hu, hf⟩ := hi.frames k f hf
      exact ⟨u, sid, ip, hk, responded_step hu hss, hf⟩
    · obtain ⟨hsrv, k, u, hc, hk, hu⟩ := hi.session res hres
      exact ⟨hsrv, k, u, hc, hk, responded_step hu hss⟩
  | @respond k t sess sid ip padding hk ht =>
    have hi' : SystemInv skp { sy with server := sy.server.setTask t (.established sess sid ip) } :=
      hi.setTask fun _ _ hu => by rw [ht] at hu; exact hu
    have hlt := hi.lt_of_taskOf hk
    refine ⟨fun k' hk' => ?_, fun k' f hf => ?_, hi'.session⟩ <;> dsimp only at *
    · rw [Function.update_noteq (by omega : k' ≠ k)]; exact hi.fresh k' hk'
    · by_cases hkk : k' = k
      · subst hkk
        rw [Function.update_same] at hf
        rcases List.mem_append.1 hf with hf | hf
        · exact hi'.frames k' f hf
        · refine ⟨t, sid, ip, hk, ?_, padding, List.mem_singleton.1 hf⟩
          show (Function.update sy.server.tasks t _ t).Responded sid ip
          rw [Function.update_same]; exact ⟨rfl, rfl⟩
      · rw [Function.update_noteq hkk] at hf; exact hi'.frames k' f hf
  | @handshake c' i k r resp rest hth hq h =>
    obtain ⟨t, sid, ip, hk, hu, padding, rfl⟩ :=
      hi.frames k resp (by rw [hq]; exact List.mem_cons_self _ _)
    obtain ⟨hsess, hid⟩ := Client.session_handshake hth h
    have hlt := hi.lt_of_taskOf hk
    refine ⟨fun k' hk' => ?_, fun k' f hf => ?_, fun res hres => ?_⟩ <;> dsimp only at *
    · rw [hid] at hk'
      exact ⟨by rw [Function.update_noteq (by omega : k' ≠ k)]; exact (hi.fresh k' hk').1,
        (hi.fresh k' hk').2⟩
    · by_cases hkk : k' = k
      · subst hkk
        rw [Function.update_same] at hf
        exact hi.frames k' f (by rw [hq]; exact List.mem_cons_of_mem _ hf)
      · rw [Function.update_noteq hkk] at hf; exact hi.frames k' f hf
    · unfold handshakeConn
      rw [hsess, take_handshakeResponseFrame] at hres
      rw [take_handshakeResponseFrame]
      cases hc : completeHandshake P ckp (handshakeResponseFrame skp sid ip padding) with
      | ok res₀ =>
        rw [hc] at hres
        cases hres
        obtain ⟨h1, h2, h3⟩ := completeHandshake_responseFrame_ok P hc
        exact ⟨h3, k, t, rfl, hk, by rw [h1, h2, uint32_putUint32]; exact hu⟩
      | error e =>
        rw [hc] at hres
        exact hi.session res hres

end SystemInv

/-! ## The goroutine in `Connect` -/

namespace ClientThread

/-- The steps of `Connect` from `performHandshake` to `c.connected = true`. -/
def holdsConn : ClientThread → Bool
  | handshake _ _ | tunNew _ | setConnected _ => true
  | _ => false

end ClientThread

theorem mem_set_cases {α : Type} {l : List α} {i : Nat} {y th : α} (h : th ∈ l.set i y) :
    th = y ∨ ∃ j, j ≠ i ∧ l[j]? = some th := by
  obtain ⟨j, hj⟩ := List.mem_iff_getElem?.1 h
  by_cases hji : i = j
  · subst hji
    rw [List.getElem?_set] at hj
    simp only [if_true] at hj
    split at hj
    · exact .inl (Option.some_injective _ hj).symm
    · cases hj
  · exact .inr ⟨j, Ne.symm hji, (List.getElem?_set_ne hji).symm.trans hj⟩

section Connect

variable {P : Primitives} {kp : KeyPair} {autoReconnect : Bool} {c c' : Client}

/-- Two goroutines are never both in `Connect` before setting `connected`. -/
theorem Client.not_two_connecting (hr : ClientReach P kp autoReconnect c) {i j : Nat}
    {x y : ClientThread} (hx : c.threads[i]? = some x) (hy : c.threads[j]? = some y) (hij : i ≠ j)
    (hxc : x.connecting = true) (hyc : y.connecting = true) : False := by
  have hle := connectCount_le_one hr
  have hset := countP_set_add ClientThread.connecting hx .idle
  have hpos : 0 < (c.threads.set i .idle).countP ClientThread.connecting :=
    List.countP_pos_iff.2 ⟨y, List.getElem?_mem ((List.getElem?_set_ne hij).trans hy), hyc⟩
  rw [hxc] at hset
  unfold Client.connectCount at hle
  simp only [ClientThread.connecting, Bool.toNat_true, Bool.toNat_false] at hset
  omega

/-- While a goroutine is in `Connect` before setting it, `connected` is false. -/
theorem Client.connected_of_connecting (hr : ClientReach P kp autoReconnect c) {i : Nat}
    {x : ClientThread} (hx : c.threads[i]? = some x) (hxc : x.connecting = true) :
    c.connected = false := by
  have hle := connectCount_le_one hr
  have hpos : 0 < c.threads.countP ClientThread.connecting :=
    List.countP_pos_iff.2 ⟨x, List.getElem?_mem hx, hxc⟩
  unfold Client.connectCount at hle
  cases h : c.connected
  · rfl
  · rw [h, Bool.toNat_true] at hle; omega

theorem Client.mem_setThread {i : Nat} {y th : ClientThread} (hy : y.holdsConn = false)
    (h : th ∈ (c.setThread i y).threads) (hh : th.holdsConn = true) : th ∈ c.threads :=
  (List.mem_or_eq_of_mem_set h).resolve_right fun he => by rw [he, hy] at hh; cases hh

theorem Client.mem_spawn {z th : ClientThread} (hz : z.holdsConn = false)
    (h : th ∈ (c.spawn z).threads) (hh : th.holdsConn = true) : th ∈ c.threads :=
  (List.mem_append.1 h).resolve_right fun he => by
    rw [List.mem_singleton.1 he, hz] at hh; cases hh

/-- What `Connect` keeps about the connection and the session, with `sessionConn` the connection
the session was negotiated on: a goroutine in `performHandshake` on connection `k` finds `c.conn`
at `k`; past the handshake, and while `connected` is set, the session is set and was negotiated
on `c.conn`. -/
structure ConnInv (c : Client) (sessionConn : Option Nat) : Prop where
  handshake : ∀ r k, .handshake r k ∈ c.threads → c.conn = some k
  negotiated : ∀ r, .tunNew r ∈ c.threads ∨ .setConnected r ∈ c.threads →
    c.session.isSome ∧ sessionConn = c.conn
  connected : c.connected = true → c.session.isSome ∧ sessionConn = c.conn

namespace ConnInv

variable {sc : Option Nat}

theorem newClient : ConnInv newClient none where
  handshake _ _ h := by simp [Hydra.newClient] at h
  negotiated _ h := by simp [Hydra.newClient] at h
  connected h := by cases h

/-- A step that keeps the connection and the session, and starts no step of `Connect` past
`Dial` but the one after `tun.New`. -/
theorem frame (hi : ConnInv c sc) (hconn : c'.conn = c.conn) (hsess : c'.session = c.session)
    (hcon : c'.connected = true → c.session.isSome ∧ sc = c.conn)
    (hth : ∀ th ∈ c'.threads, th.holdsConn = true →
      th ∈ c.threads ∨ ∃ r, th = .setConnected r ∧ .tunNew r ∈ c.threads) : ConnInv c' sc where
  handshake r k h := by
    rcases hth _ h rfl with h | ⟨_, he, -⟩
    · rw [hconn]; exact hi.handshake r k h
    · cases he
  negotiated r h := by
    rw [hconn, hsess]
    rcases h with h | h
    · rcases hth _ h rfl with h | ⟨_, he, -⟩
      · exact hi.negotiated r (.inl h)
      · cases he
    · rcases hth _ h rfl with h | ⟨_, he, h⟩
      · exact hi.negotiated r (.inr h)
      · exact hi.negotiated _ (.inl h)
  connected h := by rw [hconn, hsess]; exact hcon h

/-- Every client step but a handshake that read a message keeps the invariant. -/
theorem step_local (hr : ClientReach P kp autoReconnect c) (hi : ConnInv c sc) {a : ClientAction}
    (h : c.step P kp autoReconnect a = some c') (ha : ∀ i resp, a ≠ .handshake i (some resp)) :
    ConnInv c' sc := by
  cases a with
  | dial i ok =>
    dsimp only [Client.step] at h
    split at h
    · rename_i r hx
      split at h <;> cases h
      · refine ⟨fun r' k' hm => ?_, fun r' hm => ?_, fun hcon => ?_⟩
        · rcases mem_set_cases hm with he | ⟨j, hj, hj'⟩
          · cases he; rfl
          · exact (Client.not_two_connecting hr hx hj' hj.symm rfl rfl).elim
        · exfalso
          rcases hm with hm | hm <;> rcases mem_set_cases hm with he | ⟨j, hj, hj'⟩
          all_goals first | cases he | exact Client.not_two_connecting hr hx hj' hj.symm rfl rfl
        · exact absurd ((Client.connected_of_connecting hr hx rfl).symm.trans hcon) Bool.false_ne_true
      · exact hi.frame rfl rfl hi.connected fun th h hh =>
          .inl (Client.mem_setThread (by cases r <;> rfl) h hh)
    · cases h
  | handshake i resp =>
    cases resp with
    | some resp => exact absurd rfl (ha i resp)
    | none =>
      dsimp only [Client.step, Option.map_none'] at h
      split at h <;> cases h
      exact hi.frame rfl rfl hi.connected fun th h hh =>
        .inl (Client.mem_setThread (by cases ‹Bool› <;> rfl) h hh)
  | tunNew i ok =>
    dsimp only [Client.step] at h
    split at h
    · rename_i r hx
      have hmem := List.getElem?_mem hx
      split at h <;> cases h
      · refine hi.frame rfl rfl hi.connected fun th h hh => ?_
        rcases List.mem_or_eq_of_mem_set (Client.mem_spawn (by rfl) h hh) with h | rfl
        · exact .inl h
        · exact .inr ⟨r, rfl, hmem⟩
      · refine hi.frame rfl rfl hi.connected fun th h hh => ?_
        rcases List.mem_or_eq_of_mem_set h with h | rfl
        · exact .inl h
        · exact .inr ⟨r, rfl, hmem⟩
    · cases h
  | setConnected i =>
    dsimp only [Client.step] at h
    split at h
    · rename_i r hx
      cases h
      exact hi.frame rfl rfl (fun _ => hi.negotiated r (.inr (List.getElem?_mem hx)))
        fun th h hh => .inl (Client.mem_setThread (by rfl) h hh)
    · cases h
  | _ =>
    dsimp only [Client.step] at h
    split at h <;> (try split at h) <;> cases h
    all_goals
      exact hi.frame rfl rfl (fun h => by first | exact hi.connected h | cases h)
        fun th h hh => .inl (by
          first
          | exact h
          | exact Client.mem_setThread (by rfl) h hh
          | exact Client.mem_setThread (by cases ‹Bool› <;> rfl) (Client.mem_spawn (by rfl) h hh) hh)

/-- A `performHandshake` that read `resp` on its connection `k` keeps the invariant, with the
session's connection `k` if the handshake completed. -/
theorem step_handshake (hr : ClientReach P kp autoReconnect c) (hi : ConnInv c sc) {i k : Nat}
    {r : Bool} {resp : Bytes} (hth : c.threads[i]? = some (.handshake r k))
    (h : c.step P kp autoReconnect (.handshake i (some resp)) = some c') :
    ConnInv c' (handshakeConn P kp sc k resp) := by
  simp only [Client.step, hth, Option.map_some'] at h
  unfold handshakeConn
  cases hc : completeHandshake P kp (resp.take 4096) <;> rw [hc] at h <;> cases h
  · exact hi.frame rfl rfl hi.connected fun th h hh =>
      .inl (Client.mem_setThread (by cases r <;> rfl) h hh)
  · have hconn := hi.handshake r k (List.getElem?_mem hth)
    have hother : ∀ th ∈ (c.setThread i (.tunNew r)).threads, th.connecting = true →
        th = .tunNew r := fun th hm hc => by
      rcases mem_set_cases hm with he | ⟨j, hj, hj'⟩
      · exact he
      · exact (Client.not_two_connecting hr hth hj' hj.symm rfl hc).elim
    refine ⟨fun r' k' hm => ?_, fun r' hm => ?_, fun hcon => ?_⟩
    · cases hother _ hm rfl
    · rcases hm with hm | hm <;> cases hother _ hm rfl
      exact ⟨rfl, hconn.symm⟩
    · exact absurd ((Client.connected_of_connecting hr hth rfl).symm.trans hcon)
        Bool.false_ne_true

end ConnInv

end Connect

/-! ## Every run of the two parties -/

section Runs

variable {P : Primitives} {ckp skp : KeyPair} {autoReconnect : Bool} {sy : System}

/-- The client of a reachable system is reachable on its own, and keeps `ConnInv`. -/
theorem systemReach_client (hr : SystemReach P ckp skp autoReconnect sy) :
    ClientReach P ckp autoReconnect sy.client ∧ ConnInv sy.client sy.sessionConn := by
  induction hr with
  | init => exact ⟨.init, ConnInv.newClient⟩
  | step _ hs ih =>
    obtain ⟨hc, hi⟩ := ih
    cases hs with
    | client a hloc h =>
      exact ⟨.step a hc h, hi.step_local hc h fun i resp ha => by
        subst ha; simp [ClientAction.Local] at hloc⟩
    | dial i _ _ h => exact ⟨.step _ hc h, hi.step_local hc h fun _ _ ha => by cases ha⟩
    | server _ => exact ⟨hc, hi⟩
    | respond _ _ _ => exact ⟨hc, hi⟩
    | handshake hth _ h => exact ⟨.step _ hc h, hi.step_handshake hc hth h⟩

theorem systemReach_inv (hr : SystemReach P ckp skp autoReconnect sy) : SystemInv skp sy := by
  induction hr with
  | init => exact SystemInv.newSystem
  | step _ hs ih => exact ih.step hs

theorem systemReach_of_chain (hr : SystemReach P ckp skp autoReconnect sy) {sys : List System}
    (hrun : List.Chain (SystemStep P ckp skp autoReconnect) sy sys) :
    ∀ sy' ∈ sys, SystemReach P ckp skp autoReconnect sy' := by
  induction hrun with
  | nil => intro _ h; cases h
  | cons hs _ ih =>
    have hr' := SystemReach.step hr hs
    exact List.forall_mem_cons.2 ⟨hr', ih hr'⟩

/-- The server's side of a step: it stays, or takes one of its own steps (a `Dial` is accepted, a
response written). -/
theorem serverStep_of_systemStep {sy' : System} (hs : SystemStep P ckp skp autoReconnect sy sy') :
    sy'.server = sy.server ∨ ServerStep P skp sy.server sy'.server := by
  cases hs with
  | dial _ _ ht _ => exact .inr (.accept ht)
  | server h => exact .inr h
  | respond _ _ ht => exact .inr (.respond true ht)
  | _ => exact .inl rfl

theorem systemReach_server (hr : SystemReach P ckp skp autoReconnect sy) :
    ServerReach P skp sy.server := by
  induction hr with
  | init => exact .init
  | step _ hs ih => exact (serverStep_of_systemStep hs).elim (· ▸ ih) ih.step

/-- Along a run whose server states all have distinct live ids, the table stays exact. -/
theorem tableExact_systemChain (he : TableExact sy.server) {sys : List System}
    (hrun : List.Chain (SystemStep P ckp skp autoReconnect) sy sys)
    (hd : ∀ sy' ∈ sys, IdsDistinct sy'.server) : ∀ sy' ∈ sys, TableExact sy'.server := by
  induction hrun with
  | nil => intro _ h; cases h
  | cons hs _ ih =>
    obtain ⟨hd₁, hd⟩ := List.forall_mem_cons.1 hd
    have he' := (serverStep_of_systemStep hs).elim (· ▸ he) (he.step hd₁)
    exact List.forall_mem_cons.2 ⟨he', ih he' hd⟩

end Runs

/-! ## One response per connection -/

/-- The steps of a run from `sy` that write a `HandshakeResponse` on connection `k`. -/
def writesOn (k : Nat) : System → List System → Nat
  | _, [] => 0
  | sy, sy' :: rest =>
    (if (sy.toClient k).length < (sy'.toClient k).length then 1 else 0) + writesOn k sy' rest

/-- The task that accepted connection `k` writes no more responses: it has written its response,
or returned. -/
def Settled (k : Nat) (sy : System) : Prop :=
  ∃ t sid ip, sy.taskOf k = some t ∧ (sy.server.tasks t).Responded sid ip

section Once

variable {P : Primitives} {ckp skp : KeyPair} {autoReconnect : Bool} {sy sy' : System} {k : Nat}

/-- A connection keeps the task that accepted it. -/
theorem taskOf_step (hi : SystemInv skp sy) {t : Nat} (hk : sy.taskOf k = some t)
    (hs : SystemStep P ckp skp autoReconnect sy sy') : sy'.taskOf k = some t := by
  cases hs with
  | dial => exact (Function.update_noteq (hi.lt_of_taskOf hk).ne _ _).trans hk
  | _ => exact hk

/-- A task past its response stays so through every step of either party. -/
theorem responded_systemStep {t : Nat} {sid : UInt64} {ip : UInt32}
    (hu : (sy.server.tasks t).Responded sid ip) (hs : SystemStep P ckp skp autoReconnect sy sy') :
    (sy'.server.tasks t).Responded sid ip := by
  cases hs with
  | dial _ _ ht _ | respond _ _ ht =>
    exact responded_update hu fun hu' => by rw [ht] at hu'; exact absurd hu' id
  | server hss => exact responded_step hu hss
  | _ => exact hu

theorem Settled.step (hi : SystemInv skp sy) (h : Settled k sy)
    (hs : SystemStep P ckp skp autoReconnect sy sy') : Settled k sy' :=
  have ⟨t, sid, ip, hk, hu⟩ := h
  ⟨t, sid, ip, taskOf_step hi hk hs, responded_systemStep hu hs⟩

/-- Only a task's `conn.Write` of its response adds a response to a connection, and only once:
the connection was not settled before and is after. -/
theorem settled_of_grows (hs : SystemStep P ckp skp autoReconnect sy sy')
    (hg : (sy.toClient k).length < (sy'.toClient k).length) : ¬Settled k sy ∧ Settled k sy' := by
  cases hs with
  | @respond k' t sess sid ip padding hk ht =>
    by_cases hkk : k = k'
    · subst hkk
      refine ⟨fun ⟨u, sid', ip', hu, hr⟩ => ?_, t, sid, ip, hk, ?_⟩
      · rw [hk] at hu; cases hu
        rw [ht] at hr; exact hr
      · show (Function.update sy.server.tasks t _ t).Responded sid ip
        rw [Function.update_same]; exact ⟨rfl, rfl⟩
    · simp only [Function.update_noteq hkk] at hg; omega
  | @handshake c' i k' r resp rest _ hq _ =>
    by_cases hkk : k = k'
    · subst hkk; simp only [Function.update_same, hq, List.length_cons] at hg; omega
    · simp only [Function.update_noteq hkk] at hg; omega
  | _ => exact absurd hg (lt_irrefl _)

/-- Over a run from a reachable state, at most one step writes a response on `k`, and none once
`k` is settled. -/
theorem writesOn_le (hr : SystemReach P ckp skp autoReconnect sy) {rest : List System}
    (hrun : List.Chain (SystemStep P ckp skp autoReconnect) sy rest) :
    writesOn k sy rest ≤ 1 ∧ (Settled k sy → writesOn k sy rest = 0) := by
  induction hrun with
  | nil => exact ⟨Nat.zero_le _, fun _ => rfl⟩
  | @cons sy sy' rest hs _ ih =>
    obtain ⟨hle, hzero⟩ := ih (hr.step hs)
    rw [writesOn]
    split
    · obtain ⟨hn, hs'⟩ := settled_of_grows hs ‹_›
      exact ⟨by rw [hzero hs'], fun h => absurd h hn⟩
    · exact ⟨by omega, fun h => by rw [hzero (h.step (systemReach_inv hr) hs)]⟩

end Once

/-! ## A `Connect` can complete -/

namespace Client

variable {P : Primitives} {kp : KeyPair} {autoReconnect : Bool} {c : Client} {i : Nat}
  {th : ClientThread}

theorem getElem?_setThread_self (hth : c.threads[i]? = some th) (th' : ClientThread) :
    (c.setThread i th').threads[i]? = some th' :=
  List.getElem?_set_self (List.getElem?_eq_some_iff.1 hth).1

theorem getElem?_spawn (hth : c.threads[i]? = some th) (th' : ClientThread) :
    (c.spawn th').threads[i]? = some th :=
  (List.getElem?_append_left (List.getElem?_eq_some_iff.1 hth).1).trans hth

variable (P kp autoReconnect) {r : Bool}

/-- `Dial` connects: the goroutine goes on to `performHandshake` on connection `nextId`. -/
theorem step_dial_connects (hth : c.threads[i]? = some (.dial r)) (hc : c.cancelled = false) :
    ∃ c', c.step P kp autoReconnect (.dial i true) = some c' ∧
      c'.threads[i]? = some (.handshake r c.nextId) ∧ c'.conn = some c.nextId := by
  simp only [step, hth, hc, and_self, if_true]
  exact ⟨_, rfl, getElem?_setThread_self hth _, rfl⟩

/-- `performHandshake` completes: the goroutine goes on to `tun.New` with the session. -/
theorem step_handshake_completes {k : Nat} {resp : Bytes} {res : HandshakeResult}
    (hth : c.threads[i]? = some (.handshake r k))
    (hres : completeHandshake P kp (resp.take 4096) = .ok res) :
    ∃ c', c.step P kp autoReconnect (.handshake i (some resp)) = some c' ∧
      c'.threads[i]? = some (.tunNew r) ∧ c'.session = some res ∧ c'.conn = c.conn := by
  simp only [step, hth, Option.map_some', hres]
  exact ⟨_, rfl, getElem?_setThread_self hth _, rfl, rfl⟩

/-- `tun.New` succeeds: the goroutine goes on to set `connected`. -/
theorem step_tunNew_opens (hth : c.threads[i]? = some (.tunNew r)) :
    ∃ c', c.step P kp autoReconnect (.tunNew i true) = some c' ∧
      c'.threads[i]? = some (.setConnected r) ∧ c'.session = c.session ∧ c'.conn = c.conn := by
  simp only [step, hth, if_true]
  exact ⟨_, rfl, getElem?_spawn (getElem?_setThread_self hth _) _, rfl, rfl⟩

theorem step_setConnected_connects (hth : c.threads[i]? = some (.setConnected r)) :
    ∃ c', c.step P kp autoReconnect (.setConnected i) = some c' ∧
      c'.connected = true ∧ c'.session = c.session ∧ c'.conn = c.conn := by
  simp only [step, hth]
  exact ⟨_, rfl, rfl, rfl, rfl⟩

end Client

section Progress

variable {P : Primitives} {ckp skp : KeyPair} {autoReconnect : Bool} {sy : System}

/-- From every reachable state in which a goroutine is about to `Dial` and `Disconnect` has not
cancelled, an idle server task can accept, and fewer than 252 addresses are in use, the two parties
can go on to a connected client, if the server keys the client's `HandshakeInit` and the client
completes on the server's response, whatever session id bytes and padding the server draws: the
client's session and current connection come from the new connection, and the task that accepted
it serves it under the client's session id and address. -/
theorem connect_progress (hr : SystemReach P ckp skp autoReconnect sy) {i : Nat} {r : Bool}
    (hth : sy.client.threads[i]? = some (.dial r)) (hc : sy.client.cancelled = false) {t : Nat}
    (ht : sy.server.tasks t = .idle) (hpool : sy.server.ipPool.used.card < 252)
    {ts : BitVec 64} {pad : Bytes32} {saltRnd : Bytes} {sess : Session}
    (haccept : acceptHandshake P skp ((handshakeInitFrame ckp ts pad).take 4096) saltRnd = .ok sess)
    (hcomplete : ∀ sid ip padding,
      ∃ res, completeHandshake P ckp (handshakeResponseFrame skp sid ip padding) = .ok res)
    (idRnd : Bytes) (padding : Bytes32) :
    ∃ sy', SystemReach P ckp skp autoReconnect sy' ∧ sy'.client.connected = true ∧
      sy'.client.conn = some sy.client.nextId ∧ sy'.sessionConn = some sy.client.nextId ∧
      ∃ res, sy'.client.session = some res ∧
        (sy'.server.tasks t).entry = some (res.sessionID, uint32 res.assignedIP.bytes) := by
  have hi := systemReach_inv hr
  have hsrv := serverReach_inv (systemReach_server hr)
  obtain ⟨ip, p', hal, -⟩ := IPPool.allocate_ok_of_card_lt hsrv.sane (by
    rw [IPPool.capacity, serverReach_subnet (systemReach_server hr)]
    exact Nat.add_lt_of_lt_sub (by simpa using hpool))
  have hkeyed : handshakePhase P skp (handshakeInitFrame ckp ts pad) saltRnd idRnd =
      .keyed sess (sessionIDOf idRnd) := by
    rw [handshakePhase, haccept]
  obtain ⟨res, hres⟩ := hcomplete (sessionIDOf idRnd) ip padding
  obtain ⟨hsid, hip, -⟩ := completeHandshake_responseFrame_ok P hres
  obtain ⟨c₁, h₁, hth₁, hconn₁⟩ := Client.step_dial_connects P ckp autoReconnect hth hc
  obtain ⟨c₂, h₂, hth₂, hsess₂, hconn₂⟩ := Client.step_handshake_completes P ckp autoReconnect hth₁
    (by rw [take_handshakeResponseFrame]; exact hres)
  obtain ⟨c₃, h₃, hth₃, hsess₃, hconn₃⟩ := Client.step_tunNew_opens P ckp autoReconnect hth₂
  obtain ⟨c₄, h₄, hcon₄, hsess₄, hconn₄⟩ :=
    Client.step_setConnected_connects P ckp autoReconnect hth₃
  have hq : sy.toClient sy.client.nextId = [] := (hi.fresh _ le_rfl).1
  refine ⟨_, hr.step (.dial (t := t) i hc ht h₁)
    |>.step (.server (.handshake (t := t) (handshakeInitFrame ckp ts pad) saltRnd idRnd
      (Function.update_same _ _ _)))
    |>.step (.server (.allocate (t := t) ((Function.update_same _ _ _).trans hkeyed) hal))
    |>.step (.server (.register (t := t) (Function.update_same _ _ _)))
    |>.step (.respond (k := sy.client.nextId) (t := t) padding (Function.update_same _ _ _)
      (Function.update_same _ _ _))
    |>.step (.handshake (i := i) hth₁ (by dsimp only; rw [Function.update_same, hq]; rfl) h₂)
    |>.step (.client (.tunNew i true) trivial h₃)
    |>.step (.client (.setConnected i) trivial h₄),
    hcon₄, by rw [hconn₄, hconn₃, hconn₂, hconn₁], ?_, res, by rw [hsess₄, hsess₃, hsess₂], ?_⟩
  · dsimp only
    rw [handshakeConn, take_handshakeResponseFrame, hres]
  · dsimp only [Server.setTask]
    rw [Function.update_same, hsid, hip, uint32_putUint32]; rfl

theorem connect_progress_newSystem :
    newClient.threads[0]? = some (.dial false) ∧ newServer.tasks 0 = .idle ∧
      newServer.ipPool.used.card < 252 ∧
      acceptHandshake saltEcho echoKeyPair
        ((handshakeInitFrame echoKeyPair 0 (BytesN.zero 32)).take 4096) (List.replicate 32 0) =
          .ok zeroSession ∧
      (∀ sid ip padding, ∃ res, completeHandshake saltEcho echoKeyPair
        (handshakeResponseFrame echoKeyPair sid ip padding) = .ok res) ∧
      ∃ sy', SystemReach saltEcho echoKeyPair echoKeyPair true sy' ∧ sy'.client.connected = true ∧
        sy'.client.conn = some 0 ∧ sy'.sessionConn = some 0 ∧
        ∃ res, sy'.client.session = some res ∧
          (sy'.server.tasks 0).entry = some (res.sessionID, uint32 res.assignedIP.bytes) := by
  have hacc : acceptHandshake saltEcho echoKeyPair
      ((handshakeInitFrame echoKeyPair 0 (BytesN.zero 32)).take 4096) (List.replicate 32 0) =
        .ok zeroSession := rfl
  have hcomp : ∀ sid ip padding, ∃ res, completeHandshake saltEcho echoKeyPair
      (handshakeResponseFrame echoKeyPair sid ip padding) = .ok res := fun sid ip padding => by
    rw [handshakeResponseFrame, completeHandshake_responseFrame]; exact ⟨_, rfl⟩
  exact ⟨rfl, rfl, by decide, hacc, hcomp,
    connect_progress (.init : SystemReach saltEcho echoKeyPair echoKeyPair true newSystem)
      (i := 0) (t := 0) rfl rfl rfl (by decide) hacc hcomp [] (BytesN.zero 32)⟩

end Progress

/-! ## A run to a connected client -/

/-- The response frame of a server's first task: session id 0 and the pool's first address. -/
def firstResponse : Bytes :=
  handshakeResponseFrame echoKeyPair 0 (serverSubnet.base + UInt32.ofNat (0 + 2)) (BytesN.zero 32)

/-- A run of the two parties to a connected client: its `Dial` is accepted by task 0, which
completes the handshake, allocates and registers, and writes `firstResponse`; the client reads it,
opens its TUN device and sets `connected`. One step of the run writes on connection 0. -/
theorem connected_run :
    ∃ sys, List.Chain (SystemStep saltEcho echoKeyPair echoKeyPair true) newSystem sys ∧
      (∀ sy ∈ sys, IdsDistinct sy.server) ∧ (∃ sy ∈ sys, sy.client.connected = true) ∧
      writesOn 0 newSystem sys = 1 := by
  have h₁ : (newClient.run saltEcho echoKeyPair true [.dial 0 true]).isSome := by decide
  have h₂ : (newClient.run saltEcho echoKeyPair true
      [.dial 0 true, .handshake 0 (some firstResponse)]).isSome := by decide
  have h₃ : (newClient.run saltEcho echoKeyPair true
      [.dial 0 true, .handshake 0 (some firstResponse), .tunNew 0 true]).isSome := by decide
  have h₄ : (newClient.run saltEcho echoKeyPair true
      [.dial 0 true, .handshake 0 (some firstResponse), .tunNew 0 true, .setConnected 0]).isSome := by
    decide
  have s₂ := Client.step_of_run_singleton
    (run_of_run_append (Option.some_get h₁).symm (Option.some_get h₂).symm)
  have s₃ := Client.step_of_run_singleton
    (run_of_run_append (Option.some_get h₂).symm (Option.some_get h₃).symm)
  have s₄ := Client.step_of_run_singleton
    (run_of_run_append (Option.some_get h₃).symm (Option.some_get h₄).symm)
  refine ⟨_,
    .cons (.dial (t := 0) 0 rfl rfl (Client.step_of_run_singleton (Option.some_get h₁).symm)) <|
    .cons (.server (.handshake (t := 0) (handshakeInitFrame echoKeyPair 0 (BytesN.zero 32))
      (List.replicate 32 0) (List.replicate 8 0) rfl)) <|
    .cons (.server (.allocate (t := 0) (rfl : _ = Phase.keyed zeroSession 0)
      (allocate_filled (s := serverSubnet) (k := 0) (by decide) (by decide) (by decide)))) <|
    .cons (.server (.register (t := 0) rfl)) <|
    .cons (.respond (k := 0) (t := 0) (BytesN.zero 32) rfl rfl) <|
    .cons (.handshake (i := 0) (k := 0) (r := false) rfl rfl s₂) <|
    .cons (.client (.tunNew 0 true) trivial s₃) <|
    .cons (.client (.setConnected 0) trivial s₄) .nil, ?_,
    ⟨_, .tail _ (.tail _ (.tail _ (.tail _ (.tail _ (.tail _ (.tail _ (.head _))))))), rfl⟩, rfl⟩
  simp only [List.forall_mem_cons, List.not_mem_nil, false_implies, implies_true, and_true]
  refine ⟨?_, ?_, ?_, ?_, ?_, ?_, ?_, ?_⟩ <;>
    exact IdsDistinct.of_idle (t := 0) fun u hu => by
      simp [Server.setTask, newSystem, newServer, Function.update_noteq hu]

theorem connected_reach :
    ∃ sy, SystemReach saltEcho echoKeyPair echoKeyPair true sy ∧ sy.client.connected = true :=
  have ⟨_, hrun, _, ⟨sy, hmem, hc⟩, _⟩ := connected_run
  ⟨sy, systemReach_of_chain .init hrun sy hmem, hc⟩

/-! ## Agreement over whole runs -/

section Main

variable {P : Primitives} {ckp skp : KeyPair} {autoReconnect : Bool} {sy : System}

/-- In every state of every interleaving of the client's goroutines and the server's tasks, a
client that holds a session holds `10.8.0.1` as the server's address, and the session id and
address that the server task which accepted its connection stored, for as long as that task keeps
its entry; and while the client is connected, the connection its session was negotiated on is its
current one. -/
theorem system_agreement (hr : SystemReach P ckp skp autoReconnect sy) :
    (∀ res, sy.client.session = some res → res.serverIP = serverTunIP ∧
      ∃ k t, sy.sessionConn = some k ∧ sy.taskOf k = some t ∧
        ∀ sid ip, (sy.server.tasks t).entry = some (sid, ip) →
          sid = res.sessionID ∧ ip = uint32 res.assignedIP.bytes) ∧
    (sy.client.connected = true → sy.client.session.isSome ∧ sy.sessionConn = sy.client.conn) := by
  refine ⟨fun res hres => ?_, (systemReach_client hr).2.connected⟩
  obtain ⟨hsrv, k, t, hk, ht, hu⟩ := (systemReach_inv hr).session res hres
  exact ⟨hsrv, k, t, hk, ht, fun _ _ he => hu.entry he⟩

theorem system_agreement_connected :
    ∃ sy, SystemReach saltEcho echoKeyPair echoKeyPair true sy ∧ sy.client.connected = true ∧
      ((∀ res, sy.client.session = some res → res.serverIP = serverTunIP ∧
        ∃ k t, sy.sessionConn = some k ∧ sy.taskOf k = some t ∧
          ∀ sid ip, (sy.server.tasks t).entry = some (sid, ip) →
            sid = res.sessionID ∧ ip = uint32 res.assignedIP.bytes) ∧
      (sy.client.connected = true → sy.client.session.isSome ∧ sy.sessionConn = sy.client.conn)) :=
  have ⟨sy, hr, hc⟩ := connected_reach
  ⟨sy, hr, hc, system_agreement hr⟩

/-- Over every run of the client and the server from `New`, at most one step writes a
`HandshakeResponse` on each connection: the task that accepted it writes its response once, and no
other task writes a response there. -/
theorem response_written_once {sys : List System}
    (hrun : List.Chain (SystemStep P ckp skp autoReconnect) newSystem sys) (k : Nat) :
    writesOn k newSystem sys ≤ 1 :=
  (writesOn_le .init hrun).1

theorem response_written_once_connected :
    ∃ sys, List.Chain (SystemStep saltEcho echoKeyPair echoKeyPair true) newSystem sys ∧
      writesOn 0 newSystem sys = 1 ∧ writesOn 0 newSystem sys ≤ 1 :=
  have ⟨sys, hrun, _, _, h1⟩ := connected_run
  ⟨sys, hrun, h1, response_written_once hrun 0⟩

/-- In every state of a run of the client and the server from `New` in which no two live tasks
ever hold one session id: while the client is connected, the task that accepted its current
connection is the one whose entry routes the client's address, so as long as that task keeps its
entry the server's `tunReadLoop` seals every datagram whose bytes 16 to 20 are the client's
address once, with that task's entry, into the `Data` frame under the client's session id carrying
what `Encrypt` returned, whatever order `range` visits the table in. -/
theorem system_downlink {sys : List System}
    (hrun : List.Chain (SystemStep P ckp skp autoReconnect) newSystem sys)
    (hd : ∀ sy ∈ sys, IdsDistinct sy.server) (hsy : sy ∈ sys) (hc : sy.client.connected = true)
    {res : HandshakeResult} (hres : sy.client.session = some res) :
    ∃ k t, sy.client.conn = some k ∧ sy.taskOf k = some t ∧
      ((sy.server.tasks t).entry ≠ none →
        ∀ (sessionOf : ClientSession → Session) (order : List UInt64), order.Nodup →
          (∀ sid, sid ∈ order ↔ sy.server.sessions sid ≠ none) →
          ∀ datagram, 20 ≤ (tunRead datagram).length →
            destIP datagram = uint32 res.assignedIP.bytes → ∀ rnds,
            tunReadLoopBody P sy.server sessionOf datagram rnds order =
              [⟨⟨res.sessionID, t, uint32 res.assignedIP.bytes⟩,
                (sealDatagram P (sessionOf ⟨res.sessionID, t, uint32 res.assignedIP.bytes⟩)
                  res.sessionID datagram (rnds.headD [])).2,
                (sealDatagram P (sessionOf ⟨res.sessionID, t, uint32 res.assignedIP.bytes⟩)
                  res.sessionID datagram (rnds.headD [])).1.toOption⟩] ∧
            (sealDatagram P (sessionOf ⟨res.sessionID, t, uint32 res.assignedIP.bytes⟩)
                res.sessionID datagram (rnds.headD [])).1.toOption =
                ((sessionOf ⟨res.sessionID, t, uint32 res.assignedIP.bytes⟩).encrypt P (rnds.headD [])
                  (tunRead datagram)).1.toOption.map
                  (fun c => (newPacket packetTypeData res.sessionID c).marshal) ∧
            uint32 res.assignedIP.bytes = uint32 (slice (tunRead datagram) 16 20)) := by
  have hr := systemReach_of_chain .init hrun sy hsy
  obtain ⟨-, k, t, hk, ht, hu⟩ := (systemReach_inv hr).session res hres
  refine ⟨k, t, ((systemReach_client hr).2.connected hc).2.symm.trans hk, ht,
    fun he sessionOf order hnd henum datagram hlen hdst rnds => ?_⟩
  obtain ⟨⟨sid, ip⟩, hent⟩ := Option.ne_none_iff_exists'.1 he
  obtain ⟨rfl, rfl⟩ := hu.entry hent
  exact ⟨tunReadLoopBody_of_sessions (serverReach_inv (systemReach_server hr))
    (tableExact_systemChain TableExact.newServer hrun hd sy hsy t _ _ hent)
    sessionOf order hnd henum hlen hdst rnds, sealDatagram_frame P _ _ _ _, hdst.symm⟩

theorem system_downlink_connected :
    ∃ sys sy res, List.Chain (SystemStep saltEcho echoKeyPair echoKeyPair true) newSystem sys ∧
      (∀ sy ∈ sys, IdsDistinct sy.server) ∧ sy ∈ sys ∧ sy.client.connected = true ∧
      sy.client.session = some res ∧
      ∃ k t, sy.client.conn = some k ∧ sy.taskOf k = some t ∧
        ((sy.server.tasks t).entry ≠ none →
          ∀ (sessionOf : ClientSession → Session) (order : List UInt64), order.Nodup →
            (∀ sid, sid ∈ order ↔ sy.server.sessions sid ≠ none) →
            ∀ datagram, 20 ≤ (tunRead datagram).length →
              destIP datagram = uint32 res.assignedIP.bytes → ∀ rnds,
              tunReadLoopBody saltEcho sy.server sessionOf datagram rnds order =
                [⟨⟨res.sessionID, t, uint32 res.assignedIP.bytes⟩,
                  (sealDatagram saltEcho (sessionOf ⟨res.sessionID, t, uint32 res.assignedIP.bytes⟩)
                    res.sessionID datagram (rnds.headD [])).2,
                  (sealDatagram saltEcho (sessionOf ⟨res.sessionID, t, uint32 res.assignedIP.bytes⟩)
                    res.sessionID datagram (rnds.headD [])).1.toOption⟩] ∧
              (sealDatagram saltEcho (sessionOf ⟨res.sessionID, t, uint32 res.assignedIP.bytes⟩)
                  res.sessionID datagram (rnds.headD [])).1.toOption =
                  ((sessionOf ⟨res.sessionID, t, uint32 res.assignedIP.bytes⟩).encrypt saltEcho (rnds.headD [])
                    (tunRead datagram)).1.toOption.map
                    (fun c => (newPacket packetTypeData res.sessionID c).marshal) ∧
              uint32 res.assignedIP.bytes = uint32 (slice (tunRead datagram) 16 20)) :=
  have ⟨sys, hrun, hd, ⟨sy, hsy, hc⟩, _⟩ := connected_run
  have ⟨res, hres⟩ := Option.isSome_iff_exists.1
    ((systemReach_client (systemReach_of_chain .init hrun sy hsy)).2.connected hc).1
  ⟨sys, sy, res, hrun, hd, hsy, hc, hres, system_downlink hrun hd hsy hc hres⟩

end Main

end Hydra
