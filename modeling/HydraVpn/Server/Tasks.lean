import HydraVpn.Frames
import HydraVpn.Server.IPPool
import Mathlib.Logic.Function.Basic

/-!
# Connection tasks, the session table and the address pool

`Server.handleConnection` runs as one goroutine per accepted connection. A task reads the
handshake, derives keys and draws a session id, calls `s.ipPool.Allocate()` (under the pool's
mutex), stores its `ClientSession` in `s.sessions` (under `sessionsMu`), writes the response and
serves frames until it returns. From the store on, a deferred function deletes
`s.sessions[sessionID]` and then calls `Release`: two critical sections, with other tasks free to
run between them. `tunReadLoop` runs alongside and reads the table.

`ServerStep` is one atomic step of any task, or of `tunReadLoop`; a task returns at every step
where the code does. `ServerReach` is the states of every interleaving from `New`.

* `TableInv`: the pool is sane, `used` is the set of addresses the tasks hold, each held by one
  task, and every entry of the table is the one its task stored and has not deleted.
* `TableInv.step`: every step keeps it; `serverReach_inv`: it holds in every reachable state.
* `sessions_pool_agree`: in every reachable state `used` is the set of addresses that tasks got
  from `Allocate` and have not released, each held by one task, the table's addresses are
  distinct and in use, and once every task has returned the table and the pool are empty.
* `fill_reach`, `exhausted_reach`: the runs in which tasks register one client each in turn, up
  to the state with 252 addresses in use and the pool exhausted.
* `allocate_below_capacity`: while fewer than 252 tasks hold an address, `Allocate` finds a free
  one in every reachable state, and with 252 in use a reachable state reports exhaustion.
-/

namespace Hydra

/-- An entry of `s.sessions`. The pointer stored stands for the task that stored it (`owner`),
whose `Conn` and `CryptoSession` it shares. `LastSeen` is written and never read, and is left out. -/
structure ClientSession where
  id : UInt64
  owner : Nat
  assignedIP : UInt32
  deriving DecidableEq, Repr

/-- Where a `handleConnection` task is. -/
inductive Phase where
  /-- No connection accepted for this task yet. -/
  | idle
  /-- Accepted; the handshake `Read` is next. -/
  | reading
  /-- Keys derived and session id drawn; `Allocate` is next. -/
  | keyed (sess : Session) (sessionID : UInt64)
  /-- Holds the address `Allocate` returned; storing the session is next. -/
  | allocated (sess : Session) (sessionID : UInt64) (clientIP : UInt32)
  /-- Session stored and cleanup deferred; writing the response is next. -/
  | registered (sess : Session) (sessionID : UInt64) (clientIP : UInt32)
  /-- In the data loop. -/
  | established (sess : Session) (sessionID : UInt64) (clientIP : UInt32)
  /-- Returning: the deferred function deletes the table entry next. -/
  | closing (sessionID : UInt64) (clientIP : UInt32)
  /-- Returning: the entry is deleted; `Release` is next. -/
  | releasing (sessionID : UInt64) (clientIP : UInt32)
  /-- Returned. -/
  | done
  deriving DecidableEq, Repr

namespace Phase

/-- The address a task holds: returned by `Allocate` and not yet passed to `Release`. -/
def clientIP : Phase → Option UInt32
  | allocated _ _ ip | registered _ _ ip | established _ _ ip | closing _ ip | releasing _ ip =>
    some ip
  | _ => none

/-- The key and address of the table entry a task stored and has not deleted. -/
def entry : Phase → Option (UInt64 × UInt32)
  | registered _ sid ip | established _ sid ip | closing sid ip => some (sid, ip)
  | _ => none

/-- The task's crypto session changed by `f`, in the phases that hold one. -/
def mapSession (f : Session → Session) : Phase → Phase
  | keyed s sid => keyed (f s) sid
  | allocated s sid ip => allocated (f s) sid ip
  | registered s sid ip => registered (f s) sid ip
  | established s sid ip => established (f s) sid ip
  | ph => ph

theorem clientIP_of_entry {ph : Phase} {sid : UInt64} {ip : UInt32}
    (h : ph.entry = some (sid, ip)) : ph.clientIP = some ip := by
  cases ph <;> simp_all [entry, clientIP]

@[simp] theorem clientIP_mapSession (f : Session → Session) (ph : Phase) :
    (ph.mapSession f).clientIP = ph.clientIP := by
  cases ph <;> rfl

@[simp] theorem entry_mapSession (f : Session → Session) (ph : Phase) :
    (ph.mapSession f).entry = ph.entry := by
  cases ph <;> rfl

end Phase

section Steps

variable (P : Primitives) (kp : KeyPair)

/-- Steps (a) to (c) on what the handshake `Read` put into the 4096-byte buffer: the task returns
on a parse or key error, and otherwise draws its session id. -/
def handshakePhase (msg saltRnd idRnd : Bytes) : Phase :=
  match acceptHandshake P kp (msg.take 4096) saltRnd with
  | .ok sess => .keyed sess (sessionIDOf idRnd)
  | .error _ => .done

/-- The task after `Allocate` returned `r`: it returns on an error. -/
def allocatedPhase (sess : Session) (sessionID : UInt64) : Except String UInt32 → Phase
  | .ok ip => .allocated sess sessionID ip
  | .error _ => .done

/-- One iteration of the data loop on what a `Read` put into the buffer: `none` when the task
returns (a `Disconnect` frame), otherwise its crypto session after the frame. A frame that does not
parse and a `Data` frame that does not decrypt are skipped; a `KeepAlive` is answered. -/
def serveFrame (sess : Session) (msg : Bytes) : Option Session :=
  match unmarshalPacket (msg.take 4096) with
  | .error _ => some sess
  | .ok packet =>
    if packet.header.type = packetTypeData then some (sess.decrypt P packet.payload).2
    else if packet.header.type = packetTypeDisconnect then none
    else some sess

/-- The task after one iteration of the data loop. -/
def servePhase (sess : Session) (sessionID : UInt64) (clientIP : UInt32) (msg : Bytes) : Phase :=
  match serveFrame P sess msg with
  | some sess' => .established sess' sessionID clientIP
  | none => .closing sessionID clientIP

@[simp] theorem clientIP_handshakePhase (msg saltRnd idRnd : Bytes) :
    (handshakePhase P kp msg saltRnd idRnd).clientIP = none := by
  unfold handshakePhase; split <;> rfl

@[simp] theorem entry_handshakePhase (msg saltRnd idRnd : Bytes) :
    (handshakePhase P kp msg saltRnd idRnd).entry = none := by
  unfold handshakePhase; split <;> rfl

@[simp] theorem clientIP_servePhase (sess : Session) (sid : UInt64) (ip : UInt32) (msg : Bytes) :
    (servePhase P sess sid ip msg).clientIP = some ip := by
  unfold servePhase; split <;> rfl

@[simp] theorem entry_servePhase (sess : Session) (sid : UInt64) (ip : UInt32) (msg : Bytes) :
    (servePhase P sess sid ip msg).entry = some (sid, ip) := by
  unfold servePhase; split <;> rfl

/-- `net.IP(buf[16:20])`: the IPv4 destination of a datagram read from the TUN device. -/
def destIP (datagram : Bytes) : UInt32 := uint32 (slice (tunRead datagram) 16 20)

/-- What the tasks share: `s.sessions` and `s.ipPool`, with where each task is. -/
structure Server where
  sessions : UInt64 → Option ClientSession
  ipPool : IPPool
  tasks : Nat → Phase

/-- `New`: an empty table and the pool of `10.8.0.0/24`; no connection accepted yet. -/
def newServer : Server := ⟨fun _ => none, newIPPool serverSubnet, fun _ => .idle⟩

/-- Task `t` moved to `ph`; the table and the pool unchanged. -/
def Server.setTask (st : Server) (t : Nat) (ph : Phase) : Server :=
  { st with tasks := Function.update st.tasks t ph }

/-- The atomic steps of the `handleConnection` tasks and of `tunReadLoop`. -/
inductive ServerStep : Server → Server → Prop
  /-- `acceptLoop` starts a task for a new connection. -/
  | accept {st : Server} {t : Nat} : st.tasks t = .idle → ServerStep st (st.setTask t .reading)
  /-- The handshake `Read` fails. -/
  | readFail {st : Server} {t : Nat} : st.tasks t = .reading → ServerStep st (st.setTask t .done)
  /-- Steps (a) to (c) on the bytes read. -/
  | handshake {st : Server} {t : Nat} (msg saltRnd idRnd : Bytes) : st.tasks t = .reading →
      ServerStep st (st.setTask t (handshakePhase P kp msg saltRnd idRnd))
  /-- `s.ipPool.Allocate()`. -/
  | allocate {st : Server} {t : Nat} {sess : Session} {sid : UInt64} {r : Except String UInt32}
      {p' : IPPool} : st.tasks t = .keyed sess sid → st.ipPool.allocate = some (r, p') →
      ServerStep st
        { st with ipPool := p', tasks := Function.update st.tasks t (allocatedPhase sess sid r) }
  /-- `s.sessions[sessionID] = session`, which arms the deferred cleanup. -/
  | register {st : Server} {t : Nat} {sess : Session} {sid : UInt64} {ip : UInt32} :
      st.tasks t = .allocated sess sid ip →
      ServerStep st
        { st with sessions := Function.update st.sessions sid (some ⟨sid, t, ip⟩),
                  tasks := Function.update st.tasks t (.registered sess sid ip) }
  /-- `conn.Write` of the response, which may fail. -/
  | respond {st : Server} {t : Nat} {sess : Session} {sid : UInt64} {ip : UInt32} (ok : Bool) :
      st.tasks t = .registered sess sid ip →
      ServerStep st (st.setTask t (if ok then .established sess sid ip else .closing sid ip))
  /-- A `Read` error, or the server's context done, in the data loop. -/
  | serveFail {st : Server} {t : Nat} {sess : Session} {sid : UInt64} {ip : UInt32} :
      st.tasks t = .established sess sid ip → ServerStep st (st.setTask t (.closing sid ip))
  /-- One frame read in the data loop. -/
  | serve {st : Server} {t : Nat} {sess : Session} {sid : UInt64} {ip : UInt32} (msg : Bytes) :
      st.tasks t = .established sess sid ip → ServerStep st (st.setTask t (servePhase P sess sid ip msg))
  /-- The deferred `delete(s.sessions, sessionID)`. -/
  | deleteSession {st : Server} {t : Nat} {sid : UInt64} {ip : UInt32} :
      st.tasks t = .closing sid ip →
      ServerStep st
        { st with sessions := Function.update st.sessions sid none,
                  tasks := Function.update st.tasks t (.releasing sid ip) }
  /-- The deferred `s.ipPool.Release(clientIP)`, after which the task has returned. -/
  | releaseIP {st : Server} {t : Nat} {sid : UInt64} {ip : UInt32} :
      st.tasks t = .releasing sid ip →
      ServerStep st { st with ipPool := st.ipPool.release ip, tasks := Function.update st.tasks t .done }
  /-- `tunReadLoop` finds the entry for a datagram's destination (the map's range order is
  unspecified, so any matching entry) and seals the datagram with that task's session. -/
  | tunReadLoop {st : Server} {sid : UInt64} {e : ClientSession} (datagram rnd : Bytes) :
      st.sessions sid = some e → 20 ≤ (tunRead datagram).length → e.assignedIP = destIP datagram →
      ServerStep st (st.setTask e.owner
        ((st.tasks e.owner).mapSession fun s => (sealDatagram P s e.id datagram rnd).2))

/-- The states of every interleaving of the steps from `New`. -/
inductive ServerReach : Server → Prop
  | init : ServerReach newServer
  | step {st st' : Server} : ServerReach st → ServerStep P kp st st' → ServerReach st'

end Steps

/-! ## The invariant -/

/-- The invariant of every run: the pool is sane, `used` is the set of addresses the tasks hold,
each held by one task, and every entry of the table is under its own id and is the one its task
stored and has not deleted. -/
structure TableInv (st : Server) : Prop where
  sane : st.ipPool.Sane
  used_iff : ∀ a, a ∈ st.ipPool.used ↔ ∃ t, (st.tasks t).clientIP = some a
  holder_unique : ∀ {t u a}, (st.tasks t).clientIP = some a → (st.tasks u).clientIP = some a → t = u
  entry_owner : ∀ {sid e}, st.sessions sid = some e →
    e.id = sid ∧ (st.tasks e.owner).entry = some (sid, e.assignedIP)

section Update

variable {β : Type} (g : Phase → Option β) {f : Nat → Phase} {t u : Nat} {ph : Phase}

theorem update_view (h : g ph = g (f t)) (u : Nat) : g (Function.update f t ph u) = g (f u) := by
  by_cases hu : u = t
  · subst hu; rw [Function.update_same, h]
  · rw [Function.update_noteq hu]

theorem update_eq_some {b : β} :
    g (Function.update f t ph u) = some b ↔ (u = t ∧ g ph = some b) ∨ (u ≠ t ∧ g (f u) = some b) := by
  by_cases hu : u = t
  · subst hu; simp
  · simp [hu, Function.update_noteq hu]

end Update

namespace TableInv

variable {st : Server} {t : Nat}

theorem newServer : TableInv newServer where
  sane := IPPool.sane_newIPPool (by decide) (by decide)
  used_iff _ := by simp [Hydra.newServer, newIPPool, Phase.clientIP]
  holder_unique h := by simp [Hydra.newServer, Phase.clientIP] at h
  entry_owner h := by simp [Hydra.newServer] at h

/-- A step that changes neither the pool nor what any task holds keeps the invariant if the table
it leaves is right. -/
theorem of_clientIP {st' : Server} (hi : TableInv st) (hp : st'.ipPool = st.ipPool)
    (hc : ∀ u, (st'.tasks u).clientIP = (st.tasks u).clientIP)
    (hown : ∀ {sid e}, st'.sessions sid = some e →
      e.id = sid ∧ (st'.tasks e.owner).entry = some (sid, e.assignedIP)) : TableInv st' where
  sane := hp ▸ hi.sane
  used_iff a := by simp only [hp, hc]; exact hi.used_iff a
  holder_unique h1 h2 := hi.holder_unique ((hc _).symm.trans h1) ((hc _).symm.trans h2)
  entry_owner := hown

/-- A step that changes neither the table nor the pool, nor what any task holds or has stored. -/
theorem of_views {st' : Server} (hi : TableInv st) (hs : st'.sessions = st.sessions)
    (hp : st'.ipPool = st.ipPool) (hc : ∀ u, (st'.tasks u).clientIP = (st.tasks u).clientIP)
    (he : ∀ u, (st'.tasks u).entry = (st.tasks u).entry) : TableInv st' :=
  hi.of_clientIP hp hc fun h => by rw [hs] at h; rw [he]; exact hi.entry_owner h

theorem setTask (hi : TableInv st) {ph : Phase} (hc : ph.clientIP = (st.tasks t).clientIP)
    (he : ph.entry = (st.tasks t).entry) : TableInv (st.setTask t ph) :=
  hi.of_views rfl rfl (update_view _ hc) (update_view _ he)

/-- An entry whose task is not `t` survives a change of task `t`. -/
theorem entry_owner_update (hi : TableInv st) {ph : Phase} {sid : UInt64} {e : ClientSession}
    (h : st.sessions sid = some e) (hne : e.owner ≠ t) :
    e.id = sid ∧ (Function.update st.tasks t ph e.owner).entry = some (sid, e.assignedIP) := by
  rw [Function.update_noteq hne]; exact hi.entry_owner h

/-- A task that has stored no entry owns none. -/
theorem owner_ne (hi : TableInv st) (ht : (st.tasks t).entry = none) {sid : UInt64}
    {e : ClientSession} (h : st.sessions sid = some e) : e.owner ≠ t := by
  rintro rfl
  rw [(hi.entry_owner h).2] at ht
  cases ht

/-- The table's addresses are distinct: two entries with one address are under one id. -/
theorem assignedIP_inj (hi : TableInv st) {sid sid' : UInt64} {e e' : ClientSession}
    (h : st.sessions sid = some e) (h' : st.sessions sid' = some e')
    (heq : e.assignedIP = e'.assignedIP) : sid = sid' := by
  have hmem : ∀ {sid e}, st.sessions sid = some e → (st.tasks e.owner).clientIP = some e.assignedIP :=
    fun h => Phase.clientIP_of_entry (hi.entry_owner h).2
  have hown := (hi.entry_owner h).2
  rw [hi.holder_unique (hmem h) (heq ▸ hmem h'), (hi.entry_owner h').2] at hown
  exact (Prod.mk.inj (Option.some_injective _ hown)).1.symm

theorem allocated (hi : TableInv st) {sess : Session} {sid : UInt64} {ip : UInt32} {p' : IPPool}
    (ht : st.tasks t = .keyed sess sid) (ha : st.ipPool.allocate = some (.ok ip, p')) :
    TableInv { st with ipPool := p', tasks := Function.update st.tasks t (.allocated sess sid ip) } := by
  obtain ⟨hfree, hused, -, hsane⟩ := IPPool.allocate_ok hi.sane ha
  have hfree' : ∀ u, (st.tasks u).clientIP ≠ some ip := fun u h => hfree ((hi.used_iff _).2 ⟨u, h⟩)
  refine ⟨hsane, fun a => ?_, fun {u v a} h1 h2 => ?_, fun h => ?_⟩
  · dsimp only
    rw [hused, Finset.mem_insert, hi.used_iff]
    simp only [update_eq_some]
    constructor
    · rintro (rfl | ⟨u, hu⟩)
      · exact ⟨t, .inl ⟨rfl, rfl⟩⟩
      · exact ⟨u, .inr ⟨(by rintro rfl; rw [ht] at hu; cases hu), hu⟩⟩
    · rintro ⟨u, ⟨-, h⟩ | ⟨-, h⟩⟩
      · exact .inl (Option.some_injective _ h).symm
      · exact .inr ⟨u, h⟩
  · simp only [update_eq_some] at h1 h2
    rcases h1 with ⟨rfl, h1⟩ | ⟨-, h1⟩ <;> rcases h2 with ⟨rfl, h2⟩ | ⟨-, h2⟩
    · rfl
    · cases (Option.some_injective _ h1); exact absurd h2 (hfree' v)
    · cases (Option.some_injective _ h2); exact absurd h1 (hfree' u)
    · exact hi.holder_unique h1 h2
  · exact hi.entry_owner_update h (hi.owner_ne (by rw [ht]; rfl) h)

theorem registered (hi : TableInv st) {sess : Session} {sid : UInt64} {ip : UInt32}
    (ht : st.tasks t = .allocated sess sid ip) :
    TableInv { st with sessions := Function.update st.sessions sid (some ⟨sid, t, ip⟩),
                       tasks := Function.update st.tasks t (.registered sess sid ip) } := by
  refine hi.of_clientIP rfl (update_view _ (by rw [ht]; rfl)) fun {sid' e} h => ?_
  dsimp only at h ⊢
  by_cases hs : sid' = sid
  · subst hs
    rw [Function.update_same, Option.some.injEq] at h
    subst h
    exact ⟨rfl, by dsimp only; rw [Function.update_same]; rfl⟩
  · rw [Function.update_noteq hs] at h
    exact hi.entry_owner_update h (hi.owner_ne (by rw [ht]; rfl) h)

theorem deleted (hi : TableInv st) {sid : UInt64} {ip : UInt32} (ht : st.tasks t = .closing sid ip) :
    TableInv { st with sessions := Function.update st.sessions sid none,
                       tasks := Function.update st.tasks t (.releasing sid ip) } := by
  refine hi.of_clientIP rfl (update_view _ (by rw [ht]; rfl)) fun {sid' e} h => ?_
  dsimp only at h ⊢
  by_cases hs : sid' = sid
  · subst hs; rw [Function.update_same] at h; cases h
  · rw [Function.update_noteq hs] at h
    refine hi.entry_owner_update h fun hown => hs ?_
    have := (hi.entry_owner h).2
    rw [hown, ht] at this
    exact (Prod.mk.inj (Option.some_injective _ this)).1.symm

theorem released (hi : TableInv st) {sid : UInt64} {ip : UInt32} (ht : st.tasks t = .releasing sid ip) :
    TableInv { st with ipPool := st.ipPool.release ip, tasks := Function.update st.tasks t .done } := by
  have hip : (st.tasks t).clientIP = some ip := by rw [ht]; rfl
  refine ⟨hi.sane.release ip, fun a => ?_, fun h1 h2 => ?_, fun h => ?_⟩
  · dsimp only
    rw [IPPool.release, Finset.mem_erase, hi.used_iff]
    simp only [update_eq_some]
    constructor
    · rintro ⟨hne, u, hu⟩
      refine ⟨u, .inr ⟨fun hut => ?_, hu⟩⟩
      subst hut; rw [hip] at hu; exact hne (Option.some_injective _ hu).symm
    · rintro ⟨u, ⟨-, h⟩ | ⟨hut, hu⟩⟩
      · cases h
      · exact ⟨fun hai => hut (hi.holder_unique hu (hai ▸ hip)), u, hu⟩
  · simp only [update_eq_some] at h1 h2
    rcases h1 with ⟨-, ⟨⟩⟩ | ⟨-, h1⟩
    rcases h2 with ⟨-, ⟨⟩⟩ | ⟨-, h2⟩
    exact hi.holder_unique h1 h2
  · exact hi.entry_owner_update h (hi.owner_ne (by rw [ht]; rfl) h)

variable {P : Primitives} {kp : KeyPair}

/-- Every step of every task and of `tunReadLoop` keeps the invariant. -/
theorem step {st' : Server} (hi : TableInv st) (h : ServerStep P kp st st') : TableInv st' := by
  cases h with
  | accept ht => exact hi.setTask (by rw [ht]; rfl) (by rw [ht]; rfl)
  | readFail ht => exact hi.setTask (by rw [ht]; rfl) (by rw [ht]; rfl)
  | handshake msg saltRnd idRnd ht =>
    exact hi.setTask (by rw [clientIP_handshakePhase, ht]; rfl) (by rw [entry_handshakePhase, ht]; rfl)
  | @allocate t sess sid r p' ht ha =>
    cases r with
    | ok ip => exact hi.allocated ht ha
    | error e =>
      exact hi.of_views rfl (IPPool.allocate_error hi.sane ha)
        (update_view _ (by rw [ht]; rfl)) (update_view _ (by rw [ht]; rfl))
  | register ht => exact hi.registered ht
  | respond ok ht => exact hi.setTask (by rw [ht]; cases ok <;> rfl) (by rw [ht]; cases ok <;> rfl)
  | serveFail ht => exact hi.setTask (by rw [ht]; rfl) (by rw [ht]; rfl)
  | serve msg ht =>
    exact hi.setTask (by rw [clientIP_servePhase, ht]; rfl) (by rw [entry_servePhase, ht]; rfl)
  | deleteSession ht => exact hi.deleted ht
  | releaseIP ht => exact hi.released ht
  | tunReadLoop datagram rnd _ _ _ => exact hi.setTask (by simp) (by simp)

end TableInv

theorem serverReach_inv {P : Primitives} {kp : KeyPair} {st : Server} (hr : ServerReach P kp st) :
    TableInv st := by
  induction hr with
  | init => exact TableInv.newServer
  | step _ hs ih => exact ih.step hs

/-! ## Runs that register clients in turn -/

/-- The session `handshakePhase` derives under `saltEcho` from a zero salt: both keys zero. -/
def zeroSession : Session := ⟨BytesN.zero 32, BytesN.zero 32, 0, 0⟩

section Fill

variable {P : Primitives} {kp : KeyPair} {msg saltRnd idRnd : Bytes} {sess : Session}

/-- Tasks `0 … k - 1` accept one client each, all sending `msg`, and register it in turn: the
pool is `filled` with their addresses and every other task is idle. -/
theorem fill_reach (hkey : handshakePhase P kp msg saltRnd idRnd = .keyed sess (sessionIDOf idRnd)) :
    ∀ k, k + 3 ≤ 256 → ∃ st, ServerReach P kp st ∧ st.ipPool = filled serverSubnet k ∧
      ∀ u, st.tasks u = if u < k then
        .registered sess (sessionIDOf idRnd) (serverSubnet.base + UInt32.ofNat (u + 2)) else .idle
  | 0, _ => ⟨newServer, .init, rfl, fun u => (if_neg (Nat.not_lt_zero u)).symm⟩
  | k + 1, hk => by
    obtain ⟨st, hr, hp, ht⟩ := fill_reach hkey k (by omega)
    have hidle : st.tasks k = .idle := by rw [ht, if_neg (lt_irrefl k)]
    have hal : st.ipPool.allocate =
        some (.ok (serverSubnet.base + UInt32.ofNat (k + 2)), filled serverSubnet (k + 1)) := by
      rw [hp]; exact allocate_filled (by decide) (by decide) (by show k + 4 ≤ 256; omega)
    refine ⟨_, ((((hr.step (.accept hidle)).step
      (.handshake msg saltRnd idRnd (Function.update_same _ _ _))).step
      (.allocate ((Function.update_same _ _ _).trans hkey) hal)).step
      (.register (Function.update_same _ _ _))), rfl, fun u => ?_⟩
    by_cases hu : u = k
    · subst hu; simp only [Function.update_same, if_pos (Nat.lt_succ_self u)]
    · simp only [Server.setTask, Function.update_noteq hu, ht, Nat.lt_succ_iff_lt_or_eq, hu, or_false]

/-- Then task 252, which holds `base + 254`, fails to respond and returns: the pool is
`releasedLast`, and only tasks `0 … 251` hold an address. -/
theorem exhausted_reach (hkey : handshakePhase P kp msg saltRnd idRnd = .keyed sess (sessionIDOf idRnd)) :
    ∃ st, ServerReach P kp st ∧ st.ipPool = releasedLast serverSubnet ∧
      ∀ u, (st.tasks u).clientIP ≠ none → u < 252 := by
  obtain ⟨st, hr, hp, ht⟩ := fill_reach hkey 253 (by decide)
  have h252 : st.tasks 252 =
      .registered sess (sessionIDOf idRnd) (serverSubnet.base + UInt32.ofNat (252 + 2)) := by
    rw [ht, if_pos (by decide)]
  refine ⟨_, ((hr.step (.respond false h252)).step
    (.deleteSession (Function.update_same _ _ _))).step (.releaseIP (Function.update_same _ _ _)),
    by dsimp only [Server.setTask]; rw [hp]; rfl, fun u hu => ?_⟩
  by_cases h : u = 252
  · subst h; simp only [Server.setTask, Function.update_same] at hu; exact (hu rfl).elim
  · simp only [Server.setTask, Function.update_noteq h, ht] at hu
    by_contra hge
    rw [if_neg (by omega)] at hu
    exact hu rfl

end Fill

/-- In every state of every interleaving of the connection tasks and `tunReadLoop`: `used` is the
set of addresses that tasks got from `Allocate` and have not passed to `Release`, no address is
held by two tasks, the table's addresses are in use and pairwise distinct, and once every task
has returned the table and the pool are empty. -/
theorem sessions_pool_agree {P : Primitives} {kp : KeyPair} {st : Server} (hr : ServerReach P kp st) :
    (∀ a, a ∈ st.ipPool.used ↔ ∃ t, (st.tasks t).clientIP = some a) ∧
    (∀ t u a, (st.tasks t).clientIP = some a → (st.tasks u).clientIP = some a → t = u) ∧
    (∀ sid e, st.sessions sid = some e → e.assignedIP ∈ st.ipPool.used) ∧
    (∀ sid sid' e e', st.sessions sid = some e → st.sessions sid' = some e' →
      e.assignedIP = e'.assignedIP → sid = sid') ∧
    ((∀ t, st.tasks t = .idle ∨ st.tasks t = .done) →
      (∀ sid, st.sessions sid = none) ∧ st.ipPool.used = ∅) := by
  have hi := serverReach_inv hr
  have hmem : ∀ {sid e}, st.sessions sid = some e → (st.tasks e.owner).clientIP = some e.assignedIP :=
    fun h => Phase.clientIP_of_entry (hi.entry_owner h).2
  refine ⟨hi.used_iff, fun _ _ _ => hi.holder_unique, fun _ _ h => (hi.used_iff _).2 ⟨_, hmem h⟩,
    fun _ _ _ _ => hi.assignedIP_inj, fun hdone => ⟨fun sid => ?_, ?_⟩⟩
  · cases hs : st.sessions sid with
    | none => rfl
    | some e =>
      have := hmem hs
      rcases hdone e.owner with h | h <;> rw [h] at this <;> cases this
  · refine Finset.eq_empty_of_forall_not_mem fun a ha => ?_
    obtain ⟨t, ht⟩ := (hi.used_iff a).1 ha
    rcases hdone t with h | h <;> rw [h] at ht <;> cases ht

/-- The first handshake under `saltEcho` and `echoKeyPair`: zero salt and id bytes. -/
theorem handshakePhase_echo :
    handshakePhase saltEcho echoKeyPair (handshakeInitFrame echoKeyPair 0 (BytesN.zero 32))
      (List.replicate 32 0) [] = .keyed zeroSession (sessionIDOf []) := rfl

theorem sessions_pool_agree_twoClients :
    ∃ st, ServerReach saltEcho echoKeyPair st ∧
      (∀ u, st.tasks u = if u < 2 then
        .registered zeroSession 0 (serverSubnet.base + UInt32.ofNat (u + 2)) else .idle) ∧
      ((∀ a, a ∈ st.ipPool.used ↔ ∃ t, (st.tasks t).clientIP = some a) ∧
      (∀ t u a, (st.tasks t).clientIP = some a → (st.tasks u).clientIP = some a → t = u) ∧
      (∀ sid e, st.sessions sid = some e → e.assignedIP ∈ st.ipPool.used) ∧
      (∀ sid sid' e e', st.sessions sid = some e → st.sessions sid' = some e' →
        e.assignedIP = e'.assignedIP → sid = sid') ∧
      ((∀ t, st.tasks t = .idle ∨ st.tasks t = .done) →
        (∀ sid, st.sessions sid = none) ∧ st.ipPool.used = ∅)) :=
  have ⟨st, hr, _, ht⟩ := fill_reach handshakePhase_echo 2 (by decide)
  ⟨st, hr, ht, sessions_pool_agree hr⟩

/-! ## Capacity -/

section Capacity

variable {P : Primitives} {kp : KeyPair} {st : Server}

/-- Every step keeps the pool on its subnet. -/
theorem subnet_step (hi : TableInv st) {st' : Server} (h : ServerStep P kp st st') :
    st'.ipPool.subnet = st.ipPool.subnet := by
  cases h with
  | @allocate _ _ _ r _ _ ha =>
    cases r with
    | ok _ => exact (IPPool.allocate_ok hi.sane ha).2.2.1
    | error _ => rw [IPPool.allocate_error hi.sane ha]
  | _ => rfl

theorem serverReach_subnet (hr : ServerReach P kp st) : st.ipPool.subnet = serverSubnet := by
  induction hr with
  | init => rfl
  | step hr hs ih => rw [subnet_step (serverReach_inv hr) hs, ih]

/-- While the tasks holding an address are among fewer than 252, `Allocate` returns a free one. -/
theorem allocate_ok_of_holders (hr : ServerReach P kp st) {T : Finset Nat}
    (hT : ∀ t, (st.tasks t).clientIP ≠ none → t ∈ T) (hcard : T.card < 252) :
    ∃ ip p', st.ipPool.allocate = some (.ok ip, p') ∧ ip ∉ st.ipPool.used := by
  have hi := serverReach_inv hr
  have hsub : st.ipPool.used ⊆ T.image fun t => ((st.tasks t).clientIP).getD 0 := fun a ha => by
    obtain ⟨t, ht⟩ := (hi.used_iff a).1 ha
    exact Finset.mem_image.2 ⟨t, hT t (by rw [ht]; exact Option.some_ne_none a), by rw [ht]; rfl⟩
  have hused := (Finset.card_le_card hsub).trans Finset.card_image_le
  refine IPPool.allocate_ok_of_card_lt hi.sane ?_
  rw [IPPool.capacity, serverReach_subnet hr, show (2 : Nat) ^ serverSubnet.hostBits = 256 from rfl]
  omega

/-- In every reachable state in which the tasks holding an address are among fewer than 252,
`Allocate` returns a free address: the next client is never refused for lack of one. The bound
is tight: once some handshake is accepted, a reachable state has 252 addresses in use, held by
tasks `0 … 251`, and `Allocate` reports the pool exhausted. -/
theorem allocate_below_capacity {msg saltRnd : Bytes} {sess : Session}
    (hacc : acceptHandshake P kp (msg.take 4096) saltRnd = .ok sess) :
    (∀ st, ServerReach P kp st → ∀ T : Finset Nat, (∀ t, (st.tasks t).clientIP ≠ none → t ∈ T) →
      T.card < 252 → ∃ ip p', st.ipPool.allocate = some (.ok ip, p') ∧ ip ∉ st.ipPool.used) ∧
    ∃ st, ServerReach P kp st ∧ (∀ t, (st.tasks t).clientIP ≠ none → t ∈ Finset.range 252) ∧
      st.ipPool.used.card = 252 ∧ st.ipPool.allocate = some (.error "IP pool exhausted", st.ipPool) := by
  refine ⟨fun st hr _ hT hcard => allocate_ok_of_holders hr hT hcard, ?_⟩
  have hkey : handshakePhase P kp msg saltRnd [] = .keyed sess (sessionIDOf []) := by
    rw [handshakePhase, hacc]
  obtain ⟨st, hr, hp, hu⟩ := exhausted_reach hkey
  refine ⟨st, hr, fun t ht => Finset.mem_range.2 (hu t ht), ?_, ?_⟩
  · rw [hp, card_releasedLast (by decide)]; rfl
  · rw [hp]; exact allocate_releasedLast (by decide) (by decide)

theorem allocate_below_capacity_twoClients :
    acceptHandshake saltEcho echoKeyPair
        ((handshakeInitFrame echoKeyPair 0 (BytesN.zero 32)).take 4096) (List.replicate 32 0) =
      .ok zeroSession ∧
    (∃ st, ServerReach saltEcho echoKeyPair st ∧
      st.tasks 0 = .registered zeroSession 0 (serverSubnet.base + UInt32.ofNat 2) ∧
      st.tasks 1 = .registered zeroSession 0 (serverSubnet.base + UInt32.ofNat 3) ∧
      (∀ t, (st.tasks t).clientIP ≠ none → t ∈ ({0, 1} : Finset Nat)) ∧
      ∃ ip p', st.ipPool.allocate = some (.ok ip, p') ∧ ip ∉ st.ipPool.used) ∧
    ∃ st, ServerReach saltEcho echoKeyPair st ∧
      (∀ t, (st.tasks t).clientIP ≠ none → t ∈ Finset.range 252) ∧
      st.ipPool.used.card = 252 ∧ st.ipPool.allocate = some (.error "IP pool exhausted", st.ipPool) := by
  have hacc : acceptHandshake saltEcho echoKeyPair
      ((handshakeInitFrame echoKeyPair 0 (BytesN.zero 32)).take 4096) (List.replicate 32 0) =
      .ok zeroSession := rfl
  have h := allocate_below_capacity hacc
  obtain ⟨st, hr, -, ht⟩ := fill_reach handshakePhase_echo 2 (by decide)
  have hT : ∀ t, (st.tasks t).clientIP ≠ none → t ∈ ({0, 1} : Finset Nat) := fun t hc => by
    rw [ht] at hc
    by_contra hn
    rw [if_neg (by simp only [Finset.mem_insert, Finset.mem_singleton] at hn; omega)] at hc
    exact hc rfl
  exact ⟨hacc, ⟨st, hr, ht 0, ht 1, hT, h.1 st hr _ hT (by decide)⟩, h.2⟩

end Capacity

end Hydra
