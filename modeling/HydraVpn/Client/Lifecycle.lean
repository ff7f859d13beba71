import HydraVpn.KeyAgreement

/-!
# The client's lifecycle: `Connect`, its loops, `handleDisconnect`, `reconnectLoop`, `Disconnect`

The goroutines of a `Client` share `c.conn`, `c.tunDevice`, the handshake results, `c.connected`
and the context. `Connect` dials, performs the handshake, creates a TUN device (starting
`tunReadLoop`), sets `connected` and starts `receiveLoop` and `keepaliveLoop`. A loop that fails
calls `handleDisconnect`, which clears `connected` and, with `AutoReconnect`, starts
`reconnectLoop`, which calls `Connect` until it succeeds. `Disconnect` closes `c.conn` and
`c.tunDevice`, cancels the context and waits for the loops.

`Client.step` is one atomic step of one goroutine, with the outcome of its I/O as part of the
action; it is `none` when the goroutine is not at that step. Two ghost fields count what the client
has opened and not closed: `openConns` and `openTuns`.

* `reach_run`: a run of actions from a reachable state reaches its end.
* `reconnect_keeps_old_connection`: after a receive error and a successful reconnect, the client
  holds two open transport connections, two TUN devices and two of each of `tunReadLoop` and
  `keepaliveLoop`.
* `disconnect_not_final`: a `Connect` of `reconnectLoop` that dialed before the cancel completes
  after `Disconnect` returned, and `Disconnect` leaves the first connection open.
* `reconnect_reuses_session_keys`: a reconnect derives the first `Connect`'s session again.
-/

namespace Hydra

/-- Where a goroutine of the client is. Goroutine 0 is the caller of `Connect` and then of
`Disconnect`; `retry` marks a `Connect` called by `reconnectLoop`. -/
inductive ClientThread where
  /-- `Connect`: `Dial` is next. -/
  | dial (retry : Bool)
  /-- `Connect`: `performHandshake` is next, on the connection `conn` it dialed. -/
  | handshake (retry : Bool) (conn : Nat)
  /-- `Connect`: `tun.New` is next. -/
  | tunNew (retry : Bool)
  /-- `Connect`: `c.connected = true` is next. -/
  | setConnected (retry : Bool)
  /-- `Connect`: `go c.receiveLoop()` is next. -/
  | spawnReceive (retry : Bool)
  /-- `Connect`: `go c.keepaliveLoop()` is next; then `Connect` returns. -/
  | spawnKeepalive (retry : Bool)
  /-- The caller, after `Connect` returned. -/
  | idle
  /-- `reconnectLoop` at the top of its loop. -/
  | reconnectLoop
  | tunReadLoop
  | receiveLoop
  | keepaliveLoop
  /-- A loop in `handleDisconnect`, before its critical section. -/
  | handleDisconnect
  /-- A loop in `handleDisconnect`, after clearing `connected`: starting `reconnectLoop` is next. -/
  | disconnected
  /-- `Disconnect`, after clearing `connected`: writing `Disconnect` and closing `c.conn` is next. -/
  | sendDisconnect
  /-- `Disconnect`: `c.cancel()` is next. -/
  | cancelling
  /-- `Disconnect`: closing `c.tunDevice` is next. -/
  | closingTun
  /-- `Disconnect`: `c.wg.Wait()`. -/
  | waiting
  | returned
  deriving DecidableEq, Repr

namespace ClientThread

/-- Where `Connect` goes when it fails: `reconnectLoop` tries again, the caller gets the error. -/
def connectFailed (retry : Bool) : ClientThread := if retry then .reconnectLoop else .idle

/-- Where `Connect` goes when it succeeds: `reconnectLoop` returns. -/
def connectDone (retry : Bool) : ClientThread := if retry then .returned else .idle

/-- The goroutines counted by `c.wg`: the three loops, until they return from `handleDisconnect`. -/
def inWaitGroup : ClientThread → Bool
  | tunReadLoop | receiveLoop | keepaliveLoop | handleDisconnect | disconnected => true
  | _ => false

end ClientThread

/-- What the goroutines of a `Client` share, with two ghost lists: the transport connections and
the TUN devices opened and not yet closed. Connections and devices are named by `nextId`. -/
structure Client where
  conn : Option Nat
  tunDevice : Option Nat
  session : Option HandshakeResult
  connected : Bool
  cancelled : Bool
  openConns : List Nat
  openTuns : List Nat
  nextId : Nat
  threads : List ClientThread
  deriving Repr

/-- `New`: nothing opened; the caller is about to call `Connect`. -/
def newClient : Client :=
  ⟨none, none, none, false, false, [], [], 0, [.dial false]⟩

/-- One atomic step of one goroutine. The I/O outcomes are part of the action: whether `Dial`,
`tun.New` and the loops' reads and writes succeed, and the bytes the handshake `Read` returns. -/
inductive ClientAction where
  | dial (i : Nat) (ok : Bool)
  /-- `performHandshake` with what its `Read` returned, `none` if its `Write` or `Read` failed. -/
  | handshake (i : Nat) (resp : Option Bytes)
  | tunNew (i : Nat) (ok : Bool)
  | setConnected (i : Nat)
  | spawnReceive (i : Nat)
  | spawnKeepalive (i : Nat)
  /-- An iteration of `reconnectLoop`: return if the context is done, else sleep and `Connect`. -/
  | reconnect (i : Nat)
  /-- A loop sees the context done and returns. -/
  | loopExit (i : Nat)
  /-- `tunReadLoop`'s `conn.Write` fails, or `receiveLoop`'s `conn.Read` fails or returns a
  `Disconnect` frame: the loop calls `handleDisconnect`. -/
  | loopFail (i : Nat)
  /-- A tick of `keepaliveLoop`: it returns if `connected` is false, else writes a `KeepAlive`. -/
  | keepaliveTick (i : Nat)
  /-- The critical section of `handleDisconnect`. -/
  | handleDisconnect (i : Nat)
  /-- `go c.reconnectLoop()` when `AutoReconnect` is set, and the loop returns. -/
  | spawnReconnect (i : Nat)
  /-- The next step of `Disconnect`. -/
  | disconnect (i : Nat)
  deriving DecidableEq, Repr

namespace Client

/-- Goroutine `i` moved to `th`. -/
def setThread (c : Client) (i : Nat) (th : ClientThread) : Client :=
  { c with threads := c.threads.set i th }

/-- A new goroutine. -/
def spawn (c : Client) (th : ClientThread) : Client :=
  { c with threads := c.threads ++ [th] }

section Step

variable (P : Primitives) (kp : KeyPair) (autoReconnect : Bool)

/-- `Client.step`: goroutine `i` takes the step the action names, if it is at that step. -/
def step (c : Client) : ClientAction → Option Client
  | .dial i ok =>
    match c.threads[i]? with
    | some (.dial r) =>
      if ok ∧ c.cancelled = false then
        some { c.setThread i (.handshake r c.nextId) with
          conn := some c.nextId, openConns := c.nextId :: c.openConns, nextId := c.nextId + 1 }
      else some (c.setThread i (.connectFailed r))
    | _ => none
  | .handshake i resp =>
    match c.threads[i]? with
    | some (.handshake r k) =>
      match resp.map fun b => completeHandshake P kp (b.take 4096) with
      | some (.ok res) => some { c.setThread i (.tunNew r) with session := some res }
      | _ => some { c.setThread i (.connectFailed r) with openConns := c.openConns.erase k }
    | _ => none
  | .tunNew i ok =>
    match c.threads[i]? with
    | some (.tunNew r) =>
      if ok then
        some ({ c.setThread i (.setConnected r) with
          tunDevice := some c.nextId, openTuns := c.nextId :: c.openTuns,
          nextId := c.nextId + 1 }.spawn .tunReadLoop)
      else some (c.setThread i (.setConnected r))
    | _ => none
  | .setConnected i =>
    match c.threads[i]? with
    | some (.setConnected r) => some { c.setThread i (.spawnReceive r) with connected := true }
    | _ => none
  | .spawnReceive i =>
    match c.threads[i]? with
    | some (.spawnReceive r) => some ((c.setThread i (.spawnKeepalive r)).spawn .receiveLoop)
    | _ => none
  | .spawnKeepalive i =>
    match c.threads[i]? with
    | some (.spawnKeepalive r) => some ((c.setThread i (.connectDone r)).spawn .keepaliveLoop)
    | _ => none
  | .reconnect i =>
    match c.threads[i]? with
    | some .reconnectLoop => some (c.setThread i (if c.cancelled then .returned else .dial true))
    | _ => none
  | .loopExit i =>
    match c.threads[i]? with
    | some .tunReadLoop | some .receiveLoop | some .keepaliveLoop =>
      if c.cancelled then some (c.setThread i .returned) else none
    | _ => none
  | .loopFail i =>
    match c.threads[i]? with
    | some .tunReadLoop | some .receiveLoop => some (c.setThread i .handleDisconnect)
    | _ => none
  | .keepaliveTick i =>
    match c.threads[i]? with
    | some .keepaliveLoop => some (if c.connected then c else c.setThread i .returned)
    | _ => none
  | .handleDisconnect i =>
    match c.threads[i]? with
    | some .handleDisconnect =>
      if c.connected then some { c.setThread i .disconnected with connected := false }
      else some (c.setThread i .returned)
    | _ => none
  | .spawnReconnect i =>
    match c.threads[i]? with
    | some .disconnected =>
      some (if autoReconnect then (c.setThread i .returned).spawn .reconnectLoop
        else c.setThread i .returned)
    | _ => none
  | .disconnect i =>
    match c.threads[i]? with
    | some .idle => some { c.setThread i .sendDisconnect with connected := false }
    | some .sendDisconnect =>
      some { c.setThread i .cancelling with
        openConns := match c.conn with
          | some k => c.openConns.erase k
          | none => c.openConns }
    | some .cancelling => some { c.setThread i .closingTun with cancelled := true }
    | some .closingTun =>
      some { c.setThread i .waiting with
        openTuns := match c.tunDevice with
          | some k => c.openTuns.erase k
          | none => c.openTuns }
    | some .waiting =>
      if c.threads.any ClientThread.inWaitGroup then none else some (c.setThread i .returned)
    | _ => none

/-- The actions run in order from `c`, or `none` if one of them is not enabled. -/
def run (c : Client) : List ClientAction → Option Client
  | [] => some c
  | a :: as => (c.step P kp autoReconnect a).bind fun c' => c'.run as

end Step

end Client

section Reach

variable (P : Primitives) (kp : KeyPair) (autoReconnect : Bool)

/-- The states of every interleaving of the client's goroutines from `New`. -/
inductive ClientReach : Client → Prop
  | init : ClientReach newClient
  | step {c c' : Client} (a : ClientAction) :
      ClientReach c → c.step P kp autoReconnect a = some c' → ClientReach c'

variable {P kp autoReconnect}

theorem reach_run {c c' : Client} (hc : ClientReach P kp autoReconnect c) {as : List ClientAction}
    (h : c.run P kp autoReconnect as = some c') : ClientReach P kp autoReconnect c' := by
  induction as generalizing c with
  | nil => cases h; exact hc
  | cons a as ih =>
    obtain ⟨c₁, h₁, h₂⟩ := Option.bind_eq_some.1 h
    exact ih (.step a hc h₁) h₂

theorem run_append (c : Client) (as bs : List ClientAction) :
    c.run P kp autoReconnect (as ++ bs) =
      (c.run P kp autoReconnect as).bind fun c' => c'.run P kp autoReconnect bs := by
  induction as generalizing c with
  | nil => rfl
  | cons a as ih =>
    rw [List.cons_append, Client.run, Client.run, Option.bind_assoc]
    exact congrArg _ (funext ih)

theorem run_of_run_append {c c₁ c₂ : Client} {as bs : List ClientAction}
    (h₁ : c.run P kp autoReconnect as = some c₁) (h₂ : c.run P kp autoReconnect (as ++ bs) = some c₂) :
    c₁.run P kp autoReconnect bs = some c₂ := by
  rw [run_append, h₁] at h₂
  exact h₂

theorem exists_run_session {c : Client} {as : List ClientAction}
    (h : ((c.run P kp autoReconnect as).bind Client.session).isSome) :
    ∃ c' res, c.run P kp autoReconnect as = some c' ∧ c'.session = some res := by
  cases hr : c.run P kp autoReconnect as with
  | none => rw [hr] at h; cases h
  | some c' =>
    rw [hr] at h
    obtain ⟨res, hs⟩ := Option.isSome_iff_exists.1 h
    exact ⟨c', res, rfl, hs⟩

end Reach

/-! ## A reconnect that leaks -/

/-- `Connect` by goroutine `i` with a successful handshake reading `resp` and TUN device. -/
def connectTrace (i : Nat) (resp : Bytes) : List ClientAction :=
  [.dial i true, .handshake i (some resp), .tunNew i true, .setConnected i, .spawnReceive i,
    .spawnKeepalive i]

/-- The caller's `Connect` succeeds (goroutines 1, 2, 3 are its `tunReadLoop`, `receiveLoop` and
`keepaliveLoop`); `receiveLoop`'s `Read` fails, so it calls `handleDisconnect`, which starts
`reconnectLoop` (goroutine 4); its `Connect` succeeds. -/
def reconnectTrace (resp : Bytes) : List ClientAction :=
  connectTrace 0 resp ++ [.loopFail 2, .handleDisconnect 2, .spawnReconnect 2, .reconnect 4] ++
    connectTrace 4 resp

/-- With `AutoReconnect`, after a receive error and a successful reconnect, the client holds two
open transport connections and two TUN devices, neither opened by the first `Connect` closed, and
runs two `tunReadLoop`s and two `keepaliveLoop`s. -/
theorem reconnect_keeps_old_connection :
    ∃ c, ClientReach saltEcho echoKeyPair true c ∧
      c.openConns = [2, 0] ∧ c.openTuns = [3, 1] ∧
      c.threads.count .tunReadLoop = 2 ∧ c.threads.count .keepaliveLoop = 2 := by
  have hrun : (newClient.run saltEcho echoKeyPair true
      (reconnectTrace (handshakeResponseFrame echoKeyPair 7 0x0A080002 (BytesN.zero 32)))).isSome :=
    by decide
  exact ⟨_, reach_run .init (Option.some_get hrun).symm, rfl, rfl, rfl, rfl⟩

/-! ## `Disconnect` racing `reconnectLoop` -/

/-- The server's response frame the runs below read: session 7, address `10.8.0.2`, zero
padding, under `echoKeyPair`. -/
def echoResponse : Bytes := handshakeResponseFrame echoKeyPair 7 0x0A080002 (BytesN.zero 32)

/-- The caller's `Connect` succeeds; `receiveLoop`'s `Read` fails and `handleDisconnect` starts
`reconnectLoop` (goroutine 4), whose `Connect` dials and completes the handshake. Then the caller
runs `Disconnect` to its end, the loops of the first `Connect` returning on the cancel. -/
def disconnectRaceTrace (resp : Bytes) : List ClientAction :=
  connectTrace 0 resp ++ [.loopFail 2, .handleDisconnect 2, .spawnReconnect 2, .reconnect 4,
    .dial 4 true, .handshake 4 (some resp), .disconnect 0, .disconnect 0, .disconnect 0,
    .disconnect 0, .loopExit 1, .loopExit 3, .disconnect 0]

/-- `Disconnect` is not final: in the run of `disconnectRaceTrace`, `Disconnect` returns with the
first transport connection still open (it closed `c.conn`, which the reconnect had replaced), and
the reconnect's `Connect` then goes on to open a TUN device, set `connected` and return success,
all after `Disconnect` returned. -/
theorem disconnect_not_final :
    ∃ c₁ c₂, ClientReach saltEcho echoKeyPair true c₁ ∧
      c₁.threads[0]? = some .returned ∧ c₁.connected = false ∧
      c₁.openConns = [0] ∧ c₁.openTuns = [] ∧
      c₁.run saltEcho echoKeyPair true [.tunNew 4 true, .setConnected 4, .spawnReceive 4,
        .spawnKeepalive 4] = some c₂ ∧
      c₂.threads[0]? = some .returned ∧ c₂.threads[4]? = some .returned ∧ c₂.connected = true ∧
      c₂.openConns = [0] ∧ c₂.openTuns = [3] := by
  have h₁ : (newClient.run saltEcho echoKeyPair true (disconnectRaceTrace echoResponse)).isSome := by
    decide
  have h₂ : (newClient.run saltEcho echoKeyPair true (disconnectRaceTrace echoResponse ++
      [.tunNew 4 true, .setConnected 4, .spawnReceive 4, .spawnKeepalive 4])).isSome := by
    decide
  exact ⟨_, _, reach_run .init (Option.some_get h₁).symm, rfl, rfl, rfl, rfl,
    run_of_run_append (Option.some_get h₁).symm (Option.some_get h₂).symm, rfl, rfl, rfl, rfl, rfl⟩

/-! ## One key pair for every `Connect` -/

/-- `performHandshake` derives its session from its key pair, the server's public key and the
zero salt only: two responses of one server give one session, with its counters at 0. -/
theorem completeHandshake_same_server {P : Primitives} {kp skp : KeyPair} {sid sid' : UInt64}
    {ip ip' : UInt32} {pad pad' : Bytes32} {res res' : HandshakeResult}
    (h : completeHandshake P kp (handshakeResponseFrame skp sid ip pad) = .ok res)
    (h' : completeHandshake P kp (handshakeResponseFrame skp sid' ip' pad') = .ok res') :
    res'.cryptoSession = res.cryptoSession ∧ res.cryptoSession.sendNonce = 0 := by
  rw [handshakeResponseFrame, completeHandshake_responseFrame] at h h'
  obtain ⟨ss, hss, h⟩ := except_bind_eq_ok.1 h
  obtain ⟨cs, hcs, hres⟩ := except_bind_eq_ok.1 h
  obtain ⟨ss', hss', h'⟩ := except_bind_eq_ok.1 h'
  obtain ⟨cs', hcs', hres'⟩ := except_bind_eq_ok.1 h'
  cases hres
  cases hres'
  rw [except_mapError_eq_ok] at hss hss' hcs hcs'
  rw [hss] at hss'
  cases hss'
  rw [hcs] at hcs'
  cases hcs'
  obtain ⟨k1, k2, -, rfl⟩ := deriveSessionKeys_eq P hcs
  exact ⟨rfl, rfl⟩

/-- The actions of `reconnectTrace` after the caller's `Connect`. -/
theorem reconnectTrace_eq (resp : Bytes) :
    reconnectTrace resp = connectTrace 0 resp ++
      ([.loopFail 2, .handleDisconnect 2, .spawnReconnect 2, .reconnect 4] ++ connectTrace 4 resp) :=
  List.append_assoc _ _ _

/-- Every `Connect` of a client handshakes with the one key pair `New` generated, so with the
server's long-lived key pair and the fixed zero salt a reconnect derives the session the first
`Connect` derived, with its send counter back at 0: for every choice of primitives, and in the run
of `reconnectTrace`, where the two `Connect` calls both succeed. -/
theorem reconnect_reuses_session_keys :
    (∀ (P : Primitives) (kp skp : KeyPair) (sid sid' : UInt64) (ip ip' : UInt32)
        (pad pad' : Bytes32) (res res' : HandshakeResult),
      completeHandshake P kp (handshakeResponseFrame skp sid ip pad) = .ok res →
      completeHandshake P kp (handshakeResponseFrame skp sid' ip' pad') = .ok res' →
      res'.cryptoSession = res.cryptoSession ∧ res.cryptoSession.sendNonce = 0) ∧
    ∃ c₁ c₂ res₁ res₂, ClientReach saltEcho echoKeyPair true c₁ ∧ c₁.session = some res₁ ∧
      c₁.run saltEcho echoKeyPair true ([.loopFail 2, .handleDisconnect 2, .spawnReconnect 2,
        .reconnect 4] ++ connectTrace 4 echoResponse) = some c₂ ∧
      c₂.session = some res₂ ∧ res₂.cryptoSession = res₁.cryptoSession ∧
      res₁.cryptoSession.sendNonce = 0 := by
  obtain ⟨c₁, res₁, hr₁, hs₁⟩ := exists_run_session (by decide :
    ((newClient.run saltEcho echoKeyPair true (connectTrace 0 echoResponse)).bind
      Client.session).isSome)
  obtain ⟨c₂, res₂, hr₂, hs₂⟩ := exists_run_session (by decide :
    ((newClient.run saltEcho echoKeyPair true (reconnectTrace echoResponse)).bind
      Client.session).isSome)
  have hkeys : ((newClient.run saltEcho echoKeyPair true (connectTrace 0 echoResponse)).bind
      Client.session).map (·.cryptoSession) =
    ((newClient.run saltEcho echoKeyPair true (reconnectTrace echoResponse)).bind
      Client.session).map (·.cryptoSession) := by decide
  have hnonce : ((newClient.run saltEcho echoKeyPair true (connectTrace 0 echoResponse)).bind
      Client.session).map (·.cryptoSession.sendNonce) = some 0 := by decide
  rw [hr₁, Option.some_bind, hs₁] at hkeys hnonce
  rw [hr₂, Option.some_bind, hs₂] at hkeys
  rw [reconnectTrace_eq] at hr₂
  exact ⟨fun _ _ _ _ _ _ _ _ _ _ _ h h' => completeHandshake_same_server h h',
    c₁, c₂, res₁, res₂, reach_run .init hr₁, hs₁, run_of_run_append hr₁ hr₂, hs₂,
    (Option.some_injective _ hkeys).symm, Option.some_injective _ hnonce⟩

end Hydra
