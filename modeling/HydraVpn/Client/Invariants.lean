import HydraVpn.Client.Lifecycle

/-!
# What every interleaving of the client's goroutines keeps

`handleDisconnect` tests and clears `connected` in one critical section and only then starts
`reconnectLoop`; `Connect` sets `connected` only after its handshake. So the goroutines that are
in `Connect` before that point, or about to start `reconnectLoop`, together with the flag
`connected`, never number more than one: a step can only hand that one token on.

* `connectCount_step`: no step raises the count of such goroutines plus `connected`.
* `connect_exclusive`: in every reachable state at most one goroutine dials, performs the
  handshake (which writes `c.conn`, the session and the addresses without a lock) or waits to
  start `reconnectLoop`, and none does while `connected` is set.
-/

namespace Hydra

namespace ClientThread

/-- A goroutine in `Connect` before `c.connected = true`, or one about to start `reconnectLoop`,
which calls `Connect`. -/
def connecting : ClientThread → Bool
  | dial _ | handshake _ _ | tunNew _ | setConnected _ | reconnectLoop | disconnected => true
  | _ => false

@[simp] theorem connecting_connectFailed (r : Bool) : (connectFailed r).connecting = r := by
  cases r <;> rfl

@[simp] theorem connecting_connectDone (r : Bool) : (connectDone r).connecting = false := by
  cases r <;> rfl

end ClientThread

theorem countP_set_add {α : Type} (p : α → Bool) :
    ∀ {l : List α} {i : Nat} {x : α}, l[i]? = some x → ∀ y,
      (l.set i y).countP p + (p x).toNat = l.countP p + (p y).toNat
  | _ :: _, 0, _, h, y => by
    cases Option.some_injective _ (List.getElem?_cons_zero ▸ h)
    simp only [List.set_cons_zero, List.countP_cons]
    cases p y <;> cases p _ <;> rfl
  | _ :: _, _ + 1, _, h, y => by
    have := countP_set_add p (List.getElem?_cons_succ ▸ h) y
    simp only [List.set_cons_succ, List.countP_cons]
    omega

namespace Client

/-- The goroutines that are in `Connect` before setting `connected`, or about to start
`reconnectLoop`, plus one if `connected` is set. -/
def connectCount (c : Client) : Nat :=
  c.threads.countP ClientThread.connecting + c.connected.toNat

variable {c c' : Client} {i : Nat} {x y : ClientThread}

/-- Goroutine `i` at `x` moves to `y`; `connected` may change. -/
theorem connectCount_le_set (hx : c.threads[i]? = some x) (ht : c'.threads = c.threads.set i y)
    (hle : y.connecting.toNat + c'.connected.toNat ≤ x.connecting.toNat + c.connected.toNat) :
    c'.connectCount ≤ c.connectCount := by
  have := countP_set_add ClientThread.connecting hx y
  rw [connectCount, connectCount, ht]
  omega

/-- Goroutine `i` at `x` moves to `y` and starts `z`. -/
theorem connectCount_le_spawn {z : ClientThread} (hx : c.threads[i]? = some x)
    (ht : c'.threads = c.threads.set i y ++ [z])
    (hle : y.connecting.toNat + z.connecting.toNat + c'.connected.toNat ≤
      x.connecting.toNat + c.connected.toNat) :
    c'.connectCount ≤ c.connectCount := by
  have := countP_set_add ClientThread.connecting hx y
  have hz : [z].countP ClientThread.connecting = z.connecting.toNat := by
    rw [List.countP_singleton]; cases z.connecting <;> rfl
  rw [connectCount, connectCount, ht, List.countP_append, hz]
  omega

variable {P : Primitives} {kp : KeyPair} {autoReconnect : Bool} {a : ClientAction}

/-- No step raises `connectCount`: a goroutine enters the count only in `handleDisconnect`, when
it clears a set `connected`, and leaves it when `Connect` sets `connected` or fails for good. -/
theorem connectCount_step (h : c.step P kp autoReconnect a = some c') :
    c'.connectCount ≤ c.connectCount := by
  cases a with
  | setConnected i | handleDisconnect i =>
    -- the flag is set as the goroutine leaves the count, or cleared as it enters it
    dsimp only [step] at h
    split at h <;> (try split at h) <;> cases h <;> refine connectCount_le_set ‹_› rfl ?_
    all_goals
      simp only [ClientThread.connecting, setThread, Bool.toNat_true, Bool.toNat_false, *]
      omega
  | tunNew i _ | spawnReceive i | spawnKeepalive i | spawnReconnect i =>
    -- a loop is started, or `reconnectLoop` in the place of `disconnected`
    dsimp only [step] at h
    split at h <;> (try split at h) <;> cases h <;>
      first
      | refine connectCount_le_spawn ‹_› rfl ?_
      | refine connectCount_le_set ‹_› rfl ?_
    all_goals
      try simp only [ClientThread.connecting_connectDone]
      simp only [ClientThread.connecting, setThread, spawn, Bool.toNat_true, Bool.toNat_false, *]
      omega
  | dial i _ | handshake i _ | reconnect i | loopExit i | loopFail i | keepaliveTick i
    | disconnect i =>
    -- one goroutine moves, never into the count, and the flag is kept or cleared
    dsimp only [step] at h
    split at h <;> (try split at h) <;> cases h <;>
      first
      | exact Nat.le_refl _
      | refine connectCount_le_set ‹_› rfl ?_
    all_goals
      try simp only [ClientThread.connecting_connectFailed]
      simp only [ClientThread.connecting, setThread, Bool.toNat_true, Bool.toNat_false,
        Nat.add_le_add_iff_right, Bool.toNat_le, *] <;> omega

end Client

section Runs

variable {P : Primitives} {kp : KeyPair} {autoReconnect : Bool} {c c' : Client}

theorem connectCount_le_one (hr : ClientReach P kp autoReconnect c) : c.connectCount ≤ 1 := by
  induction hr with
  | init => exact Nat.le_refl _
  | step _ _ h ih => exact (Client.connectCount_step h).trans ih

/-- In every state of every interleaving, at most one goroutine is in `Connect` before setting
`connected` or about to start `reconnectLoop`, and while one is, `connected` is false: two
`Connect` calls never dial or perform the handshake at the same time, and `handleDisconnect`
never starts a second `reconnectLoop` while one is trying. -/
theorem connect_exclusive (hr : ClientReach P kp autoReconnect c) :
    c.threads.countP ClientThread.connecting ≤ 1 ∧
      ∀ th ∈ c.threads, th.connecting = true → c.connected = false := by
  have h := connectCount_le_one hr
  rw [Client.connectCount] at h
  refine ⟨by omega, fun th hth hc => ?_⟩
  have := List.countP_pos_iff.2 ⟨th, hth, hc⟩
  cases hcon : c.connected
  · rfl
  · rw [hcon, Bool.toNat_true] at h; omega

/-- The caller's `Connect` succeeds, `receiveLoop`'s `Read` fails, and the `reconnectLoop` that
`handleDisconnect` starts (goroutine 4) has dialed: it is about to perform the handshake. -/
theorem connect_exclusive_reconnecting :
    ∃ c, ClientReach saltEcho echoKeyPair true c ∧ c.threads[4]? = some (.handshake true 2) ∧
      (c.threads.countP ClientThread.connecting ≤ 1 ∧
        ∀ th ∈ c.threads, th.connecting = true → c.connected = false) := by
  have hrun : (newClient.run saltEcho echoKeyPair true (connectTrace 0 echoResponse ++
      [.loopFail 2, .handleDisconnect 2, .spawnReconnect 2, .reconnect 4, .dial 4 true])).isSome :=
    by decide
  have hr := reach_run .init (Option.some_get hrun).symm
  exact ⟨_, hr, rfl, connect_exclusive hr⟩

end Runs

end Hydra
