import HydraVpn.Server.Delivery

/-!
# Two tasks with one session id

`handleConnection` draws its session id from `rand.Reader` and stores its entry with
`s.sessions[sessionID] = session`, whatever is there already; its deferred cleanup deletes
whatever is under the id. A task that draws the id of a live task therefore overwrites that
task's entry, and when the overwritten task returns it deletes the other's. Either way a task is
left serving its connection and holding its address with no entry in the table, and
`tunReadLoop`, which finds clients only through the table, drops every datagram for it.

* `Unlisted`: no entry of the table belongs to a task. A task that has stored its entry never
  stores one again, so once unlisted it stays so for the rest of every run (`unlisted_chain`).
* `tunReadLoopBody_of_unlisted`: in a reachable state, `tunReadLoop` seals nothing for the
  address of an unlisted task that still holds it.
* `sessionID_collision_overwrites`: after a task stores its entry under the id of a live task that
  has stored its own, the first task is unlisted in every later state, and every datagram for its
  address is dropped while it holds the address.
* `sessionID_collision_deletes`: when the overwritten task returns, its deferred delete removes
  the other task's entry, with the same consequence for the other task's client.
-/

namespace Hydra

namespace Phase

/-- A task that will not store an entry again: it has stored one, or it has returned. -/
def pastRegister : Phase → Bool
  | registered _ _ _ | established _ _ _ | closing _ _ | releasing _ _ | done => true
  | _ => false

theorem pastRegister_of_entry {ph : Phase} {x : UInt64 × UInt32} (h : ph.entry = some x) :
    ph.pastRegister = true := by
  cases ph <;> first | rfl | cases h

@[simp] theorem pastRegister_mapSession (f : Session → Session) (ph : Phase) :
    (ph.mapSession f).pastRegister = ph.pastRegister := by
  cases ph <;> rfl

end Phase

variable {P : Primitives} {kp : KeyPair} {st st' : Server} {t : Nat}

@[simp] theorem pastRegister_servePhase (sess : Session) (sid : UInt64) (ip : UInt32) (msg : Bytes) :
    (servePhase P sess sid ip msg).pastRegister = true := by
  unfold servePhase; split <;> rfl

/-- A change of task `u` keeps task `t` past its store if it moves `u` forward from there. -/
theorem pastRegister_update {f : Nat → Phase} {u : Nat} {ph : Phase} (h : (f t).pastRegister = true)
    (hph : (f u).pastRegister = true → ph.pastRegister = true) :
    (Function.update f u ph t).pastRegister = true := by
  by_cases hu : t = u
  · subst hu; rw [Function.update_same]; exact hph h
  · rw [Function.update_noteq hu]; exact h

/-- Every step moves a task that is past its store only forward. -/
theorem pastRegister_step (h : (st.tasks t).pastRegister = true) (hs : ServerStep P kp st st') :
    (st'.tasks t).pastRegister = true := by
  cases hs with
  | accept ht | readFail ht | handshake _ _ _ ht | allocate ht _ | register ht =>
    exact pastRegister_update h fun hu => by rw [ht] at hu; cases hu
  | respond ok _ => exact pastRegister_update h fun _ => by cases ok <;> rfl
  | serve msg _ => exact pastRegister_update h fun _ => pastRegister_servePhase ..
  | serveFail _ | deleteSession _ | releaseIP _ => exact pastRegister_update h fun _ => rfl
  | tunReadLoop _ _ _ _ _ =>
    exact pastRegister_update h fun hu => by rw [Phase.pastRegister_mapSession]; exact hu

/-- No entry of the table belongs to task `t`. -/
def Unlisted (st : Server) (t : Nat) : Prop :=
  ∀ sid e, st.sessions sid = some e → e.owner ≠ t

/-- Only the task's own `register` lists it: every step keeps a task that is past its store
unlisted. -/
theorem Unlisted.step (hu : Unlisted st t) (hp : (st.tasks t).pastRegister = true)
    (hs : ServerStep P kp st st') : Unlisted st' t := by
  cases hs with
  | @register u _ sid _ ht =>
    intro sid' e h
    by_cases hs : sid' = sid
    · subst hs
      cases (Function.update_same sid' _ st.sessions).symm.trans h
      rintro rfl
      rw [ht] at hp; cases hp
    · exact hu sid' e ((Function.update_noteq hs _ _).symm.trans h)
  | @deleteSession _ sid _ _ =>
    intro sid' e h
    by_cases hs : sid' = sid
    · subst hs; cases (Function.update_same sid' _ st.sessions).symm.trans h
    · exact hu sid' e ((Function.update_noteq hs _ _).symm.trans h)
  | accept _ | readFail _ | handshake _ _ _ _ | allocate _ _ | respond _ _ | serveFail _
  | serve _ _ | releaseIP _ | tunReadLoop _ _ _ _ _ => exact hu

/-- Along every run from a state in which task `t` is past its store and unlisted, it stays
so. -/
theorem unlisted_chain {sts : List Server} (hu : Unlisted st t) (hp : (st.tasks t).pastRegister = true)
    (hrun : List.Chain (ServerStep P kp) st sts) :
    ∀ s ∈ sts, Unlisted s t ∧ (s.tasks t).pastRegister = true := by
  induction hrun with
  | nil => intro _ h; cases h
  | cons hs _ ih =>
    have hu' := hu.step hp hs
    have hp' := pastRegister_step hp hs
    exact List.forall_mem_cons.2 ⟨⟨hu', hp'⟩, ih hu' hp'⟩

variable (P)

/-- In a state that keeps the table invariant, `tunReadLoop` finds no entry for the address of an
unlisted task that holds it: the address has one holder, and the table's entries are their
holders'. -/
theorem tunReadLoopBody_of_unlisted (hi : TableInv st) (hu : Unlisted st t) {ip : UInt32}
    (hip : (st.tasks t).clientIP = some ip) (sessionOf : ClientSession → Session)
    {datagram : Bytes} (hdst : destIP datagram = ip) (rnds : List Bytes) (order : List UInt64) :
    tunReadLoopBody P st sessionOf datagram rnds order = [] := by
  unfold tunReadLoopBody
  split
  · rfl
  · refine tunScan_of_none P sessionOf datagram (fun e he heq => ?_) rnds
    obtain ⟨sid, -, hs⟩ := List.mem_filterMap.1 he
    have hown := Phase.clientIP_of_entry (hi.entry_owner hs).2
    rw [heq, hdst] at hown
    exact hu sid e hs (hi.holder_unique hown hip)

/-- The datagrams dropped in every state of a run from a reachable state in which task `t` is
past its store and unlisted. -/
theorem unlisted_run_drops (hr : ServerReach P kp st) (hu : Unlisted st t)
    (hp : (st.tasks t).pastRegister = true) {sts : List Server}
    (hrun : List.Chain (ServerStep P kp) st sts) {ip : UInt32} :
    ∀ s ∈ st :: sts, Unlisted s t ∧ ((s.tasks t).clientIP = some ip →
      ∀ sessionOf datagram rnds order, destIP datagram = ip →
        tunReadLoopBody P s sessionOf datagram rnds order = []) := by
  have hall : ∀ s ∈ st :: sts, ServerReach P kp s ∧ Unlisted s t := fun s hs => by
    rcases List.mem_cons.1 hs with rfl | hs
    · exact ⟨hr, hu⟩
    · exact ⟨reach_of_chain hr hrun s hs, (unlisted_chain hu hp hrun s hs).1⟩
  intro s hs
  obtain ⟨hrs, hus⟩ := hall s hs
  exact ⟨hus, fun hip sessionOf _ rnds order hdst =>
    tunReadLoopBody_of_unlisted P (serverReach_inv hrs) hus hip sessionOf hdst rnds order⟩

variable {P} {sid : UInt64} {ip ip' : UInt32} {u : Nat} {sess : Session}

/-- After task `u` stores its entry under the id of task `t`, which has stored its own, no entry
belongs to `t`: `u`'s entry replaced `t`'s, and `t` had no other. -/
theorem unlisted_of_overwrite (hi : TableInv st) (ht : (st.tasks t).entry = some (sid, ip))
    (hu : st.tasks u = .allocated sess sid ip') :
    Unlisted { st with sessions := Function.update st.sessions sid (some ⟨sid, u, ip'⟩),
                       tasks := Function.update st.tasks u (.registered sess sid ip') } t := by
  intro sid' e h
  by_cases hs : sid' = sid
  · subst hs
    cases (Function.update_same sid' _ st.sessions).symm.trans h
    rintro rfl
    rw [hu] at ht; cases ht
  · rintro rfl
    have hown := (hi.entry_owner ((Function.update_noteq hs _ _).symm.trans h)).2
    rw [ht] at hown
    exact hs (Prod.mk.inj (Option.some_injective _ hown)).1.symm

/-- When task `t` deletes the entry under its id, no entry belongs to another task `u` that
stored its own under that id. -/
theorem unlisted_of_delete (hi : TableInv st) (ht : st.tasks t = .closing sid ip)
    (hu : (st.tasks u).entry = some (sid, ip')) :
    Unlisted { st with sessions := Function.update st.sessions sid none,
                       tasks := Function.update st.tasks t (.releasing sid ip) } u := by
  intro sid' e h
  by_cases hs : sid' = sid
  · subst hs; cases (Function.update_same sid' _ st.sessions).symm.trans h
  · rintro rfl
    have hown := (hi.entry_owner ((Function.update_noteq hs _ _).symm.trans h)).2
    rw [hu] at hown
    exact hs (Prod.mk.inj (Option.some_injective _ hown)).1.symm

/-- A task that stores its entry under the session id of a live task `t` that has stored its own
overwrites `t`'s entry. `t` goes on holding its address, and from then on, in every state of the
run, no entry of the table belongs to `t`; while `t` holds its address, `tunReadLoop` drops every
datagram for it, in whatever order `range` visits the table. -/
theorem sessionID_collision_overwrites (hr : ServerReach P kp st)
    (ht : (st.tasks t).entry = some (sid, ip)) (hu : st.tasks u = .allocated sess sid ip')
    {sts : List Server}
    (hrun : List.Chain (ServerStep P kp)
      { st with sessions := Function.update st.sessions sid (some ⟨sid, u, ip'⟩),
                tasks := Function.update st.tasks u (.registered sess sid ip') } sts) :
    (Function.update st.tasks u (.registered sess sid ip') t).clientIP = some ip ∧
    ∀ s ∈ ({ st with sessions := Function.update st.sessions sid (some ⟨sid, u, ip'⟩),
                     tasks := Function.update st.tasks u (.registered sess sid ip') } : Server) :: sts,
      Unlisted s t ∧ ((s.tasks t).clientIP = some ip →
        ∀ sessionOf datagram rnds order, destIP datagram = ip →
          tunReadLoopBody P s sessionOf datagram rnds order = []) := by
  have hut : t ≠ u := by rintro rfl; rw [hu] at ht; cases ht
  have hkeep : Function.update st.tasks u (.registered sess sid ip') t = st.tasks t :=
    Function.update_noteq hut _ _
  refine ⟨hkeep ▸ Phase.clientIP_of_entry ht, ?_⟩
  exact unlisted_run_drops P (.step hr (.register hu))
    (unlisted_of_overwrite (serverReach_inv hr) ht hu)
    (by dsimp only; rw [hkeep]; exact Phase.pastRegister_of_entry ht) hrun

/-- Two connection tasks from `New` that draw one session id: task 0 through the store of its
entry for `10.8.0.2`, then task 1 through `Allocate` of `10.8.0.3`, both on a `HandshakeInit`
frame under `echoKeyPair` with zero salt and id bytes. -/
theorem twoClients_reach :
    ∃ st, ServerReach saltEcho echoKeyPair st ∧
      st.tasks 0 = .registered zeroSession 0 (serverSubnet.base + UInt32.ofNat (0 + 2)) ∧
      st.tasks 1 = .allocated zeroSession 0 (serverSubnet.base + UInt32.ofNat (1 + 2)) :=
  ⟨_, .step (.step (.step (.step (.step (.step (.step
    (.init : ServerReach saltEcho echoKeyPair newServer)
    (.accept (t := 0) rfl))
    (.handshake (t := 0) (handshakeInitFrame echoKeyPair 0 (BytesN.zero 32)) (List.replicate 32 0)
      (List.replicate 8 0) rfl))
    (.allocate (t := 0) (by decide : _ = Phase.keyed zeroSession 0)
      (allocate_filled (s := serverSubnet) (k := 0) (by decide) (by decide) (by decide))))
    (.register (t := 0) rfl))
    (.accept (t := 1) rfl))
    (.handshake (t := 1) (handshakeInitFrame echoKeyPair 0 (BytesN.zero 32)) (List.replicate 32 0)
      (List.replicate 8 0) rfl))
    (.allocate (t := 1) (by decide : _ = Phase.keyed zeroSession 0)
      (allocate_filled (s := serverSubnet) (k := 1) (by decide) (by decide) (by decide))),
    rfl, rfl⟩

theorem sessionID_collision_overwrites_twoClients :
    ∃ st, ServerReach saltEcho echoKeyPair st ∧
      (st.tasks 0).entry = some (0, serverSubnet.base + UInt32.ofNat (0 + 2)) ∧
      st.tasks 1 = .allocated zeroSession 0 (serverSubnet.base + UInt32.ofNat (1 + 2)) ∧
      (Function.update st.tasks 1 (.registered zeroSession 0 (serverSubnet.base + UInt32.ofNat (1 + 2)))
        0).clientIP = some (serverSubnet.base + UInt32.ofNat (0 + 2)) ∧
      ∀ s ∈ [({ st with
          sessions := Function.update st.sessions 0
            (some ⟨0, 1, serverSubnet.base + UInt32.ofNat (1 + 2)⟩),
          tasks := Function.update st.tasks 1
            (.registered zeroSession 0 (serverSubnet.base + UInt32.ofNat (1 + 2))) } : Server)],
        Unlisted s 0 ∧ ((s.tasks 0).clientIP = some (serverSubnet.base + UInt32.ofNat (0 + 2)) →
          ∀ sessionOf datagram rnds order,
            destIP datagram = serverSubnet.base + UInt32.ofNat (0 + 2) →
            tunReadLoopBody saltEcho s sessionOf datagram rnds order = []) :=
  have ⟨st, hr, h0, h1⟩ := twoClients_reach
  have ht : (st.tasks 0).entry = some (0, serverSubnet.base + UInt32.ofNat (0 + 2)) := by
    rw [h0]; rfl
  ⟨st, hr, ht, h1, sessionID_collision_overwrites hr ht h1 .nil⟩

/-- Two live tasks `t` and `u` that have stored their entries under one session id: when `t`
returns, its deferred `delete(s.sessions, sessionID)` removes whatever is under the id, `u`'s entry
if it overwrote `t`'s. `u` goes on holding its address, and from then on no entry of the table
belongs to `u`; while `u` holds its address, `tunReadLoop` drops every datagram for it. -/
theorem sessionID_collision_deletes (hr : ServerReach P kp st) (ht : st.tasks t = .closing sid ip)
    (hu : (st.tasks u).entry = some (sid, ip')) (hne : u ≠ t) {sts : List Server}
    (hrun : List.Chain (ServerStep P kp)
      { st with sessions := Function.update st.sessions sid none,
                tasks := Function.update st.tasks t (.releasing sid ip) } sts) :
    (Function.update st.tasks t (.releasing sid ip) u).clientIP = some ip' ∧
    ∀ s ∈ ({ st with sessions := Function.update st.sessions sid none,
                     tasks := Function.update st.tasks t (.releasing sid ip) } : Server) :: sts,
      Unlisted s u ∧ ((s.tasks u).clientIP = some ip' →
        ∀ sessionOf datagram rnds order, destIP datagram = ip' →
          tunReadLoopBody P s sessionOf datagram rnds order = []) := by
  have hkeep : Function.update st.tasks t (.releasing sid ip) u = st.tasks u :=
    Function.update_noteq hne _ _
  refine ⟨hkeep ▸ Phase.clientIP_of_entry hu, ?_⟩
  exact unlisted_run_drops P (.step hr (.deleteSession ht))
    (unlisted_of_delete (serverReach_inv hr) ht hu)
    (by dsimp only; rw [hkeep]; exact Phase.pastRegister_of_entry hu) hrun

theorem sessionID_collision_deletes_twoClients :
    ∃ st, ServerReach saltEcho echoKeyPair st ∧
      st.tasks 0 = .closing 0 (serverSubnet.base + UInt32.ofNat (0 + 2)) ∧
      (st.tasks 1).entry = some (0, serverSubnet.base + UInt32.ofNat (1 + 2)) ∧ (1 : Nat) ≠ 0 ∧
      (Function.update st.tasks 0 (.releasing 0 (serverSubnet.base + UInt32.ofNat (0 + 2)))
        1).clientIP = some (serverSubnet.base + UInt32.ofNat (1 + 2)) ∧
      ∀ s ∈ [({ st with
          sessions := Function.update st.sessions 0 none,
          tasks := Function.update st.tasks 0
            (.releasing 0 (serverSubnet.base + UInt32.ofNat (0 + 2))) } : Server)],
        Unlisted s 1 ∧ ((s.tasks 1).clientIP = some (serverSubnet.base + UInt32.ofNat (1 + 2)) →
          ∀ sessionOf datagram rnds order,
            destIP datagram = serverSubnet.base + UInt32.ofNat (1 + 2) →
            tunReadLoopBody saltEcho s sessionOf datagram rnds order = []) := by
  obtain ⟨_, hr, h0, h1⟩ := twoClients_reach
  have hne : (1 : Nat) ≠ 0 := by decide
  have hr' := ServerReach.step (ServerReach.step hr (.register h1))
    (.respond (t := 0) false ((Function.update_noteq hne.symm
      (Phase.registered zeroSession 0 (serverSubnet.base + UInt32.ofNat (1 + 2))) _).trans h0))
  refine ⟨_, hr', ?ht, ?hu, hne, sessionID_collision_deletes hr' ?ht ?hu hne .nil⟩
  · simp only [Server.setTask, Function.update_same]; rfl
  · simp only [Server.setTask, Function.update_noteq hne, Function.update_same]; rfl

end Hydra
