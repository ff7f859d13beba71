import HydraVpn.DataPath

/-!
# The session table over whole runs, and whom `tunReadLoop` delivers to

`TableInv` says every entry of `s.sessions` is the one its task stored. The converse needs the
session ids to differ: `handleConnection` stores its entry under a random 64-bit id, so a second
task that draws the same id overwrites the first's entry, and the first task's deferred
`delete(s.sessions, sessionID)` removes the second's. A run is a chain of steps from `New`
(`List.Chain (ServerStep P kp) newServer`); `IdsDistinct` says no two live tasks hold one id.

* `TableExact.step`: a step into a state whose live ids are distinct keeps every stored entry in
  the table, under its id.
* `tableExact_run`: along every run whose states all have distinct live ids, the table holds
  exactly one entry per task that stored one and has not deleted it.
* `tunReadLoop_delivers`: in every state of such a run, a datagram whose bytes 16 to 20 are the
  address of a task that has stored its entry is sealed once, with that task's entry, into the
  `Data` frame under its id, whatever order `range` visits the table in.
* `tunReadLoop_demux`: in every reachable state the scan sends at most one `Data` frame, to the
  one entry at the datagram's destination, as a lookup in a map keyed by address does.
-/

namespace Hydra

namespace Phase

/-- The session id a task has drawn and not yet returned with. -/
def sessionID : Phase → Option UInt64
  | keyed _ sid | allocated _ sid _ | registered _ sid _ | established _ sid _ | closing sid _
  | releasing sid _ => some sid
  | _ => none

theorem sessionID_of_entry {ph : Phase} {sid : UInt64} {ip : UInt32}
    (h : ph.entry = some (sid, ip)) : ph.sessionID = some sid := by
  cases ph <;> simp_all [entry, sessionID]

end Phase

/-- No two live tasks hold one session id. -/
def IdsDistinct (st : Server) : Prop :=
  ∀ t u sid, (st.tasks t).sessionID = some sid → (st.tasks u).sessionID = some sid → t = u

/-- Every task that has stored its entry and not deleted it finds it in the table, under its
id. -/
def TableExact (st : Server) : Prop :=
  ∀ t sid ip, (st.tasks t).entry = some (sid, ip) → st.sessions sid = some ⟨sid, t, ip⟩

namespace TableExact

variable {st st' : Server} {t : Nat}

theorem newServer : TableExact newServer := fun _ _ _ h => by simp [Hydra.newServer, Phase.entry] at h

/-- A step that leaves the table and what every task has stored as they are. -/
theorem of_views (he : TableExact st) (hs : st'.sessions = st.sessions)
    (hv : ∀ u, (st'.tasks u).entry = (st.tasks u).entry) : TableExact st' := fun u sid ip h => by
  rw [hs]; exact he u sid ip (hv u ▸ h)

/-- Another task's entry, under an id other than the one task `t` stores or deletes. -/
theorem other_entry (he : TableExact st) (hd : IdsDistinct st') {ph : Phase} {sid : UInt64}
    (hst : st'.tasks = Function.update st.tasks t ph) (hph : ph.sessionID = some sid)
    {u : Nat} {sid' : UInt64} {ip' : UInt32} (hu : u ≠ t)
    (h : (st'.tasks u).entry = some (sid', ip')) :
    sid' ≠ sid ∧ st.sessions sid' = some ⟨sid', u, ip'⟩ := by
  rw [hst, Function.update_noteq hu] at h
  refine ⟨fun hs => hu (hd u t sid ?_ ?_), he u sid' ip' h⟩
  · rw [hst, Function.update_noteq hu, ← hs]; exact Phase.sessionID_of_entry h
  · rw [hst, Function.update_same]; exact hph

variable {P : Primitives} {kp : KeyPair}

/-- Every step into a state whose live ids are distinct keeps the table exact: `register` stores
under an id no other live task holds, and the deferred delete removes only the task's own
entry. -/
theorem step (he : TableExact st) (hd : IdsDistinct st') (h : ServerStep P kp st st') :
    TableExact st' := by
  cases h with
  | @register t sess sid ip ht =>
    intro u sid' ip' hu
    by_cases hut : u = t
    · subst hut
      simp only [Function.update_same, Phase.entry, Option.some.injEq, Prod.mk.injEq] at hu
      obtain ⟨rfl, rfl⟩ := hu
      exact Function.update_same _ _ _
    · obtain ⟨hne, hs⟩ := he.other_entry hd rfl rfl hut hu
      exact (Function.update_noteq hne _ _).trans hs
  | @deleteSession t sid ip ht =>
    intro u sid' ip' hu
    have hut : u ≠ t := by rintro rfl; simp [Phase.entry] at hu
    obtain ⟨hne, hs⟩ := he.other_entry hd rfl rfl hut hu
    exact (Function.update_noteq hne _ _).trans hs
  | @allocate t sess sid r p' ht _ =>
    exact he.of_views rfl (update_view _ (by rw [ht]; cases r <;> rfl))
  | releaseIP ht => exact he.of_views rfl (update_view _ (by rw [ht]; rfl))
  | accept ht | readFail ht | serveFail ht => exact he.of_views rfl (update_view _ (by rw [ht]; rfl))
  | handshake _ _ _ ht => exact he.of_views rfl (update_view _ (by rw [entry_handshakePhase, ht]; rfl))
  | respond ok ht => exact he.of_views rfl (update_view _ (by rw [ht]; cases ok <;> rfl))
  | serve _ ht => exact he.of_views rfl (update_view _ (by rw [entry_servePhase, ht]; rfl))
  | tunReadLoop _ _ _ _ _ => exact he.of_views rfl (update_view _ (Phase.entry_mapSession _ _))

end TableExact

/-- A state in which only task `t` has left `idle` has distinct live ids. -/
theorem IdsDistinct.of_idle {st : Server} {t : Nat} (h : ∀ u, u ≠ t → st.tasks u = .idle) :
    IdsDistinct st := fun a b sid ha hb => by
  have live : ∀ u, (st.tasks u).sessionID = some sid → u = t := fun u hu => by
    by_contra hne; rw [h u hne] at hu; cases hu
  rw [live a ha, live b hb]

/-- A datagram for `10.8.0.2`: 16 zero bytes, then the destination. -/
def datagramTo2 : Bytes := List.replicate 16 0 ++ [10, 8, 0, 2]

/-- One connection task from `New` through the store of its entry: accept, a `HandshakeInit`
frame under `echoKeyPair` with zero salt and id bytes, `Allocate` of `10.8.0.2`, `register`. -/
theorem firstClient_run :
    ∃ sts st, List.Chain (ServerStep saltEcho echoKeyPair) newServer sts ∧
      (∀ st ∈ sts, IdsDistinct st) ∧ st ∈ sts ∧
      (st.tasks 0).entry = some (0, serverSubnet.base + UInt32.ofNat (0 + 2)) ∧
      ∀ sid, sid ∈ [0] ↔ st.sessions sid ≠ none := by
  have hk : ((newServer.setTask 0 .reading).setTask 0 (handshakePhase saltEcho echoKeyPair
      (handshakeInitFrame echoKeyPair 0 (BytesN.zero 32)) (List.replicate 32 0)
      (List.replicate 8 0))).tasks 0 = .keyed zeroSession 0 := by decide
  refine ⟨_, _, .cons (.accept (t := 0) rfl) <|
    .cons (.handshake (t := 0) (handshakeInitFrame echoKeyPair 0 (BytesN.zero 32))
      (List.replicate 32 0) (List.replicate 8 0) rfl) <|
    .cons (.allocate hk (allocate_filled (s := serverSubnet) (k := 0) (by decide) (by decide)
      (by decide))) <|
    .cons (.register (t := 0) rfl) .nil, ?_,
    List.mem_cons_of_mem _ <| List.mem_cons_of_mem _ <| List.mem_cons_of_mem _ <|
      List.mem_singleton_self _, rfl, fun sid => ?_⟩
  · simp only [List.forall_mem_cons, List.not_mem_nil, false_implies, implies_true, and_true]
    refine ⟨?_, ?_, ?_, ?_⟩ <;>
      exact IdsDistinct.of_idle (t := 0) fun u hu => by
        simp [Server.setTask, newServer, Function.update_noteq hu]
  · by_cases h : sid = 0
    · subst h; simp
    · simp [h, Function.update_noteq h, Server.setTask, newServer]

section Runs

variable {P : Primitives} {kp : KeyPair}

/-- Every state of a run from a reachable state is reachable. -/
theorem reach_of_chain {st : Server} {sts : List Server} (hr : ServerReach P kp st)
    (hrun : List.Chain (ServerStep P kp) st sts) : ∀ st' ∈ sts, ServerReach P kp st' := by
  induction hrun with
  | nil => intro _ h; cases h
  | cons hs _ ih =>
    have hr' := ServerReach.step hr hs
    exact List.forall_mem_cons.2 ⟨hr', ih hr'⟩

theorem tableExact_chain {st : Server} {sts : List Server} (he : TableExact st)
    (hrun : List.Chain (ServerStep P kp) st sts) (hd : ∀ st' ∈ sts, IdsDistinct st') :
    ∀ st' ∈ sts, TableExact st' := by
  induction hrun with
  | nil => intro _ h; cases h
  | cons hs _ ih =>
    obtain ⟨hd₁, hd⟩ := List.forall_mem_cons.1 hd
    have he' := he.step hd₁ hs
    exact List.forall_mem_cons.2 ⟨he', ih he' hd⟩

/-- Along every run from `New` in which no two live tasks ever hold one session id, every state
has exactly one table entry per task that has stored its entry and not deleted it, under its id,
and (by `TableInv`) no other entries. -/
theorem tableExact_run {sts : List Server} (hrun : List.Chain (ServerStep P kp) newServer sts)
    (hd : ∀ st ∈ sts, IdsDistinct st) :
    ∀ st ∈ sts, TableExact st ∧ TableInv st := fun st hst =>
  ⟨tableExact_chain .newServer hrun hd st hst,
    serverReach_inv (reach_of_chain .init hrun st hst)⟩

theorem tableExact_run_firstClient :
    ∃ sts st, List.Chain (ServerStep saltEcho echoKeyPair) newServer sts ∧
      (∀ st ∈ sts, IdsDistinct st) ∧ st ∈ sts ∧ TableExact st ∧ TableInv st :=
  have ⟨sts, st, hrun, hd, hst, _⟩ := firstClient_run
  ⟨sts, st, hrun, hd, hst, tableExact_run hrun hd st hst⟩

/-- In a state that keeps `TableInv`, a datagram of at least 20 bytes for the address of an entry
of the table is sealed once, with that entry, whatever order `range` visits the table in. -/
theorem tunReadLoopBody_of_sessions {st : Server} (hi : TableInv st) {t : Nat} {sid : UInt64}
    {ip : UInt32} (hs : st.sessions sid = some ⟨sid, t, ip⟩) (sessionOf : ClientSession → Session)
    (order : List UInt64) (hnd : order.Nodup) (henum : ∀ sid, sid ∈ order ↔ st.sessions sid ≠ none)
    {datagram : Bytes} (hlen : 20 ≤ (tunRead datagram).length) (hdst : destIP datagram = ip)
    (rnds : List Bytes) :
    tunReadLoopBody P st sessionOf datagram rnds order =
      [⟨⟨sid, t, ip⟩, (sealDatagram P (sessionOf ⟨sid, t, ip⟩) sid datagram (rnds.headD [])).2,
        (sealDatagram P (sessionOf ⟨sid, t, ip⟩) sid datagram (rnds.headD [])).1.toOption⟩] := by
  rw [tunReadLoopBody, if_neg (by omega)]
  refine tunScan_of_unique P sessionOf datagram (nodup_tableOrder hi hnd)
    ((mem_tableOrder henum _).2 ⟨sid, hs⟩) hdst.symm (fun x hx hxip => ?_) rnds
  obtain ⟨_, hx⟩ := (mem_tableOrder henum x).1 hx
  exact entry_eq_of_assignedIP hi hx hs (hxip.trans hdst)

/-- In every state of a run from `New` whose states all have distinct live ids, `tunReadLoop`
seals a datagram of at least 20 bytes addressed to a task that has stored its entry exactly once,
with that task's entry (its id, and the task as owner), whatever order `range` visits the table
in: the frame, the `Data` frame under the task's id carrying what `Encrypt` returned, goes to the
connection of the task that was assigned the address in bytes 16 to 20 of the datagram. -/
theorem tunReadLoop_delivers {sts : List Server} (hrun : List.Chain (ServerStep P kp) newServer sts)
    (hd : ∀ st ∈ sts, IdsDistinct st) {st : Server} (hst : st ∈ sts) {t : Nat} {sid : UInt64}
    {ip : UInt32} (ht : (st.tasks t).entry = some (sid, ip)) (sessionOf : ClientSession → Session)
    (order : List UInt64) (hnd : order.Nodup)
    (henum : ∀ sid, sid ∈ order ↔ st.sessions sid ≠ none) {datagram : Bytes}
    (hlen : 20 ≤ (tunRead datagram).length) (hdst : destIP datagram = ip) (rnds : List Bytes) :
    tunReadLoopBody P st sessionOf datagram rnds order =
      [⟨⟨sid, t, ip⟩, (sealDatagram P (sessionOf ⟨sid, t, ip⟩) sid datagram (rnds.headD [])).2,
        (sealDatagram P (sessionOf ⟨sid, t, ip⟩) sid datagram (rnds.headD [])).1.toOption⟩] ∧
    (sealDatagram P (sessionOf ⟨sid, t, ip⟩) sid datagram (rnds.headD [])).1.toOption =
      ((sessionOf ⟨sid, t, ip⟩).encrypt P (rnds.headD []) (tunRead datagram)).1.toOption.map
        (fun c => (newPacket packetTypeData sid c).marshal) ∧
    ip = uint32 (slice (tunRead datagram) 16 20) :=
  ⟨tunReadLoopBody_of_sessions (serverReach_inv (reach_of_chain .init hrun st hst))
    (tableExact_chain .newServer hrun hd st hst t sid ip ht)
    sessionOf order hnd henum hlen hdst rnds, sealDatagram_frame P _ _ _ _, hdst.symm⟩

end Runs

theorem tunReadLoop_delivers_firstClient :
    ∃ sts st, List.Chain (ServerStep saltEcho echoKeyPair) newServer sts ∧
      (∀ st ∈ sts, IdsDistinct st) ∧ st ∈ sts ∧
      (st.tasks 0).entry = some (0, serverSubnet.base + UInt32.ofNat (0 + 2)) ∧
      ([0] : List UInt64).Nodup ∧ (∀ sid, sid ∈ [0] ↔ st.sessions sid ≠ none) ∧
      20 ≤ (tunRead datagramTo2).length ∧
      destIP datagramTo2 = serverSubnet.base + UInt32.ofNat (0 + 2) ∧
      tunReadLoopBody saltEcho st (fun _ => zeroSession) datagramTo2 [List.replicate 16 0] [0] =
        [⟨⟨0, 0, serverSubnet.base + UInt32.ofNat (0 + 2)⟩,
          (sealDatagram saltEcho zeroSession 0 datagramTo2 (List.replicate 16 0)).2,
          (sealDatagram saltEcho zeroSession 0 datagramTo2 (List.replicate 16 0)).1.toOption⟩] ∧
      (sealDatagram saltEcho zeroSession 0 datagramTo2 (List.replicate 16 0)).1.toOption =
        (zeroSession.encrypt saltEcho (List.replicate 16 0) (tunRead datagramTo2)).1.toOption.map
          (fun c => (newPacket packetTypeData 0 c).marshal) ∧
      serverSubnet.base + UInt32.ofNat (0 + 2) = uint32 (slice (tunRead datagramTo2) 16 20) :=
  have ⟨sts, st, hrun, hd, hst, ht, henum⟩ := firstClient_run
  have hlen : 20 ≤ (tunRead datagramTo2).length := by decide
  have hdst : destIP datagramTo2 = serverSubnet.base + UInt32.ofNat (0 + 2) := by decide
  ⟨sts, st, hrun, hd, hst, ht, List.nodup_singleton 0, henum, hlen, hdst,
    tunReadLoop_delivers hrun hd hst ht _ [0] (List.nodup_singleton 0) henum hlen hdst
      [List.replicate 16 0]⟩

/-! ## The scan against a lookup by address -/

/-- `Server.tunReadLoop` against a lookup by address: in every reachable state, whatever order
`range` visits the table in, and whatever each entry's crypto session and the random source, the
scan sends nothing for a datagram shorter than 20 bytes, and otherwise makes at most one
`Encrypt` call, with the session of the entry whose address is bytes 16 to 20 of the datagram,
the only entry there, and writes to that entry's connection the `Data` frame under its id
carrying what `Encrypt` returned; when the table holds such an entry it makes that call. So it
does what one lookup in the table keyed by assigned address does, and such a map exists. -/
theorem tunReadLoop_demux {P : Primitives} {kp : KeyPair} {st : Server} (hr : ServerReach P kp st)
    (sessionOf : ClientSession → Session) (order : List UInt64) (hnd : order.Nodup)
    (henum : ∀ sid, sid ∈ order ↔ st.sessions sid ≠ none) (datagram : Bytes) (rnds : List Bytes) :
    ((tunRead datagram).length < 20 → tunReadLoopBody P st sessionOf datagram rnds order = []) ∧
    (tunReadLoopBody P st sessionOf datagram rnds order).length ≤ 1 ∧
    (∀ x ∈ tunReadLoopBody P st sessionOf datagram rnds order,
      st.sessions x.entry.id = some x.entry ∧
      (∀ sid e, st.sessions sid = some e →
        (e.assignedIP = uint32 (slice (tunRead datagram) 16 20) ↔ e = x.entry)) ∧
      x.frame = ((sessionOf x.entry).encrypt P (rnds.headD []) (tunRead datagram)).1.toOption.map
        fun c => (newPacket packetTypeData x.entry.id c).marshal) ∧
    (20 ≤ (tunRead datagram).length →
      (∃ sid e, st.sessions sid = some e ∧ e.assignedIP = uint32 (slice (tunRead datagram) 16 20)) →
      tunReadLoopBody P st sessionOf datagram rnds order ≠ []) ∧
    (∃ byAddr, KeyedByAddr st byAddr) ∧
    ∀ byAddr, KeyedByAddr st byAddr →
      tunReadLoopBody P st sessionOf datagram rnds order = tunLookup P sessionOf byAddr datagram rnds := by
  have hi := serverReach_inv hr
  have hby := keyedByAddr_find hi henum
  have heq : ∀ byAddr, KeyedByAddr st byAddr → tunReadLoopBody P st sessionOf datagram rnds order =
      tunLookup P sessionOf byAddr datagram rnds :=
    fun _ => tunReadLoopBody_eq_tunLookup P sessionOf datagram rnds hi hnd henum
  rw [heq _ hby]
  exact ⟨fun h => if_pos h, length_tunLookup_le P sessionOf datagram rnds,
    fun x hx => mem_tunLookup P sessionOf datagram rnds hi hby hx,
    fun hlen ⟨_, _, hs, hip⟩ => tunLookup_ne_nil P sessionOf datagram rnds hby hlen hs hip,
    ⟨_, hby⟩, fun byAddr h => ((heq _ hby).symm.trans (heq byAddr h))⟩

theorem tunReadLoop_demux_firstClient :
    ∃ st, ServerReach saltEcho echoKeyPair st ∧
      (st.tasks 0).entry = some (0, serverSubnet.base + UInt32.ofNat (0 + 2)) ∧
      ([0] : List UInt64).Nodup ∧ (∀ sid, sid ∈ [0] ↔ st.sessions sid ≠ none) ∧
      ((tunRead datagramTo2).length < 20 →
        tunReadLoopBody saltEcho st (fun _ => zeroSession) datagramTo2 [List.replicate 16 0] [0] = []) ∧
      (tunReadLoopBody saltEcho st (fun _ => zeroSession) datagramTo2 [List.replicate 16 0] [0]).length
        ≤ 1 ∧
      (∀ x ∈ tunReadLoopBody saltEcho st (fun _ => zeroSession) datagramTo2 [List.replicate 16 0] [0],
        st.sessions x.entry.id = some x.entry ∧
        (∀ sid e, st.sessions sid = some e →
          (e.assignedIP = uint32 (slice (tunRead datagramTo2) 16 20) ↔ e = x.entry)) ∧
        x.frame = (zeroSession.encrypt saltEcho ([List.replicate 16 0].headD [])
            (tunRead datagramTo2)).1.toOption.map
          fun c => (newPacket packetTypeData x.entry.id c).marshal) ∧
      (20 ≤ (tunRead datagramTo2).length →
        (∃ sid e, st.sessions sid = some e ∧
          e.assignedIP = uint32 (slice (tunRead datagramTo2) 16 20)) →
        tunReadLoopBody saltEcho st (fun _ => zeroSession) datagramTo2 [List.replicate 16 0] [0] ≠ []) ∧
      (∃ byAddr, KeyedByAddr st byAddr) ∧
      ∀ byAddr, KeyedByAddr st byAddr →
        tunReadLoopBody saltEcho st (fun _ => zeroSession) datagramTo2 [List.replicate 16 0] [0] =
          tunLookup saltEcho (fun _ => zeroSession) byAddr datagramTo2 [List.replicate 16 0] :=
  have ⟨_, st, hrun, _, hst, ht, henum⟩ := firstClient_run
  ⟨st, reach_of_chain .init hrun st hst, ht, List.nodup_singleton 0, henum,
    tunReadLoop_demux (reach_of_chain .init hrun st hst) _ [0] (List.nodup_singleton 0) henum _ _⟩

end Hydra
