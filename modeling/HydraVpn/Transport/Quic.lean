import HydraVpn.Frames

/-!
# The QUIC transport (`QUICConnection`)

`QUICConnection.Read` and `Write` are `stream.Read` and `stream.Write` and add nothing. A QUIC
stream carries bytes in order but not the boundaries of the writes: a `Read` into a `len(b)`-byte
buffer may return any nonempty part of what has arrived, up to `len(b)` bytes (`Delivers`). The
receivers, the data loop of `handleConnection` and `Client.receiveLoop`, pass each `Read` result to
`UnmarshalPacket` as one frame.

* `not_wellFramed_append`: a frame followed by more bytes is not a frame.
* `coalesced_read_rejected`: for every two or more frames that together fit the buffer, the stream
  may deliver them in one `Read`, and `UnmarshalPacket` rejects what it returns.
* `quic_keepalives_coalesce`: two `KeepAlive` frames delivered in one `Read` of 28 bytes are
  rejected with "payload length mismatch".
-/

namespace Hydra

namespace QUICConnection

/-- `Write(b)`: `stream.Write(b)` appends `b` to the bytes the stream carries. -/
def write (sent b : Bytes) : Bytes := sent ++ b

/-- The bytes a fresh stream carries after `Write(f₁) … Write(fₙ)`. -/
def writeAll (frames : List Bytes) : Bytes := frames.foldl write []

theorem writeAll_eq_flatten (frames : List Bytes) : writeAll frames = frames.flatten := by
  suffices ∀ acc, frames.foldl write acc = acc ++ frames.flatten from this []
  induction frames with
  | nil => intro acc; simp
  | cons f frames ih => intro acc; rw [List.foldl_cons, ih, write, List.flatten_cons, List.append_assoc]

end QUICConnection

/-- What successive `QUICConnection.Read` calls with `bufLen`-byte buffers may return on a stream
that carries `sent`: nonempty pieces of at most `bufLen` bytes that make up `sent` in order. -/
def Delivers (bufLen : Nat) (sent : Bytes) (reads : List Bytes) : Prop :=
  reads.flatten = sent ∧ ∀ r ∈ reads, r ≠ [] ∧ r.length ≤ bufLen

instance (bufLen : Nat) (sent : Bytes) (reads : List Bytes) : Decidable (Delivers bufLen sent reads) :=
  inferInstanceAs (Decidable (_ ∧ _))

/-- A frame followed by more bytes is not a frame: its length field counts only its own payload. -/
theorem not_wellFramed_append {f r : Bytes} (hf : WellFramed f) (hr : r ≠ []) :
    ¬WellFramed (f ++ r) := by
  rintro ⟨-, -, -, -, hlen⟩
  have h14 : 14 ≤ f.length := hf.1
  have hs : slice (f ++ r) 12 14 = slice f 12 14 := by
    rw [slice, slice, List.take_append_of_le_length h14]
  rw [hs, hf.2.2.2.2, List.length_append] at hlen
  have := List.length_pos.2 hr
  unfold headerSize at hlen
  omega

/-- Two or more frames that together fit the buffer may arrive in one `Read`, which
`UnmarshalPacket` rejects. -/
theorem coalesced_read_rejected {bufLen : Nat} {f g : Bytes} (frames : List Bytes)
    (hf : WellFramed f) (hg : WellFramed g) (hlen : (f :: g :: frames).flatten.length ≤ bufLen) :
    Delivers bufLen (QUICConnection.writeAll (f :: g :: frames)) [(f :: g :: frames).flatten] ∧
      ∀ q, unmarshalPacket (QUICConnection.writeAll (f :: g :: frames)) ≠ .ok q := by
  rw [QUICConnection.writeAll_eq_flatten]
  have hg0 : g ≠ [] := fun h => by have := hg.1; rw [h] at this; cases this
  refine ⟨⟨List.flatten_singleton _, fun r hr => ?_⟩, fun q hq => ?_⟩
  · rw [List.mem_singleton] at hr
    subst hr
    exact ⟨by simp [hg0], hlen⟩
  · rw [List.flatten_cons] at hq
    exact not_wellFramed_append hf (by simp [hg0]) (wellFramed_of_unmarshalPacket hq)

/-- The client's `keepaliveLoop` writes two `KeepAlive` frames; the stream delivers the 28 bytes
in one `Read` into the server's 4096-byte buffer, and `UnmarshalPacket` rejects them. -/
theorem quic_keepalives_coalesce :
    Delivers 4096 (QUICConnection.writeAll [keepAliveFrame 7, keepAliveFrame 7])
        [keepAliveFrame 7 ++ keepAliveFrame 7] ∧
      unmarshalPacket (keepAliveFrame 7 ++ keepAliveFrame 7) = .error "payload length mismatch" := by
  have hk : WellFramed (keepAliveFrame 7) := (wellFramed_newPacket_iff _ _ _).2 (Nat.zero_le _)
  have hlen : [keepAliveFrame 7, keepAliveFrame 7].flatten.length ≤ 4096 := by decide
  have h := coalesced_read_rejected [] hk hk hlen
  rw [List.flatten_cons, List.flatten_cons, List.flatten_nil, List.append_nil] at h
  exact ⟨h.1, rfl⟩

end Hydra
