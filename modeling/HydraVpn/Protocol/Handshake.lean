import HydraVpn.Crypto.Session

/-!
# Handshake bodies (`pkg/protocol`)

`HandshakeInit` is 72 bytes (client public key, big-endian timestamp, padding) and
`HandshakeResponse` 81 bytes (server public key, session id, assigned address, server address,
prefix length, padding). The decoders read the fields in place from a long enough string.

* `unmarshalHandshakeInit_marshal`, `unmarshalHandshakeResponse_marshal`: each decoder inverts
  its encoder.
* `marshalHandshakeInit_of_unmarshal`, `marshalHandshakeResponse_of_unmarshal`: re-encoding what
  a decoder read gives back the bytes it read.
* `handshakeInit_body_codec`, `handshakeResponse_body_codec`: both directions, and the length
  below which each decoder fails.
-/

namespace Hydra

/-- `HandshakeInit`. `Timestamp` is an `int64`, kept as its two's complement bits; the code
writes and reads it through `uint64`, which keeps the bits. -/
structure HandshakeInit where
  clientPublicKey : Bytes32
  timestamp : BitVec 64
  randomPadding : Bytes32
  deriving DecidableEq, Repr

/-- `HandshakeResponse`. -/
structure HandshakeResponse where
  serverPublicKey : Bytes32
  sessionID : UInt64
  assignedIP : BytesN 4
  serverIP : BytesN 4
  subnet : UInt8
  randomPadding : Bytes32
  deriving DecidableEq, Repr

/-- `MarshalHandshakeInit`. -/
def marshalHandshakeInit (h : HandshakeInit) : Bytes :=
  h.clientPublicKey.bytes ++ putUint64 ⟨h.timestamp⟩ ++ h.randomPadding.bytes

/-- `UnmarshalHandshakeInit`. -/
def unmarshalHandshakeInit (data : Bytes) : Except String HandshakeInit :=
  if h : data.length < 72 then .error "handshake init too short"
  else .ok
    { clientPublicKey := BytesN.ofPrefix data (by omega)
      timestamp := (uint64 (slice data 32 40)).toBitVec
      randomPadding := BytesN.ofPrefix (slice data 40 72) (by simp; omega) }

/-- `MarshalHandshakeResponse`. -/
def marshalHandshakeResponse (h : HandshakeResponse) : Bytes :=
  h.serverPublicKey.bytes ++ putUint64 h.sessionID ++ h.assignedIP.bytes ++ h.serverIP.bytes ++
    [h.subnet] ++ h.randomPadding.bytes

/-- `UnmarshalHandshakeResponse`. -/
def unmarshalHandshakeResponse (data : Bytes) : Except String HandshakeResponse :=
  if h : data.length < 81 then .error "handshake response too short"
  else .ok
    { serverPublicKey := BytesN.ofPrefix data (by omega)
      sessionID := uint64 (slice data 32 40)
      assignedIP := BytesN.ofPrefix (slice data 40 44) (by simp; omega)
      serverIP := BytesN.ofPrefix (slice data 44 48) (by simp; omega)
      subnet := data.getD 48 0
      randomPadding := BytesN.ofPrefix (slice data 49 81) (by simp; omega) }

@[simp] theorem length_marshalHandshakeInit (h : HandshakeInit) :
    (marshalHandshakeInit h).length = 72 := by
  simp [marshalHandshakeInit, h.clientPublicKey.length_eq, h.randomPadding.length_eq]

@[simp] theorem length_marshalHandshakeResponse (h : HandshakeResponse) :
    (marshalHandshakeResponse h).length = 81 := by
  simp [marshalHandshakeResponse, h.serverPublicKey.length_eq, h.assignedIP.length_eq,
    h.serverIP.length_eq, h.randomPadding.length_eq]

theorem unmarshalHandshakeInit_marshal (h : HandshakeInit) :
    unmarshalHandshakeInit (marshalHandshakeInit h) = .ok h := by
  obtain ⟨pub, ts, pad⟩ := h
  have e : marshalHandshakeInit ⟨pub, ts, pad⟩ = pub.bytes ++ putUint64 ⟨ts⟩ ++ pad.bytes := rfl
  rw [unmarshalHandshakeInit, dif_neg (by simp)]
  congr 1
  simp only [HandshakeInit.mk.injEq]
  refine ⟨BytesN.ext ?_, ?_, BytesN.ext ?_⟩
  · simp [e, pub.length_eq]
  · rw [slice_of_eq_append 32 40 _ _ _ e pub.length_eq (by simp), uint64_putUint64]
  · exact BytesN.bytes_ofPrefix_slice _ pad.bytes [] (e.trans (List.append_nil _).symm)
      (by simp [pub.length_eq]) (by simp [pad.length_eq]) pad.length_eq _

theorem unmarshalHandshakeResponse_marshal (h : HandshakeResponse) :
    unmarshalHandshakeResponse (marshalHandshakeResponse h) = .ok h := by
  obtain ⟨pub, sid, a, s, sn, pad⟩ := h
  have hb := pub.length_eq
  have ha := a.length_eq
  have hs := s.length_eq
  have hp := pad.length_eq
  have e : marshalHandshakeResponse ⟨pub, sid, a, s, sn, pad⟩ =
      pub.bytes ++ putUint64 sid ++ a.bytes ++ s.bytes ++ [sn] ++ pad.bytes := rfl
  rw [unmarshalHandshakeResponse, dif_neg (by simp)]
  congr 1
  simp only [HandshakeResponse.mk.injEq]
  refine ⟨BytesN.ext ?_, ?_, BytesN.ext ?_, BytesN.ext ?_, ?_, BytesN.ext ?_⟩
  · simp [e, hb]
  · rw [slice_of_eq_append 32 40 pub.bytes (putUint64 sid) (a.bytes ++ s.bytes ++ [sn] ++ pad.bytes)
      (by rw [e]; simp only [List.append_assoc]) hb (by simp), uint64_putUint64]
  · exact BytesN.bytes_ofPrefix_slice (pub.bytes ++ putUint64 sid) a.bytes
      (s.bytes ++ [sn] ++ pad.bytes) (by rw [e]; simp only [List.append_assoc]) (by simp [hb])
      (by simp [ha]) ha _
  · exact BytesN.bytes_ofPrefix_slice (pub.bytes ++ putUint64 sid ++ a.bytes) s.bytes
      ([sn] ++ pad.bytes) (by rw [e]; simp only [List.append_assoc]) (by simp [hb, ha])
      (by simp [hs]) hs _
  · simp [e, List.getD_eq_getElem?_getD, List.getElem?_append_right, List.getElem_append_right, hb,
      ha, hs]
  · exact BytesN.bytes_ofPrefix_slice (pub.bytes ++ putUint64 sid ++ a.bytes ++ s.bytes ++ [sn])
      pad.bytes [] (by rw [e, List.append_nil]) (by simp [hb, ha, hs]) (by simp [hp]) hp _

theorem unmarshalHandshakeInit_error_iff (b : Bytes) :
    (∃ e, unmarshalHandshakeInit b = .error e) ↔ b.length < 72 := by
  unfold unmarshalHandshakeInit; split <;> simp [*]

theorem unmarshalHandshakeResponse_error_iff (b : Bytes) :
    (∃ e, unmarshalHandshakeResponse b = .error e) ↔ b.length < 81 := by
  unfold unmarshalHandshakeResponse; split <;> simp [*]

/-- The decoder reads each field from its own slice of the first 72 bytes, so the encoder puts
them back in place. -/
theorem marshalHandshakeInit_of_unmarshal {b : Bytes} {h : HandshakeInit}
    (hb : unmarshalHandshakeInit b = .ok h) : marshalHandshakeInit h = b.take 72 := by
  unfold unmarshalHandshakeInit at hb
  split at hb
  · cases hb
  · cases hb
    show b.take 32 ++ putUint64 (uint64 (slice b 32 40)) ++ (slice b 40 72).take 32 = _
    rw [putUint64_uint64 (by simp only [length_slice]; omega),
      List.take_of_length_le (l := slice b 40 72) (by simp only [length_slice]; omega),
      take_append_slice (by omega), take_append_slice (by omega)]

theorem marshalHandshakeResponse_of_unmarshal {b : Bytes} {h : HandshakeResponse}
    (hb : unmarshalHandshakeResponse b = .ok h) : marshalHandshakeResponse h = b.take 81 := by
  unfold unmarshalHandshakeResponse at hb
  split at hb
  · cases hb
  · cases hb
    show b.take 32 ++ putUint64 (uint64 (slice b 32 40)) ++ (slice b 40 44).take 4 ++
      (slice b 44 48).take 4 ++ [b.getD 48 0] ++ (slice b 49 81).take 32 = _
    have hk : ∀ i j, j ≤ i + 4 → (slice b i j).take 4 = slice b i j := fun i j h =>
      List.take_of_length_le (by simp only [length_slice]; omega)
    rw [putUint64_uint64 (by simp only [length_slice]; omega), hk _ _ (by omega),
      hk _ _ (by omega), List.take_of_length_le (l := slice b 49 81) (by simp only [length_slice]; omega),
      ← slice_one (by omega), take_append_slice (by omega), take_append_slice (by omega),
      take_append_slice (by omega), take_append_slice (by omega), take_append_slice (by omega)]

/-- The `HandshakeInit` body codec: decoding inverts encoding for every field value, the decoder
fails exactly on inputs shorter than 72 bytes, and otherwise re-encoding its result gives the
first 72 bytes of the input. -/
theorem handshakeInit_body_codec :
    (∀ h, unmarshalHandshakeInit (marshalHandshakeInit h) = .ok h) ∧
    ∀ b, ((∃ e, unmarshalHandshakeInit b = .error e) ↔ b.length < 72) ∧
      ∀ h, unmarshalHandshakeInit b = .ok h → marshalHandshakeInit h = b.take 72 :=
  ⟨unmarshalHandshakeInit_marshal,
    fun b => ⟨unmarshalHandshakeInit_error_iff b, fun _ => marshalHandshakeInit_of_unmarshal⟩⟩

/-- The `HandshakeResponse` body codec, with the bound 81. -/
theorem handshakeResponse_body_codec :
    (∀ r, unmarshalHandshakeResponse (marshalHandshakeResponse r) = .ok r) ∧
    ∀ b, ((∃ e, unmarshalHandshakeResponse b = .error e) ↔ b.length < 81) ∧
      ∀ r, unmarshalHandshakeResponse b = .ok r → marshalHandshakeResponse r = b.take 81 :=
  ⟨unmarshalHandshakeResponse_marshal,
    fun b => ⟨unmarshalHandshakeResponse_error_iff b, fun _ => marshalHandshakeResponse_of_unmarshal⟩⟩

end Hydra
