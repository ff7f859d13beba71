import HydraVpn.Bytes

/-!
# Wire packets (`pkg/protocol`)

A packet is a 14-byte header (magic `0x48 0x56`, version, type, big-endian session id and
payload length) followed by the payload.

* `unmarshalPacket_ok_iff`: `UnmarshalPacket` accepts exactly the byte strings of `WellFramed`,
  and `marshal_of_unmarshalPacket`: it is inverted by `Packet.marshal` on what it accepts.
* `unmarshalPacket_newPacket`: a packet built by `NewPacket` reads back unchanged exactly when its
  payload length fits the 16-bit length field.
* `not_wellFramed_flipBit`: flipping one bit of the magic, version or length field of an accepted
  string makes it rejected.
-/

namespace Hydra

/-! ## Constants and types -/

/-- `MagicByte1`, `'H'`. -/
def magicByte1 : UInt8 := 0x48
/-- `MagicByte2`, `'V'`. -/
def magicByte2 : UInt8 := 0x56
/-- `ProtocolVersion`. -/
def protocolVersion : UInt8 := 1

def packetTypeHandshakeInit : UInt8 := 0x01
def packetTypeHandshakeResponse : UInt8 := 0x02
def packetTypeData : UInt8 := 0x03
def packetTypeKeepAlive : UInt8 := 0x04
def packetTypeDisconnect : UInt8 := 0x05

/-- `MaxPacketSize`. -/
def maxPacketSize : Nat := 65535
/-- `HeaderSize`: magic (2), version (1), type (1), session id (8), length (2). -/
def headerSize : Nat := 14

/-- `PacketHeader`; `Magic` is a `[2]byte`. -/
structure PacketHeader where
  magic : UInt8 × UInt8
  version : UInt8
  type : UInt8
  sessionID : UInt64
  length : UInt16
  deriving DecidableEq, Repr

/-- `Packet`. -/
structure Packet where
  header : PacketHeader
  payload : Bytes
  deriving DecidableEq, Repr

/-! ## The code -/

/-- `NewPacket`: the length field is `uint16(len(payload))`. -/
def newPacket (packetType : UInt8) (sessionID : UInt64) (payload : Bytes) : Packet where
  header :=
    { magic := (magicByte1, magicByte2), version := protocolVersion, type := packetType,
      sessionID, length := UInt16.ofNat payload.length }
  payload := payload

/-- `Packet.Marshal`: the header fields in order, then the payload. -/
def Packet.marshal (p : Packet) : Bytes :=
  [p.header.magic.1, p.header.magic.2, p.header.version, p.header.type] ++
    putUint64 p.header.sessionID ++ putUint16 p.header.length ++ p.payload

/-- `UnmarshalPacket`. The payload is `make([]byte, Length)` filled by `copy` from
`data[HeaderSize:]`, which has exactly `Length` bytes once the length check has passed. -/
def unmarshalPacket (data : Bytes) : Except String Packet :=
  if data.length < headerSize then .error "packet too short"
  else if data.getD 0 0 ≠ magicByte1 ∨ data.getD 1 0 ≠ magicByte2 then
    .error "invalid magic bytes"
  else if data.getD 2 0 ≠ protocolVersion then .error "unsupported protocol version"
  else
    let length := uint16 (slice data 12 14)
    if length.toNat ≠ data.length - headerSize then .error "payload length mismatch"
    else .ok
      { header :=
          { magic := (data.getD 0 0, data.getD 1 0), version := data.getD 2 0,
            type := data.getD 3 0, sessionID := uint64 (slice data 4 12), length }
        payload := data.drop headerSize }

/-! ## What `UnmarshalPacket` accepts -/

/-- The grammar of `UnmarshalPacket`: a full header with the magic and version, and a length
field equal to the number of bytes after the header. -/
def WellFramed (b : Bytes) : Prop :=
  headerSize ≤ b.length ∧ b.getD 0 0 = magicByte1 ∧ b.getD 1 0 = magicByte2 ∧
    b.getD 2 0 = protocolVersion ∧ getBE (slice b 12 14) = b.length - headerSize

instance (b : Bytes) : Decidable (WellFramed b) := by unfold WellFramed; infer_instance

/-- The two bytes of the length field, for a string with a full header. -/
theorem getBE_slice_lt {b : Bytes} (h : headerSize ≤ b.length) : getBE (slice b 12 14) < 2 ^ 16 := by
  have := getBE_lt (slice b 12 14)
  simp only [length_slice, headerSize] at this h
  rw [show min 14 b.length - 12 = 2 by omega] at this
  omega

theorem wellFramed_of_unmarshalPacket {b : Bytes} {q : Packet} (h : unmarshalPacket b = .ok q) :
    WellFramed b := by
  simp only [unmarshalPacket] at h
  split_ifs at h with hl hm hv hlen
  cases h
  obtain ⟨h0, h1⟩ := not_or.1 hm
  refine ⟨Nat.le_of_not_lt hl, not_not.1 h0, not_not.1 h1, not_not.1 hv, ?_⟩
  rwa [not_not, toNat_uint16, Nat.mod_eq_of_lt (getBE_slice_lt (Nat.le_of_not_lt hl))] at hlen

/-- On an accepted string, `UnmarshalPacket` returns the header fields read in place and the
rest as payload. -/
theorem unmarshalPacket_of_wellFramed {b : Bytes} (h : WellFramed b) :
    unmarshalPacket b = .ok
      { header :=
          { magic := (b.getD 0 0, b.getD 1 0), version := b.getD 2 0, type := b.getD 3 0,
            sessionID := uint64 (slice b 4 12), length := uint16 (slice b 12 14) }
        payload := b.drop headerSize } := by
  obtain ⟨hl, h0, h1, h2, hlen⟩ := h
  have hm : ¬(b.getD 0 0 ≠ magicByte1 ∨ b.getD 1 0 ≠ magicByte2) := by
    rw [h0, h1]; exact fun h => h.elim (· rfl) (· rfl)
  have hn : ¬(uint16 (slice b 12 14)).toNat ≠ b.length - headerSize := by
    rw [toNat_uint16, Nat.mod_eq_of_lt (getBE_slice_lt hl), hlen]; exact not_not.2 rfl
  simp only [unmarshalPacket, if_neg (Nat.not_lt.2 hl), if_neg hm, if_neg (not_not.2 h2), if_neg hn]

theorem unmarshalPacket_ok_iff {b : Bytes} :
    (∃ q, unmarshalPacket b = .ok q) ↔ WellFramed b :=
  ⟨fun ⟨_, h⟩ => wellFramed_of_unmarshalPacket h, fun h => ⟨_, unmarshalPacket_of_wellFramed h⟩⟩

/-- A string with a full header is its four single-byte fields, the session id bytes, the length
bytes and the rest. -/
theorem eq_header_append {b : Bytes} (h : headerSize ≤ b.length) :
    b = [b.getD 0 0, b.getD 1 0, b.getD 2 0, b.getD 3 0] ++ slice b 4 12 ++ slice b 12 14 ++
      b.drop headerSize := by
  rw [← take_four (by unfold headerSize at h; omega), take_append_slice (by decide),
    take_append_slice (by decide)]
  exact (List.take_append_drop _ _).symm

/-- `Packet.Marshal` gives back every string that `UnmarshalPacket` accepts. -/
theorem marshal_of_unmarshalPacket {b : Bytes} {q : Packet} (h : unmarshalPacket b = .ok q) :
    q.marshal = b := by
  have hw := wellFramed_of_unmarshalPacket h
  rw [unmarshalPacket_of_wellFramed hw, Except.ok.injEq] at h
  subst h
  have hl := hw.1
  unfold headerSize at hl
  have h8 : (slice b 4 12).length = 8 := by simp; omega
  have h2 : (slice b 12 14).length = 2 := by simp; omega
  simp only [Packet.marshal, putUint64_uint64 h8, putUint16_uint16 h2]
  exact (eq_header_append hw.1).symm

/-! ## Packets built by `NewPacket` -/

theorem length_marshal (p : Packet) : p.marshal.length = headerSize + p.payload.length := by
  simp [Packet.marshal, headerSize]; omega

/-- The wire form of `NewPacket t s p` is accepted exactly when `len(p)` fits the `uint16`
length field. -/
theorem wellFramed_newPacket_iff (t : UInt8) (s : UInt64) (p : Bytes) :
    WellFramed (newPacket t s p).marshal ↔ p.length ≤ maxPacketSize := by
  have hs : slice (newPacket t s p).marshal 12 14 = putUint16 (UInt16.ofNat p.length) :=
    slice_of_eq_append 12 14 ([magicByte1, magicByte2, protocolVersion, t] ++ putUint64 s) _ p rfl
      (by simp) (by simp)
  have hl : getBE (putUint16 (UInt16.ofNat p.length)) = p.length % 2 ^ 16 := by
    rw [putUint16, getBE_putBE]
    exact (Nat.mod_eq_of_lt (Nat.mod_lt _ (by decide))).trans (BitVec.toNat_ofNat _ _)
  rw [WellFramed, hs, hl, length_marshal]
  simp [Packet.marshal, newPacket, headerSize, maxPacketSize]
  omega

/-- A packet built by `NewPacket` with a payload that fits reads back unchanged. -/
theorem unmarshalPacket_newPacket_of_le {t : UInt8} {s : UInt64} {p : Bytes}
    (hp : p.length ≤ maxPacketSize) :
    unmarshalPacket (newPacket t s p).marshal = .ok (newPacket t s p) := by
  obtain ⟨q, h⟩ := unmarshalPacket_ok_iff.2 ((wellFramed_newPacket_iff t s p).2 hp)
  have hq := marshal_of_unmarshalPacket h
  rcases q with ⟨⟨⟨m1, m2⟩, v, ty, sid, len⟩, pl⟩
  simp only [Packet.marshal, newPacket, List.append_assoc, List.cons_append, List.nil_append,
    List.cons.injEq] at hq
  obtain ⟨rfl, rfl, rfl, rfl, hrest⟩ := hq
  obtain ⟨h8, hrest⟩ := List.append_inj hrest (by simp)
  obtain ⟨h2, rfl⟩ := List.append_inj hrest (by simp)
  have hsid : sid = s := by simpa only [uint64_putUint64] using congrArg uint64 h8
  have hlf : len = UInt16.ofNat pl.length := by
    simpa only [uint16_putUint16] using congrArg uint16 h2
  subst hsid hlf
  exact h

/-- Marshal then unmarshal of `NewPacket t s p`: it succeeds exactly when `len(p) ≤ 65535`, and
then gives back the header `NewPacket` built, whose length field is `len(p)`, and the payload. -/
theorem unmarshalPacket_newPacket (t : UInt8) (s : UInt64) (p : Bytes) :
    ((∃ q, unmarshalPacket (newPacket t s p).marshal = .ok q) ↔ p.length ≤ maxPacketSize) ∧
    ∀ q, unmarshalPacket (newPacket t s p).marshal = .ok q →
      q.header =
        { magic := (magicByte1, magicByte2), version := protocolVersion, type := t,
          sessionID := s, length := UInt16.ofNat p.length } ∧
      q.header.length.toNat = p.length ∧ q.payload = p := by
  refine ⟨unmarshalPacket_ok_iff.trans (wellFramed_newPacket_iff t s p), fun q h => ?_⟩
  have hp := (wellFramed_newPacket_iff t s p).1 (wellFramed_of_unmarshalPacket h)
  rw [unmarshalPacket_newPacket_of_le hp, Except.ok.injEq] at h
  subst h
  exact ⟨rfl, (BitVec.toNat_ofNat _ _).trans (Nat.mod_eq_of_lt (by unfold maxPacketSize at hp; omega)),
    rfl⟩

/-! ## Tampering with the header -/

/-- `b` with bit `j` of byte `i` flipped. -/
def flipBit (b : Bytes) (i : Nat) (j : Fin 8) : Bytes :=
  b.set i (b.getD i 0 ^^^ (1 <<< UInt8.ofNat j))

theorem getD_set_self {b : Bytes} {i : Nat} (y : UInt8) (hi : i < b.length) :
    (b.set i y).getD i 0 = y := by
  simp [List.getD_eq_getElem?_getD, List.getElem?_set, hi]

theorem getD_set_ne {b : Bytes} {i k : Nat} (y : UInt8) (h : i ≠ k) :
    (b.set i y).getD k 0 = b.getD k 0 := by
  simp [List.getD_eq_getElem?_getD, List.getElem?_set, h]

@[simp] theorem getBE_pair (x y : UInt8) : getBE [x, y] = x.toNat * 256 + y.toNat := by
  simp [getBE]

/-- Changing one byte of the magic, version or length field of an accepted string to another
value makes it rejected: the first three are compared with constants, and the length field with
the unchanged string length. -/
theorem not_wellFramed_set {b : Bytes} (hb : WellFramed b) {i : Nat} (hi : i ∈ [0, 1, 2, 12, 13])
    {y : UInt8} (hy : y ≠ b.getD i 0) : ¬WellFramed (b.set i y) := by
  obtain ⟨hl, h0, h1, h2, hL⟩ := hb
  unfold headerSize at hl
  rintro ⟨-, h0', h1', h2', hL'⟩
  rw [List.length_set] at hL'
  simp only [List.mem_cons, List.mem_singleton, List.not_mem_nil, or_false] at hi
  rcases hi with rfl | rfl | rfl | rfl | rfl
  · rw [getD_set_self _ (by omega)] at h0'; exact hy (h0'.trans h0.symm)
  · rw [getD_set_self _ (by omega)] at h1'; exact hy (h1'.trans h1.symm)
  · rw [getD_set_self _ (by omega)] at h2'; exact hy (h2'.trans h2.symm)
  all_goals
    rw [slice_two (i := 12) (by omega)] at hL
    rw [slice_two (i := 12) (by simp; omega)] at hL'
  · rw [getD_set_self _ (by omega), getD_set_ne (k := 12 + 1) _ (by decide)] at hL'
    simp only [getBE_pair, Nat.reduceAdd] at hL hL'
    exact hy (UInt8.toNat.inj (by omega))
  · rw [getD_set_self _ (by omega), getD_set_ne (k := 12) _ (by decide)] at hL'
    simp only [getBE_pair, Nat.reduceAdd] at hL hL'
    exact hy (UInt8.toNat.inj (by omega))

theorem xor_ne_self {x m : UInt8} (hm : m ≠ 0) : x ^^^ m ≠ x := fun h => hm <| by
  apply UInt8.eq_of_toBitVec_eq
  have h2 : x.toBitVec ^^^ m.toBitVec = x.toBitVec := congrArg UInt8.toBitVec h
  simpa [← BitVec.xor_assoc] using congrArg (x.toBitVec ^^^ ·) h2

theorem not_wellFramed_flipBit {b : Bytes} (hb : WellFramed b) {i : Nat}
    (hi : i ∈ [0, 1, 2, 12, 13]) (j : Fin 8) : ¬WellFramed (flipBit b i j) :=
  not_wellFramed_set hb hi (xor_ne_self (by revert j; decide))

/-- `UnmarshalPacket` accepts exactly the strings of `WellFramed`, `Packet.Marshal` gives each
accepted string back from its result, and a one-bit change of the magic, version or length field
of an accepted string is rejected. -/
theorem unmarshalPacket_grammar (b : Bytes) :
    ((∃ q, unmarshalPacket b = .ok q) ↔ WellFramed b) ∧
    (∀ q, unmarshalPacket b = .ok q → q.marshal = b) ∧
    ((∃ q, unmarshalPacket b = .ok q) →
      ∀ i ∈ [0, 1, 2, 12, 13], ∀ j : Fin 8, ∀ q, unmarshalPacket (flipBit b i j) ≠ .ok q) :=
  ⟨unmarshalPacket_ok_iff, fun _ => marshal_of_unmarshalPacket, fun ⟨_, hb⟩ _ hi j _ h =>
    not_wellFramed_flipBit (wellFramed_of_unmarshalPacket hb) hi j (wellFramed_of_unmarshalPacket h)⟩

end Hydra
