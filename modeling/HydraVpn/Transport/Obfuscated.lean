import HydraVpn.Bytes
import Mathlib.Data.List.Rotate

/-!
# The obfuscated transport (`ObfuscatedConnection`)

`Write` sends a 4-byte big-endian length and the payload, XORed with the key from the connection's
key position on, and moves the position past both. `Read` removes the XOR from the length with a
copy of the position, but from the body with the position itself, and moves the position past the
body only. The connection below is a reliable in-order byte stream: what one side writes is what
the other side's `io.ReadFull` calls take, in order.

* `obfuscate_append`, `obfuscate_obfuscate`, `keyPos_obfuscate`: `obfuscate` applies the key
  stream byte by byte; applying it twice from one position gives the data back.
* `obfuscate_cursor_involution`: from a position inside the key, the cursor stays inside it and
  each byte is XORed with the key byte at the start plus its index.
* `read_write`: after the peer's `Write` of a message, `Read` returns the message XORed with the
  key stream from the writer's position plus 4 and again from its own position, and moves its
  position 4 bytes less than the writer moves its own.
* `readAll_writeAll`: under a key unchanged by a rotation of 4 bytes (`Rot4Invariant`), the
  reader returns every message of a sequence in order; `read_write_misread`: under any other key
  a message of zero bytes comes back garbled.
* `obfuscated_stream_iff`: between fresh connections, every sequence of messages gets through
  exactly when the key is `Rot4Invariant`.
* `obfuscated_read_misframes`: with the key `0, 1, …, 31`, `Write([0x00])` is read back as
  `[0x04]`.
* `obfuscated_first_frame_iff`: `NewObfuscatedTransport` draws a random key on each side and
  nothing calls `SetKey`; the server reads the client's first frame exactly when its key is the
  client's rotated by 4 bytes and the two agree on their first 4 bytes.
-/

namespace Hydra

/-- `obfuscate(data, key, keyPos)`: XOR each byte with `key[keyPos]` and advance the position
modulo `len(key)`; the result is the data and the position after. Go panics on an empty key; every
key the code uses has 32 bytes. -/
def obfuscate (key : Bytes) : Bytes → Nat → Bytes × Nat
  | [], keyPos => ([], keyPos)
  | x :: data, keyPos =>
    let r := obfuscate key data ((keyPos + 1) % key.length)
    ((x ^^^ key.getD keyPos 0) :: r.1, r.2)

theorem xor_xor_cancel (x k : UInt8) : x ^^^ k ^^^ k = x := by
  obtain ⟨a⟩ := x; obtain ⟨b⟩ := k
  show UInt8.mk (a ^^^ b ^^^ b) = UInt8.mk a
  rw [BitVec.xor_assoc, BitVec.xor_self, BitVec.xor_zero]

section Obfuscate

variable (key : Bytes)

@[simp] theorem length_obfuscate (data : Bytes) (keyPos : Nat) :
    (obfuscate key data keyPos).1.length = data.length := by
  induction data generalizing keyPos with
  | nil => rfl
  | cons x data ih => simp [obfuscate, ih]

theorem obfuscate_append (data data' : Bytes) (keyPos : Nat) :
    obfuscate key (data ++ data') keyPos =
      ((obfuscate key data keyPos).1 ++ (obfuscate key data' (obfuscate key data keyPos).2).1,
        (obfuscate key data' (obfuscate key data keyPos).2).2) := by
  induction data generalizing keyPos with
  | nil => rfl
  | cons x data ih => simp only [List.cons_append, obfuscate, List.append_eq, ih]

/-- The same key stream removes what it added. -/
theorem obfuscate_obfuscate (data : Bytes) (keyPos : Nat) :
    (obfuscate key (obfuscate key data keyPos).1 keyPos).1 = data := by
  induction data generalizing keyPos with
  | nil => rfl
  | cons x data ih => simp only [obfuscate, xor_xor_cancel, ih]

/-- From a position inside the key, `obfuscate` moves it by the data's length, modulo the key's. -/
theorem keyPos_obfuscate {keyPos : Nat} (h : keyPos < key.length) (data : Bytes) :
    (obfuscate key data keyPos).2 = (keyPos + data.length) % key.length := by
  induction data generalizing keyPos with
  | nil => exact (Nat.mod_eq_of_lt h).symm
  | cons x data ih =>
    rw [obfuscate, ih (Nat.mod_lt _ (by omega)), Nat.mod_add_mod, List.length_cons]
    congr 1; omega

/-- From a position inside the key, byte `i` of the output is byte `i` of the data XORed with the
key byte at the in-range index `(keyPos + i) % len(key)`: the default of the model's key read is
never used. -/
theorem getElem_obfuscate {keyPos : Nat} (h : keyPos < key.length) (data : Bytes) (i : Nat)
    (hi : i < (obfuscate key data keyPos).1.length) :
    (obfuscate key data keyPos).1[i] =
      data.get ⟨i, by simpa using hi⟩ ^^^ key.get ⟨(keyPos + i) % key.length, Nat.mod_lt _ (by omega)⟩ := by
  induction data generalizing keyPos i with
  | nil => simp at hi
  | cons x data ih =>
    cases i with
    | zero => simp [obfuscate, List.getD_eq_getElem?_getD, h, Nat.mod_eq_of_lt h]
    | succ i =>
      simp only [obfuscate, List.getElem_cons_succ]
      rw [ih (Nat.mod_lt _ (by omega))]
      congr 3
      rw [Nat.mod_add_mod, Nat.add_right_comm, Nat.add_assoc]

/-- The rolling XOR from a position inside the key: over a concatenation it is the XOR of each
part, the second from where the first leaves the cursor; the cursor ends inside the key at the
start plus the total length; every byte is XORed with an in-range key byte; and a second pass
from the same start restores the data. -/
theorem obfuscate_cursor_involution {keyPos : Nat} (h : keyPos < key.length) (a b : Bytes) :
    (obfuscate key (a ++ b) keyPos).1 =
      (obfuscate key a keyPos).1 ++ (obfuscate key b ((keyPos + a.length) % key.length)).1 ∧
    (obfuscate key (a ++ b) keyPos).2 = (keyPos + a.length + b.length) % key.length ∧
    (obfuscate key (a ++ b) keyPos).2 < key.length ∧
    (∀ i (hi : i < (obfuscate key (a ++ b) keyPos).1.length),
      (obfuscate key (a ++ b) keyPos).1[i] = (a ++ b).get ⟨i, by simpa using hi⟩ ^^^
        key.get ⟨(keyPos + i) % key.length, Nat.mod_lt _ (by omega)⟩) ∧
    (obfuscate key (obfuscate key (a ++ b) keyPos).1 keyPos).1 = a ++ b := by
  have hend : (obfuscate key (a ++ b) keyPos).2 = (keyPos + a.length + b.length) % key.length := by
    rw [keyPos_obfuscate key h, List.length_append, Nat.add_assoc]
  refine ⟨?_, hend, hend ▸ Nat.mod_lt _ (by omega), getElem_obfuscate key h _,
    obfuscate_obfuscate key _ _⟩
  rw [obfuscate_append, keyPos_obfuscate key h]

theorem obfuscate_cursor_involution_threeByteKey :
    2 < ([7, 9, 11] : Bytes).length ∧
    ((obfuscate [7, 9, 11] (([1] : Bytes) ++ [2, 3]) 2).1 =
      (obfuscate [7, 9, 11] [1] 2).1 ++ (obfuscate [7, 9, 11] [2, 3] ((2 + [1].length) % 3)).1 ∧
    (obfuscate [7, 9, 11] (([1] : Bytes) ++ [2, 3]) 2).2 = (2 + [1].length + [2, 3].length) % 3 ∧
    (obfuscate [7, 9, 11] (([1] : Bytes) ++ [2, 3]) 2).2 < 3 ∧
    (∀ i (hi : i < (obfuscate [7, 9, 11] (([1] : Bytes) ++ [2, 3]) 2).1.length),
      (obfuscate [7, 9, 11] (([1] : Bytes) ++ [2, 3]) 2).1[i] = (([1] : Bytes) ++ [2, 3]).get ⟨i, by simpa using hi⟩ ^^^
        ([7, 9, 11] : Bytes).get ⟨(2 + i) % 3, Nat.mod_lt _ (by decide)⟩) ∧
    (obfuscate [7, 9, 11] (obfuscate [7, 9, 11] (([1] : Bytes) ++ [2, 3]) 2).1 2).1 = ([1] : Bytes) ++ [2, 3]) :=
  ⟨by decide, obfuscate_cursor_involution [7, 9, 11] (by decide) [1] [2, 3]⟩

end Obfuscate

/-- The key and key position of an `ObfuscatedConnection`. Its `net.Conn` is the byte stream that
`write` returns and `read` takes. -/
structure ObfuscatedConnection where
  key : Bytes
  keyPos : Nat
  deriving DecidableEq, Repr

namespace ObfuscatedConnection

/-- `Write(b)`: the bytes written to the stream, and the connection after. It returns `len(b)`. -/
def write (c : ObfuscatedConnection) (b : Bytes) : Bytes × ObfuscatedConnection :=
  let r := obfuscate c.key (putUint32 (UInt32.ofNat b.length) ++ b) c.keyPos
  (r.1, { c with keyPos := r.2 })

/-- `Read(b)` with `len(b) = bufLen` from the stream `src`: the bytes copied into `b` or the error,
what is left of the stream, and the connection after. -/
def read (c : ObfuscatedConnection) (bufLen : Nat) (src : Bytes) :
    Except String Bytes × Bytes × ObfuscatedConnection :=
  match readFull 4 src with
  | .error e => (.error e, [], c)
  | .ok (lenBuf, rest) =>
    let length := uint32 (obfuscate c.key lenBuf.bytes c.keyPos).1
    if length.toNat > 65535 then (.error ("invalid packet length: " ++ toString length.toNat), rest, c)
    else
      match readFull length.toNat rest with
      | .error e => (.error e, [], c)
      | .ok (data, rest') =>
        let r := obfuscate c.key data.bytes c.keyPos
        (.ok (r.1.take bufLen), rest', { c with keyPos := r.2 })

variable {key : Bytes} {keyPos : Nat}

/-- What `Write` sends: the XORed length prefix, then the body XORed from 4 bytes further on. -/
theorem write_eq (h : keyPos < key.length) (m : Bytes) :
    (ObfuscatedConnection.mk key keyPos).write m =
      ((obfuscate key (putUint32 (UInt32.ofNat m.length)) keyPos).1 ++
          (obfuscate key m ((keyPos + 4) % key.length)).1,
        ⟨key, (keyPos + 4 + m.length) % key.length⟩) := by
  simp only [write, obfuscate_append, keyPos_obfuscate key h, length_putUint32]
  rw [keyPos_obfuscate key (Nat.mod_lt _ (by omega)), Nat.mod_add_mod]

/-- `Read` after the peer's `Write` of `m`, both at one key position: the length is read right,
but the body is XORed again from the reader's position, not the writer's plus 4, and the reader's
position moves by the body's length only. -/
theorem read_write (h : keyPos < key.length) {m : Bytes} (hm : m.length ≤ 65535)
    (bufLen : Nat) (rest : Bytes) :
    (ObfuscatedConnection.mk key keyPos).read bufLen
        (((ObfuscatedConnection.mk key keyPos).write m).1 ++ rest) =
      (.ok ((obfuscate key (obfuscate key m ((keyPos + 4) % key.length)).1 keyPos).1.take bufLen),
        rest, ⟨key, (keyPos + m.length) % key.length⟩) := by
  have hlen : (uint32 (putUint32 (UInt32.ofNat m.length))).toNat = m.length := by
    rw [uint32_putUint32]; exact (BitVec.toNat_ofNat _ _).trans (Nat.mod_eq_of_lt (by omega))
  rw [write_eq h, List.append_assoc, read, readFull_append _ (by simp)]
  simp only [obfuscate_obfuscate, hlen, gt_iff_lt, show ¬65535 < m.length by omega, if_false]
  rw [readFull_append rest (by rw [length_obfuscate, obfuscate_obfuscate, hlen])]
  simp only [keyPos_obfuscate key h, length_obfuscate]

/-! ### Streams of messages -/

/-- `Write` of each message in turn: the bytes sent, in order, and the connection after. -/
def writeAll (c : ObfuscatedConnection) : List Bytes → Bytes × ObfuscatedConnection
  | [] => ([], c)
  | m :: ms =>
    let r := c.write m
    let r' := r.2.writeAll ms
    (r.1 ++ r'.1, r'.2)

/-- `n` successive `Read` calls with `bufLen`-byte buffers on the stream `src`: what each returns,
what is left of the stream, and the connection after. -/
def readAll (c : ObfuscatedConnection) (bufLen : Nat) :
    Nat → Bytes → List (Except String Bytes) × Bytes × ObfuscatedConnection
  | 0, src => ([], src, c)
  | n + 1, src =>
    let r := c.read bufLen src
    let r' := r.2.2.readAll bufLen n r.2.1
    (r.1 :: r'.1, r'.2)

end ObfuscatedConnection

/-- The key is unchanged by a rotation of 4 bytes: key byte `i + 4` is key byte `i`, indices
modulo the key's length. Every key of 1, 2 or 4 bytes is, and so is every constant key. -/
def Rot4Invariant (key : Bytes) : Prop :=
  ∀ i < key.length, key.getD ((i + 4) % key.length) 0 = key.getD i 0

instance (key : Bytes) : Decidable (Rot4Invariant key) :=
  inferInstanceAs (Decidable (∀ i < key.length, _))

/-- The key streams from positions `p` and `q` agree. -/
def SameStream (key : Bytes) (p q : Nat) : Prop :=
  ∀ j, key.getD ((p + j) % key.length) 0 = key.getD ((q + j) % key.length) 0

section Streams

variable {key : Bytes} {p q : Nat}

theorem SameStream.shift (hs : SameStream key p q) (n : Nat) :
    SameStream key ((p + n) % key.length) ((q + n) % key.length) := fun j => by
  rw [Nat.mod_add_mod, Nat.mod_add_mod, Nat.add_assoc, Nat.add_assoc]; exact hs (n + j)

/-- Under a rotation-invariant key, a position and the one 4 bytes on see one stream. -/
theorem sameStream_add_four (hrot : Rot4Invariant key) (hL : 0 < key.length) (q : Nat) :
    SameStream key q ((q + 4) % key.length) := fun j => by
  rw [Nat.mod_add_mod, Nat.add_right_comm q 4 j, ← Nat.mod_add_mod (q + j) key.length 4]
  exact (hrot _ (Nat.mod_lt _ hL)).symm

/-- From two positions inside the key that see one stream, `obfuscate` XORs the same bytes. -/
theorem obfuscate_congr (hp : p < key.length) (hq : q < key.length) (hs : SameStream key p q)
    (data : Bytes) : (obfuscate key data p).1 = (obfuscate key data q).1 := by
  induction data generalizing p q with
  | nil => rfl
  | cons x data ih =>
    have h0 := hs 0
    rw [Nat.add_zero, Nat.add_zero, Nat.mod_eq_of_lt hp, Nat.mod_eq_of_lt hq] at h0
    simp only [obfuscate, h0, ih (Nat.mod_lt _ (by omega)) (Nat.mod_lt _ (by omega)) (hs.shift 1)]

theorem zero_xor_u8 (a : UInt8) : 0 ^^^ a = a := by
  obtain ⟨a⟩ := a
  show UInt8.mk (0#8 ^^^ a) = UInt8.mk a
  rw [BitVec.zero_xor]

theorem eq_of_xor_eq_zero {a b : UInt8} (h : a ^^^ b = 0) : a = b := by
  have := congrArg (· ^^^ b) h
  simp only [xor_xor_cancel, zero_xor_u8] at this
  exact this

namespace ObfuscatedConnection

/-- `Read` after the peer's `Write` of `m`, the reader's position seeing the writer's stream, under
a rotation-invariant key: the reader gets the message (cut to its buffer) and moves by its
length, and the two positions again see one stream. -/
theorem read_write_of_sameStream (hrot : Rot4Invariant key) (hp : p < key.length)
    (hq : q < key.length) (hs : SameStream key p q) {m : Bytes} (hm : m.length ≤ 65535)
    (bufLen : Nat) (rest : Bytes) :
    (ObfuscatedConnection.mk key p).read bufLen
        (((ObfuscatedConnection.mk key q).write m).1 ++ rest) =
      (.ok (m.take bufLen), rest, ⟨key, (p + m.length) % key.length⟩) := by
  have hlen : (uint32 (putUint32 (UInt32.ofNat m.length))).toNat = m.length := by
    rw [uint32_putUint32]; exact (BitVec.toNat_ofNat _ _).trans (Nat.mod_eq_of_lt (by omega))
  have hlenBuf := obfuscate_congr hp hq hs
    (obfuscate key (putUint32 (UInt32.ofNat m.length)) q).1
  have hbody := obfuscate_congr hp (Nat.mod_lt _ (by omega))
    (fun j => (hs j).trans (sameStream_add_four hrot (by omega) q j))
    (obfuscate key m ((q + 4) % key.length)).1
  have hL : (uint32 (obfuscate key (obfuscate key (putUint32 (UInt32.ofNat m.length)) q).1
      p).1).toNat = m.length := by rw [hlenBuf, obfuscate_obfuscate, hlen]
  rw [write_eq hq, List.append_assoc, read, readFull_append _ (by simp)]
  dsimp only
  rw [if_neg (by omega), readFull_append rest (by rw [length_obfuscate]; exact hL.symm)]
  simp only [hbody, obfuscate_obfuscate, keyPos_obfuscate key hp, length_obfuscate]

/-- Over a rotation-invariant key, successive `Read` calls after the peer's `Write` of each
message of a sequence return the messages in order, each cut to the buffer, and leave the rest of
the stream. -/
theorem readAll_writeAll (hrot : Rot4Invariant key) (bufLen : Nat) :
    ∀ (ms : List Bytes) {p q : Nat}, p < key.length → q < key.length → SameStream key p q →
      (∀ m ∈ ms, m.length ≤ 65535) → ∀ rest,
      ((ObfuscatedConnection.mk key p).readAll bufLen ms.length
          (((ObfuscatedConnection.mk key q).writeAll ms).1 ++ rest)).1 =
        ms.map (fun m => .ok (m.take bufLen)) ∧
      ((ObfuscatedConnection.mk key p).readAll bufLen ms.length
          (((ObfuscatedConnection.mk key q).writeAll ms).1 ++ rest)).2.1 = rest
  | [], _, _, _, _, _, _, _ => ⟨rfl, rfl⟩
  | m :: ms, p, q, hp, hq, hs, hms, rest => by
    have hm := hms m (.head _)
    have hL : 0 < key.length := by omega
    have hw := write_eq hq m
    simp only [writeAll, readAll, List.length_cons, List.map_cons]
    rw [List.append_assoc, read_write_of_sameStream hrot hp hq hs hm, hw]
    have h4 : SameStream key p ((q + 4) % key.length) := fun j =>
      (hs j).trans (sameStream_add_four hrot hL q j)
    have hs' := h4.shift m.length
    rw [Nat.mod_add_mod] at hs'
    obtain ⟨h1, h2⟩ := readAll_writeAll hrot bufLen ms (Nat.mod_lt _ hL) (Nat.mod_lt _ hL) hs'
      (fun m' hm' => hms m' (.tail _ hm')) rest
    exact ⟨by rw [h1], h2⟩

/-- From fresh connections, a key that is not rotation-invariant at byte `i` garbles the first
message of `i + 1` zero bytes: its byte `i` comes back as key byte `i + 4` XOR key byte `i`. -/
theorem read_write_misread {i : Nat} (hi : i < key.length) (hL : key.length ≤ 65535)
    (hbad : key.getD ((i + 4) % key.length) 0 ≠ key.getD i 0) {bufLen : Nat} (hbuf : i < bufLen)
    (rest : Bytes) :
    ((ObfuscatedConnection.mk key 0).read bufLen
        (((ObfuscatedConnection.mk key 0).write (List.replicate (i + 1) 0)).1 ++ rest)).1 ≠
      .ok ((List.replicate (i + 1) 0).take bufLen) := by
  have hL0 : 0 < key.length := by omega
  rw [read_write hL0 (by simp; omega)]
  intro h
  have hget := congrArg (·[i]?) (Except.ok.inj h)
  simp only [List.getElem?_take, hbuf, if_true] at hget
  have hlen : i < (obfuscate key (obfuscate key (List.replicate (i + 1) (0 : UInt8))
      ((0 + 4) % key.length)).1 0).1.length := by
    rw [length_obfuscate, length_obfuscate, List.length_replicate]; omega
  rw [List.getElem?_eq_getElem hlen, getElem_obfuscate key hL0 _ i hlen,
    List.get_eq_getElem, getElem_obfuscate key (Nat.mod_lt _ hL0) _ i (by simp)] at hget
  simp only [List.get_eq_getElem, List.getElem_replicate, zero_xor_u8, Nat.zero_add,
    Nat.mod_eq_of_lt hi, Nat.mod_add_mod, List.getElem?_replicate, Nat.lt_succ_self, if_true,
    Option.some.injEq] at hget
  apply hbad
  rw [List.getD_eq_getElem?_getD, List.getD_eq_getElem?_getD,
    List.getElem?_eq_getElem (Nat.mod_lt _ hL0), List.getElem?_eq_getElem hi, Nat.add_comm]
  exact congrArg (Option.getD · 0) (congrArg some (eq_of_xor_eq_zero hget))

end ObfuscatedConnection

/-- Between two fresh `ObfuscatedConnection`s on one key of at most 65535 bytes, read with
buffers at least as long as the key: `Read` returns every sequence of messages of at most 65535
bytes the peer writes, each cut to the buffer, exactly when the key is unchanged by a rotation of
4 bytes. The length prefix advances the writer's position 4 bytes past the reader's, so any key
byte that differs from the one 4 further on garbles a message. -/
theorem obfuscated_stream_iff (hL : 0 < key.length) (hL' : key.length ≤ 65535) {bufLen : Nat}
    (hbuf : key.length ≤ bufLen) :
    (∀ ms : List Bytes, (∀ m ∈ ms, m.length ≤ 65535) → ∀ rest,
      ((ObfuscatedConnection.mk key 0).readAll bufLen ms.length
          (((ObfuscatedConnection.mk key 0).writeAll ms).1 ++ rest)).1 =
        ms.map fun m => .ok (m.take bufLen)) ↔ Rot4Invariant key := by
  constructor
  · intro hall i hi
    by_contra hbad
    have := hall [List.replicate (i + 1) 0]
      (fun m hm => by rw [List.mem_singleton.1 hm, List.length_replicate]; omega) []
    have h1 := (List.cons.inj this).1
    rw [List.append_nil] at h1
    exact ObfuscatedConnection.read_write_misread hi hL' hbad (show i < bufLen by omega) [] h1
  · intro hrot ms hms rest
    exact (ObfuscatedConnection.readAll_writeAll hrot bufLen ms hL hL (fun _ => rfl) hms rest).1

theorem obfuscated_stream_iff_constantKey :
    0 < ([7, 7, 7] : Bytes).length ∧ ([7, 7, 7] : Bytes).length ≤ 65535 ∧
      ([7, 7, 7] : Bytes).length ≤ 4096 ∧
      ((∀ ms : List Bytes, (∀ m ∈ ms, m.length ≤ 65535) → ∀ rest,
        ((ObfuscatedConnection.mk [7, 7, 7] 0).readAll 4096 ms.length
            (((ObfuscatedConnection.mk [7, 7, 7] 0).writeAll ms).1 ++ rest)).1 =
          ms.map fun m => .ok (m.take 4096)) ↔ Rot4Invariant [7, 7, 7]) :=
  ⟨by decide, by decide, by decide, obfuscated_stream_iff (by decide) (by decide) (by decide)⟩

end Streams

/-- The key `0, 1, …, 31`. -/
def countingKey : Bytes := (List.range 32).map UInt8.ofNat

/-- Both ends at key position 0 with the key `0, 1, …, 31`: `Write([0x00])` sends
`00 01 02 02 04`, and `Read` returns `[0x04]`, leaving the reader at position 1 and the writer at
position 5. -/
theorem obfuscated_read_misframes :
    (ObfuscatedConnection.mk countingKey 0).write [0] = ([0, 1, 2, 2, 4], ⟨countingKey, 5⟩) ∧
    (ObfuscatedConnection.mk countingKey 0).read 4096 [0, 1, 2, 2, 4] =
      (.ok [4], [], ⟨countingKey, 1⟩) :=
  ⟨rfl, rfl⟩

/-! ## Two transports -/

theorem xor_xor_eq_self_iff (x a b : UInt8) : x ^^^ a ^^^ b = x ↔ a = b := by
  constructor
  · intro h
    apply eq_of_xor_eq_zero
    obtain ⟨x⟩ := x; obtain ⟨a⟩ := a; obtain ⟨b⟩ := b
    have h' : x ^^^ a ^^^ b = x := congrArg UInt8.toBitVec h
    show UInt8.mk (a ^^^ b) = UInt8.mk 0#8
    congr 1
    have := congrArg (x ^^^ ·) h'
    simp only [← BitVec.xor_assoc, BitVec.xor_self, BitVec.zero_xor] at this
    exact this
  · rintro rfl; exact xor_xor_cancel x a

/-- XOR with two key streams gives the data back exactly when the streams agree over it. -/
theorem obfuscate_obfuscate_eq_iff {k₁ k₂ : Bytes} :
    ∀ (data : Bytes) {p q : Nat}, p < k₁.length → q < k₂.length →
      ((obfuscate k₂ (obfuscate k₁ data p).1 q).1 = data ↔
        ∀ i < data.length, k₁.getD ((p + i) % k₁.length) 0 = k₂.getD ((q + i) % k₂.length) 0)
  | [], _, _, _, _ => by simp [obfuscate]
  | x :: data, p, q, hp, hq => by
    have ih := obfuscate_obfuscate_eq_iff data (p := (p + 1) % k₁.length)
      (q := (q + 1) % k₂.length) (Nat.mod_lt _ (by omega)) (Nat.mod_lt _ (by omega))
    simp only [obfuscate, List.cons.injEq, xor_xor_eq_self_iff, ih, List.length_cons]
    constructor
    · rintro ⟨h0, hs⟩ i hi
      cases i with
      | zero => simpa [Nat.mod_eq_of_lt hp, Nat.mod_eq_of_lt hq] using h0
      | succ i =>
        have := hs i (by omega)
        rwa [Nat.mod_add_mod, Nat.mod_add_mod, Nat.add_right_comm p 1, Nat.add_right_comm q 1,
          Nat.add_assoc, Nat.add_assoc] at this
    · intro h
      refine ⟨by simpa [Nat.mod_eq_of_lt hp, Nat.mod_eq_of_lt hq] using h 0 (by omega),
        fun i hi => ?_⟩
      rw [Nat.mod_add_mod, Nat.mod_add_mod, Nat.add_assoc, Nat.add_assoc, Nat.add_comm 1 i]
      exact h (i + 1) (by omega)

/-- An `ObfuscatedTransport`: its XOR key (the TLS configuration is not modelled). -/
structure ObfuscatedTransport where
  key : Bytes
  deriving DecidableEq, Repr

/-- `NewObfuscatedTransport`: `rand.Read` of a 32-byte key, from the bytes the reader supplies; a
short read leaves the rest of the key zero. -/
def newObfuscatedTransport (rnd : Bytes) : ObfuscatedTransport :=
  ⟨rnd.take 32 ++ List.replicate (32 - rnd.length) 0⟩

/-- A connection of the transport, from `Dial` or from `Accept` on the listener `Listen` returns:
the transport's key, at key position 0. -/
def ObfuscatedTransport.connection (t : ObfuscatedTransport) : ObfuscatedConnection := ⟨t.key, 0⟩

@[simp] theorem length_newObfuscatedTransport (rnd : Bytes) :
    (newObfuscatedTransport rnd).key.length = 32 := by
  simp only [newObfuscatedTransport, List.length_append, List.length_take, List.length_replicate]
  omega

theorem getBE_eq_of_uint32 {v : Bytes} (hv : v.length = 4) {n : Nat} (hn : n < 2 ^ 32)
    (h : (uint32 v).toNat = n) : v = putUint32 (UInt32.ofNat n) := by
  have hlt := getBE_lt v
  rw [hv] at hlt
  have : (uint32 v).toNat = getBE v := (BitVec.toNat_ofNat _ _).trans (Nat.mod_eq_of_lt hlt)
  rw [putUint32, ← putBE_getBE_of_length hv, ← this, h]
  exact congrArg _ ((BitVec.toNat_ofNat n 32).trans (Nat.mod_eq_of_lt hn)).symm

theorem take_eq_take_iff_getD {l₁ l₂ : Bytes} {n : Nat} (h₁ : n ≤ l₁.length) (h₂ : n ≤ l₂.length) :
    l₁.take n = l₂.take n ↔ ∀ i < n, l₁.getD i 0 = l₂.getD i 0 := by
  constructor
  · intro h i hi
    have := congrArg (·[i]?) h
    simp only [List.getElem?_take, hi, if_true] at this
    rw [List.getD_eq_getElem?_getD, List.getD_eq_getElem?_getD, this]
  · intro h
    apply List.ext_getElem (by simp only [List.length_take]; omega)
    intro i hi₁ _
    rw [List.length_take] at hi₁
    have := h i (by omega)
    rw [List.getD_eq_getElem?_getD, List.getD_eq_getElem?_getD, List.getElem?_eq_getElem (by omega),
      List.getElem?_eq_getElem (by omega)] at this
    rw [List.getElem_take, List.getElem_take]
    exact this

theorem eq_rotate_iff_getD {l₁ l₂ : Bytes} (h : l₁.length = l₂.length) (n : Nat) :
    l₁ = l₂.rotate n ↔ ∀ i < l₁.length, l₁.getD i 0 = l₂.getD ((i + n) % l₂.length) 0 := by
  constructor
  · rintro rfl i hi
    rw [List.length_rotate] at hi
    rw [List.getD_eq_getElem?_getD, List.getElem?_rotate hi, List.getD_eq_getElem?_getD]
  · intro hg
    apply List.ext_getElem (by simp [h])
    intro i hi₁ hi₂
    have := hg i hi₁
    rw [List.getD_eq_getElem?_getD, List.getD_eq_getElem?_getD, List.getElem?_eq_getElem hi₁,
      List.getElem?_eq_getElem (Nat.mod_lt _ (by omega))] at this
    simpa [List.getElem_rotate] using this

namespace ObfuscatedConnection

/-- A reader under the key `ks` and a writer under `kc`, both at position 0, on the writer's first
message of `m`, at least as long as the keys and shorter than the buffer. -/
theorem read_write_two_keys {kc ks : Bytes} (hc : kc.length = 32) (hs : ks.length = 32) {m : Bytes}
    (hm : 32 ≤ m.length) {bufLen : Nat} (hbuf : m.length < bufLen) (hm' : m.length ≤ 65535)
    (rest : Bytes) :
    ((ObfuscatedConnection.mk ks 0).read bufLen
        (((ObfuscatedConnection.mk kc 0).write m).1 ++ rest)).1 = .ok m ↔
      ks = kc.rotate 4 ∧ ks.take 4 = kc.take 4 := by
  have hpre : (obfuscate ks (obfuscate kc (putUint32 (UInt32.ofNat m.length)) 0).1 0).1 =
      putUint32 (UInt32.ofNat m.length) ↔ ks.take 4 = kc.take 4 := by
    rw [obfuscate_obfuscate_eq_iff _ (by omega) (by omega), take_eq_take_iff_getD (by omega) (by omega)]
    simp only [length_putUint32, Nat.zero_add, hc, hs]
    exact forall₂_congr fun i hi => by rw [Nat.mod_eq_of_lt (by omega : i < 32), eq_comm]
  have hbody : (obfuscate ks (obfuscate kc m 4).1 0).1 = m ↔ ks = kc.rotate 4 := by
    rw [obfuscate_obfuscate_eq_iff _ (by omega) (by omega), eq_rotate_iff_getD (by omega), hc, hs]
    constructor
    · intro h i hi
      have := h i (by omega)
      rwa [Nat.zero_add, Nat.mod_eq_of_lt hi, Nat.add_comm, eq_comm] at this
    · intro h i hi
      rw [Nat.zero_add, h _ (Nat.mod_lt _ (by omega)), Nat.mod_add_mod, Nat.add_comm]
  have hA := length_obfuscate kc (putUint32 (UInt32.ofNat m.length)) 0
  rw [length_putUint32] at hA
  rw [write_eq (show 0 < kc.length by omega), hc, show (0 + 4) % 32 = 4 from rfl,
    List.append_assoc, read, readFull_append _ hA]
  have hB : (obfuscate kc m 4).1.length = m.length := length_obfuscate _ _ _
  have hn : (UInt32.ofNat m.length).toNat = m.length :=
    (BitVec.toNat_ofNat _ _).trans (Nat.mod_eq_of_lt (by omega))
  dsimp only
  constructor
  · intro h
    split_ifs at h
    split at h
    · cases h
    · rename_i data rest' hrd
      obtain ⟨-, hdata, -⟩ := readFull_eq_ok.1 hrd
      have hok := Except.ok.inj h
      have hlen := congrArg List.length hok
      rw [List.length_take, length_obfuscate, data.length_eq] at hlen
      have hL : (uint32 (obfuscate ks (obfuscate kc (putUint32 (UInt32.ofNat m.length)) 0).1
          0).1).toNat = m.length := by omega
      have hd : data.bytes = (obfuscate kc m 4).1 := by
        rw [hdata, hL, List.take_append_of_le_length (by omega), List.take_of_length_le (by omega)]
      rw [hd, List.take_of_length_le (by rw [length_obfuscate]; omega)] at hok
      exact ⟨hbody.1 hok, hpre.1 (getBE_eq_of_uint32 (by simp) (by omega) hL)⟩
  · rintro ⟨hr, ht⟩
    have hL : (uint32 (obfuscate ks (obfuscate kc (putUint32 (UInt32.ofNat m.length)) 0).1
        0).1).toNat = m.length := by rw [hpre.2 ht, uint32_putUint32, hn]
    rw [if_neg (by omega), readFull_append rest (hB.trans hL.symm)]
    simp only [hbody.2 hr, List.take_of_length_le (by omega : m.length ≤ bufLen)]

end ObfuscatedConnection

/-- A client and a server each build their obfuscated transport in `New`, so each draws its own
random key, and nothing calls `SetKey`. The server's first `Read` of the client's first frame, of
32 to 4095 bytes as every `HandshakeInit` frame is, returns that frame exactly when the server's
key is the client's rotated by 4 bytes and the two keys agree on their first 4 bytes: a relation
between two independent draws. -/
theorem obfuscated_first_frame_iff (rndC rndS : Bytes) {m : Bytes} (hm : 32 ≤ m.length)
    (hm' : m.length < 4096) (rest : Bytes) :
    ((newObfuscatedTransport rndS).connection.read 4096
        (((newObfuscatedTransport rndC).connection.write m).1 ++ rest)).1 = .ok m ↔
      (newObfuscatedTransport rndS).key = (newObfuscatedTransport rndC).key.rotate 4 ∧
        (newObfuscatedTransport rndS).key.take 4 = (newObfuscatedTransport rndC).key.take 4 :=
  ObfuscatedConnection.read_write_two_keys (length_newObfuscatedTransport _)
    (length_newObfuscatedTransport _) hm hm' (by omega) rest

theorem obfuscated_first_frame_iff_constantKeys :
    32 ≤ (List.replicate 32 0 : Bytes).length ∧ (List.replicate 32 0 : Bytes).length < 4096 ∧
      (((newObfuscatedTransport (List.replicate 32 7)).connection.read 4096
          (((newObfuscatedTransport (List.replicate 32 7)).connection.write
            (List.replicate 32 0)).1 ++ [])).1 = .ok (List.replicate 32 0) ↔
        (newObfuscatedTransport (List.replicate 32 7)).key =
            (newObfuscatedTransport (List.replicate 32 7)).key.rotate 4 ∧
          (newObfuscatedTransport (List.replicate 32 7)).key.take 4 =
            (newObfuscatedTransport (List.replicate 32 7)).key.take 4) :=
  ⟨by decide, by decide, obfuscated_first_frame_iff _ _ (by decide) (by decide) []⟩

end Hydra
