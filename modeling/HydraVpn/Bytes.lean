import Mathlib.Data.List.Basic
import Mathlib.Algebra.Group.Nat.Basic

/-!
# Byte strings

Go `[]byte` values are `List UInt8`. This file has the slicing and `encoding/binary` operations
that the code applies to them, and the reader model used for `io.ReadFull`.

* `putBE`/`getBE`: the big-endian encoding of a `w`-byte unsigned integer
  (`binary.BigEndian.PutUintN`/`UintN`). `getBE_putBE` and `putBE_getBE` are its two round trips;
  the fixed widths (`putUint16`, `putUint32`, `putUint64`) inherit them.
* `putUint64LE`: `binary.LittleEndian.PutUint64`.
* `readFull`: `io.ReadFull` from a reader that supplies a given finite byte sequence.
-/

namespace Hydra

/-- A Go `[]byte`. -/
abbrev Bytes := List UInt8

/-- `b[lo:hi]`. The code only slices in bounds. -/
def slice (b : Bytes) (lo hi : Nat) : Bytes := (b.take hi).drop lo

@[simp] theorem length_slice (b : Bytes) (lo hi : Nat) :
    (slice b lo hi).length = min hi b.length - lo := by
  simp [slice]

@[simp] theorem byte_toNat_ofNat (n : Nat) : (UInt8.ofNat n).toNat = n % 256 :=
  BitVec.toNat_ofNat _ _

theorem slice_append_mid (pre mid post : Bytes) :
    slice (pre ++ mid ++ post) pre.length (pre.length + mid.length) = mid := by
  rw [slice, List.take_left' (by simp), List.drop_left' rfl]

/-- A slice at the boundaries of a piece of a concatenation is that piece. -/
theorem slice_of_eq_append (i j : Nat) (u v w : Bytes) {b : Bytes} (hb : b = u ++ v ++ w)
    (hi : u.length = i) (hj : i + v.length = j) : slice b i j = v := by
  subst hb hi hj; exact slice_append_mid _ _ _

theorem take_append_slice {b : Bytes} {lo hi : Nat} (h : lo ≤ hi) :
    b.take lo ++ slice b lo hi = b.take hi := by
  conv_rhs => rw [← List.take_append_drop lo (b.take hi)]
  rw [List.take_take, Nat.min_eq_left h, slice]

/-- A two-byte slice in bounds is its two bytes. -/
theorem slice_two {b : Bytes} {i : Nat} (h : i + 2 ≤ b.length) :
    slice b i (i + 2) = [b.getD i 0, b.getD (i + 1) 0] := by
  have h1 : i < b.length := by omega
  have h2 : i + 1 < b.length := by omega
  rw [slice, List.drop_take, Nat.add_sub_cancel_left, List.drop_eq_getElem_cons h1,
    List.drop_eq_getElem_cons h2]
  simp only [List.take_succ_cons, List.take_zero, List.getD_eq_getElem?_getD,
    List.getElem?_eq_getElem h1, List.getElem?_eq_getElem h2, Option.getD_some]

/-- A one-byte slice in bounds is that byte. -/
theorem slice_one {b : Bytes} {i : Nat} (h : i < b.length) : slice b i (i + 1) = [b.getD i 0] := by
  rw [slice, List.drop_take, Nat.add_sub_cancel_left, List.drop_eq_getElem_cons h,
    List.getD_eq_getElem?_getD, List.getElem?_eq_getElem h]
  rfl

theorem take_four {b : Bytes} (h : 4 ≤ b.length) :
    b.take 4 = [b.getD 0 0, b.getD 1 0, b.getD 2 0, b.getD 3 0] := by
  rcases b with _ | ⟨x0, _ | ⟨x1, _ | ⟨x2, _ | ⟨x3, rest⟩⟩⟩⟩ <;> simp at h ⊢

theorem byte_toNat_lt (x : UInt8) : x.toNat < 256 := x.toBitVec.isLt

/-! ## Big-endian integers -/

/-- The `w` low bytes of `n`, most significant first. -/
def putBE : Nat → Nat → Bytes
  | 0, _ => []
  | w + 1, n => putBE w (n / 256) ++ [UInt8.ofNat n]

/-- The value of bytes read most significant first. -/
def getBE (b : Bytes) : Nat := b.foldl (fun acc x => acc * 256 + x.toNat) 0

@[simp] theorem length_putBE (w n : Nat) : (putBE w n).length = w := by
  induction w generalizing n with
  | zero => rfl
  | succ w ih => simp [putBE, ih]

@[simp] theorem getBE_nil : getBE [] = 0 := rfl

@[simp] theorem getBE_append_singleton (b : Bytes) (x : UInt8) :
    getBE (b ++ [x]) = getBE b * 256 + x.toNat := by
  simp [getBE, List.foldl_append]

theorem getBE_lt (b : Bytes) : getBE b < 256 ^ b.length := by
  induction b using List.reverseRecOn with
  | nil => decide
  | append_singleton b x ih =>
    have := byte_toNat_lt x
    rw [getBE_append_singleton, List.length_append, List.length_singleton, Nat.pow_succ]
    omega

/-- Encoding then decoding keeps the low `w` bytes. -/
theorem getBE_putBE (w n : Nat) : getBE (putBE w n) = n % 256 ^ w := by
  induction w generalizing n with
  | zero => simp [putBE, Nat.mod_one]
  | succ w ih =>
    rw [putBE, getBE_append_singleton, ih, byte_toNat_ofNat, Nat.pow_succ', Nat.mod_mul]
    omega

/-- Decoding then encoding at the input's own width gives the input back. -/
theorem putBE_getBE (b : Bytes) : putBE b.length (getBE b) = b := by
  induction b using List.reverseRecOn with
  | nil => rfl
  | append_singleton b x ih =>
    have hx := byte_toNat_lt x
    rw [List.length_append, List.length_singleton, putBE, getBE_append_singleton,
      show (getBE b * 256 + x.toNat) / 256 = getBE b by omega, ih]
    congr
    exact UInt8.toNat.inj (by simp; omega)

theorem putBE_getBE_of_length {b : Bytes} {w : Nat} (h : b.length = w) :
    putBE w (getBE b) = b := h ▸ putBE_getBE b

/-! ## Fixed widths -/

/-- `binary.BigEndian.PutUint16`. -/
def putUint16 (v : UInt16) : Bytes := putBE 2 v.toNat

/-- `binary.BigEndian.Uint16`, applied by the code to two-byte slices. -/
def uint16 (b : Bytes) : UInt16 := UInt16.ofNat (getBE b)

/-- `binary.BigEndian.PutUint32`. -/
def putUint32 (v : UInt32) : Bytes := putBE 4 v.toNat

/-- `binary.BigEndian.Uint32`, applied by the code to four-byte slices. -/
def uint32 (b : Bytes) : UInt32 := UInt32.ofNat (getBE b)

/-- `binary.BigEndian.PutUint64`. -/
def putUint64 (v : UInt64) : Bytes := putBE 8 v.toNat

/-- `binary.BigEndian.Uint64`, applied by the code to eight-byte slices. -/
def uint64 (b : Bytes) : UInt64 := UInt64.ofNat (getBE b)

/-- `binary.LittleEndian.PutUint64`. -/
def putUint64LE (v : UInt64) : Bytes := (putBE 8 v.toNat).reverse

@[simp] theorem length_putUint16 (v : UInt16) : (putUint16 v).length = 2 := length_putBE _ _
@[simp] theorem length_putUint32 (v : UInt32) : (putUint32 v).length = 4 := length_putBE _ _
@[simp] theorem length_putUint64 (v : UInt64) : (putUint64 v).length = 8 := length_putBE _ _
@[simp] theorem length_putUint64LE (v : UInt64) : (putUint64LE v).length = 8 := by
  simp [putUint64LE]

theorem toNat_uint16 (b : Bytes) : (uint16 b).toNat = getBE b % 2 ^ 16 := BitVec.toNat_ofNat _ _

theorem uint16_putUint16 (v : UInt16) : uint16 (putUint16 v) = v :=
  UInt16.toNat.inj <| by
    rw [toNat_uint16, putUint16, getBE_putBE]
    have := v.toBitVec.isLt
    exact (Nat.mod_eq_of_lt (Nat.mod_lt _ (by decide))).trans (Nat.mod_eq_of_lt this)

theorem putUint16_uint16 {b : Bytes} (h : b.length = 2) : putUint16 (uint16 b) = b := by
  have : getBE b < 2 ^ 16 := by have := getBE_lt b; rw [h] at this; omega
  rw [putUint16, toNat_uint16, Nat.mod_eq_of_lt this, putBE_getBE_of_length h]

theorem uint32_putUint32 (v : UInt32) : uint32 (putUint32 v) = v :=
  UInt32.toNat.inj <| by
    show getBE (putBE 4 v.toNat) % 2 ^ 32 = v.toNat
    rw [getBE_putBE]
    have := v.toBitVec.isLt
    exact (Nat.mod_eq_of_lt (Nat.mod_lt _ (by decide))).trans (Nat.mod_eq_of_lt this)

theorem uint64_putUint64 (v : UInt64) : uint64 (putUint64 v) = v :=
  UInt64.toNat.inj <| by
    show getBE (putBE 8 v.toNat) % 2 ^ 64 = v.toNat
    rw [getBE_putBE]
    have := v.toBitVec.isLt
    exact (Nat.mod_eq_of_lt (Nat.mod_lt _ (by decide))).trans (Nat.mod_eq_of_lt this)

theorem putUint64_uint64 {b : Bytes} (h : b.length = 8) : putUint64 (uint64 b) = b := by
  have : getBE b < 2 ^ 64 := by have := getBE_lt b; rw [h] at this; omega
  show putBE 8 (getBE b % 2 ^ 64) = b
  rw [Nat.mod_eq_of_lt this, putBE_getBE_of_length h]

/-! ## Fallible code -/

theorem except_bind_eq_ok {ε α β : Type} {x : Except ε α} {f : α → Except ε β} {b : β} :
    x >>= f = .ok b ↔ ∃ a, x = .ok a ∧ f a = .ok b := by
  cases x <;> simp [bind, Except.bind]

@[simp] theorem except_mapError_eq_ok {ε ε' α : Type} {x : Except ε α} {f : ε → ε'} {a : α} :
    x.mapError f = .ok a ↔ x = .ok a := by
  cases x <;> simp [Except.mapError]

/-! ## Fixed-size arrays and readers -/

/-- A Go `[n]byte`. -/
structure BytesN (n : Nat) where
  bytes : Bytes
  length_eq : bytes.length = n
  deriving DecidableEq, Repr

theorem BytesN.ext {n : Nat} {a b : BytesN n} (h : a.bytes = b.bytes) : a = b := by
  cases a; cases b; cases h; rfl

/-- The all-zero `[n]byte`. -/
def BytesN.zero (n : Nat) : BytesN n := ⟨List.replicate n 0, List.length_replicate n 0⟩

/-- `copy(a[:], b)` into a zeroed `[n]byte` when `len(b) ≥ n`: the first `n` bytes of `b`. -/
def BytesN.ofPrefix {n : Nat} (b : Bytes) (h : n ≤ b.length) : BytesN n :=
  ⟨b.take n, by simp; omega⟩

@[simp] theorem BytesN.bytes_ofPrefix {n : Nat} (b : Bytes) (h : n ≤ b.length) :
    (BytesN.ofPrefix b h).bytes = b.take n := rfl

/-- The `[n]byte` copied from the slice of a concatenation at the boundaries of an `n`-byte piece
is that piece. -/
theorem BytesN.bytes_ofPrefix_slice {n i j : Nat} (u v w : Bytes) {b : Bytes} (hb : b = u ++ v ++ w)
    (hi : u.length = i) (hj : i + v.length = j) (hv : v.length = n) (h : n ≤ (slice b i j).length) :
    (BytesN.ofPrefix (slice b i j) h).bytes = v := by
  rw [bytes_ofPrefix, slice_of_eq_append i j u v w hb hi hj, List.take_of_length_le hv.le]

/-- `io.ReadFull` of `n` bytes from a reader that supplies `src` and then reports EOF: the bytes
read and what the reader has left, `io.EOF` when it supplies nothing and
`io.ErrUnexpectedEOF` when it supplies some bytes but fewer than `n`. -/
def readFull (n : Nat) (src : Bytes) : Except String (BytesN n × Bytes) :=
  if h : n ≤ src.length then .ok (BytesN.ofPrefix src h, src.drop n)
  else if src = [] then .error "EOF" else .error "unexpected EOF"

theorem readFull_eq_ok {n : Nat} {src : Bytes} {r : BytesN n} {rest : Bytes} :
    readFull n src = .ok (r, rest) ↔ n ≤ src.length ∧ r.bytes = src.take n ∧ rest = src.drop n := by
  unfold readFull
  split
  · constructor
    · rintro ⟨⟩; exact ⟨‹_›, rfl, rfl⟩
    · rintro ⟨h, hr, rfl⟩
      obtain ⟨rb, hl⟩ := r
      subst hr
      rfl
  · split <;> simp_all

theorem readFull_append {n : Nat} {a : Bytes} (b : Bytes) (h : a.length = n) :
    readFull n (a ++ b) = .ok (⟨a, h⟩, b) :=
  readFull_eq_ok.2 ⟨by simp [h], by simp [← h], by simp [← h]⟩

end Hydra
