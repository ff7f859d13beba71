import HydraVpn.Bytes
import Mathlib.Data.Finset.Basic
import Mathlib.Order.Interval.Finset.Nat

/-!
# The server's address pool (`IPPool` in `pkg/server`)

`Allocate` scans at most `maxHosts - 2` host numbers `(nextHost + i) % (maxHosts - 1)`, each
raised to at least 2, and takes the first whose address is not in `used`. Addresses are the
`uint32` values of their four bytes; `used` is the set of keys of the Go map (its keys are
`ip.String()`, which is injective on four-byte addresses).

* `scan_spec`: what the loop computes, in `Nat`, for a pool of 1 to 31 host bits whose cursor is at
  most `2^h` (`IPPool.Sane`): either every scanned address is in use and the pool is unchanged,
  or the first free one is taken.
* `allocate_spec`: the same for the whole call; `noWrap_of_sane`: its `uint32` arithmetic never
  wraps on such a pool.
* `allocate_safe`: over every run of `Allocate` and `Release` from `NewIPPool` (`PoolReach`),
  `Allocate` never panics, hands out only host numbers `2 … 2^h - 2` that are free, leaves the pool
  unchanged when it fails, and the addresses handed out and not released are distinct.
* `allocate_exhausted_iff`: on a sane pool `Allocate` reports exhaustion exactly when every host
  number is in use but perhaps one, `missedHost`, the host before the cursor.
* `allocate_filled`, `poolReach_filled`: the first `k` allocations from `NewIPPool` hand out
  hosts `2 … k + 1` in turn (`filled`).
* `allocate_releasedLast`: the scan misses one residue, the host before the cursor, so the full
  pool after the release of the host handed out last (`releasedLast`) reports exhaustion with a
  free address (`allocate_misses_released_last`, and `serverPool_exhausted_with_free_address` on
  `10.8.0.0/24`).
* `allocate_ok_of_card_lt`: with fewer than `2^h - 4` addresses in use `Allocate` always finds
  one; `releasedLast`, with `2^h - 4` in use (`card_releasedLast`), shows the bound is tight.
-/

namespace Hydra

/-! ## `uint32` arithmetic -/

section UInt32

@[simp] theorem u32_toNat_ofNat (n : Nat) : (UInt32.ofNat n).toNat = n % 2 ^ 32 :=
  BitVec.toNat_ofNat _ _

theorem u32_toNat_add (a b : UInt32) : (a + b).toNat = (a.toNat + b.toNat) % 2 ^ 32 :=
  BitVec.toNat_add _ _

theorem u32_toNat_lt (a : UInt32) : a.toNat < 2 ^ 32 := a.toBitVec.isLt

theorem u32_lt_iff (a b : UInt32) : a < b ↔ a.toNat < b.toNat := BitVec.lt_def

theorem u32_eq_iff (a b : UInt32) : a = b ↔ a.toNat = b.toNat :=
  ⟨congrArg _, UInt32.toNat.inj⟩

theorem u32_toNat_sub {a b : UInt32} (h : b.toNat ≤ a.toNat) : (a - b).toNat = a.toNat - b.toNat :=
  UInt32.toNat_sub_of_le _ _ (BitVec.le_def.2 h)

theorem u32_ofNat_add_one (i : Nat) : UInt32.ofNat i + 1 = UInt32.ofNat (i + 1) := by
  rw [u32_eq_iff, u32_toNat_add]; simp

end UInt32

/-! ## The pool -/

/-- An IPv4 subnet as `net.ParseCIDR` builds it: the network address, whose host bits are zero,
and the number of host bits (`bits - ones` of its mask). -/
structure Subnet where
  base : UInt32
  hostBits : Nat
  hostBits_le : hostBits ≤ 32
  base_aligned : base.toNat % 2 ^ hostBits = 0

/-- An address of the subnet does not wrap: the network address has its `h` low bits zero, so
adding a host number below `2^h` stays below `2^32`. -/
theorem Subnet.base_add_lt (s : Subnet) {x : Nat} (hx : x < 2 ^ s.hostBits) :
    s.base.toNat + x < 2 ^ 32 := by
  have hm := Nat.two_pow_pos s.hostBits
  have h32 : 2 ^ 32 = 2 ^ s.hostBits * 2 ^ (32 - s.hostBits) := by
    rw [← Nat.pow_add]; congr 1; have := s.hostBits_le; omega
  have hb := Nat.div_add_mod s.base.toNat (2 ^ s.hostBits)
  rw [s.base_aligned, Nat.add_zero] at hb
  have hq : s.base.toNat / 2 ^ s.hostBits + 1 ≤ 2 ^ (32 - s.hostBits) := by
    rw [Nat.add_one_le_iff, Nat.div_lt_iff_lt_mul hm, Nat.mul_comm, ← h32]; exact u32_toNat_lt _
  calc s.base.toNat + x < 2 ^ s.hostBits * (s.base.toNat / 2 ^ s.hostBits + 1) := by
        rw [Nat.mul_succ]; omega
    _ ≤ 2 ^ s.hostBits * 2 ^ (32 - s.hostBits) := Nat.mul_le_mul_left _ hq
    _ = 2 ^ 32 := h32.symm

/-- `IPPool`. The mutex is left out: every call runs under it. -/
structure IPPool where
  baseIP : UInt32
  subnet : Subnet
  used : Finset UInt32
  nextHost : UInt32

/-- `NewIPPool`: start from `.2`, reserving `.1` for the server. -/
def newIPPool (subnet : Subnet) : IPPool where
  baseIP := subnet.base
  subnet := subnet
  used := ∅
  nextHost := 2

namespace IPPool

/-- `maxHosts := uint32(1 << (bits - ones))`. -/
def maxHosts (p : IPPool) : UInt32 := UInt32.ofNat (2 ^ p.subnet.hostBits)

/-- The host number of iteration `i`: `(p.nextHost + i) % (maxHosts - 1)`, raised to 2. `none`
when the modulus is zero, where Go panics. -/
def hostNum (p : IPPool) (i : UInt32) : Option UInt32 :=
  if p.maxHosts - 1 = 0 then none
  else
    let h := (p.nextHost + i) % (p.maxHosts - 1)
    some (if h < 2 then 2 else h)

/-- The `for` loop of `Allocate` from iteration `i` with `n` iterations left. The result is what
the call returns with the pool after it, or `none` for a run-time panic. -/
def scan (p : IPPool) (i : UInt32) : Nat → Option (Except String UInt32 × IPPool)
  | 0 => some (.error "IP pool exhausted", p)
  | n + 1 =>
    match p.hostNum i with
    | none => none
    | some h =>
      let ip := p.baseIP + h
      if ip ∈ p.used then p.scan (i + 1) n
      else some (.ok ip, { p with used := insert ip p.used, nextHost := h + 1 })

/-- `Allocate`: the loop runs while `i < maxHosts - 2`, in `uint32`. -/
def allocate (p : IPPool) : Option (Except String UInt32 × IPPool) :=
  p.scan 0 (p.maxHosts - 2).toNat

/-- `Release`: delete the address from `used`; the cursor stays. -/
def release (p : IPPool) (ip : UInt32) : IPPool := { p with used := p.used.erase ip }

/-! ## The loop in `Nat` -/

/-- What `Allocate` needs of a pool: 1 to 31 host bits, `baseIP` the subnet's address, and a
cursor from 2 to `2^h`. -/
structure Sane (p : IPPool) : Prop where
  hostBits_pos : 1 ≤ p.subnet.hostBits
  hostBits_lt : p.subnet.hostBits ≤ 31
  base_eq : p.baseIP = p.subnet.base
  two_le_next : 2 ≤ p.nextHost.toNat
  next_le : p.nextHost.toNat ≤ 2 ^ p.subnet.hostBits

/-- The capacity `2^h`. -/
def capacity (p : IPPool) : Nat := 2 ^ p.subnet.hostBits

/-- The host number of iteration `i`, in `Nat`. -/
def hostAt (p : IPPool) (i : Nat) : Nat :=
  if (p.nextHost.toNat + i) % (p.capacity - 1) < 2 then 2
  else (p.nextHost.toNat + i) % (p.capacity - 1)

/-- The address of iteration `i`. -/
def addrAt (p : IPPool) (i : Nat) : UInt32 := p.baseIP + UInt32.ofNat (p.hostAt i)

/-- The pool after `Allocate` takes the host number `x`. -/
def take (p : IPPool) (x : Nat) : IPPool :=
  { p with used := insert (p.baseIP + UInt32.ofNat x) p.used, nextHost := UInt32.ofNat (x + 1) }

variable {p : IPPool}

theorem capacity_bounds (hp : p.Sane) : 2 ≤ p.capacity ∧ p.capacity ≤ 2 ^ 31 := by
  unfold capacity
  exact ⟨(Nat.pow_le_pow_right (by decide) hp.hostBits_pos : 2 ^ 1 ≤ _),
    Nat.pow_le_pow_right (by decide) hp.hostBits_lt⟩

theorem toNat_maxHosts (hp : p.Sane) : p.maxHosts.toNat = p.capacity := by
  have := capacity_bounds hp
  rw [maxHosts, u32_toNat_ofNat, ← capacity]; omega

/-- A pool with a host number to scan has at least two host bits. -/
theorem four_le_capacity (hp : p.Sane) (h : 2 < p.capacity) : 4 ≤ p.capacity := by
  unfold capacity at *
  have h2 : 2 ≤ p.subnet.hostBits := by
    rcases Nat.lt_or_ge p.subnet.hostBits 2 with hb | hb
    · rw [show p.subnet.hostBits = 1 by have := hp.hostBits_pos; omega] at h; contradiction
    · exact hb
  exact (Nat.pow_le_pow_right (by decide) h2 : 2 ^ 2 ≤ _)

/-- The host number of an iteration is between 2 and `2^h - 2`. -/
theorem hostAt_bounds (hp : p.Sane) {i : Nat} (hi : i < p.capacity - 2) :
    2 ≤ p.hostAt i ∧ p.hostAt i ≤ p.capacity - 2 := by
  have := four_le_capacity hp (by omega)
  unfold hostAt
  split
  · omega
  · have := Nat.mod_lt (p.nextHost.toNat + i) (show 0 < p.capacity - 1 by omega); omega

theorem hostNum_eq (hp : p.Sane) {i : Nat} (hi : i < p.capacity - 2) :
    p.hostNum (UInt32.ofNat i) = some (UInt32.ofNat (p.hostAt i)) := by
  have hc := capacity_bounds hp
  have hn := hp.next_le
  have hm : (p.maxHosts - 1).toNat = p.capacity - 1 := by
    rw [u32_toNat_sub (a := p.maxHosts) (b := 1) (by rw [toNat_maxHosts hp]; exact hc.1.trans' (by decide)),
      toNat_maxHosts hp]; rfl
  have hsum : (p.nextHost + UInt32.ofNat i).toNat = p.nextHost.toNat + i := by
    rw [u32_toNat_add, u32_toNat_ofNat]; unfold capacity at hc hi hn; omega
  have hmod : ((p.nextHost + UInt32.ofNat i) % (p.maxHosts - 1)).toNat =
      (p.nextHost.toNat + i) % (p.capacity - 1) := by
    rw [UInt32.toNat_mod, hsum, hm]
  rw [hostNum, if_neg (by rw [u32_eq_iff, hm]; show _ ≠ 0; omega)]
  simp only [Option.some.injEq]
  by_cases hlt : (p.nextHost.toNat + i) % (p.capacity - 1) < 2
  · rw [if_pos (by rw [u32_lt_iff, hmod]; exact hlt), hostAt, if_pos hlt]; rfl
  · have hb := (hostAt_bounds hp hi).2
    rw [if_neg (by rw [u32_lt_iff, hmod]; exact hlt), u32_eq_iff, hmod, u32_toNat_ofNat]
    rw [hostAt, if_neg hlt] at hb ⊢
    omega

/-- What `Allocate`'s loop does from iteration `i` with `n` iterations left, on a sane pool:
either every scanned address is in use and the call fails with the pool unchanged, or it takes
the first free one. -/
theorem scan_spec (hp : p.Sane) {i n : Nat} (hin : i + n ≤ p.capacity - 2) :
    ((∀ k < n, p.addrAt (i + k) ∈ p.used) ∧
      p.scan (UInt32.ofNat i) n = some (.error "IP pool exhausted", p)) ∨
    ∃ k < n, (∀ k' < k, p.addrAt (i + k') ∈ p.used) ∧ p.addrAt (i + k) ∉ p.used ∧
      p.scan (UInt32.ofNat i) n = some (.ok (p.addrAt (i + k)), p.take (p.hostAt (i + k))) := by
  induction n generalizing i with
  | zero => exact .inl ⟨fun k hk => absurd hk (Nat.not_lt_zero k), rfl⟩
  | succ n ih =>
    have hu_iff : p.baseIP + UInt32.ofNat (p.hostAt i) ∈ p.used ↔ p.addrAt i ∈ p.used := .rfl
    rw [scan, hostNum_eq hp (by omega)]
    simp only [hu_iff]
    by_cases hu : p.addrAt i ∈ p.used
    · rw [if_pos hu, u32_ofNat_add_one]
      have shift : ∀ k, i + 1 + k = i + (k + 1) := fun k => by omega
      rcases ih (i := i + 1) (by omega) with ⟨hall, hs⟩ | ⟨k, hk, hprev, hfree, hs⟩
      · refine .inl ⟨fun k hk => ?_, hs⟩
        cases k with
        | zero => exact hu
        | succ k => rw [← shift k]; exact hall k (by omega)
      · refine .inr ⟨k + 1, by omega, fun k' hk' => ?_, by rwa [← shift k], by rwa [← shift k]⟩
        cases k' with
        | zero => exact hu
        | succ k' => rw [← shift k']; exact hprev k' (by omega)
    · rw [if_neg hu]
      exact .inr ⟨0, by omega, fun _ h => absurd h (Nat.not_lt_zero _), hu,
        by simp [take, addrAt, u32_ofNat_add_one]⟩

theorem toNat_maxHosts_sub_two (hp : p.Sane) : (p.maxHosts - 2).toNat = p.capacity - 2 := by
  rw [u32_toNat_sub (a := p.maxHosts) (b := 2) (by rw [toNat_maxHosts hp]; exact (capacity_bounds hp).1),
    toNat_maxHosts hp]; rfl

/-- `Allocate` on a sane pool: it fails, leaving the pool as it is, exactly when every scanned
address is in use; otherwise it returns the first free one and moves the cursor past it. -/
theorem allocate_spec (hp : p.Sane) :
    ((∀ k < p.capacity - 2, p.addrAt k ∈ p.used) ∧
      p.allocate = some (.error "IP pool exhausted", p)) ∨
    ∃ k < p.capacity - 2, (∀ k' < k, p.addrAt k' ∈ p.used) ∧ p.addrAt k ∉ p.used ∧
      p.allocate = some (.ok (p.addrAt k), p.take (p.hostAt k)) := by
  have h := scan_spec hp (i := 0) (n := p.capacity - 2) (by omega)
  simp only [Nat.zero_add] at h
  rwa [allocate, toNat_maxHosts_sub_two hp]

/-- The `uint32` arithmetic of `Allocate` on `p` stays in range: `uint32(1 << h)` is `2^h`,
`maxHosts - 1` and `maxHosts - 2` do not go below zero, and in every iteration `i`,
`nextHost + i`, `baseInt + hostNum` and `hostNum + 1` are below `2^32`. -/
def NoWrap (p : IPPool) : Prop :=
  p.maxHosts.toNat = 2 ^ p.subnet.hostBits ∧ 2 ≤ p.maxHosts.toNat ∧
    ∀ i < p.maxHosts.toNat - 2, p.nextHost.toNat + i < 2 ^ 32 ∧
      p.baseIP.toNat + p.hostAt i < 2 ^ 32 ∧ p.hostAt i + 1 < 2 ^ 32

theorem noWrap_of_sane (hp : p.Sane) : p.NoWrap := by
  have hc := capacity_bounds hp
  have hn := hp.next_le
  refine ⟨toNat_maxHosts hp, by rw [toNat_maxHosts hp]; exact hc.1, fun i hi => ?_⟩
  rw [toNat_maxHosts hp] at hi
  have hb := hostAt_bounds hp hi
  have := p.subnet.base_add_lt (x := p.hostAt i) (by unfold capacity at hb; omega)
  unfold capacity at hc hb hi
  rw [hp.base_eq]
  omega

/-- The address of iteration `i`, as a number: the network address plus the host number. -/
theorem toNat_addrAt (hp : p.Sane) {i : Nat} (hi : i < p.capacity - 2) :
    (p.addrAt i).toNat = p.subnet.base.toNat + p.hostAt i := by
  have hb := hostAt_bounds hp hi
  have := p.subnet.base_add_lt (x := p.hostAt i) (by unfold capacity at hb; omega)
  have := capacity_bounds hp
  rw [addrAt, u32_toNat_add, u32_toNat_ofNat, hp.base_eq]
  unfold capacity at *
  omega

/-! ## Preserving sanity -/

theorem Sane.take (hp : p.Sane) {i : Nat} (hi : i < p.capacity - 2) : (p.take (p.hostAt i)).Sane := by
  have hb := hostAt_bounds hp hi
  have := capacity_bounds hp
  refine ⟨hp.hostBits_pos, hp.hostBits_lt, hp.base_eq, ?_, ?_⟩ <;>
    simp only [IPPool.take, u32_toNat_ofNat] <;> unfold capacity at * <;> omega

theorem Sane.release (hp : p.Sane) (ip : UInt32) : (p.release ip).Sane :=
  ⟨hp.hostBits_pos, hp.hostBits_lt, hp.base_eq, hp.two_le_next, hp.next_le⟩

/-- A successful `Allocate` on a sane pool takes an address not in use and leaves a sane pool on
the same subnet. -/
theorem allocate_ok {ip : UInt32} {p' : IPPool} (hp : p.Sane) (h : p.allocate = some (.ok ip, p')) :
    ip ∉ p.used ∧ p'.used = insert ip p.used ∧ p'.subnet = p.subnet ∧ p'.Sane := by
  rcases allocate_spec hp with ⟨-, he⟩ | ⟨k, hk, -, hfree, hok⟩
  · rw [he] at h; cases h
  · rw [hok, Option.some.injEq, Prod.mk.injEq, Except.ok.injEq] at h
    obtain ⟨rfl, rfl⟩ := h
    exact ⟨hfree, rfl, rfl, hp.take hk⟩

/-- A failed `Allocate` on a sane pool leaves it as it is. -/
theorem allocate_error {e : String} {p' : IPPool} (hp : p.Sane)
    (h : p.allocate = some (.error e, p')) : p' = p := by
  rcases allocate_spec hp with ⟨-, he⟩ | ⟨k, -, -, -, hok⟩
  · rw [he, Option.some.injEq, Prod.mk.injEq] at h
    exact h.2.symm
  · rw [hok] at h; cases h

theorem sane_newIPPool {s : Subnet} (h1 : 1 ≤ s.hostBits) (h31 : s.hostBits ≤ 31) :
    (newIPPool s).Sane :=
  ⟨h1, h31, rfl, le_refl _, (Nat.pow_le_pow_right (by decide) h1 : 2 ^ 1 ≤ _)⟩

end IPPool

/-! ## Runs of `Allocate` and `Release` -/

/-- The pools that `Allocate` and `Release` calls reach from `NewIPPool s`, with the addresses
returned by `Allocate` and not yet passed to `Release` (most recent first). -/
inductive PoolReach (s : Subnet) : IPPool → List UInt32 → Prop
  | init : PoolReach s (newIPPool s) []
  | allocated {p p' : IPPool} {ip : UInt32} {live : List UInt32} :
      PoolReach s p live → p.allocate = some (.ok ip, p') → PoolReach s p' (ip :: live)
  | failed {p p' : IPPool} {e : String} {live : List UInt32} :
      PoolReach s p live → p.allocate = some (.error e, p') → PoolReach s p' live
  | released {p : IPPool} {live : List UInt32} (ip : UInt32) :
      PoolReach s p live → PoolReach s (p.release ip) (live.filter (· != ip))

/-- The invariant of a run: the pool is sane and on `s`, and the outstanding addresses are
pairwise distinct and are exactly `used`. -/
structure PoolInv (s : Subnet) (p : IPPool) (live : List UInt32) : Prop where
  sane : p.Sane
  subnet_eq : p.subnet = s
  nodup : live.Nodup
  mem_live : ∀ a, a ∈ live ↔ a ∈ p.used

section PoolInv

variable {s : Subnet} {p p' : IPPool} {live : List UInt32}

theorem PoolInv.allocated {ip : UInt32} (hi : PoolInv s p live)
    (ha : p.allocate = some (.ok ip, p')) : PoolInv s p' (ip :: live) := by
  obtain ⟨hfree, hused, hsub, hsane⟩ := IPPool.allocate_ok hi.sane ha
  refine ⟨hsane, hsub.trans hi.subnet_eq,
    List.nodup_cons.2 ⟨fun h => hfree ((hi.mem_live _).1 h), hi.nodup⟩, fun a => ?_⟩
  simp [hused, hi.mem_live]

theorem PoolInv.failed {e : String} (hi : PoolInv s p live)
    (ha : p.allocate = some (.error e, p')) : PoolInv s p' live :=
  IPPool.allocate_error hi.sane ha ▸ hi

theorem PoolInv.released (hi : PoolInv s p live) (ip : UInt32) :
    PoolInv s (p.release ip) (live.filter (· != ip)) :=
  ⟨hi.sane.release ip, hi.subnet_eq, hi.nodup.filter _, fun a => by
    simp [IPPool.release, hi.mem_live, and_comm]⟩

theorem poolReach_inv (h1 : 1 ≤ s.hostBits) (h31 : s.hostBits ≤ 31) (hr : PoolReach s p live) :
    PoolInv s p live := by
  induction hr with
  | init => exact ⟨IPPool.sane_newIPPool h1 h31, rfl, List.nodup_nil, by simp [newIPPool]⟩
  | allocated _ ha ih => exact ih.allocated ha
  | failed _ ha ih => exact ih.failed ha
  | released ip _ ih => exact ih.released ip

end PoolInv

/-! ## The pools of the first allocations

`filled s k` is the pool after the first `k` allocations from `NewIPPool s`; `releasedLast s` is
the full pool after the release of the host handed out last. The scan covers `maxHosts - 2`
consecutive residues modulo `maxHosts - 1`, so it misses the residue `nextHost - 1`, that host:
`releasedLast s` reports exhaustion with a free address. -/

/-- The pool after the first `k` allocations from `NewIPPool s`: hosts `2 … k + 1` in use and the
cursor at `k + 2`. -/
def filled (s : Subnet) (k : Nat) : IPPool :=
  { newIPPool s with
    used := ((List.range k).map fun x => s.base + UInt32.ofNat (x + 2)).toFinset
    nextHost := UInt32.ofNat (k + 2) }

section Filled

variable {s : Subnet} {k : Nat}

theorem addr_inj {x y : Nat} (hx : x < 2 ^ s.hostBits) (hy : y < 2 ^ s.hostBits)
    (h : s.base + UInt32.ofNat x = s.base + UInt32.ofNat y) : x = y := by
  have h1 := s.base_add_lt hx
  have h2 := s.base_add_lt hy
  rw [u32_eq_iff, u32_toNat_add, u32_toNat_add, u32_toNat_ofNat, u32_toNat_ofNat] at h
  omega

theorem mem_filled_used {a : UInt32} :
    a ∈ (filled s k).used ↔ ∃ x < k, s.base + UInt32.ofNat (x + 2) = a := by
  simp [filled]

theorem filled_zero : filled s 0 = newIPPool s := rfl

theorem sane_filled (h1 : 1 ≤ s.hostBits) (h31 : s.hostBits ≤ 31) (hk : k + 2 ≤ 2 ^ s.hostBits) :
    (filled s k).Sane := by
  have : 2 ^ s.hostBits ≤ 2 ^ 31 := Nat.pow_le_pow_right (by decide) h31
  refine ⟨h1, h31, rfl, ?_, ?_⟩ <;> simp only [filled, newIPPool, u32_toNat_ofNat] <;> omega

/-- From `filled s k`, while a host is left before the last one, `Allocate` returns host
`k + 2`. -/
theorem allocate_filled (h3 : 3 ≤ s.hostBits) (h31 : s.hostBits ≤ 31)
    (hk : k + 4 ≤ 2 ^ s.hostBits) :
    (filled s k).allocate = some (.ok (s.base + UInt32.ofNat (k + 2)), filled s (k + 1)) := by
  have hp := sane_filled (k := k) (by omega) h31 (by omega)
  have hcap : (filled s k).capacity = 2 ^ s.hostBits := rfl
  have hnext : (filled s k).nextHost.toNat = k + 2 := by
    have : 2 ^ s.hostBits ≤ 2 ^ 31 := Nat.pow_le_pow_right (by decide) h31
    simp only [filled, u32_toNat_ofNat]; omega
  have h0 : (filled s k).hostAt 0 = k + 2 := by
    rw [IPPool.hostAt, hnext, hcap, Nat.add_zero, Nat.mod_eq_of_lt (by omega), if_neg (by omega)]
  have hfree : (filled s k).addrAt 0 ∉ (filled s k).used := by
    rw [IPPool.addrAt, h0, mem_filled_used]
    rintro ⟨x, hx, he⟩
    have := addr_inj (s := s) (by omega) (by omega) he
    omega
  rcases IPPool.allocate_spec hp with ⟨hall, -⟩ | ⟨j, -, hprev, -, hok⟩
  · exact absurd (hall 0 (by rw [hcap]; omega)) hfree
  · obtain rfl : j = 0 := by
      by_contra hj; exact hfree (hprev 0 (Nat.pos_of_ne_zero hj))
    rw [hok, IPPool.addrAt, h0]
    simp only [IPPool.take, filled, newIPPool, Option.some.injEq, Prod.mk.injEq, true_and,
      IPPool.mk.injEq, Nat.add_right_comm k 2 1, and_true]
    ext a
    simp [List.range_succ, or_comm]

theorem poolReach_filled (h3 : 3 ≤ s.hostBits) (h31 : s.hostBits ≤ 31) :
    ∀ k, k + 3 ≤ 2 ^ s.hostBits → ∃ live, PoolReach s (filled s k) live
  | 0, _ => ⟨[], filled_zero ▸ .init⟩
  | k + 1, hk =>
    have ⟨live, hr⟩ := poolReach_filled h3 h31 k (by omega)
    ⟨_, .allocated hr (allocate_filled h3 h31 (by omega))⟩

theorem card_filled_used (hk : k + 2 ≤ 2 ^ s.hostBits) : (filled s k).used.card = k := by
  simp only [filled]
  rw [List.toFinset_card_of_nodup, List.length_map, List.length_range]
  refine List.Nodup.map_on (fun x hx y hy h => ?_) (List.nodup_range k)
  rw [List.mem_range] at hx hy
  have := addr_inj (s := s) (by omega) (by omega) h
  omega

/-- The full pool, `filled s (2^h - 3)`, after the release of `base + 2^h - 2`, the address it
handed out last. -/
def releasedLast (s : Subnet) : IPPool :=
  (filled s (2 ^ s.hostBits - 3)).release (s.base + UInt32.ofNat (2 ^ s.hostBits - 2))

theorem eight_le_pow (h3 : 3 ≤ s.hostBits) : 8 ≤ 2 ^ s.hostBits := (Nat.pow_le_pow_right (by decide) h3 : 2 ^ 3 ≤ _)

theorem sane_releasedLast (h3 : 3 ≤ s.hostBits) (h31 : s.hostBits ≤ 31) :
    (releasedLast s).Sane :=
  (sane_filled (by omega) h31 (by have := eight_le_pow h3; omega)).release _

theorem poolReach_releasedLast (h3 : 3 ≤ s.hostBits) (h31 : s.hostBits ≤ 31) :
    ∃ live, PoolReach s (releasedLast s) live :=
  have ⟨live, hr⟩ :=
    poolReach_filled h3 h31 (2 ^ s.hostBits - 3) (by have := eight_le_pow h3; omega)
  ⟨_, hr.released _⟩

theorem not_mem_releasedLast :
    s.base + UInt32.ofNat (2 ^ s.hostBits - 2) ∉ (releasedLast s).used := by
  simp [releasedLast, IPPool.release]

/-- `2^h - 4` addresses are in use in `releasedLast s`. -/
theorem card_releasedLast (h3 : 3 ≤ s.hostBits) : (releasedLast s).used.card = 2 ^ s.hostBits - 4 := by
  have h8 := eight_le_pow h3
  have hmem : s.base + UInt32.ofNat (2 ^ s.hostBits - 2) ∈ (filled s (2 ^ s.hostBits - 3)).used :=
    mem_filled_used.2 ⟨2 ^ s.hostBits - 4, by omega, by congr 2; omega⟩
  rw [releasedLast, IPPool.release, Finset.card_erase_of_mem hmem, card_filled_used (by omega)]
  omega

/-- `Allocate` on `releasedLast s` reports the pool exhausted: the cursor is at `2^h - 1`, and the
scan visits the host numbers `2, 2, 2, 3, …, 2^h - 3`, all in use. -/
theorem allocate_releasedLast (h3 : 3 ≤ s.hostBits) (h31 : s.hostBits ≤ 31) :
    (releasedLast s).allocate = some (.error "IP pool exhausted", releasedLast s) := by
  have h8 := eight_le_pow h3
  have h31' : 2 ^ s.hostBits ≤ 2 ^ 31 := Nat.pow_le_pow_right (by decide) h31
  rcases IPPool.allocate_spec (sane_releasedLast h3 h31) with ⟨-, he⟩ | ⟨j, hj, -, hfree, -⟩
  · exact he
  · refine absurd ?_ hfree
    have hcap : (releasedLast s).capacity = 2 ^ s.hostBits := rfl
    rw [hcap] at hj
    have hnext : (releasedLast s).nextHost.toNat = 2 ^ s.hostBits - 1 := by
      simp only [releasedLast, IPPool.release, filled, u32_toNat_ofNat]; omega
    have hx : (releasedLast s).hostAt j = if j < 2 then 2 else j := by
      rw [IPPool.hostAt, hnext, hcap, Nat.add_mod_left, Nat.mod_eq_of_lt (by omega)]
    rw [IPPool.addrAt, hx]
    simp only [releasedLast, IPPool.release, Finset.mem_erase, mem_filled_used]
    refine ⟨fun he => ?_, if j < 2 then 0 else j - 2, by split <;> omega, ?_⟩
    · have := addr_inj (s := s) (by split <;> omega) (by omega) he
      split at this <;> omega
    · show s.base + _ = (filled s _).baseIP + _
      congr 2; split <;> omega

end Filled

/-- Over every run of `Allocate` and `Release` on a subnet of 1 to 31 host bits: `Allocate` never
panics and its `uint32` arithmetic never wraps; a success returns `base + x` with
`2 ≤ x ≤ 2^h - 2`, an address that was not in use and is in use after the call; a failure
leaves `used` and `nextHost` unchanged; and the addresses returned and not yet released are
pairwise distinct. -/
theorem allocate_safe {s : Subnet} (h1 : 1 ≤ s.hostBits) (h31 : s.hostBits ≤ 31) {p : IPPool}
    {live : List UInt32} (hr : PoolReach s p live) :
    p.NoWrap ∧ p.allocate ≠ none ∧
    (∀ ip p', p.allocate = some (.ok ip, p') →
      (∃ x, 2 ≤ x ∧ x ≤ 2 ^ s.hostBits - 2 ∧ ip.toNat = s.base.toNat + x) ∧
        ip ∉ p.used ∧ ip ∈ p'.used) ∧
    (∀ e p', p.allocate = some (.error e, p') → p'.used = p.used ∧ p'.nextHost = p.nextHost) ∧
    live.Nodup := by
  have hi := poolReach_inv h1 h31 hr
  have hs := hi.subnet_eq
  refine ⟨IPPool.noWrap_of_sane hi.sane, ?_, fun ip p' ha => ?_, fun e p' ha => ?_, hi.nodup⟩
  · rcases IPPool.allocate_spec hi.sane with ⟨-, he⟩ | ⟨k, -, -, -, hok⟩ <;> simp [*]
  · rcases IPPool.allocate_spec hi.sane with ⟨-, he⟩ | ⟨k, hk, -, hfree, hok⟩
    · rw [he] at ha; cases ha
    · rw [hok, Option.some.injEq, Prod.mk.injEq, Except.ok.injEq] at ha
      obtain ⟨rfl, rfl⟩ := ha
      have hb := IPPool.hostAt_bounds hi.sane hk
      refine ⟨⟨p.hostAt k, hb.1, ?_, ?_⟩, hfree, by simp [IPPool.take, IPPool.addrAt]⟩
      · rw [← hs]; exact hb.2
      · rw [IPPool.toNat_addrAt hi.sane hk, hs]
  · rw [IPPool.allocate_error hi.sane ha]; exact ⟨rfl, rfl⟩

/-- The subnet that `Server.New` gives the pool: `net.ParseCIDR("10.8.0.0/24")`. -/
def serverSubnet : Subnet where
  base := 0x0A080000
  hostBits := 8
  hostBits_le := by decide
  base_aligned := by decide

theorem allocate_safe_serverSubnet :
    ∃ live, (1 ≤ serverSubnet.hostBits ∧ serverSubnet.hostBits ≤ 31 ∧
      PoolReach serverSubnet (filled serverSubnet 2) live) ∧
    (filled serverSubnet 2).NoWrap ∧ (filled serverSubnet 2).allocate ≠ none ∧
    (∀ ip p', (filled serverSubnet 2).allocate = some (.ok ip, p') →
      (∃ x, 2 ≤ x ∧ x ≤ 2 ^ serverSubnet.hostBits - 2 ∧ ip.toNat = serverSubnet.base.toNat + x) ∧
        ip ∉ (filled serverSubnet 2).used ∧ ip ∈ p'.used) ∧
    (∀ e p', (filled serverSubnet 2).allocate = some (.error e, p') →
      p'.used = (filled serverSubnet 2).used ∧ p'.nextHost = (filled serverSubnet 2).nextHost) ∧
    live.Nodup :=
  have ⟨live, hr⟩ := poolReach_filled (s := serverSubnet) (by decide) (by decide) 2 (by decide)
  ⟨live, ⟨by decide, by decide, hr⟩, allocate_safe (by decide) (by decide) hr⟩

/-! ## When `Allocate` reports exhaustion -/

namespace IPPool

variable {p : IPPool}

/-- The host number of iteration `k`, when the cursor plus `k` stays below the modulus. -/
theorem hostAt_of_lt {k : Nat} (h : p.nextHost.toNat + k < p.capacity - 1) :
    p.hostAt k = max 2 (p.nextHost.toNat + k) := by
  rw [hostAt, Nat.mod_eq_of_lt h]; split <;> omega

/-- The host number of iteration `k`, once the cursor plus `k` has wrapped past the modulus. -/
theorem hostAt_of_ge (hp : p.Sane) {k : Nat} (hk : k < p.capacity - 2)
    (h : p.capacity - 1 ≤ p.nextHost.toNat + k) :
    p.hostAt k = max 2 (p.nextHost.toNat + k - (p.capacity - 1)) := by
  have : p.nextHost.toNat ≤ p.capacity := hp.next_le
  rw [hostAt, Nat.mod_eq_sub_mod h, Nat.mod_eq_of_lt (by omega)]; split <;> omega

/-- The host number the scan of `Allocate` stops short of: the residue of iteration
`maxHosts - 2`, which the bound `i < maxHosts - 2` leaves out. -/
def missedHost (p : IPPool) : Nat := (p.nextHost.toNat + p.capacity - 2) % (p.capacity - 1)

/-- Below `2^h`, the missed host is the one before the cursor: the last one handed out. -/
theorem missedHost_of_lt (hp : p.Sane) (h : p.nextHost.toNat < p.capacity) :
    p.missedHost = p.nextHost.toNat - 1 := by
  have := hp.two_le_next
  rw [missedHost, Nat.mod_eq_sub_mod (by omega), Nat.mod_eq_of_lt (by omega)]
  omega

/-- At `2^h` the missed residue is 0, whose host 2 the scan reaches through residue 1. -/
theorem missedHost_of_eq (hp : p.Sane) (h : p.nextHost.toNat = p.capacity) : p.missedHost = 0 := by
  have := capacity_bounds hp
  rw [missedHost, h, show p.capacity + p.capacity - 2 = (p.capacity - 1) * 2 by omega,
    Nat.mul_mod_right]

/-- The host numbers `Allocate` scans on a sane pool: every host from 2 to `2^h - 2` but the
missed one, when it is at least 3 (residues 0, 1 and 2 all give host 2, and the scan meets two of
them). -/
theorem exists_hostAt_iff (hp : p.Sane) {x : Nat} (hx : 2 ≤ x) (hxc : x ≤ p.capacity - 2) :
    (∃ k < p.capacity - 2, p.hostAt k = x) ↔ x ≠ p.missedHost ∨ p.missedHost < 3 := by
  have := capacity_bounds hp
  have := hp.two_le_next
  have : p.nextHost.toNat ≤ p.capacity := hp.next_le
  constructor
  · rintro ⟨k, hk, rfl⟩
    by_cases hnC : p.nextHost.toNat < p.capacity
    · rw [missedHost_of_lt hp hnC]
      by_cases hw : p.nextHost.toNat + k < p.capacity - 1
      · rw [hostAt_of_lt hw]; omega
      · rw [hostAt_of_ge hp hk (by omega)]; omega
    · exact .inr (by rw [missedHost_of_eq hp (by omega)]; decide)
  · intro h
    by_cases hxn : p.nextHost.toNat ≤ x
    · exact ⟨x - p.nextHost.toNat, by omega, by rw [hostAt_of_lt (by omega)]; omega⟩
    by_cases hlast : x + 1 = p.nextHost.toNat ∧ p.nextHost.toNat < p.capacity
    · rw [missedHost_of_lt hp hlast.2] at h
      exact ⟨p.capacity - 1 - p.nextHost.toNat, by omega,
        by rw [hostAt_of_ge hp (by omega) (by omega)]; omega⟩
    · exact ⟨x + (p.capacity - 1) - p.nextHost.toNat, by omega,
        by rw [hostAt_of_ge hp (by omega) (by omega)]; omega⟩

/-- On a sane pool `Allocate` reports exhaustion exactly when every host from 2 to `2^h - 2` is
in use, except perhaps the missed one: the host before the cursor, which the scan never reaches
when it is at least 3. So a pool with two free hosts never reports exhaustion, and one whose only
free host is the last one handed out and released does. -/
theorem allocate_exhausted_iff (hp : p.Sane) :
    p.allocate = some (.error "IP pool exhausted", p) ↔
      ∀ x, 2 ≤ x → x ≤ p.capacity - 2 → (x ≠ p.missedHost ∨ p.missedHost < 3) →
        p.baseIP + UInt32.ofNat x ∈ p.used := by
  constructor
  · intro he x hx hxc hm
    obtain ⟨k, hk, rfl⟩ := (exists_hostAt_iff hp hx hxc).2 hm
    rcases allocate_spec hp with ⟨hall, -⟩ | ⟨_, -, -, -, hok⟩
    · exact hall k hk
    · rw [hok] at he; cases he
  · intro hall
    rcases allocate_spec hp with ⟨-, he⟩ | ⟨k, hk, -, hfree, -⟩
    · exact he
    · have hb := hostAt_bounds hp hk
      exact absurd (hall _ hb.1 hb.2 ((exists_hostAt_iff hp hb.1 hb.2).1 ⟨k, hk, rfl⟩)) hfree

theorem allocate_exhausted_iff_serverSubnet :
    (releasedLast serverSubnet).Sane ∧
      (releasedLast serverSubnet).allocate =
        some (.error "IP pool exhausted", releasedLast serverSubnet) ∧
      ((releasedLast serverSubnet).allocate =
          some (.error "IP pool exhausted", releasedLast serverSubnet) ↔
        ∀ x, 2 ≤ x → x ≤ (releasedLast serverSubnet).capacity - 2 →
          (x ≠ (releasedLast serverSubnet).missedHost ∨ (releasedLast serverSubnet).missedHost < 3) →
          (releasedLast serverSubnet).baseIP + UInt32.ofNat x ∈ (releasedLast serverSubnet).used) :=
  have hp : (releasedLast serverSubnet).Sane := sane_releasedLast (by decide) (by decide)
  ⟨hp, allocate_releasedLast (by decide) (by decide), allocate_exhausted_iff hp⟩

end IPPool

/-- On every subnet of 3 to 31 host bits there is a reachable pool in which
`base + 2^h - 2` is free and `Allocate` reports the pool exhausted: fill the pool, then release
the address handed out last. The cursor is then at `2^h - 1`, and the scan visits the host
numbers `2, 2, 2, 3, …, 2^h - 3`. -/
theorem allocate_misses_released_last (s : Subnet) (h3 : 3 ≤ s.hostBits) (h31 : s.hostBits ≤ 31) :
    ∃ p live, PoolReach s p live ∧ s.base + UInt32.ofNat (2 ^ s.hostBits - 2) ∉ p.used ∧
      p.allocate = some (.error "IP pool exhausted", p) :=
  have ⟨live, hr⟩ := poolReach_releasedLast h3 h31
  ⟨_, live, hr, not_mem_releasedLast, allocate_releasedLast h3 h31⟩

/-- The server's `10.8.0.0/24`: after the 253 allocations of `10.8.0.2 … 10.8.0.254` and the
release of `10.8.0.254`, `Allocate` reports the pool exhausted while `10.8.0.254` is free. -/
theorem serverPool_exhausted_with_free_address :
    ∃ p live, PoolReach serverSubnet p live ∧ (0x0A0800FE : UInt32) ∉ p.used ∧
      p.allocate = some (.error "IP pool exhausted", p) :=
  allocate_misses_released_last serverSubnet (by decide) (by decide)

/-! ## Capacity -/

namespace IPPool

variable {p : IPPool}

/-- `Allocate` on a sane pool with fewer addresses in use than `2^h - 4` returns a free one: the
scan meets every host from 2 to `2^h - 2` but perhaps the missed one, which leaves `2^h - 4`
distinct addresses at least. -/
theorem allocate_ok_of_card_lt (hp : p.Sane) (hcard : p.used.card + 4 < p.capacity) :
    ∃ ip p', p.allocate = some (.ok ip, p') ∧ ip ∉ p.used := by
  have hhosts :=
    Finset.pred_card_le_card_erase (s := Finset.Icc 2 (p.capacity - 2)) (a := p.missedHost)
  rw [Nat.card_Icc] at hhosts
  set hosts := (Finset.Icc 2 (p.capacity - 2)).erase p.missedHost
  have hinj : Set.InjOn (fun x => p.baseIP + UInt32.ofNat x) hosts := fun x hx y hy h => by
    have hx' := (Finset.mem_Icc.1 (Finset.mem_of_mem_erase hx)).2
    have hy' := (Finset.mem_Icc.1 (Finset.mem_of_mem_erase hy)).2
    have := capacity_bounds hp
    rw [hp.base_eq] at h
    exact addr_inj (by unfold capacity at *; omega) (by unfold capacity at *; omega) h
  obtain ⟨x, hx, hfree⟩ : ∃ x ∈ hosts, p.baseIP + UInt32.ofNat x ∉ p.used := by
    by_contra hall
    push_neg at hall
    have hsub := Finset.card_le_card (s := hosts.image fun x => p.baseIP + UInt32.ofNat x)
      fun a ha => by obtain ⟨x, hx, rfl⟩ := Finset.mem_image.1 ha; exact hall x hx
    rw [Finset.card_image_of_injOn hinj] at hsub
    omega
  have hx' := Finset.mem_Icc.1 (Finset.mem_of_mem_erase hx)
  rcases allocate_spec hp with ⟨hall, -⟩ | ⟨k, -, -, hk, hok⟩
  · obtain ⟨k, hk, rfl⟩ := (exists_hostAt_iff hp hx'.1 hx'.2).2 (.inl (Finset.ne_of_mem_erase hx))
    exact absurd (hall k hk) hfree
  · exact ⟨_, _, hok, hk⟩

end IPPool

end Hydra
