import Mathlib.Tactic

namespace MemoryAllocator

/-- Values of `size_t` are taken modulo this bound. -/
def sizeBound : Nat := 2 ^ 64

/-- Addition in `size_t`. -/
def sizeAdd (a b : Nat) : Nat := (a + b) % sizeBound

/-- Subtraction in `size_t`, for a subtrahend that is itself a `size_t`. -/
def sizeSub (a b : Nat) : Nat := (a + (sizeBound - b)) % sizeBound

/-- Multiplication in `size_t`. -/
def sizeMul (a b : Nat) : Nat := a * b % sizeBound

/-- Bitwise complement `~a` of a `size_t`. -/
def sizeNot (a : Nat) : Nat := sizeBound - 1 - a

/-- The round-up `(value + (alignment - 1)) & ~(alignment - 1)` in `size_t`. -/
def alignUp (value alignment : Nat) : Nat :=
  sizeAdd value (sizeSub alignment 1) &&& sizeNot (sizeSub alignment 1)

/-- The four bytes of an `int` field hold its value modulo `2^32`. -/
def int32Bits (value : Int) : Nat := (value % 2 ^ 32).toNat

/-- The `int` whose two's-complement bytes are `bits`. -/
def int32OfBits (bits : Nat) : Int := if bits < 2 ^ 31 then bits else (bits : Int) - 2 ^ 32

theorem int32OfBits_int32Bits {value : Int} (low : -2 ^ 31 ≤ value) (high : value < 2 ^ 31) :
    int32OfBits (int32Bits value) = value := by
  unfold int32OfBits int32Bits
  rcases le_or_lt 0 value with nonneg | neg
  · have small : value % 2 ^ 32 = value := Int.emod_eq_of_lt nonneg (by omega)
    rw [small, if_pos (by omega)]
    omega
  · have wrapped : value % 2 ^ 32 = value + 2 ^ 32 := by omega
    rw [wrapped, if_neg (by omega)]
    omega

theorem sizeAdd_of_lt {a b : Nat} (fits : a + b < sizeBound) : sizeAdd a b = a + b :=
  Nat.mod_eq_of_lt fits

/-- A `size_t` sum is the sum, or the sum wrapped. -/
theorem sizeAdd_cases (a b : Nat) : sizeAdd a b = a + b ∨ sizeBound ≤ a + b := by
  by_cases fits : a + b < sizeBound
  · exact .inl (sizeAdd_of_lt fits)
  · exact .inr (by omega)

/-- The wrapped product over a nonzero `num` gives back `size` exactly when the product stays below `2^64`. -/
theorem sizeMul_div_ne_iff {num size : Nat} (positive : 0 < num) :
    size ≠ sizeMul num size / num ↔ sizeBound ≤ num * size := by
  unfold sizeMul
  constructor
  · intro differs
    by_contra small
    exact differs (by rw [Nat.mod_eq_of_lt (not_le.mp small), Nat.mul_div_cancel_left _ positive])
  · intro large same
    have within := Nat.mul_div_le (num * size % sizeBound) num
    rw [← same] at within
    have := Nat.mod_lt (num * size) (show 0 < sizeBound by unfold sizeBound; positivity)
    omega

theorem sizeSub_one {a : Nat} (positive : 0 < a) (fits : a ≤ sizeBound) :
    sizeSub a 1 = a - 1 := by
  unfold sizeSub sizeBound at *
  omega

/-- Clearing the bits of `m` from `x` and keeping only them split `x` into two parts. -/
theorem and_sizeNot_add_and {x m : Nat} (hx : x < sizeBound) (hm : m < sizeBound) :
    (x &&& sizeNot m) + (x &&& m) = x := by
  have split : (BitVec.ofNat 64 x &&& ~~~BitVec.ofNat 64 m) + (BitVec.ofNat 64 x &&& BitVec.ofNat 64 m) =
      BitVec.ofNat 64 x := by
    rw [BitVec.add_eq_or_of_and_eq_zero]
    · ext i
      simp only [BitVec.getLsbD_or, BitVec.getLsbD_and, BitVec.getLsbD_not]
      cases (BitVec.ofNat 64 x).getLsbD i <;> cases (BitVec.ofNat 64 m).getLsbD i <;> simp
    · ext i
      simp only [BitVec.getLsbD_and, BitVec.getLsbD_not, BitVec.getLsbD_zero]
      cases (BitVec.ofNat 64 x).getLsbD i <;> cases (BitVec.ofNat 64 m).getLsbD i <;> simp
  have disjoint : (BitVec.ofNat 64 x &&& ~~~BitVec.ofNat 64 m) &&& (BitVec.ofNat 64 x &&& BitVec.ofNat 64 m) =
      0#64 := by
    ext i
    simp only [BitVec.getLsbD_and, BitVec.getLsbD_not, BitVec.getLsbD_zero]
    cases (BitVec.ofNat 64 x).getLsbD i <;> cases (BitVec.ofNat 64 m).getLsbD i <;> simp
  have sum := congrArg BitVec.toNat split
  unfold sizeBound at hx hm
  rw [BitVec.toNat_add_of_and_eq_zero disjoint] at sum
  simp only [BitVec.toNat_and, BitVec.toNat_not, BitVec.toNat_ofNat] at sum
  rw [Nat.mod_eq_of_lt hx, Nat.mod_eq_of_lt hm] at sum
  exact sum

section AlignUp

variable {value alignment : Nat}

/-- Without a wrap, `alignUp` takes off the low bits of `value + (alignment - 1)`. -/
theorem alignUp_add_and (positive : 0 < alignment) (fits : value + (alignment - 1) < sizeBound) :
    alignUp value alignment + ((value + (alignment - 1)) &&& (alignment - 1)) =
      value + (alignment - 1) := by
  have small : alignment - 1 < sizeBound := by omega
  unfold alignUp
  rw [sizeSub_one positive (by omega), sizeAdd_of_lt fits]
  exact and_sizeNot_add_and fits small

theorem le_alignUp (positive : 0 < alignment) (fits : value + (alignment - 1) < sizeBound) :
    value ≤ alignUp value alignment := by
  have sum := alignUp_add_and positive fits
  have low : (value + (alignment - 1)) &&& (alignment - 1) ≤ alignment - 1 := Nat.and_le_right
  omega

theorem alignUp_le (positive : 0 < alignment) (fits : value + (alignment - 1) < sizeBound) :
    alignUp value alignment ≤ value + (alignment - 1) := by
  have sum := alignUp_add_and positive fits
  omega

/-- A power-of-two alignment rounds up to the next multiple. -/
theorem alignUp_two_pow {k : Nat} (power : alignment = 2 ^ k)
    (fits : value + (alignment - 1) < sizeBound) :
    alignUp value alignment = (value + (alignment - 1)) / alignment * alignment := by
  have positive : 0 < alignment := power ▸ Nat.two_pow_pos k
  have sum := alignUp_add_and positive fits
  rw [power, Nat.and_pow_two_sub_one_eq_mod, ← power] at sum
  have := Nat.div_add_mod (value + (alignment - 1)) alignment
  rw [Nat.mul_comm] at this
  omega

/-- The result is a multiple of every power of two that divides a nonzero alignment, wrap or not. -/
theorem two_pow_dvd_alignUp {j : Nat} (within : j ≤ 64) (positive : 0 < alignment)
    (fits : alignment ≤ sizeBound) (divides : 2 ^ j ∣ alignment) :
    2 ^ j ∣ alignUp value alignment := by
  have low : sizeNot (sizeSub alignment 1) % 2 ^ j = 0 := by
    rw [sizeSub_one positive fits]
    obtain ⟨q, rfl⟩ := divides
    have complement : sizeNot (2 ^ j * q - 1) = 2 ^ j * (sizeBound / 2 ^ j - q) := by
      have whole : sizeBound = 2 ^ j * (sizeBound / 2 ^ j) :=
        (Nat.mul_div_cancel' (Nat.pow_dvd_pow 2 within)).symm
      rw [Nat.mul_sub, ← whole]
      unfold sizeNot
      omega
    rw [complement, Nat.mul_mod_right]
  apply Nat.dvd_of_mod_eq_zero
  rw [← Nat.and_pow_two_sub_one_eq_mod, alignUp, Nat.land_assoc, Nat.and_pow_two_sub_one_eq_mod,
    low, Nat.and_zero]

/-- The round-up leaves room below `2^64` for the round-up mask, wrap or not. -/
theorem alignUp_add_sizeSub_lt (value alignment : Nat) : alignUp value alignment + sizeSub alignment 1 < sizeBound := by
  have masked : alignUp value alignment ≤ sizeNot (sizeSub alignment 1) := Nat.and_le_right
  have small : sizeSub alignment 1 < sizeBound := Nat.mod_lt _ (by unfold sizeBound; omega)
  unfold sizeNot at masked
  omega

/-- Without a wrap, the round-up is at least the value, for any alignment. -/
theorem le_alignUp_of_fits (fits : value + sizeSub alignment 1 < sizeBound) : value ≤ alignUp value alignment := by
  have small : sizeSub alignment 1 < sizeBound := by omega
  have sum := and_sizeNot_add_and fits small
  have low : (value + sizeSub alignment 1) &&& sizeSub alignment 1 ≤ sizeSub alignment 1 := Nat.and_le_right
  unfold alignUp
  rw [sizeAdd_of_lt fits]
  omega

end AlignUp

end MemoryAllocator
