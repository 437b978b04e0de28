import Mathlib

/-!
# Shift registers with feedback

A register of `w` bits takes in one bit at a time: it moves up by one place, the bit enters at the
low end, and when the bit that leaves at the high end is set the taps `poly` are added. This is
division by the polynomial with the taps as its lower coefficients, written in hardware terms.

The register is linear in what it holds and what it takes in (`shiftIn_xor`), and as long as
nothing leaves it, it only shifts (`toNat_feed_of_lt`). So the bits of a word can be taken in at
once: what is in the high places goes round with zeros, the rest moves up and the word takes its
place (`feed_eq`). That is the step of every table-driven implementation.
-/

namespace KS3.ShiftRegister

variable {w : ℕ} (poly : BitVec w)

/-- One bit taken in. -/
def shiftIn (r : BitVec w) (b : Bool) : BitVec w :=
  if r.msb then r.shiftConcat b ^^^ poly else r.shiftConcat b

/-- A string of bits taken in, the first one first. -/
def feed (r : BitVec w) (bs : List Bool) : BitVec w := bs.foldl (shiftIn poly) r

/-- The number a string of bits stands for, the most significant bit first. -/
def value : List Bool → ℕ
  | [] => 0
  | b :: bs => b.toNat * 2 ^ bs.length + value bs

@[simp] theorem feed_nil (r : BitVec w) : feed poly r [] = r := rfl

@[simp] theorem feed_cons (r : BitVec w) (b : Bool) (bs : List Bool) :
    feed poly r (b :: bs) = feed poly (shiftIn poly r b) bs := rfl

/-! ## Linearity -/

theorem shiftConcat_xor (r s : BitVec w) (b c : Bool) :
    (r ^^^ s).shiftConcat (b ^^ c) = r.shiftConcat b ^^^ s.shiftConcat c := by
  ext i hi
  rw [BitVec.getElem_xor, BitVec.getElem_shiftConcat, BitVec.getElem_shiftConcat,
    BitVec.getElem_shiftConcat]
  split
  · rfl
  · exact BitVec.getElem_xor _

/-- **One bit is linear**: the taps of two registers cancel when both have a bit that leaves. -/
theorem shiftIn_xor (r s : BitVec w) (b c : Bool) :
    shiftIn poly (r ^^^ s) (b ^^ c) = shiftIn poly r b ^^^ shiftIn poly s c := by
  unfold shiftIn
  rw [BitVec.msb_xor, shiftConcat_xor]
  cases r.msb <;> cases s.msb
  · rfl
  · exact BitVec.xor_assoc _ _ _
  · simp only [Bool.xor_false, if_true, Bool.false_eq_true, if_false]
    rw [BitVec.xor_assoc, BitVec.xor_assoc, BitVec.xor_comm poly]
  · simp only [Bool.xor_self, Bool.false_eq_true, if_false, if_true]
    rw [BitVec.xor_assoc _ poly, ← BitVec.xor_assoc poly, BitVec.xor_comm poly,
      BitVec.xor_assoc _ poly, BitVec.xor_self, BitVec.xor_zero]

/-- Of two registers, one goes round with zeros while the other takes in the bits. -/
theorem feed_xor (r s : BitVec w) (bs : List Bool) :
    feed poly (r ^^^ s) bs =
      feed poly r (List.replicate bs.length false) ^^^ feed poly s bs := by
  induction bs generalizing r s with
  | nil => rfl
  | cons b bs ih =>
    rw [List.length_cons, List.replicate_succ, feed_cons, feed_cons, feed_cons, ← ih,
      ← shiftIn_xor, Bool.false_xor]

/-! ## Without feedback -/

theorem toNat_shiftIn_of_le {r : BitVec w} (h : 2 * (r.toNat + 1) ≤ 2 ^ w) (b : Bool) :
    (shiftIn poly r b).toNat = 2 * r.toNat + b.toNat := by
  have hmsb : r.msb = false := BitVec.msb_eq_false_iff_two_mul_lt.2 (by omega)
  have hb := Bool.toNat_lt b
  rw [shiftIn, hmsb, if_neg Bool.false_ne_true, BitVec.toNat_shiftConcat, Nat.shiftLeft_eq,
    Nat.mod_eq_of_lt (by omega), pow_one, Nat.mul_comm]

/-- **As long as nothing leaves the register, it only shifts.** -/
theorem toNat_feed_of_le (bs : List Bool) {r : BitVec w}
    (h : (r.toNat + 1) * 2 ^ bs.length ≤ 2 ^ w) :
    (feed poly r bs).toNat = r.toNat * 2 ^ bs.length + value bs := by
  induction bs generalizing r with
  | nil => simp [value]
  | cons b bs ih =>
    rw [List.length_cons, pow_succ] at h
    have hpos : 1 ≤ 2 ^ bs.length := Nat.one_le_two_pow
    have hstep := toNat_shiftIn_of_le poly (r := r) (by nlinarith) b
    have hb := Bool.toNat_lt b
    rw [feed_cons, ih (by rw [hstep]; nlinarith), hstep, value, List.length_cons, pow_succ]
    ring

theorem value_lt (bs : List Bool) : value bs < 2 ^ bs.length := by
  induction bs with
  | nil => exact Nat.one_pos
  | cons b bs ih =>
    have hb := Bool.toNat_lt b
    rw [value, List.length_cons, pow_succ]
    nlinarith

@[simp] theorem value_replicate_false (k : ℕ) : value (List.replicate k false) = 0 := by
  induction k with
  | zero => rfl
  | succ k ih => simp [List.replicate_succ, value, ih]

/-! ## A word at once -/

/-- What the first `k` bits that leave a register are: the register without its other places. -/
def high (r : BitVec w) (k : ℕ) : BitVec w := (r >>> (w - k)) <<< (w - k)

/-- The places of a register that `k` bits do not push out. -/
def low (r : BitVec w) (k : ℕ) : BitVec w := BitVec.ofNat w (r.toNat % 2 ^ (w - k))

theorem toNat_low (r : BitVec w) (k : ℕ) : (low r k).toNat = r.toNat % 2 ^ (w - k) := by
  have hle := Nat.mod_le r.toNat (2 ^ (w - k))
  rw [low, BitVec.toNat_ofNat, Nat.mod_eq_of_lt (hle.trans_lt r.isLt)]

theorem high_xor_low (r : BitVec w) (k : ℕ) : high r k ^^^ low r k = r := by
  ext i hi
  have hlow : (low r k)[i] = (decide (i < w - k) && r[i]) := by
    rw [← BitVec.getLsbD_eq_getElem, ← BitVec.testBit_toNat, toNat_low, Nat.testBit_mod_two_pow,
      BitVec.testBit_toNat, BitVec.getLsbD_eq_getElem]
  rw [BitVec.getElem_xor, hlow, high, BitVec.getElem_shiftLeft]
  by_cases h : i < w - k
  · simp [h]
  · have hplace : w - k + (i - (w - k)) = i := by omega
    rw [BitVec.getElem_ushiftRight, hplace, BitVec.getLsbD_eq_getElem hi]
    simp [h]

/-- **A word at once**: the bits in the high places go round with zeros, the others move up and
the word takes their place. -/
theorem feed_eq (r : BitVec w) (bs : List Bool) (h : bs.length ≤ w) :
    feed poly r bs =
      feed poly (high r bs.length) (List.replicate bs.length false) ^^^ (r <<< bs.length) ^^^
        BitVec.ofNat w (value bs) := by
  have hw : 2 ^ (w - bs.length) * 2 ^ bs.length = 2 ^ w := by
    rw [← pow_add, Nat.sub_add_cancel h]
  have hlow : ((low r bs.length).toNat + 1) * 2 ^ bs.length ≤ 2 ^ w := by
    rw [toNat_low, ← hw]
    exact Nat.mul_le_mul_right _ (Nat.mod_lt _ (Nat.two_pow_pos _))
  have hmove : feed poly (low r bs.length) (List.replicate bs.length false) = r <<< bs.length := by
    apply BitVec.eq_of_toNat_eq
    rw [toNat_feed_of_le poly _ (by rwa [List.length_replicate]), List.length_replicate,
      value_replicate_false, toNat_low, BitVec.toNat_shiftLeft, Nat.shiftLeft_eq, ← hw,
      Nat.mul_mod_mul_right, Nat.add_zero]
  have hword : feed poly 0#w bs = BitVec.ofNat w (value bs) := by
    apply BitVec.eq_of_toNat_eq
    have hlt : value bs < 2 ^ w := (value_lt bs).trans_le (Nat.pow_le_pow_right Nat.two_pos h)
    rw [toNat_feed_of_le poly _ (by simpa using Nat.pow_le_pow_right Nat.two_pos h),
      BitVec.toNat_ofNat, BitVec.toNat_ofNat, Nat.mod_eq_of_lt hlt]
    simp
  calc feed poly r bs
      = feed poly (high r bs.length ^^^ (low r bs.length ^^^ 0#w)) bs := by
        rw [BitVec.xor_zero, high_xor_low]
    _ = _ := by rw [feed_xor, feed_xor, hmove, hword, BitVec.xor_assoc]

end KS3.ShiftRegister
