import LegoTrain.Lib.ByteMem
import Mathlib.Data.BitVec

/-!
# Cyclic redundancy checks

The register of a reflected CRC of any width: it takes in a byte at its low end and shifts it
out bit by bit, and for each bit that was set it subtracts the polynomial.

* `step_xor` : a shift is linear in exclusive or, and with a polynomial that has its top bit
  set it loses nothing (`step_injective`);
* `feed_eq` : a byte string that fits the register is taken in at once, so a register tells
  apart any two of them (`feed_injective`);
* `feed_burst` : hence two strings that differ in one burst of the width of the register leave
  it different;
* `feed_table` : a whole byte at a time, from the table of the shifts of the 256 bytes.
-/

namespace Crc

open ByteMem

variable {w : ℕ}

/-- Shift one bit out of the register, and subtract the polynomial when the bit was set. -/
def step (poly c : BitVec w) : BitVec w :=
  if c.getLsbD 0 then (c >>> 1) ^^^ poly else c >>> 1

/-- Shift `n` bits out. -/
def steps (poly : BitVec w) : ℕ → BitVec w → BitVec w
  | 0, c => c
  | n + 1, c => steps poly n (step poly c)

/-- Take in the bytes of a string, one after the other. -/
def feed (poly c : BitVec w) (bs : List UInt8) : BitVec w :=
  bs.foldl (fun c b => steps poly 8 (c ^^^ BitVec.ofNat w b.toNat)) c

/-! ## Shifts -/

section Shifts

variable (poly : BitVec w)

theorem step_xor (a b : BitVec w) : step poly (a ^^^ b) = step poly a ^^^ step poly b := by
  unfold step
  rw [BitVec.getLsbD_xor, BitVec.ushiftRight_xor_distrib]
  cases a.getLsbD 0 <;> cases b.getLsbD 0
  · simp
  · simp [BitVec.xor_assoc]
  · simp [BitVec.xor_assoc, BitVec.xor_comm poly]
  · have hcancel : a >>> 1 ^^^ poly ^^^ (b >>> 1 ^^^ poly) = a >>> 1 ^^^ b >>> 1 := by
      rw [BitVec.xor_comm (b >>> 1), BitVec.xor_assoc, ← BitVec.xor_assoc poly, BitVec.xor_self,
        BitVec.zero_xor]
    simp [hcancel]

theorem steps_xor (n : ℕ) (a b : BitVec w) :
    steps poly n (a ^^^ b) = steps poly n a ^^^ steps poly n b := by
  induction n generalizing a b with
  | zero => rfl
  | succ n ih => rw [steps, step_xor, ih, steps, steps]

theorem steps_add (n k : ℕ) (c : BitVec w) :
    steps poly (n + k) c = steps poly k (steps poly n c) := by
  induction n generalizing c with
  | zero => rw [Nat.zero_add, steps]
  | succ n ih => rw [Nat.succ_add, steps, ih, steps]

/-- Bits that are clear are shifted out without a trace. -/
theorem steps_of_clear {n : ℕ} {c : BitVec w} (h : ∀ i, i < n → c.getLsbD i = false) :
    steps poly n c = c >>> n := by
  induction n generalizing c with
  | zero => rw [steps, BitVec.ushiftRight_zero]
  | succ n ih =>
    have hstep : step poly c = c >>> 1 := by
      rw [step, h 0 (Nat.succ_pos n)]
      rfl
    rw [steps, hstep, ih, ← BitVec.shiftRight_add, Nat.add_comm]
    intro i hi
    rw [BitVec.getLsbD_ushiftRight]
    exact h (1 + i) (by omega)

/-- What has room above it can be moved up and shifted down again. -/
theorem steps_shiftLeft {n : ℕ} {c : BitVec w} (h : ∀ i, w ≤ n + i → c.getLsbD i = false) :
    steps poly n (c <<< n) = c := by
  have hclear : ∀ i, i < n → (c <<< n).getLsbD i = false := by
    intro i hi
    simp [BitVec.getLsbD_shiftLeft, hi]
  rw [steps_of_clear poly hclear]
  apply BitVec.eq_of_getLsbD_eq
  intro i hi
  rw [BitVec.getLsbD_ushiftRight, BitVec.getLsbD_shiftLeft, Nat.add_sub_cancel_left]
  by_cases hhigh : n + i < w
  · simp [hhigh]
  · simp [hhigh, h i (by omega)]

/-- A register that shifts to zero was zero: the top bit of the result is the bit that was
shifted out. -/
theorem eq_zero_of_step (hpoly : poly.msb = true) {c : BitVec w} (h : step poly c = 0#w) :
    c = 0#w := by
  have hlow : c.getLsbD 0 = false := by
    cases hc : c.getLsbD 0 with
    | false => rfl
    | true =>
      have hw : 0 < w := by
        by_contra hw
        obtain rfl : w = 0 := by omega
        simp at hc
      rw [step, hc, if_pos rfl] at h
      have hmsb := congrArg BitVec.msb h
      have htop : (c >>> 1).msb = false := by
        rw [BitVec.msb_ushiftRight]
        simp
      rw [BitVec.msb_xor, htop, hpoly] at hmsb
      simp at hmsb
  rw [step, hlow, if_neg (by simp)] at h
  apply BitVec.eq_of_getLsbD_eq
  intro i hi
  rw [BitVec.getLsbD_zero]
  cases i with
  | zero => exact hlow
  | succ i =>
    have hbit := congrArg (fun x => x.getLsbD i) h
    rw [BitVec.getLsbD_ushiftRight, BitVec.getLsbD_zero, Nat.add_comm] at hbit
    exact hbit

theorem steps_injective (hpoly : poly.msb = true) {n : ℕ} {a b : BitVec w}
    (h : steps poly n a = steps poly n b) : a = b := by
  induction n generalizing a b with
  | zero => exact h
  | succ n ih =>
    have hstep : step poly a = step poly b := ih h
    have hzero : step poly (a ^^^ b) = 0#w := by rw [step_xor, hstep, BitVec.xor_self]
    exact BitVec.xor_eq_zero_iff.1 (eq_zero_of_step poly hpoly hzero)

end Shifts

/-! ## Byte strings -/

section Feed

variable (poly : BitVec w)

@[simp] theorem feed_nil (c : BitVec w) : feed poly c [] = c := rfl

theorem feed_cons (c : BitVec w) (b : UInt8) (bs : List UInt8) :
    feed poly c (b :: bs) = feed poly (steps poly 8 (c ^^^ BitVec.ofNat w b.toNat)) bs := rfl

theorem feed_append (c : BitVec w) (as bs : List UInt8) :
    feed poly c (as ++ bs) = feed poly (feed poly c as) bs := by
  rw [feed, feed, feed, List.foldl_append]

/-- The first byte of a string, below the others. -/
theorem ofNat_leNat_cons (b : UInt8) (bs : List UInt8) :
    BitVec.ofNat w (leNat (b :: bs)) =
      BitVec.ofNat w b.toNat ^^^ BitVec.ofNat w (leNat bs) <<< 8 := by
  have hor : leNat (b :: bs) = b.toNat ^^^ leNat bs <<< 8 := by
    have hb : b.toNat < 2 ^ 8 := b.toNat_lt
    rw [leNat, Nat.shiftLeft_eq, Nat.mul_comm (leNat bs)]
    apply Nat.eq_of_testBit_eq
    intro i
    rw [Nat.testBit_xor, Nat.add_comm, Nat.testBit_two_pow_mul_add _ hb, Nat.testBit_two_pow_mul]
    by_cases hi : i < 8
    · simp [hi, show ¬ 8 ≤ i by omega]
    · have hhigh : b.toNat.testBit i = false :=
        Nat.testBit_lt_two_pow (Nat.lt_of_lt_of_le hb (Nat.pow_le_pow_right (by omega) (by omega)))
      simp [hi, show 8 ≤ i by omega, hhigh]
  apply BitVec.eq_of_getLsbD_eq
  intro i hi
  rw [hor, BitVec.getLsbD_xor, BitVec.getLsbD_shiftLeft]
  simp only [BitVec.getLsbD_ofNat, hi, decide_true, Bool.true_and, Nat.testBit_xor,
    Nat.testBit_shiftLeft]
  by_cases h8 : i < 8
  · simp [h8, show ¬ 8 ≤ i by omega]
  · simp [h8, show 8 ≤ i by omega, show i - 8 < w by omega]

/-- A string that fits the register is taken in at once. -/
theorem feed_eq {bs : List UInt8} (h : 8 * bs.length ≤ w) (c : BitVec w) :
    feed poly c bs = steps poly (8 * bs.length) (c ^^^ BitVec.ofNat w (leNat bs)) := by
  induction bs generalizing c with
  | nil => simp [leNat, steps]
  | cons b bs ih =>
    rw [List.length_cons, Nat.mul_succ] at h
    have hrest : leNat bs < 2 ^ (w - 8) := by
      have hlt := leNat_lt bs
      have hpow : 256 ^ bs.length = 2 ^ (8 * bs.length) := by rw [Nat.pow_mul]
      rw [hpow] at hlt
      exact Nat.lt_of_lt_of_le hlt (Nat.pow_le_pow_right (by omega) (by omega))
    have hclear : steps poly 8 (BitVec.ofNat w (leNat bs) <<< 8) = BitVec.ofNat w (leNat bs) := by
      refine steps_shiftLeft poly fun i hi => ?_
      have hbit : (leNat bs).testBit i = false :=
        Nat.testBit_lt_two_pow
          (Nat.lt_of_lt_of_le hrest (Nat.pow_le_pow_right (by omega) (by omega)))
      rw [BitVec.getLsbD_ofNat, hbit, Bool.and_false]
    rw [feed_cons, ih (by omega), ofNat_leNat_cons, ← BitVec.xor_assoc, List.length_cons,
      Nat.mul_succ, Nat.add_comm (8 * bs.length), steps_add, steps_xor poly 8 (c ^^^ _), hclear]

/-- A register tells apart any two strings of one length that fit it. -/
theorem feed_injective (hpoly : poly.msb = true) {c : BitVec w} {as bs : List UInt8}
    (hlen : as.length = bs.length) (hfit : 8 * bs.length ≤ w)
    (h : feed poly c as = feed poly c bs) : as = bs := by
  rw [feed_eq poly (by omega), feed_eq poly hfit, hlen] at h
  have hnum := congrArg BitVec.toNat (BitVec.xor_right_inj c |>.1 (steps_injective poly hpoly h))
  have hlt : ∀ ds : List UInt8, ds.length = bs.length → leNat ds < 2 ^ w := by
    intro ds hds
    have hpow : 256 ^ ds.length = 2 ^ (8 * ds.length) := by rw [Nat.pow_mul]
    have hbound := leNat_lt ds
    rw [hpow] at hbound
    exact Nat.lt_of_lt_of_le hbound (Nat.pow_le_pow_right (by omega) (by omega))
  rw [BitVec.toNat_ofNat, BitVec.toNat_ofNat, Nat.mod_eq_of_lt (hlt as hlen),
    Nat.mod_eq_of_lt (hlt bs rfl)] at hnum
  rw [← leBytes_leNat as, hnum, hlen, leBytes_leNat]

/-- What comes after a difference does not undo it. -/
theorem feed_left_injective (hpoly : poly.msb = true) {c c' : BitVec w} {bs : List UInt8}
    (h : feed poly c bs = feed poly c' bs) : c = c' := by
  induction bs generalizing c c' with
  | nil => exact h
  | cons b bs ih =>
    have hshift := steps_injective poly hpoly (ih h)
    exact (BitVec.xor_left_inj _).1 hshift

/-- **A burst is detected**: two strings that differ in a part which fits the register leave it
different. -/
theorem feed_burst (hpoly : poly.msb = true) {c : BitVec w} {pre as bs post : List UInt8}
    (hlen : as.length = bs.length) (hfit : 8 * bs.length ≤ w)
    (h : feed poly c (pre ++ as ++ post) = feed poly c (pre ++ bs ++ post)) : as = bs := by
  rw [feed_append, feed_append poly c (pre ++ bs), feed_append, feed_append poly c pre bs] at h
  exact feed_injective poly hpoly hlen hfit (feed_left_injective poly hpoly h)

end Feed

/-! ## A byte at a time -/

/-- The table of a byte: its eight shifts. -/
def tableEntry (poly : BitVec w) (b : UInt8) : BitVec w := steps poly 8 (BitVec.ofNat w b.toNat)

/-- **The step from the table**: the entry of the low byte, and the register moved down. -/
theorem feed_table (poly c : BitVec w) (b : UInt8) (hw : 8 ≤ w) :
    feed poly c [b] =
      tableEntry poly (UInt8.ofNat (c ^^^ BitVec.ofNat w b.toNat).toNat) ^^^ c >>> 8 := by
  obtain ⟨x, hx⟩ : ∃ x, x = c ^^^ BitVec.ofNat w b.toNat := ⟨_, rfl⟩
  rw [feed_cons, feed_nil, ← hx]
  have hlow : ∀ i, (BitVec.ofNat w (UInt8.ofNat x.toNat).toNat).getLsbD i =
      (decide (i < 8) && x.getLsbD i) := by
    intro i
    have hmod : (UInt8.ofNat x.toNat).toNat = x.toNat % 2 ^ 8 := UInt8.toNat_ofNat'
    rw [BitVec.getLsbD_ofNat, hmod, Nat.testBit_mod_two_pow, BitVec.testBit_toNat]
    by_cases hi : i < w
    · simp [hi]
    · simp [hi, show ¬ i < 8 by omega]
  have hsplit : x = BitVec.ofNat w (UInt8.ofNat x.toNat).toNat ^^^ (x >>> 8) <<< 8 := by
    apply BitVec.eq_of_getLsbD_eq
    intro i hi
    rw [BitVec.getLsbD_xor, hlow, BitVec.getLsbD_shiftLeft,
      BitVec.getLsbD_ushiftRight]
    by_cases h8 : i < 8
    · simp [h8]
    · simp [h8, hi, show 8 + (i - 8) = i by omega]
  have hhigh : steps poly 8 ((x >>> 8) <<< 8) = x >>> 8 := by
    refine steps_shiftLeft poly fun i hi => ?_
    rw [BitVec.getLsbD_ushiftRight, BitVec.getLsbD_of_ge x (8 + i) hi]
  have hbyte : (BitVec.ofNat w b.toNat) >>> 8 = 0#w := by
    apply BitVec.eq_of_getLsbD_eq
    intro i hi
    have hb : b.toNat < 2 ^ (8 + i) :=
      Nat.lt_of_lt_of_le b.toNat_lt (Nat.pow_le_pow_right (by omega) (by omega))
    rw [BitVec.getLsbD_ushiftRight, BitVec.getLsbD_ofNat, Nat.testBit_lt_two_pow hb]
    simp
  have hdown : x >>> 8 = c >>> 8 := by
    rw [hx, BitVec.ushiftRight_xor_distrib, hbyte, BitVec.xor_zero]
  rw [tableEntry, ← hdown]
  conv => lhs; rw [hsplit]
  rw [steps_xor, hhigh]

end Crc
