import Mathlib.Algebra.Ring.Nat
import Mathlib.Data.List.Induction
import PatternGuard.Bytes.Word

/-!
# Words and their digits

A number below `256 ^ width` and its `width` base-256 digits determine each other: writing a number
and reading it back changes nothing (`ofBytes_toBytes`), and neither does reading digits and writing
them back (`toBytes_ofBytes`).
-/

set_option autoImplicit false

namespace PatternGuard.Bytes

theorem ofBytes_append_singleton (bytes : List UInt8) (b : UInt8) :
    ofBytes (bytes ++ [b]) = 256 * ofBytes bytes + b.toNat := by
  simp [ofBytes]

theorem ofBytes_lt (bytes : List UInt8) : ofBytes bytes < 256 ^ bytes.length := by
  induction bytes using List.reverseRecOn with
  | nil => simp [ofBytes]
  | append_singleton bytes b ih =>
    have hb := b.toNat_lt
    rw [ofBytes_append_singleton, List.length_append, List.length_singleton, Nat.pow_succ]
    omega

/-- Digits are written back as they were read. -/
theorem toBytes_ofBytes (bytes : List UInt8) : toBytes bytes.length (ofBytes bytes) = bytes := by
  induction bytes using List.reverseRecOn with
  | nil => rfl
  | append_singleton bytes b ih =>
    have hb := b.toNat_lt
    rw [ofBytes_append_singleton, List.length_append, List.length_singleton, toBytes]
    have hdiv : (256 * ofBytes bytes + b.toNat) / 256 = ofBytes bytes := by omega
    -- the last digit is what is left over when the number is divided by the base
    have hlast : UInt8.ofNat (256 * ofBytes bytes + b.toNat) = b := by
      apply UInt8.toNat_inj.1
      rw [UInt8.toNat_ofNat']
      omega
    rw [hdiv, ih, hlast]

/-- A number is read back from its last digits up to a multiple of the base's power. -/
theorem ofBytes_toBytes (width n : Nat) : ofBytes (toBytes width n) = n % 256 ^ width := by
  induction width generalizing n with
  | zero => simp [toBytes, ofBytes, Nat.mod_one]
  | succ width ih =>
    have hlast : (UInt8.ofNat n).toNat = n % 256 := UInt8.toNat_ofNat'
    have hpow : 256 ^ (width + 1) = 256 * 256 ^ width := Nat.pow_succ'
    rw [toBytes, ofBytes_append_singleton, ih, hlast, hpow, Nat.mod_mul]
    omega

theorem ofBytes_toBytes_of_lt {width n : Nat} (h : n < 256 ^ width) :
    ofBytes (toBytes width n) = n := by
  rw [ofBytes_toBytes, Nat.mod_eq_of_lt h]

/-- Numbers that fit a width are told apart by their digits. -/
theorem toBytes_inj_of_lt {width n m : Nat} (hn : n < 256 ^ width) (hm : m < 256 ^ width)
    (h : toBytes width n = toBytes width m) : n = m := by
  have hvalues := congrArg ofBytes h
  rwa [ofBytes_toBytes_of_lt hn, ofBytes_toBytes_of_lt hm] at hvalues

/-- The digits of a wide number are those of its upper part followed by those of its lower part. -/
theorem toBytes_add (width width' n : Nat) :
    toBytes (width + width') n = toBytes width (n / 256 ^ width') ++ toBytes width' n := by
  induction width' generalizing n with
  | zero => simp [toBytes]
  | succ width' ih =>
    have hdiv : n / 256 / 256 ^ width' = n / 256 ^ (width' + 1) := by
      rw [Nat.div_div_eq_div_mul, ← Nat.pow_succ']
    rw [← Nat.add_assoc, toBytes, ih, hdiv, toBytes, List.append_assoc]

/-- Digits beyond the width do not matter. -/
theorem toBytes_mod (width n : Nat) : toBytes width (n % 256 ^ width) = toBytes width n := by
  have h := toBytes_ofBytes (toBytes width n)
  rwa [length_toBytes, ofBytes_toBytes] at h

theorem length_i32Bytes (w : Int32) : (i32Bytes w).length = 4 := length_toBytes 4 _

/-! ## Signed words -/

/-- A signed word is written as its remainder. -/
theorem u16Bytes_toUInt16 (w : Int16) :
    u16Bytes w.toUInt16 = toBytes 2 (w.toInt % 65536).toNat := by
  -- the signed and the unsigned value of a word differ by a multiple of its modulus
  have hmod : w.toInt % 65536 = (w.toUInt16.toNat : Int) % 65536 := by
    rw [← Int16.toNat_toBitVec, ← Int16.toInt_toBitVec, BitVec.toInt_eq_toNat_bmod]
    exact Int.bmod_emod
  have hlt := w.toUInt16.toNat_lt
  have hw : w.toInt % 65536 = (w.toUInt16.toNat : Int) := by omega
  rw [hw, Int.toNat_natCast, u16Bytes]

/-- A signed word that is not negative is written as a number. -/
theorem i32Bytes_eq_toBytes {w : Int32} (h : 0 ≤ w.toInt) :
    i32Bytes w = toBytes 4 w.toInt.toNat := by
  have hmod : w.toInt % 4294967296 = (w.toUInt32.toNat : Int) % 4294967296 := by
    rw [← Int32.toNat_toBitVec, ← Int32.toInt_toBitVec, BitVec.toInt_eq_toNat_bmod]
    exact Int.bmod_emod
  have hlt := w.toUInt32.toNat_lt
  have hw : w.toInt.toNat = w.toUInt32.toNat := by
    have hbound := w.toInt_lt
    omega
  rw [hw, i32Bytes, u32Bytes]

end PatternGuard.Bytes
