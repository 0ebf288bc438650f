import Mathlib.Algebra.Group.Nat.Defs
import Mathlib.Data.List.Basic

/-!
# Bytes of a number, and masks

`toBytes` and `fromBytes` are `int.to_bytes` and `int.from_bytes` in big-endian order. A mask is
repeated over the bytes it covers, and masking twice is no change.
-/

namespace EarnProxy.BigEndian

/-- The lowest `n` bytes of a value, the highest of them first. -/
def toBytes : Nat → Nat → List UInt8
  | 0, _ => []
  | n + 1, value => toBytes n (value / 256) ++ [UInt8.ofNat value]

def fromBytes (bytes : List UInt8) : Nat := bytes.foldl (fun n byte => 256 * n + byte.toNat) 0

@[simp] theorem length_toBytes (n value : Nat) : (toBytes n value).length = n := by
  induction n generalizing value with
  | zero => rfl
  | succ n ih => simp [toBytes, ih]

theorem fromBytes_toBytes {n value : Nat} (h : value < 256 ^ n) :
    fromBytes (toBytes n value) = value := by
  induction n generalizing value with
  | zero =>
    simp at h
    simp [toBytes, fromBytes, h]
  | succ n ih =>
    have hhigh : value / 256 < 256 ^ n := by
      apply Nat.div_lt_of_lt_mul
      rwa [← Nat.pow_succ']
    have hrest := ih hhigh
    unfold fromBytes at hrest
    simp only [toBytes, fromBytes, List.foldl_append, hrest, List.foldl_cons, List.foldl_nil,
      UInt8.toNat_ofNat']
    omega

/-- Every byte under the byte of the key that covers it. -/
def mask (key bytes : List UInt8) : List UInt8 :=
  bytes.mapIdx fun i byte => byte ^^^ key.getD (i % 4) 0

@[simp] theorem length_mask (key bytes : List UInt8) : (mask key bytes).length = bytes.length := by
  simp [mask]

@[simp] theorem mask_mask (key bytes : List UInt8) : mask key (mask key bytes) = bytes := by
  apply List.ext_getElem
  · simp
  · intro i _ _
    simp [mask, UInt8.xor_assoc]

end EarnProxy.BigEndian
