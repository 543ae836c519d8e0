import Mathlib.Data.List.Induction
import SoftwareBus.Numerals

/-! Byte strings, and numbers written in a fixed number of bytes, the most significant first. -/
namespace SoftwareBus

abbrev Byte := Fin 256
abbrev Bytes := List Byte

namespace Bytes

/-- `int.to_bytes(size, "big")` of a number that fits. -/
def ofNat : ℕ → ℕ → Bytes
  | 0, _ => []
  | size+1, n => ofNat size (n/256)++[Fin.ofNat 256 n]

/-- `int.from_bytes(bytes, "big")` -/
def toNat (bs : Bytes) : ℕ := bs.foldl (fun n b => n*256+b.val) 0

def slice (bs : Bytes) (i j : ℕ) : Bytes := (bs.take j).drop i

@[simp] theorem ofNat_length (size n : ℕ) : (ofNat size n).length = size := by
  induction size generalizing n with
  | zero => rfl
  | succ size ih => simp [ofNat,ih]

theorem toNat_append (bs : Bytes) (b : Byte) : toNat (bs++[b]) = toNat bs*256+b.val := by
  simp [toNat]

theorem toNat_ofNat {size n : ℕ} (h : n < 256^size) : toNat (ofNat size n) = n := by
  induction size generalizing n with
  | zero =>
    have hn : n = 0 := by simpa using h
    subst n
    rfl
  | succ size ih =>
    have hlt : n/256 < 256^size := Nat.div_lt_of_lt_mul (by rwa [Nat.pow_succ'] at h)
    rw [ofNat,toNat_append,ih hlt]
    exact Nat.div_add_mod' n 256

theorem toNat_lt (bs : Bytes) : toNat bs < 256^bs.length := by
  induction bs using List.reverseRecOn with
  | nil => simp [toNat]
  | append_singleton bs b ih =>
    rw [toNat_append,List.length_append,List.length_singleton,Nat.pow_succ]
    omega

theorem ofNat_toNat (bs : Bytes) : ofNat bs.length (toNat bs) = bs := by
  induction bs using List.reverseRecOn with
  | nil => rfl
  | append_singleton bs b ih =>
    have hdiv : (toNat bs*256+b.val)/256 = toNat bs := by omega
    have hlast : Fin.ofNat 256 (toNat bs*256+b.val) = b := by
      ext
      simp only [Fin.ofNat]
      omega
    rw [toNat_append,List.length_append,List.length_singleton,ofNat,hdiv,hlast,ih]

theorem slice_append (as bs : Bytes) (n : ℕ) :
    slice (as++bs) as.length (as.length+n) = bs.take n := by
  simp [slice,List.take_append]

theorem slice_length {bs : Bytes} {i j : ℕ} (hj : j ≤ bs.length) :
    (slice bs i j).length = j-i := by
  rw [slice,List.length_drop,List.length_take,Nat.min_eq_left hj]

theorem slice_append_drop (bs : Bytes) {i j : ℕ} (h : i ≤ j) :
    slice bs i j++bs.drop j = bs.drop i := by
  by_cases hj : j ≤ bs.length
  · have hlen : i ≤ (bs.take j).length := by rwa [List.length_take,Nat.min_eq_left hj]
    rw [slice,← List.drop_append_of_le_length hlen,List.take_append_drop]
  · rw [slice,List.take_of_length_le (by omega),List.drop_eq_nil_of_le (i := j) (by omega),
      List.append_nil]

end Bytes
end SoftwareBus
