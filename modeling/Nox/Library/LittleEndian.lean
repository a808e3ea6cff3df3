import Nox.Library.Digits

/-! # Little-endian byte images of numbers

The memory image of an unsigned integer of `size` bytes on a little-endian machine: the lowest byte
first. `toBytes size v` is what copying such an integer out of memory gives, `v` taken modulo
`256 ^ size` as the integer's width does, and `ofBytes` is what copying bytes into one reads. The
two are inverse at every width: reading an image gives the number modulo the width, and the image
of what a byte string reads is the string itself.
-/

namespace LittleEndian

/-- The value of a byte string, the lowest byte first. -/
def ofBytes (bytes : List UInt8) : ℕ := Nat.ofDigits 256 (bytes.map UInt8.toNat)

/-- The `size` lowest bytes of `v`, the lowest first. -/
def toBytes (size v : ℕ) : List UInt8 := (Nat.fixedDigits 256 size v).reverse.map UInt8.ofNat

@[simp] theorem ofBytes_nil : ofBytes [] = 0 := rfl

theorem ofBytes_cons (b : UInt8) (bytes : List UInt8) : ofBytes (b :: bytes) = b.toNat + 256 * ofBytes bytes := by
  simp [ofBytes, Nat.ofDigits_cons]

@[simp] theorem toBytes_length (size v : ℕ) : (toBytes size v).length = size := by
  simp [toBytes]

@[simp] theorem toBytes_zero (v : ℕ) : toBytes 0 v = [] := rfl

/-- The lowest byte comes first, and the others are the image of the quotient. -/
theorem toBytes_succ (size v : ℕ) : toBytes (size + 1) v = UInt8.ofNat v :: toBytes size (v / 256) := by
  rw [toBytes, Nat.fixedDigits_succ, List.reverse_append, List.reverse_singleton, List.singleton_append,
    List.map_cons, toBytes]
  congr 1
  exact UInt8.toNat_inj.mp (by simp)

private theorem toNat_lt (bytes : List UInt8) : ∀ digit ∈ bytes.map UInt8.toNat, digit < 256 := by
  intro digit member
  obtain ⟨byte, -, rfl⟩ := List.mem_map.mp member
  exact byte.toNat_lt

theorem ofBytes_lt (bytes : List UInt8) : ofBytes bytes < 256 ^ bytes.length := by
  have bound := Nat.ofDigits_lt_base_pow_length (by norm_num) (toNat_lt bytes)
  rwa [List.length_map] at bound

/-- Reading an image gives the number modulo the width. -/
theorem ofBytes_toBytes (size v : ℕ) : ofBytes (toBytes size v) = v % 256 ^ size := by
  have places : ((Nat.fixedDigits 256 size v).reverse.map UInt8.ofNat).map UInt8.toNat =
      (Nat.fixedDigits 256 size v).reverse := by
    rw [List.map_map]
    refine (List.map_congr_left fun digit member => ?_).trans (List.map_id _)
    have small := Nat.fixedDigits_lt (by norm_num) size v digit (List.mem_reverse.mp member)
    simp [Nat.mod_eq_of_lt small]
  rw [ofBytes, toBytes, places, Nat.ofDigits_fixedDigits]

/-- A byte string is the image of its own value at its own width. -/
theorem toBytes_ofBytes (bytes : List UInt8) : toBytes bytes.length (ofBytes bytes) = bytes := by
  have small : ∀ digit ∈ (bytes.map UInt8.toNat).reverse, digit < 256 := fun digit member =>
    toNat_lt bytes digit (List.mem_reverse.mp member)
  have digits := Nat.fixedDigits_ofDigits small
  rw [List.reverse_reverse, List.length_reverse, List.length_map] at digits
  rw [toBytes, ofBytes, digits, List.reverse_reverse, List.map_map]
  exact List.map_id'' (fun _ => UInt8.ofNat_toNat) bytes

/-- A number below the width is read back from its image. -/
theorem ofBytes_toBytes_of_lt {size v : ℕ} (small : v < 256 ^ size) : ofBytes (toBytes size v) = v := by
  rw [ofBytes_toBytes, Nat.mod_eq_of_lt small]

end LittleEndian
