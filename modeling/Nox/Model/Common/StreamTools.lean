import Nox.Library.Decoder
import Mathlib.Tactic.IntervalCases
import Mathlib.Tactic.Ring

/-! # Raw reads and varints of `Common/StreamTools.cpp`

`writeVarint` emits seven value bits per byte, lowest first, with the high bit set on every byte
but the last. `readVarint` for an unsigned type of `bits` bits ORs the seven-bit pieces back in
at shifts `0, 7, 14, …`; it throws on a piece that would overflow the type and on a final zero
piece after the first, so every accepted varint is the shortest encoding of its value. A raw
`read` of a memory stream throws when the stream ends first.

The main results are `readVarint_writeVarint` (every value below `2 ^ bits` is read back, with
the following bytes untouched) and `readVarint_canonical` (every accepted input starts with
exactly the encoding of the value read), for every width.
-/

namespace Nox.Common

/-- The message of `read(IInputStream&, void*, size_t)` when the stream ends first. -/
def readFailure : String := "Failed to read from IInputStream"

/-- `read(IInputStream&, uint8_t&)`: one raw byte. -/
def readByte : Decoder UInt8 UInt8 := Decoder.item readFailure

/-- `read(IInputStream&, void*, size)`: exactly `size` raw bytes. -/
def readBytes (size : ℕ) : Decoder UInt8 (List UInt8) := Decoder.replicate readByte size

@[simp] theorem readByte_cons (byte : UInt8) (rest : List UInt8) :
    readByte (byte :: rest) = .ok (byte, rest) := rfl

theorem readByte_canonical {input rest : List UInt8} {byte : UInt8}
    (success : readByte input = .ok (byte, rest)) : input = byte :: rest :=
  (Decoder.item_canonical readFailure input byte rest success).1

/-- The loop of `readVarint` for an unsigned type of `bits` bits, from its current `shift` and
accumulated `temp`. The stored `temp |= ...` keeps only the type's `bits` bits. -/
def readVarintLoop (bits shift temp : ℕ) (input : List UInt8) : Except String (ℕ × List UInt8) :=
  match input with
  | [] => .error readFailure
  | piece :: rest =>
    if bits - 7 ≤ shift ∧ 2 ^ (bits - shift) ≤ piece.toNat then .error "readVarint, value overflow"
    else
      let temp := (temp ||| (piece.toNat &&& 0x7f) <<< shift) % 2 ^ bits
      if piece.toNat &&& 0x80 = 0 then
        if piece.toNat = 0 ∧ shift ≠ 0 then .error "readVarint, invalid value representation"
        else .ok (temp, rest)
      else readVarintLoop bits (shift + 7) temp rest

/-- `readVarint(IInputStream&, T&)` for the unsigned type of `bits` bits. -/
def readVarint (bits : ℕ) : Decoder UInt8 ℕ := readVarintLoop bits 0 0

/-- The loop of `writeVarint`: `value | 0x80` while the value is at least `0x80`, then the value.
The loop runs at most nine times below `2 ^ 64`; `fuel` bounds it (`writeVarintLoop_succ`). -/
def writeVarintLoop : ℕ → ℕ → List UInt8
  | 0, value => [UInt8.ofNat value]
  | fuel + 1, value =>
    if 0x80 ≤ value then UInt8.ofNat (value ||| 0x80) :: writeVarintLoop fuel (value >>> 7)
    else [UInt8.ofNat value]

/-- `writeVarint(IOutputStream&, uint64_t)`; narrower values are converted to `uint64_t`. -/
def writeVarint (value : ℕ) : List UInt8 := writeVarintLoop 10 value

/-! ## Byte arithmetic -/

private theorem or_high_of_lt (r : ℕ) (bound : r < 256) : r ||| 128 = r % 128 + 128 := by
  interval_cases r <;> rfl

/-- A continuation byte carries the low seven bits of the value and the high bit. -/
theorem continuation_toNat (value : ℕ) :
    (UInt8.ofNat (value ||| 0x80)).toNat = value % 128 + 128 := by
  rw [UInt8.toNat_ofNat', Nat.or_mod_two_pow (n := 8)]
  rw [show (0x80 : ℕ) % 2 ^ 8 = 128 by norm_num, or_high_of_lt _ (Nat.mod_lt _ (by norm_num))]
  omega

theorem low_bits (piece : ℕ) : piece &&& 0x7f = piece % 128 :=
  Nat.and_two_pow_sub_one_eq_mod piece 7

/-- A byte's high bit is clear exactly below `0x80`. -/
theorem high_bit_iff (piece : ℕ) (bound : piece < 256) : piece &&& 0x80 = 0 ↔ piece < 128 := by
  interval_cases piece <;> decide

/-- ORing a piece above the accumulated low bits adds it. -/
theorem or_shift_eq_add {temp : ℕ} (shift piece : ℕ) (low : temp < 2 ^ shift) :
    temp ||| piece <<< shift = temp + piece * 2 ^ shift := by
  rw [Nat.or_comm, ← Nat.shiftLeft_add_eq_or_of_lt low, Nat.shiftLeft_eq]
  omega

@[simp] theorem writeVarintLoop_zero (value : ℕ) : writeVarintLoop 0 value = [UInt8.ofNat value] := rfl

theorem writeVarintLoop_succ (fuel value : ℕ) :
    writeVarintLoop (fuel + 1) value =
      if 0x80 ≤ value then UInt8.ofNat (value ||| 0x80) :: writeVarintLoop fuel (value >>> 7)
      else [UInt8.ofNat value] := rfl

theorem writeVarintLoop_length_le (fuel value : ℕ) : (writeVarintLoop fuel value).length ≤ fuel + 1 := by
  induction fuel generalizing value with
  | zero => simp
  | succ fuel ih =>
    rw [writeVarintLoop_succ]
    split_ifs
    · have tail := ih (value >>> 7)
      simp only [List.length_cons]
      omega
    · simp

/-- Below `128 ^ (fuel + 1)` the fuel suffices: the loop stops on its own exit test. -/
theorem writeVarintLoop_fuel {fuel value : ℕ} (bound : value < 2 ^ (7 * (fuel + 1))) :
    writeVarintLoop fuel value =
      if 0x80 ≤ value then UInt8.ofNat (value ||| 0x80) :: writeVarintLoop (fuel - 1) (value >>> 7)
      else [UInt8.ofNat value] := by
  cases fuel with
  | zero =>
    have small : ¬ 0x80 ≤ value := by simp only [Nat.zero_add, Nat.mul_one] at bound; omega
    simp [small]
  | succ fuel => rfl

/-! ## Reading back what was written -/

/-- The last piece of a varint is read as the final byte of the value. -/
private theorem readVarintLoop_final {bits shift temp value : ℕ} (rest : List UInt8)
    (low : temp < 2 ^ shift) (fits : temp + value * 2 ^ shift < 2 ^ bits)
    (nonzero : shift = 0 ∨ 0 < value) (small : value < 128) :
    readVarintLoop bits shift temp ([UInt8.ofNat value] ++ rest) = .ok (temp + value * 2 ^ shift, rest) := by
  have byte : (UInt8.ofNat value).toNat = value := by
    rw [UInt8.toNat_ofNat']
    omega
  have noOverflow : ¬ (bits - 7 ≤ shift ∧ 2 ^ (bits - shift) ≤ value) := by
    rintro ⟨-, large⟩
    rcases Nat.lt_or_ge bits shift with above | below
    · have : 2 ^ bits < 2 ^ shift := Nat.pow_lt_pow_right (by norm_num) above
      have zero : value = 0 := by
        by_contra positive
        have : 2 ^ shift ≤ value * 2 ^ shift := Nat.le_mul_of_pos_left _ (by omega)
        omega
      simp [zero, Nat.sub_eq_zero_of_le above.le] at large
    · have split : 2 ^ bits = 2 ^ (bits - shift) * 2 ^ shift := by
        rw [← Nat.pow_add, Nat.sub_add_cancel below]
      have : 2 ^ (bits - shift) * 2 ^ shift ≤ value * 2 ^ shift := Nat.mul_le_mul_right _ large
      omega
  have notZero : ¬ (value = 0 ∧ shift ≠ 0) := by omega
  simp only [List.singleton_append, readVarintLoop, byte, noOverflow, if_false, low_bits,
    Nat.mod_eq_of_lt small, (high_bit_iff value (by omega)).mpr small, if_true, notZero, or_shift_eq_add shift value low,
    Nat.mod_eq_of_lt fits]

/-- The loop reads back the remaining pieces of a value above the accumulated `temp`. -/
theorem readVarintLoop_writeVarintLoop {bits : ℕ} (rest : List UInt8) :
    ∀ (fuel shift temp value : ℕ), temp < 2 ^ shift → temp + value * 2 ^ shift < 2 ^ bits →
      (shift = 0 ∨ 0 < value) → value < 2 ^ (7 * (fuel + 1)) →
      readVarintLoop bits shift temp (writeVarintLoop fuel value ++ rest) =
        .ok (temp + value * 2 ^ shift, rest) := by
  intro fuel
  induction fuel with
  | zero =>
    intro shift temp value low fits nonzero bound
    exact readVarintLoop_final rest low fits nonzero (by simpa using bound)
  | succ fuel ih =>
    intro shift temp value low fits nonzero bound
    rw [writeVarintLoop_succ]
    split
    · rename_i large
      have piece := continuation_toNat value
      have shiftLarge : 2 ^ shift * 2 ^ 7 ≤ value * 2 ^ shift := by
        rw [Nat.mul_comm]
        exact Nat.mul_le_mul_right _ large
      have room : shift + 7 < bits := by
        by_contra tooFar
        have : 2 ^ bits ≤ 2 ^ shift * 2 ^ 7 := by
          rw [← Nat.pow_add]
          exact Nat.pow_le_pow_right (by norm_num) (by omega)
        omega
      have noOverflow : ¬ (bits - 7 ≤ shift ∧ 2 ^ (bits - shift) ≤ value % 128 + 128) := by omega
      have split : value = value % 128 + 128 * (value / 128) := (Nat.mod_add_div value 128).symm
      have nextLow : temp + value % 128 * 2 ^ shift < 2 ^ (shift + 7) := by
        rw [Nat.pow_add]
        have : value % 128 * 2 ^ shift ≤ 127 * 2 ^ shift := Nat.mul_le_mul_right _ (by omega)
        omega
      have regroup : temp + value % 128 * 2 ^ shift + value / 128 * 2 ^ (shift + 7) =
          temp + value * 2 ^ shift := by
        rw [Nat.pow_add]
        conv_rhs => rw [split]
        ring
      have nextFits : temp + value % 128 * 2 ^ shift + value / 128 * 2 ^ (shift + 7) < 2 ^ bits := by
        rw [regroup]
        exact fits
      have nextBound : value / 128 < 2 ^ (7 * (fuel + 1)) := by
        rw [Nat.div_lt_iff_lt_mul (by norm_num), show (128 : ℕ) = 2 ^ 7 by norm_num, ← Nat.pow_add]
        exact lt_of_lt_of_eq bound (by ring_nf)
      have tail := ih (shift + 7) (temp + value % 128 * 2 ^ shift) (value / 128) nextLow nextFits
        (Or.inr (by omega)) nextBound
      rw [regroup] at tail
      have accumulated : (temp + value % 128 * 2 ^ shift) % 2 ^ bits = temp + value % 128 * 2 ^ shift :=
        Nat.mod_eq_of_lt (by omega)
      have next : value >>> 7 = value / 128 := Nat.shiftRight_eq_div_pow value 7
      simp only [List.cons_append, readVarintLoop, piece, noOverflow, if_false, low_bits,
        or_shift_eq_add shift _ low, show (value % 128 + 128) % 128 = value % 128 by omega, accumulated,
        show ¬ (value % 128 + 128) &&& 0x80 = 0 from
          fun clear => absurd ((high_bit_iff _ (by omega)).mp clear) (by omega), next]
      exact tail
    · rename_i small
      exact readVarintLoop_final rest low fits nonzero (by omega)

/-- Every value below `2 ^ bits` is read back from its varint, leaving the following bytes. -/
theorem readVarint_writeVarint {bits value : ℕ} (fits : value < 2 ^ bits) (bitsBound : bits ≤ 64)
    (rest : List UInt8) : readVarint bits (writeVarint value ++ rest) = .ok (value, rest) := by
  have bound : value < 2 ^ (7 * (10 + 1)) :=
    lt_of_lt_of_le fits (Nat.pow_le_pow_right (by norm_num) (by omega))
  have read := readVarintLoop_writeVarintLoop rest 10 0 0 value (by norm_num) (by simpa using fits)
    (Or.inl rfl) bound
  simpa [readVarint, writeVarint] using read

/-! ## Every accepted varint is the written one -/

/-- A piece below `0x80` is written as itself, whatever the fuel. -/
private theorem writeVarintLoop_small {fuel piece : ℕ} (small : piece < 128) :
    writeVarintLoop fuel piece = [UInt8.ofNat piece] := by
  cases fuel with
  | zero => rfl
  | succ fuel => simp [writeVarintLoop_succ, show ¬ 0x80 ≤ piece by omega]

/-- An accepted final piece ends the varint: the value is complete and fits the type. -/
private theorem readVarintLoop_final_inv {bits shift temp v : ℕ} {piece : UInt8} {tail rest : List UInt8}
    (success : readVarintLoop bits shift temp (piece :: tail) = .ok (v, rest)) (low : temp < 2 ^ shift)
    (small : piece.toNat < 128) :
    rest = tail ∧ v = temp + piece.toNat * 2 ^ shift ∧ v < 2 ^ bits ∧ (shift = 0 ∨ 0 < piece.toNat) := by
  have clear := (high_bit_iff piece.toNat piece.toNat_lt).mpr small
  simp only [readVarintLoop, low_bits, Nat.mod_eq_of_lt small, or_shift_eq_add shift _ low, clear,
    if_true] at success
  split at success
  · cases success
  · rename_i noOverflow
    split at success
    · cases success
    · rename_i notZero
      cases success
      have fits : temp + piece.toNat * 2 ^ shift < 2 ^ bits := by
        rcases Nat.lt_or_ge shift (bits - 7) with below | above
        · have : piece.toNat * 2 ^ shift ≤ 127 * 2 ^ shift := Nat.mul_le_mul_right _ (by omega)
          have : 2 ^ (shift + 7) ≤ 2 ^ bits := Nat.pow_le_pow_right (by norm_num) (by omega)
          rw [Nat.pow_add] at this
          omega
        · have under : piece.toNat < 2 ^ (bits - shift) := by omega
          rcases Nat.lt_or_ge bits shift with beyond | within
          · simp only [Nat.sub_eq_zero_of_le beyond.le, pow_zero] at under
            omega
          · have split : 2 ^ bits = 2 ^ (bits - shift) * 2 ^ shift := by
              rw [← Nat.pow_add, Nat.sub_add_cancel within]
            have : piece.toNat * 2 ^ shift ≤ (2 ^ (bits - shift) - 1) * 2 ^ shift :=
              Nat.mul_le_mul_right _ (by omega)
            rw [Nat.sub_mul, one_mul] at this
            have : 2 ^ shift ≤ 2 ^ (bits - shift) * 2 ^ shift :=
              Nat.le_mul_of_pos_left _ (Nat.two_pow_pos _)
            omega
      exact ⟨rfl, Nat.mod_eq_of_lt fits, by rw [Nat.mod_eq_of_lt fits]; exact fits, by omega⟩

/-- An accepted continuation piece leaves room for seven more bits and passes its low bits on. -/
private theorem readVarintLoop_continue_inv {bits shift temp v : ℕ} {piece : UInt8}
    {tail rest : List UInt8} (success : readVarintLoop bits shift temp (piece :: tail) = .ok (v, rest))
    (low : temp < 2 ^ shift) (large : 128 ≤ piece.toNat) :
    shift + 7 < bits ∧
      readVarintLoop bits (shift + 7) (temp + piece.toNat % 128 * 2 ^ shift) tail = .ok (v, rest) := by
  have set : ¬ piece.toNat &&& 0x80 = 0 :=
    fun clear => absurd ((high_bit_iff _ piece.toNat_lt).mp clear) (by omega)
  have room : shift + 7 < bits := by
    by_contra tooFar
    have overflow : bits - 7 ≤ shift ∧ 2 ^ (bits - shift) ≤ piece.toNat := by
      refine ⟨by omega, le_trans (Nat.pow_le_pow_right (by norm_num) (by omega : bits - shift ≤ 7)) ?_⟩
      simpa using large
    simp [readVarintLoop, overflow] at success
  have fits : temp + piece.toNat % 128 * 2 ^ shift < 2 ^ bits := by
    have : piece.toNat % 128 * 2 ^ shift ≤ 127 * 2 ^ shift := Nat.mul_le_mul_right _ (by omega)
    have : 2 ^ (shift + 7) ≤ 2 ^ bits := Nat.pow_le_pow_right (by norm_num) room.le
    rw [Nat.pow_add] at this
    omega
  have noOverflow : ¬ (bits - 7 ≤ shift ∧ 2 ^ (bits - shift) ≤ piece.toNat) := by omega
  simp only [readVarintLoop, noOverflow, if_false, low_bits, or_shift_eq_add shift _ low,
    Nat.mod_eq_of_lt fits, set] at success
  exact ⟨room, success⟩

/-- The loop accepts only the shortest encoding of the value it returns, and that value fits the
type. `fuel` covers the continuation bytes the overflow test still allows from `shift`. -/
theorem readVarintLoop_canonical {bits : ℕ} (rest : List UInt8) :
    ∀ (input : List UInt8) (fuel shift temp v : ℕ),
      readVarintLoop bits shift temp input = .ok (v, rest) → temp < 2 ^ shift →
      bits - 7 ≤ shift + 7 * fuel →
      ∃ value, input = writeVarintLoop fuel value ++ rest ∧ v = temp + value * 2 ^ shift ∧
        v < 2 ^ bits ∧ (shift = 0 ∨ 0 < value) := by
  intro input
  induction input with
  | nil =>
    intro fuel shift temp v success
    cases success
  | cons piece tail ih =>
    intro fuel shift temp v success low covered
    rcases Nat.lt_or_ge piece.toNat 128 with small | large
    · obtain ⟨rfl, value, fits, nonzero⟩ := readVarintLoop_final_inv success low small
      refine ⟨piece.toNat, ?_, value, fits, nonzero⟩
      rw [writeVarintLoop_small small, UInt8.ofNat_toNat]
      rfl
    · obtain ⟨room, tailRead⟩ := readVarintLoop_continue_inv success low large
      obtain ⟨fuel, rfl⟩ : ∃ previous, fuel = previous + 1 :=
        Nat.exists_eq_succ_of_ne_zero (by omega)
      have nextLow : temp + piece.toNat % 128 * 2 ^ shift < 2 ^ (shift + 7) := by
        have : piece.toNat % 128 * 2 ^ shift ≤ 127 * 2 ^ shift := Nat.mul_le_mul_right _ (by omega)
        rw [Nat.pow_add]
        omega
      obtain ⟨next, tailInput, value, fits, -⟩ := ih fuel (shift + 7) _ v tailRead nextLow (by omega)
      have positive : 0 < next := by
        rcases Nat.eq_zero_or_pos next with zero | positive
        · subst zero
          simp only [writeVarintLoop_small (show 0 < 128 by norm_num)] at tailInput
          have stuck := tailInput ▸ tailRead
          simp [readVarintLoop] at stuck
        · exact positive
      refine ⟨piece.toNat % 128 + 128 * next, ?_, ?_, fits, Or.inr (by omega)⟩
      · have byte : UInt8.ofNat ((piece.toNat % 128 + 128 * next) ||| 0x80) = piece := by
          apply UInt8.toNat_inj.mp
          rw [continuation_toNat]
          have := piece.toNat_lt
          omega
        have shifted : (piece.toNat % 128 + 128 * next) >>> 7 = next := by
          rw [Nat.shiftRight_eq_div_pow]
          omega
        rw [writeVarintLoop_succ, if_pos (by omega), byte, shifted, tailInput]
        rfl
      · rw [value, Nat.pow_add]
        ring

/-- Every accepted varint is exactly the writer's encoding of the value read, which fits the type. -/
theorem readVarint_canonical {bits v : ℕ} {input rest : List UInt8} (bitsBound : bits ≤ 64)
    (success : readVarint bits input = .ok (v, rest)) : input = writeVarint v ++ rest ∧ v < 2 ^ bits := by
  obtain ⟨value, written, result, fits, -⟩ :=
    readVarintLoop_canonical rest input 10 0 0 v success (by norm_num) (by omega)
  simp only [Nat.zero_add, pow_zero, Nat.mul_one] at result
  subst result
  exact ⟨written, fits⟩

end Nox.Common
