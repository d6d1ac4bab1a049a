import LightModem.RamBuffer

set_option autoImplicit false

namespace LightModem

/-- The `int32_t` that has the bits of the `uint32_t` number `n`. -/
def signed (n : ℕ) : ℤ := if n < 2147483648 then n else n - 4294967296

def LmodemBuffer.room (b : LmodemBuffer) : ℕ := b.maxSize.toNat - b.writeOffset.toNat

def InRange (r : Int32) (size limit : ℕ) : Prop := 0 ≤ r.toInt ∧ r.toInt ≤ size ∧ r.toInt ≤ limit

/-- A write copies as many bytes as it returns and moves the write offset by as many, no more than the size
and the room. -/
structure WritesRight (b : LmodemBuffer) (source : Memory UInt8) (size : UInt32) : Prop where
  range : InRange (lmodemBufferWrite b source size).2 size.toNat b.room
  copied : (lmodemBufferWrite b source size).1.buffer =
    b.buffer.store b.writeOffset.toNat (source.load 0 (lmodemBufferWrite b source size).2.toInt.toNat)
  moved : (lmodemBufferWrite b source size).1.writeOffset.toNat =
    b.writeOffset.toNat + (lmodemBufferWrite b source size).2.toInt.toNat

structure ReadsRight (b : LmodemBuffer) (dest : Memory UInt8) (offset : ℕ) (size : UInt32) : Prop where
  range : InRange (lmodemBufferRead b dest offset size).2.2 size.toNat (b.writeOffset.toNat - b.readOffset.toNat)
  copied : (lmodemBufferRead b dest offset size).2.1 =
    dest.store offset (b.buffer.load b.readOffset.toNat (lmodemBufferRead b dest offset size).2.2.toInt.toNat)
  moved : (lmodemBufferRead b dest offset size).1.readOffset.toNat =
    b.readOffset.toNat + (lmodemBufferRead b dest offset size).2.2.toInt.toNat

section Arithmetic

variable {b : LmodemBuffer} {source dest : Memory UInt8} {offset : ℕ} {size : UInt32}

theorem toInt_toInt32_eq (x : UInt32) : x.toInt32.toInt = signed x.toNat := by
  have hx : x.toBitVec.toNat = x.toNat := rfl
  rw [Int32.toInt, UInt32.toBitVec_toInt32, BitVec.toInt_eq_toNat_cond, hx, signed]
  split <;> split <;> omega

theorem toUInt32_of_nonneg {r : Int32} (h : 0 ≤ r.toInt) : r.toUInt32.toNat = r.toInt.toNat := by
  have heq := toInt_toInt32_eq r.toUInt32
  have hlt := r.toUInt32.toNat_lt
  rw [Int32.toInt32_toUInt32, signed] at heq
  split at heq <;> omega

theorem toInt_write (h : b.writeOffset.toNat ≤ b.maxSize.toNat) :
    (lmodemBufferWrite b source size).2.toInt =
      if signed size.toNat < signed b.room then signed size.toNat
      else max 0 (signed ((4294967296 - size.toNat + b.room) % 4294967296)) := by
  have hroom : (b.maxSize - b.writeOffset).toNat = b.room := toNat_sub_of_le h
  have hremaining : (lmodemBufferGetRemainingCapacity b).toInt = signed b.room := by
    rw [lmodemBufferGetRemainingCapacity, toInt_toInt32_eq, hroom]
  have hrest : ((lmodemBufferGetRemainingCapacity b).toUInt32 - size).toInt32.toInt =
      signed ((4294967296 - size.toNat + b.room) % 4294967296) := by
    rw [toInt_toInt32_eq, lmodemBufferGetRemainingCapacity, UInt32.toUInt32_toInt32, UInt32.toNat_sub, hroom]
  simp only [lmodemBufferWrite]
  generalize ((lmodemBufferGetRemainingCapacity b).toUInt32 - size).toInt32 = rest at hrest
  simp only [gt_iff_lt, Int32.lt_iff_toInt_lt, hremaining, toInt_toInt32_eq, hrest, Int32.toInt_zero]
  split
  · exact toInt_toInt32_eq size
  · split
    · rw [Int32.toInt_zero]
      omega
    · rw [hrest]
      omega

theorem toInt_read (h : b.readOffset.toNat ≤ b.writeOffset.toNat) :
    (lmodemBufferRead b dest offset size).2.2.toInt =
      if signed (b.writeOffset.toNat - b.readOffset.toNat) < signed size.toNat then
        signed (b.writeOffset.toNat - b.readOffset.toNat)
      else signed size.toNat := by
  have hsize : (lmodemBufferGetSize b).toInt = signed (b.writeOffset.toNat - b.readOffset.toNat) := by
    rw [lmodemBufferGetSize, toInt_toInt32_eq, toNat_sub_of_le h]
  simp only [lmodemBufferRead, Int32.lt_iff_toInt_lt, hsize, toInt_toInt32_eq]
  split
  · exact hsize
  · exact toInt_toInt32_eq size

theorem writesRight_iff (h : b.writeOffset.toNat ≤ b.maxSize.toNat) :
    WritesRight b source size ↔ InRange (lmodemBufferWrite b source size).2 size.toNat b.room := by
  refine ⟨WritesRight.range, fun range => ⟨range, rfl, ?_⟩⟩
  obtain ⟨nonneg, _, room⟩ := range
  have hlt := b.maxSize.toNat_lt
  change (b.writeOffset + (lmodemBufferWrite b source size).2.toUInt32).toNat = _
  rw [LmodemBuffer.room] at room
  rw [UInt32.toNat_add, toUInt32_of_nonneg nonneg]
  omega

theorem readsRight_iff (h : b.readOffset.toNat ≤ b.writeOffset.toNat) :
    ReadsRight b dest offset size ↔ InRange (lmodemBufferRead b dest offset size).2.2 size.toNat
      (b.writeOffset.toNat - b.readOffset.toNat) := by
  refine ⟨ReadsRight.range, fun range => ⟨range, rfl, ?_⟩⟩
  obtain ⟨nonneg, _, stored⟩ := range
  have hlt := b.writeOffset.toNat_lt
  change (b.readOffset + (lmodemBufferRead b dest offset size).2.2.toUInt32).toNat = _
  rw [UInt32.toNat_add, toUInt32_of_nonneg nonneg]
  omega

end Arithmetic

/-- A write is right exactly when the size and the room are both below `2 ^ 31`, or the difference between
them is taken for a negative number or is at most the size. A read is right exactly when the size and what
is stored are below `2 ^ 31`. -/
theorem lmodemBuffer_arithmetic_iff (b : LmodemBuffer) (hread : b.readOffset ≤ b.writeOffset)
    (hwrite : b.writeOffset ≤ b.maxSize) (source dest : Memory UInt8) (offset : ℕ) (size : UInt32) :
    (WritesRight b source size ↔
      size.toNat < 2147483648 ∧ (b.room < 2147483648 ∨ 2147483648 ≤ b.room - size.toNat ∨
        b.room ≤ 2 * size.toNat) ∨
      2147483648 ≤ b.room ∧ b.room ≤ size.toNat) ∧
    (ReadsRight b dest offset size ↔
      size.toNat < 2147483648 ∧ b.writeOffset.toNat - b.readOffset.toNat < 2147483648) := by
  have hread' := UInt32.le_iff_toNat_le.mp hread
  have hwrite' := UInt32.le_iff_toNat_le.mp hwrite
  have hsize := size.toNat_lt
  have hmax := b.maxSize.toNat_lt
  have hoffset := b.writeOffset.toNat_lt
  have hroom : b.room < 4294967296 := by
    rw [LmodemBuffer.room]
    omega
  have hstored : b.writeOffset.toNat - b.readOffset.toNat < 4294967296 := by omega
  rw [writesRight_iff hwrite', readsRight_iff hread', InRange, InRange, toInt_write hwrite', toInt_read hread']
  generalize b.room = room at hroom
  generalize size.toNat = size at hsize
  generalize b.writeOffset.toNat - b.readOffset.toNat = stored at hstored
  constructor
  · simp only [signed]
    split_ifs <;> omega
  · simp only [signed]
    split_ifs <;> omega

def hugeBuffer : LmodemBuffer := lmodemBufferInit (.fresh 0) 2147483648

def roomyBuffer : LmodemBuffer := { lmodemBufferInit (.fresh 0) 2147484672 with writeOffset := 3, readOffset := 1 }

theorem lmodemBuffer_arithmetic_roomy :
    roomyBuffer.room = 2147484669 ∧
      (lmodemBufferWrite roomyBuffer (.fresh 0) 2147483000).2.toInt = 1669 ∧
      (lmodemBufferRead roomyBuffer (.fresh 0) 0 128).2.2.toInt = 2 ∧
      WritesRight roomyBuffer (.fresh 0) 2147483000 ∧ ReadsRight roomyBuffer (.fresh 0) 0 128 := by
  have writes := (lmodemBuffer_arithmetic_iff roomyBuffer (by decide) (by decide) (.fresh 0) (.fresh 0) 0
    2147483000).1
  have reads := (lmodemBuffer_arithmetic_iff roomyBuffer (by decide) (by decide) (.fresh 0) (.fresh 0) 0 128).2
  refine ⟨by decide, ?_, ?_, ?_, ?_⟩
  · rw [toInt_write (by decide)]
    decide
  · rw [toInt_read (by decide)]
    decide
  · apply writes.mpr
    decide
  · apply reads.mpr
    decide

theorem lmodemBuffer_arithmetic_overrun : hugeBuffer.readOffset ≤ hugeBuffer.writeOffset ∧
    hugeBuffer.writeOffset ≤ hugeBuffer.maxSize ∧
    (lmodemBufferWrite hugeBuffer (.fresh 0) 128).2.toInt = 2147483520 ∧
    ¬ WritesRight hugeBuffer (.fresh 0) 128 := by
  have result : (lmodemBufferWrite hugeBuffer (.fresh 0) 128).2.toInt = 2147483520 := by
    rw [toInt_write (by decide)]
    decide
  refine ⟨by decide, by decide, result, fun writes => ?_⟩
  have size := writes.range.2.1
  rw [result] at size
  exact absurd size (by decide)

end LightModem
