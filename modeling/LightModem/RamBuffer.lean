import LightModem.Memory
import Mathlib.Tactic.Ring.RingNF

set_option autoImplicit false

namespace LightModem

structure LmodemBuffer where
  buffer : Memory UInt8
  readOffset : UInt32
  writeOffset : UInt32
  maxSize : UInt32

def lmodemBufferInit (buffer : Memory UInt8) (maxSize : UInt32) : LmodemBuffer where
  buffer := buffer
  maxSize := maxSize
  readOffset := 0
  writeOffset := 0

def lmodemBufferGetRemainingCapacity (pThis : LmodemBuffer) : Int32 :=
  (pThis.maxSize - pThis.writeOffset).toInt32

/-- `nbToCopy` is the count given to `memcpy`; a negative one is outside the domain of `memcpy`,
and copies nothing here. -/
def lmodemBufferWrite (pThis : LmodemBuffer) (buffer : Memory UInt8) (size : UInt32) :
    LmodemBuffer × Int32 :=
  let remainingBytes := lmodemBufferGetRemainingCapacity pThis
  let nbToCopy : Int32 :=
    if remainingBytes > size.toInt32 then size.toInt32
    else
      let nbToCopy := (remainingBytes.toUInt32 - size).toInt32
      if nbToCopy < 0 then 0 else nbToCopy
  ({ pThis with
      buffer := pThis.buffer.store pThis.writeOffset.toNat (buffer.load 0 nbToCopy.toNatClampNeg)
      writeOffset := pThis.writeOffset + nbToCopy.toUInt32 }, nbToCopy)

def lmodemBufferGetSize (pThis : LmodemBuffer) : Int32 :=
  (pThis.writeOffset - pThis.readOffset).toInt32

def lmodemBufferRead (pThis : LmodemBuffer) (buffer : Memory UInt8) (offset : ℕ) (size : UInt32) :
    LmodemBuffer × Memory UInt8 × Int32 :=
  let currentSize := lmodemBufferGetSize pThis
  let readSize := if currentSize < size.toInt32 then currentSize else size.toInt32
  ({ pThis with readOffset := pThis.readOffset + readSize.toUInt32 },
    buffer.store offset (pThis.buffer.load pThis.readOffset.toNat readSize.toNatClampNeg), readSize)

def lmodemBufferSetWriteOffset (pThis : LmodemBuffer) (newWriteOffset : UInt32) :
    LmodemBuffer × Bool :=
  if newWriteOffset ≤ pThis.maxSize then ({ pThis with writeOffset := newWriteOffset }, true)
  else (pThis, false)

structure LmodemBuffer.Writable (b : LmodemBuffer) : Prop where
  write : b.writeOffset.toNat ≤ b.maxSize.toNat
  size : b.maxSize.toNat < 2147483648

structure LmodemBuffer.Readable (b : LmodemBuffer) : Prop where
  read : b.readOffset.toNat ≤ b.writeOffset.toNat
  offset : b.writeOffset.toNat < 2147483648

structure LmodemBuffer.WellFormed (b : LmodemBuffer) : Prop extends b.Writable where
  read : b.readOffset.toNat ≤ b.writeOffset.toNat

theorem LmodemBuffer.WellFormed.readable {b : LmodemBuffer} (h : b.WellFormed) : b.Readable :=
  ⟨h.read, Nat.lt_of_le_of_lt h.write h.size⟩

def LmodemBuffer.unread (b : LmodemBuffer) : List UInt8 :=
  b.buffer.load b.readOffset.toNat (b.writeOffset.toNat - b.readOffset.toNat)

def LmodemBuffer.appended (b : LmodemBuffer) (data : List UInt8) : LmodemBuffer :=
  { b with
    buffer := b.buffer.store b.writeOffset.toNat data
    writeOffset := b.writeOffset + data.length.toUInt32 }

def LmodemBuffer.Accepts (b : LmodemBuffer) (n : ℕ) : Prop :=
  n < (lmodemBufferGetRemainingCapacity b).toInt

theorem toInt_toInt32 {x : UInt32} (h : x.toNat < 2147483648) : x.toInt32.toInt = x.toNat := by
  have h' : x.toBitVec.toNat < 2147483648 := h
  rw [Int32.toInt, UInt32.toBitVec_toInt32, BitVec.toInt_eq_toNat_of_lt (by omega)]
  rfl

theorem toNatClampNeg_toInt32 {x : UInt32} (h : x.toNat < 2147483648) :
    x.toInt32.toNatClampNeg = x.toNat := by
  rw [Int32.toNatClampNeg, toInt_toInt32 h, Int.toNat_natCast]

theorem toNat_sub_of_le {x y : UInt32} (h : y.toNat ≤ x.toNat) : (x - y).toNat = x.toNat - y.toNat :=
  UInt32.toNat_sub_of_le x y (UInt32.le_iff_toNat_le.mpr h)

section Write

variable {b : LmodemBuffer} {source : Memory UInt8} {size : UInt32}

theorem toInt_remaining (h : b.Writable) :
    (lmodemBufferGetRemainingCapacity b).toInt = b.maxSize.toNat - b.writeOffset.toNat := by
  have := h.write
  have := h.size
  have hs := toNat_sub_of_le h.write
  rw [lmodemBufferGetRemainingCapacity, toInt_toInt32 (by omega)]
  omega

theorem accepts_iff (h : b.Writable) {n : ℕ} :
    b.Accepts n ↔ b.writeOffset.toNat + n < b.maxSize.toNat := by
  rw [LmodemBuffer.Accepts, toInt_remaining h]
  omega

theorem lmodemBufferWrite_accepts (hsize : size.toNat < 2147483648) (accepts : b.Accepts size.toNat) :
    lmodemBufferWrite b source size =
      ({ b with
          buffer := b.buffer.store b.writeOffset.toNat (source.load 0 size.toNat)
          writeOffset := b.writeOffset + size }, size.toInt32) := by
  have hlt : lmodemBufferGetRemainingCapacity b > size.toInt32 := by
    rw [gt_iff_lt, Int32.lt_iff_toInt_lt, toInt_toInt32 hsize]
    exact accepts
  simp only [lmodemBufferWrite, hlt, ↓reduceIte, toNatClampNeg_toInt32 hsize, UInt32.toUInt32_toInt32]

theorem lmodemBufferWrite_refuses (hpos : 0 < size.toNat) (hsize : size.toNat < 1073741824)
    (refuses : ¬ b.Accepts size.toNat) : (lmodemBufferWrite b source size).2 ≠ size.toInt32 := by
  have hint : size.toInt32.toInt = size.toNat := toInt_toInt32 (by omega)
  have hge : ¬ lmodemBufferGetRemainingCapacity b > size.toInt32 := by
    rw [gt_iff_lt, Int32.lt_iff_toInt_lt, hint]
    exact refuses
  simp only [lmodemBufferWrite, hge, ↓reduceIte]
  rw [LmodemBuffer.Accepts] at refuses
  generalize lmodemBufferGetRemainingCapacity b = remaining at refuses
  have hlow := remaining.le_toInt
  have hd : (remaining.toUInt32 - size).toInt32.toInt = (remaining.toInt - size.toNat).bmod 4294967296 := by
    rw [UInt32.toInt32_sub, Int32.toInt32_toUInt32, Int32.toInt_sub, hint]
  intro heq
  have hvalue := congrArg Int32.toInt heq
  rw [hint] at hvalue
  split_ifs at hvalue with hneg
  · rw [Int32.toInt_zero] at hvalue
    omega
  · rw [hd, Int.bmod_eq_iff (by decide)] at hvalue
    have := hvalue.2.2
    have hmin : Int32.minValue.toInt = -2147483648 := rfl
    omega

theorem lmodemBufferWrite_refuses_offset (hpos : 0 < size.toNat) (hsize : size.toNat < 1073741824)
    (refuses : ¬ b.Accepts size.toNat) :
    (lmodemBufferWrite b source size).1.writeOffset ≠ b.writeOffset + size := by
  intro heq
  change b.writeOffset + (lmodemBufferWrite b source size).2.toUInt32 = b.writeOffset + size at heq
  have hvalue := congrArg UInt32.toInt32 ((UInt32.add_right_inj b.writeOffset).mp heq)
  rw [Int32.toInt32_toUInt32] at hvalue
  exact lmodemBufferWrite_refuses hpos hsize refuses hvalue

theorem lmodemBufferWrite_zero (b : LmodemBuffer) (source : Memory UInt8) :
    lmodemBufferWrite b source 0 = (b, 0) := by
  by_cases accepts : b.Accepts 0
  · rw [lmodemBufferWrite_accepts (by decide) accepts]
    simp
  · have hle : lmodemBufferGetRemainingCapacity b ≤ 0 := by
      rw [Int32.le_iff_toInt_le]
      exact Int.not_lt.mp accepts
    have hge : ¬ lmodemBufferGetRemainingCapacity b > (0 : UInt32).toInt32 := Int32.not_lt.mpr hle
    have hzero : (if lmodemBufferGetRemainingCapacity b < 0 then 0
        else lmodemBufferGetRemainingCapacity b) = 0 := by
      split_ifs with hneg
      · rfl
      · exact Int32.le_antisymm hle (Int32.not_lt.mp hneg)
    have h0 : (0 : Int32).toUInt32 = 0 := rfl
    simp only [lmodemBufferWrite, hge, ↓reduceIte, UInt32.sub_zero, Int32.toInt32_toUInt32, hzero]
    simp [h0]

theorem lmodemBufferWrite_full (h : b.Writable) (hsize : size.toNat < 2147483648)
    (full : b.maxSize.toNat ≤ b.writeOffset.toNat + size.toNat) :
    lmodemBufferWrite b source size = (b, 0) := by
  have := h.write
  have := h.size
  have hge : ¬ lmodemBufferGetRemainingCapacity b > size.toInt32 := by
    rw [gt_iff_lt, Int32.lt_iff_toInt_lt, toInt_remaining h, toInt_toInt32 hsize]
    omega
  have hnb : ((lmodemBufferGetRemainingCapacity b).toUInt32 - size).toInt32.toInt =
      b.maxSize.toNat - b.writeOffset.toNat - size.toNat := by
    rw [UInt32.toInt32_sub, Int32.toInt32_toUInt32, Int32.toInt_sub, toInt_remaining h,
      toInt_toInt32 hsize]
    apply Int.bmod_eq_of_le <;> omega
  have hzero : (if ((lmodemBufferGetRemainingCapacity b).toUInt32 - size).toInt32 < 0 then 0
      else ((lmodemBufferGetRemainingCapacity b).toUInt32 - size).toInt32) = 0 := by
    split_ifs with hneg
    · rfl
    · rw [Int32.lt_iff_toInt_lt, hnb] at hneg
      apply Int32.toInt.inj
      rw [hnb]
      simp only [Int32.toInt_zero] at hneg ⊢
      omega
  have h0 : (0 : Int32).toUInt32 = 0 := rfl
  simp only [lmodemBufferWrite, hge, ↓reduceIte, hzero]
  simp [h0]

end Write

section Read

variable {b : LmodemBuffer} {dest : Memory UInt8} {offset : ℕ} {size : UInt32}

@[simp] theorem unread_length (b : LmodemBuffer) :
    b.unread.length = b.writeOffset.toNat - b.readOffset.toNat := by
  simp [LmodemBuffer.unread]

theorem toNat_getSize (h : b.Readable) :
    (lmodemBufferGetSize b).toUInt32.toNat = b.unread.length := by
  rw [lmodemBufferGetSize, UInt32.toUInt32_toInt32, toNat_sub_of_le h.read, unread_length]

theorem lmodemBufferRead_available (h : b.Readable) (available : size.toNat ≤ b.unread.length) :
    lmodemBufferRead b dest offset size =
      ({ b with readOffset := b.readOffset + size },
        dest.store offset (b.unread.take size.toNat), size.toInt32) := by
  have := h.offset
  have hs := toNat_sub_of_le h.read
  rw [unread_length] at available
  have hsize : size.toNat < 2147483648 := by omega
  have hge : ¬ lmodemBufferGetSize b < size.toInt32 := by
    rw [Int32.lt_iff_toInt_lt, lmodemBufferGetSize, toInt_toInt32 (by omega), toInt_toInt32 hsize]
    omega
  rw [LmodemBuffer.unread, Memory.load_take _ available]
  simp only [lmodemBufferRead, hge, ↓reduceIte, toNatClampNeg_toInt32 hsize, UInt32.toUInt32_toInt32]

theorem unread_drop (h : b.Readable) (available : size.toNat ≤ b.unread.length) :
    LmodemBuffer.unread { b with readOffset := b.readOffset + size } = b.unread.drop size.toNat := by
  have := h.read
  have := h.offset
  rw [unread_length] at available
  have hread : (b.readOffset + size).toNat = b.readOffset.toNat + size.toNat := by
    rw [UInt32.toNat_add]
    omega
  rw [LmodemBuffer.unread, LmodemBuffer.unread, Memory.load_drop _ available, hread,
    Nat.sub_add_eq]

theorem readable_read (h : b.Readable) (available : size.toNat ≤ b.unread.length) :
    LmodemBuffer.Readable { b with readOffset := b.readOffset + size } := by
  have := h.read
  have := h.offset
  rw [unread_length] at available
  refine ⟨?_, h.offset⟩
  simp only [UInt32.toNat_add]
  omega

end Read

section Appended

variable {b : LmodemBuffer} {data more : List UInt8}

@[simp] theorem appended_nil (b : LmodemBuffer) : b.appended [] = b := by
  have h0 : (0 : ℕ).toUInt32 = 0 := rfl
  simp [LmodemBuffer.appended, h0]

@[simp] theorem appended_maxSize (b : LmodemBuffer) (data : List UInt8) :
    (b.appended data).maxSize = b.maxSize := rfl

theorem appended_writeOffset (hs : b.maxSize.toNat < 2147483648)
    (h : b.writeOffset.toNat + data.length ≤ b.maxSize.toNat) :
    (b.appended data).writeOffset.toNat = b.writeOffset.toNat + data.length := by
  have hlen : data.length.toUInt32.toNat = data.length :=
    UInt32.toNat_ofNat_of_lt' (show data.length < 4294967296 by omega)
  rw [LmodemBuffer.appended, UInt32.toNat_add, hlen]
  omega

theorem appended_append (hs : b.maxSize.toNat < 2147483648)
    (h : b.writeOffset.toNat + data.length ≤ b.maxSize.toNat) :
    (b.appended data).appended more = b.appended (data ++ more) := by
  have hw := appended_writeOffset hs h
  have hlen : (data ++ more).length.toUInt32 = data.length.toUInt32 + more.length.toUInt32 := by
    rw [List.length_append]
    exact UInt32.ofNat_add _ _
  rw [LmodemBuffer.appended, hw]
  simp only [LmodemBuffer.appended, Memory.store_append, hlen, UInt32.add_assoc]

theorem appended_writable (hs : b.maxSize.toNat < 2147483648)
    (h : b.writeOffset.toNat + data.length ≤ b.maxSize.toNat) : (b.appended data).Writable :=
  ⟨by rw [appended_writeOffset hs h]; exact h, hs⟩

end Appended

end LightModem
