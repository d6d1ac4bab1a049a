import LightModem.Fifo
import LightModem.RamBuffer

set_option autoImplicit false

namespace LightModem

inductive BufferCall
  | write (buffer : Memory UInt8) (size : UInt32)
  | read (buffer : Memory UInt8) (offset : ℕ) (size : UInt32)
  | setWriteOffset (newWriteOffset : UInt32)

namespace BufferCall

def perform (pThis : LmodemBuffer) : BufferCall → LmodemBuffer
  | .write buffer size => (lmodemBufferWrite pThis buffer size).1
  | .read buffer offset size => (lmodemBufferRead pThis buffer offset size).1
  | .setWriteOffset newWriteOffset => (lmodemBufferSetWriteOffset pThis newWriteOffset).1

def exchange (pThis : LmodemBuffer) : BufferCall → Fifo.Exchange UInt8
  | .write buffer size => ⟨buffer.load 0 (lmodemBufferWrite pThis buffer size).2.toNatClampNeg, []⟩
  | .read buffer offset size =>
    let (_, buffer, readSize) := lmodemBufferRead pThis buffer offset size
    ⟨[], buffer.load offset readSize.toNatClampNeg⟩
  | .setWriteOffset _ => .nothing

def Small : BufferCall → Prop
  | .write _ size => size.toNat < 2147483648
  | .read _ _ size => size.toNat < 2147483648
  | .setWriteOffset _ => True

def Transfers (c : BufferCall) : Prop := c.Small ∧ ∀ newWriteOffset, c ≠ .setWriteOffset newWriteOffset

def KeepsOrder (pThis : LmodemBuffer) : BufferCall → Prop
  | .write _ _ => True
  | .read _ _ _ => True
  | .setWriteOffset newWriteOffset =>
    newWriteOffset ≤ pThis.maxSize → pThis.readOffset ≤ newWriteOffset

end BufferCall

section Calls

variable {b : LmodemBuffer} {source dest : Memory UInt8} {offset : ℕ} {size : UInt32} {data : List UInt8}
  {c : BufferCall}

theorem lmodemBufferWrite_all_or_nothing (h : b.Writable) (hsize : size.toNat < 2147483648) :
    b.writeOffset.toNat + size.toNat < b.maxSize.toNat ∧
        lmodemBufferWrite b source size = (b.appended (source.load 0 size.toNat), size.toInt32) ∨
      lmodemBufferWrite b source size = (b, 0) := by
  rcases Nat.lt_or_ge (b.writeOffset.toNat + size.toNat) b.maxSize.toNat with fits | full
  · refine Or.inl ⟨fits, ?_⟩
    rw [lmodemBufferWrite_accepts hsize ((accepts_iff h).mpr fits), LmodemBuffer.appended,
      Memory.load_length]
    have hlen : size.toNat.toUInt32 = size := UInt32.ofNat_toNat
    rw [hlen]
  · exact Or.inr (lmodemBufferWrite_full h hsize full)

theorem lmodemBufferRead_min (h : b.Readable) (hsize : size.toNat < 2147483648) :
    ∃ n : UInt32, n.toNat = min size.toNat b.unread.length ∧ n.toNat < 2147483648 ∧
      lmodemBufferRead b dest offset size =
        ({ b with readOffset := b.readOffset + n }, dest.store offset (b.unread.take n.toNat), n.toInt32) := by
  have := h.offset
  have hs := toNat_sub_of_le h.read
  have hlen := unread_length b
  rcases Nat.lt_or_ge b.unread.length size.toNat with short | available
  · refine ⟨b.writeOffset - b.readOffset, by omega, by omega, ?_⟩
    rw [← lmodemBufferRead_available h (by omega)]
    have hlt : lmodemBufferGetSize b < size.toInt32 := by
      rw [Int32.lt_iff_toInt_lt, lmodemBufferGetSize, toInt_toInt32 (by omega), toInt_toInt32 hsize]
      omega
    have hge : ¬ lmodemBufferGetSize b < (b.writeOffset - b.readOffset).toInt32 := Int32.lt_irrefl
    simp only [lmodemBufferRead, hlt, hge, ↓reduceIte]
    rfl
  · exact ⟨size, by omega, hsize, lmodemBufferRead_available h available⟩

theorem unread_appended (h : b.WellFormed)
    (fits : b.writeOffset.toNat + data.length ≤ b.maxSize.toNat) :
    (b.appended data).unread = b.unread ++ data := by
  have := h.read
  have hsplit : (b.appended data).writeOffset.toNat - b.readOffset.toNat =
      b.writeOffset.toNat - b.readOffset.toNat + data.length := by
    rw [appended_writeOffset h.size fits]
    omega
  have hstart : b.readOffset.toNat + (b.writeOffset.toNat - b.readOffset.toNat) = b.writeOffset.toNat := by
    omega
  rw [LmodemBuffer.unread]
  change (b.appended data).buffer.load b.readOffset.toNat
    ((b.appended data).writeOffset.toNat - b.readOffset.toNat) = _
  rw [hsplit, Memory.load_add, hstart, LmodemBuffer.appended]
  simp only
  rw [Memory.load_store, Memory.load_store_disjoint _ (Or.inl (by omega)), LmodemBuffer.unread]

theorem appended_wellFormed (h : b.WellFormed)
    (fits : b.writeOffset.toNat + data.length ≤ b.maxSize.toNat) : (b.appended data).WellFormed where
  toWritable := appended_writable h.size fits
  read := by
    have := h.read
    rw [appended_writeOffset h.size fits]
    exact Nat.le_add_right_of_le this

theorem lmodemBufferInit_wellFormed (buffer : Memory UInt8) {maxSize : UInt32}
    (capacity : maxSize.toNat < 2147483648) : (lmodemBufferInit buffer maxSize).WellFormed :=
  ⟨⟨Nat.zero_le _, capacity⟩, Nat.le_refl _⟩

theorem lmodemBufferGetSize_toInt (h : b.WellFormed) : (lmodemBufferGetSize b).toInt = b.unread.length := by
  have := h.readable.offset
  have hs := toNat_sub_of_le h.read
  rw [lmodemBufferGetSize, toInt_toInt32 (by omega), hs, unread_length]

namespace BufferCall

theorem write_passes (h : b.WellFormed) (hsize : size.toNat < 2147483648) :
    (perform b (.write source size)).WellFormed ∧
      Fifo.Passes b.unread (exchange b (.write source size)) (perform b (.write source size)).unread := by
  rw [perform, exchange]
  rcases @lmodemBufferWrite_all_or_nothing b source size h.toWritable hsize with ⟨fits, all⟩ | none
  · have fits' : b.writeOffset.toNat + (source.load 0 size.toNat).length ≤ b.maxSize.toNat := by
      rw [Memory.load_length]
      exact fits.le
    rw [all, toNatClampNeg_toInt32 hsize, unread_appended h fits']
    exact ⟨appended_wellFormed h fits', Fifo.passes_accepted _ _⟩
  · rw [none]
    exact ⟨h, Fifo.passes_nothing _⟩

theorem read_passes (h : b.WellFormed) (hsize : size.toNat < 2147483648) :
    (perform b (.read dest offset size)).WellFormed ∧
      Fifo.Passes b.unread (exchange b (.read dest offset size)) (perform b (.read dest offset size)).unread := by
  obtain ⟨n, hn, small, read⟩ := @lmodemBufferRead_min b dest offset size h.readable hsize
  have available : n.toNat ≤ b.unread.length := hn ▸ Nat.min_le_right _ _
  have taken : (dest.store offset (b.unread.take n.toNat)).load offset n.toNat = b.unread.take n.toNat := by
    have hload := Memory.load_store dest offset (b.unread.take n.toNat)
    rwa [List.length_take, Nat.min_eq_left available] at hload
  rw [perform, exchange, read]
  simp only [toNatClampNeg_toInt32 small, taken, unread_drop h.readable available]
  exact ⟨⟨⟨h.write, h.size⟩, (readable_read h.readable available).read⟩, Fifo.passes_delivered _ _⟩

theorem setWriteOffset_wellFormed (h : b.WellFormed) (n : UInt32) :
    (perform b (.setWriteOffset n)).WellFormed ↔ KeepsOrder b (.setWriteOffset n) := by
  rw [perform, KeepsOrder, lmodemBufferSetWriteOffset]
  split
  · next allowed =>
    constructor
    · exact fun after _ => UInt32.le_iff_toNat_le.mpr after.read
    · exact fun keeps =>
        ⟨⟨UInt32.le_iff_toNat_le.mp allowed, h.size⟩, UInt32.le_iff_toNat_le.mp (keeps allowed)⟩
  · next refused => exact iff_of_true h (fun allowed => absurd allowed refused)

theorem perform_passes (h : b.WellFormed) (hc : c.Transfers) :
    (perform b c).WellFormed ∧ Fifo.Passes b.unread (exchange b c) (perform b c).unread := by
  cases c with
  | write buffer size => exact write_passes h hc.1
  | read buffer offset size => exact read_passes h hc.1
  | setWriteOffset n => exact absurd rfl (hc.2 n)

theorem perform_wellFormed_iff (h : b.WellFormed) (hc : c.Small) :
    (perform b c).WellFormed ↔ KeepsOrder b c := by
  cases c with
  | write buffer size => exact iff_of_true (write_passes h hc).1 trivial
  | read buffer offset size => exact iff_of_true (read_passes h hc).1 trivial
  | setWriteOffset n => exact setWriteOffset_wellFormed h n

theorem perform_maxSize (b : LmodemBuffer) (c : BufferCall) : (perform b c).maxSize = b.maxSize := by
  cases c with
  | write buffer size => rfl
  | read buffer offset size => rfl
  | setWriteOffset n =>
    rw [perform, lmodemBufferSetWriteOffset]
    split <;> rfl

end BufferCall

end Calls

def performAll (b : LmodemBuffer) (calls : List BufferCall) : LmodemBuffer :=
  calls.foldl BufferCall.perform b

theorem performAll_maxSize (b : LmodemBuffer) (calls : List BufferCall) :
    (performAll b calls).maxSize = b.maxSize := by
  induction calls generalizing b with
  | nil => rfl
  | cons c calls ih => exact (ih (c.perform b)).trans (c.perform_maxSize b)

theorem lmodemBuffer_fifo (buffer : Memory UInt8) (maxSize : UInt32) (capacity : maxSize.toNat < 2147483648)
    (calls : List BufferCall) (transfers : ∀ c ∈ calls, c.Transfers) :
    let b := performAll (lmodemBufferInit buffer maxSize) calls
    let x := Fifo.exchangeAll BufferCall.perform BufferCall.exchange (lmodemBufferInit buffer maxSize) calls
    (b.readOffset ≤ b.writeOffset ∧ b.writeOffset ≤ b.maxSize ∧ b.maxSize = maxSize) ∧
    (∀ source size, size.toNat < 2147483648 →
      lmodemBufferWrite b source size = (b.appended (source.load 0 size.toNat), size.toInt32) ∨
        lmodemBufferWrite b source size = (b, 0)) ∧
    (∀ dest offset size, size.toNat < 2147483648 →
      (lmodemBufferRead b dest offset size).2.2.toInt =
        min (size.toNat : ℤ) (b.writeOffset.toNat - b.readOffset.toNat)) ∧
    x.delivered ++ b.unread = x.accepted ∧ x.delivered <+: x.accepted ∧
    (lmodemBufferGetSize b).toInt = x.accepted.length - x.delivered.length := by
  intro b x
  have step (b : LmodemBuffer) (c : BufferCall) (h : b.WellFormed) (hc : c.Transfers) :
      (c.perform b).WellFormed ∧ Fifo.Passes b.unread (c.exchange b) (c.perform b).unread :=
    BufferCall.perform_passes h hc
  obtain ⟨wellFormed, passes⟩ : b.WellFormed ∧ Fifo.Passes [] x b.unread :=
    Fifo.passes_all (fun b c h hc => (step b c h hc).1) (fun b c h hc => (step b c h hc).2)
      (lmodemBufferInit_wellFormed buffer capacity) transfers
  refine ⟨⟨UInt32.le_iff_toNat_le.mpr wellFormed.read, UInt32.le_iff_toNat_le.mpr wellFormed.write,
    performAll_maxSize _ _⟩, ?_, ?_, passes.symm, passes.in_order, ?_⟩
  · intro source size hsize
    rcases @lmodemBufferWrite_all_or_nothing b source size wellFormed.toWritable hsize with ⟨_, all⟩ | none
    · exact Or.inl all
    · exact Or.inr none
  · intro dest offset size hsize
    obtain ⟨n, hn, small, read⟩ := @lmodemBufferRead_min b dest offset size wellFormed.readable hsize
    have := wellFormed.read
    rw [read, toInt_toInt32 small, hn, unread_length]
    omega
  · rw [lmodemBufferGetSize_toInt wellFormed, passes.length]
    omega

theorem lmodemBuffer_fifo_short :
    (Fifo.exchangeAll BufferCall.perform BufferCall.exchange (lmodemBufferInit (.fresh 0) 4)
      [.write (.holding [7, 8, 9] 0) 3, .read (.fresh 0) 0 2]).delivered <+: [7, 8, 9] :=
  (lmodemBuffer_fifo (.fresh 0) 4 (by decide)
    [.write (.holding [7, 8, 9] 0) 3, .read (.fresh 0) 0 2]
    (by simp [BufferCall.Transfers, BufferCall.Small])).2.2.2.2.1

/-- What is read from the buffer is there, and the count given to `memcpy` is none that is negative. -/
structure LmodemBuffer.Sound (b : LmodemBuffer) : Prop where
  read : b.readOffset ≤ b.writeOffset
  write : b.writeOffset ≤ b.maxSize
  size : 0 ≤ lmodemBufferGetSize b
  copied : ∀ dest offset size, size.toNat < 2147483648 → 0 ≤ (lmodemBufferRead b dest offset size).2.2

theorem LmodemBuffer.WellFormed.sound {b : LmodemBuffer} (h : b.WellFormed) : b.Sound where
  read := UInt32.le_iff_toNat_le.mpr h.read
  write := UInt32.le_iff_toNat_le.mpr h.write
  size := by
    rw [Int32.le_iff_toInt_le, lmodemBufferGetSize_toInt h]
    exact Int.natCast_nonneg _
  copied := by
    intro dest offset size hsize
    obtain ⟨n, _, small, read⟩ := @lmodemBufferRead_min b dest offset size h.readable hsize
    rw [read, Int32.le_iff_toInt_le, toInt_toInt32 small]
    exact Int.natCast_nonneg _

theorem sound_iff {b : LmodemBuffer} (capacity : b.maxSize.toNat < 2147483648) : b.Sound ↔ b.WellFormed :=
  ⟨fun h => ⟨⟨UInt32.le_iff_toNat_le.mp h.write, capacity⟩, UInt32.le_iff_toNat_le.mp h.read⟩, fun h => h.sound⟩

theorem lmodemBuffer_sound_iff (buffer : Memory UInt8) (maxSize : UInt32)
    (capacity : maxSize.toNat < 2147483648) (calls : List BufferCall) (small : ∀ c ∈ calls, c.Small) :
    (∀ earlier later, calls = earlier ++ later →
        (performAll (lmodemBufferInit buffer maxSize) earlier).Sound) ↔
      ∀ earlier newWriteOffset later, calls = earlier ++ .setWriteOffset newWriteOffset :: later →
        newWriteOffset ≤ maxSize →
          (performAll (lmodemBufferInit buffer maxSize) earlier).readOffset ≤ newWriteOffset := by
  have step_iff (b : LmodemBuffer) (c : BufferCall) (h : b.WellFormed) (hc : c.Small) :
      (c.perform b).WellFormed ↔ c.KeepsOrder b := BufferCall.perform_wellFormed_iff h hc
  have keeps := Fifo.invariant_iff step_iff (lmodemBufferInit_wellFormed buffer capacity) small
  have sound (earlier : List BufferCall) : (performAll (lmodemBufferInit buffer maxSize) earlier).Sound ↔
      (earlier.foldl BufferCall.perform (lmodemBufferInit buffer maxSize)).WellFormed :=
    sound_iff (by rw [performAll_maxSize]; exact capacity)
  have limit (earlier : List BufferCall) :
      (earlier.foldl BufferCall.perform (lmodemBufferInit buffer maxSize)).maxSize = maxSize :=
    performAll_maxSize _ _
  simp only [sound, keeps]
  constructor
  · intro all earlier newWriteOffset later hcalls allowed
    have order := all earlier (.setWriteOffset newWriteOffset) later hcalls
    rw [BufferCall.KeepsOrder, limit] at order
    exact order allowed
  · intro all earlier c later hcalls
    cases c with
    | write buffer size => trivial
    | read buffer offset size => trivial
    | setWriteOffset newWriteOffset =>
      rw [BufferCall.KeepsOrder, limit]
      exact all earlier newWriteOffset later hcalls

theorem lmodemBuffer_sound_written :
    (performAll (lmodemBufferInit (.fresh 0) 4) [.write (.fresh 0) 3, .read (.fresh 0) 0 1]).Sound := by
  have all := (lmodemBuffer_sound_iff (.fresh 0) 4 (by decide) [.write (.fresh 0) 3, .read (.fresh 0) 0 1]
    (by simp [BufferCall.Small])).mpr
  refine all ?_ _ [] rfl
  intro earlier newWriteOffset later hcalls
  have member : BufferCall.setWriteOffset newWriteOffset ∈
      [BufferCall.write (.fresh 0) 3, .read (.fresh 0) 0 1] := by
    rw [hcalls]
    simp
  simp at member

theorem lmodemBuffer_unsound :
    ¬ (performAll (lmodemBufferInit (.fresh 0) 4)
      [.write (.fresh 0) 3, .read (.fresh 0) 0 2, .setWriteOffset 1]).Sound ∧
    lmodemBufferGetSize (performAll (lmodemBufferInit (.fresh 0) 4)
      [.write (.fresh 0) 3, .read (.fresh 0) 0 2, .setWriteOffset 1]) = -1 :=
  ⟨fun sound => absurd sound.read (by decide), by decide⟩

end LightModem
