import LightModem.Context
import Mathlib.Tactic.Linarith

set_option autoImplicit false

/-!
The frames of a file: how it is cut into numbered blocks, padded and checked. Blocks are counted from
zero here; the block `i` is sent with the number `i + 1`.
-/

namespace LightModem

def checkBytes (crc16 : Crc16Context) (withCrc : Bool) (payload : List UInt8) : List UInt8 :=
  if withCrc then
    let crc := crc16DoCalcul crc16 payload 0 0
    [((crc &&& 0xFF00) >>> 8).toUInt8, (crc &&& 0x00FF).toUInt8]
  else [lxmodemCalculChksum payload]

def frameBody (crc16 : Crc16Context) (withCrc : Bool) (n : UInt8) (payload : List UInt8) : List UInt8 :=
  n :: ~~~n :: (payload ++ checkBytes crc16 withCrc payload)

def frameHeader (payload : List UInt8) : UInt8 := if payload.length ≤ 128 then SOH else STX

def dataFrame (crc16 : Crc16Context) (withCrc : Bool) (n : UInt8) (payload : List UInt8) : List UInt8 :=
  frameHeader payload :: frameBody crc16 withCrc n payload

def checkSize (withCrc : Bool) : ℕ := if withCrc then 2 else 1

def blockSize (n : ℕ) : ℕ := if n ≤ 128 then 128 else 1024

def blockPayload (blksize : ℕ) (file : List UInt8) (i : ℕ) : List UInt8 :=
  let data := (file.drop (i * blksize)).take blksize
  data ++ List.replicate (blockSize data.length - data.length) SUB

def blockCount (blksize : ℕ) (file : List UInt8) : ℕ := (file.length + blksize - 1) / blksize

def payloadsBefore (blksize : ℕ) (file : List UInt8) (i : ℕ) : List UInt8 :=
  (List.range i).flatMap (blockPayload blksize file)

def paddedFile (blksize : ℕ) (file : List UInt8) : List UInt8 :=
  payloadsBefore blksize file (blockCount blksize file)

def ModemContext.usesCrc (pThis : ModemContext) : Bool :=
  pThis.opts ≠ .lxmodem128WithChksum || pThis.protocol = .ymodem

def ModemContext.blksize (pThis : ModemContext) : ℕ :=
  if pThis.opts = .lxmodem1k ∨ pThis.protocol = .ymodem then 1024 else 128

def fileFrame (pThis : ModemContext) (file : List UInt8) (i : ℕ) : List UInt8 :=
  if i < blockCount pThis.blksize file then
    dataFrame pThis.crc16 pThis.usesCrc (UInt8.ofNat (i + 1)) (blockPayload pThis.blksize file i)
  else [EOT]

structure SameSetup (a b : ModemContext) : Prop where
  protocol : a.protocol = b.protocol
  opts : a.opts = b.opts
  crc16 : a.crc16 = b.crc16
  withCrc : a.withCrc = b.withCrc
  fileData : a.fileData = b.fileData
  lineSize : a.blkBuffer.maxSize = b.blkBuffer.maxSize

theorem blksize_eq (pThis : ModemContext) : pThis.blksize = 128 ∨ pThis.blksize = 1024 := by
  unfold ModemContext.blksize
  split <;> simp

theorem SameSetup.refl (a : ModemContext) : SameSetup a a :=
  ⟨rfl, rfl, rfl, rfl, rfl, rfl⟩

theorem SameSetup.trans {a b c : ModemContext} (h : SameSetup a b) (h' : SameSetup b c) : SameSetup a c :=
  ⟨h.protocol.trans h'.protocol, h.opts.trans h'.opts, h.crc16.trans h'.crc16,
    h.withCrc.trans h'.withCrc, h.fileData.trans h'.fileData, h.lineSize.trans h'.lineSize⟩

theorem SameSetup.blksize {a b : ModemContext} (h : SameSetup a b) : a.blksize = b.blksize := by
  rw [ModemContext.blksize, ModemContext.blksize, h.opts, h.protocol]

theorem SameSetup.usesCrc {a b : ModemContext} (h : SameSetup a b) : a.usesCrc = b.usesCrc := by
  rw [ModemContext.usesCrc, ModemContext.usesCrc, h.opts, h.protocol]

@[simp] theorem checkBytes_length (crc16 : Crc16Context) (withCrc : Bool) (payload : List UInt8) :
    (checkBytes crc16 withCrc payload).length = checkSize withCrc := by
  cases withCrc <;> rfl

@[simp] theorem frameBody_length (crc16 : Crc16Context) (withCrc : Bool) (n : UInt8)
    (payload : List UInt8) :
    (frameBody crc16 withCrc n payload).length = payload.length + checkSize withCrc + 2 := by
  simp [frameBody]

@[simp] theorem dataFrame_length (crc16 : Crc16Context) (withCrc : Bool) (n : UInt8)
    (payload : List UInt8) :
    (dataFrame crc16 withCrc n payload).length = payload.length + checkSize withCrc + 3 := by
  simp [dataFrame]

theorem blockSize_eq (n : ℕ) : blockSize n = 128 ∨ blockSize n = 1024 := by
  unfold blockSize
  split <;> simp

theorem blockPayload_length (blksize : ℕ) (file : List UInt8) (i : ℕ) (h : blksize ≤ 1024) :
    (blockPayload blksize file i).length = blockSize (min blksize (file.length - i * blksize)) := by
  have hle : min blksize (file.length - i * blksize) ≤ blockSize (min blksize (file.length - i * blksize)) := by
    unfold blockSize
    split <;> omega
  simp only [blockPayload, List.length_append, List.length_replicate, List.length_take,
    List.length_drop]
  omega

@[simp] theorem payloadsBefore_zero (blksize : ℕ) (file : List UInt8) :
    payloadsBefore blksize file 0 = [] := rfl

theorem payloadsBefore_succ (blksize : ℕ) (file : List UInt8) (i : ℕ) :
    payloadsBefore blksize file (i + 1) = payloadsBefore blksize file i ++ blockPayload blksize file i := by
  simp [payloadsBefore, List.range_succ]

theorem payloadsBefore_le {blksize : ℕ} {file : List UInt8} {i j : ℕ} (h : i ≤ j) :
    payloadsBefore blksize file i <+: payloadsBefore blksize file j := by
  induction h with
  | refl => exact List.prefix_rfl
  | step h ih =>
    rw [payloadsBefore_succ]
    exact ih.trans (List.prefix_append _ _)

section BlockSizes

variable {blksize : ℕ} {file : List UInt8} (hb : blksize = 128 ∨ blksize = 1024)
include hb

theorem lt_blockCount {i : ℕ} : i < blockCount blksize file ↔ i * blksize < file.length := by
  unfold blockCount
  rcases hb with rfl | rfl <;> omega

theorem blockPayload_full {i : ℕ} (h : (i + 1) * blksize ≤ file.length) :
    blockPayload blksize file i = (file.drop (i * blksize)).take blksize := by
  have hl : ((file.drop (i * blksize)).take blksize).length = blksize := by
    simp only [List.length_take, List.length_drop]
    rw [Nat.add_mul] at h
    omega
  simp only [blockPayload, hl]
  rcases hb with rfl | rfl <;> simp [blockSize]

theorem payloadsBefore_full {i : ℕ} (h : i * blksize ≤ file.length) :
    payloadsBefore blksize file i = file.take (i * blksize) := by
  induction i with
  | zero => simp
  | succ i ih =>
    have hi : i * blksize ≤ file.length := by rw [Nat.add_mul] at h; omega
    rw [payloadsBefore_succ, ih hi, blockPayload_full hb h, Nat.add_mul, Nat.one_mul, List.take_add]

theorem paddedFile_eq : ∃ pad < 1024, paddedFile blksize file = file ++ List.replicate pad SUB := by
  unfold paddedFile
  rcases Nat.eq_zero_or_pos (blockCount blksize file) with h0 | hpos
  · have hl : file.length = 0 := by
      by_contra hne
      have := (lt_blockCount hb).mpr (show 0 * blksize < file.length by omega)
      omega
    rw [h0, List.length_eq_zero_iff.mp hl]
    exact ⟨0, by omega, rfl⟩
  · obtain ⟨i, hi⟩ : ∃ i, blockCount blksize file = i + 1 := ⟨blockCount blksize file - 1, by omega⟩
    have hlast : i * blksize < file.length := (lt_blockCount hb).mp (by omega)
    have hend : ¬ (i + 1) * blksize < file.length := fun h => by
      have := (lt_blockCount hb).mpr h
      omega
    have hdata : (file.drop (i * blksize)).take blksize = file.drop (i * blksize) := by
      apply List.take_of_length_le
      rw [Nat.add_mul] at hend
      simp only [List.length_drop]
      omega
    have hd : 0 < (file.drop (i * blksize)).length := by simp only [List.length_drop]; omega
    refine ⟨blockSize (file.drop (i * blksize)).length - (file.drop (i * blksize)).length, ?_, ?_⟩
    · unfold blockSize
      split <;> omega
    · rw [hi, payloadsBefore_succ, payloadsBefore_full hb hlast.le, blockPayload, hdata,
        ← List.append_assoc, List.take_append_drop]

theorem paddedFile_length_lt : (paddedFile blksize file).length < file.length + 1024 := by
  obtain ⟨pad, hpad, he⟩ := @paddedFile_eq _ file hb
  rw [he]
  simp only [List.length_append, List.length_replicate]
  omega

end BlockSizes

end LightModem
