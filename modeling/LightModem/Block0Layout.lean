import LightModem.HeaderBlock
import LightModem.YmodemEmission

set_option autoImplicit false

namespace LightModem

open Interaction

section Layout

def block0Named (pThis : ModemContext) : Memory UInt8 :=
  let maxSize := pThis.blkBuffer.maxSize
  let buffer := pThis.blkBuffer.buffer.store 0 (List.replicate maxSize.toNat 0)
  let buffer := (buffer.store 1 [0]).store 2 [~~~0]
  let maxTocopy := (maxSize - 3).toNat
  (strncpy buffer 3 (pThis.fileData.filename.getD (.fresh 0)) maxTocopy).store (3 + maxTocopy) [0]

def block0SizeFilename (pThis : ModemContext) : ℕ :=
  (cString ((block0Named pThis).shift 3) ((pThis.blkBuffer.maxSize - 3).toNat + 1)).length

/-- The difference of `pEndBuffer` and `pStartMetaData`. -/
def block0Left (pThis : ModemContext) : ℤ :=
  pThis.blkBuffer.maxSize.toNat - 3 - (3 + block0SizeFilename pThis + 1 : ℕ)

def block0SnprintfSize (pThis : ModemContext) : ℕ := (block0Left pThis % 2 ^ 64).toNat

def block0Printed (pThis : ModemContext) : Memory UInt8 × ℕ :=
  let n := lymodemNbMetaData pThis.fileData
  if 1 ≤ n ∧ n ≤ 4 then
    snprintf (block0Named pThis) (3 + block0SizeFilename pThis + 1) (block0SnprintfSize pThis)
      (lymodemFormat pThis.fileData n)
  else (block0Named pThis, 0)

def block0EffectiveBlksize (pThis : ModemContext) : ℕ :=
  if 3 + block0SizeFilename pThis + 1 + (block0Printed pThis).2 + 1 < 128 then 128 else 1024

variable {pThis : ModemContext} {source : Memory UInt8} {name : List UInt8}

theorem lymodemBuildAndSendBlock0_named (named : pThis.fileData.isValid lmodemMetadataFilenameValid = true) :
    ∃ header crc pThis', lymodemBuildAndSendBlock0 pThis = .write
        (((((block0Printed pThis).1.store 0 [header]).store (3 + block0EffectiveBlksize pThis)
          [((crc &&& 0xFF00) >>> 8 : UInt16).toUInt8]).store (3 + block0EffectiveBlksize pThis + 1)
          [(crc &&& 0xFF : UInt16).toUInt8]).load 0 (1 + 2 + block0EffectiveBlksize pThis + 2)) (.done pThis') ∧
      pThis'.blkBuffer.buffer = (((block0Printed pThis).1.store 0 [header]).store
        (3 + block0EffectiveBlksize pThis) [((crc &&& 0xFF00) >>> 8).toUInt8]).store
        (3 + block0EffectiveBlksize pThis + 1) [(crc &&& 0xFF).toUInt8] := by
  simp only [lymodemBuildAndSendBlock0, named, ↓reduceIte, putchars_bind]
  exact ⟨_, _, _, rfl, rfl⟩

theorem block0Named_name (filename : pThis.fileData.filename = some source)
    (content : source.Holds 0 (name ++ [0])) (plain : 0 ∉ name) :
    (block0Named pThis).Holds 3 (name.take (pThis.blkBuffer.maxSize - 3).toNat ++ [0]) := by
  rw [block0Named, filename]
  exact strncpy_cut _ plain content 3 _

theorem block0SizeFilename_eq (filename : pThis.fileData.filename = some source)
    (content : source.Holds 0 (name ++ [0])) (plain : 0 ∉ name) :
    block0SizeFilename pThis = (name.take (pThis.blkBuffer.maxSize - 3).toNat).length := by
  have hplain : 0 ∉ name.take (pThis.blkBuffer.maxSize - 3).toNat := fun h => plain (List.mem_of_mem_take h)
  have held : ((block0Named pThis).shift 3).Holds 0 (name.take (pThis.blkBuffer.maxSize - 3).toNat ++ [0]) :=
    Memory.holds_shift.mpr (block0Named_name filename content plain)
  rw [block0SizeFilename, cString_eq held hplain]
  rw [List.length_take]
  omega

theorem block0Printed_name (filename : pThis.fileData.filename = some source)
    (content : source.Holds 0 (name ++ [0])) (plain : 0 ∉ name) :
    (block0Printed pThis).1.Holds 3 (name.take (pThis.blkBuffer.maxSize - 3).toNat ++ [0]) := by
  have held := block0Named_name filename content plain
  have hsize := block0SizeFilename_eq filename content plain
  simp only [block0Printed]
  split
  · rw [snprintf]
    simp only
    split
    · exact held
    · rw [Memory.holds_store_disjoint (Or.inl (by rw [List.length_append, List.length_singleton]; omega))]
      exact held
  · exact held

theorem block0Named_extent (line : 3 ≤ pThis.blkBuffer.maxSize.toNat) :
    pThis.blkBuffer.maxSize.toNat < (block0Named pThis).extent := by
  have hmax : (pThis.blkBuffer.maxSize - 3).toNat = pThis.blkBuffer.maxSize.toNat - 3 :=
    toNat_sub_of_le line
  rw [block0Named, Memory.store_extent, hmax, if_neg (by simp)]
  simp only [List.length_singleton]
  omega

theorem block0Printed_extent (pThis : ModemContext) :
    (block0Named pThis).extent ≤ (block0Printed pThis).1.extent := by
  simp only [block0Printed]
  split
  · rw [snprintf]
    simp only
    split
    · exact Nat.le_refl _
    · exact Memory.extent_le_store _ _ _
  · exact Nat.le_refl _

theorem zero_mem_load {m : Memory UInt8} {p : ℕ} {s : List UInt8} (h : m.Holds p (s ++ [0])) (plain : 0 ∉ s)
    (k : ℕ) : 0 ∈ m.load p k ↔ s.length < k := by
  constructor
  · intro hmem
    by_contra hle
    obtain ⟨held, _⟩ := Memory.holds_append.mp h
    rw [← Memory.load_take m (show k ≤ s.length by omega), held] at hmem
    exact plain (List.mem_of_mem_take hmem)
  · intro hlt
    obtain ⟨j, rfl⟩ := Nat.exists_eq_add_of_le (show (s ++ [0]).length ≤ k by simpa using hlt)
    rw [Memory.load_add, h]
    simp

theorem load_completed (m : Memory UInt8) (header hi lo : UInt8) (k : ℕ) :
    (((((m.store 0 [header]).store (3 + k) [hi]).store (3 + k + 1) [lo]).load 0 (1 + 2 + k + 2)).drop 3).take
        (1 + 2 + k + 2 - 5) = m.load 3 k := by
  rw [Memory.load_drop _ (by omega), Memory.load_take _ (by omega), show 1 + 2 + k + 2 - 5 = k by omega,
    Memory.load_store_disjoint _ (Or.inl (by omega)), Memory.load_store_disjoint _ (Or.inl (by omega)),
    Memory.load_store_disjoint _ (Or.inr (by simp))]

end Layout

/-- Exactly when no name is given, block 0 is built inside the line buffer, the size given to `snprintf`
is what is left, and the name in the frame is ended. The size is right when the name leaves room for the
rest or nothing is printed, and the name is ended when it is shorter than a block. -/
theorem lymodemBuildAndSendBlock0_inside_iff (pThis : ModemContext) (source : Memory UInt8) (name : List UInt8)
    (filename : pThis.fileData.filename = some source) (content : source.Holds 0 (name ++ [0]))
    (plain : 0 ∉ name) (line : lymodemBufferMinSize ≤ pThis.blkBuffer.maxSize.toNat)
    (fresh : pThis.blkBuffer.buffer.extent ≤ pThis.blkBuffer.maxSize.toNat) (o : Peer UInt8)
    {t : List (Event UInt8)} {pThis' : ModemContext}
    (hr : (lymodemBuildAndSendBlock0 pThis).run o 0 = (t, some pThis')) :
    (pThis'.blkBuffer.buffer.extent ≤ pThis.blkBuffer.maxSize.toNat ∧
      (pThis.fileData.isValid lmodemMetadataFilenameValid = true → 1 ≤ lymodemNbMetaData pThis.fileData →
        (block0SnprintfSize pThis : ℤ) = block0Left pThis) ∧
      (∀ frame ∈ writes t, 0 ∈ (frame.drop 3).take (frame.length - 5)) ↔
        pThis.fileData.isValid lmodemMetadataFilenameValid = false) ∧
    ((block0SnprintfSize pThis : ℤ) = block0Left pThis ↔ name.length + 7 ≤ pThis.blkBuffer.maxSize.toNat) ∧
    ((∀ frame ∈ writes t, 0 ∈ (frame.drop 3).take (frame.length - 5)) ↔
      pThis.fileData.isValid lmodemMetadataFilenameValid = false ∨ name.length < 1024) := by
  have hlt := pThis.blkBuffer.maxSize.toNat_lt
  have line' : 1029 ≤ pThis.blkBuffer.maxSize.toNat := line
  have hmax : (pThis.blkBuffer.maxSize - 3).toNat = pThis.blkBuffer.maxSize.toNat - 3 :=
    toNat_sub_of_le (Nat.le_trans (by decide) line)
  have hsize := block0SizeFilename_eq filename content plain
  have left : (block0SnprintfSize pThis : ℤ) = block0Left pThis ↔
      name.length + 7 ≤ pThis.blkBuffer.maxSize.toNat := by
    rw [block0SnprintfSize, block0Left, hsize, hmax, List.length_take]
    omega
  cases named : pThis.fileData.isValid lmodemMetadataFilenameValid with
  | false =>
    simp only [lymodemBuildAndSendBlock0, named, Bool.false_eq_true, ↓reduceIte] at hr
    obtain ⟨rfl, hr⟩ := Prod.mk.inj hr
    cases hr
    refine ⟨iff_of_true ⟨?_, by simp, by simp⟩ rfl, left, iff_of_true (by simp) (Or.inl rfl)⟩
    rw [Memory.store_extent_le _ (by omega), Memory.store_extent_le _ (by omega),
      Memory.store_extent_le _ (by omega)]
    simp only [List.length_replicate, List.length_singleton]
    omega
  | true =>
    obtain ⟨header, crc, p, hbuild, hbuffer⟩ := lymodemBuildAndSendBlock0_named named
    rw [hbuild] at hr
    obtain ⟨rfl, hr⟩ := Prod.mk.inj hr
    cases hr
    have outside : ¬ pThis'.blkBuffer.buffer.extent ≤ pThis.blkBuffer.maxSize.toNat := by
      have hnamed := block0Named_extent (Nat.le_trans (by decide) line)
      have hprinted := block0Printed_extent pThis
      rw [hbuffer]
      intro hle
      have h₁ := (Memory.extent_le_store _ _ _).trans hle
      have h₂ := (Memory.extent_le_store _ _ _).trans h₁
      have h₃ := (Memory.extent_le_store _ _ _).trans h₂
      omega
    have terminated : 0 ∈ (block0Printed pThis).1.load 3 (block0EffectiveBlksize pThis) ↔
        name.length < 1024 := by
      rw [zero_mem_load (block0Printed_name filename content plain) fun h => plain (List.mem_of_mem_take h),
        block0EffectiveBlksize, hsize, hmax, List.length_take]
      split <;> omega
    refine ⟨iff_of_false (fun h => outside h.1) (by simp), left, ?_⟩
    simp only [Program.run_done, writes_sent, writes_nil, List.mem_singleton, forall_eq, Memory.load_length,
      load_completed, terminated]
    simp

theorem lymodemBuildAndSendBlock0_inside_unnamed :
    ∃ pThis', ((lymodemBuildAndSendBlock0 { ymodemSender [7] with
        fileData := { (ymodemSender [7]).fileData with valid := 0 } }).run (.scripted []) 0) = ([], some pThis') ∧
      pThis'.blkBuffer.buffer.extent ≤ 1029 := by
  obtain ⟨pThis', h⟩ : ∃ pThis', ((lymodemBuildAndSendBlock0 { ymodemSender [7] with
      fileData := { (ymodemSender [7]).fileData with valid := 0 } }).run (.scripted []) 0) = ([], some pThis') :=
    ⟨_, rfl⟩
  have inside := lymodemBuildAndSendBlock0_inside_iff { ymodemSender [7] with
    fileData := { (ymodemSender [7]).fileData with valid := 0 } } _ [97] rfl (by decide) (by decide)
    (by decide) (by decide) (.scripted []) h
  exact ⟨pThis', h, (inside.1.mpr (by decide)).1⟩

theorem lymodemBuildAndSendBlock0_outside :
    (ymodemSender [7]).blkBuffer.maxSize = 1029 ∧
      (((lymodemBuildAndSendBlock0 (ymodemSender [7])).run (.scripted []) 0).2.map
        fun pThis => pThis.blkBuffer.buffer.extent) = some 1030 := by
  decide +kernel

end LightModem
