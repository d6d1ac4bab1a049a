import LightModem.Metadata

set_option autoImplicit false

namespace LightModem

open Interaction

def block0Size (n : ℕ) : ℕ := if 3 + n + 1 < 128 then 128 else 1024

def block0Payload (name : List UInt8) (fields : List (List UInt8 × UInt32)) : List UInt8 :=
  (name ++ 0 :: metadataText fields) ++ List.replicate (block0Size (name ++ 0 :: metadataText fields).length -
    (name ++ 0 :: metadataText fields).length) 0

section Build

variable {m : Memory UInt8} {pThis : ModemContext}

theorem load_headerBlock {header : UInt8} {payload : List UInt8}
    (h : m.Holds 0 (header :: 0 :: ~~~0 :: payload)) (crc16 : Crc16Context) :
    ((m.store (3 + payload.length)
        [((crc16DoCalcul crc16 (m.load 3 payload.length) 0 0 &&& 0xFF00) >>> 8).toUInt8]).store
      (3 + payload.length + 1)
        [(crc16DoCalcul crc16 (m.load 3 payload.length) 0 0 &&& 0xFF).toUInt8]).load 0
      (1 + 2 + payload.length + 2) = header :: frameBody crc16 true 0 payload := by
  have payloads : m.load 3 payload.length = payload :=
    ((Memory.holds_cons.mp (Memory.holds_cons.mp (Memory.holds_cons.mp h).2).2).2)
  have stored (hi lo : UInt8) : (m.store (3 + payload.length) [hi]).store (3 + payload.length + 1) [lo] =
      m.store (3 + payload.length) [hi, lo] := m.store_append _ [hi] [lo]
  rw [payloads, stored]
  have before : (header :: 0 :: ~~~0 :: payload).length = 3 + payload.length := by
    simp only [List.length_cons]
    omega
  have whole (check : List UInt8) :
      (m.store (3 + payload.length) check).Holds 0 ((header :: 0 :: ~~~0 :: payload) ++ check) := by
    rw [Memory.holds_append, before, Nat.zero_add]
    exact ⟨(Memory.holds_store_disjoint (Or.inl (by rw [before, Nat.zero_add]))).mpr h,
      Memory.holds_store _ _ _⟩
  have result := whole (checkBytes crc16 true payload)
  rw [Memory.Holds, List.length_append, before, checkBytes_length] at result
  have size : 1 + 2 + payload.length + 2 = 3 + payload.length + checkSize true := by
    rw [checkSize, if_pos rfl]
  rw [size]
  exact result

theorem holds_replicate {a : UInt8} {p n q k : ℕ} (h : m.Holds p (List.replicate n a)) (hp : p ≤ q)
    (hq : q + k ≤ p + n) : m.Holds q (List.replicate k a) := by
  obtain ⟨i, rfl⟩ := Nat.exists_eq_add_of_le hp
  obtain ⟨j, rfl⟩ := Nat.exists_eq_add_of_le (show i + k ≤ n by omega)
  rw [List.replicate_add, List.replicate_add, Memory.holds_append, Memory.holds_append] at h
  simpa using h.1.2

def endOfBatch (crc16 : Crc16Context) : List UInt8 := dataFrame crc16 true 0 (List.replicate 128 0)

theorem holds_headerBlock {payload : List UInt8} (h : m.Holds 3 payload) (header : UInt8) :
    (((m.store 0 [header]).store 1 [0]).store 2 [~~~0]).Holds 0 (header :: 0 :: ~~~0 :: payload) := by
  have first : (m.store 0 [header]).store 1 [0] = m.store 0 [header, 0] := m.store_append 0 [header] [0]
  have second : (m.store 0 [header, 0]).store 2 [~~~0] = m.store 0 [header, 0, ~~~0] :=
    m.store_append 0 [header, 0] [~~~0]
  have parts : header :: 0 :: ~~~0 :: payload = [header, 0, ~~~0] ++ payload := rfl
  rw [first, second, parts, Memory.holds_append]
  exact ⟨Memory.holds_store _ _ _, (Memory.holds_store_disjoint (Or.inr (Nat.le_refl _))).mpr h⟩

theorem lymodemSendEndOfBach_eq (size : 131 ≤ pThis.blkBuffer.maxSize.toNat) :
    ∃ pThis', lymodemSendEndOfBach pThis = .write (endOfBatch pThis.crc16) (.done pThis') ∧
      SameSetup pThis pThis' ∧ pThis'.ramfile = pThis.ramfile := by
  have zeros := Memory.holds_store pThis.blkBuffer.buffer 0 (List.replicate pThis.blkBuffer.maxSize.toNat 0)
  have payload := @holds_replicate _ _ _ _ 3 128 zeros (Nat.zero_le _) (by omega)
  have frame := load_headerBlock (holds_headerBlock payload SOH) pThis.crc16
  have header : endOfBatch pThis.crc16 = SOH :: frameBody pThis.crc16 true 0 (List.replicate 128 0) := by
    rw [endOfBatch, dataFrame, frameHeader, List.length_replicate, if_pos (Nat.le_refl _)]
  rw [List.length_replicate, ← header] at frame
  rw [lymodemSendEndOfBach]
  simp only [putchars_bind, frame]
  exact ⟨_, rfl, ⟨rfl, rfl, rfl, rfl, rfl, rfl⟩, rfl⟩

theorem strncpy_name {b source : Memory UInt8} {name : List UInt8} (plain : 0 ∉ name)
    (content : source.Holds 0 (name ++ [0])) {n : ℕ} (hn : name.length < n) :
    ((strncpy b 3 source n).store (3 + n) [0]).Holds 3 (name ++ List.replicate (n + 1 - name.length) 0) := by
  have copied : cString source n = name := cString_eq content plain hn
  rw [strncpy_ended, copied]
  exact Memory.holds_store _ _ _

theorem snprintf_text {b : Memory UInt8} {name text : List UInt8} {k size : ℕ}
    (content : b.Holds 3 (name ++ List.replicate k 0)) (fits : text.length < size)
    (room : size < k) :
    (snprintf b (3 + name.length + 1) size text).1.Holds 3
      (name ++ 0 :: (text ++ List.replicate (k - 1 - text.length) 0)) := by
  have stored : (snprintf b (3 + name.length + 1) size text).1 =
      b.store (3 + name.length + 1) (text ++ [0]) := by
    rw [snprintf]
    simp only
    rw [if_neg (by omega), List.take_of_length_le (by omega)]
  obtain ⟨hname, hzeros⟩ := Memory.holds_append.mp content
  have hzero := @holds_replicate _ _ _ _ (3 + name.length) 1 hzeros (Nat.le_refl _) (by omega)
  have htext := Memory.holds_append.mp (Memory.holds_store b (3 + name.length + 1) (text ++ [0]))
  have hrest := @holds_replicate _ _ _ _ (3 + name.length + 1 + text.length + 1) (k - 1 - text.length - 1)
    hzeros (by omega) (by omega)
  have parts : List.replicate (k - 1 - text.length) (0 : UInt8) =
      [0] ++ List.replicate (k - 1 - text.length - 1) 0 := by
    rw [← List.replicate_one, ← List.replicate_add]
    congr 1
    omega
  rw [stored, parts, Memory.holds_append, Memory.holds_cons, Memory.holds_append, Memory.holds_append]
  refine ⟨(Memory.holds_store_disjoint (Or.inl (by omega))).mpr hname, ?_, htext.1, htext.2, ?_⟩
  · rw [Memory.store_of_lt _ (by omega)]
    exact (Memory.holds_cons.mp hzero).1
  · rw [Memory.holds_store_disjoint (Or.inr (by simp; omega))]
    exact hrest

theorem block0_fits {name : List UInt8} (length : name.length ≤ 979) (d : LmodemFileCharacteristics) :
    (name ++ 0 :: metadataText d.fields).length ≤ 1022 := by
  have text := metadataText_length d
  rw [List.length_append, List.length_cons]
  omega

theorem block0Size_pos {n : ℕ} (h : n ≤ 1022) : n + 2 ≤ block0Size n := by
  unfold block0Size
  split <;> omega

theorem block0Payload_length {name : List UInt8} {fields : List (List UInt8 × UInt32)}
    (h : (name ++ 0 :: metadataText fields).length ≤ 1022) :
    (block0Payload name fields).length = block0Size (name ++ 0 :: metadataText fields).length := by
  have := block0Size_pos h
  rw [block0Payload, List.length_append, List.length_replicate]
  omega

def block0Buffer (buffer source : Memory UInt8) (maxSize : ℕ) (name text : List UInt8) : Memory UInt8 :=
  (snprintf ((strncpy (((buffer.store 0 (List.replicate maxSize 0)).store 1 [0]).store 2 [~~~0]) 3 source
    (maxSize - 3)).store (3 + (maxSize - 3)) [0]) (3 + name.length + 1) (maxSize - 7 - name.length) text).1

section Block0Buffer

variable {buffer source : Memory UInt8} {maxSize : ℕ} {name text : List UInt8}

theorem block0Buffer_number (fits : name.length + text.length ≤ 1021) (line : 1029 ≤ maxSize) :
    (block0Buffer buffer source maxSize name text).Holds 1 [0, ~~~0] := by
  have stored : ((buffer.store 0 (List.replicate maxSize 0)).store 1 [0]).store 2 [~~~0] =
      (buffer.store 0 (List.replicate maxSize 0)).store 1 [0, ~~~0] := Memory.store_append _ 1 [0] [~~~0]
  rw [block0Buffer, stored, snprintf]
  simp only
  rw [if_neg (by omega), strncpy, Memory.holds_store_disjoint (Or.inl (by simp; omega)),
    Memory.holds_store_disjoint (Or.inl (by simp)), Memory.holds_store_disjoint (Or.inl (by simp))]
  exact Memory.holds_store _ _ _

theorem block0Buffer_payload (plain : 0 ∉ name) (content : source.Holds 0 (name ++ [0]))
    (fits : name.length + text.length ≤ 1021) (line : 1029 ≤ maxSize) :
    (block0Buffer buffer source maxSize name text).Holds 3
      (name ++ 0 :: (text ++ List.replicate (maxSize - 2 - name.length - 1 - text.length) 0)) := by
  have named := @strncpy_name (((buffer.store 0 (List.replicate maxSize 0)).store 1 [0]).store 2 [~~~0]) _ _
    plain content (maxSize - 3) (by omega)
  rw [show maxSize - 3 + 1 - name.length = maxSize - 2 - name.length by omega] at named
  exact snprintf_text named (by omega) (by omega)

end Block0Buffer

theorem lymodemBuildAndSendBlock0_eq {source : Memory UInt8} {name : List UInt8}
    (named : pThis.fileData.isValid lmodemMetadataFilenameValid = true)
    (printed : 1 ≤ lymodemNbMetaData pThis.fileData)
    (filename : pThis.fileData.filename = some source) (content : source.Holds 0 (name ++ [0]))
    (plain : 0 ∉ name) (fits : (name ++ 0 :: metadataText pThis.fileData.fields).length ≤ 1022)
    (line : 1029 ≤ pThis.blkBuffer.maxSize.toNat) :
    ∃ pThis', lymodemBuildAndSendBlock0 pThis =
        .write (dataFrame pThis.crc16 true 0 (block0Payload name pThis.fileData.fields)) (.done pThis') ∧
      SameSetup pThis pThis' ∧ pThis'.ramfile = pThis.ramfile := by
  have hmax : (pThis.blkBuffer.maxSize - 3).toNat = pThis.blkBuffer.maxSize.toNat - 3 :=
    toNat_sub_of_le (show 3 ≤ _ by omega)
  have hlt := pThis.blkBuffer.maxSize.toNat_lt
  have room : name.length + (metadataText pThis.fileData.fields).length ≤ 1021 := by
    rw [List.length_append, List.length_cons] at fits
    omega
  have format := lymodemFormat_eq pThis.fileData
  have count := lymodemNbMetaData_le pThis.fileData
  have string (b : Memory UInt8) : cString (((strncpy b 3 source (pThis.blkBuffer.maxSize.toNat - 3)).store
      (3 + (pThis.blkBuffer.maxSize.toNat - 3)) [0]).shift 3) (pThis.blkBuffer.maxSize.toNat - 3 + 1) = name := by
    have copied := @strncpy_name b _ _ plain content (pThis.blkBuffer.maxSize.toNat - 3) (by omega)
    obtain ⟨k, hk⟩ : ∃ k, pThis.blkBuffer.maxSize.toNat - 3 + 1 - name.length = k + 1 :=
      ⟨pThis.blkBuffer.maxSize.toNat - 3 - name.length, by omega⟩
    rw [hk, List.replicate_succ, List.append_cons] at copied
    exact cString_eq (Memory.holds_shift.mpr (Memory.holds_append.mp copied).1) plain (by omega)
  have left : ((((pThis.blkBuffer.maxSize.toNat : ℤ) - 3) - ((3 + name.length + 1 : ℕ) : ℤ)) % 2 ^ 64).toNat =
      pThis.blkBuffer.maxSize.toNat - 7 - name.length := by omega
  have written (b : Memory UInt8) (offset n : ℕ) (text : List UInt8) :
      (snprintf b offset n text).2 = text.length := rfl
  obtain ⟨b, hb⟩ : ∃ b, b = block0Buffer pThis.blkBuffer.buffer source pThis.blkBuffer.maxSize.toNat name
    (metadataText pThis.fileData.fields) := ⟨_, rfl⟩
  have number : b.Holds 1 [0, ~~~0] := hb ▸ block0Buffer_number room line
  have whole : b.Holds 3 _ := hb ▸ block0Buffer_payload plain content room line
  have total : 3 + name.length + 1 + (metadataText pThis.fileData.fields).length + 1 =
      3 + (name ++ 0 :: metadataText pThis.fileData.fields).length + 1 := by
    rw [List.length_append, List.length_cons]
    omega
  have hlen := block0Payload_length fits
  have hsize := hlen.symm
  have hheader : (if 3 + (name ++ 0 :: metadataText pThis.fileData.fields).length + 1 < 128 then SOH
      else STX) = frameHeader (block0Payload name pThis.fileData.fields) := by
    rw [frameHeader, hlen, block0Size]
    split <;> rfl
  rw [block0Size] at hsize
  have payload : b.Holds 3 (block0Payload name pThis.fileData.fields) := by
    rw [List.append_cons, ← List.append_assoc, ← List.append_cons, Memory.holds_append] at whole
    rw [block0Payload, Memory.holds_append]
    refine ⟨whole.1, holds_replicate whole.2 (Nat.le_refl _) ?_⟩
    have : block0Size (name ++ 0 :: metadataText pThis.fileData.fields).length ≤ 1024 := by
      unfold block0Size
      split <;> omega
    omega
  have frame : (b.store 0 [frameHeader (block0Payload name pThis.fileData.fields)]).Holds 0
      (frameHeader (block0Payload name pThis.fileData.fields) :: 0 :: ~~~0 ::
        block0Payload name pThis.fileData.fields) := by
    have parts : frameHeader (block0Payload name pThis.fileData.fields) :: 0 :: ~~~0 ::
        block0Payload name pThis.fileData.fields =
        [frameHeader (block0Payload name pThis.fileData.fields)] ++ ([0, ~~~0] ++
          block0Payload name pThis.fileData.fields) := rfl
    rw [parts, Memory.holds_append, Memory.holds_append]
    exact ⟨Memory.holds_store _ _ _, (Memory.holds_store_disjoint (Or.inr (Nat.le_refl _))).mpr number,
      (Memory.holds_store_disjoint (Or.inr (by simp))).mpr payload⟩
  have sent := load_headerBlock frame pThis.crc16
  rw [block0Buffer] at hb
  simp only [lymodemBuildAndSendBlock0, named, ↓reduceIte, filename, Option.getD_some, hmax, string, printed, count,
    and_self, left, format, written, ← hb, total, hsize, hheader,
    putchars_bind, sent]
  exact ⟨_, rfl, ⟨rfl, rfl, rfl, rfl, rfl, rfl⟩, rfl⟩

theorem holds_block0 (m : Memory UInt8) (crc16 : Crc16Context) {name : List UInt8}
    {fields : List (List UInt8 × UInt32)} (h : (name ++ 0 :: metadataText fields).length ≤ 1022) :
    (m.store 0 (frameBody crc16 true 0 (block0Payload name fields))).Holds 2
      (name ++ 0 :: (metadataText fields ++ [0, 0])) := by
  have stored := Memory.holds_store m 0 (frameBody crc16 true 0 (block0Payload name fields))
  rw [frameBody, Memory.holds_cons, Memory.holds_cons, Memory.holds_append] at stored
  have payload := stored.2.2.1
  have hsize := block0Size_pos h
  rw [block0Payload, Memory.holds_append] at payload
  rw [← List.cons_append, ← List.append_assoc, Memory.holds_append]
  exact ⟨payload.1, @holds_replicate _ _ _ _ _ 2 payload.2 (Nat.le_refl _) (by omega)⟩

end Build

end LightModem
