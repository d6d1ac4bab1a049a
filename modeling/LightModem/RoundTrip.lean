import LightModem.HeaderBlock

set_option autoImplicit false

namespace LightModem

open Interaction

def metadataMask (n : ℕ) : UInt32 :=
  ([lmodemMetadataFilesizeValid, lmodemMetadataModifdateValid, lmodemMetadataPermissionValid,
    lmodemMetadataSerialValid].take n).foldl (· ||| ·) lmodemMetadataFilenameValid

section Fields

variable {d d' : LmodemFileCharacteristics} {n : ℕ}

theorem isValid_metadataMask (h : d.valid = metadataMask n) (hn : n ≤ 4) :
    d.isValid lmodemMetadataFilenameValid = true ∧ lymodemNbMetaData d = n := by
  simp only [lymodemNbMetaData, LmodemFileCharacteristics.isValid, h]
  interval_cases n <;> decide

theorem permission_roundTrip (p : UInt16) :
    (p ||| 0x8000).toUInt32.toUInt16 &&& ~~~0x8000 = p &&& ~~~0x8000 := by
  rw [UInt16.toUInt16_toUInt32]
  apply UInt16.toBitVec_inj.mp
  ext i hi
  simp only [UInt16.toBitVec_and, UInt16.toBitVec_or, UInt16.toBitVec_not, BitVec.getElem_and,
    BitVec.getElem_or, BitVec.getElem_not]
  cases (UInt16.toBitVec 0x8000)[i] <;> simp

theorem setFields_fields_mask (h : lymodemNbMetaData d = n) (hn : n ≤ 4)
    (hd : d'.valid = lmodemMetadataFilenameValid) :
    (setFields d' 0 d.fields).valid = metadataMask n ∧
      (1 ≤ n → (setFields d' 0 d.fields).size = d.size) ∧
      (2 ≤ n → (setFields d' 0 d.fields).modifDate = d.modifDate) ∧
      (3 ≤ n → (setFields d' 0 d.fields).permission = d.permission &&& ~~~0x8000) ∧
      (4 ≤ n → (setFields d' 0 d.fields).serialNumber = d.serialNumber) := by
  have permission := permission_roundTrip d.permission
  rw [LmodemFileCharacteristics.fields, h]
  interval_cases n
  · simp [setFields, metadataMask, hd]
  · simp [setFields, lymodemSetField, metadataMask, hd]
  · simp [setFields, lymodemSetField, metadataMask, hd]
  · simpa [setFields, lymodemSetField, metadataMask, hd] using permission
  · simpa [setFields, lymodemSetField, metadataMask, hd] using permission

theorem setFields_filename (d : LmodemFileCharacteristics) (nbFields : ℕ)
    (fields : List (List UInt8 × UInt32)) : (setFields d nbFields fields).filename = d.filename := by
  induction fields generalizing d nbFields with
  | nil => rfl
  | cons field fields ih =>
    rw [setFields, ih]
    rcases nbFields with _ | _ | _ | _ | _ <;> rfl

end Fields

theorem lymodemDecodeBlock0_built {sender receiver : ModemContext} {source dest : Memory UInt8} {name : List UInt8}
    (named : sender.fileData.isValid lmodemMetadataFilenameValid = true)
    (printed : 1 ≤ lymodemNbMetaData sender.fileData) (given : sender.fileData.filename = some source)
    (content : source.Holds 0 (name ++ [0])) (nonempty : name ≠ []) (plain : 0 ∉ name)
    (fits : (name ++ 0 :: metadataText sender.fileData.fields).length ≤ 1022)
    (senderLine : lymodemBufferMinSize ≤ sender.blkBuffer.maxSize.toNat)
    (filename : receiver.fileData.filename = some dest)
    (room : name.length < receiver.fileData.filenameSize.toNat)
    (receiverLine : lymodemBufferMinSize ≤ receiver.blkBuffer.maxSize.toNat) :
    ∃ (sender' : ModemContext) (buffer dest' : Memory UInt8),
      let payload := block0Payload name sender.fileData.fields
      let body := frameBody sender.crc16 true 0 payload
      lymodemBuildAndSendBlock0 sender = .write (frameHeader payload :: body) (.done sender') ∧
      cString dest' receiver.fileData.filenameSize.toNat = name ∧
      lymodemDecodeBlock0 (receiver.fill body) =
        ((receiver.fill body).withMetadata buffer dest' sender.fileData.fields, true) := by
  have line : 1029 ≤ receiver.blkBuffer.maxSize.toNat := receiverLine
  have text := metadataText_length sender.fileData
  obtain ⟨sender', build, _⟩ := lymodemBuildAndSendBlock0_eq named printed given content plain fits senderLine
  obtain ⟨text', fields, hfields⟩ := fields_eq_cons printed
  obtain ⟨buffer, dest', string, decoded⟩ := @lymodemDecodeBlock0_text
    (receiver.fill (frameBody sender.crc16 true 0 (block0Payload name sender.fileData.fields))) name
    sender.fileData.fields dest filename nonempty plain room (metadataFields_fields _)
    (by rw [hfields]; simp) (fields_length_le _)
    (holds_block0 receiver.blkBuffer.buffer sender.crc16 fits)
    (show _ < receiver.blkBuffer.maxSize.toNat by omega)
  exact ⟨sender', buffer, dest', build, string, decoded⟩

theorem lymodemDecodeBlock0_roundTrip (sender receiver : ModemContext) (source dest : Memory UInt8)
    (name : List UInt8) (n : ℕ) (hpos : 1 ≤ n) (hn : n ≤ 4)
    (given : sender.fileData.filename = some source) (content : source.Holds 0 (name ++ [0]))
    (nonempty : name ≠ []) (plain : 0 ∉ name) (length : name.length ≤ 979)
    (mask : sender.fileData.valid = metadataMask n)
    (senderLine : lymodemBufferMinSize ≤ sender.blkBuffer.maxSize.toNat)
    (protocol : receiver.protocol = .ymodem) (crc16 : receiver.crc16 = sender.crc16)
    (filename : receiver.fileData.filename = some dest)
    (room : name.length < receiver.fileData.filenameSize.toNat)
    (receiverLine : lymodemBufferMinSize ≤ receiver.blkBuffer.maxSize.toNat) :
    ∃ (header : UInt8) (blksize : ℕ) (body : List UInt8) (sender' receiver' : ModemContext)
        (dest' : Memory UInt8),
      lymodemBuildAndSendBlock0 sender = .write (header :: body) (.done sender') ∧
      (header = SOH ∧ blksize = 128 ∨ header = STX ∧ blksize = 1024) ∧ body.length = 2 + blksize + 2 ∧
      lxmodemCheckBlockNoAndCrc (receiver.fill body) 0 blksize = .recvOk ∧
      lymodemDecodeBlock0 (receiver.fill body) = (receiver', true) ∧
      receiver'.fileData.filename = some dest' ∧
      cString dest' receiver.fileData.filenameSize.toNat = name ∧
      receiver'.fileData.valid = sender.fileData.valid ∧
      receiver'.fileData.size = sender.fileData.size ∧
      (2 ≤ n → receiver'.fileData.modifDate = sender.fileData.modifDate) ∧
      (3 ≤ n → receiver'.fileData.permission = sender.fileData.permission &&& ~~~0x8000) ∧
      (4 ≤ n → receiver'.fileData.serialNumber = sender.fileData.serialNumber) := by
  obtain ⟨named, count⟩ := isValid_metadataMask mask hn
  have printed : 1 ≤ lymodemNbMetaData sender.fileData := by rw [count]; exact hpos
  have fits := block0_fits length sender.fileData
  obtain ⟨sender', buffer, dest', build, string, decoded⟩ := lymodemDecodeBlock0_built named printed given content
    nonempty plain fits senderLine filename room receiverLine
  obtain ⟨blksize, hblksize⟩ : ∃ blksize, (block0Payload name sender.fileData.fields).length = blksize :=
    ⟨_, rfl⟩
  have kind : frameHeader (block0Payload name sender.fileData.fields) = SOH ∧ blksize = 128 ∨
      frameHeader (block0Payload name sender.fileData.fields) = STX ∧ blksize = 1024 := by
    rw [frameHeader, hblksize, ← hblksize, block0Payload_length fits, block0Size]
    split <;> simp
  have hcrc : lxmodemBlockHasCrc receiver blksize = true := by simp [lxmodemBlockHasCrc, protocol]
  have size : (frameBody receiver.crc16 true 0 (block0Payload name sender.fileData.fields)).length =
      bodySize receiver blksize := by
    rw [frameBody_length, hblksize, bodySize, hcrc]
    omega
  rw [← crc16] at build decoded
  obtain ⟨valid, hsize, modifDate, permission, serial⟩ := @setFields_fields_mask sender.fileData
    { lmodemMetadataClean (receiver.fill (frameBody receiver.crc16 true 0
        (block0Payload name sender.fileData.fields))).fileData with
      filename := some dest', valid := lmodemMetadataFilenameValid } n count hn rfl
  refine ⟨_, blksize, _, sender', _, dest', build, kind, ?_, ?_, decoded, ?_, string, ?_, hsize hpos, modifDate,
    permission, serial⟩
  · rw [size, bodySize, hcrc, checkSize, if_pos rfl]
    omega
  · exact (lxmodemCheckBlockNoAndCrc_ok receiver 0 size).mpr ⟨_, hblksize, by rw [hcrc]⟩
  · exact setFields_filename _ _ _
  · rw [mask]
    exact valid

def namedSender : ModemContext :=
  let pThis := lmodemSetFilenameBuffer (lmodemSetLineBuffer (lmodemInit .lxmodem1k) (.fresh 0) 1029).1 (.fresh 0) 16
  lmodemMetadataSetFilesize (lmodemMetadataSetFilename pThis (.holding [49, 32, 50] 0)) 0xFFFFFFFE

theorem lymodemDecodeBlock0_roundTrip_negative :
    ∃ body receiver', lymodemDecodeBlock0 ({ namedSender with protocol := .ymodem }.fill body) =
        (receiver', true) ∧ receiver'.fileData.size = 0xFFFFFFFE := by
  obtain ⟨dest, hdest⟩ : ∃ dest, namedSender.fileData.filename = some dest := ⟨_, rfl⟩
  obtain ⟨_, _, body, _, receiver', _, _, _, _, _, decoded, _, _, _, size, _⟩ :=
    lymodemDecodeBlock0_roundTrip namedSender { namedSender with protocol := .ymodem } dest dest [49, 32, 50] 1
      (by decide) (by decide) hdest (by cases hdest; decide) (by decide) (by decide) (by decide) (by decide)
      (by decide) rfl rfl hdest (by decide) (by decide)
  exact ⟨body, receiver', decoded, size⟩

end LightModem
