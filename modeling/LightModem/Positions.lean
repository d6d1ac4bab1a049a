import LightModem.Block0Layout
import LightModem.Grammar

set_option autoImplicit false

namespace LightModem

open Interaction

/-- What is valid at a receiver has been set at the sender, and has its value; the bit `0x8000` of the
permission aside. -/
@[mk_iff] structure OnlySet (sender receiver : LmodemFileCharacteristics) : Prop where
  included : sender.isValid receiver.valid = true
  size : receiver.isValid lmodemMetadataFilesizeValid = true → receiver.size = sender.size
  modifDate : receiver.isValid lmodemMetadataModifdateValid = true → receiver.modifDate = sender.modifDate
  permission : receiver.isValid lmodemMetadataPermissionValid = true →
    receiver.permission &&& ~~~0x8000 = sender.permission &&& ~~~0x8000
  serialNumber : receiver.isValid lmodemMetadataSerialValid = true → receiver.serialNumber = sender.serialNumber

def LmodemFileCharacteristics.keptNumbers (d : LmodemFileCharacteristics) : List UInt32 :=
  [d.size, d.modifDate, keptPermission d.permission.toUInt32, d.serialNumber]

section Fields

variable {d d' : LmodemFileCharacteristics} {fields : List (List UInt8 × UInt32)}

theorem isValid_metadataMask_flags {n : ℕ} (hn : n ≤ 4) (h : d.valid = metadataMask n) :
    (d.isValid lmodemMetadataFilesizeValid = true ↔ 1 ≤ n) ∧
      (d.isValid lmodemMetadataModifdateValid = true ↔ 2 ≤ n) ∧
      (d.isValid lmodemMetadataPermissionValid = true ↔ 3 ≤ n) ∧
      (d.isValid lmodemMetadataSerialValid = true ↔ 4 ≤ n) := by
  simp only [LmodemFileCharacteristics.isValid, h]
  interval_cases n <;> decide

theorem keptPermission_inj {v w : UInt32} :
    keptPermission v = keptPermission w ↔ v.toUInt16 &&& ~~~0x8000 = w.toUInt16 &&& ~~~0x8000 := by
  constructor
  · intro h
    have h16 := congrArg UInt32.toUInt16 h
    rwa [keptPermission, keptPermission, UInt16.toUInt16_toUInt32, UInt16.toUInt16_toUInt32] at h16
  · intro h
    rw [keptPermission, keptPermission, h]

theorem keptPermission_iff {v : UInt32} {p : UInt16} :
    (v.toUInt16 &&& ~~~0x8000) &&& ~~~0x8000 = p &&& ~~~0x8000 ↔ keptPermission v = keptPermission p.toUInt32 := by
  rw [keptPermission_inj, UInt16.and_assoc, UInt16.and_self, UInt16.toUInt16_toUInt32]

theorem onlySet_setFields_iff (hd : d'.valid = lmodemMetadataFilenameValid) (hlen : fields.length ≤ 4) :
    OnlySet d (setFields d' 0 fields) ↔
      d.isValid (metadataMask fields.length) = true ∧ fieldValues 0 fields = d.keptNumbers.take fields.length := by
  have valid := setFields_valid hd hlen
  obtain ⟨size, modifDate, permission, serial⟩ := isValid_metadataMask_flags hlen valid
  rw [onlySet_iff, valid, size, modifDate, permission, serial]
  match fields, hlen with
  | [], _ => simp [fieldValues]
  | [_], _ => simp [setFields, lymodemSetField, fieldValues, LmodemFileCharacteristics.keptNumbers]
  | [_, _], _ => simp [setFields, lymodemSetField, fieldValues, LmodemFileCharacteristics.keptNumbers]
  | [_, _, _], _ =>
    simp [setFields, lymodemSetField, fieldValues, LmodemFileCharacteristics.keptNumbers, keptPermission_iff]
  | [_, _, _, _], _ =>
    simp [setFields, lymodemSetField, fieldValues, LmodemFileCharacteristics.keptNumbers, keptPermission_iff]

theorem fieldValues_fields (d : LmodemFileCharacteristics) :
    fieldValues 0 d.fields = d.keptNumbers.take d.fields.length := by
  have hle := lymodemNbMetaData_le d
  have permission : keptPermission (d.permission ||| 0x8000).toUInt32 = keptPermission d.permission.toUInt32 := by
    rw [keptPermission_inj, permission_roundTrip, UInt16.toUInt16_toUInt32]
  rw [LmodemFileCharacteristics.fields]
  generalize lymodemNbMetaData d = n at hle
  interval_cases n
  · rfl
  · rfl
  · rfl
  · simpa [fieldValues, LmodemFileCharacteristics.keptNumbers] using permission
  · simpa [fieldValues, LmodemFileCharacteristics.keptNumbers] using permission

end Fields

def CarriesFields (d : LmodemFileCharacteristics) (strings : List (List UInt8)) : Prop :=
  d.isValid (metadataMask strings.length) = true ∧
    fieldValues 0 (strings.mapIdx fun i s => (s, (fieldNumber i s).1.toUInt32)) = d.keptNumbers.take strings.length

instance (d : LmodemFileCharacteristics) (strings : List (List UInt8)) : Decidable (CarriesFields d strings) :=
  inferInstanceAs (Decidable (_ ∧ _))

section Decode

variable {sender receiver : ModemContext} {dest : Memory UInt8} {d : LmodemFileCharacteristics}

theorem lymodemDecodeBlock0_unnamed (h : receiver.blkBuffer.buffer 2 = 0) :
    (lymodemDecodeBlock0 receiver).2 = false := by
  rw [lymodemDecodeBlock0]
  simp only [h, ↓reduceIte]

theorem lymodemDecodeBlock0_carries (started : receiver.blkBuffer.buffer 2 ≠ 0) :
    ((lymodemDecodeBlock0 receiver).2 = true → OnlySet d (lymodemDecodeBlock0 receiver).1.fileData) ↔
      ¬ Numerals 0 (metadataStrings receiver) ∨ CarriesFields d (metadataStrings receiver) := by
  obtain ⟨d', hd', _, hdata, hresult⟩ := lymodemDecodeBlock0_fields started
  rw [hdata, hresult, metadataStrings, ← imp_iff_not_or, ← readFields_numerals]
  apply imp_congr_right
  intro accepted
  rw [onlySet_setFields_iff hd' (readFields_length_le _ _ _), readFields_scanned accepted, List.length_mapIdx]
  simp only [Nat.zero_add]
  rfl

end Decode

/-- The receiver marks nothing as valid that the sender has not set exactly when the fields that are set
at the sender are the first ones. This is for a name that fits and metadata that fits behind it, of which
something is set; otherwise it depends on the strings that the receiver finds behind what it stores of the
name. -/
theorem lymodemDecodeBlock0_onlySet_iff (sender receiver : ModemContext) (source dest : Memory UInt8)
    (name : List UInt8) (named : sender.fileData.isValid lmodemMetadataFilenameValid = true)
    (given : sender.fileData.filename = some source) (content : source.Holds 0 (name ++ [0])) (plain : 0 ∉ name)
    (senderLine : lymodemBufferMinSize ≤ sender.blkBuffer.maxSize.toNat)
    (filename : receiver.fileData.filename = some dest) (capacity : 1 ≤ receiver.fileData.filenameSize.toNat)
    (receiverLine : lymodemBufferMinSize ≤ receiver.blkBuffer.maxSize.toNat) :
    ∃ (header : UInt8) (body : List UInt8) (sender' : ModemContext),
      lymodemBuildAndSendBlock0 sender = .write (header :: body) (.done sender') ∧
      (((lymodemDecodeBlock0 (receiver.fill body)).2 = true →
          OnlySet sender.fileData (lymodemDecodeBlock0 (receiver.fill body)).1.fileData) ↔
        if name ≠ [] ∧ name.length < receiver.fileData.filenameSize.toNat ∧
            (name ++ 0 :: metadataText sender.fileData.fields).length ≤ 1022 ∧
            1 ≤ lymodemNbMetaData sender.fileData then
          sender.fileData.isValid (metadataMask (lymodemNbMetaData sender.fileData)) = true
        else
          (receiver.fill body).blkBuffer.buffer 2 = 0 ∨ ¬ Numerals 0 (metadataStrings (receiver.fill body)) ∨
            CarriesFields sender.fileData (metadataStrings (receiver.fill body))) := by
  by_cases fits : name ≠ [] ∧ name.length < receiver.fileData.filenameSize.toNat ∧
      (name ++ 0 :: metadataText sender.fileData.fields).length ≤ 1022 ∧ 1 ≤ lymodemNbMetaData sender.fileData
  · obtain ⟨nonempty, room, text, printed⟩ := fits
    obtain ⟨sender', buffer, dest', build, _, decoded⟩ := lymodemDecodeBlock0_built named printed given content
      nonempty plain text senderLine filename room receiverLine
    refine ⟨_, _, sender', build, ?_⟩
    have length : sender.fileData.fields.length = lymodemNbMetaData sender.fileData := by
      rw [LmodemFileCharacteristics.fields, List.length_take]
      exact Nat.min_eq_left (lymodemNbMetaData_le _)
    have values := fieldValues_fields sender.fileData
    rw [if_pos ⟨nonempty, room, text, printed⟩, decoded, ModemContext.withMetadata,
      onlySet_setFields_iff rfl (fields_length_le _), values, length]
    simp
  · obtain ⟨header, crc, sender', build, _⟩ := lymodemBuildAndSendBlock0_named named
    rw [show 1 + 2 + block0EffectiveBlksize sender + 2 = block0EffectiveBlksize sender + 4 + 1 by omega,
      Memory.load_succ] at build
    refine ⟨_, _, sender', build, ?_⟩
    rw [if_neg fits]
    generalize receiver.fill _ = r
    by_cases started : r.blkBuffer.buffer 2 = 0
    · simp [lymodemDecodeBlock0_unnamed started, started]
    · rw [lymodemDecodeBlock0_carries started]
      simp [started]

theorem lymodemDecodeBlock0_onlySet_size : ∃ (header : UInt8) (body : List UInt8) (sender' : ModemContext),
    lymodemBuildAndSendBlock0 namedSender = .write (header :: body) (.done sender') ∧
    ((lymodemDecodeBlock0 (namedSender.fill body)).2 = true →
      OnlySet namedSender.fileData (lymodemDecodeBlock0 (namedSender.fill body)).1.fileData) := by
  obtain ⟨dest, hdest⟩ : ∃ dest, namedSender.fileData.filename = some dest := ⟨_, rfl⟩
  obtain ⟨header, body, sender', build, h⟩ := lymodemDecodeBlock0_onlySet_iff namedSender namedSender dest dest [49, 32, 50]
    (by decide) hdest (by cases hdest; decide) (by decide) (by decide) hdest (by decide) (by decide)
  rw [if_pos ⟨by decide, by decide, block0_fits (by decide) _, by decide⟩] at h
  exact ⟨header, body, sender', build, h.mpr (by decide)⟩

def datedSender : ModemContext :=
  let pThis := lmodemSetFilenameBuffer (lmodemSetLineBuffer (lmodemInit .lxmodem1k) (.fresh 0) 1029).1 (.fresh 0) 16
  lmodemMetadataSetModifTime (lmodemMetadataSetFilename pThis (.holding [97] 0)) 7

theorem lymodemDecodeBlock0_marksUnset :
    ∃ (header : UInt8) (body : List UInt8) (sender' : ModemContext),
      lymodemBuildAndSendBlock0 datedSender = .write (header :: body) (.done sender') ∧
      (lymodemDecodeBlock0 (datedSender.fill body)).2 = true ∧
      (lymodemDecodeBlock0 (datedSender.fill body)).1.fileData.valid = 0x03 ∧ datedSender.fileData.valid = 0x05 ∧
      ¬ OnlySet datedSender.fileData (lymodemDecodeBlock0 (datedSender.fill body)).1.fileData := by
  obtain ⟨dest, hdest⟩ : ∃ dest, datedSender.fileData.filename = some dest := ⟨_, rfl⟩
  obtain ⟨sender', buffer, dest', build, _, decoded⟩ := @lymodemDecodeBlock0_built datedSender datedSender dest dest
    [97] (by decide) (by decide) hdest (by cases hdest; decide) (by decide) (by decide)
    (block0_fits (by decide) _) (by decide) hdest (by decide) (by decide)
  refine ⟨_, _, sender', build, by rw [decoded], ?_, by decide, ?_⟩
  · rw [decoded]
    exact setFields_valid rfl (fields_length_le _)
  · rw [decoded, ModemContext.withMetadata, onlySet_setFields_iff rfl (fields_length_le _)]
    rintro ⟨included, _⟩
    exact absurd included (by decide)

end LightModem
