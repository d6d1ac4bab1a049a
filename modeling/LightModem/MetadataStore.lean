import LightModem.Context

set_option autoImplicit false

namespace LightModem

inductive MetadataCall
  | setFilename (filename : Memory UInt8)
  | setFilesize (size : UInt32)
  | setModifTime (modifDate : UInt32)
  | setPermission (perm : UInt32)
  | setSerial (serial : UInt32)

def MetadataCall.run (pThis : ModemContext) : MetadataCall → ModemContext
  | .setFilename filename => lmodemMetadataSetFilename pThis filename
  | .setFilesize size => lmodemMetadataSetFilesize pThis size
  | .setModifTime modifDate => lmodemMetadataSetModifTime pThis modifDate
  | .setPermission perm => lmodemMetadataSetPermission pThis perm
  | .setSerial serial => lmodemMetadataSetSerial pThis serial

def metadataFlags (filename filesize modifTime permission serial : Bool) : UInt32 :=
  (if filename then lmodemMetadataFilenameValid else 0) |||
    (if filesize then lmodemMetadataFilesizeValid else 0) |||
    (if modifTime then lmodemMetadataModifdateValid else 0) |||
    (if permission then lmodemMetadataPermissionValid else 0) |||
    (if serial then lmodemMetadataSerialValid else 0)

theorem metadataFlags_or : ∀ n s m p i : Bool,
    metadataFlags n s m p i ||| lmodemMetadataFilenameValid = metadataFlags true s m p i ∧
      metadataFlags n s m p i ||| lmodemMetadataFilesizeValid = metadataFlags n true m p i ∧
      metadataFlags n s m p i ||| lmodemMetadataModifdateValid = metadataFlags n s true p i ∧
      metadataFlags n s m p i ||| lmodemMetadataPermissionValid = metadataFlags n s m true i ∧
      metadataFlags n s m p i ||| lmodemMetadataSerialValid = metadataFlags n s m p true := by
  decide

theorem metadataFlags_named : ∀ n s m p i : Bool,
    metadataFlags n s m p i &&& lmodemMetadataFilenameValid = lmodemMetadataFilenameValid ↔ n = true := by
  decide

structure Announced where
  filename : Option (List UInt8)
  filesize : Option UInt32
  modifTime : Option UInt32
  permission : Option UInt16
  serial : Option UInt32

namespace Announced

def nothing : Announced := ⟨none, none, none, none, none⟩

def after (last : ℕ) (a : Announced) : MetadataCall → Announced
  | .setFilename filename => { a with filename := some (cString filename last) }
  | .setFilesize size => { a with filesize := some size }
  | .setModifTime modifDate => { a with modifTime := some modifDate }
  | .setPermission perm => { a with permission := some perm.toUInt16 }
  | .setSerial serial => { a with serial := some serial }

def mask (a : Announced) : UInt32 :=
  metadataFlags a.filename.isSome a.filesize.isSome a.modifTime.isSome a.permission.isSome a.serial.isSome

def answer (a : Announced) (value dest : UInt32) : Option UInt32 × Bool :=
  if a.filename.isSome then (some value, true) else (some dest, false)

end Announced

structure Keeps (last : ℕ) (a : Announced) (pThis : ModemContext) : Prop where
  valid : pThis.fileData.valid = a.mask
  buffer : pThis.fileData.filename.isSome = true
  filenameSize : pThis.fileData.filenameSize.toNat = last + 1
  filename : ∀ name ∈ a.filename, ∃ dest, pThis.fileData.filename = some dest ∧ cString dest (last + 1) = name
  filesize : pThis.fileData.size = a.filesize.getD 0
  modifTime : pThis.fileData.modifDate = a.modifTime.getD 0
  permission : pThis.fileData.permission = a.permission.getD 0
  serial : pThis.fileData.serialNumber = a.serial.getD 0

section Run

variable {last : ℕ} {a : Announced} {pThis : ModemContext}

theorem toNat_sub_one {n : UInt32} (h : n.toNat = last + 1) : (n - 1).toNat = last := by
  have one : 1 ≤ n := by
    rw [UInt32.le_iff_toNat_le, h]
    exact Nat.succ_le_succ (Nat.zero_le last)
  rw [UInt32.toNat_sub_of_le _ _ one, h]
  rfl

theorem Keeps.run (h : Keeps last a pThis) (call : MetadataCall) :
    Keeps last (a.after last call) (call.run pThis) := by
  obtain ⟨name, size, modifTime, permission, serial⟩ := metadataFlags_or a.filename.isSome a.filesize.isSome
    a.modifTime.isSome a.permission.isSome a.serial.isSome
  rw [← Announced.mask, ← h.valid] at name size modifTime permission serial
  cases call with
  | setFilename filename =>
    obtain ⟨dest, hdest⟩ := Option.isSome_iff_exists.mp h.buffer
    have capacity := h.filenameSize
    have named : lmodemMetadataSetFilename pThis filename = { pThis with fileData := { pThis.fileData with
        filename := some ((strncpy dest 0 filename last).store last [0])
        valid := pThis.fileData.valid ||| lmodemMetadataFilenameValid } } := by
      rw [lmodemMetadataSetFilename, hdest]
      simp only [capacity, toNat_sub_one capacity, strncpy_last]
    rw [MetadataCall.run, named]
    refine ⟨name, rfl, h.filenameSize, ?_, h.filesize, h.modifTime, h.permission, h.serial⟩
    rintro _ hname
    cases hname
    exact ⟨_, rfl, cString_strncpy dest filename last⟩
  | setFilesize filesize =>
    exact ⟨size, h.buffer, h.filenameSize, h.filename, rfl, h.modifTime, h.permission, h.serial⟩
  | setModifTime modifDate =>
    exact ⟨modifTime, h.buffer, h.filenameSize, h.filename, h.filesize, rfl, h.permission, h.serial⟩
  | setPermission perm =>
    exact ⟨permission, h.buffer, h.filenameSize, h.filename, h.filesize, h.modifTime, rfl, h.serial⟩
  | setSerial serialNumber =>
    exact ⟨serial, h.buffer, h.filenameSize, h.filename, h.filesize, h.modifTime, h.permission, rfl⟩

theorem Keeps.runs (h : Keeps last a pThis) (calls : List MetadataCall) :
    Keeps last (calls.foldl (Announced.after last) a) (calls.foldl MetadataCall.run pThis) := by
  induction calls generalizing a pThis with
  | nil => exact h
  | cons call calls ih => exact ih (h.run call)

theorem keeps_initial (opts : LxmodemOpts) (buffer : Memory UInt8) {size : UInt32} (hsize : size.toNat = last + 1) :
    Keeps last .nothing (lmodemSetFilenameBuffer (lmodemInit opts) buffer size) :=
  ⟨rfl, rfl, hsize, by rintro name ⟨⟩, rfl, rfl, rfl, rfl⟩

end Run

structure Answers (a : Announced) (size : UInt32) (pThis : ModemContext) : Prop where
  filesize : ∀ dest, lmodemMetadataGetFilesize pThis (some dest) = a.answer (a.filesize.getD 0) dest
  modifTime : ∀ dest, lmodemMetadataGetModifTime pThis (some dest) = a.answer (a.modifTime.getD 0) dest
  permission : ∀ dest,
    lmodemMetadataGetPermission pThis (some dest) = a.answer (a.permission.getD 0).toUInt32 dest
  serial : ∀ dest, lmodemMetadataGetSerial pThis (some dest) = a.answer (a.serial.getD 0) dest
  unnamed : a.filename = none → ∀ dest n, lmodemMetadataGetFilename pThis (some dest) n = (some dest, false)
  filename : ∀ name ∈ a.filename, ∀ dest n, 0 < n → n ≤ size → ∃ dest',
    lmodemMetadataGetFilename pThis (some dest) n = (some dest', true) ∧
      cString dest' n.toNat = name.take (n.toNat - 1)

section Answer

variable {last : ℕ} {a : Announced} {pThis : ModemContext}

theorem Keeps.get (h : Keeps last a pThis) (value dest : UInt32) :
    lmodemMetadataGet pThis value (some dest) = a.answer value dest := by
  rw [lmodemMetadataGet, Announced.answer, h.valid, Announced.mask]
  by_cases named : a.filename.isSome = true
  · rw [if_pos ((metadataFlags_named _ _ _ _ _).mpr named), if_pos named]
  · rw [if_neg fun marked => named ((metadataFlags_named _ _ _ _ _).mp marked), if_neg named]

theorem cString_prefix (m : Memory UInt8) {n n' : ℕ} (h : n ≤ n') : cString m n = (cString m n').take n := by
  rw [cString, cString, List.take_takeWhile, Memory.load_take _ h]

theorem Keeps.answers (h : Keeps last a pThis) {size : UInt32} (hsize : size.toNat = last + 1) :
    Answers a size pThis where
  filesize := fun dest => by rw [lmodemMetadataGetFilesize, h.get, h.filesize]
  modifTime := fun dest => by rw [lmodemMetadataGetModifTime, h.get, h.modifTime]
  permission := fun dest => by rw [lmodemMetadataGetPermission, h.get, h.permission]
  serial := fun dest => by rw [lmodemMetadataGetSerial, h.get, h.serial]
  unnamed := by
    intro unnamed dest n
    have unmarked : ¬ pThis.fileData.valid &&& lmodemMetadataFilenameValid = lmodemMetadataFilenameValid := by
      rw [h.valid, Announced.mask, metadataFlags_named, unnamed]
      exact Bool.false_ne_true
    simp only [lmodemMetadataGetFilename, unmarked, ↓reduceIte]
  filename := by
    intro name hname dest n pos le
    obtain ⟨source, hsource, string⟩ := h.filename name hname
    have marked : pThis.fileData.valid &&& lmodemMetadataFilenameValid = lmodemMetadataFilenameValid := by
      rw [h.valid, Announced.mask, metadataFlags_named]
      exact Option.isSome_of_mem hname
    obtain ⟨k, hk⟩ : ∃ k, n.toNat = k + 1 := by
      apply Nat.exists_eq_succ_of_ne_zero
      exact Nat.pos_iff_ne_zero.mp (UInt32.lt_iff_toNat_lt.mp pos)
    refine ⟨(dest.store 0 (source.load 0 n.toNat)).store (n - 1).toNat [0], ?_, ?_⟩
    · simp only [lmodemMetadataGetFilename, marked, hsource, ↓reduceIte]
    · rw [UInt32.le_iff_toNat_le, hk, hsize] at le
      rw [toNat_sub_one hk, hk, cString_copied, Nat.add_sub_cancel, ← string]
      exact cString_prefix source (by omega)

end Answer

theorem metadata_store (opts : LxmodemOpts) (buffer : Memory UInt8) (size : UInt32) (room : 0 < size)
    (calls : List MetadataCall) :
    let pThis := calls.foldl MetadataCall.run (lmodemSetFilenameBuffer (lmodemInit opts) buffer size)
    let announced := calls.foldl (Announced.after (size.toNat - 1)) .nothing
    pThis.fileData.valid = announced.mask ∧ Answers announced size pThis := by
  have hsize : size.toNat = size.toNat - 1 + 1 := (Nat.sub_add_cancel (UInt32.lt_iff_toNat_lt.mp room)).symm
  have keeps := (keeps_initial opts buffer hsize).runs calls
  exact ⟨keeps.valid, keeps.answers hsize⟩

theorem metadata_store_short :
    ∃ pThis dest, lmodemMetadataGetFilesize pThis (some 0) = (some 9, true) ∧
      lmodemMetadataGetFilename pThis (some (.fresh 0)) 4 = (some dest, true) ∧ cString dest 4 = [97, 98, 99] := by
  obtain ⟨_, answers⟩ := metadata_store .lxmodem1k (.fresh 0) 4 (by decide)
    [.setFilesize 5, .setFilename (.holding [97, 98, 99, 100] 0), .setFilesize 9]
  have name : cString (.holding [97, 98, 99, 100] 0) 3 = [97, 98, 99] := by decide +kernel
  obtain ⟨dest, got, string⟩ := answers.filename [97, 98, 99] (congrArg some name) (.fresh 0) 4 (by decide)
    (by decide)
  exact ⟨_, dest, answers.filesize 0, got, string⟩

end LightModem
