import LightModem.CString
import LightModem.Crc16
import LightModem.RamBuffer

set_option autoImplicit false

namespace LightModem

abbrev SOH : UInt8 := 0x01
abbrev STX : UInt8 := 0x02
abbrev EOT : UInt8 := 0x04
abbrev ACK : UInt8 := 0x06
abbrev NAK : UInt8 := 0x15
abbrev CAN : UInt8 := 0x18
abbrev SUB : UInt8 := 0x1A

abbrev charC : UInt8 := 0x43

abbrev lxmodem128ChksumBufferMinSize : ℕ := 1 + 2 + 128 + 1
abbrev lxmodem128CrcBufferMinSize : ℕ := 1 + 2 + 128 + 2
abbrev lxmodem1kBufferMinSize : ℕ := 1 + 2 + 1024 + 2
abbrev lymodemBufferMinSize : ℕ := lxmodem1kBufferMinSize

abbrev lmodemMetadataFilenameValid : UInt32 := 0x01
abbrev lmodemMetadataFilesizeValid : UInt32 := 0x02
abbrev lmodemMetadataModifdateValid : UInt32 := 0x04
abbrev lmodemMetadataPermissionValid : UInt32 := 0x08
abbrev lmodemMetadataSerialValid : UInt32 := 0x10

inductive LmodemProtocol
  | xmodem
  | ymodem
  deriving DecidableEq

inductive LxmodemOpts
  | lxmodem128WithChksum
  | lxmodem128WithCrc
  | lxmodem1k
  deriving DecidableEq

structure LmodemLinebuffer where
  buffer : Memory UInt8
  currentSize : ℕ
  maxSize : UInt32

/-- `filename` is `none` for the null pointer. -/
structure LmodemFileCharacteristics where
  valid : UInt32
  filename : Option (Memory UInt8)
  filenameSize : UInt32
  size : UInt32
  modifDate : UInt32
  permission : UInt16
  serialNumber : UInt32

/-- The callbacks `getchar` and `putchar` are the reads and writes of the programs below. -/
structure ModemContext where
  protocol : LmodemProtocol
  crc16 : Crc16Context
  opts : LxmodemOpts
  blkBuffer : LmodemLinebuffer
  ramfile : LmodemBuffer
  fileData : LmodemFileCharacteristics
  withCrc : Bool

def lxmodemCalculChksum (data : List UInt8) : UInt8 := data.foldl (fun t b => t + b) 0

/-! `lmodem_init.c` -/

abbrev lxmodemCrc16CcittPolynome : UInt16 := 0x1021

def lmodemInit (opts : LxmodemOpts) : ModemContext where
  protocol := .xmodem
  crc16 := crc16Init lxmodemCrc16CcittPolynome
  opts := opts
  blkBuffer := ⟨.fresh 0, 0, 0⟩
  ramfile := ⟨.fresh 0, 0, 0, 0⟩
  fileData := ⟨0, none, 0, 0, 0, 0, 0⟩
  withCrc := false

def LxmodemOpts.expectedSize : LxmodemOpts → ℕ × Bool
  | .lxmodem128WithChksum => (2 + 128 + 1, false)
  | .lxmodem128WithCrc => (2 + 128 + 2, true)
  | .lxmodem1k => (2 + 1024 + 2, true)

def lmodemSetLineBuffer (pThis : ModemContext) (buffer : Memory UInt8) (size : UInt32) :
    ModemContext × Bool :=
  let pThis := { pThis with withCrc := pThis.opts.expectedSize.2 }
  if size.toNat ≥ pThis.opts.expectedSize.1 then
    ({ pThis with blkBuffer := ⟨buffer, 0, size⟩ }, true)
  else (pThis, false)

def lmodemSetFileBuffer (pThis : ModemContext) (buffer : Memory UInt8) (size : UInt32) : ModemContext :=
  { pThis with ramfile := lmodemBufferInit buffer size }

def lmodemSetFilenameBuffer (pThis : ModemContext) (buffer : Memory UInt8) (size : UInt32) :
    ModemContext :=
  { pThis with fileData := { pThis.fileData with filename := some buffer, filenameSize := size } }

def lmodemMetadataSetFilename (pThis : ModemContext) (filename : Memory UInt8) : ModemContext :=
  match pThis.fileData.filename with
  | none => pThis
  | some dest =>
    let size := pThis.fileData.filenameSize
    let dest := (strncpy dest 0 filename size.toNat).store (size - 1).toNat [0]
    { pThis with fileData := { pThis.fileData with
        filename := some dest
        valid := pThis.fileData.valid ||| lmodemMetadataFilenameValid } }

def lmodemMetadataSetFilesize (pThis : ModemContext) (size : UInt32) : ModemContext :=
  { pThis with fileData := { pThis.fileData with
      size := size, valid := pThis.fileData.valid ||| lmodemMetadataFilesizeValid } }

def lmodemMetadataSetModifTime (pThis : ModemContext) (modifDate : UInt32) : ModemContext :=
  { pThis with fileData := { pThis.fileData with
      modifDate := modifDate, valid := pThis.fileData.valid ||| lmodemMetadataModifdateValid } }

def lmodemMetadataSetPermission (pThis : ModemContext) (perm : UInt32) : ModemContext :=
  { pThis with fileData := { pThis.fileData with
      permission := perm.toUInt16, valid := pThis.fileData.valid ||| lmodemMetadataPermissionValid } }

def lmodemMetadataSetSerial (pThis : ModemContext) (serial : UInt32) : ModemContext :=
  { pThis with fileData := { pThis.fileData with
      serialNumber := serial, valid := pThis.fileData.valid ||| lmodemMetadataSerialValid } }

def lmodemMetadataGetFilename (pThis : ModemContext) (filename : Option (Memory UInt8)) (size : UInt32) :
    Option (Memory UInt8) × Bool :=
  if pThis.fileData.valid &&& lmodemMetadataFilenameValid = lmodemMetadataFilenameValid then
    match filename, pThis.fileData.filename with
    | some dest, some source => (some ((dest.store 0 (source.load 0 size.toNat)).store (size - 1).toNat [0]), true)
    | _, _ => (filename, false)
  else (filename, false)

def lmodemMetadataGet (pThis : ModemContext) (value : UInt32) (dest : Option UInt32) : Option UInt32 × Bool :=
  -- the flag of the name, whatever the field
  if pThis.fileData.valid &&& lmodemMetadataFilenameValid = lmodemMetadataFilenameValid then
    match dest with
    | none => (none, false)
    | some _ => (some value, true)
  else (dest, false)

def lmodemMetadataGetFilesize (pThis : ModemContext) (filesize : Option UInt32) : Option UInt32 × Bool :=
  lmodemMetadataGet pThis pThis.fileData.size filesize

def lmodemMetadataGetModifTime (pThis : ModemContext) (modiftime : Option UInt32) : Option UInt32 × Bool :=
  lmodemMetadataGet pThis pThis.fileData.modifDate modiftime

def lmodemMetadataGetPermission (pThis : ModemContext) (mode : Option UInt32) : Option UInt32 × Bool :=
  lmodemMetadataGet pThis pThis.fileData.permission.toUInt32 mode

def lmodemMetadataGetSerial (pThis : ModemContext) (serial : Option UInt32) : Option UInt32 × Bool :=
  lmodemMetadataGet pThis pThis.fileData.serialNumber serial

end LightModem
