import LightModem.Receiver

set_option autoImplicit false

/-! The YMODEM part of `lmodem_rx.c`. Pointers into the line buffer are offsets from its start. -/

namespace LightModem

open Interaction

def lmodemMetadataClean (d : LmodemFileCharacteristics) : LmodemFileCharacteristics where
  valid := 0
  filename := d.filename.map (fun name => name.store 0 [0])
  filenameSize := d.filenameSize
  size := 0
  modifDate := 0
  permission := 0
  serialNumber := 0

def lymodemGetNextMetaDataString (buffer : Memory UInt8) (pString pEndString : ℕ) :
    Option (ℕ × Memory UInt8 × ℕ) :=
  if buffer pString = 0 ∨ pString ≥ pEndString then none
  else
    let text := buffer.load pString (pEndString - pString)
    let pCursor := pString + (text.takeWhile (fun c => c ≠ 32 ∧ c ≠ 0)).length
    some (pString, buffer.store pCursor [0], pCursor + 1)

def lymodemGetValue (buffer : Memory UInt8) (pString pEnd mode : ℕ) : UInt32 × Bool :=
  let (r, rest) := strtoul (cString (buffer.shift pString) (pEnd - pString)) mode
  (r.toUInt32, rest = [])

def lymodemSetField (d : LmodemFileCharacteristics) (nbFields : ℕ) (value : UInt32) :
    LmodemFileCharacteristics :=
  match nbFields with
  | 0 => { d with size := value, valid := d.valid ||| lmodemMetadataFilesizeValid }
  | 1 => { d with modifDate := value, valid := d.valid ||| lmodemMetadataModifdateValid }
  | 2 => { d with
      permission := value.toUInt16 &&& ~~~0x8000
      valid := d.valid ||| lmodemMetadataPermissionValid }
  | 3 => { d with serialNumber := value, valid := d.valid ||| lmodemMetadataSerialValid }
  | _ => d

def lymodemGetFields (pEndString : ℕ) :
    ℕ → ℕ → Memory UInt8 → ℕ → LmodemFileCharacteristics →
      Memory UInt8 × LmodemFileCharacteristics × Bool
  | 0, _, buffer, _, d => (buffer, d, true)
  | left + 1, nbFields, buffer, pString, d =>
    match lymodemGetNextMetaDataString buffer pString pEndString with
    | none => (buffer, d, true)
    | some (pData, buffer, pString) =>
      let (value, bResult) := lymodemGetValue buffer pData pString (if nbFields = 0 then 10 else 8)
      let d := lymodemSetField d nbFields value
      if bResult = false then (buffer, d, false)
      else lymodemGetFields pEndString left (nbFields + 1) buffer pString d

def lymodemGetMetaData (pThis : ModemContext) : ModemContext × Bool :=
  let filename := pThis.fileData.filename.getD (.fresh 0)
  let buffer := pThis.blkBuffer.buffer
  -- behind the stored name, which may have been cut, and on over as much as the line buffer holds
  let pString := 2 + (cString filename pThis.fileData.filenameSize.toNat).length
  let pEndString := pString + pThis.blkBuffer.maxSize.toNat
  let pString := pString + ((buffer.load pString (pEndString - pString)).takeWhile (· = 0)).length
  if pString < pEndString then
    let (buffer, d, bResult) := lymodemGetFields pEndString 4 0 buffer pString pThis.fileData
    let blkBuffer := { pThis.blkBuffer with buffer := buffer }
    ({ pThis with blkBuffer := blkBuffer, fileData := d }, bResult)
  else (pThis, true)

def lymodemDecodeBlock0 (pThis : ModemContext) : ModemContext × Bool :=
  let d := lmodemMetadataClean pThis.fileData
  let buffer := pThis.blkBuffer.buffer
  if buffer 2 = 0 then ({ pThis with fileData := d }, false)
  else
    let last := (d.filenameSize - 1).toNat
    let filename := d.filename.map
      (fun name => (strncpy name 0 (buffer.shift 2) last).store last [0])
    lymodemGetMetaData { pThis with fileData := { d with
      filename := filename, valid := d.valid ||| lmodemMetadataFilenameValid } }

structure LymodemBlock0State where
  pThis : ModemContext
  bFinished : Bool
  rxStatus : LxmodemReceptionStatus
  retry : ℕ

def lymodemReceiveBlock0Turn (blksize : ℕ) (s : LymodemBlock0State) :
    Program UInt8 LymodemBlock0State := do
  match ← getchars (2 + blksize + 2) with
  | .received data _ =>
    let pThis := s.pThis.fill data
    let rxStatus := lxmodemCheckBlockNoAndCrc pThis 0 blksize
    let s := { s with pThis := pThis, rxStatus := rxStatus }
    lxmodemBuildAndSendReply rxStatus
    if rxStatus = .recvOk then pure { s with bFinished := true }
    else
      let s := { s with retry := s.retry + 1 }
      if s.retry ≥ 10 then do
        lxmodemBuildAndSendCancel
        pure { s with bFinished := true }
      else pure s
  -- a silence does not count towards the limit
  | .timedOut written _ => pure { s with pThis := s.pThis.fill written }

def lymodemReceiveBlock0 (fuel : ℕ) (pThis : ModemContext) (blksize : ℕ) :
    Program UInt8 (LxmodemReceptionStatus × ModemContext) := do
  let s ← whileLoop (fun s => !s.bFinished) (lymodemReceiveBlock0Turn blksize) fuel
    ⟨pThis, false, .recvError, 0⟩
  pure (s.rxStatus, s.pThis)

def lymodemWaitBlock0 (fuel : ℕ) (pThis : ModemContext) :
    ℕ → Program UInt8 (LxmodemReceptionStatus × ModemContext)
  | 0 => pure (.recvError, pThis)
  | attempts + 1 => do
    match ← getchars 1 with
    | .received data _ =>
      if data.headD 0 = SOH then lymodemReceiveBlock0 fuel pThis 128
      else if data.headD 0 = STX then lymodemReceiveBlock0 fuel pThis 1024
      else pure (.recvError, pThis)
    | .timedOut _ _ => lymodemWaitBlock0 fuel pThis attempts

def lymodemAnswerNextFile (pThis : ModemContext) : Program UInt8 ModemContext := do
  if pThis.blkBuffer.buffer 2 = 0 then lxmodemBuildAndSendReply .recvOk
  else lxmodemBuildAndSendCancel
  pure pThis

def lymodemWaitNextFile (pThis : ModemContext) : ℕ → Program UInt8 ModemContext
  | 0 => pure pThis
  | attempts + 1 => do
    match ← getchars 1 with
    | .received data _ =>
      if data.headD 0 = SOH ∨ data.headD 0 = STX then do
        match ← getchars (if data.headD 0 = SOH then 128 + 2 + 2 else 1024 + 2 + 2) with
        | .received data _ => lymodemAnswerNextFile (pThis.fill data)
        | .timedOut written _ => lymodemWaitNextFile (pThis.fill written) attempts
      -- another byte is answered according to what the line buffer has held before
      else lymodemAnswerNextFile pThis
    | .timedOut _ _ => lymodemWaitNextFile pThis attempts

def lymodemBlockNextFile (pThis : ModemContext) : Program UInt8 ModemContext := do
  lxmodemBuildAndSendPreambule pThis
  lymodemWaitNextFile pThis 10

def lymodemReceiveData (fuel : ℕ) (rxStatus : LxmodemReceptionStatus) (pThis : ModemContext) :
    Program UInt8 (UInt32 × ModemContext) :=
  if rxStatus = .recvOk then
    let (pThis, bBlock0Ok) := lymodemDecodeBlock0 pThis
    if bBlock0Ok then do
      let (receivedBytes, pThis) ← lxmodemReceive fuel pThis
      let pThis ← lymodemBlockNextFile pThis
      pure (receivedBytes.toUInt32, pThis)
    else pure (-1, pThis)
  else pure (-1, pThis)

def lymodemTrim (receivedBytes : UInt32) (pThis : ModemContext) : ModemContext :=
  -- unsigned, so that the -1 of a failure passes
  if receivedBytes > 0 ∧
      pThis.fileData.valid &&& lmodemMetadataFilesizeValid = lmodemMetadataFilesizeValid then
    { pThis with ramfile := (lmodemBufferSetWriteOffset pThis.ramfile pThis.fileData.size).1 }
  else pThis

def lymodemReceive (fuel : ℕ) (pThis : ModemContext) : Program UInt8 (Int32 × ModemContext) := do
  lxmodemBuildAndSendPreambule pThis
  let (rxStatus, pThis) ← lymodemWaitBlock0 fuel pThis 10
  let (receivedBytes, pThis) ← lymodemReceiveData fuel rxStatus pThis
  pure (receivedBytes.toInt32, lymodemTrim receivedBytes pThis)

def lmodemReceive (protocol : LmodemProtocol) (fuel : ℕ) (pThis : ModemContext) :
    Program UInt8 (Int32 × ModemContext) :=
  let pThis := { pThis with protocol := protocol }
  match protocol with
  | .xmodem => lxmodemReceive fuel pThis
  | .ymodem => lymodemReceive fuel pThis

end LightModem
