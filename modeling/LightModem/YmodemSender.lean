import LightModem.Sender

set_option autoImplicit false

/-! The YMODEM part of `lmodem_tx.c`. -/

namespace LightModem

open Interaction

def lmodemWaitReceptionOf (cntrlChar : UInt8) : Program UInt8 Bool := do
  let received ← getcharWithin (fun c => c = cntrlChar) 10
  pure received.isSome

def lmodemWaitReception : Program UInt8 (Option UInt8) := getcharWithin (fun _ => true) 10

def lymodemFormat (d : LmodemFileCharacteristics) (nbMetaDataTocpy : ℕ) : List UInt8 :=
  let size := printInt d.size.toInt32.toInt
  let modifDate := 32 :: printNat 8 d.modifDate.toNat
  let permission := 32 :: printNat 8 (d.permission ||| 0x8000).toNat
  let serial := 32 :: printNat 8 d.serialNumber.toNat
  match nbMetaDataTocpy with
  | 1 => size
  | 2 => size ++ modifDate
  | 3 => size ++ modifDate ++ permission
  | 4 => size ++ modifDate ++ permission ++ serial
  | _ => []

def LmodemFileCharacteristics.isValid (d : LmodemFileCharacteristics) (flag : UInt32) : Bool :=
  d.valid &&& flag = flag

def lymodemNbMetaData (d : LmodemFileCharacteristics) : ℕ :=
  (if d.isValid lmodemMetadataFilesizeValid then 1 else 0) +
  (if d.isValid lmodemMetadataModifdateValid then 1 else 0) +
  (if d.isValid lmodemMetadataPermissionValid then 1 else 0) +
  (if d.isValid lmodemMetadataSerialValid then 1 else 0)

def lymodemBuildAndSendBlock0 (pThis : ModemContext) : Program UInt8 ModemContext :=
  let maxSize := pThis.blkBuffer.maxSize
  let d := pThis.fileData
  let buffer := pThis.blkBuffer.buffer.store 0 (List.replicate maxSize.toNat 0)
  let buffer := (buffer.store 1 [0]).store 2 [~~~0]
  if d.isValid lmodemMetadataFilenameValid then do
    let maxTocopy := (maxSize - 3).toNat
    let buffer := strncpy buffer 3 (d.filename.getD (.fresh 0)) maxTocopy
    -- one cell behind the line buffer
    let buffer := buffer.store (3 + maxTocopy) [0]
    let sizeFilename := (cString (buffer.shift 3) (maxTocopy + 1)).length
    let pStartMetaData := 3 + sizeFilename + 1
    let pEndBuffer : ℤ := maxSize.toNat - 3
    let n := lymodemNbMetaData d
    let (buffer, nbWritten) :=
      if 1 ≤ n ∧ n ≤ 4 then
        -- the difference of the pointers becomes a `size_t`
        snprintf buffer pStartMetaData ((pEndBuffer - pStartMetaData) % 2 ^ 64).toNat
          (lymodemFormat d n)
      else (buffer, 0)
    let maxSize := 3 + sizeFilename + 1 + nbWritten + 1
    let effectiveBlksize := if maxSize < 128 then 128 else 1024
    let buffer := buffer.store 0 [if maxSize < 128 then SOH else STX]
    let crc := crc16DoCalcul pThis.crc16 (buffer.load 3 effectiveBlksize) 0 0
    let buffer := buffer.store (3 + effectiveBlksize) [((crc &&& 0xFF00) >>> 8).toUInt8]
    let buffer := buffer.store (3 + effectiveBlksize + 1) [(crc &&& 0xFF).toUInt8]
    let nbDataToSend := 1 + 2 + effectiveBlksize + 2
    putchars (buffer.load 0 nbDataToSend)
    pure { pThis with blkBuffer := { pThis.blkBuffer with
      buffer := buffer, currentSize := nbDataToSend } }
  else pure { pThis with blkBuffer := { pThis.blkBuffer with buffer := buffer } }

def lymodemSendEndOfBach (pThis : ModemContext) : Program UInt8 ModemContext := do
  let buffer := pThis.blkBuffer.buffer.store 0 (List.replicate pThis.blkBuffer.maxSize.toNat 0)
  let buffer := ((buffer.store 0 [SOH]).store 1 [0]).store 2 [~~~0]
  let crc := crc16DoCalcul pThis.crc16 (buffer.load 3 128) 0 0
  let buffer := buffer.store (3 + 128) [((crc &&& 0xFF00) >>> 8).toUInt8]
  let buffer := buffer.store (3 + 128 + 1) [(crc &&& 0xFF).toUInt8]
  putchars (buffer.load 0 (3 + 128 + 2))
  pure { pThis with blkBuffer := { pThis.blkBuffer with buffer := buffer, currentSize := 3 + 128 + 2 } }

structure LymodemHandshakeState where
  receivedChar : UInt8
  bOk : Bool
  bDone : Bool
  retry : ℕ

def lymodemHandshakeTurn (pThis : ModemContext) (s : LymodemHandshakeState) :
    Program UInt8 LymodemHandshakeState := do
  let received ← lmodemWaitReception
  -- without a reception the variable keeps its character
  let s := { s with receivedChar := received.getD s.receivedChar }
  if s.receivedChar = ACK then pure { s with bOk := true, bDone := true }
  else if s.receivedChar = CAN then pure { s with bOk := false, bDone := true }
  else if s.receivedChar = NAK then do
    lxmodeReemitPreviousBlock pThis
    pure { s with retry := s.retry + 1 }
  else pure s

def lymodemHandshake (fuel : ℕ) (pThis : ModemContext) (receivedChar : UInt8) (bOk : Bool) :
    Program UInt8 LymodemHandshakeState :=
  whileLoop (fun s => !s.bDone && s.retry < 10) (lymodemHandshakeTurn pThis) fuel
    ⟨receivedChar, bOk, false, 0⟩

def lymodemEmitBlock0 (fuel : ℕ) (pThis : ModemContext) :
    Program UInt8 (Bool × UInt8 × ModemContext) := do
  let bOk ← lmodemWaitReceptionOf charC
  if bOk then do
    let pThis ← lymodemBuildAndSendBlock0 pThis
    let s ← lymodemHandshake fuel pThis 0 bOk
    pure (s.bOk, s.receivedChar, pThis)
  else pure (false, 0, pThis)

def lymodemEmitData (fuel : ℕ) (pThis : ModemContext) (bOk : Bool) :
    Program UInt8 (Bool × UInt32 × ModemContext) :=
  if bOk then do
    let (nbEmitted, pThis) ← lxmodemEmit fuel pThis
    let nbEmitted := nbEmitted.toUInt32
    if nbEmitted > 0 then do
      let bOk ← lmodemWaitReceptionOf charC
      pure (bOk, nbEmitted, pThis)
    else pure (bOk, nbEmitted, pThis)
  else pure (bOk, -1, pThis)

def lymodemEmitEndOfBach (fuel : ℕ) (pThis : ModemContext) (bOk : Bool) (receivedChar : UInt8)
    (nbEmitted : UInt32) : Program UInt8 (UInt32 × ModemContext) :=
  if bOk then do
    let pThis ← lymodemSendEndOfBach pThis
    let s ← lymodemHandshake fuel pThis receivedChar bOk
    pure (if s.bOk then nbEmitted else -1, pThis)
  else pure (nbEmitted, pThis)

def lymodemEmit (fuel : ℕ) (pThis : ModemContext) : Program UInt8 (Int32 × ModemContext) := do
  let (bOk, receivedChar, pThis) ← lymodemEmitBlock0 fuel pThis
  let (bOk, nbEmitted, pThis) ← lymodemEmitData fuel pThis bOk
  let (nbEmitted, pThis) ← lymodemEmitEndOfBach fuel pThis bOk receivedChar nbEmitted
  pure (nbEmitted.toInt32, pThis)

def lmodemEmit (protocol : LmodemProtocol) (fuel : ℕ) (pThis : ModemContext) :
    Program UInt8 (Int32 × ModemContext) :=
  let pThis := { pThis with protocol := protocol }
  match protocol with
  | .xmodem => lxmodemEmit fuel pThis
  | .ymodem => lymodemEmit fuel pThis

end LightModem
