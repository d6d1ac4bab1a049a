import LightModem.Receiver

set_option autoImplicit false

/-! The XMODEM part of `lmodem_tx.c`. -/

namespace LightModem

open Interaction

def getcharWithin (wanted : UInt8 → Bool) : ℕ → Program UInt8 (Option UInt8)
  | 0 => pure none
  | attempts + 1 => do
    match ← getchars 1 with
    | .received data _ =>
      if wanted (data.headD 0) then pure (some (data.headD 0)) else getcharWithin wanted attempts
    | .timedOut _ _ => getcharWithin wanted attempts

def lxmodemDecodePreambule (pThis : ModemContext) (preambule : UInt8) : Bool :=
  if preambule = NAK then pThis.opts = .lxmodem128WithChksum
  else if preambule = charC then
    pThis.protocol = .ymodem || pThis.opts = .lxmodem128WithCrc || pThis.opts = .lxmodem1k
  else false

def lxmodeBlockFormat (pThis : ModemContext) : ℕ × Bool :=
  match pThis.protocol with
  | .xmodem => match pThis.opts with
    | .lxmodem128WithChksum => (128, false)
    | .lxmodem128WithCrc => (128, true)
    | .lxmodem1k => (1024, true)
  | .ymodem => (1024, true)

def lxmodeBuildAndSendOneDataBlock (pThis : ModemContext) (blkNo : UInt8) (defaultBlksize : ℕ)
    (withCrc : Bool) : Program UInt8 (ModemContext × Bool × Int32) :=
  let remainingBytes := (lmodemBufferGetSize pThis.ramfile).toUInt32.toNat
  let bytesToRead := min defaultBlksize remainingBytes
  let buffer := pThis.blkBuffer.buffer
  if bytesToRead = 0 then do
    let buffer := buffer.store 0 [EOT]
    putchars (buffer.load 0 1)
    let blkBuffer := { pThis.blkBuffer with buffer := buffer, currentSize := 1 }
    pure ({ pThis with blkBuffer := blkBuffer }, true, 0)
  else do
    let effectiveBlksize := if bytesToRead ≤ 128 then 128 else 1024
    let buffer := buffer.store 0 [if bytesToRead ≤ 128 then SOH else STX]
    let buffer := (buffer.store 1 [blkNo]).store 2 [~~~blkNo]
    let (ramfile, buffer, _) := lmodemBufferRead pThis.ramfile buffer 3 bytesToRead.toUInt32
    let buffer :=
      if remainingBytes < effectiveBlksize then
        buffer.store (3 + bytesToRead) (List.replicate (effectiveBlksize - remainingBytes) SUB)
      else buffer
    let (buffer, datablockSize) :=
      if withCrc then
        let crc := crc16DoCalcul pThis.crc16 (buffer.load 3 effectiveBlksize) 0 0
        let buffer := buffer.store (3 + effectiveBlksize) [((crc &&& 0xFF00) >>> 8).toUInt8]
        (buffer.store (3 + effectiveBlksize + 1) [(crc &&& 0x00FF).toUInt8], 3 + effectiveBlksize + 1 + 1)
      else
        let chksum := lxmodemCalculChksum (buffer.load 3 effectiveBlksize)
        (buffer.store (3 + effectiveBlksize) [chksum], 3 + effectiveBlksize + 1)
    putchars (buffer.load 0 datablockSize)
    let blkBuffer := { pThis.blkBuffer with buffer := buffer, currentSize := datablockSize }
    pure ({ pThis with ramfile := ramfile, blkBuffer := blkBuffer }, false, effectiveBlksize.toInt32)

def lxmodeReemitPreviousBlock (pThis : ModemContext) : Program UInt8 Unit :=
  putchars (pThis.blkBuffer.buffer.load 0 pThis.blkBuffer.currentSize)

structure LxmodeSendState where
  pThis : ModemContext
  bFinished : Bool
  blkNo : UInt8
  emittedBytes : UInt32
  nbEmitted : Int32
  isLastBlock : Bool
  retry : ℕ

def lxmodeSendBlock (s : LxmodeSendState) : Program UInt8 LxmodeSendState :=
  if s.retry = 0 then do
    let (defaultBlksize, withCrc) := lxmodeBlockFormat s.pThis
    let (pThis, isLastBlock, nbEmitted) ←
      lxmodeBuildAndSendOneDataBlock s.pThis s.blkNo defaultBlksize withCrc
    pure { s with pThis := pThis, isLastBlock := isLastBlock, nbEmitted := nbEmitted }
  else do
    lxmodeReemitPreviousBlock s.pThis
    pure s

def lxmodeHandleAnswer (s : LxmodeSendState) (ackBytes : Option UInt8) : LxmodeSendState :=
  let s := match ackBytes with
    | some ackBytes =>
      if ackBytes = ACK then
        let s := { s with blkNo := s.blkNo + 1 }
        if s.isLastBlock = false then
          { s with emittedBytes := s.emittedBytes + s.nbEmitted.toUInt32, retry := 0 }
        else { s with bFinished := true, retry := 0 }
      else if ackBytes = NAK then { s with retry := s.retry + 1 }
      else
        -- `CAN` and `default`; the retries of any kind count
        let s := { s with retry := s.retry + 1 }
        if s.retry ≥ 2 then { s with emittedBytes := -1, bFinished := true } else s
    | none => { s with retry := s.retry + 1 }
  if s.retry ≥ 10 then { s with emittedBytes := -1, bFinished := true } else s

def lxmodeSendTurn (s : LxmodeSendState) : Program UInt8 LxmodeSendState := do
  let s ← lxmodeSendBlock s
  let ackBytes ← getcharWithin (fun _ => true) 10
  pure (lxmodeHandleAnswer s ackBytes)

def lxmodeSendLoop : ℕ → LxmodeSendState → Program UInt8 LxmodeSendState :=
  whileLoop (fun s => !s.bFinished) lxmodeSendTurn

def LxmodeSendState.initial (pThis : ModemContext) : LxmodeSendState where
  pThis := pThis
  bFinished := false
  blkNo := 1
  emittedBytes := 0
  nbEmitted := 0
  isLastBlock := false
  retry := 0

def lxmodeSendDataBlocks (fuel : ℕ) (pThis : ModemContext) : Program UInt8 (Int32 × ModemContext) := do
  let s ← lxmodeSendLoop fuel (.initial pThis)
  pure (s.emittedBytes.toInt32, s.pThis)

def lxmodemEmit (fuel : ℕ) (pThis : ModemContext) : Program UInt8 (Int32 × ModemContext) := do
  match ← getcharWithin (fun _ => true) 10 with
  | none => pure (0, pThis)
  | some preambule =>
    if lxmodemDecodePreambule pThis preambule = false then do
      lxmodemBuildAndSendCancel
      pure (-1, pThis)
    else lxmodeSendDataBlocks fuel pThis

end LightModem
