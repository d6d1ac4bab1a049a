import LightModem.Context
import LightModem.Interaction

set_option autoImplicit false

/-! The XMODEM part of `lmodem_rx.c`. -/

namespace LightModem

open Interaction

inductive LxmodemReceptionStatus
  | recvOk
  | recvPreviousBlock
  | recvError
  deriving DecidableEq

def lxmodemBuildAndSendPreambule (pThis : ModemContext) : Program UInt8 Unit :=
  let p := match pThis.protocol with
    | .xmodem => match pThis.opts with
      | .lxmodem128WithChksum => NAK
      | .lxmodem128WithCrc => charC
      | .lxmodem1k => charC
    | .ymodem => charC
  putchars [p]

def lxmodemBuildAndSendReply (rcvStatus : LxmodemReceptionStatus) : Program UInt8 Unit :=
  putchars [if rcvStatus = .recvOk ∨ rcvStatus = .recvPreviousBlock then ACK else NAK]

def lxmodemBuildAndSendCancel : Program UInt8 Unit := putchars [CAN, CAN]

def lxmodemBlockHasCrc (pThis : ModemContext) (requestedBlksize : ℕ) : Bool :=
  pThis.withCrc || pThis.protocol = .ymodem || requestedBlksize > 128

def lxmodemCheckCrc (pThis : ModemContext) (requestedBlksize : ℕ) : LxmodemReceptionStatus :=
  let buffer := pThis.blkBuffer.buffer
  if lxmodemBlockHasCrc pThis requestedBlksize then
    let crc := crc16DoCalcul pThis.crc16 (buffer.load 2 requestedBlksize) 0 0
    let hiCrc := ((crc &&& 0xFF00) >>> 8).toUInt8
    let loCrc := (crc &&& 0xFF).toUInt8
    if hiCrc = buffer (2 + requestedBlksize) ∧ loCrc = buffer (2 + requestedBlksize + 1) then .recvOk
    else .recvError
  else
    let chksum := lxmodemCalculChksum (buffer.load 2 requestedBlksize)
    if chksum = buffer (requestedBlksize + 2) then .recvOk else .recvError

def lxmodemCheckBlockNoAndCrc (pThis : ModemContext) (expectedBlkNumber : UInt8)
    (requestedBlksize : ℕ) : LxmodemReceptionStatus :=
  let buffer := pThis.blkBuffer.buffer
  if buffer 0 = expectedBlkNumber ∧ buffer 1 = ~~~expectedBlkNumber then
    lxmodemCheckCrc pThis requestedBlksize
  else
    let previousBlkNumber := expectedBlkNumber - 1
    if buffer 0 = previousBlkNumber ∧ buffer 1 = ~~~previousBlkNumber then .recvPreviousBlock
    else .recvError

def ModemContext.fill (pThis : ModemContext) (data : List UInt8) : ModemContext :=
  { pThis with blkBuffer := { pThis.blkBuffer with buffer := pThis.blkBuffer.buffer.store 0 data } }

def lxmodemReceiveBlock (pThis : ModemContext) (expectedBlkNumber : UInt8) (requestedBlksize : ℕ) :
    Program UInt8 (LxmodemReceptionStatus × ModemContext) := do
  let requestedData := requestedBlksize + 2 + if lxmodemBlockHasCrc pThis requestedBlksize then 2 else 1
  match ← getchars requestedData with
  | .received data _ =>
    let pThis := pThis.fill data
    pure (lxmodemCheckBlockNoAndCrc pThis expectedBlkNumber requestedBlksize, pThis)
  | .timedOut written _ => pure (.recvError, pThis.fill written)

structure LxmodemReceiveState where
  pThis : ModemContext
  bFinished : Bool
  receivedBytes : UInt32
  expectedBlkNumber : UInt8
  canCharReceived : ℕ
  nbRetry : ℕ

def lxmodemReceiveHeader (s : LxmodemReceiveState) (header : UInt8) :
    Program UInt8 (LxmodemReceiveState × LxmodemReceptionStatus × ℕ) :=
  if header = SOH then do
    let (rcvStatus, pThis) ← lxmodemReceiveBlock s.pThis s.expectedBlkNumber 128
    pure ({ s with canCharReceived := 0, pThis := pThis }, rcvStatus, 128)
  else if header = STX then
    if s.pThis.opts = .lxmodem1k ∨ s.pThis.protocol = .ymodem then do
      let (rcvStatus, pThis) ← lxmodemReceiveBlock s.pThis s.expectedBlkNumber 1024
      pure ({ s with canCharReceived := 0, pThis := pThis }, rcvStatus, 1024)
    else pure ({ s with canCharReceived := 0 }, .recvError, 0)
  else if header = EOT then
    pure ({ s with canCharReceived := 0, bFinished := true }, .recvOk, 0)
  else if header = CAN then
    let s := { s with canCharReceived := s.canCharReceived + 1 }
    if s.canCharReceived ≥ 2 then pure ({ s with bFinished := true, receivedBytes := -1 }, .recvError, 0)
    else pure (s, .recvError, 0)
  -- the `default` case, which keeps the count of cancels
  else pure (s, .recvError, 0)

def lxmodemReceiveStore (s : LxmodemReceiveState) (blksize : ℕ) : Program UInt8 LxmodemReceiveState :=
  let (ramfile, nbPutInRamFile) :=
    lmodemBufferWrite s.pThis.ramfile (s.pThis.blkBuffer.buffer.shift 2) blksize.toUInt32
  let pThis := { s.pThis with ramfile := ramfile }
  if nbPutInRamFile ≠ blksize.toInt32 then do
    putchars [CAN, CAN]
    pure { s with pThis := pThis, bFinished := true, receivedBytes := -1 }
  else
    pure { s with
      pThis := pThis
      expectedBlkNumber := s.expectedBlkNumber + 1
      receivedBytes := s.receivedBytes + blksize.toUInt32
      nbRetry := 0 }

def lxmodemReceiveRetry (s : LxmodemReceiveState) : Program UInt8 LxmodemReceiveState :=
  let s := { s with nbRetry := s.nbRetry + 1 }
  if s.nbRetry ≥ 10 then do
    lxmodemBuildAndSendCancel
    pure { s with receivedBytes := -1, bFinished := true }
  else pure s

def lxmodemReceiveChar (s : LxmodemReceiveState) (header : UInt8) : Program UInt8 LxmodemReceiveState := do
  let (s, rcvStatus, blksize) ← lxmodemReceiveHeader s header
  lxmodemBuildAndSendReply rcvStatus
  if rcvStatus = .recvOk then lxmodemReceiveStore s blksize else lxmodemReceiveRetry s

def lxmodemReceiveTurn (s : LxmodemReceiveState) : Program UInt8 LxmodemReceiveState := do
  match ← getchars 1 with
  | .received data _ => lxmodemReceiveChar s (data.headD 0)
  | .timedOut _ _ => lxmodemReceiveRetry s

def lxmodemReceiveLoop : ℕ → LxmodemReceiveState → Program UInt8 LxmodemReceiveState :=
  whileLoop (fun s => !s.bFinished) lxmodemReceiveTurn

def LxmodemReceiveState.initial (pThis : ModemContext) : LxmodemReceiveState where
  pThis := pThis
  bFinished := false
  receivedBytes := 0
  expectedBlkNumber := 1
  canCharReceived := 0
  nbRetry := 0

def lxmodemReceive (fuel : ℕ) (pThis : ModemContext) : Program UInt8 (Int32 × ModemContext) := do
  lxmodemBuildAndSendPreambule pThis
  let s ← lxmodemReceiveLoop fuel (.initial pThis)
  pure (s.receivedBytes.toInt32, s.pThis)

end LightModem
