import LightModem.Confluence
import LightModem.CrcDetection
import LightModem.FrameCheck
import LightModem.GivingUp
import LightModem.Receipt
import LightModem.Overflow
import LightModem.Mixture
import LightModem.NextFile
import LightModem.LateReplies
import LightModem.Mismatch
import LightModem.Capacity
import LightModem.Block0Layout
import LightModem.Truncation
import LightModem.Resending
import LightModem.Trim
import LightModem.Acknowledgement
import LightModem.Recovery
import LightModem.Batch
import LightModem.Positions
import LightModem.BufferCalls
import LightModem.BufferArithmetic
import LightModem.Getters
import LightModem.Cancels
import LightModem.Notice
import LightModem.InOrder
import LightModem.YmodemRecovery
import LightModem.Relay
import LightModem.Agreement
import LightModem.MetadataStore
import LightModem.CrcUndetected
import LightModem.RzszReception
import LightModem.Serial
import LightModem.ReadBounds
import LightModem.RzszSerial
import LightModem.Histories
import LightModem.SentStrings
