import LightModem.Storage
import LightModem.Transmission
import LightModem.YmodemReceiver
import LightModem.YmodemSender

set_option autoImplicit false

namespace LightModem

open Interaction

section Receiver

theorem lxmodemReceiveRetry_terminates (s : LxmodemReceiveState) : (lxmodemReceiveRetry s).Terminates := by
  rw [lxmodemReceiveRetry_eq]
  split <;> trivial

theorem lxmodemReceiveStore_terminates (s : LxmodemReceiveState) (blksize : ℕ) :
    (lxmodemReceiveStore s blksize).Terminates := by
  simp only [lxmodemReceiveStore]
  split <;> trivial

theorem lxmodemReceiveBlock_terminates (pThis : ModemContext) (expectedBlkNumber : UInt8)
    (requestedBlksize : ℕ) :
    (lxmodemReceiveBlock pThis expectedBlkNumber requestedBlksize).Terminates := by
  rw [lxmodemReceiveBlock, getchars_bind]
  intro r
  cases r <;> trivial

theorem lxmodemReceiveHeader_terminates (s : LxmodemReceiveState) (header : UInt8) :
    (lxmodemReceiveHeader s header).Terminates := by
  have block (blksize : ℕ) := lxmodemReceiveBlock_terminates s.pThis s.expectedBlkNumber blksize
  simp only [lxmodemReceiveHeader]
  split_ifs
  · exact (block 128).bind fun _ => trivial
  · exact (block 1024).bind fun _ => trivial
  all_goals trivial

theorem lxmodemReceiveTurn_terminates (s : LxmodemReceiveState) : (lxmodemReceiveTurn s).Terminates := by
  rw [lxmodemReceiveTurn_eq]
  intro r
  cases r with
  | timedOut written size => exact lxmodemReceiveRetry_terminates s
  | received data size =>
    refine (lxmodemReceiveHeader_terminates s _).bind fun ⟨s', rcvStatus, blksize⟩ => ?_
    change (ite _ _ _ : Program UInt8 LxmodemReceiveState).Terminates
    split
    · exact lxmodemReceiveStore_terminates s' blksize
    · exact lxmodemReceiveRetry_terminates s'

def ReceiveBound (m : ℕ) (s : LxmodemReceiveState) : Prop :=
  s.pThis.ramfile.Writable ∧ (s.bFinished = true ∨
    11 * (s.pThis.ramfile.maxSize.toNat - s.pThis.ramfile.writeOffset.toNat) + (10 - s.nbRetry) < m)

variable {s s' : LxmodemReceiveState} {t : List (Event UInt8)} {m : ℕ}

theorem ReceiveTurn.bound (h : ReceiveTurn s t s') (hm : ReceiveBound m s) (running : s.bFinished = false) :
    ∃ m' < m, ReceiveBound m' s' := by
  obtain ⟨hs, hm⟩ := hm
  have hm : 11 * (s.pThis.ramfile.maxSize.toNat - s.pThis.ramfile.writeOffset.toNat) +
      (10 - s.nbRetry) < m := by
    rcases hm with hf | hm
    · rw [running] at hf
      cases hf
    · exact hm
  cases h with
  | @failure t₀ s₀ h =>
    have hu := h.untouched.trans (retried_untouched s₀)
    have hn := h.nbRetry
    rcases Nat.lt_or_ge (s.nbRetry + 1) 10 with hlt | hge
    · refine ⟨m - 1, by omega, by rw [hu.ramfile]; exact hs, Or.inr ?_⟩
      rw [hu.ramfile, retried_nbRetry, hn]
      omega
    · exact ⟨0, by omega, by rw [hu.ramfile]; exact hs, Or.inl (retried_finished (by omega))⟩
  | stored header payload kind fits =>
    have hsize := kind.size
    have hw : ((s.filled (s.body payload)).stored payload).pThis.ramfile.writeOffset.toNat =
        s.pThis.ramfile.writeOffset.toNat + payload.length := appended_writeOffset hs.size fits.le
    refine ⟨m - 1, by omega, appended_writable hs.size fits.le, Or.inr ?_⟩
    rw [hw]
    change 11 * (s.pThis.ramfile.maxSize.toNat - _) + (10 - 0) < _
    omega
  | full header payload kind full => exact ⟨0, by omega, hs, Or.inl rfl⟩
  | endOfFile => exact ⟨0, by omega, hs, Or.inl rfl⟩

theorem lxmodemReceive_terminates {pThis : ModemContext} (hs : pThis.ramfile.Writable) {fuel : ℕ}
    (hfuel : 11 * pThis.ramfile.maxSize.toNat + 11 < fuel) : (lxmodemReceive fuel pThis).Terminates := by
  have start : ReceiveBound (11 * pThis.ramfile.maxSize.toNat + 11) (.initial pThis) := by
    refine ⟨hs, Or.inr ?_⟩
    change 11 * (pThis.ramfile.maxSize.toNat - pThis.ramfile.writeOffset.toNat) + (10 - 0) < _
    omega
  refine (terminates_whileLoop ReceiveBound (fun _ s _ _ => lxmodemReceiveTurn_terminates s) ?_ start
    hfuel).bind fun _ => trivial
  intro m s hm hrunning
  have running : s.bFinished = false := by simpa using hrunning
  exact (lxmodemReceiveTurn_ensures hm.1).mono fun t s' h => h.bound hm running

end Receiver

section Sender

variable {pThis : ModemContext} {file : List UInt8}

theorem lxmodemEmit_terminates (h : pThis.ramfile.Loaded file) {fuel : ℕ}
    (hfuel : 11 * blockCount pThis.blksize file + 11 < fuel) : (lxmodemEmit fuel pThis).Terminates := by
  apply (getcharWithin_terminates _ _).bind
  intro preambule
  cases preambule with
  | none => trivial
  | some preambule =>
    change (ite _ _ _ : Program UInt8 (Int32 × ModemContext)).Terminates
    split
    · trivial
    · exact lxmodeSendDataBlocks_terminates h hfuel

end Sender

theorem xmodem_halts (pThis : ModemContext) (hs : pThis.ramfile.WellFormed) (o : Peer UInt8) :
    Halts (fun fuel => lmodemReceive .xmodem fuel pThis) o ∧
      Halts (fun fuel => lmodemEmit .xmodem fuel pThis) o :=
  ⟨halts_of_terminates ⟨_, @lxmodemReceive_terminates { pThis with protocol := .xmodem } hs.toWritable _
      (Nat.lt_succ_self _)⟩ o,
    halts_of_terminates ⟨_, @lxmodemEmit_terminates { pThis with protocol := .xmodem } _
      ⟨hs.readable, rfl⟩ _ (Nat.lt_succ_self _)⟩ o⟩

theorem xmodem_halts_repeated :
    Halts (fun fuel => lmodemReceive .xmodem fuel smallReceiver)
        (fun i n => Peer.scripted [[SOH], frameBody smallReceiver.crc16 false 1 (.replicate 128 0)] (i % 2) n) ∧
      Halts (fun fuel => lmodemEmit .xmodem fuel smallReceiver)
        (fun i n => Peer.scripted [[SOH], frameBody smallReceiver.crc16 false 1 (.replicate 128 0)] (i % 2) n) :=
  xmodem_halts smallReceiver ⟨⟨by decide, by decide⟩, by decide⟩ _

end LightModem
