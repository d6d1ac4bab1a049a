import LightModem.Device
import LightModem.Termination

set_option autoImplicit false

namespace LightModem

open Interaction

variable {cost : ℕ → ℕ} {c : ℕ}

section Receiver

def TurnsLeft (m : ℕ) (s : LxmodemReceiveState) : Prop :=
  s.pThis.ramfile.Writable ∧ (s.bFinished = true ∨ s.nbRetry ≤ 9 ∧
    10 * ((s.pThis.ramfile.maxSize.toNat - 1 - s.pThis.ramfile.writeOffset.toNat) / 128) + (10 - s.nbRetry) ≤ m)

variable {s s' : LxmodemReceiveState} {t : List (Event UInt8)} {m : ℕ}

theorem ReceiveTurn.turnsLeft (h : ReceiveTurn s t s') (hm : TurnsLeft m s) (running : s.bFinished = false) :
    ∃ m' < m, TurnsLeft m' s' := by
  obtain ⟨hs, hm⟩ := hm
  obtain ⟨patient, hm⟩ : s.nbRetry ≤ 9 ∧
      10 * ((s.pThis.ramfile.maxSize.toNat - 1 - s.pThis.ramfile.writeOffset.toNat) / 128) + (10 - s.nbRetry) ≤ m := by
    rcases hm with hf | hm
    · rw [running] at hf
      cases hf
    · exact hm
  cases h with
  | @failure t₀ s₀ h =>
    have hu := h.untouched.trans (retried_untouched s₀)
    have hn := h.nbRetry
    rcases Nat.lt_or_ge (s.nbRetry + 1) 10 with hlt | hge
    · refine ⟨m - 1, by omega, by rw [hu.ramfile]; exact hs, Or.inr ?_⟩
      rw [hu.ramfile, retried_nbRetry, hn]
      omega
    · exact ⟨0, by omega, by rw [hu.ramfile]; exact hs, Or.inl (retried_finished (by omega))⟩
  | stored header payload kind fits =>
    have hsize := kind.size
    have hw : ((s.filled (s.body payload)).stored payload).pThis.ramfile.writeOffset.toNat =
        s.pThis.ramfile.writeOffset.toNat + payload.length := appended_writeOffset hs.size fits.le
    refine ⟨m - 1, by omega, appended_writable hs.size fits.le, Or.inr ⟨Nat.zero_le 9, ?_⟩⟩
    rw [hw]
    change 10 * ((s.pThis.ramfile.maxSize.toNat - 1 - _) / 128) + (10 - 0) ≤ _
    omega
  | full header payload kind full => exact ⟨0, by omega, hs, Or.inl rfl⟩
  | endOfFile => exact ⟨0, by omega, hs, Or.inl rfl⟩

theorem bodySize_le {pThis : ModemContext} {header : UInt8} {blksize : ℕ} (kind : FrameKind pThis header blksize) :
    bodySize pThis blksize ≤ 1028 := by
  have size : blksize = 128 ∨ blksize = 1024 := kind.imp And.right fun h => h.2.1
  have check : checkSize (lxmodemBlockHasCrc pThis blksize) ≤ 2 := by
    unfold checkSize
    split <;> decide
  rw [bodySize]
  omega

theorem ReceiveTurn.costs (h : ReceiveTurn s t s') (hc : ∀ n ≤ 1028, cost 1 + cost n ≤ c) : costOf cost t ≤ c := by
  have one : cost 1 ≤ c := Nat.le_trans (Nat.le_add_right _ _) (hc 0 (Nat.zero_le _))
  have block {header : UInt8} {blksize : ℕ} (kind : FrameKind s.pThis header blksize) :
      cost 1 + cost (bodySize s.pThis blksize) ≤ c := hc _ (bodySize_le kind)
  have stored {header : UInt8} {payload : List UInt8} (kind : FrameKind s.pThis header payload.length) :
      cost 1 + cost (s.body payload).length ≤ c := by
    rw [body_length]
    exact block kind
  cases h with
  | @failure t₀ s₀ h =>
    have retry : costOf cost s₀.retryEvents = 0 := by
      rw [LxmodemReceiveState.retryEvents]
      split <;> rfl
    rw [costOf_append, retry, Nat.add_zero]
    cases h with
    | silence => simpa using one
    | noise header h => simpa using one
    | unsupported h => simpa using one
    | cancel h => simpa using one
    | secondCancel h => simpa using one
    | lost header blksize written kind size => simpa using block kind
    | bad header blksize body kind size status => simpa [size] using block kind
    | repeated header blksize body kind size status => simpa [size] using block kind
  | stored header payload kind fits => simpa using stored kind
  | full header payload kind full => simpa using stored kind
  | endOfFile => simpa using one

theorem lxmodemReceive_cost {pThis : ModemContext} (hs : pThis.ramfile.Writable)
    (hc : ∀ n ≤ 1028, cost 1 + cost n ≤ c) (fuel : ℕ) :
    (lxmodemReceive fuel pThis).Ensures (fun t _ => costOf cost t ≤
      c * (10 * ((pThis.ramfile.maxSize.toNat - 1 - pThis.ramfile.writeOffset.toNat) / 128) + 10)) := by
  rw [lxmodemReceive, lxmodemBuildAndSendPreambule, putchars_bind, Program.ensures_write, Program.ensures_bind]
  have start : TurnsLeft (10 * ((pThis.ramfile.maxSize.toNat - 1 - pThis.ramfile.writeOffset.toNat) / 128) + 10)
      (.initial pThis) := ⟨hs, Or.inr ⟨Nat.zero_le 9, le_rfl⟩⟩
  have loop : (lxmodemReceiveLoop fuel (.initial pThis)).Ensures (fun t _ => costOf cost t ≤
      c * (10 * ((pThis.ramfile.maxSize.toNat - 1 - pThis.ramfile.writeOffset.toNat) / 128) + 10)) := by
    apply costOf_whileLoop TurnsLeft c _ start
    intro m s hm hrunning
    have running : s.bFinished = false := by simpa using hrunning
    exact (lxmodemReceiveTurn_ensures hm.1).mono fun t s' h => ⟨h.costs hc, h.turnsLeft hm running⟩
  refine loop.mono fun t s bound => ?_
  change costOf cost (.sent _ :: (t ++ [])) ≤ _
  rwa [costOf_sent, List.append_nil]

end Receiver

section Sender

variable {pThis : ModemContext} {file : List UInt8} {i m n : ℕ} {s s' : LxmodeSendState} {a : Option UInt8}
  {t : List (Event UInt8)} {wanted : UInt8 → Bool}

theorem Awaits.costs (h : Awaits wanted n t a) : costOf cost t ≤ n * cost 1 := by
  induction h with
  | gaveUp => exact Nat.zero_le _
  | timedOut h ih =>
    rw [costOf_timedOut, Nat.succ_mul]
    omega
  | other b hb h ih =>
    rw [costOf_received, List.length_singleton, Nat.succ_mul]
    omega
  | came b hb =>
    rw [costOf_received, List.length_singleton, costOf_nil, Nat.succ_mul]
    omega

def CopiesLeft (pThis : ModemContext) (file : List UInt8) (m : ℕ) (s : LxmodeSendState) : Prop :=
  s.bFinished = true ∨ ∃ i, SendHead pThis file i s ∧ s.retry ≤ 9 ∧
    10 * (blockCount pThis.blksize file - i) + (10 - s.retry) ≤ m

theorem Answered.copiesLeft (h : Answered pThis file i s.retry a s') (patient : s.retry ≤ 9)
    (hm : 10 * (blockCount pThis.blksize file - i) + (10 - s.retry) ≤ m) :
    ∃ m' < m, CopiesLeft pThis file m' s' := by
  cases h with
  | next hi head hr => exact ⟨m - 1, by omega, Or.inr ⟨i + 1, head, by omega, by omega⟩⟩
  | finished hi hf he _ => exact ⟨0, by omega, Or.inl hf⟩
  | again ha hg head hr =>
    have hten : s.retry + 1 < 10 := by
      by_contra hge
      exact hg (Or.inl (by omega))
    exact ⟨m - 1, by omega, Or.inr ⟨i, head, by omega, by omega⟩⟩
  | gaveUp ha hg hf he => exact ⟨0, by omega, Or.inl hf⟩

theorem lxmodeSendDataBlocks_cost (h : pThis.ramfile.Loaded file) (fuel : ℕ) :
    (lxmodeSendDataBlocks fuel pThis).Ensures (fun t _ => costOf cost t ≤
      10 * cost 1 * (10 * blockCount pThis.blksize file + 10)) := by
  have start : CopiesLeft pThis file (10 * blockCount pThis.blksize file + 10) (.initial pThis) :=
    Or.inr ⟨0, sendHead_initial h, Nat.zero_le 9, le_rfl⟩
  have loop : (lxmodeSendLoop fuel (.initial pThis)).Ensures (fun t _ => costOf cost t ≤
      10 * cost 1 * (10 * blockCount pThis.blksize file + 10)) := by
    apply costOf_whileLoop (CopiesLeft pThis file) (10 * cost 1) _ start
    intro m s hm hrunning
    have running : s.bFinished = false := by simpa using hrunning
    rcases hm with hf | ⟨i, head, patient, hm⟩
    · rw [running] at hf
      cases hf
    · refine (lxmodeSendTurn_ensures h.length_lt head).mono ?_
      rintro t s' ⟨t', a, rfl, awaits, answered⟩
      exact ⟨awaits.costs, answered.copiesLeft patient hm⟩
  rw [lxmodeSendDataBlocks, Program.ensures_bind]
  refine loop.mono fun t s bound => ?_
  change costOf cost (t ++ []) ≤ _
  rwa [List.append_nil]

theorem lxmodemEmit_cost (h : pThis.ramfile.Loaded file) (fuel : ℕ) :
    (lxmodemEmit fuel pThis).Ensures (fun t _ => costOf cost t ≤
      10 * cost 1 * (10 * blockCount pThis.blksize file + 11)) := by
  rw [lxmodemEmit_eq, Program.ensures_bind]
  refine (getcharWithin_ensures (fun _ => true) 10).mono ?_
  intro t a awaits
  have waited : costOf cost t ≤ 10 * cost 1 := awaits.costs
  have enough : costOf cost t ≤ 10 * cost 1 * (10 * blockCount pThis.blksize file + 11) :=
    waited.trans (Nat.le_mul_of_pos_right _ (Nat.succ_pos _))
  cases a with
  | none =>
    change costOf cost (t ++ []) ≤ _
    rwa [List.append_nil]
  | some preambule =>
    change (if lxmodemDecodePreambule pThis preambule = false then _ else _ :
      Program UInt8 (Int32 × ModemContext)).Ensures _
    split
    · change costOf cost (t ++ [.sent [CAN, CAN]]) ≤ _
      rwa [costOf_append, costOf_sent, costOf_nil]
    · refine (@lxmodeSendDataBlocks_cost cost _ _ h fuel).mono fun t' r bound => ?_
      rw [costOf_append, Nat.mul_succ]
      omega

end Sender

theorem reads_eq_costOf (t : List (Event UInt8)) : reads t = costOf (fun _ => 1) t := by
  induction t with
  | nil => rfl
  | cons e t ih =>
    cases e with
    | sent data => rw [reads_sent, ih, costOf_sent]
    | received data =>
      rw [costOf_received, ← ih, Nat.add_comm]
      exact reads_reply (.received data rfl) t
    | timedOut n =>
      rw [costOf_timedOut, ← ih, Nat.add_comm]
      exact reads_reply (.timedOut (n := n) [] (Nat.zero_le n)) t

theorem xmodem_reads (pThis : ModemContext) (hs : pThis.ramfile.WellFormed) (o : Peer UInt8) :
    (∃ t r, Returns (fun fuel => lmodemReceive .xmodem fuel pThis) o t r ∧
      reads t ≤ 2 * (10 * ((pThis.ramfile.maxSize.toNat - 1 - pThis.ramfile.writeOffset.toNat) / 128) + 10)) ∧
    ∃ t r, Returns (fun fuel => lmodemEmit .xmodem fuel pThis) o t r ∧
      reads t ≤ 10 * (10 * blockCount { pThis with protocol := .xmodem }.blksize pThis.ramfile.unread + 11) := by
  constructor
  · have halts : Halts (fun fuel => lmodemReceive .xmodem fuel pThis) o := halts_of_terminates ⟨_,
      @lxmodemReceive_terminates { pThis with protocol := .xmodem } hs.toWritable _ (Nat.lt_succ_self _)⟩ o
    obtain ⟨t, r, returns⟩ := halts
    refine ⟨t, r, returns, ?_⟩
    rw [reads_eq_costOf]
    exact returns.ensures (lxmodemReceive_cost hs.toWritable fun _ _ => le_rfl)
  · have loaded : { pThis with protocol := .xmodem }.ramfile.Loaded pThis.ramfile.unread := ⟨hs.readable, rfl⟩
    have halts : Halts (fun fuel => lmodemEmit .xmodem fuel pThis) o :=
      halts_of_terminates ⟨_, lxmodemEmit_terminates loaded (Nat.lt_succ_self _)⟩ o
    obtain ⟨t, r, returns⟩ := halts
    refine ⟨t, r, returns, ?_⟩
    rw [reads_eq_costOf]
    exact returns.ensures (lxmodemEmit_cost loaded)

theorem xmodem_reads_silence :
    (∃ t r, Returns (fun fuel => lmodemReceive .xmodem fuel smallReceiver) (.scripted []) t r ∧ reads t ≤ 40) ∧
      ∃ t r, Returns (fun fuel => lmodemEmit .xmodem fuel smallReceiver) (.scripted []) t r ∧ reads t ≤ 110 :=
  xmodem_reads smallReceiver ⟨⟨by decide, by decide⟩, by decide⟩ _

end LightModem
