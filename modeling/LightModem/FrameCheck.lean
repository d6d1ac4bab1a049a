import LightModem.Delivery

set_option autoImplicit false

namespace LightModem

open Interaction

structure SameMode (sender receiver : ModemContext) : Prop where
  protocol : receiver.protocol = sender.protocol
  opts : receiver.opts = sender.opts
  crc16 : receiver.crc16 = sender.crc16
  configured : receiver.Configured

section FrameCheck

variable {sender receiver : ModemContext} {blksize : ℕ}

theorem SameMode.usesCrc (h : SameMode sender receiver) : receiver.usesCrc = sender.usesCrc := by
  rw [ModemContext.usesCrc, ModemContext.usesCrc, h.protocol, h.opts]

theorem SameMode.sameBlksize (h : SameMode sender receiver) : receiver.blksize = sender.blksize := by
  rw [ModemContext.blksize, ModemContext.blksize, h.protocol, h.opts]

theorem SameMode.hasCrc (h : SameMode sender receiver) (allowed : blksize = 128 ∨ blksize = sender.blksize) :
    lxmodemBlockHasCrc receiver blksize = sender.usesCrc := by
  rw [← h.usesCrc]
  rcases allowed with rfl | rfl
  · exact hasCrc_of_kind h.configured (Or.inl ⟨rfl, rfl⟩)
  · rcases blksize_eq sender with hb | hb <;> rw [hb]
    · exact hasCrc_of_kind h.configured (Or.inl ⟨rfl, rfl⟩)
    · refine hasCrc_of_kind h.configured (Or.inr ⟨rfl, rfl, ?_⟩)
      rw [← h.sameBlksize, ModemContext.blksize] at hb
      by_contra hopts
      rw [if_neg hopts] at hb
      cases hb

theorem store_load_cell (m : Memory UInt8) (n : ℕ) : (m.store 0 (m.load 0 n)).cell = m.cell := by
  funext i
  rcases Nat.lt_or_ge i n with h | h
  · rw [Memory.store_zero m (by rw [Memory.load_length]; exact h), Memory.load_getElem, Nat.zero_add]
  · exact Memory.store_of_ge m (by rw [Memory.load_length, Nat.zero_add]; exact h)

theorem lxmodemCheckBlockNoAndCrc_load (pThis : ModemContext) (n : UInt8) (blksize k : ℕ) :
    lxmodemCheckBlockNoAndCrc (pThis.fill (pThis.blkBuffer.buffer.load 0 k)) n blksize =
      lxmodemCheckBlockNoAndCrc pThis n blksize := by
  have cells := store_load_cell pThis.blkBuffer.buffer k
  simp only [lxmodemCheckBlockNoAndCrc, lxmodemCheckCrc, blockHasCrc_fill, fill_buffer, fill_crc16]
  have data : (pThis.blkBuffer.buffer.store 0 (pThis.blkBuffer.buffer.load 0 k)).load 2 blksize =
      pThis.blkBuffer.buffer.load 2 blksize := Memory.load_congr fun i _ => congrFun cells _
  simp only [data, cells]

theorem nextPayload_exact {payload : List UInt8} (size : payload.length = 128 ∨ payload.length = 1024)
    (fits : payload.length ≤ blksize) : nextPayload blksize payload = payload := by
  have full : payload.take blksize = payload := List.take_of_length_le fits
  have padding : blockSize payload.length - payload.length = 0 := by
    rcases size with h | h <;> rw [h] <;> rfl
  simp only [nextPayload, full, padding, List.replicate_zero, List.append_nil]

end FrameCheck

theorem lxmodemCheckBlockNoAndCrc_inverse (sender receiver : ModemContext) (mode : SameMode sender receiver)
    (n : UInt8) (blksize : ℕ) (allowed : blksize = 128 ∨ blksize = sender.blksize)
    (loaded : sender.ramfile.Loaded (receiver.blkBuffer.buffer.load 2 blksize)) :
    ∃ (header : UInt8) (body : List UInt8) (sender' : ModemContext),
      lxmodeBuildAndSendOneDataBlock sender n (lxmodeBlockFormat sender).1 (lxmodeBlockFormat sender).2 =
          .write (header :: body) (.done (sender', false, blksize.toInt32)) ∧
        (header = SOH ∧ blksize = 128 ∨ header = STX ∧ blksize = 1024) ∧
        (lxmodemCheckBlockNoAndCrc receiver n blksize = .recvOk ↔
          receiver.blkBuffer.buffer.load 0 body.length = body) ∧
        (lxmodemCheckBlockNoAndCrc receiver n blksize = .recvPreviousBlock ↔
          receiver.blkBuffer.buffer.load 0 2 = [n - 1, ~~~(n - 1)]) ∧
        (lxmodemCheckBlockNoAndCrc receiver n blksize = .recvError ↔
          receiver.blkBuffer.buffer.load 0 body.length ≠ body ∧
            receiver.blkBuffer.buffer.load 0 2 ≠ [n - 1, ~~~(n - 1)]) := by
  have hcrc := mode.hasCrc allowed
  have sizes : blksize = 128 ∨ blksize = 1024 := by
    rcases allowed with h | h
    · exact Or.inl h
    · rw [h]
      exact blksize_eq sender
  have fits : blksize ≤ sender.blksize := by
    have := blksize_eq sender
    omega
  have length : (receiver.blkBuffer.buffer.load 2 blksize).length = blksize := Memory.load_length _ _ _
  have hne : sender.ramfile.unread ≠ [] := by
    rw [loaded.unread]
    exact List.ne_nil_of_length_pos (by omega)
  have build := @lxmodeBuildAndSendOneDataBlock_data sender n sender.blksize sender.usesCrc loaded.readable
    (blksize_eq sender) hne
  rw [loaded.unread, nextPayload_exact (by rw [length]; exact sizes) (by rw [length]; exact fits), length, dataFrame,
    ← hcrc, ← mode.crc16] at build
  rw [lxmodeBlockFormat_eq, ← hcrc]
  have size : (receiver.blkBuffer.buffer.load 0 (bodySize receiver blksize)).length = bodySize receiver blksize :=
    Memory.load_length _ _ _
  have ok := lxmodemCheckBlockNoAndCrc_ok receiver n size
  have previous := lxmodemCheckBlockNoAndCrc_previous receiver n size
  rw [lxmodemCheckBlockNoAndCrc_load] at ok previous
  rw [Memory.load_take _ (show 2 ≤ bodySize receiver blksize by rw [bodySize]; omega)] at previous
  have accepts : lxmodemCheckBlockNoAndCrc receiver n blksize = .recvOk ↔
      receiver.blkBuffer.buffer.load 0 (bodySize receiver blksize) = frameBody receiver.crc16
        (lxmodemBlockHasCrc receiver blksize) n (receiver.blkBuffer.buffer.load 2 blksize) := by
    rw [ok]
    constructor
    · rintro ⟨payload, hp, hbody⟩
      have data := congrArg (fun l => (l.drop 2).take blksize) hbody
      simp only [frameBody, List.drop_succ_cons, List.drop_zero, ← hp, List.take_left] at data
      rw [Memory.load_drop _ (by rw [bodySize]; omega), Memory.load_take _ (by rw [bodySize]; omega), hp] at data
      rw [hbody, data]
    · exact fun hbody => ⟨_, length, hbody⟩
  have bodyLength : (frameBody receiver.crc16 (lxmodemBlockHasCrc receiver blksize) n
      (receiver.blkBuffer.buffer.load 2 blksize)).length = bodySize receiver blksize := by
    rw [frameBody_length, length, bodySize]
    omega
  refine ⟨_, _, _, build, ?_, ?_, previous, ?_⟩
  · rw [frameHeader, length]
    rcases sizes with h | h <;> rw [h]
    · exact Or.inl ⟨rfl, rfl⟩
    · exact Or.inr ⟨rfl, rfl⟩
  · rw [bodyLength]
    exact accepts
  · rw [bodyLength, Ne, ← accepts, Ne, ← previous]
    cases lxmodemCheckBlockNoAndCrc receiver n blksize <;> simp

theorem lxmodemCheckBlockNoAndCrc_inverse_zeros :
    ∃ (header : UInt8) (body : List UInt8) (sender' : ModemContext),
      lxmodeBuildAndSendOneDataBlock (checksumSender (List.replicate 128 0)) 1 128 false =
          .write (header :: body) (.done (sender', false, 128)) ∧
        (lxmodemCheckBlockNoAndCrc smallReceiver 1 128 = .recvOk ↔
          smallReceiver.blkBuffer.buffer.load 0 body.length = body) := by
  obtain ⟨header, body, sender', build, _, ok, _⟩ := lxmodemCheckBlockNoAndCrc_inverse
    (checksumSender (List.replicate 128 0)) smallReceiver ⟨rfl, rfl, rfl, rfl⟩ 1 128 (Or.inl rfl)
    ⟨⟨by decide +kernel, by decide +kernel⟩, by decide +kernel⟩
  exact ⟨header, body, sender', build, ok⟩

end LightModem
