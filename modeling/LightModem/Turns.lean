import LightModem.Phases

set_option autoImplicit false

namespace LightModem

open Interaction

structure Stocked (sender receiver : ModemContext) (file : List UInt8) (j : ℕ) (s : LxmodemReceiveState) :
    Prop extends Receiving sender receiver file j s where
  fits : receiver.ramfile.writeOffset.toNat + (payloadsBefore sender.blksize file j).length ≤
    receiver.ramfile.maxSize.toNat

def LxmodemReceiveState.Dead (s : LxmodemReceiveState) : Prop := s.bFinished = true ∧ s.receivedBytes = -1

structure Complete (sender receiver : ModemContext) (file : List UInt8) (s : LxmodemReceiveState) : Prop where
  finished : s.bFinished = true
  ramfile : s.pThis.ramfile = receiver.ramfile.appended (paddedFile sender.blksize file)
  fits : receiver.ramfile.writeOffset.toNat + (paddedFile sender.blksize file).length ≤
    receiver.ramfile.maxSize.toNat

inductive BlockOutcome (sender receiver : ModemContext) (file : List UInt8) (j : ℕ) (s : LxmodemReceiveState)
    (blksize : ℕ) (body : List UInt8) (pending : List (List UInt8)) (s' : LxmodemReceiveState) : Prop
  | dead (dead : s'.Dead)
  | refused (status : lxmodemCheckBlockNoAndCrc (s.pThis.fill body) s.expectedBlkNumber blksize = .recvError)
      (writes : pending = [[NAK]]) (stocked : Stocked sender receiver file j s')
  | repeated (status : lxmodemCheckBlockNoAndCrc (s.pThis.fill body) s.expectedBlkNumber blksize =
        .recvPreviousBlock) (writes : pending = [[ACK]]) (stocked : Stocked sender receiver file j s')
  | stored (payload : List UInt8) (size : payload.length = blksize) (accepted : body = s.body payload) (writes : pending = [[ACK]])
      (state : s' = (s.filled body).stored payload)
      (fits : s.pThis.ramfile.writeOffset.toNat + payload.length < s.pThis.ramfile.maxSize.toNat)

section Turns

variable {sender receiver : ModemContext} {file : List UInt8} {j : ℕ} {s s' : LxmodemReceiveState}
  {t : List (Event UInt8)} {header : UInt8} {blksize : ℕ} {body : List UInt8}
  {pending : List (List UInt8)}

theorem Stocked.failure (h : Stocked sender receiver file j s) (hf : ReceiveFailure s t s') :
    s'.retried.Dead ∨ s'.retryEvents = [] ∧ Stocked sender receiver file j s'.retried := by
  have hu := hf.untouched.trans (retried_untouched s')
  rcases hu.result with ⟨running, bytes⟩ | dead
  · refine Or.inr ⟨?_, ⟨h.setup.trans hu.setup, running.trans h.running, hu.blkNumber.trans h.number,
      hu.ramfile.trans h.ramfile, (congrArg UInt32.toNat bytes).trans h.bytes⟩, h.fits⟩
    apply retryEvents_early
    by_contra ten
    rw [retried_finished (Nat.not_lt.mp ten), h.running] at running
    cases running
  · exact Or.inl dead

theorem map_sent_eq_nil (h : ([] : List (Event UInt8)) = pending.map .sent) : pending = [] :=
  List.map_eq_nil_iff.mp h.symm

theorem map_sent_eq_one {d : List UInt8} (h : [Event.sent d] = pending.map .sent) : pending = [d] := by
  cases pending with
  | nil => cases h
  | cons w pending =>
    obtain ⟨hw, hrest⟩ := List.cons.inj h
    cases hw
    rw [map_sent_eq_nil hrest]

theorem Stocked.expires (h : Stocked sender receiver file j s)
    (turn : ReceiveTurn s (.timedOut 1 :: pending.map .sent) s') :
    s'.Dead ∨ pending = [] ∧ Stocked sender receiver file j s' := by
  generalize he : Event.timedOut 1 :: pending.map .sent = t at turn
  cases turn with
  | failure hf =>
    rcases h.failure hf with dead | ⟨none, stocked⟩
    · exact Or.inl dead
    · rw [none, List.append_nil] at he
      cases hf with
      | silence => exact Or.inr ⟨map_sent_eq_nil (List.cons.inj he).2.symm, stocked⟩
      | noise => cases he
      | unsupported => cases he
      | cancel => cases he
      | secondCancel => cases he
      | lost => cases he
      | bad => cases he
      | repeated => cases he
  | stored header payload kind fits => cases he
  | full header payload kind full => cases he
  | endOfFile => cases he

theorem map_sent_eq_cons {e : Event UInt8} (h : pending.map .sent = e :: t) : ∃ d, e = .sent d := by
  obtain ⟨d, _, _, hd, _⟩ := List.map_eq_cons_iff.mp h
  exact ⟨d, hd.symm⟩

theorem Stocked.answered (h : Stocked sender receiver file j s) {past : List (Event UInt8)} {d : List UInt8}
    (hf : ReceiveFailure s (past ++ [.sent d]) s')
    (he : past ++ pending.map .sent = past ++ [.sent d] ++ s'.retryEvents) :
    s'.retried.Dead ∨ pending = [d] ∧ Stocked sender receiver file j s'.retried := by
  rcases h.failure hf with dead | ⟨none, stocked⟩
  · exact Or.inl dead
  · rw [none, List.append_nil] at he
    exact Or.inr ⟨map_sent_eq_one (List.append_cancel_left he).symm, stocked⟩

theorem Stocked.char (h : Stocked sender receiver file j s)
    (turn : ReceiveTurn s (.received [header] :: pending.map .sent) s') :
    s'.Dead ∨ header ≠ EOT ∧ pending = [[NAK]] ∧ Stocked sender receiver file j s' ∨
      header = EOT ∧ pending = [[ACK]] ∧ s'.bFinished = true ∧ s'.pThis = s.pThis := by
  generalize he : Event.received [header] :: pending.map .sent = t at turn
  cases turn with
  | @failure t s₀ hf =>
    suffices hrest : header ≠ EOT ∧
        (s₀.retried.Dead ∨ pending = [[NAK]] ∧ Stocked sender receiver file j s₀.retried) by
      obtain ⟨hne, dead | refused⟩ := hrest
      · exact Or.inl dead
      · exact Or.inr (Or.inl ⟨hne, refused⟩)
    cases hf with
    | silence => cases he
    | noise header' hnoise =>
      obtain ⟨hh, _⟩ := List.cons.inj he
      cases hh
      refine ⟨fun heot => hnoise (by simp [heot]), ?_⟩
      exact @Stocked.answered sender receiver file j s _ pending h [.received [header]] _ (.noise _ hnoise) he
    | unsupported hopts =>
      obtain ⟨hh, _⟩ := List.cons.inj he
      cases hh
      refine ⟨by decide, ?_⟩
      exact @Stocked.answered sender receiver file j s _ pending h [.received [STX]] _ (.unsupported hopts) he
    | cancel hc =>
      obtain ⟨hh, _⟩ := List.cons.inj he
      cases hh
      refine ⟨by decide, ?_⟩
      exact @Stocked.answered sender receiver file j s _ pending h [.received [CAN]] _ (.cancel hc) he
    | secondCancel hc =>
      obtain ⟨hh, _⟩ := List.cons.inj he
      cases hh
      refine ⟨by decide, ?_⟩
      exact @Stocked.answered sender receiver file j s _ pending h [.received [CAN]] _ (.secondCancel hc) he
    | lost =>
      obtain ⟨d, hd⟩ := map_sent_eq_cons (List.cons.inj he).2
      cases hd
    | bad =>
      obtain ⟨d, hd⟩ := map_sent_eq_cons (List.cons.inj he).2
      cases hd
    | repeated =>
      obtain ⟨d, hd⟩ := map_sent_eq_cons (List.cons.inj he).2
      cases hd
  | stored header payload kind fits =>
    obtain ⟨d, hd⟩ := map_sent_eq_cons (List.cons.inj he).2
    cases hd
  | full header payload kind full =>
    obtain ⟨d, hd⟩ := map_sent_eq_cons (List.cons.inj he).2
    cases hd
  | endOfFile =>
    obtain ⟨hh, hrest⟩ := List.cons.inj he
    cases hh
    exact Or.inr (Or.inr ⟨rfl, map_sent_eq_one hrest.symm, rfl, rfl⟩)

theorem Stocked.breaks (h : Stocked sender receiver file j s) {n : ℕ}
    (turn : ReceiveTurn s (.received [header] :: .timedOut n :: pending.map .sent) s') :
    s'.Dead ∨ pending = [[NAK]] ∧ Stocked sender receiver file j s' := by
  generalize he : Event.received [header] :: .timedOut n :: pending.map .sent = t at turn
  cases turn with
  | failure hf =>
    cases hf with
    | lost header' blksize written kind size =>
      obtain ⟨hh, hrest⟩ := List.cons.inj he
      cases hh
      obtain ⟨hn, _⟩ := List.cons.inj hrest
      cases hn
      exact @Stocked.answered sender receiver file j s _ pending h
        [.received [header], .timedOut (bodySize s.pThis blksize)] _ (.lost _ _ _ kind size) he
    | silence => cases he
    | noise => simp at he
    | unsupported => simp at he
    | cancel => simp at he
    | secondCancel => simp at he
    | bad => simp at he
    | repeated => simp at he
  | stored header payload kind fits => simp at he
  | full header payload kind full => simp at he
  | endOfFile => simp at he

theorem Stocked.block (h : Stocked sender receiver file j s) (kind : FrameKind s.pThis header blksize)
    (size : body.length = bodySize s.pThis blksize)
    (turn : ReceiveTurn s (.received [header] :: .received body :: pending.map .sent) s') :
    BlockOutcome sender receiver file j s blksize body pending s' := by
  generalize he : Event.received [header] :: .received body :: pending.map .sent = t at turn
  have same {blksize' : ℕ} (kind' : FrameKind s.pThis header blksize') : blksize' = blksize := by
    rcases kind with ⟨hk, rfl⟩ | ⟨hk, rfl, _⟩ <;> rcases kind' with ⟨hk', rfl⟩ | ⟨hk', rfl, _⟩
    · rfl
    · rw [hk] at hk'; cases hk'
    · rw [hk] at hk'; cases hk'
    · rfl
  cases turn with
  | failure hf =>
    cases hf with
    | bad header' blksize' body' kind' size' status =>
      obtain ⟨hh, hrest⟩ := List.cons.inj he
      cases hh
      obtain ⟨hb, _⟩ := List.cons.inj hrest
      cases hb
      rcases @Stocked.answered sender receiver file j s _ pending h [.received [header], .received body] _
        (.bad _ _ _ kind' size' status) he with dead | ⟨writes, stocked⟩
      · exact .dead dead
      · exact .refused (same kind' ▸ status) writes stocked
    | repeated header' blksize' body' kind' size' status =>
      obtain ⟨hh, hrest⟩ := List.cons.inj he
      cases hh
      obtain ⟨hb, _⟩ := List.cons.inj hrest
      cases hb
      rcases @Stocked.answered sender receiver file j s _ pending h [.received [header], .received body] _
        (.repeated _ _ _ kind' size' status) he with dead | ⟨writes, stocked⟩
      · exact .dead dead
      · exact .repeated (same kind' ▸ status) writes stocked
    | silence => cases he
    | noise => simp at he
    | unsupported => simp at he
    | cancel => simp at he
    | secondCancel => simp at he
    | lost => simp at he
  | stored header' payload kind' fits =>
    obtain ⟨hh, hread⟩ := List.cons.inj he
    cases hh
    obtain ⟨hb, hrest⟩ := List.cons.inj hread
    cases hb
    exact .stored payload (same kind') rfl (map_sent_eq_one hrest.symm) rfl fits
  | full header' payload kind' full => exact .dead ⟨rfl, rfl⟩
  | endOfFile => simp at he

end Turns

inductive Arrives (sender : ModemContext) (file : List UInt8) (i : ℕ) : Bool → List UInt8 → Prop
  | intact (hi : i ≤ blockCount sender.blksize file) : Arrives sender file i true (fileFrame sender file i)
  | spoiled (hi : i < blockCount sender.blksize file) (bytes : List UInt8)
      (spoils : Spoils sender (blockPayload sender.blksize file i) bytes) :
      Arrives sender file i false (frameHeader (blockPayload sender.blksize file i) ::
        UInt8.ofNat (i + 1) :: ~~~UInt8.ofNat (i + 1) :: bytes)

structure SameChecks (sender receiver : ModemContext) : Prop where
  crc16 : receiver.crc16 = sender.crc16
  hasCrc : ∀ header blksize, FrameKind receiver header blksize →
    lxmodemBlockHasCrc receiver blksize = sender.usesCrc

theorem Compatible.sameChecks {sender receiver : ModemContext} (h : Compatible sender receiver) :
    SameChecks sender receiver :=
  ⟨h.crc16, h.hasCrc⟩

inductive Taken (sender receiver : ModemContext) (file : List UInt8) (j i : ℕ) (intact : Bool)
    (pending : List (List UInt8)) (s' : LxmodemReceiveState) : Prop
  | dead (dead : s'.Dead)
  | repeated (place : i + 1 = j) (writes : pending = [[ACK]]) (stocked : Stocked sender receiver file j s')
  | stored (place : i = j) (whole : intact = true) (writes : pending = [[ACK]])
      (stocked : Stocked sender receiver file (j + 1) s')
  | refused (place : i = j) (damaged : intact = false) (writes : pending = [[NAK]])
      (stocked : Stocked sender receiver file j s')

section Blocks

variable {sender receiver : ModemContext} {file : List UInt8} {i j : ℕ} {s s' : LxmodemReceiveState}
  {header : UInt8} {blksize : ℕ} {body : List UInt8} {pending : List (List UInt8)} {intact : Bool}

theorem blockPayload_size (sender : ModemContext) (file : List UInt8) (i : ℕ) :
    (blockPayload sender.blksize file i).length = 128 ∨ (blockPayload sender.blksize file i).length = 1024 := by
  have hb := blksize_eq sender
  rw [blockPayload_length sender.blksize file i (by omega)]
  exact blockSize_eq _

theorem frameKind_payload {pThis : ModemContext}
    (kind : FrameKind pThis (frameHeader (blockPayload sender.blksize file i)) blksize) :
    blksize = (blockPayload sender.blksize file i).length := by
  unfold frameHeader at kind
  rcases blockPayload_size sender file i with hl | hl <;> rw [hl] at kind ⊢ <;>
    rcases kind with ⟨hk, hs⟩ | ⟨hk, hs, _⟩
  · exact hs
  · cases hk
  · cases hk
  · exact hs

theorem stored_stocked (h : Stocked sender receiver file j s) (writable : receiver.ramfile.Writable)
    (fits : s.pThis.ramfile.writeOffset.toNat + (blockPayload sender.blksize file j).length <
      s.pThis.ramfile.maxSize.toNat) :
    Stocked sender receiver file (j + 1)
      ((s.filled body).stored (blockPayload sender.blksize file j)) := by
  have size := writable.size
  have before := h.fits
  rw [h.ramfile, appended_writeOffset size before, appended_maxSize] at fits
  have after : receiver.ramfile.writeOffset.toNat + (payloadsBefore sender.blksize file (j + 1)).length ≤
      receiver.ramfile.maxSize.toNat := by
    rw [payloadsBefore_succ, List.length_append]
    omega
  exact ⟨h.toReceiving.stored writable after _, after⟩

theorem Arrives.block (h : Arrives sender file i intact (header :: body))
    (kind : FrameKind s.pThis header blksize) :
    i < blockCount sender.blksize file ∧ header = frameHeader (blockPayload sender.blksize file i) ∧
      ∃ bytes, body = UInt8.ofNat (i + 1) :: ~~~UInt8.ofNat (i + 1) :: bytes ∧
        bytes.length = (blockPayload sender.blksize file i).length + checkSize sender.usesCrc ∧
        (intact = true ∧ bytes = blockPayload sender.blksize file i ++
            checkBytes sender.crc16 sender.usesCrc (blockPayload sender.blksize file i) ∨
          intact = false ∧ Spoils sender (blockPayload sender.blksize file i) bytes) := by
  generalize hframe : header :: body = frame at h
  cases h with
  | intact hi =>
    by_cases hlt : i < blockCount sender.blksize file
    · rw [fileFrame, if_pos hlt] at hframe
      obtain ⟨hh, hb⟩ := List.cons.inj hframe
      exact ⟨hlt, hh, _, hb, by simp, Or.inl ⟨rfl, rfl⟩⟩
    · rw [fileFrame, if_neg hlt] at hframe
      obtain ⟨rfl, _⟩ := List.cons.inj hframe
      rcases kind with ⟨hk, _⟩ | ⟨hk, _⟩ <;> cases hk
  | spoiled hi bytes spoils =>
    obtain ⟨hh, hb⟩ := List.cons.inj hframe
    exact ⟨hi, hh, bytes, hb, spoils.1, Or.inr ⟨rfl, spoils⟩⟩

theorem Stocked.takes (h : Stocked sender receiver file j s) (writable : receiver.ramfile.Writable)
    (checks : SameChecks sender receiver) (kind : FrameKind s.pThis header blksize)
    (size : body.length = bodySize s.pThis blksize)
    (arrives : Arrives sender file i intact (header :: body)) (place : i + 1 = j ∨ i = j)
    (turn : ReceiveTurn s (.received [header] :: .received body :: pending.map .sent) s') :
    Taken sender receiver file j i intact pending s' := by
  obtain ⟨hi, rfl, bytes, rfl, hlen, content⟩ := arrives.block kind
  have hblk := frameKind_payload kind
  have hcrc : lxmodemBlockHasCrc s.pThis blksize = sender.usesCrc := by
    rw [← h.setup.blockHasCrc]
    exact checks.hasCrc _ _ (h.setup.frameKind.mpr kind)
  have hctx : s.pThis.crc16 = sender.crc16 := by rw [← h.setup.crc16, checks.crc16]
  have hdata : (bytes.take blksize).length = blksize := by rw [List.length_take]; omega
  have hrest : (bytes.drop blksize).length = checkSize (lxmodemBlockHasCrc s.pThis blksize) := by
    rw [List.length_drop, hcrc]; omega
  have status := lxmodemCheckBlockNoAndCrc_fill s.pThis s.expectedBlkNumber (UInt8.ofNat (i + 1))
    (~~~UInt8.ofNat (i + 1)) hdata hrest
  rw [List.take_append_drop] at status
  have outcome := h.block kind size turn
  rcases place with hprev | rfl
  · have hnum : UInt8.ofNat (i + 1) = s.expectedBlkNumber - 1 := by
      rw [h.number, UInt8.ofNat_add j 1, hprev]
      exact (UInt8.add_sub_cancel _ _).symm
    have hne : UInt8.ofNat (i + 1) ≠ s.expectedBlkNumber := by
      rw [hnum]
      exact sub_one_ne _
    rw [if_neg (fun hb => hne hb.1), if_pos ⟨hnum, by rw [hnum]⟩] at status
    cases outcome with
    | dead dead => exact .dead dead
    | refused refused _ _ => rw [status] at refused; cases refused
    | repeated _ writes stocked => exact .repeated hprev writes stocked
    | stored payload hp accepted writes state fits =>
      have ok := (lxmodemCheckBlockNoAndCrc_ok s.pThis s.expectedBlkNumber size).mpr
        ⟨payload, hp, by rw [accepted, LxmodemReceiveState.body, hp]⟩
      rw [status] at ok
      cases ok
  · rw [if_pos ⟨h.number.symm, by rw [h.number]⟩, hcrc, hctx] at status
    rcases content with ⟨rfl, rfl⟩ | ⟨rfl, _, hcheck⟩
    · rw [hblk, List.take_left, List.drop_left, if_pos rfl, ← hblk] at status
      cases outcome with
      | dead dead => exact .dead dead
      | refused refused _ _ => rw [status] at refused; cases refused
      | repeated repeated _ _ => rw [status] at repeated; cases repeated
      | stored payload hp accepted writes state fits =>
        have hpayload : payload = blockPayload sender.blksize file i := by
          simp only [LxmodemReceiveState.body, frameBody, List.cons.injEq] at accepted
          exact (List.append_inj accepted.2.2 (hblk ▸ hp.symm)).1.symm
        subst hpayload state
        exact .stored rfl rfl writes (stored_stocked h writable fits)
    · rw [hblk, if_neg hcheck, ← hblk] at status
      cases outcome with
      | dead dead => exact .dead dead
      | refused _ writes stocked => exact .refused rfl rfl writes stocked
      | repeated repeated _ _ => rw [status] at repeated; cases repeated
      | stored payload hp accepted writes state fits =>
        have ok := (lxmodemCheckBlockNoAndCrc_ok s.pThis s.expectedBlkNumber size).mpr
          ⟨payload, hp, by rw [accepted, LxmodemReceiveState.body, hp]⟩
        rw [status] at ok
        cases ok

theorem Stocked.completes (h : Stocked sender receiver file (blockCount sender.blksize file) s)
    (finished : s'.bFinished = true) (same : s'.pThis = s.pThis) : Complete sender receiver file s' :=
  ⟨finished, by rw [same, h.ramfile]; rfl, h.fits⟩

theorem Complete.holds (h : Complete sender receiver file s) (capacity : receiver.ramfile.maxSize.toNat < 2147483648)
    (fresh : receiver.ramfile.writeOffset = 0) :
    s.pThis.ramfile.writeOffset.toNat = (paddedFile sender.blksize file).length ∧
      s.pThis.ramfile.buffer.load 0 (paddedFile sender.blksize file).length = paddedFile sender.blksize file := by
  have hw : receiver.ramfile.writeOffset.toNat = 0 := by rw [fresh]; rfl
  rw [h.ramfile]
  refine ⟨by rw [appended_writeOffset capacity h.fits, hw, Nat.zero_add], ?_⟩
  rw [LmodemBuffer.appended, hw]
  exact Memory.load_store _ _ _

end Blocks

end LightModem
