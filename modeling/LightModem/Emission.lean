import LightModem.Frames
import LightModem.Fuel
import LightModem.Sender

set_option autoImplicit false

namespace LightModem

open Interaction

inductive Awaits (wanted : UInt8 → Bool) : ℕ → List (Event UInt8) → Option UInt8 → Prop
  | gaveUp : Awaits wanted 0 [] none
  | timedOut {n : ℕ} {t : List (Event UInt8)} {a : Option UInt8} (h : Awaits wanted n t a) :
      Awaits wanted (n + 1) (.timedOut 1 :: t) a
  | other {n : ℕ} {t : List (Event UInt8)} {a : Option UInt8} (b : UInt8) (hb : wanted b = false)
      (h : Awaits wanted n t a) : Awaits wanted (n + 1) (.received [b] :: t) a
  | came {n : ℕ} (b : UInt8) (hb : wanted b = true) :
      Awaits wanted (n + 1) [.received [b]] (some b)

section Awaits

variable {wanted : UInt8 → Bool} {n : ℕ} {t : List (Event UInt8)} {a : Option UInt8}

theorem getcharWithin_ensures (wanted : UInt8 → Bool) (n : ℕ) :
    (getcharWithin wanted n).Ensures (Awaits wanted n) := by
  induction n with
  | zero => exact .gaveUp
  | succ n ih =>
    rw [getcharWithin, getchars_bind]
    intro r
    cases r with
    | timedOut written size => exact ih.mono fun t a h => .timedOut h
    | received data size =>
      obtain ⟨b, rfl⟩ := List.length_eq_one_iff.mp size
      change (if wanted b then _ else _ : Program UInt8 (Option UInt8)).Ensures _
      cases hb : wanted b with
      | true => exact .came b hb
      | false => exact ih.mono fun t a h => .other b hb h

theorem Awaits.performs (h : Awaits wanted n t a) : Performs (getcharWithin wanted n) t (.done a) := by
  induction h with
  | gaveUp => exact .refl _
  | timedOut h ih =>
    rw [getcharWithin, getchars_bind]
    exact .read (.timedOut [] (Nat.zero_le 1)) ih
  | other b hb h ih =>
    rw [getcharWithin, getchars_bind]
    apply Performs.read (.received [b] rfl)
    change Performs (if wanted b then _ else _) _ _
    rw [hb]
    exact ih
  | came b hb =>
    rw [getcharWithin, getchars_bind]
    apply Performs.read (.received [b] rfl)
    change Performs (if wanted b then _ else _) _ _
    rw [if_pos hb]
    exact .refl _

theorem getcharWithin_terminates (wanted : UInt8 → Bool) (n : ℕ) :
    (getcharWithin wanted n).Terminates := by
  induction n with
  | zero => trivial
  | succ n ih =>
    rw [getcharWithin, getchars_bind]
    intro r
    cases r with
    | timedOut written size => exact ih
    | received data size =>
      change (if wanted (data.headD 0) then _ else _ : Program UInt8 (Option UInt8)).Terminates
      split
      · trivial
      · exact ih

theorem Awaits.received_iff (h : Awaits (fun _ => true) n t a) (b : UInt8) :
    .received [b] ∈ t ↔ a = some b := by
  induction h with
  | gaveUp => simp
  | timedOut h ih => simpa using ih
  | other b hb h ih => cases hb
  | came c hc => simp [eq_comm]

theorem Awaits.writes_eq (h : Awaits wanted n t a) : writes t = [] := by
  induction h with
  | gaveUp => rfl
  | timedOut h ih => exact ih
  | other b hb h ih => exact ih
  | came b hb => rfl

/-- What a wait of `n` reads gets from the outcomes from the `i`-th on, and the index of the next one. -/
def awaited (o : Peer UInt8) (wanted : UInt8 → Bool) : ℕ → ℕ → Option UInt8 × ℕ
  | 0, i => (none, i)
  | n + 1, i => match (o i 1).data? with
    | some data => if wanted (data.headD 0) then (some (data.headD 0), i + 1) else awaited o wanted n (i + 1)
    | none => awaited o wanted n (i + 1)

theorem awaited_silent {o : Peer UInt8} {i : ℕ} (h : ∀ j, i ≤ j → (o j 1).data? = none)
    (wanted : UInt8 → Bool) (n : ℕ) : awaited o wanted n i = (none, i + n) := by
  induction n generalizing i with
  | zero => rfl
  | succ n ih =>
    rw [awaited, h i (Nat.le_refl i)]
    have hrest := @ih (i + 1) (fun j hj => h j (by omega))
    rw [Nat.add_assoc, Nat.add_comm 1] at hrest
    exact hrest

theorem getcharWithin_run (o : Peer UInt8) (wanted : UInt8 → Bool) (n i : ℕ) :
    ∃ t, (getcharWithin wanted n).run o i = (t, some (awaited o wanted n i).1) ∧
      i + reads t = (awaited o wanted n i).2 := by
  induction n generalizing i with
  | zero => exact ⟨[], rfl, rfl⟩
  | succ n ih =>
    obtain ⟨t, ht, hreads⟩ := ih (i + 1)
    rw [getcharWithin, getchars_bind, Program.run_read, awaited]
    cases o i 1 with
    | timedOut written size =>
      simp only [Reply.data?, ht]
      exact ⟨_, rfl, by rw [reads_reply]; omega⟩
    | received data size =>
      simp only [Reply.data?]
      cases hb : wanted (data.headD 0) with
      | true => exact ⟨_, rfl, by rw [reads_reply]; rfl⟩
      | false =>
        simp only [Bool.false_eq_true, ↓reduceIte, ht]
        exact ⟨_, rfl, by rw [reads_reply]; omega⟩

theorem awaited_of_run {o : Peer UInt8} {wanted : UInt8 → Bool} {n i : ℕ} {t : List (Event UInt8)} {a : Option UInt8}
    (run : (getcharWithin wanted n).run o i = (t, some a)) : awaited o wanted n i = (a, i + reads t) := by
  obtain ⟨t', run', hreads⟩ := getcharWithin_run o wanted n i
  obtain ⟨rfl, ha⟩ := Prod.mk.inj (run.symm.trans run')
  cases ha
  exact Prod.ext rfl hreads.symm

end Awaits

def nextPayload (blksize : ℕ) (unread : List UInt8) : List UInt8 :=
  let data := unread.take blksize
  data ++ List.replicate (blockSize data.length - data.length) SUB

def ModemContext.framed (pThis : ModemContext) (frame : List UInt8) (n : ℕ) : ModemContext :=
  { pThis with
    ramfile := { pThis.ramfile with readOffset := pThis.ramfile.readOffset + n.toUInt32 }
    blkBuffer := { pThis.blkBuffer with
      buffer := pThis.blkBuffer.buffer.store 0 frame, currentSize := frame.length } }

section Build

variable {pThis : ModemContext} {blkNo : UInt8} {blksize : ℕ} {withCrc : Bool}

theorem lxmodeBuildAndSendOneDataBlock_last (h : pThis.ramfile.Readable) (hu : pThis.ramfile.unread = []) :
    lxmodeBuildAndSendOneDataBlock pThis blkNo blksize withCrc =
      .write [EOT] (.done (pThis.framed [EOT] 0, true, 0)) := by
  have hsize : (lmodemBufferGetSize pThis.ramfile).toUInt32.toNat = 0 := by
    rw [toNat_getSize h, hu]
    rfl
  have h0 : (0 : ℕ).toUInt32 = 0 := rfl
  simp only [lxmodeBuildAndSendOneDataBlock, hsize, Nat.min_zero, ↓reduceIte, putchars_bind,
    Program.pure_eq, ModemContext.framed, h0, UInt32.add_zero]
  rfl

theorem nextPayload_length (hb : blksize = 128 ∨ blksize = 1024) (unread : List UInt8) :
    (nextPayload blksize unread).length = blockSize (min blksize unread.length) := by
  simp only [nextPayload, List.length_append, List.length_replicate, List.length_take, blockSize]
  split <;> omega

theorem store_frame (m : Memory UInt8) (header n c : UInt8) (data pad : List UInt8) :
    ((((m.store 0 [header]).store 1 [n]).store 2 [c]).store 3 data).store (3 + data.length) pad =
      m.store 0 (header :: n :: c :: (data ++ pad)) := by
  have h1 : (m.store 0 [header]).store 1 [n] = m.store 0 [header, n] := m.store_append 0 [header] [n]
  have h2 : (m.store 0 [header, n]).store 2 [c] = m.store 0 [header, n, c] :=
    m.store_append 0 [header, n] [c]
  have h3 : (m.store 0 [header, n, c]).store 3 data = m.store 0 (header :: n :: c :: data) :=
    m.store_append 0 [header, n, c] data
  have h4 := m.store_append 0 (header :: n :: c :: data) pad
  have hl : 0 + (header :: n :: c :: data).length = 3 + data.length := by
    simp only [List.length_cons]; omega
  rw [hl] at h4
  rw [h1, h2, h3, h4]
  rfl

theorem store_padding (m : Memory UInt8) (hb : blksize = 128 ∨ blksize = 1024) (n : ℕ) :
    (if n < blockSize (min blksize n) then
      m.store (3 + min blksize n) (List.replicate (blockSize (min blksize n) - n) SUB) else m) =
    m.store (3 + min blksize n)
      (List.replicate (blockSize (min blksize n) - min blksize n) SUB) := by
  -- the source compares with the rest of the file, and not with what the block takes of it
  by_cases h : n < blockSize (min blksize n)
  · have hmin : min blksize n = n := by
      unfold blockSize at h
      split at h <;> omega
    rw [if_pos h, hmin]
  · have hsize : blockSize (min blksize n) - min blksize n = 0 := by
      unfold blockSize at h ⊢
      split at h <;> split <;> omega
    rw [if_neg h, hsize, List.replicate_zero, Memory.store_nil]

theorem frameHeader_nextPayload (hb : blksize = 128 ∨ blksize = 1024) (unread : List UInt8) :
    frameHeader (nextPayload blksize unread) = if min blksize unread.length ≤ 128 then SOH else STX := by
  rw [frameHeader, nextPayload_length hb, blockSize]
  split <;> simp_all

theorem store_check (m : Memory UInt8) (blkNo : UInt8) (payload check : List UInt8) :
    (m.store 0 (frameHeader payload :: blkNo :: ~~~blkNo :: payload)).store (3 + payload.length) check =
      m.store 0 (frameHeader payload :: blkNo :: ~~~blkNo :: (payload ++ check)) := by
  have h := m.store_append 0 (frameHeader payload :: blkNo :: ~~~blkNo :: payload) check
  have hl : 0 + (frameHeader payload :: blkNo :: ~~~blkNo :: payload).length = 3 + payload.length := by
    simp only [List.length_cons]; omega
  rw [hl] at h
  rw [h]
  rfl

theorem load_payload (m : Memory UInt8) (blkNo : UInt8) (payload : List UInt8) :
    (m.store 0 (frameHeader payload :: blkNo :: ~~~blkNo :: payload)).load 3 payload.length = payload := by
  rw [Memory.load_store_zero _ (by simp only [List.length_cons]; omega)]
  simp

theorem lxmodeBuildAndSendOneDataBlock_data (h : pThis.ramfile.Readable)
    (hb : blksize = 128 ∨ blksize = 1024) (hu : pThis.ramfile.unread ≠ []) :
    lxmodeBuildAndSendOneDataBlock pThis blkNo blksize withCrc =
      .write (dataFrame pThis.crc16 withCrc blkNo (nextPayload blksize pThis.ramfile.unread)) (.done
        (pThis.framed
          (dataFrame pThis.crc16 withCrc blkNo (nextPayload blksize pThis.ramfile.unread))
          (min blksize pThis.ramfile.unread.length),
        false, (nextPayload blksize pThis.ramfile.unread).length.toInt32)) := by
  have hpos : 0 < pThis.ramfile.unread.length := List.length_pos_iff.mpr hu
  have hne : min blksize pThis.ramfile.unread.length ≠ 0 := by omega
  have hsize := toNat_getSize h
  have hcount : (min blksize pThis.ramfile.unread.length).toUInt32.toNat =
      min blksize pThis.ramfile.unread.length :=
    UInt32.toNat_ofNat_of_lt' (show _ < 4294967296 by omega)
  have hread (dest : Memory UInt8) := @lmodemBufferRead_available pThis.ramfile dest 3
    (min blksize pThis.ramfile.unread.length).toUInt32 h (by rw [hcount]; omega)
  have hdata : (pThis.ramfile.unread.take (min blksize pThis.ramfile.unread.length)).length =
      min blksize pThis.ramfile.unread.length := by
    rw [List.length_take]; omega
  have hpayload : pThis.ramfile.unread.take (min blksize pThis.ramfile.unread.length) ++
      List.replicate (blockSize (min blksize pThis.ramfile.unread.length) -
        min blksize pThis.ramfile.unread.length) SUB = nextPayload blksize pThis.ramfile.unread := by
    rw [nextPayload, List.length_take, ← List.take_eq_take_min]
  have hlen := nextPayload_length hb pThis.ramfile.unread
  have hheader := frameHeader_nextPayload hb pThis.ramfile.unread
  have hpad (m : Memory UInt8) := store_padding m hb pThis.ramfile.unread.length
  have hframe (m : Memory UInt8) (header n c : UInt8) := store_frame m header n c
    (pThis.ramfile.unread.take (min blksize pThis.ramfile.unread.length))
    (List.replicate (blockSize (min blksize pThis.ramfile.unread.length) -
        min blksize pThis.ramfile.unread.length) SUB)
  rw [hpayload, hdata] at hframe
  have hblock : (if min blksize pThis.ramfile.unread.length ≤ 128 then 128 else 1024) =
      (nextPayload blksize pThis.ramfile.unread).length := hlen.symm
  rw [← hlen] at hpad hframe
  simp only [lxmodeBuildAndSendOneDataBlock, hsize, hne, ↓reduceIte, hread, hcount, hblock, hpad, hframe,
    ← hheader]
  generalize nextPayload blksize pThis.ramfile.unread = payload
  have hload := load_payload pThis.blkBuffer.buffer blkNo payload
  have hstored := store_check pThis.blkBuffer.buffer blkNo payload
    (checkBytes pThis.crc16 withCrc payload)
  change _ = pThis.blkBuffer.buffer.store 0 (dataFrame pThis.crc16 withCrc blkNo payload) at hstored
  have hsize : (dataFrame pThis.crc16 withCrc blkNo payload).length =
      3 + payload.length + checkSize withCrc := by
    rw [dataFrame_length]; omega
  have hsent := Memory.load_store pThis.blkBuffer.buffer 0 (dataFrame pThis.crc16 withCrc blkNo payload)
  rw [hsize] at hsent
  rw [ModemContext.framed, hsize]
  cases withCrc with
  | true =>
    have hstep (m : Memory UInt8) (hi lo : UInt8) :
        (m.store (3 + payload.length) [hi]).store (3 + payload.length + 1) [lo] =
          m.store (3 + payload.length) [hi, lo] := m.store_append _ [hi] [lo]
    rw [checkBytes, if_pos rfl] at hstored
    change Memory.load _ 0 (3 + payload.length + 1 + 1) = _ at hsent
    simp only [↓reduceIte, hload, putchars_bind, hstep, hstored, hsent, Program.pure_eq]
    rfl
  | false =>
    rw [checkBytes, if_neg (by decide)] at hstored
    change Memory.load _ 0 (3 + payload.length + 1) = _ at hsent
    simp only [Bool.false_eq_true, ↓reduceIte, hload, putchars_bind, hstored, hsent, Program.pure_eq]
    rfl

end Build

theorem lxmodeBlockFormat_eq (pThis : ModemContext) :
    lxmodeBlockFormat pThis = (pThis.blksize, pThis.usesCrc) := by
  rw [lxmodeBlockFormat, ModemContext.blksize, ModemContext.usesCrc]
  cases pThis.protocol <;> cases pThis.opts <;> rfl

structure Sending (pThis : ModemContext) (file : List UInt8) (i : ℕ) (s : LxmodeSendState) : Prop where
  setup : SameSetup pThis s.pThis
  running : s.bFinished = false
  blkNo : s.blkNo = UInt8.ofNat (i + 1)
  emitted : s.emittedBytes.toNat = (payloadsBefore pThis.blksize file i).length
  place : i ≤ blockCount pThis.blksize file

structure Unsent (pThis : ModemContext) (file : List UInt8) (i : ℕ) (s : LxmodeSendState) : Prop where
  readable : s.pThis.ramfile.Readable
  unread : s.pThis.ramfile.unread = file.drop (i * pThis.blksize)

structure Framed (pThis : ModemContext) (file : List UInt8) (i : ℕ) (s : LxmodeSendState) : Prop where
  frame : s.pThis.blkBuffer.buffer.load 0 s.pThis.blkBuffer.currentSize = fileFrame pThis file i
  isLastBlock : s.isLastBlock = true ↔ i = blockCount pThis.blksize file
  nbEmitted : i < blockCount pThis.blksize file →
    s.nbEmitted.toUInt32 = (blockPayload pThis.blksize file i).length.toUInt32
  unsent : Unsent pThis file (i + 1) s

structure SendHead (pThis : ModemContext) (file : List UInt8) (i : ℕ) (s : LxmodeSendState) : Prop
    extends Sending pThis file i s where
  fresh : s.retry = 0 → Unsent pThis file i s
  again : s.retry ≠ 0 → Framed pThis file i s

def GivesUp (retry : ℕ) (answer : Option UInt8) : Prop :=
  retry + 1 ≥ 10 ∨ answer ≠ none ∧ answer ≠ some NAK ∧ retry + 1 ≥ 2

inductive Answered (pThis : ModemContext) (file : List UInt8) (i retry : ℕ) :
    Option UInt8 → LxmodeSendState → Prop
  | next {s : LxmodeSendState} (hi : i < blockCount pThis.blksize file)
      (head : SendHead pThis file (i + 1) s) (hr : s.retry = 0) :
      Answered pThis file i retry (some ACK) s
  | finished {s : LxmodeSendState} (hi : i = blockCount pThis.blksize file)
      (hf : s.bFinished = true) (he : s.emittedBytes.toNat = (paddedFile pThis.blksize file).length)
      (setup : SameSetup pThis s.pThis) :
      Answered pThis file i retry (some ACK) s
  | again {s : LxmodeSendState} {a : Option UInt8} (ha : a ≠ some ACK) (hg : ¬ GivesUp retry a)
      (head : SendHead pThis file i s) (hr : s.retry = retry + 1) :
      Answered pThis file i retry a s
  | gaveUp {s : LxmodeSendState} {a : Option UInt8} (ha : a ≠ some ACK) (hg : GivesUp retry a)
      (hf : s.bFinished = true) (he : s.emittedBytes = -1) :
      Answered pThis file i retry a s

structure LmodemBuffer.Loaded (b : LmodemBuffer) (file : List UInt8) : Prop where
  readable : b.Readable
  unread : b.unread = file

theorem LmodemBuffer.Loaded.length_lt {b : LmodemBuffer} {file : List UInt8} (h : b.Loaded file) :
    file.length < 2147483648 := by
  have := h.readable.offset
  rw [← h.unread, unread_length]
  omega

section Turn

variable {pThis : ModemContext} {file : List UInt8} {i : ℕ} {s : LxmodeSendState}

theorem unread_eq_nil (h : Unsent pThis file i s) :
    s.pThis.ramfile.unread = [] ↔ ¬ i < blockCount pThis.blksize file := by
  rw [h.unread, List.drop_eq_nil_iff, lt_blockCount (blksize_eq pThis)]
  omega

theorem unsent_framed (hb : pThis.blksize = 128 ∨ pThis.blksize = 1024) (hu : Unsent pThis file i s)
    (s' : LxmodeSendState)
    (hs' : s'.pThis.ramfile = { s.pThis.ramfile with
      readOffset := s.pThis.ramfile.readOffset +
        (min pThis.blksize s.pThis.ramfile.unread.length).toUInt32 }) :
    Unsent pThis file (i + 1) s' := by
  have hcount : (min pThis.blksize s.pThis.ramfile.unread.length).toUInt32.toNat =
      min pThis.blksize s.pThis.ramfile.unread.length :=
    UInt32.toNat_ofNat_of_lt' (show _ < 4294967296 by omega)
  have available : (min pThis.blksize s.pThis.ramfile.unread.length).toUInt32.toNat ≤
      s.pThis.ramfile.unread.length := by rw [hcount]; omega
  constructor
  · rw [hs']
    exact readable_read hu.readable available
  · rw [hs', unread_drop hu.readable available, hcount, hu.unread, Nat.add_mul, Nat.one_mul,
      ← List.drop_drop]
    rcases Nat.le_total pThis.blksize (file.drop (i * pThis.blksize)).length with hle | hle
    · rw [Nat.min_eq_left hle]
    · rw [Nat.min_eq_right hle, List.drop_length, List.drop_eq_nil_of_le hle]

theorem lxmodeSendBlock_built (hr : s.retry = 0) {blksize : ℕ} {withCrc isLastBlock : Bool}
    {frame : List UInt8} {pThis' : ModemContext} {nbEmitted : Int32}
    (hformat : lxmodeBlockFormat s.pThis = (blksize, withCrc))
    (hbuild : lxmodeBuildAndSendOneDataBlock s.pThis s.blkNo blksize withCrc =
      .write frame (.done (pThis', isLastBlock, nbEmitted))) :
    lxmodeSendBlock s = .write frame (.done
      { s with pThis := pThis', isLastBlock := isLastBlock, nbEmitted := nbEmitted }) := by
  rw [lxmodeSendBlock, if_pos hr, hformat]
  simp only [hbuild, Program.write_bind, Program.done_bind, Program.pure_eq]

theorem lxmodeSendBlock_fresh (h : Sending pThis file i s) (hr : s.retry = 0)
    (hu : Unsent pThis file i s) :
    ∃ s', lxmodeSendBlock s = .write (fileFrame pThis file i) (.done s') ∧
      Sending pThis file i s' ∧ Framed pThis file i s' ∧ s'.retry = s.retry := by
  have hb := blksize_eq pThis
  have hformat : lxmodeBlockFormat s.pThis = (pThis.blksize, pThis.usesCrc) := by
    rw [lxmodeBlockFormat_eq, h.setup.blksize, h.setup.usesCrc]
  by_cases hi : i < blockCount pThis.blksize file
  · have hne : s.pThis.ramfile.unread ≠ [] := fun hnil => (unread_eq_nil hu).mp hnil hi
    have hbuild := @lxmodeBuildAndSendOneDataBlock_data s.pThis s.blkNo pThis.blksize pThis.usesCrc
      hu.readable hb hne
    have hpayload : nextPayload pThis.blksize s.pThis.ramfile.unread =
        blockPayload pThis.blksize file i := by rw [hu.unread]; rfl
    have hframe : dataFrame s.pThis.crc16 pThis.usesCrc s.blkNo (blockPayload pThis.blksize file i) =
        fileFrame pThis file i := by rw [fileFrame, if_pos hi, h.setup.crc16, h.blkNo]
    rw [hpayload, hframe] at hbuild
    refine ⟨_, lxmodeSendBlock_built hr hformat hbuild, ⟨h.setup.trans ⟨rfl, rfl, rfl, rfl, rfl, rfl⟩,
      h.running, h.blkNo, h.emitted, h.place⟩, ⟨Memory.load_store _ _ _, ?_, ?_, ?_⟩, rfl⟩
    · simp only [Bool.false_eq_true, false_iff]
      omega
    · exact fun _ => Int32.toUInt32_ofNat
    · exact unsent_framed hb hu _ rfl
  · have hnil := (unread_eq_nil hu).mpr hi
    have hbuild := @lxmodeBuildAndSendOneDataBlock_last s.pThis s.blkNo pThis.blksize pThis.usesCrc
      hu.readable hnil
    have hframe : [EOT] = fileFrame pThis file i := by rw [fileFrame, if_neg hi]
    have hplace := h.place
    rw [hframe] at hbuild
    refine ⟨_, lxmodeSendBlock_built hr hformat hbuild, ⟨h.setup.trans ⟨rfl, rfl, rfl, rfl, rfl, rfl⟩,
      h.running, h.blkNo, h.emitted, h.place⟩, ⟨Memory.load_store _ _ _, ?_, ?_, ?_⟩, rfl⟩
    · simp only [true_iff]
      omega
    · exact fun h => absurd h hi
    · exact unsent_framed hb hu _ (by rw [hnil, List.length_nil, Nat.min_zero]; rfl)

theorem lxmodeSendBlock_eq (h : SendHead pThis file i s) :
    ∃ s', lxmodeSendBlock s = .write (fileFrame pThis file i) (.done s') ∧
      Sending pThis file i s' ∧ Framed pThis file i s' ∧ s'.retry = s.retry := by
  by_cases hr : s.retry = 0
  · exact lxmodeSendBlock_fresh h.toSending hr (h.fresh hr)
  · have again := h.again hr
    refine ⟨s, ?_, h.toSending, again, rfl⟩
    rw [lxmodeSendBlock, if_neg hr, lxmodeReemitPreviousBlock, putchars_bind, again.frame]
    rfl

theorem lxmodeHandleAnswer_next (hl : s.isLastBlock = false) :
    lxmodeHandleAnswer s (some ACK) =
      { s with blkNo := s.blkNo + 1, emittedBytes := s.emittedBytes + s.nbEmitted.toUInt32, retry := 0 } := by
  simp [lxmodeHandleAnswer, hl]

theorem lxmodeHandleAnswer_finished (hl : s.isLastBlock = true) :
    lxmodeHandleAnswer s (some ACK) = { s with blkNo := s.blkNo + 1, bFinished := true, retry := 0 } := by
  simp [lxmodeHandleAnswer, hl]

theorem lxmodeHandleAnswer_again {a : Option UInt8} (ha : a ≠ some ACK) (hg : ¬ GivesUp s.retry a) :
    lxmodeHandleAnswer s a = { s with retry := s.retry + 1 } := by
  simp only [GivesUp, not_or, not_and] at hg
  obtain ⟨hten, htwo⟩ := hg
  cases a with
  | none => simp only [lxmodeHandleAnswer, if_neg hten]
  | some b =>
    have hack : b ≠ ACK := fun h => ha (by rw [h])
    by_cases hnak : b = NAK
    · simp only [lxmodeHandleAnswer, hnak, show NAK ≠ ACK by decide, ↓reduceIte, if_neg hten]
    · have htwo' : ¬ s.retry + 1 ≥ 2 := htwo (by simp) (by simpa using hnak)
      simp only [lxmodeHandleAnswer, hack, hnak, ↓reduceIte, if_neg htwo', if_neg hten]

theorem lxmodeHandleAnswer_gaveUp {a : Option UInt8} (ha : a ≠ some ACK) (hg : GivesUp s.retry a) :
    lxmodeHandleAnswer s a =
      { s with retry := s.retry + 1, emittedBytes := -1, bFinished := true } := by
  cases a with
  | none =>
    have hten : s.retry + 1 ≥ 10 := by simpa [GivesUp] using hg
    simp only [lxmodeHandleAnswer, if_pos hten]
  | some b =>
    have hack : b ≠ ACK := fun h => ha (by rw [h])
    by_cases hnak : b = NAK
    · have hten : s.retry + 1 ≥ 10 := by simpa [GivesUp, hnak] using hg
      simp only [lxmodeHandleAnswer, hnak, show NAK ≠ ACK by decide, ↓reduceIte, if_pos hten]
    · by_cases htwo : s.retry + 1 ≥ 2
      · simp only [lxmodeHandleAnswer, hack, hnak, ↓reduceIte, if_pos htwo]
        split <;> rfl
      · have hten : s.retry + 1 ≥ 10 := by
          rcases hg with h | h
          · exact h
          · exact absurd h.2.2 htwo
        omega

theorem Sending.next (hfile : file.length < 2147483648) (h : Sending pThis file i s)
    (hf : Framed pThis file i s) (hi : i < blockCount pThis.blksize file) :
    Answered pThis file i s.retry (some ACK) (lxmodeHandleAnswer s (some ACK)) := by
  have hlast : s.isLastBlock = false := by
    rw [Bool.eq_false_iff]
    intro hl
    have := hf.isLastBlock.mp hl
    omega
  rw [lxmodeHandleAnswer_next hlast]
  refine .next hi ⟨⟨h.setup, h.running, ?_, ?_, hi⟩,
    fun _ => ⟨hf.unsent.readable, hf.unsent.unread⟩, by simp⟩ rfl
  · simp only [h.blkNo, UInt8.ofNat_add (i + 1) 1]
    rfl
  · have hlt := @paddedFile_length_lt _ file (blksize_eq pThis)
    have hle := (@payloadsBefore_le pThis.blksize file _ _ (show i + 1 ≤ _ from hi)).length_le
    rw [paddedFile] at hlt
    rw [payloadsBefore_succ, List.length_append] at hle ⊢
    have hlen : (blockPayload pThis.blksize file i).length.toUInt32.toNat =
        (blockPayload pThis.blksize file i).length :=
      UInt32.toNat_ofNat_of_lt' (show _ < 4294967296 by omega)
    simp only [hf.nbEmitted hi, UInt32.toNat_add, h.emitted, hlen]
    omega

theorem Sending.answered (hfile : file.length < 2147483648) (h : Sending pThis file i s)
    (hf : Framed pThis file i s) (a : Option UInt8) :
    Answered pThis file i s.retry a (lxmodeHandleAnswer s a) := by
  by_cases ha : a = some ACK
  · subst ha
    rcases Nat.lt_or_eq_of_le h.place with hi | hi
    · exact h.next hfile hf hi
    · have hl := hf.isLastBlock.mpr hi
      rw [lxmodeHandleAnswer_finished hl]
      exact .finished hi rfl (by rw [paddedFile, ← hi]; exact h.emitted) h.setup
  · by_cases hg : GivesUp s.retry a
    · rw [lxmodeHandleAnswer_gaveUp ha hg]
      exact .gaveUp ha hg rfl rfl
    · rw [lxmodeHandleAnswer_again ha hg]
      refine .again ha hg ⟨⟨h.setup, h.running, h.blkNo, h.emitted, h.place⟩, by simp, fun _ => ?_⟩ rfl
      exact ⟨hf.frame, hf.isLastBlock, hf.nbEmitted, hf.unsent.readable, hf.unsent.unread⟩

theorem lxmodeSendTurn_eq (hfile : file.length < 2147483648) (h : SendHead pThis file i s) :
    ∃ answered : Option UInt8 → LxmodeSendState,
      lxmodeSendTurn s = .write (fileFrame pThis file i)
        (getcharWithin (fun _ => true) 10 >>= fun a => .done (answered a)) ∧
      ∀ a, Answered pThis file i s.retry a (answered a) := by
  obtain ⟨s', hs', hsending, hframed, hretry⟩ := lxmodeSendBlock_eq h
  refine ⟨lxmodeHandleAnswer s', ?_, fun a => hretry ▸ hsending.answered hfile hframed a⟩
  rw [lxmodeSendTurn, hs']
  rfl

theorem lxmodeSendTurn_ensures (hfile : file.length < 2147483648) (h : SendHead pThis file i s) :
    (lxmodeSendTurn s).Ensures (fun t s' => ∃ t' a, t = .sent (fileFrame pThis file i) :: t' ∧
      Awaits (fun _ => true) 10 t' a ∧ Answered pThis file i s.retry a s') := by
  obtain ⟨answered, hturn, hanswered⟩ := lxmodeSendTurn_eq hfile h
  rw [hturn, Program.ensures_write, Program.ensures_bind]
  exact (getcharWithin_ensures _ _).mono
    fun t a ha => ⟨t, a, by rw [List.append_nil], ha, hanswered a⟩

theorem lxmodeSendTurn_performs (hfile : file.length < 2147483648) (h : SendHead pThis file i s)
    {t : List (Event UInt8)} {a : Option UInt8} (ha : Awaits (fun _ => true) 10 t a) :
    ∃ s', Performs (lxmodeSendTurn s) (.sent (fileFrame pThis file i) :: t) (.done s') ∧
      Answered pThis file i s.retry a s' := by
  obtain ⟨answered, hturn, hanswered⟩ := lxmodeSendTurn_eq hfile h
  rw [hturn]
  exact ⟨answered a, .write (ha.performs.bind _), hanswered a⟩

theorem lxmodeSendTurn_run (hfile : file.length < 2147483648) {o : Peer UInt8} {j : ℕ} {t : List (Event UInt8)}
    {s' : LxmodeSendState} (head : SendHead pThis file i s) (run : (lxmodeSendTurn s).run o j = (t, some s')) :
    ∃ t', t = .sent (fileFrame pThis file i) :: t' ∧
      Awaits (fun _ => true) 10 t' (awaited o (fun _ => true) 10 j).1 ∧
      j + reads t = (awaited o (fun _ => true) 10 j).2 ∧
      Answered pThis file i s.retry (awaited o (fun _ => true) 10 j).1 s' := by
  obtain ⟨answered, hturn, hanswered⟩ := lxmodeSendTurn_eq hfile head
  obtain ⟨t', wait, hreads⟩ := getcharWithin_run o (fun _ => true) 10 j
  rw [hturn, Program.run_write, Program.run_bind_some wait] at run
  simp only [Program.run_done, List.append_nil, Prod.mk.injEq, Option.some.injEq] at run
  obtain ⟨rfl, rfl⟩ := run
  exact ⟨t', rfl, (getcharWithin_ensures _ 10).run wait, by simpa using hreads, hanswered _⟩

theorem sendHead_initial (h : pThis.ramfile.Loaded file) : SendHead pThis file 0 (.initial pThis) where
  setup := .refl _
  running := rfl
  blkNo := rfl
  emitted := rfl
  place := Nat.zero_le _
  fresh := fun _ => ⟨h.readable, by rw [Nat.zero_mul, List.drop_zero]; exact h.unread⟩
  again := fun h => absurd rfl h

end Turn

def emitAfter (fuel : ℕ) (pThis : ModemContext) : Option UInt8 → Program UInt8 (Int32 × ModemContext)
  | none => .done (0, pThis)
  | some preambule =>
    if lxmodemDecodePreambule pThis preambule = false then .write [CAN, CAN] (.done (-1, pThis))
    else lxmodeSendDataBlocks fuel pThis

theorem lxmodemEmit_eq (fuel : ℕ) (pThis : ModemContext) :
    lxmodemEmit fuel pThis = getcharWithin (fun _ => true) 10 >>= emitAfter fuel pThis := by
  rw [lxmodemEmit]
  congr 1

end LightModem
