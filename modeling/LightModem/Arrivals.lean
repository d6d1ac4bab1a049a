import LightModem.Reception

set_option autoImplicit false

namespace LightModem

open Interaction

def BlockHeader (header : UInt8) (blksize : ℕ) : Prop :=
  header = SOH ∧ blksize = 128 ∨ header = STX ∧ blksize = 1024

/-- What the outcomes from the `i`-th on bring of a file in YMODEM, whose next block is `number`: the data of
its blocks, and whether its end. There is room for `room` bytes, `left` failures make an end of it, and so does
a cancel after a cancel. -/
inductive FileComes (crc16 : Crc16Context) (o : Peer UInt8) :
    UInt8 → ℕ → Bool → ℕ → ℕ → List (List UInt8) → Bool → Prop
  | exhausted (number : UInt8) (cancelled : Bool) (room i : ℕ) : FileComes crc16 o number 0 cancelled room i [] false
  | endOfFile {number : UInt8} {left room i : ℕ} {cancelled : Bool} (first : (o i 1).data? = some [EOT]) :
      FileComes crc16 o number (left + 1) cancelled room i [] true
  | interrupted {number : UInt8} {left room i : ℕ} (first : (o i 1).data? = some [CAN]) :
      FileComes crc16 o number (left + 1) true room i [] false
  | cancel {number : UInt8} {left room i : ℕ} {payloads : List (List UInt8)} {ended : Bool}
      (first : (o i 1).data? = some [CAN]) (rest : FileComes crc16 o number left true room (i + 1) payloads ended) :
      FileComes crc16 o number (left + 1) false room i payloads ended
  | silence {number : UInt8} {left room i : ℕ} {cancelled : Bool} {payloads : List (List UInt8)} {ended : Bool}
      (first : (o i 1).data? = none)
      (rest : FileComes crc16 o number left cancelled room (i + 1) payloads ended) :
      FileComes crc16 o number (left + 1) cancelled room i payloads ended
  | noise {number header : UInt8} {left room i : ℕ} {cancelled : Bool} {payloads : List (List UInt8)} {ended : Bool}
      (first : (o i 1).data? = some [header]) (other : header ∉ [SOH, STX, EOT, CAN])
      (rest : FileComes crc16 o number left cancelled room (i + 1) payloads ended) :
      FileComes crc16 o number (left + 1) cancelled room i payloads ended
  | bad {number header : UInt8} {left room i blksize : ℕ} {cancelled : Bool} {payloads : List (List UInt8)}
      {ended : Bool} (first : (o i 1).data? = some [header]) (kind : BlockHeader header blksize)
      (bad : ∀ payload : List UInt8, payload.length = blksize →
        (o (i + 1) (2 + blksize + 2)).data? ≠ some (frameBody crc16 true number payload))
      (rest : FileComes crc16 o number left false room (i + 2) payloads ended) :
      FileComes crc16 o number (left + 1) cancelled room i payloads ended
  | block {number header : UInt8} {left room i : ℕ} {cancelled : Bool} {payloads : List (List UInt8)} {ended : Bool}
      {payload : List UInt8} (first : (o i 1).data? = some [header]) (kind : BlockHeader header payload.length)
      (intact : (o (i + 1) (2 + payload.length + 2)).data? = some (frameBody crc16 true number payload))
      (fits : payload.length < room)
      (rest : FileComes crc16 o (number + 1) 10 false (room - payload.length) (i + 2) payloads ended) :
      FileComes crc16 o number (left + 1) cancelled room i (payload :: payloads) ended
  | full {number header : UInt8} {left room i : ℕ} {cancelled : Bool} {payload : List UInt8}
      (first : (o i 1).data? = some [header]) (kind : BlockHeader header payload.length)
      (intact : (o (i + 1) (2 + payload.length + 2)).data? = some (frameBody crc16 true number payload))
      (full : room ≤ payload.length) : FileComes crc16 o number (left + 1) cancelled room i [] false

section Comes

variable {crc16 : Crc16Context} {o : Peer UInt8} {number header : UInt8} {left room i blksize : ℕ} {cancelled ended : Bool}
  {payloads : List (List UInt8)} {payload : List UInt8}

theorem fileComes_exhausted :
    FileComes crc16 o number 0 cancelled room i payloads ended ↔ payloads = [] ∧ ended = false := by
  constructor
  · intro h
    cases h
    exact ⟨rfl, rfl⟩
  · rintro ⟨rfl, rfl⟩
    exact .exhausted _ _ _ _

theorem fileComes_silence (first : (o i 1).data? = none) :
    FileComes crc16 o number (left + 1) cancelled room i payloads ended ↔
      FileComes crc16 o number left cancelled room (i + 1) payloads ended := by
  refine ⟨fun h => ?_, .silence first⟩
  cases h <;> simp_all

theorem fileComes_endOfFile (first : (o i 1).data? = some [EOT]) :
    FileComes crc16 o number (left + 1) cancelled room i payloads ended ↔ payloads = [] ∧ ended = true := by
  constructor
  · intro h
    cases h <;> grind [BlockHeader]
  · rintro ⟨rfl, rfl⟩
    exact .endOfFile first

theorem fileComes_noise (first : (o i 1).data? = some [header]) (other : header ∉ [SOH, STX, EOT, CAN]) :
    FileComes crc16 o number (left + 1) cancelled room i payloads ended ↔
      FileComes crc16 o number left cancelled room (i + 1) payloads ended := by
  refine ⟨fun h => ?_, .noise first other⟩
  cases h <;> grind [BlockHeader]

theorem fileComes_cancel (first : (o i 1).data? = some [CAN]) :
    FileComes crc16 o number (left + 1) false room i payloads ended ↔
      FileComes crc16 o number left true room (i + 1) payloads ended := by
  refine ⟨fun h => ?_, .cancel first⟩
  cases h <;> grind [BlockHeader]

theorem fileComes_interrupted (first : (o i 1).data? = some [CAN]) :
    FileComes crc16 o number (left + 1) true room i payloads ended ↔ payloads = [] ∧ ended = false := by
  constructor
  · intro h
    cases h <;> grind [BlockHeader]
  · rintro ⟨rfl, rfl⟩
    exact .interrupted first

theorem fileComes_bad (first : (o i 1).data? = some [header]) (kind : BlockHeader header blksize)
    (bad : ∀ payload : List UInt8, payload.length = blksize →
      (o (i + 1) (2 + blksize + 2)).data? ≠ some (frameBody crc16 true number payload)) :
    FileComes crc16 o number (left + 1) cancelled room i payloads ended ↔
      FileComes crc16 o number left false room (i + 2) payloads ended := by
  refine ⟨fun h => ?_, .bad first kind bad⟩
  cases h <;> grind [BlockHeader]

theorem frameBody_inj {payload' : List UInt8} (size : payload.length = payload'.length)
    (h : frameBody crc16 true number payload = frameBody crc16 true number payload') : payload = payload' := by
  simp only [frameBody, List.cons.injEq, true_and] at h
  exact (List.append_inj h size).1

theorem BlockHeader.unique {blksize' : ℕ} (h : BlockHeader header blksize) (h' : BlockHeader header blksize') :
    blksize = blksize' := by
  grind [BlockHeader]

theorem fileComes_full (first : (o i 1).data? = some [header]) (kind : BlockHeader header payload.length)
    (intact : (o (i + 1) (2 + payload.length + 2)).data? = some (frameBody crc16 true number payload))
    (full : room ≤ payload.length) :
    FileComes crc16 o number (left + 1) cancelled room i payloads ended ↔ payloads = [] ∧ ended = false := by
  constructor
  · intro h
    cases h with
    | block first' kind' intact' fits rest =>
      obtain rfl : header = _ := by simpa using first.symm.trans first'
      have size := kind.unique kind'
      omega
    | _ => grind [BlockHeader]
  · rintro ⟨rfl, rfl⟩
    exact .full first kind intact full

theorem fileComes_block (first : (o i 1).data? = some [header]) (kind : BlockHeader header payload.length)
    (intact : (o (i + 1) (2 + payload.length + 2)).data? = some (frameBody crc16 true number payload))
    (fits : payload.length < room) :
    FileComes crc16 o number (left + 1) cancelled room i payloads ended ↔ ∃ more, payloads = payload :: more ∧
      FileComes crc16 o (number + 1) 10 false (room - payload.length) (i + 2) more ended := by
  constructor
  · intro h
    cases h with
    | block first' kind' intact' fits' rest =>
      obtain rfl : header = _ := by simpa using first.symm.trans first'
      have size := kind.unique kind'
      rw [← size] at intact'
      obtain rfl := frameBody_inj size (Option.some.inj (intact.symm.trans intact'))
      exact ⟨_, rfl, rest⟩
    | full first' kind' intact' full =>
      obtain rfl : header = _ := by simpa using first.symm.trans first'
      have size := kind.unique kind'
      omega
    | _ => grind [BlockHeader]
  · rintro ⟨more, rfl, rest⟩
    exact .block first kind intact fits rest

end Comes

def LxmodemReceiveState.comes (s : LxmodemReceiveState) (o : Peer UInt8) (i : ℕ) : List (List UInt8) → Bool → Prop :=
  FileComes s.pThis.crc16 o s.expectedBlkNumber (10 - s.nbRetry) (decide (1 ≤ s.canCharReceived))
    (s.pThis.ramfile.maxSize.toNat - s.pThis.ramfile.writeOffset.toNat) i

structure FileCame (o : Peer UInt8) (i : ℕ) (s s' : LxmodemReceiveState) (payloads : List (List UInt8))
    (ended : Bool) : Prop where
  comes : ∀ p e, s.comes o i p e ↔ p = payloads ∧ e = ended
  ramfile : s'.pThis.ramfile = s.pThis.ramfile.appended payloads.flatten
  fits : s.pThis.ramfile.writeOffset.toNat + payloads.flatten.length ≤ s.pThis.ramfile.maxSize.toNat
  result : s'.receivedBytes = if ended then s.receivedBytes + payloads.flatten.length.toUInt32 else -1

structure AwaitsBlock (s : LxmodemReceiveState) : Prop where
  protocol : s.pThis.protocol = .ymodem
  writable : s.pThis.ramfile.Writable
  running : s.bFinished = false
  retry : s.nbRetry < 10
  cancels : s.canCharReceived ≤ 1

section Turn

variable {s s' s₀ : LxmodemReceiveState} {o : Peer UInt8} {i left room : ℕ} {t : List (Event UInt8)}
  {payloads : List (List UInt8)} {ended : Bool} {header : UInt8} {payload : List UInt8}

theorem frameKind_iff (protocol : s.pThis.protocol = .ymodem) {blksize : ℕ} :
    FrameKind s.pThis header blksize ↔ BlockHeader header blksize := by
  simp [FrameKind, BlockHeader, protocol]

theorem bodySize_ymodem (protocol : s.pThis.protocol = .ymodem) (blksize : ℕ) :
    bodySize s.pThis blksize = 2 + blksize + 2 := by
  have hcrc : lxmodemBlockHasCrc s.pThis blksize = true := by simp [lxmodemBlockHasCrc, protocol]
  rw [bodySize, hcrc, checkSize, if_pos rfl]
  omega

theorem not_intact (protocol : s.pThis.protocol = .ymodem) {body : List UInt8} {blksize : ℕ}
    (size : body.length = bodySize s.pThis blksize)
    (status : lxmodemCheckBlockNoAndCrc (s.pThis.fill body) s.expectedBlkNumber blksize ≠ .recvOk)
    (read : (o i body.length).data? = some body) (payload : List UInt8) (hp : payload.length = blksize) :
    (o i (2 + blksize + 2)).data? ≠ some (frameBody s.pThis.crc16 true s.expectedBlkNumber payload) := by
  intro intact
  rw [← bodySize_ymodem protocol, ← size, read] at intact
  apply status
  rw [lxmodemCheckBlockNoAndCrc_ok _ _ size]
  refine ⟨payload, hp, ?_⟩
  rw [Option.some.inj intact]
  simp [lxmodemBlockHasCrc, protocol]

theorem ReceiveFailure.comes (h : ReceiveFailure s t s₀) (waiting : AwaitsBlock s) (heard : Heard o i t)
    (running : s₀.bFinished = false) :
    FileComes s.pThis.crc16 o s.expectedBlkNumber (left + 1) (decide (1 ≤ s.canCharReceived)) room i payloads ended ↔
      FileComes s.pThis.crc16 o s.expectedBlkNumber left (decide (1 ≤ s₀.canCharReceived)) room (i + reads t)
        payloads ended := by
  have protocol := waiting.protocol
  cases h with
  | silence => exact fileComes_silence heard.1
  | noise header other => exact fileComes_noise heard.1 other
  | unsupported single => exact absurd (Or.inr protocol) single
  | cancel single =>
    have none : s.canCharReceived = 0 := by omega
    simp only [none]
    exact fileComes_cancel heard.1
  | secondCancel second => cases running
  | lost header blksize written kind size =>
    refine fileComes_bad heard.1 ((frameKind_iff protocol).mp kind) fun payload _ => ?_
    rw [← bodySize_ymodem protocol, heard.2.1]
    exact (Option.some_ne_none _).symm
  | bad header blksize body kind size status =>
    exact fileComes_bad heard.1 ((frameKind_iff protocol).mp kind)
      (not_intact protocol size (by rw [status]; decide) heard.2.1)
  | repeated header blksize body kind size status =>
    exact fileComes_bad heard.1 ((frameKind_iff protocol).mp kind)
      (not_intact protocol size (by rw [status]; decide) heard.2.1)

inductive TurnCame (o : Peer UInt8) (i : ℕ) (s : LxmodemReceiveState) (t : List (Event UInt8))
    (s' : LxmodemReceiveState) : Prop
  | ends (finished : s'.bFinished = true) (ended : Bool) (came : FileCame o i s s' [] ended)
  | goesOn (waiting : AwaitsBlock s') (payloads : List (List UInt8))
      (comes : ∀ p e, s.comes o i p e ↔ ∃ more, p = payloads ++ more ∧ s'.comes o (i + reads t) more e)
      (ramfile : s'.pThis.ramfile = s.pThis.ramfile.appended payloads.flatten)
      (fits : s.pThis.ramfile.writeOffset.toNat + payloads.flatten.length ≤ s.pThis.ramfile.maxSize.toNat)
      (result : s'.receivedBytes = s.receivedBytes + payloads.flatten.length.toUInt32)

theorem AwaitsBlock.comes_iff (waiting : AwaitsBlock s) (p : List (List UInt8)) (e : Bool) :
    s.comes o i p e ↔ FileComes s.pThis.crc16 o s.expectedBlkNumber (10 - (s.nbRetry + 1) + 1)
      (decide (1 ≤ s.canCharReceived))
      (s.pThis.ramfile.maxSize.toNat - s.pThis.ramfile.writeOffset.toNat) i p e := by
  have := waiting.retry
  rw [LxmodemReceiveState.comes, show 10 - s.nbRetry = 10 - (s.nbRetry + 1) + 1 by omega]

theorem AwaitsBlock.ends (waiting : AwaitsBlock s) (ended : Bool) (comes : ∀ p e, s.comes o i p e ↔ p = [] ∧ e = ended)
    (ramfile : s'.pThis.ramfile = s.pThis.ramfile)
    (result : s'.receivedBytes = if ended then s.receivedBytes else -1) : FileCame o i s s' [] ended where
  comes := comes
  ramfile := by rw [ramfile, List.flatten_nil, appended_nil]
  fits := waiting.writable.write
  result := by
    have zero : s.receivedBytes + (0 : ℕ).toUInt32 = s.receivedBytes := UInt32.add_zero _
    rw [result, List.flatten_nil, List.length_nil, zero]

theorem ReceiveFailure.stopped (h : ReceiveFailure s t s₀) (running : s.bFinished = false)
    (finished : s₀.bFinished = true) :
    t = [.received [CAN], .sent [NAK]] ∧ 1 ≤ s.canCharReceived ∧ s₀.receivedBytes = -1 := by
  cases h with
  | secondCancel second => exact ⟨rfl, by omega, rfl⟩
  | silence => exact absurd finished (by simp [running])
  | noise header other => exact absurd finished (by simp [running])
  | unsupported single => exact absurd finished (by simp [running])
  | cancel single => exact absurd finished (by simp [running])
  | lost header blksize written kind size => exact absurd finished (by simp [LxmodemReceiveState.filled, running])
  | bad header blksize body kind size status =>
    exact absurd finished (by simp [LxmodemReceiveState.filled, running])
  | repeated header blksize body kind size status =>
    exact absurd finished (by simp [LxmodemReceiveState.filled, running])

theorem ReceiveFailure.cancels (h : ReceiveFailure s t s₀) (waiting : AwaitsBlock s) (running : s₀.bFinished = false) :
    s₀.canCharReceived ≤ 1 := by
  have few := waiting.cancels
  cases h with
  | silence => exact few
  | noise header other => exact few
  | cancel single => exact Nat.le_of_lt_succ (Nat.lt_of_not_le single)
  | secondCancel second => cases running
  | _ => exact Nat.zero_le 1

theorem retried_stopped (finished : s₀.bFinished = true) (failed : s₀.receivedBytes = -1) :
    s₀.retried.bFinished = true ∧ s₀.retried.receivedBytes = -1 := by
  rw [LxmodemReceiveState.retried]
  split
  · exact ⟨rfl, rfl⟩
  · exact ⟨finished, failed⟩

theorem ReceiveFailure.came (h : ReceiveFailure s t s₀) (waiting : AwaitsBlock s) (heard : Heard o i t) :
    TurnCame o i s (t ++ s₀.retryEvents) s₀.retried := by
  have kept := h.untouched.trans (retried_untouched s₀)
  have count := h.nbRetry
  cases finished : s₀.bFinished with
  | true =>
    obtain ⟨rfl, cancels, failed⟩ := h.stopped waiting.running finished
    obtain ⟨stopped, result⟩ := retried_stopped finished failed
    refine .ends stopped false (waiting.ends false (fun p e => ?_) kept.ramfile result)
    rw [waiting.comes_iff, decide_eq_true cancels]
    exact fileComes_interrupted heard.1
  | false =>
    have going (p : List (List UInt8)) (e : Bool) := @ReceiveFailure.comes s s₀ o i (10 - (s.nbRetry + 1))
      (s.pThis.ramfile.maxSize.toNat - s.pThis.ramfile.writeOffset.toNat) t p e h waiting heard finished
    rcases Nat.lt_or_ge (s.nbRetry + 1) 10 with early | late
    · have few := h.cancels waiting finished
      have same : s₀.retried = { s₀ with nbRetry := s₀.nbRetry + 1 } := retried_early (by omega)
      rw [retryEvents_early (by omega), List.append_nil]
      rw [same] at kept ⊢
      refine .goesOn ⟨kept.setup.protocol ▸ waiting.protocol, ?_, finished, ?_, few⟩ [] (fun p e => ?_) ?_
        waiting.writable.write ?_
      · rw [kept.ramfile]
        exact waiting.writable
      · exact show s₀.nbRetry + 1 < 10 by omega
      · rw [waiting.comes_iff, going, LxmodemReceiveState.comes, kept.ramfile, kept.blkNumber, ← kept.setup.crc16]
        simp [count]
      · rw [kept.ramfile, List.flatten_nil, appended_nil]
      · have zero : s.receivedBytes + (0 : ℕ).toUInt32 = s.receivedBytes := UInt32.add_zero _
        rw [List.flatten_nil, List.length_nil, zero]
        rcases kept.result with ⟨_, result⟩ | ⟨stopped, _⟩
        · exact result
        · exact absurd stopped (by simp [finished])
    · have stopped := retried_late (show 10 ≤ s₀.nbRetry + 1 by omega)
      refine .ends (by rw [stopped]) false (waiting.ends false (fun p e => ?_) kept.ramfile (by rw [stopped]; rfl))
      rw [waiting.comes_iff, going, show 10 - (s.nbRetry + 1) = 0 by omega]
      exact fileComes_exhausted

theorem AwaitsBlock.body_eq (waiting : AwaitsBlock s) (payload : List UInt8) :
    s.body payload = frameBody s.pThis.crc16 true s.expectedBlkNumber payload := by
  have hcrc : lxmodemBlockHasCrc s.pThis payload.length = true := by
    simp [lxmodemBlockHasCrc, waiting.protocol]
  rw [LxmodemReceiveState.body, hcrc]

theorem AwaitsBlock.intact (waiting : AwaitsBlock s) {rest : List (Event UInt8)}
    (heard : Heard o i (.received (s.body payload) :: rest)) :
    (o i (2 + payload.length + 2)).data? = some (frameBody s.pThis.crc16 true s.expectedBlkNumber payload) := by
  have size : (s.body payload).length = 2 + payload.length + 2 := by
    rw [body_length, bodySize_ymodem waiting.protocol]
  rw [← waiting.body_eq, ← size]
  exact heard.1

theorem ReceiveTurn.came (h : ReceiveTurn s t s') (waiting : AwaitsBlock s) (heard : Heard o i t) :
    TurnCame o i s t s' := by
  have protocol := waiting.protocol
  cases h with
  | @failure t₀ s₀ h => exact h.came waiting (heard_append.mp heard).1
  | stored header payload kind fits =>
    have arrived := waiting.intact heard.2
    have offset : (s.pThis.ramfile.appended payload).writeOffset.toNat =
        s.pThis.ramfile.writeOffset.toNat + payload.length := appended_writeOffset waiting.writable.size fits.le
    refine .goesOn ⟨protocol, appended_writable waiting.writable.size fits.le, waiting.running, Nat.succ_pos 9,
      Nat.zero_le 1⟩ [payload] (fun p e => ?_) (by rw [List.flatten_singleton]; rfl)
      (by rw [List.flatten_singleton]; exact fits.le) (by rw [List.flatten_singleton]; rfl)
    rw [waiting.comes_iff, fileComes_block heard.1 ((frameKind_iff protocol).mp kind) arrived (by omega)]
    simp only [List.singleton_append, LxmodemReceiveState.comes]
    change _ ↔ ∃ more, p = payload :: more ∧ FileComes s.pThis.crc16 o (s.expectedBlkNumber + 1) 10 false
      (s.pThis.ramfile.maxSize.toNat - (s.pThis.ramfile.appended payload).writeOffset.toNat) (i + 2) more e
    rw [offset, Nat.sub_sub]
  | full header payload kind full =>
    refine .ends rfl false (waiting.ends false (fun p e => ?_) rfl rfl)
    rw [waiting.comes_iff]
    exact fileComes_full heard.1 ((frameKind_iff protocol).mp kind) (waiting.intact heard.2) (by omega)
  | endOfFile =>
    refine .ends rfl true (waiting.ends true (fun p e => ?_) rfl rfl)
    rw [waiting.comes_iff]
    exact fileComes_endOfFile heard.1

theorem FileCame.after (waiting : AwaitsBlock s) (h : FileCame o (i + reads t) s₀ s' payloads ended)
    {earlier : List (List UInt8)}
    (comes : ∀ p e, s.comes o i p e ↔ ∃ more, p = earlier ++ more ∧ s₀.comes o (i + reads t) more e)
    (ramfile : s₀.pThis.ramfile = s.pThis.ramfile.appended earlier.flatten)
    (fits : s.pThis.ramfile.writeOffset.toNat + earlier.flatten.length ≤ s.pThis.ramfile.maxSize.toNat)
    (result : s₀.receivedBytes = s.receivedBytes + earlier.flatten.length.toUInt32) :
    FileCame o i s s' (earlier ++ payloads) ended where
  comes p e := by
    rw [comes]
    constructor
    · rintro ⟨more, rfl, later⟩
      obtain ⟨rfl, rfl⟩ := (h.comes more e).mp later
      exact ⟨rfl, rfl⟩
    · rintro ⟨rfl, rfl⟩
      exact ⟨payloads, rfl, (h.comes _ _).mpr ⟨rfl, rfl⟩⟩
  ramfile := by
    rw [h.ramfile, ramfile, List.flatten_append, appended_append waiting.writable.size fits]
  fits := by
    have later := h.fits
    rw [ramfile, appended_writeOffset waiting.writable.size fits, appended_maxSize] at later
    rw [List.flatten_append, List.length_append]
    omega
  result := by
    have sum : (earlier.flatten.length + payloads.flatten.length).toUInt32 =
        earlier.flatten.length.toUInt32 + payloads.flatten.length.toUInt32 := UInt32.ofNat_add _ _
    rw [h.result, result, List.flatten_append, List.length_append, sum, UInt32.add_assoc]

theorem lxmodemReceiveLoop_came {fuel : ℕ} (waiting : AwaitsBlock s)
    (run : (lxmodemReceiveLoop fuel s).run o i = (t, some s')) :
    ∃ payloads ended, FileCame o i s s' payloads ended := by
  -- one turn ends the reception or hands it on with the same invariant, and `FileComes` follows it
  induction fuel generalizing s i t with
  | zero => simp [lxmodemReceiveLoop, whileLoop] at run
  | succ fuel ih =>
    rw [lxmodemReceiveLoop, whileLoop_true fuel (by simp [waiting.running])] at run
    obtain ⟨t₁, s₁, rest, first, later, rfl⟩ := Program.exists_of_run_bind run
    have heard := Program.run_heard (lxmodemReceiveTurn s) i (o := o)
    rw [first] at heard
    cases ((lxmodemReceiveTurn_ensures waiting.writable).run first).came waiting heard with
    | ends finished ended came =>
      obtain ⟨_, rfl⟩ := Program.run_whileLoop_false (by simp [finished]) later
      exact ⟨[], ended, came⟩
    | goesOn waiting₁ earlier comes ramfile fits result =>
      obtain ⟨payloads, ended, came⟩ := ih waiting₁ later
      exact ⟨_, ended, came.after waiting comes ramfile fits result⟩

end Turn

end LightModem
