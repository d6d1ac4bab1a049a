import LightModem.Termination

set_option autoImplicit false

namespace LightModem

open Interaction

def IsBlock0 (crc16 : Crc16Context) (blksize : ℕ) (data : List UInt8) : Prop :=
  ∃ payload : List UInt8, payload.length = blksize ∧ data = frameBody crc16 true 0 payload

def Block0Ends (crc16 : Crc16Context) (o : Peer UInt8) (blksize left N i : ℕ) : Prop :=
  Settles (fun k => ∃ data, (o (i + k) (2 + blksize + 2)).data? = some data ∧ IsBlock0 crc16 blksize data)
    (fun k => (o (i + k) (2 + blksize + 2)).data?.isSome) left N

section Block0Ends

variable {crc16 : Crc16Context} {o : Peer UInt8} {blksize left N i : ℕ} {data : List UInt8}

theorem block0Ends_timedOut (h : (o i (2 + blksize + 2)).data? = none) :
    Block0Ends crc16 o blksize left (N + 1) i ↔ Block0Ends crc16 o blksize left N (i + 1) := by
  rw [Block0Ends, settles_idle (by simp [h]) (by simp [h])]
  simp only [Block0Ends, Nat.add_assoc, Nat.add_comm 1]

theorem block0Ends_bad (h : (o i (2 + blksize + 2)).data? = some data) (bad : ¬ IsBlock0 crc16 blksize data) :
    Block0Ends crc16 o blksize (left + 1) (N + 1) i ↔ Block0Ends crc16 o blksize left N (i + 1) := by
  rw [Block0Ends, settles_count (by simpa [h] using bad) (by simp [h])]
  simp only [Block0Ends, Nat.add_assoc, Nat.add_comm 1]

theorem block0Ends_intact (h : (o i (2 + blksize + 2)).data? = some data) (ok : IsBlock0 crc16 blksize data) :
    Block0Ends crc16 o blksize left (N + 1) i :=
  settles_stop ⟨data, h, ok⟩

end Block0Ends

section Loop

variable {o : Peer UInt8} {blksize i : ℕ}

def block0Checked (blksize : ℕ) (s : LymodemBlock0State) (data : List UInt8) : LymodemBlock0State :=
  let rxStatus := lxmodemCheckBlockNoAndCrc (s.pThis.fill data) 0 blksize
  { pThis := s.pThis.fill data
    rxStatus := rxStatus
    bFinished := if rxStatus = .recvOk ∨ s.retry + 1 ≥ 10 then true else s.bFinished
    retry := if rxStatus = .recvOk then s.retry else s.retry + 1 }

def block0Answers (blksize : ℕ) (s : LymodemBlock0State) (data : List UInt8) : List (Event UInt8) :=
  let rxStatus := lxmodemCheckBlockNoAndCrc (s.pThis.fill data) 0 blksize
  .sent [if rxStatus = .recvOk ∨ rxStatus = .recvPreviousBlock then ACK else NAK] ::
    if rxStatus ≠ .recvOk ∧ s.retry + 1 ≥ 10 then [.sent [CAN, CAN]] else []

theorem lymodemReceiveBlock0Turn_outcome (o : Peer UInt8) (i : ℕ) (s : LymodemBlock0State) :
    (lymodemReceiveBlock0Turn blksize s).run o i = match o i (2 + blksize + 2) with
      | .received data _ => (.received data :: block0Answers blksize s data, some (block0Checked blksize s data))
      | .timedOut written _ => ([.timedOut (2 + blksize + 2)], some { s with pThis := s.pThis.fill written }) := by
  rw [lymodemReceiveBlock0Turn, getchars_bind, Program.run_read]
  cases o i (2 + blksize + 2) with
  | timedOut written size => rfl
  | received data size =>
    simp only [block0Answers, block0Checked, lxmodemBuildAndSendReply, lxmodemBuildAndSendCancel, putchars_bind]
    by_cases hok : lxmodemCheckBlockNoAndCrc (s.pThis.fill data) 0 blksize = .recvOk
    · simp [hok, Reply.event]
    · by_cases hten : s.retry + 1 ≥ 10
      · simp [hok, hten, Reply.event]
      · simp [hok, hten, Reply.event]

theorem lymodemReceiveBlock0Turn_run (s : LymodemBlock0State) :
    ((lymodemReceiveBlock0Turn blksize s).run o i).2 = some (match o i (2 + blksize + 2) with
      | .received data _ => block0Checked blksize s data
      | .timedOut written _ => { s with pThis := s.pThis.fill written }) := by
  rw [lymodemReceiveBlock0Turn_outcome]
  cases o i (2 + blksize + 2) <;> rfl

theorem lymodemReceiveBlock0Turn_reads (s : LymodemBlock0State) :
    (lymodemReceiveBlock0Turn blksize s).Ensures (fun t _ => reads t = 1) := by
  rw [lymodemReceiveBlock0Turn, getchars_bind]
  intro r
  cases r with
  | timedOut written size => rfl
  | received data size =>
    change (Program.write _ (ite _ _ _)).Ensures _
    rw [Program.ensures_write]
    split
    · rfl
    · split <;> rfl

theorem isBlock0_iff {s : LymodemBlock0State} (hp : s.pThis.protocol = .ymodem) {data : List UInt8}
    (size : data.length = 2 + blksize + 2) :
    IsBlock0 s.pThis.crc16 blksize data ↔
      lxmodemCheckBlockNoAndCrc (s.pThis.fill data) 0 blksize = .recvOk := by
  have hcrc : lxmodemBlockHasCrc s.pThis blksize = true := by simp [lxmodemBlockHasCrc, hp]
  rw [lxmodemCheckBlockNoAndCrc_ok _ _ (by rw [bodySize, hcrc, size, checkSize, if_pos rfl]; omega), hcrc]
  rfl

theorem block0Loop_turn {s : LymodemBlock0State} (running : s.bFinished = false) (fuel : ℕ) :
    ((whileLoop (fun s => !s.bFinished) (lymodemReceiveBlock0Turn blksize) (fuel + 1) s).run o i).2 =
      ((whileLoop (fun s => !s.bFinished) (lymodemReceiveBlock0Turn blksize) fuel
        (match o i (2 + blksize + 2) with
        | .received data _ => block0Checked blksize s data
        | .timedOut written _ => { s with pThis := s.pThis.fill written })).run o (i + 1)).2 := by
  have hturn := @lymodemReceiveBlock0Turn_run o blksize i s
  have hreads := (lymodemReceiveBlock0Turn_reads s).run (Prod.ext rfl hturn)
  rw [whileLoop_true fuel (by simpa using running), Program.run_bind_some (Prod.ext rfl hturn), hreads]

theorem block0Loop_finished {s : LymodemBlock0State} (finished : s.bFinished = true) (fuel : ℕ) :
    ((whileLoop (fun s => !s.bFinished) (lymodemReceiveBlock0Turn blksize) (fuel + 1) s).run o i).2.isSome
      = true := by
  rw [whileLoop_false fuel (by simpa using finished)]
  rfl

theorem block0Loop_run {s : LymodemBlock0State} (hp : s.pThis.protocol = .ymodem)
    (running : s.bFinished = false) (hr : s.retry < 10) (fuel : ℕ) :
    ((whileLoop (fun s => !s.bFinished) (lymodemReceiveBlock0Turn blksize) (fuel + 1) s).run o i).2.isSome
      = true ↔ Block0Ends s.pThis.crc16 o blksize (10 - s.retry) fuel i := by
  induction fuel generalizing s i with
  | zero =>
    rw [block0Loop_turn running]
    exact iff_of_false (by simp [whileLoop]) (not_settles_zero (by omega))
  | succ fuel ih =>
    rw [block0Loop_turn running]
    cases hread : o i (2 + blksize + 2) with
    | timedOut written size =>
      rw [block0Ends_timedOut (by rw [hread]; rfl)]
      exact @ih (i + 1) { s with pThis := s.pThis.fill written } hp running hr
    | received data size =>
      have hdata : (o i (2 + blksize + 2)).data? = some data := by rw [hread]; rfl
      have hcheck := isBlock0_iff hp size
      by_cases hok : lxmodemCheckBlockNoAndCrc (s.pThis.fill data) 0 blksize = .recvOk
      · exact iff_of_true (block0Loop_finished (by simp [block0Checked, hok]) fuel)
          (block0Ends_intact hdata (hcheck.mpr hok))
      have bad : ¬ IsBlock0 s.pThis.crc16 blksize data := fun h => hok (hcheck.mp h)
      rw [show 10 - s.retry = (10 - (s.retry + 1)) + 1 by omega, block0Ends_bad hdata bad]
      by_cases hten : s.retry + 1 ≥ 10
      · exact iff_of_true (block0Loop_finished (by simp [block0Checked, hten]) fuel)
          (by rw [show 10 - (s.retry + 1) = 0 by omega]; exact settles_zero)
      · have hstate : block0Checked blksize s data =
            { s with pThis := s.pThis.fill data, retry := s.retry + 1,
                     rxStatus := lxmodemCheckBlockNoAndCrc (s.pThis.fill data) 0 blksize } := by
          simp [block0Checked, hok, hten]
        change ((whileLoop _ _ (fuel + 1) (block0Checked blksize s data)).run o (i + 1)).2.isSome = true ↔ _
        rw [hstate]
        exact @ih (i + 1) { s with
          pThis := s.pThis.fill data, retry := s.retry + 1,
          rxStatus := lxmodemCheckBlockNoAndCrc (s.pThis.fill data) 0 blksize } hp running (Nat.lt_of_not_le hten)

end Loop

section Reception

variable {o : Peer UInt8} {pThis : ModemContext}

theorem lymodemReceiveBlock0_run (hp : pThis.protocol = .ymodem) (blksize fuel i : ℕ) :
    ((lymodemReceiveBlock0 fuel pThis blksize).run o i).2.isSome = true ↔
      Block0Ends pThis.crc16 o blksize 10 (fuel - 1) i := by
  cases fuel with
  | zero => exact iff_of_false (by simp [lymodemReceiveBlock0, whileLoop]) (not_settles_zero (by decide))
  | succ fuel =>
    refine Iff.trans ⟨fun h => Program.isSome_of_run_bind h, fun h => Program.run_bind_isSome h ?_⟩
      (@block0Loop_run o blksize i ⟨pThis, false, .recvError, 0⟩ hp rfl (show 0 < 10 by decide) fuel)
    exact (Program.ensures_true _).mono fun _ _ _ => trivial

def Block0Comes (crc16 : Crc16Context) (o : Peer UInt8) (attempts N i : ℕ) : Prop :=
  ∀ header j, awaited o (fun _ => true) attempts i = (some header, j) →
    ∀ blksize, header = SOH ∧ blksize = 128 ∨ header = STX ∧ blksize = 1024 →
      Block0Ends crc16 o blksize 10 N j

theorem lymodemWaitBlock0_run (hp : pThis.protocol = .ymodem) (fuel n i : ℕ) :
    ((lymodemWaitBlock0 fuel pThis n).run o i).2.isSome = true ↔
      Block0Comes pThis.crc16 o n (fuel - 1) i := by
  induction n generalizing i with
  | zero => exact iff_of_true rfl (fun header j h => by simp [awaited] at h)
  | succ n ih =>
    rw [lymodemWaitBlock0, getchars_bind, Program.run_read]
    cases hread : o i 1 with
    | timedOut written size =>
      have hfirst : awaited o (fun _ => true) (n + 1) i = awaited o (fun _ => true) n (i + 1) := by
        rw [awaited, hread]
        rfl
      rw [Block0Comes, hfirst]
      exact ih (i + 1)
    | received data size =>
      have hfirst : awaited o (fun _ => true) (n + 1) i = (some (data.headD 0), i + 1) := by
        rw [awaited, hread]
        rfl
      rw [Block0Comes, hfirst]
      change (Program.run o (i + 1) (if data.headD 0 = SOH then lymodemReceiveBlock0 fuel pThis 128
        else if data.headD 0 = STX then lymodemReceiveBlock0 fuel pThis 1024
        else .done (.recvError, pThis))).2.isSome = true ↔ _
      by_cases hsoh : data.headD 0 = SOH
      · rw [if_pos hsoh, lymodemReceiveBlock0_run hp, hsoh]
        constructor
        · rintro h _ _ ⟨⟩ blksize (⟨_, rfl⟩ | ⟨hne, _⟩)
          · exact h
          · exact absurd hne (by decide)
        · exact fun h => h SOH (i + 1) rfl 128 (Or.inl ⟨rfl, rfl⟩)
      rw [if_neg hsoh]
      by_cases hstx : data.headD 0 = STX
      · rw [if_pos hstx, lymodemReceiveBlock0_run hp, hstx]
        constructor
        · rintro h _ _ ⟨⟩ blksize (⟨hne, _⟩ | ⟨_, rfl⟩)
          · exact absurd hne (by decide)
          · exact h
        · exact fun h => h STX (i + 1) rfl 1024 (Or.inr ⟨rfl, rfl⟩)
      · rw [if_neg hstx]
        apply iff_of_true rfl
        rintro _ _ ⟨⟩ blksize (⟨h, _⟩ | ⟨h, _⟩)
        · exact absurd h hsoh
        · exact absurd h hstx

theorem lymodemReceiveBlock0_keeps {I : ModemContext → Prop} (fills : ∀ pThis data, I pThis → I (pThis.fill data))
    {pThis : ModemContext} (h : I pThis) (fuel blksize : ℕ) :
    (lymodemReceiveBlock0 fuel pThis blksize).Ensures (fun _ r => I r.2) := by
  rw [lymodemReceiveBlock0, Program.ensures_bind]
  refine (ensures_whileLoop (fun _ (s : LymodemBlock0State) => I s.pThis) ?_ fuel h).mono fun t s ⟨h, _⟩ => h
  intro t s hs _
  rw [lymodemReceiveBlock0Turn, getchars_bind]
  intro r
  cases r with
  | timedOut written size => exact fills _ _ hs
  | received data size =>
    have filled := fills _ data hs
    change (Program.write _ (ite _ _ _)).Ensures _
    rw [Program.ensures_write]
    split
    · exact filled
    · split <;> exact filled

theorem lymodemWaitBlock0_keeps {I : ModemContext → Prop} (fills : ∀ pThis data, I pThis → I (pThis.fill data))
    {pThis : ModemContext} (h : I pThis) (fuel n : ℕ) :
    (lymodemWaitBlock0 fuel pThis n).Ensures (fun _ r => I r.2) := by
  induction n with
  | zero => exact h
  | succ n ih =>
    rw [lymodemWaitBlock0, getchars_bind]
    intro r
    cases r with
    | timedOut written size => exact ih.mono fun _ _ h => h
    | received data size =>
      change (ite _ _ (ite _ _ _) : Program UInt8 (LxmodemReceptionStatus × ModemContext)).Ensures _
      split
      · exact (lymodemReceiveBlock0_keeps fills h fuel 128).mono fun _ _ h => h
      · split
        · exact (lymodemReceiveBlock0_keeps fills h fuel 1024).mono fun _ _ h => h
        · exact h

theorem lymodemWaitBlock0_ramfile (pThis : ModemContext) (fuel n : ℕ) :
    (lymodemWaitBlock0 fuel pThis n).Ensures (fun _ r => r.2.ramfile = pThis.ramfile) :=
  @lymodemWaitBlock0_keeps (fun p => p.ramfile = pThis.ramfile) (fun _ _ h => h) pThis rfl fuel n

theorem lymodemDecodeBlock0_changes (pThis : ModemContext) :
    ∃ buffer fileData, (lymodemDecodeBlock0 pThis).1 =
      { pThis with blkBuffer := { pThis.blkBuffer with buffer := buffer }, fileData := fileData } := by
  simp only [lymodemDecodeBlock0, lymodemGetMetaData]
  split
  · exact ⟨_, _, rfl⟩
  · split <;> exact ⟨_, _, rfl⟩

theorem lymodemDecodeBlock0_ramfile (pThis : ModemContext) :
    (lymodemDecodeBlock0 pThis).1.ramfile = pThis.ramfile := by
  obtain ⟨buffer, fileData, h⟩ := lymodemDecodeBlock0_changes pThis
  rw [h]

theorem lymodemWaitNextFile_terminates (pThis : ModemContext) (n : ℕ) :
    (lymodemWaitNextFile pThis n).Terminates := by
  induction n generalizing pThis with
  | zero => trivial
  | succ n ih =>
    have answer (pThis : ModemContext) : (lymodemAnswerNextFile pThis).Terminates := by
      rw [lymodemAnswerNextFile]
      split <;> trivial
    rw [lymodemWaitNextFile, getchars_bind]
    intro r
    cases r with
    | timedOut written size => exact ih pThis
    | received data size =>
      change (ite _ _ _ : Program UInt8 ModemContext).Terminates
      split
      · intro r'
        cases r' with
        | received data' size' => exact answer _
        | timedOut written size' => exact ih _
      · exact answer _

theorem lymodemWaitNextFile_keeps {I : ModemContext → Prop} (fills : ∀ pThis data, I pThis → I (pThis.fill data))
    {pThis : ModemContext} (h : I pThis) (n : ℕ) :
    (lymodemWaitNextFile pThis n).Ensures (fun _ pThis' => I pThis') := by
  have answer {pThis : ModemContext} (h : I pThis) :
      (lymodemAnswerNextFile pThis).Ensures (fun _ pThis' => I pThis') := by
    rw [lymodemAnswerNextFile]
    split <;> exact h
  induction n generalizing pThis with
  | zero => exact h
  | succ n ih =>
    rw [lymodemWaitNextFile, getchars_bind]
    intro r
    cases r with
    | timedOut written size => exact (ih h).mono fun _ _ h => h
    | received data size =>
      change (ite _ _ _ : Program UInt8 ModemContext).Ensures _
      split
      · intro r'
        cases r' with
        | received data' size' => exact (answer (fills _ _ h)).mono fun _ _ h => h
        | timedOut written size' => exact (ih (fills _ _ h)).mono fun _ _ h => h
      · exact (answer h).mono fun _ _ h => h

theorem lymodemReceiveData_eq (fuel : ℕ) (rxStatus : LxmodemReceptionStatus) (pThis : ModemContext) :
    lymodemReceiveData fuel rxStatus pThis =
      if rxStatus = .recvOk then
        if (lymodemDecodeBlock0 pThis).2 then
          lxmodemReceive fuel (lymodemDecodeBlock0 pThis).1 >>= fun x =>
            lymodemBlockNextFile x.2 >>= fun pThis => .done (x.1.toUInt32, pThis)
        else .done (-1, (lymodemDecodeBlock0 pThis).1)
      else .done (-1, pThis) := rfl

theorem lymodemReceiveData_terminates (hs : pThis.ramfile.Writable) {fuel : ℕ}
    (hfuel : 11 * pThis.ramfile.maxSize.toNat + 11 < fuel) (rxStatus : LxmodemReceptionStatus) :
    (lymodemReceiveData fuel rxStatus pThis).Terminates := by
  have hram := lymodemDecodeBlock0_ramfile pThis
  rw [lymodemReceiveData_eq]
  split
  · split
    · refine (lxmodemReceive_terminates (by rw [hram]; exact hs) (by rw [hram]; exact hfuel)).bind
        fun x => ?_
      exact (lymodemWaitNextFile_terminates x.2 10).bind fun _ => trivial
    · trivial
  · trivial

end Reception

theorem lmodemReceive_ymodem (fuel : ℕ) (pThis : ModemContext) :
    lmodemReceive .ymodem fuel pThis = .write [charC]
      (lymodemWaitBlock0 fuel { pThis with protocol := .ymodem } 10 >>= fun x =>
        lymodemReceiveData fuel x.1 x.2 >>= fun y => .done (y.1.toInt32, lymodemTrim y.1 y.2)) := rfl

theorem block0Comes_of_halts {pThis : ModemContext} {o : Peer UInt8}
    (h : Halts (fun fuel => lmodemReceive .ymodem fuel pThis) o) :
    ∃ N, Block0Comes pThis.crc16 o 10 N 0 := by
  simp only [halts_iff, lmodemReceive_ymodem, Program.run_write] at h
  obtain ⟨fuel, h⟩ := h
  exact ⟨fuel - 1, (@lymodemWaitBlock0_run o { pThis with protocol := .ymodem } rfl fuel 10 0).mp
    (Program.isSome_of_run_bind h)⟩

/-- YMODEM reception returns exactly when the wait for block 0 ends: no byte comes in ten reads, or the
first one is no header, or enough blocks follow the header, an intact block 0 or ten of any kind. -/
theorem lymodemReceive_halts_iff (pThis : ModemContext) (hs : pThis.ramfile.Writable) (o : Peer UInt8) :
    Halts (fun fuel => lmodemReceive .ymodem fuel pThis) o ↔ ∃ N, Block0Comes pThis.crc16 o 10 N 0 := by
  refine ⟨block0Comes_of_halts, fun ⟨N, h⟩ => ?_⟩
  simp only [halts_iff, lmodemReceive_ymodem, Program.run_write]
  refine ⟨(N + 11 * pThis.ramfile.maxSize.toNat + 11) + 1, Program.run_bind_isSome
    ((lymodemWaitBlock0_run rfl _ _ _).mpr ?_) ?_⟩
  · exact fun header j hfirst blksize hkind => (h header j hfirst blksize hkind).mono (by omega)
  · apply (lymodemWaitBlock0_ramfile _ _ _).mono
    intro _ x hram
    exact (lymodemReceiveData_terminates (by rw [hram]; exact hs)
      (by rw [hram]; change 11 * pThis.ramfile.maxSize.toNat + 11 < _; omega) x.1).bind fun _ => trivial

def ymodemReceiver : ModemContext :=
  lmodemSetFilenameBuffer (lmodemSetFileBuffer
    (lmodemSetLineBuffer (lmodemInit .lxmodem1k) (.fresh 0) 1029).1 (.fresh 0) 4096) (.fresh 0) 64

def block0OfA : List UInt8 := frameBody ymodemReceiver.crc16 true 0 (97 :: List.replicate 127 0)

theorem lymodemReceive_halts_block0 :
    Halts (fun fuel => lmodemReceive .ymodem fuel ymodemReceiver)
      (.scripted [[], [SOH], List.replicate 132 0, block0OfA]) := by
  apply (lymodemReceive_halts_iff ymodemReceiver ⟨by decide, by decide⟩ _).mpr
  refine ⟨2, fun header j hfirst blksize hkind => ?_⟩
  have arrival : awaited (.scripted [[], [SOH], List.replicate 132 0, block0OfA]) (fun _ => true) 10 0 =
      (some SOH, 2) := rfl
  rw [arrival] at hfirst
  obtain ⟨⟨⟩, rfl⟩ := Prod.mk.inj hfirst
  obtain ⟨_, rfl⟩ | ⟨kind, _⟩ := hkind
  · have size : block0OfA.length = 2 + 128 + 2 := by
      simp [block0OfA, checkSize]
    refine Or.inl ⟨1, by omega, block0OfA, ?_, 97 :: List.replicate 127 0, rfl, rfl⟩
    rw [@Peer.scripted_received _ [[], [SOH], List.replicate 132 0, block0OfA] [] block0OfA (2 + 1) (2 + 128 + 2) rfl
      size]
    rfl
  · exact absurd kind (by decide)

theorem lymodemReceive_hangs :
    ymodemReceiver.ramfile.Writable ∧
      ¬ Halts (fun fuel => lmodemReceive .ymodem fuel ymodemReceiver) (.scripted [[SOH]]) := by
  refine ⟨⟨by decide, by decide⟩, fun h => ?_⟩
  obtain ⟨N, h⟩ := block0Comes_of_halts h
  have silent (k : ℕ) : (Peer.scripted [[SOH]] (1 + k) (2 + 128 + 2)).data? = none :=
    Peer.scripted_silent (by simp) (by decide)
  rcases h SOH 1 rfl 128 (Or.inl ⟨rfl, rfl⟩) with ⟨k, _, data, hdata, _⟩ | hcount
  · rw [silent] at hdata
    cases hdata
  · simp [silent] at hcount

end LightModem
