import LightModem.Block0
import LightModem.Success

set_option autoImplicit false

namespace LightModem

open Interaction

def ModemContext.Fits (pThis : ModemContext) (n : ℕ) : Prop :=
  ∀ header blksize, FrameKind pThis header blksize → bodySize pThis blksize ≤ n

section Receiver

variable {pThis : ModemContext} {s : LxmodemReceiveState} {n : ℕ}

theorem SameSetup.fits {a b : ModemContext} (h : SameSetup a b) (fits : a.Fits n) : b.Fits n := by
  intro header blksize kind
  rw [bodySize, ← h.blockHasCrc]
  exact fits header blksize (h.frameKind.mpr kind)

theorem lxmodemReceiveRetry_setup (s : LxmodemReceiveState) :
    (lxmodemReceiveRetry s).Ensures (fun _ s' => SameSetup s.pThis s'.pThis) := by
  rw [ensures_retry]
  exact (retried_untouched s).setup

theorem lxmodemReceiveStore_setup (s : LxmodemReceiveState) (blksize : ℕ) :
    (lxmodemReceiveStore s blksize).Ensures (fun _ s' => SameSetup s.pThis s'.pThis) := by
  simp only [lxmodemReceiveStore]
  split <;> exact ⟨rfl, rfl, rfl, rfl, rfl, rfl⟩

theorem lxmodemReceiveHeader_setup (s : LxmodemReceiveState) (header : UInt8) :
    (lxmodemReceiveHeader s header).Ensures (fun _ r => SameSetup s.pThis r.1.pThis) := by
  have block (blksize : ℕ) : (lxmodemReceiveBlock s.pThis s.expectedBlkNumber blksize).Ensures
      (fun _ r => SameSetup s.pThis r.2) := by
    rw [lxmodemReceiveBlock, getchars_bind]
    intro r
    cases r <;> exact .fill _ _
  simp only [lxmodemReceiveHeader]
  split_ifs
  · rw [Program.ensures_bind]
    exact (block 128).mono fun _ _ h => h
  · rw [Program.ensures_bind]
    exact (block 1024).mono fun _ _ h => h
  all_goals exact .refl _

theorem lxmodemReceiveTurn_setup (s : LxmodemReceiveState) :
    (lxmodemReceiveTurn s).Ensures (fun _ s' => SameSetup s.pThis s'.pThis) := by
  rw [lxmodemReceiveTurn_eq]
  intro r
  cases r with
  | timedOut written size => exact lxmodemReceiveRetry_setup s
  | received data size =>
    change (lxmodemReceiveHeader s (data.headD 0) >>= fun x => _).Ensures _
    rw [Program.ensures_bind]
    apply (lxmodemReceiveHeader_setup s _).mono
    intro _ x h
    change (Program.write _ (ite _ _ _)).Ensures _
    rw [Program.ensures_write]
    split
    · exact (lxmodemReceiveStore_setup x.1 x.2.2).mono fun _ _ h' => h.trans h'
    · exact (lxmodemReceiveRetry_setup x.1).mono fun _ _ h' => h.trans h'

theorem lxmodemReceiveTurn_requests (fits : s.pThis.Fits n) (hn : 1 ≤ n) :
    (lxmodemReceiveTurn s).Requests (fun k => k ≤ n) := by
  have retry (s : LxmodemReceiveState) : (lxmodemReceiveRetry s).Requests (fun k => k ≤ n) := by
    rw [lxmodemReceiveRetry_eq]
    split <;> trivial
  have store (s : LxmodemReceiveState) (blksize : ℕ) :
      (lxmodemReceiveStore s blksize).Requests (fun k => k ≤ n) := by
    simp only [lxmodemReceiveStore]
    split <;> trivial
  have block {header : UInt8} {blksize : ℕ} (kind : FrameKind s.pThis header blksize) :
      (lxmodemReceiveBlock s.pThis s.expectedBlkNumber blksize).Requests (fun k => k ≤ n) := by
    refine ⟨fits header blksize kind, fun r => ?_⟩
    cases r <;> trivial
  have header (c : UInt8) : (lxmodemReceiveHeader s c).Requests (fun k => k ≤ n) := by
    simp only [lxmodemReceiveHeader]
    split_ifs with hsoh hstx hopts
    · exact (block (Or.inl ⟨hsoh, rfl⟩)).bind ((Program.ensures_true _).mono fun _ _ _ => trivial)
    · exact (block (Or.inr ⟨hstx, rfl, hopts⟩)).bind ((Program.ensures_true _).mono fun _ _ _ => trivial)
    all_goals trivial
  rw [lxmodemReceiveTurn_eq]
  refine ⟨hn, fun r => ?_⟩
  cases r with
  | timedOut written size => exact retry s
  | received data size =>
    refine (header _).bind ((Program.ensures_true _).mono fun _ x _ => ?_)
    change (Program.write _ (ite _ _ _)).Requests _
    rw [Program.requests_write]
    split
    · exact store x.1 x.2.2
    · exact retry x.1

theorem lxmodemReceive_requests (fits : pThis.Fits n) (hn : 1 ≤ n) (fuel : ℕ) :
    (lxmodemReceive fuel pThis).Requests (fun k => k ≤ n) := by
  have loop : (lxmodemReceiveLoop fuel (.initial pThis)).Requests (fun k => k ≤ n) := by
    apply requests_whileLoop (fun s => s.pThis.Fits n) _ _ fuel fits
    · intro s hs _
      exact lxmodemReceiveTurn_requests hs hn
    · intro s hs _
      exact (lxmodemReceiveTurn_setup s).mono fun _ s' h => h.fits hs
  exact loop.bind ((Program.ensures_true _).mono fun _ _ _ => trivial)

theorem lymodemReceiveBlock0_requests {blksize : ℕ} (hn : 2 + blksize + 2 ≤ n) (pThis : ModemContext)
    (fuel : ℕ) : (lymodemReceiveBlock0 fuel pThis blksize).Requests (fun k => k ≤ n) := by
  refine Program.Requests.bind ?_ ((Program.ensures_true _).mono fun _ _ _ => trivial)
  apply requests_whileLoop (fun _ => True) _ (fun s _ _ => Program.ensures_true _) fuel trivial
  intro s _ _
  refine ⟨hn, fun r => ?_⟩
  cases r with
  | timedOut written size => trivial
  | received data size =>
    change (Program.write _ (ite _ _ _)).Requests _
    rw [Program.requests_write]
    split
    · trivial
    · split <;> trivial

theorem lymodemWaitBlock0_requests (hn : 1028 ≤ n) (pThis : ModemContext) (fuel attempts : ℕ) :
    (lymodemWaitBlock0 fuel pThis attempts).Requests (fun k => k ≤ n) := by
  induction attempts with
  | zero => trivial
  | succ attempts ih =>
    refine ⟨show 1 ≤ n by omega, fun r => ?_⟩
    cases r with
    | timedOut written size => exact ih
    | received data size =>
      change (ite _ _ (ite _ _ _) : Program UInt8 (LxmodemReceptionStatus × ModemContext)).Requests _
      split
      · exact lymodemReceiveBlock0_requests (by omega) pThis fuel
      · split
        · exact lymodemReceiveBlock0_requests (by omega) pThis fuel
        · trivial

theorem lymodemWaitNextFile_requests (hn : 1028 ≤ n) (pThis : ModemContext) (attempts : ℕ) :
    (lymodemWaitNextFile pThis attempts).Requests (fun k => k ≤ n) := by
  have answer (pThis : ModemContext) : (lymodemAnswerNextFile pThis).Requests (fun k => k ≤ n) := by
    rw [lymodemAnswerNextFile]
    split <;> trivial
  induction attempts generalizing pThis with
  | zero => trivial
  | succ attempts ih =>
    refine ⟨show 1 ≤ n by omega, fun r => ?_⟩
    cases r with
    | timedOut written size => exact ih pThis
    | received data size =>
      change (ite _ _ _ : Program UInt8 ModemContext).Requests _
      split
      · refine ⟨by split <;> omega, fun r' => ?_⟩
        cases r' with
        | received data' size' => exact answer _
        | timedOut written size' => exact ih _
      · exact answer pThis

theorem fits_ymodem (hp : pThis.protocol = .ymodem) (hn : 1028 ≤ n) : pThis.Fits n := by
  have hcrc (blksize : ℕ) : lxmodemBlockHasCrc pThis blksize = true := by simp [lxmodemBlockHasCrc, hp]
  intro header blksize kind
  rw [bodySize, hcrc, checkSize, if_pos rfl]
  rcases kind with ⟨_, rfl⟩ | ⟨_, rfl, _⟩ <;> omega

theorem lymodemReceiveData_requests (hp : pThis.protocol = .ymodem) (hn : 1028 ≤ n)
    (rxStatus : LxmodemReceptionStatus) (fuel : ℕ) :
    (lymodemReceiveData fuel rxStatus pThis).Requests (fun k => k ≤ n) := by
  have decoded : (lymodemDecodeBlock0 pThis).1.protocol = .ymodem := by
    obtain ⟨buffer, fileData, hdecode⟩ := lymodemDecodeBlock0_changes pThis
    rw [hdecode]
    exact hp
  rw [lymodemReceiveData_eq]
  split
  · split
    · apply (lxmodemReceive_requests (fits_ymodem decoded hn) (by omega) fuel).bind
      apply (Program.ensures_true _).mono
      intro _ x _
      exact (lymodemWaitNextFile_requests hn x.2 10).bind
        ((Program.ensures_true _).mono fun _ _ _ => trivial)
    · trivial
  · trivial

theorem lymodemReceive_requests (hp : pThis.protocol = .ymodem) (hn : 1028 ≤ n) (fuel : ℕ) :
    (lymodemReceive fuel pThis).Requests (fun k => k ≤ n) := by
  have protocol := @lymodemWaitBlock0_keeps (fun p => p.protocol = .ymodem) (fun _ _ h => h) pThis hp fuel 10
  apply (lymodemWaitBlock0_requests hn pThis fuel 10).bind
  apply protocol.mono
  intro _ x hp
  exact (lymodemReceiveData_requests hp hn x.1 fuel).bind ((Program.ensures_true _).mono fun _ _ _ => trivial)

theorem fits_accepted (configured : pThis.Configured) (hp : pThis.protocol = .xmodem)
    (hn : pThis.opts.expectedSize.1 ≤ n) : pThis.Fits n := by
  intro header blksize kind
  rw [bodySize, hasCrc_of_kind configured kind, ModemContext.usesCrc, hp]
  rcases kind with ⟨_, rfl⟩ | ⟨_, rfl, hopts | hymodem⟩
  · cases hopts : pThis.opts with
    | lxmodem128WithChksum => rw [hopts] at hn; exact hn
    | lxmodem128WithCrc => rw [hopts] at hn; exact hn
    | lxmodem1k => rw [hopts] at hn; exact Nat.le_trans (by decide) hn
  · rw [hopts] at hn ⊢
    exact hn
  · rw [hp] at hymodem
    cases hymodem

end Receiver

theorem lmodemSetLineBuffer_accepted {pThis : ModemContext} {buffer : Memory UInt8} {size : UInt32}
    (accepted : (lmodemSetLineBuffer pThis buffer size).2 = true) :
    pThis.opts.expectedSize.1 ≤ size.toNat ∧ (lmodemSetLineBuffer pThis buffer size).1 =
      { pThis with withCrc := pThis.opts.expectedSize.2, blkBuffer := ⟨buffer, 0, size⟩ } := by
  simp only [lmodemSetLineBuffer] at accepted ⊢
  split at accepted
  · next h => exact ⟨h, by rw [if_pos h]⟩
  · cases accepted

theorem lmodemReceive_requests_iff (pThis : ModemContext) (buffer : Memory UInt8) (size : UInt32)
    (accepted : (lmodemSetLineBuffer pThis buffer size).2 = true) (protocol : LmodemProtocol) :
    (∀ fuel, (lmodemReceive protocol fuel (lmodemSetLineBuffer pThis buffer size).1).Requests
      (fun n => n ≤ (lmodemSetLineBuffer pThis buffer size).1.blkBuffer.maxSize.toNat)) ↔
      protocol = .xmodem ∨ 2 + 1024 + 2 ≤ size.toNat := by
  obtain ⟨hsize, hset⟩ := lmodemSetLineBuffer_accepted accepted
  have hpos : 131 ≤ pThis.opts.expectedSize.1 := by cases pThis.opts <;> decide
  rw [hset]
  constructor
  · intro h
    cases protocol with
    | xmodem => exact Or.inl rfl
    | ymodem =>
      -- a peer whose first byte is STX
      exact Or.inr (((h 1).2 (.received [STX] rfl)).1)
  · rintro h fuel
    cases protocol with
    | xmodem =>
      exact lxmodemReceive_requests (@fits_accepted { pThis with
        withCrc := pThis.opts.expectedSize.2, blkBuffer := ⟨buffer, 0, size⟩, protocol := .xmodem } _ rfl rfl
        hsize) (by omega) fuel
    | ymodem =>
      have hline : 1028 ≤ size.toNat := h.resolve_left (by simp)
      exact @lymodemReceive_requests { pThis with
        withCrc := pThis.opts.expectedSize.2, blkBuffer := ⟨buffer, 0, size⟩, protocol := .ymodem } _ rfl
        hline fuel

theorem lmodemReceive_requests_smallest :
    (lmodemReceive .xmodem 20 (lmodemSetLineBuffer (lmodemInit .lxmodem128WithChksum) (.fresh 0) 131).1).Requests
      (fun n => n ≤ 131) :=
  (lmodemReceive_requests_iff (lmodemInit .lxmodem128WithChksum) (.fresh 0) 131 rfl .xmodem).mpr (Or.inl rfl) 20

theorem lmodemReceive_requests_tooLarge :
    (lmodemSetLineBuffer (lmodemInit .lxmodem128WithChksum) (.fresh 0) 131).2 = true ∧
      .timedOut 1028 ∈ ((lmodemReceive .ymodem 1
        (lmodemSetLineBuffer (lmodemInit .lxmodem128WithChksum) (.fresh 0) 131).1).run (.scripted [[STX]]) 0).1 := by
  decide +kernel

section Sender

variable {pThis : ModemContext} {file : List UInt8} {i : ℕ} {s : LxmodeSendState} {t : List (Event UInt8)}

abbrev ModemContext.lineExtent (pThis : ModemContext) : ℕ := pThis.blkBuffer.buffer.extent

theorem framed_lineExtent {frame : List UInt8} {n b : ℕ} :
    (pThis.framed frame n).lineExtent ≤ b ↔ pThis.lineExtent ≤ b ∧ frame.length ≤ b := by
  rw [ModemContext.framed, ModemContext.lineExtent, Memory.store_extent_le _ (Nat.zero_le b), Nat.zero_add]

@[simp] theorem lxmodeHandleAnswer_pThis (s : LxmodeSendState) (a : Option UInt8) :
    (lxmodeHandleAnswer s a).pThis = s.pThis := by
  simp only [lxmodeHandleAnswer]
  split
  · split_ifs <;> rfl
  · split_ifs <;> rfl

theorem lxmodeSendBlock_lineExtent (h : SendHead pThis file i s) :
    (lxmodeSendBlock s).Ensures (fun t s' => ∀ b, s.pThis.lineExtent ≤ b → (∀ d ∈ writes t, d.length ≤ b) →
      s'.pThis.lineExtent ≤ b) := by
  by_cases hr : s.retry = 0
  · have hu := h.fresh hr
    have hformat : lxmodeBlockFormat s.pThis = (pThis.blksize, pThis.usesCrc) := by
      rw [lxmodeBlockFormat_eq, h.setup.blksize, h.setup.usesCrc]
    by_cases hnil : s.pThis.ramfile.unread = []
    · rw [lxmodeSendBlock_built hr hformat (lxmodeBuildAndSendOneDataBlock_last hu.readable hnil)]
      exact fun b hb hw => framed_lineExtent.mpr ⟨hb, hw _ (by simp)⟩
    · rw [lxmodeSendBlock_built hr hformat
        (lxmodeBuildAndSendOneDataBlock_data hu.readable (blksize_eq pThis) hnil)]
      exact fun b hb hw => framed_lineExtent.mpr ⟨hb, hw _ (by simp)⟩
  · rw [lxmodeSendBlock, if_neg hr]
    exact fun b hb _ => hb

theorem lxmodeSendTurn_lineExtent (h : SendHead pThis file i s) :
    (lxmodeSendTurn s).Ensures (fun t s' => ∀ b, s.pThis.lineExtent ≤ b → (∀ d ∈ writes t, d.length ≤ b) →
      s'.pThis.lineExtent ≤ b) := by
  rw [lxmodeSendTurn, Program.ensures_bind]
  apply (lxmodeSendBlock_lineExtent h).mono
  intro t s' hs'
  rw [Program.ensures_bind]
  apply (Program.ensures_true _).mono
  intro t' a _
  rw [Program.pure_eq, Program.ensures_done, lxmodeHandleAnswer_pThis]
  exact fun b hb hw => hs' b hb fun d hd => hw d (by simp [hd])

structure Framing (pThis : ModemContext) (file : List UInt8) (t : List (Event UInt8)) (s : LxmodeSendState) :
    Prop where
  frames : ∀ d ∈ writes t, ∃ i, d = fileFrame pThis file i
  extent : ∀ b, pThis.lineExtent ≤ b → (∀ d ∈ writes t, d.length ≤ b) → s.pThis.lineExtent ≤ b

theorem lxmodeSendLoop_framing (h : pThis.ramfile.Loaded file) (fuel : ℕ) :
    (lxmodeSendLoop fuel (.initial pThis)).Ensures (Framing pThis file) := by
  refine (ensures_whileLoop (fun t s => Transmits pThis file t s ∧ Framing pThis file t s) ?_ fuel
    ⟨transmits_initial h, by simp, fun b hb _ => hb⟩).mono fun t s ⟨⟨_, hs⟩, _⟩ => hs
  rintro t s ⟨⟨i, segments, cur, rfl, hp, placed⟩, hs⟩ hrunning
  have running : s.bFinished = false := by simpa using hrunning
  cases placed with
  | sending head retry copies unanswered =>
    apply ((lxmodeSendTurn_ensures h.length_lt head).and (lxmodeSendTurn_lineExtent head)).mono
    rintro _ s' ⟨⟨t', a, rfl, ha, answered⟩, hs'⟩
    refine ⟨Transmits.turn hp head retry copies unanswered ha answered, ?_, ?_⟩
    · intro d hd
      rw [writes_append, writes_sent, ha.writes_eq, List.mem_append, List.mem_singleton] at hd
      rcases hd with hd | hd
      · exact hs.frames d hd
      · exact ⟨i, hd⟩
    · intro b hb hw
      rw [writes_append] at hw
      have before := hs.extent b hb fun d hd => hw d (List.mem_append_left _ hd)
      exact hs' b before fun d hd => hw d (List.mem_append_right _ hd)
  | failed finished _ _ _ _ => rw [running] at finished; cases finished
  | done finished _ _ _ _ => rw [running] at finished; cases finished

theorem fileFrame_length_le (i : ℕ) : (fileFrame pThis file i).length ≤ (fileFrame pThis file 0).length := by
  have hb : pThis.blksize ≤ 1024 := by rcases blksize_eq pThis with h | h <;> omega
  by_cases hi : i < blockCount pThis.blksize file
  · rw [fileFrame, if_pos hi, fileFrame, if_pos (by omega), dataFrame_length, dataFrame_length,
      blockPayload_length _ _ _ hb, blockPayload_length _ _ _ hb]
    unfold blockSize
    split_ifs <;> omega
  · rw [fileFrame, if_neg hi, List.length_singleton, fileFrame]
    split
    · rw [dataFrame_length]
      omega
    · exact Nat.le_refl _

theorem fileFrame_zero_length_le {n : ℕ} (hn : 1 ≤ n) :
    (fileFrame pThis file 0).length ≤ n ↔
      file = [] ∨ 3 + blockSize (min pThis.blksize file.length) + checkSize pThis.usesCrc ≤ n := by
  have hb : pThis.blksize ≤ 1024 := by rcases blksize_eq pThis with h | h <;> omega
  by_cases hfile : file = []
  · have hcount : ¬ 0 < blockCount pThis.blksize file := by rw [blockCount_pos]; simpa using hfile
    rw [fileFrame, if_neg hcount]
    exact iff_of_true hn (Or.inl hfile)
  · rw [fileFrame, if_pos ((blockCount_pos pThis).mpr hfile), dataFrame_length,
      blockPayload_length _ _ _ hb, Nat.zero_mul, Nat.sub_zero]
    simp only [hfile, false_or]
    omega

theorem lxmodeSendDataBlocks_within (h : pThis.ramfile.Loaded file) {n : ℕ} (fresh : pThis.lineExtent ≤ n)
    (fuel : ℕ) :
    (lxmodeSendDataBlocks fuel pThis).Ensures (fun t r =>
      (r.2.lineExtent ≤ n ∧ ∀ d ∈ writes t, d.length ≤ n) ↔ (fileFrame pThis file 0).length ≤ n) := by
  have first : (lxmodeSendLoop fuel (.initial pThis)).Ensures (fun t _ => fileFrame pThis file 0 ∈ writes t) := by
    cases fuel with
    | zero => trivial
    | succ fuel =>
      rw [lxmodeSendLoop, whileLoop_true fuel rfl, Program.ensures_bind]
      apply (lxmodeSendTurn_ensures h.length_lt (sendHead_initial h)).mono
      rintro _ s ⟨t, a, rfl, _, _⟩
      exact (Program.ensures_true _).mono fun t' _ _ => by simp
  rw [lxmodeSendDataBlocks, Program.ensures_bind]
  apply (first.and (lxmodeSendLoop_framing h fuel)).mono
  intro t s both
  obtain ⟨hfirst, hs⟩ := both
  rw [Program.pure_eq, Program.ensures_done, List.append_nil]
  constructor
  · rintro ⟨_, hw⟩
    exact hw _ hfirst
  · intro hlong
    have hw : ∀ d ∈ writes t, d.length ≤ n := by
      intro d hd
      obtain ⟨i, rfl⟩ := hs.frames d hd
      exact (fileFrame_length_le i).trans hlong
    exact ⟨hs.extent n fresh hw, hw⟩

theorem lxmodemEmit_within (h : pThis.ramfile.Loaded file) {n : ℕ} (fresh : pThis.lineExtent ≤ n) (hn : 2 ≤ n)
    {o : Peer UInt8} {fuel : ℕ} {r : Int32 × ModemContext}
    (hr : (lxmodemEmit fuel pThis).run o 0 = (t, some r)) :
    (r.2.lineExtent ≤ n ∧ ∀ d ∈ writes t, d.length ≤ n) ↔
      (¬ ∃ preamble i, awaited o (fun _ => true) 10 0 = (some preamble, i) ∧
        lxmodemDecodePreambule pThis preamble = true) ∨ (fileFrame pThis file 0).length ≤ n := by
  obtain ⟨t₀, ht₀, _⟩ := getcharWithin_run o (fun _ => true) 10 0
  have hw₀ : writes t₀ = [] := ((getcharWithin_ensures _ _).run ht₀).writes_eq
  rw [lxmodemEmit_eq, Program.run_bind_some ht₀] at hr
  rcases hawaited : awaited o (fun _ => true) 10 0 with ⟨_ | preamble, i⟩
  · rw [hawaited] at hr
    obtain ⟨rfl, hr⟩ := Prod.mk.inj hr
    cases hr
    exact iff_of_true ⟨fresh, by simp [hw₀, emitAfter]⟩ (Or.inl (by simp))
  · rw [hawaited] at hr
    by_cases hdecode : lxmodemDecodePreambule pThis preamble = false
    · rw [emitAfter, if_pos hdecode] at hr
      obtain ⟨rfl, hr⟩ := Prod.mk.inj hr
      cases hr
      refine iff_of_true ⟨fresh, by simpa [hw₀] using hn⟩ (Or.inl ?_)
      rintro ⟨_, _, he, hok⟩
      cases he
      rw [hdecode] at hok
      cases hok
    · rw [emitAfter, if_neg hdecode] at hr
      obtain ⟨rfl, hdata⟩ := Prod.mk.inj hr
      have within := (lxmodeSendDataBlocks_within h fresh fuel).run (Prod.ext rfl hdata)
      rw [writes_append, hw₀, List.nil_append, within]
      have hpassed : lxmodemDecodePreambule pThis preamble = true := by simpa using hdecode
      exact ⟨Or.inr, fun hor => hor.resolve_left fun hno => hno ⟨preamble, i, rfl, hpassed⟩⟩

end Sender

theorem lmodemEmit_within_iff (pThis : ModemContext) (buffer : Memory UInt8) (size : UInt32)
    (accepted : (lmodemSetLineBuffer pThis buffer size).2 = true) (fresh : buffer.extent ≤ size.toNat)
    (file : List UInt8) (h : pThis.ramfile.Loaded file) (o : Peer UInt8) {t : List (Event UInt8)} {n : Int32}
    {pThis' : ModemContext}
    (hr : Returns (fun fuel => lmodemEmit .xmodem fuel (lmodemSetLineBuffer pThis buffer size).1) o t (n, pThis')) :
    (pThis'.blkBuffer.buffer.extent ≤ size.toNat ∧ ∀ d ∈ writes t, d.length ≤ size.toNat) ↔
      file = [] ∨
      (¬ ∃ preamble i, awaited o (fun _ => true) 10 0 = (some preamble, i) ∧
        lxmodemDecodePreambule { pThis with protocol := .xmodem } preamble = true) ∨
      3 + blockSize (min (ModemContext.blksize { pThis with protocol := .xmodem }) file.length) +
        checkSize (ModemContext.usesCrc { pThis with protocol := .xmodem }) ≤ size.toNat := by
  obtain ⟨hsize, hset⟩ := lmodemSetLineBuffer_accepted accepted
  have hpos : 131 ≤ pThis.opts.expectedSize.1 := by cases pThis.opts <;> decide
  obtain ⟨fuel, hr⟩ := hr
  have hrun : (lxmodemEmit fuel { (lmodemSetLineBuffer pThis buffer size).1 with protocol := .xmodem }).run o 0 =
      (t, some (n, pThis')) := hr
  rw [hset] at hrun
  have within := @lxmodemEmit_within { pThis with
    withCrc := pThis.opts.expectedSize.2, blkBuffer := ⟨buffer, 0, size⟩, protocol := .xmodem } _ _ h
    size.toNat fresh (by omega) _ _ _ hrun
  rw [fileFrame_zero_length_le (by omega)] at within
  rw [within, or_left_comm]
  rfl

theorem lmodemEmit_within_oneByte :
    ∃ t n pThis', Returns (fun fuel => lmodemEmit .xmodem fuel
        (lmodemSetLineBuffer (checksumSender [7]) (.fresh 0) 132).1) (.scripted [[NAK], [ACK], [ACK]]) t
        (n, pThis') ∧ pThis'.blkBuffer.buffer.extent ≤ 132 := by
  have run : ((lmodemEmit .xmodem 4 (lmodemSetLineBuffer (checksumSender [7]) (.fresh 0) 132).1).run
      (.scripted [[NAK], [ACK], [ACK]]) 0).2.map Prod.fst = some 128 := by
    decide +kernel
  obtain ⟨⟨n, pThis'⟩, h, _⟩ := @returns_of_run _ _ _ (fun fuel => lmodemEmit .xmodem fuel
    (lmodemSetLineBuffer (checksumSender [7]) (.fresh 0) 132).1) _ _ _ 4 run
  have within := lmodemEmit_within_iff (checksumSender [7]) (.fresh 0) 132 rfl (by decide) [7]
    ⟨⟨by decide, by decide⟩, rfl⟩ (.scripted [[NAK], [ACK], [ACK]]) h
  exact ⟨_, n, pThis', h, (within.mpr (Or.inr (Or.inr (by decide)))).1⟩

theorem lmodemEmit_within_tooSmall :
    (lmodemSetLineBuffer (checksumSender [7]) (.fresh 0) 131).2 = true ∧
      (((lmodemEmit .xmodem 4 (lmodemSetLineBuffer (checksumSender [7]) (.fresh 0) 131).1).run
        (.scripted [[NAK], [ACK], [ACK]]) 0).2.map fun r => r.2.blkBuffer.buffer.extent) = some 132 := by
  decide +kernel

end LightModem
