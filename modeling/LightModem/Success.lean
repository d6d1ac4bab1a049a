import LightModem.YmodemEmission

set_option autoImplicit false

namespace LightModem

open Interaction

section Confirmed

variable {pThis : ModemContext} {file : List UInt8} {t : List (Event UInt8)}

theorem Confirmed.append (h : Confirmed pThis file t) (l r : List (Event UInt8)) :
    Confirmed pThis file (l ++ (t ++ r)) := by
  refine ⟨fun i hi => ?_, ?_⟩
  · exact List.mem_append_right _ (List.mem_append_left _ (h.blocks i hi))
  · obtain ⟨l', r', rfl, hack⟩ := h.endOfFile
    exact ⟨l ++ l', r' ++ r, by simp, List.mem_append_left _ hack⟩

theorem SameSetup.confirmed {a b : ModemContext} (h : SameSetup a b) (hc : Confirmed b file t) :
    Confirmed a file t := by
  refine ⟨fun i hi => ?_, hc.endOfFile⟩
  rw [h.blksize] at hi
  have hsent := hc.blocks i hi
  rwa [← h.crc16, ← h.usesCrc, ← h.blksize] at hsent

theorem Confirmed.sent (h : Confirmed pThis file t) : .sent [EOT] ∈ t := by
  obtain ⟨l, r, rfl, _⟩ := h.endOfFile
  simp

end Confirmed

section Data

variable {pThis pThis' : ModemContext} {file : List UInt8} {o : Peer UInt8} {fuel i : ℕ} {n : Int32}
  {t : List (Event UInt8)}

theorem lxmodemEmit_silent (hs : ∀ j < 10, (o (i + j) 1).data? = none)
    (hr : (lxmodemEmit fuel pThis).run o i = (t, some (n, pThis'))) :
    n = 0 ∧ pThis' = pThis ∧ writes t = [] ∧ i + reads t = i + 10 := by
  obtain ⟨t₀, ht₀, hreads⟩ := getcharWithin_run o (fun _ => true) 10 i
  have hnone := awaited_none_iff.mpr hs
  rw [lxmodemEmit_eq, Program.run_bind_some ht₀, hnone] at hr
  rw [awaited_eq_none hnone] at hreads
  have hwrites := ((getcharWithin_ensures (fun _ => true) 10).run ht₀).writes_eq
  simp only [emitAfter, Program.run_done, List.append_nil, Prod.mk.injEq, Option.some.injEq] at hr
  obtain ⟨rfl, rfl, rfl⟩ := hr
  exact ⟨rfl, rfl, hwrites, hreads⟩

theorem lxmodemEmit_answered (h : pThis.ramfile.Loaded file)
    (hs : ¬ ∀ j < 10, (o (i + j) 1).data? = none)
    (hr : (lxmodemEmit fuel pThis).run o i = (t, some (n, pThis'))) :
    Confirmed pThis file t ∨ n = -1 := by
  obtain ⟨t₀, ht₀, hreads⟩ := getcharWithin_run o (fun _ => true) 10 i
  rw [← awaited_none_iff] at hs
  rw [lxmodemEmit_eq, Program.run_bind_some ht₀] at hr
  cases hpreambule : (awaited o (fun _ => true) 10 i).1 with
  | none => exact absurd hpreambule hs
  | some preambule =>
    rw [hpreambule, emitAfter] at hr
    split at hr
    · simp only [Program.run_write, Program.run_done, Prod.mk.injEq, Option.some.injEq] at hr
      exact Or.inr hr.2.1.symm
    · obtain ⟨rfl, hdata⟩ := Prod.mk.inj hr
      obtain ⟨s, htransmits, hf, hn⟩ := (lxmodeSendDataBlocks_ensures h fuel).run (Prod.ext rfl hdata)
      rcases (htransmits.transmitted hf).result with ⟨confirmed, _⟩ | ⟨_, hbytes⟩
      · exact Or.inl (by simpa using confirmed.append t₀ [])
      · right
        rw [(Prod.mk.inj hn).1, hbytes]
        rfl

end Data

section Handshake

variable {pThis pThis' : ModemContext} {o : Peer UInt8} {fuel i : ℕ} {v : UInt8} {t : List (Event UInt8)}

abbrev ModemContext.lastBlock (pThis : ModemContext) : List UInt8 :=
  pThis.blkBuffer.buffer.load 0 pThis.blkBuffer.currentSize

theorem lymodemHandshake_writes (pThis : ModemContext) (fuel : ℕ) (v : UInt8) (bOk : Bool) :
    (lymodemHandshake fuel pThis v bOk).Ensures (fun t _ => ∀ d ∈ writes t, d = pThis.lastBlock) := by
  refine (ensures_whileLoop (fun t _ => ∀ d ∈ writes t, d = pThis.lastBlock) ?_ fuel (by simp)).mono
    fun t s h => h.1
  intro t s hs _
  rw [lymodemHandshakeTurn_eq, Program.ensures_bind]
  apply (getcharWithin_ensures _ 10).mono
  intro t' a ha
  have hw := ha.writes_eq
  split
  · intro d hd
    have hd' : d ∈ writes t ∨ d = pThis.lastBlock := by simpa [hw] using hd
    rcases hd' with hd' | hd'
    · exact hs d hd'
    · exact hd'
  · simpa [hw] using hs

theorem load_ne_EOT (m : Memory UInt8) {n : ℕ} (h : n ≠ 1) : m.load 0 n ≠ [EOT] := by
  intro he
  have hl := congrArg List.length he
  rw [Memory.load_length, List.length_singleton] at hl
  exact h hl

theorem lymodemBuildAndSendBlock0_lastBlock (hbuf : 0 < pThis.blkBuffer.maxSize.toNat) :
    (lymodemBuildAndSendBlock0 pThis).Ensures (fun t pThis' =>
      pThis'.lastBlock ≠ [EOT] ∧ [EOT] ∉ writes t) := by
  simp only [lymodemBuildAndSendBlock0]
  split
  · have hne (m : Memory UInt8) (b : Prop) [Decidable b] :
        m.load 0 (1 + 2 + (if b then 128 else 1024) + 2) ≠ [EOT] :=
      load_ne_EOT m (by split <;> decide)
    exact ⟨hne _ _, by simpa using (hne _ _).symm⟩
  · refine ⟨?_, by simp⟩
    intro he
    have hsize : pThis.blkBuffer.currentSize = 1 := by simpa using congrArg List.length he
    have hcell : (((pThis.blkBuffer.buffer.store 0 (List.replicate pThis.blkBuffer.maxSize.toNat 0)).store 1
        [0]).store 2 [~~~0]) 0 = 0 := by
      rw [Memory.store_of_lt _ (by decide), Memory.store_of_lt _ (by decide),
        Memory.store_zero _ (by simpa using hbuf), List.getElem_replicate]
    simp only [ModemContext.lastBlock, hsize, Memory.load_succ, Memory.load_zero, hcell] at he
    exact absurd he (by decide)

theorem not_EOT_of_last {t : List (Event UInt8)} (hne : pThis.lastBlock ≠ [EOT])
    (h : ∀ d ∈ writes t, d = pThis.lastBlock) : [EOT] ∉ writes t := fun hmem => hne (h _ hmem).symm

theorem lymodemEmitBlock0_writes (hbuf : 0 < pThis.blkBuffer.maxSize.toNat) (fuel : ℕ) :
    (lymodemEmitBlock0 fuel pThis).Ensures (fun t _ => [EOT] ∉ writes t) := by
  rw [lymodemEmitBlock0_eq, Program.ensures_bind]
  apply (getcharWithin_ensures _ 10).mono
  intro t received ha
  have hw := ha.writes_eq
  cases received with
  | none => simp [emitBlock0After, hw]
  | some c =>
    rw [emitBlock0After, Program.ensures_bind]
    apply (lymodemBuildAndSendBlock0_lastBlock hbuf).mono
    intro t₁ pThis' built
    obtain ⟨hne, h₁⟩ := built
    rw [Program.ensures_bind]
    apply (lymodemHandshake_writes pThis' fuel 0 true).mono
    intro t₂ s h₂
    simpa [hw] using ⟨h₁, not_EOT_of_last hne h₂⟩

theorem lymodemSendEndOfBach_lastBlock (pThis : ModemContext) :
    (lymodemSendEndOfBach pThis).Ensures (fun t pThis' =>
      pThis'.lastBlock ≠ [EOT] ∧ [EOT] ∉ writes t) := by
  have hne (m : Memory UInt8) : m.load 0 (3 + 128 + 2) ≠ [EOT] := load_ne_EOT m (by decide)
  rw [lymodemSendEndOfBach]
  exact ⟨hne _, by simpa using (hne _).symm⟩

theorem lymodemEmitEndOfBach_eq (fuel : ℕ) (pThis : ModemContext) (v : UInt8) (nbEmitted : UInt32) :
    lymodemEmitEndOfBach fuel pThis true v nbEmitted =
      lymodemSendEndOfBach pThis >>= fun pThis => lymodemHandshake fuel pThis v true >>= fun s =>
        .done (if s.bOk then nbEmitted else -1, pThis) := rfl

theorem lymodemEmitEndOfBach_writes (pThis : ModemContext) (fuel : ℕ) (bOk : Bool) (v : UInt8)
    (nbEmitted : UInt32) :
    (lymodemEmitEndOfBach fuel pThis bOk v nbEmitted).Ensures (fun t _ => [EOT] ∉ writes t) := by
  cases bOk with
  | false => simp [lymodemEmitEndOfBach]
  | true =>
    rw [lymodemEmitEndOfBach_eq, Program.ensures_bind]
    apply (lymodemSendEndOfBach_lastBlock pThis).mono
    intro t₁ pThis' sent
    obtain ⟨hne, h₁⟩ := sent
    rw [Program.ensures_bind]
    apply (lymodemHandshake_writes pThis' fuel v true).mono
    intro t₂ s h₂
    simpa using ⟨h₁, not_EOT_of_last hne h₂⟩

theorem lymodemEmitEndOfBach_result {bOk : Bool} {nbEmitted nbEmitted' : UInt32}
    (hr : (lymodemEmitEndOfBach fuel pThis bOk v nbEmitted).run o i = (t, some (nbEmitted', pThis'))) :
    nbEmitted' = nbEmitted ∧ (bOk = true → ¬ HandshakeCancelled o 10 (v, i)) ∨
      nbEmitted' = -1 ∧ HandshakeCancelled o 10 (v, i) := by
  cases bOk with
  | false =>
    obtain ⟨_, hr⟩ := Prod.mk.inj hr
    exact Or.inl ⟨(congrArg Prod.fst (Option.some.inj hr)).symm, by simp⟩
  | true =>
    rw [lymodemEmitEndOfBach_eq] at hr
    obtain ⟨t₁, p₁, t₂, h₁, h₂, _⟩ := Program.exists_of_run_bind hr
    obtain ⟨s, h₃, hresult⟩ := Program.exists_of_run_map h₂
    have hreads : reads t₁ = 0 := by
      obtain ⟨rfl, _⟩ := Prod.mk.inj h₁
      rfl
    rw [hreads, Nat.add_zero] at h₃
    have hbOk := @handshakeLoop_bOk o p₁ ⟨v, true, false, 0⟩ i rfl (show 0 < 10 by decide) rfl fuel s
      (congrArg Prod.snd h₃)
    have hn : (if s.bOk then nbEmitted else -1) = nbEmitted' := (congrArg Prod.fst hresult).symm
    cases hs : s.bOk with
    | false =>
      rw [hs] at hn
      exact Or.inr ⟨hn.symm, hbOk.mp hs⟩
    | true =>
      rw [hs] at hn
      refine Or.inl ⟨hn.symm, fun _ hc => ?_⟩
      rw [hbOk.mpr hc] at hs
      cases hs

end Handshake

section Ymodem

variable {pThis pThis' : ModemContext} {file : List UInt8} {o : Peer UInt8} {fuel i : ℕ} {n : Int32}
  {t : List (Event UInt8)}

theorem lymodemEmitData_result {bOk : Bool} {nbEmitted : UInt32}
    (hr : (lymodemEmitData fuel pThis true).run o i = (t, some (bOk, nbEmitted, pThis'))) :
    ∃ t₁ n p₁ t₂, (lxmodemEmit fuel pThis).run o i = (t₁, some (n, p₁)) ∧ t = t₁ ++ t₂ ∧
      nbEmitted = n.toUInt32 ∧ (n = 0 → bOk = true ∧ t₂ = []) := by
  change (lxmodemEmit fuel pThis >>= fun x =>
    if x.1.toUInt32 > 0 then lmodemWaitReceptionOf charC >>= fun bOk => .done (bOk, x.1.toUInt32, x.2)
    else .done (true, x.1.toUInt32, x.2)).run o i = _ at hr
  obtain ⟨t₁, ⟨n, p₁⟩, t₂, h₁, h₂, rfl⟩ := Program.exists_of_run_bind hr
  refine ⟨t₁, n, p₁, t₂, h₁, rfl, ?_⟩
  dsimp only at h₂
  split at h₂
  · next hpos =>
    obtain ⟨bOk', h₃, hresult⟩ := Program.exists_of_run_map h₂
    refine ⟨congrArg (fun x => x.2.1) hresult, fun h0 => ?_⟩
    rw [h0] at hpos
    exact absurd hpos (by decide)
  · obtain ⟨rfl, hresult⟩ := Prod.mk.inj h₂
    exact ⟨(congrArg (fun x => x.2.1) (Option.some.inj hresult)).symm,
      fun _ => ⟨(congrArg (fun x => x.1) (Option.some.inj hresult)).symm, rfl⟩⟩

def DataUnrequested (o : Peer UInt8) : Prop :=
  ∃ v i, Block0Passes o (v, i) ∧ (∀ j < 10, (o (i + j) 1).data? = none) ∧ ¬ HandshakeCancelled o 10 (v, i + 10)

theorem dataUnrequested_iff {v : UInt8}
    (h : (lymodemEmitBlock0 fuel pThis).run o 0 = (t, some (true, v, pThis'))) :
    DataUnrequested o ↔ (∀ j < 10, (o (reads t + j) 1).data? = none) ∧
      ¬ HandshakeCancelled o 10 (v, reads t + 10) := by
  have passes := lymodemEmitBlock0_passes h
  constructor
  · rintro ⟨v', i, first, unrequested⟩
    cases ((passes _).mp first).2
    exact unrequested
  · exact fun unrequested => ⟨v, reads t, (passes _).mpr ⟨rfl, rfl⟩, unrequested⟩

theorem lymodemEmit_run (hr : (lymodemEmit fuel pThis).run o 0 = (t, some (n, pThis'))) :
    ∃ t₁ ok₁ v p₁ t₂ ok₂ nb₂ p₂ t₃ nb₃ p₃,
      (lymodemEmitBlock0 fuel pThis).run o 0 = (t₁, some (ok₁, v, p₁)) ∧
      (lymodemEmitData fuel p₁ ok₁).run o (reads t₁) = (t₂, some (ok₂, nb₂, p₂)) ∧
      (lymodemEmitEndOfBach fuel p₂ ok₂ v nb₂).run o (reads t₁ + reads t₂) = (t₃, some (nb₃, p₃)) ∧
      t = t₁ ++ (t₂ ++ t₃) ∧ n = nb₃.toInt32 := by
  obtain ⟨t₁, ⟨ok₁, v, p₁⟩, t₂', h₁, h₂', rfl⟩ := Program.exists_of_run_bind hr
  obtain ⟨t₂, ⟨ok₂, nb₂, p₂⟩, t₃', h₂, h₃', rfl⟩ := Program.exists_of_run_bind h₂'
  obtain ⟨⟨nb₃, p₃⟩, h₃, hresult⟩ := Program.exists_of_run_map h₃'
  rw [Nat.zero_add] at h₂ h₃
  exact ⟨t₁, ok₁, v, p₁, t₂, ok₂, nb₂, p₂, t₃', nb₃, p₃, h₁, h₂, h₃, rfl, congrArg Prod.fst hresult⟩

theorem neg_result {nbEmitted : UInt32} (h : nbEmitted = -1) : ¬ (0 : Int32) ≤ nbEmitted.toInt32 := by
  rw [h]
  decide

theorem lymodemEmit_confirmed (h : pThis.ramfile.Loaded file) (hbuf : 0 < pThis.blkBuffer.maxSize.toNat)
    (hr : (lymodemEmit fuel pThis).run o 0 = (t, some (n, pThis'))) :
    (0 ≤ n → Confirmed pThis file t) ↔ ¬ DataUnrequested o := by
  obtain ⟨t₁, ok₁, v, p₁, t₂, ok₂, nb₂, p₂, t₃, nb₃, p₃, h₁, h₂, h₃, rfl, rfl⟩ := lymodemEmit_run hr
  obtain ⟨hmode, hram⟩ := (lymodemEmitBlock0_mode fuel pThis).run h₁
  have hend := lymodemEmitEndOfBach_result h₃
  have failed (hnb : nb₂ = -1) : ¬ (0 : Int32) ≤ nb₃.toInt32 := by
    rcases hend with ⟨hkeep, _⟩ | ⟨hneg, _⟩
    · exact neg_result (hkeep.trans hnb)
    · exact neg_result hneg
  cases ok₁ with
  | false =>
    obtain ⟨_, hresult⟩ := Prod.mk.inj h₂
    have hnb : nb₂ = -1 := (congrArg (fun x => x.2.1) (Option.some.inj hresult)).symm
    refine iff_of_true (fun hpos => absurd hpos (failed hnb)) ?_
    rintro ⟨v', i, first, _⟩
    cases ((lymodemEmitBlock0_passes h₁ _).mp first).1
  | true =>
    rw [dataUnrequested_iff h₁]
    obtain ⟨td, nd, pd, tw, hdata, rfl, rfl, hzero⟩ := lymodemEmitData_result h₂
    by_cases hs : ∀ j < 10, (o (reads t₁ + j) 1).data? = none
    · obtain ⟨rfl, _, hwd, hrd⟩ := lxmodemEmit_silent hs hdata
      obtain ⟨rfl, rfl⟩ := hzero rfl
      have hreads : reads t₁ + reads (td ++ []) = reads t₁ + 10 := by rw [List.append_nil, hrd]
      rw [hreads] at hend
      rcases hend with ⟨rfl, hno⟩ | ⟨hneg, hcancelled⟩
      · refine iff_of_false (fun hall => ?_) (fun hun => hun ⟨hs, hno rfl⟩)
        have hsent := mem_writes.mpr (hall (by decide)).sent
        have hblock0 := (lymodemEmitBlock0_writes hbuf fuel).run h₁
        have hbatch := (lymodemEmitEndOfBach_writes p₂ fuel true v 0).run h₃
        simp only [writes_append, hwd, List.append_nil, List.nil_append, List.mem_append] at hsent
        exact hsent.elim hblock0 hbatch
      · exact iff_of_true (fun hpos => absurd hpos (neg_result hneg)) (fun hun => hun.2 hcancelled)
    · refine iff_of_true (fun hpos => ?_) (fun hun => hs hun.1)
      rcases lxmodemEmit_answered (by rw [hram]; exact h) hs hdata with confirmed | hneg
      · simpa using (hmode.confirmed confirmed).append t₁ (tw ++ t₃)
      · exact absurd hpos (failed (by rw [hneg]; rfl))

end Ymodem

theorem lxmodemEmit_confirmed {pThis pThis' : ModemContext} {file : List UInt8} {o : Peer UInt8} {fuel : ℕ}
    {n : Int32} {t : List (Event UInt8)} (h : pThis.ramfile.Loaded file)
    (hr : (lxmodemEmit fuel pThis).run o 0 = (t, some (n, pThis'))) :
    (0 ≤ n → Confirmed pThis file t) ↔ ∃ j < 10, (o j 1).data? ≠ none := by
  by_cases hs : ∀ j < 10, (o j 1).data? = none
  · obtain ⟨rfl, _, hw, _⟩ := lxmodemEmit_silent (by simpa using hs) hr
    refine iff_of_false (fun hall => ?_) (by simpa using hs)
    have hsent := mem_writes.mpr (hall (by decide)).sent
    rw [hw] at hsent
    cases hsent
  · refine iff_of_true (fun hpos => ?_) (by simpa using hs)
    rcases lxmodemEmit_answered h (by simpa using hs) hr with confirmed | rfl
    · exact confirmed
    · exact absurd hpos (by decide)

/-- A result that is not an error means that the whole file was sent and acknowledged exactly when, in
XMODEM, the preamble has come within ten reads, and, in YMODEM, the receiver has not left the data
without a preamble and the end of the batch uncancelled. -/
theorem lmodemEmit_confirmed_iff (pThis : ModemContext) (file : List UInt8)
    (h : pThis.ramfile.Loaded file) (hbuf : 0 < pThis.blkBuffer.maxSize.toNat) (o : Peer UInt8) :
    (∀ t n pThis', Returns (fun fuel => lmodemEmit .xmodem fuel pThis) o t (n, pThis') →
      ((0 ≤ n → Confirmed { pThis with protocol := .xmodem } file t) ↔
        ∃ j < 10, (o j 1).data? ≠ none)) ∧
    (∀ t n pThis', Returns (fun fuel => lmodemEmit .ymodem fuel pThis) o t (n, pThis') →
      ((0 ≤ n → Confirmed { pThis with protocol := .ymodem } file t) ↔
        ¬ DataUnrequested o)) := by
  refine ⟨fun t n pThis' ⟨fuel, hr⟩ => ?_, fun t n pThis' ⟨fuel, hr⟩ => ?_⟩
  · exact @lxmodemEmit_confirmed { pThis with protocol := .xmodem } pThis' file o fuel n t h hr
  · exact @lymodemEmit_confirmed { pThis with protocol := .ymodem } pThis' file o fuel n t h hbuf hr

theorem lmodemEmit_confirmed_oneByte :
    ∃ t, Confirmed { checksumSender [7] with protocol := .xmodem } [7] t := by
  have run : ((lmodemEmit .xmodem 4 (checksumSender [7])).run
      (.scripted [[NAK], [ACK], [ACK]]) 0).2.map Prod.fst = some 128 := by
    decide +kernel
  obtain ⟨⟨n, pThis'⟩, h, rfl⟩ :=
    @returns_of_run _ _ _ (fun fuel => lmodemEmit .xmodem fuel (checksumSender [7])) _ _ _ 4 run
  have confirmed := (lmodemEmit_confirmed_iff (checksumSender [7]) [7] ⟨⟨by decide, by decide⟩, rfl⟩
    (by decide) (.scripted [[NAK], [ACK], [ACK]])).1 _ _ pThis' h
  exact ⟨_, confirmed.mpr ⟨0, by decide, by simp [Peer.scripted, Reply.data?]⟩ (by decide)⟩

theorem lmodemEmit_unconfirmed :
    ∃ t pThis', Returns (fun fuel => lmodemEmit .xmodem fuel (checksumSender [7])) (.scripted []) t
        (0, pThis') ∧
      ¬ Confirmed { checksumSender [7] with protocol := .xmodem } [7] t := by
  have run : ((lmodemEmit .xmodem 1 (checksumSender [7])).run (.scripted []) 0).2.map Prod.fst = some 0 := by
    decide +kernel
  obtain ⟨⟨n, pThis'⟩, h, rfl⟩ :=
    @returns_of_run _ _ _ (fun fuel => lmodemEmit .xmodem fuel (checksumSender [7])) _ _ _ 1 run
  refine ⟨_, pThis', h, fun confirmed => ?_⟩
  have hsent := mem_writes.mpr confirmed.sent
  have hw : writes ((lmodemEmit .xmodem 1 (checksumSender [7])).run (.scripted []) 0).1 = [] := by
    decide +kernel
  rw [hw] at hsent
  cases hsent

end LightModem
