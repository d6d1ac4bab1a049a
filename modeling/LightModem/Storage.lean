import LightModem.Reception

set_option autoImplicit false

namespace LightModem

open Interaction

def ModemContext.Configured (pThis : ModemContext) : Prop :=
  pThis.withCrc = pThis.opts.expectedSize.2

def framesRead : List (Event UInt8) → List (UInt8 × List UInt8)
  | .received [header] :: .received body :: t => (header, body) :: framesRead t
  | _ :: t => framesRead t
  | [] => []

def numbered (pThis : ModemContext) (blocks : List (UInt8 × List UInt8)) : List (UInt8 × List UInt8) :=
  blocks.mapIdx (fun j b => (b.1, frameBody pThis.crc16 pThis.usesCrc (UInt8.ofNat (j + 1)) b.2))

def payloads (blocks : List (UInt8 × List UInt8)) : List UInt8 := blocks.flatMap Prod.snd

def Settled (t : List (Event UInt8)) : Prop :=
  ∀ t', framesRead (t ++ t') = framesRead t ++ framesRead t'

theorem settled_nil : Settled [] := fun _ => rfl

theorem framesRead_append (t : List (Event UInt8)) {e : Event UInt8} (he : ∀ d, e ≠ .received d)
    (t' : List (Event UInt8)) : framesRead (t ++ e :: t') = framesRead t ++ framesRead t' := by
  induction t using framesRead.induct with
  | case1 header body t ih => simpa [framesRead] using ih
  | case2 e₀ t apart ih =>
    have apart' : ∀ header body rest, e₀ = .received [header] →
        t ++ e :: t' = .received body :: rest → False := by
      intro header body rest h₀ hrest
      cases t with
      | nil => exact he body (List.cons.inj hrest).1
      | cons e₁ t => exact apart header body t h₀ (by rw [(List.cons.inj hrest).1])
    rw [List.cons_append, framesRead.eq_2 _ _ apart', framesRead.eq_2 _ _ apart, ih]
  | case3 =>
    exact framesRead.eq_2 _ _ (fun header _ _ h _ => he [header] h)

theorem settled_snoc (t : List (Event UInt8)) {e : Event UInt8} (he : ∀ d, e ≠ .received d) :
    Settled (t ++ [e]) := by
  intro t'
  rw [List.append_assoc, List.singleton_append, framesRead_append _ he, framesRead_append _ he]
  simp [framesRead]

theorem settled_of_last {t' : List (Event UInt8)} {e : Event UInt8} (hlast : t'.getLast? = some e)
    (he : ∀ d, e ≠ .received d) (t : List (Event UInt8)) : Settled (t ++ t') := by
  obtain ⟨l, rfl⟩ := List.getLast?_eq_some_iff.mp hlast
  rw [← List.append_assoc]
  exact settled_snoc _ he

theorem ReceiveTurn.settled {s s' : LxmodemReceiveState} {t' : List (Event UInt8)}
    (h : ReceiveTurn s t' s') (t : List (Event UInt8)) : Settled (t ++ t') := by
  cases h with
  | @failure t₀ s₀ h =>
    rw [LxmodemReceiveState.retryEvents]
    split
    · exact settled_of_last List.getLast?_concat (by simp) t
    · rw [List.append_nil]
      cases h <;> exact settled_of_last rfl (by simp) t
  | stored header payload kind fits => exact settled_of_last rfl (by simp) t
  | full header payload kind full => exact settled_of_last rfl (by simp) t
  | endOfFile => exact settled_of_last rfl (by simp) t

theorem hasCrc_of_kind {pThis : ModemContext} (configured : pThis.Configured) {header : UInt8}
    {blksize : ℕ} (kind : FrameKind pThis header blksize) :
    lxmodemBlockHasCrc pThis blksize = pThis.usesCrc := by
  rw [ModemContext.Configured] at configured
  rw [lxmodemBlockHasCrc, ModemContext.usesCrc, configured]
  rcases kind with ⟨_, rfl⟩ | ⟨_, rfl, hopts⟩
  · cases pThis.opts <;> cases pThis.protocol <;> rfl
  · rcases hopts with h | h <;> rw [h]
    · rfl
    · cases pThis.opts <;> rfl

theorem payloads_concat (blocks : List (UInt8 × List UInt8)) (header : UInt8) (payload : List UInt8) :
    payloads (blocks ++ [(header, payload)]) = payloads blocks ++ payload := by
  simp [payloads]

theorem numbered_concat (pThis : ModemContext) (blocks : List (UInt8 × List UInt8))
    (header : UInt8) (payload : List UInt8) :
    numbered pThis (blocks ++ [(header, payload)]) = numbered pThis blocks ++
      [(header, frameBody pThis.crc16 pThis.usesCrc (UInt8.ofNat (blocks.length + 1)) payload)] := by
  simp [numbered, List.mapIdx_append]

structure Stores (pThis : ModemContext) (t : List (Event UInt8)) (s : LxmodemReceiveState)
    (blocks : List (UInt8 × List UInt8)) : Prop where
  settled : Settled t
  setup : SameSetup pThis s.pThis
  ramfile : s.pThis.ramfile = pThis.ramfile.appended (payloads blocks)
  fits : pThis.ramfile.writeOffset.toNat + (payloads blocks).length ≤ pThis.ramfile.maxSize.toNat
  kinds : ∀ b ∈ blocks, FrameKind pThis b.1 b.2.length
  read : (numbered pThis blocks).Sublist (framesRead t)
  running : s.bFinished = false → s.expectedBlkNumber = UInt8.ofNat (blocks.length + 1) ∧
    s.receivedBytes.toNat = (payloads blocks).length
  finished : s.bFinished = true → s.receivedBytes = -1 ∨
    s.receivedBytes.toNat = (payloads blocks).length ∧
      ∃ l, t = l ++ [.received [EOT], .sent [ACK]]

section Stores

variable {pThis : ModemContext} {t t' : List (Event UInt8)} {s s' : LxmodemReceiveState}
  {blocks : List (UInt8 × List UInt8)}

theorem stores_initial (hs : pThis.ramfile.Writable) : Stores pThis [] (.initial pThis) [] where
  settled := settled_nil
  setup := .refl _
  ramfile := (appended_nil _).symm
  fits := hs.write
  kinds := by simp
  read := List.Sublist.refl _
  running := fun _ => ⟨rfl, rfl⟩
  finished := fun h => by simp [LxmodemReceiveState.initial] at h

theorem Stores.writable (hs : pThis.ramfile.Writable) (h : Stores pThis t s blocks) :
    s.pThis.ramfile.Writable := by
  rw [h.ramfile]
  exact appended_writable hs.size h.fits

theorem Stores.untouched (h : Stores pThis t s blocks) (running : s.bFinished = false)
    (hu : Untouched s s') (settled : Settled (t ++ t')) : Stores pThis (t ++ t') s' blocks where
  settled := settled
  setup := h.setup.trans hu.setup
  ramfile := hu.ramfile.trans h.ramfile
  fits := h.fits
  kinds := h.kinds
  read := by
    rw [h.settled]
    exact h.read.trans (List.sublist_append_left _ _)
  running := by
    intro hf
    rcases hu.result with ⟨_, hb⟩ | ⟨hf', _⟩
    · rw [hu.blkNumber, hb]
      exact h.running running
    · rw [hf] at hf'
      cases hf'
  finished := by
    intro hf
    rcases hu.result with ⟨hf', _⟩ | ⟨_, hb⟩
    · rw [hf, running] at hf'
      cases hf'
    · exact Or.inl hb

theorem Stores.body_eq (configured : pThis.Configured) (h : Stores pThis t s blocks)
    (running : s.bFinished = false) {header : UInt8} {payload : List UInt8}
    (kind : FrameKind pThis header payload.length) :
    s.body payload = frameBody pThis.crc16 pThis.usesCrc (UInt8.ofNat (blocks.length + 1)) payload := by
  rw [LxmodemReceiveState.body, (h.running running).1, ← h.setup.crc16, ← h.setup.blockHasCrc,
    hasCrc_of_kind configured kind]

theorem Stores.fits_iff (hs : pThis.ramfile.Writable) (h : Stores pThis t s blocks) (n : ℕ) :
    s.pThis.ramfile.writeOffset.toNat + n < s.pThis.ramfile.maxSize.toNat ↔
      pThis.ramfile.writeOffset.toNat + (payloads blocks).length + n < pThis.ramfile.maxSize.toNat := by
  rw [h.ramfile, appended_writeOffset hs.size h.fits, appended_maxSize]

theorem Stores.stored (hs : pThis.ramfile.Writable) (configured : pThis.Configured)
    (h : Stores pThis t s blocks) (running : s.bFinished = false) {header : UInt8} {payload : List UInt8}
    (kind : FrameKind s.pThis header payload.length)
    (fits : s.pThis.ramfile.writeOffset.toNat + payload.length < s.pThis.ramfile.maxSize.toNat) :
    Stores pThis (t ++ [.received [header], .received (s.body payload), .sent [ACK]])
      ((s.filled (s.body payload)).stored payload) (blocks ++ [(header, payload)]) := by
  obtain ⟨hnumber, hbytes⟩ := h.running running
  have kind' : FrameKind pThis header payload.length := h.setup.frameKind.mpr kind
  have hroom := (h.fits_iff hs payload.length).mp fits
  have hbody := h.body_eq configured running kind'
  refine ⟨?_, h.setup.trans ⟨rfl, rfl, rfl, rfl, rfl, rfl⟩, ?_, ?_, ?_, ?_, ?_, ?_⟩
  · exact (ReceiveTurn.stored header payload kind fits).settled t
  · rw [payloads_concat]
    exact s.stored_ramfile _ hs.size h.fits h.ramfile
  · rw [payloads_concat, List.length_append]
    omega
  · intro b hb
    rcases List.mem_append.mp hb with hb | hb
    · exact h.kinds b hb
    · rw [List.mem_singleton.mp hb]
      exact kind'
  · rw [numbered_concat, h.settled, ← hbody]
    exact h.read.append (List.Sublist.refl _)
  · intro _
    have := hs.size
    rw [payloads_concat, List.length_append, List.length_singleton]
    exact ⟨s.stored_number _ _ hnumber, s.stored_bytes _ (by omega) hbytes⟩
  · intro hf
    change s.bFinished = true at hf
    rw [running] at hf
    cases hf

theorem Stores.endOfFile (h : Stores pThis t s blocks) (running : s.bFinished = false) :
    Stores pThis (t ++ [.received [EOT], .sent [ACK]])
      { s with bFinished := true, canCharReceived := 0, nbRetry := 0,
               expectedBlkNumber := s.expectedBlkNumber + 1 } blocks where
  settled := (@ReceiveTurn.endOfFile s).settled t
  setup := h.setup
  ramfile := h.ramfile
  fits := h.fits
  kinds := h.kinds
  read := by
    rw [h.settled]
    exact h.read.trans (List.sublist_append_left _ _)
  running := fun hf => by simp at hf
  finished := fun _ => Or.inr ⟨(h.running running).2, t, rfl⟩

theorem ReceiveTurn.stores (hs : pThis.ramfile.Writable) (configured : pThis.Configured)
    (h : Stores pThis t s blocks) (running : s.bFinished = false) (ht : ReceiveTurn s t' s') :
    ∃ blocks', Stores pThis (t ++ t') s' blocks' := by
  cases ht with
  | failure hf =>
    exact ⟨blocks, h.untouched running (hf.untouched.trans (retried_untouched _))
      ((ReceiveTurn.failure hf).settled t)⟩
  | stored header payload kind fits => exact ⟨_, h.stored hs configured running kind fits⟩
  | full header payload kind full =>
    have hu : Untouched s { s.filled (s.body payload) with bFinished := true, receivedBytes := -1 } :=
      ⟨.fill _ _, rfl, rfl, Or.inr ⟨rfl, rfl⟩⟩
    exact ⟨blocks, h.untouched running hu ((ReceiveTurn.full header payload kind full).settled t)⟩
  | endOfFile => exact ⟨blocks, h.endOfFile running⟩

theorem lxmodemReceiveLoop_stores (hs : pThis.ramfile.Writable) (configured : pThis.Configured)
    (fuel : ℕ) :
    (lxmodemReceiveLoop fuel (.initial pThis)).Ensures
      (fun t s => (∃ blocks, Stores pThis t s blocks) ∧ s.bFinished = true) := by
  refine (ensures_whileLoop (fun t s => ∃ blocks, Stores pThis t s blocks) ?_ fuel
    ⟨[], stores_initial hs⟩).mono fun t s ⟨h, hf⟩ => ⟨h, by simpa using hf⟩
  rintro t s ⟨blocks, h⟩ hrunning
  have running : s.bFinished = false := by simpa using hrunning
  exact (lxmodemReceiveTurn_ensures (h.writable hs)).mono
    fun t' s' ht => ht.stores hs configured h running

theorem lxmodemReceive_ensures (hs : pThis.ramfile.Writable) (configured : pThis.Configured) (fuel : ℕ) :
    (lxmodemReceive fuel pThis).Ensures (fun t r => ∃ p l s blocks, t = .sent [p] :: l ∧
      Stores pThis l s blocks ∧ s.bFinished = true ∧ r = (s.receivedBytes.toInt32, s.pThis)) := by
  rw [lxmodemReceive, lxmodemBuildAndSendPreambule, putchars_bind, Program.ensures_write,
    Program.ensures_bind]
  exact (lxmodemReceiveLoop_stores hs configured fuel).mono
    fun l s ⟨⟨blocks, hst⟩, hf⟩ => ⟨_, l, s, blocks, by rw [List.append_nil], hst, hf, rfl⟩

end Stores

theorem lxmodemReceive_stores (pThis : ModemContext) (configured : pThis.Configured)
    (hs : pThis.ramfile.Writable) (o : Peer UInt8) {t : List (Event UInt8)} {n : Int32}
    {pThis' : ModemContext} (h : Returns (fun fuel => lxmodemReceive fuel pThis) o t (n, pThis')) :
    (∃ blocks : List (UInt8 × List UInt8),
      (∀ b ∈ blocks, FrameKind pThis b.1 b.2.length) ∧
      (blocks.mapIdx fun j b =>
        (b.1, frameBody pThis.crc16 pThis.usesCrc (UInt8.ofNat (j + 1)) b.2)).Sublist (framesRead t) ∧
      pThis'.ramfile.writeOffset.toNat =
        pThis.ramfile.writeOffset.toNat + (blocks.flatMap Prod.snd).length ∧
      pThis'.ramfile.buffer.load pThis.ramfile.writeOffset.toNat
        (pThis'.ramfile.writeOffset.toNat - pThis.ramfile.writeOffset.toNat) =
          blocks.flatMap Prod.snd) ∧
    (∀ i < pThis.ramfile.writeOffset.toNat, pThis'.ramfile.buffer i = pThis.ramfile.buffer i) ∧
    pThis'.ramfile.writeOffset.toNat ≤ pThis'.ramfile.maxSize.toNat ∧
    pThis'.ramfile.maxSize = pThis.ramfile.maxSize ∧
    (0 ≤ n ∧ n.toInt = pThis'.ramfile.writeOffset.toNat - pThis.ramfile.writeOffset.toNat ∧
        (∃ l, t = l ++ [.received [EOT], .sent [ACK]]) ∨
      n = -1) := by
  obtain ⟨p, l, s, blocks, rfl, hst, hf, hr⟩ := h.ensures (lxmodemReceive_ensures hs configured)
  obtain ⟨rfl, rfl⟩ : s.receivedBytes.toInt32 = n ∧ s.pThis = pThis' := by simpa [eq_comm] using hr
  have hw : s.pThis.ramfile.writeOffset.toNat =
      pThis.ramfile.writeOffset.toNat + (payloads blocks).length := by
    rw [hst.ramfile, appended_writeOffset hs.size hst.fits]
  have := hs.size
  have := hst.fits
  refine ⟨⟨blocks, hst.kinds, hst.read, hw, ?_⟩, ?_, ?_, ?_, ?_⟩
  · rw [hw, Nat.add_sub_cancel_left, hst.ramfile]
    exact Memory.load_store _ _ _
  · intro i hi
    rw [hst.ramfile]
    exact Memory.store_of_lt _ hi
  · rw [hw, hst.ramfile]
    exact hst.fits
  · rw [hst.ramfile, appended_maxSize]
  · rcases hst.finished hf with hb | ⟨hb, l', rfl⟩
    · exact Or.inr (by rw [hb]; rfl)
    · refine Or.inl ⟨?_, ?_, _ :: l', rfl⟩
      · rw [Int32.le_iff_toInt_le, toInt_toInt32 (by omega)]
        exact Int.natCast_nonneg _
      · rw [toInt_toInt32 (by omega), hw, hb]
        omega

def smallReceiver : ModemContext :=
  lmodemSetFileBuffer (lmodemSetLineBuffer (lmodemInit .lxmodem128WithChksum) (.fresh 0) 132).1
    (.fresh 0) 256

def oneBlock : List (List UInt8) :=
  [[SOH], frameBody smallReceiver.crc16 false 1 (List.replicate 128 0), [EOT]]

theorem lxmodemReceive_stores_oneBlock :
    ∃ pThis', pThis'.ramfile.writeOffset.toNat = 128 ∧
      Returns (fun fuel => lxmodemReceive fuel smallReceiver) (.scripted oneBlock)
        ((lxmodemReceive 3 smallReceiver).run (.scripted oneBlock) 0).1 (128, pThis') := by
  have run : ((lxmodemReceive 3 smallReceiver).run (.scripted oneBlock) 0).2.map Prod.fst = some 128 := by
    decide +kernel
  obtain ⟨⟨n, pThis'⟩, h, rfl⟩ :=
    @returns_of_run _ _ _ (fun fuel => lxmodemReceive fuel smallReceiver) _ _ _ 3 run
  have stores := lxmodemReceive_stores smallReceiver rfl ⟨by decide, by decide⟩ (.scripted oneBlock) h
  have hw : smallReceiver.ramfile.writeOffset.toNat = 0 := rfl
  have hi : (128 : Int32).toInt = 128 := rfl
  rcases stores.2.2.2.2 with ⟨_, hn, _⟩ | hn
  · exact ⟨pThis', by omega, h⟩
  · exact absurd hn (by decide)

end LightModem
