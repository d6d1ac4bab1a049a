import LightModem.Arrivals
import LightModem.HeaderBlock
import LightModem.MetadataStrings
import LightModem.Notice

set_option autoImplicit false

namespace LightModem

open Interaction

def lymodemReceiveFile (fuel : ℕ) (pThis : ModemContext) : Program UInt8 (UInt32 × ModemContext) := do
  lxmodemBuildAndSendPreambule pThis
  let (rxStatus, pThis) ← lymodemWaitBlock0 fuel pThis 10
  lymodemReceiveData fuel rxStatus pThis

theorem lymodemReceive_eq (fuel : ℕ) (pThis : ModemContext) :
    lymodemReceive fuel pThis = lymodemReceiveFile fuel pThis >>= fun x =>
      .done (x.1.toInt32, lymodemTrim x.1 x.2) := by
  simp only [lymodemReceive, lymodemReceiveFile, bind_assoc, Program.pure_eq]

def Overstates (receivedBytes : UInt32) (pThis : ModemContext) (stored : ℕ) : Prop :=
  receivedBytes ≠ 0 ∧ pThis.fileData.isValid lmodemMetadataFilesizeValid = true ∧
    pThis.fileData.size ≤ pThis.ramfile.maxSize ∧ stored < pThis.fileData.size.toNat

section Trim

variable {pThis : ModemContext} {receivedBytes : UInt32} {stored : ℕ}

theorem lymodemTrim_writeOffset_le (h : pThis.ramfile.writeOffset.toNat = stored) :
    (lymodemTrim receivedBytes pThis).ramfile.writeOffset.toNat ≤ stored ↔
      ¬ Overstates receivedBytes pThis stored := by
  have hpos : receivedBytes > 0 ↔ receivedBytes ≠ 0 := UInt32.pos_iff_ne_zero
  rw [Overstates, LmodemFileCharacteristics.isValid, decide_eq_true_eq, ← hpos, lymodemTrim]
  split
  · next trimmed =>
    simp only [trimmed, true_and, lmodemBufferSetWriteOffset]
    split
    · next allowed => simp [allowed]
    · next refused => simp [refused, h]
  · next kept =>
    apply iff_of_true h.le
    rintro ⟨hreceived, hvalid, _⟩
    exact kept ⟨hreceived, hvalid⟩

theorem lymodemTrim_buffer : (lymodemTrim receivedBytes pThis).ramfile.buffer = pThis.ramfile.buffer := by
  rw [lymodemTrim]
  split
  · rw [lmodemBufferSetWriteOffset]
    split <;> rfl
  · rfl

end Trim

structure FileStored (pThis : ModemContext) (t : List (Event UInt8)) (before : ModemContext)
    (blocks : List (UInt8 × List UInt8)) : Prop where
  kinds : ∀ b ∈ blocks, FrameKind pThis b.1 b.2.length
  read : (numbered pThis blocks).Sublist (framesRead t)
  ramfile : before.ramfile = pThis.ramfile.appended (payloads blocks)
  fits : pThis.ramfile.writeOffset.toNat + (payloads blocks).length ≤ pThis.ramfile.maxSize.toNat

section Stored

variable {pThis : ModemContext}

theorem fileStored_nothing (hs : pThis.ramfile.Writable) (t : List (Event UInt8)) {before : ModemContext}
    (h : before.ramfile = pThis.ramfile) : FileStored pThis t before [] where
  kinds := by simp
  read := List.nil_sublist _
  ramfile := h.trans (appended_nil _).symm
  fits := hs.write

theorem numbered_congr {a b : ModemContext} (crc16 : a.crc16 = b.crc16) (usesCrc : a.usesCrc = b.usesCrc)
    (blocks : List (UInt8 × List UInt8)) : numbered a blocks = numbered b blocks := by
  rw [numbered, numbered, crc16, usesCrc]

structure SameTransfer (a b : ModemContext) : Prop where
  protocol : b.protocol = a.protocol
  opts : b.opts = a.opts
  crc16 : b.crc16 = a.crc16
  withCrc : b.withCrc = a.withCrc
  ramfile : b.ramfile = a.ramfile

theorem lymodemReceiveData_stored (hs : pThis.ramfile.Writable) (configured : pThis.Configured)
    {p : ModemContext} (h : SameTransfer pThis p) (t₀ : List (Event UInt8)) (fuel : ℕ)
    (rxStatus : LxmodemReceptionStatus) :
    (lymodemReceiveData fuel rxStatus p).Ensures (fun t x => ∃ blocks, FileStored pThis (t₀ ++ t) x.2 blocks) := by
  have decoded : SameTransfer pThis (lymodemDecodeBlock0 p).1 := by
    obtain ⟨buffer, fileData, hdecode⟩ := lymodemDecodeBlock0_changes p
    rw [hdecode]
    exact ⟨h.protocol, h.opts, h.crc16, h.withCrc, h.ramfile⟩
  rw [lymodemReceiveData_eq]
  split
  · split
    · generalize (lymodemDecodeBlock0 p).1 = d at decoded
      rw [Program.ensures_bind]
      refine (lxmodemReceive_ensures (by rw [decoded.ramfile]; exact hs)
        (by rw [ModemContext.Configured, decoded.withCrc, decoded.opts]; exact configured) fuel).mono ?_
      rintro _ _ ⟨c, l, s, blocks, rfl, stores, _, rfl⟩
      rw [Program.ensures_bind, lymodemBlockNextFile, lxmodemBuildAndSendPreambule, putchars_bind,
        Program.ensures_write]
      refine (@lymodemWaitNextFile_keeps (fun p => p.ramfile = s.pThis.ramfile) (fun _ _ h => h) _ rfl 10).mono
        fun t p' hp' => ⟨blocks, ?_, ?_, ?_, ?_⟩
      · intro b hb
        have kind := stores.kinds b hb
        rwa [FrameKind, decoded.opts, decoded.protocol] at kind
      · have usesCrc : d.usesCrc = pThis.usesCrc := by
          rw [ModemContext.usesCrc, ModemContext.usesCrc, decoded.opts, decoded.protocol]
        have read := stores.read
        rw [numbered_congr decoded.crc16 usesCrc] at read
        rw [List.cons_append, framesRead_append t₀ (by simp), stores.settled]
        exact (read.trans (List.sublist_append_left _ _)).trans (List.sublist_append_right _ _)
      · rw [hp', stores.ramfile, decoded.ramfile]
      · have fits := stores.fits
        rwa [decoded.ramfile] at fits
    · exact ⟨[], fileStored_nothing hs _ decoded.ramfile⟩
  · exact ⟨[], fileStored_nothing hs _ h.ramfile⟩

theorem lymodemReceiveFile_stored (hs : pThis.ramfile.Writable) (configured : pThis.Configured) (fuel : ℕ) :
    (lymodemReceiveFile fuel pThis).Ensures (fun t x => ∃ blocks, FileStored pThis t x.2 blocks) := by
  rw [lymodemReceiveFile, lxmodemBuildAndSendPreambule, putchars_bind, Program.ensures_write,
    Program.ensures_bind]
  refine (@lymodemWaitBlock0_keeps (SameTransfer pThis)
    (fun _ _ h => ⟨h.protocol, h.opts, h.crc16, h.withCrc, h.ramfile⟩) pThis ⟨rfl, rfl, rfl, rfl, rfl⟩ fuel 10).mono
    fun t x hx => ?_
  exact (lymodemReceiveData_stored hs configured hx (.sent _ :: t) fuel x.1).mono fun t' y hy => hy

end Stored

def StatesSize (pThis : ModemContext) (size : UInt32) : Prop :=
  pThis.blkBuffer.buffer 2 ≠ 0 ∧
    ∃ s, (metadataStrings pThis).head? = some s ∧ (fieldNumber 0 s).1.toUInt32 = size

/-- No block 0 comes and the size of an earlier one is still there, or the block 0 that comes states one, with
metadata that is refused or before data that is shorter and not an empty file; there is room for that size. -/
def SizeOverstated (pThis : ModemContext) (o : Peer UInt8) : Prop :=
  ((∀ body j, ¬ FindsBlock0 pThis.crc16 o 10 0 (some body) j) ∧
      pThis.fileData.isValid lmodemMetadataFilesizeValid = true ∧
      pThis.fileData.size ≤ pThis.ramfile.maxSize ∧ 0 < pThis.fileData.size.toNat) ∨
    ∃ body j size, FindsBlock0 pThis.crc16 o 10 0 (some body) j ∧ StatesSize (pThis.fill body) size ∧
      size ≤ pThis.ramfile.maxSize ∧
      (¬ Numerals 0 (metadataStrings (pThis.fill body)) ∧ 0 < size.toNat ∨
        Numerals 0 (metadataStrings (pThis.fill body)) ∧ ∃ payloads ended,
          FileComes pThis.crc16 o 1 10 false pThis.ramfile.maxSize.toNat j payloads ended ∧
          (ended = true → payloads.flatten ≠ []) ∧ payloads.flatten.length < size.toNat)

section Stated

variable {pThis before : ModemContext} {o : Peer UInt8} {fuel i : ℕ} {t : List (Event UInt8)} {receivedBytes : UInt32}

theorem readFields_size {d : LmodemFileCharacteristics} (hd : d.valid = lmodemMetadataFilenameValid)
    (text : List UInt8) (size : UInt32) :
    (setFields d 0 (readFields 4 0 text).1).isValid lmodemMetadataFilesizeValid = true ∧
        (setFields d 0 (readFields 4 0 text).1).size = size ↔
      ∃ s, (scanned 4 text).head? = some s ∧ (fieldNumber 0 s).1.toUInt32 = size := by
  have first (fields : List (List UInt8 × UInt32)) (s : List UInt8) (value : UInt32) :
      (setFields d 0 ((s, value) :: fields)).isValid lmodemMetadataFilesizeValid = true ∧
        (setFields d 0 ((s, value) :: fields)).size = value := by
    obtain ⟨sized, kept⟩ := @setFields_later (lymodemSetField d 0 value) 1 Nat.one_pos fields
    refine ⟨kept ?_, sized⟩
    change decide ((d.valid ||| lmodemMetadataFilesizeValid) &&& lmodemMetadataFilesizeValid = _) = true
    rw [hd]
    decide
  rw [readFields, scanned]
  by_cases hend : text.headD 0 = 0
  · rw [if_pos hend, if_pos hend]
    refine iff_of_false (fun h => ?_) (by simp)
    have valid := h.1
    rw [setFields, LmodemFileCharacteristics.isValid, hd] at valid
    exact absurd valid (by decide)
  · rw [if_neg hend, if_neg hend]
    simp only [List.head?_cons, Option.some.injEq, exists_eq_left']
    by_cases hnumber : (fieldNumber 0 (fieldText text)).2 = []
    · simp only [if_pos hnumber, first, true_and]
    · simp only [if_neg hnumber, first, true_and]

theorem statesSize_iff (size : UInt32) :
    (lymodemDecodeBlock0 pThis).1.fileData.isValid lmodemMetadataFilesizeValid = true ∧
        (lymodemDecodeBlock0 pThis).1.fileData.size = size ↔ StatesSize pThis size := by
  by_cases started : pThis.blkBuffer.buffer 2 = 0
  · refine iff_of_false (fun h => ?_) (fun h => h.1 started)
    have cleaned : (lymodemDecodeBlock0 pThis).1.fileData.valid = 0 := by
      rw [lymodemDecodeBlock0]
      simp only [started, ↓reduceIte, lmodemMetadataClean]
    have valid := h.1
    rw [LmodemFileCharacteristics.isValid, cleaned] at valid
    exact absurd valid (by decide)
  · obtain ⟨d, hd, _, fileData, _⟩ := lymodemDecodeBlock0_fields started
    rw [fileData, readFields_size hd, StatesSize, metadataStrings]
    exact (and_iff_right started).symm

theorem lymodemDecodeBlock0_accepts (started : pThis.blkBuffer.buffer 2 ≠ 0) :
    (lymodemDecodeBlock0 pThis).2 = true ↔ Numerals 0 (metadataStrings pThis) := by
  obtain ⟨_, _, _, _, verdict⟩ := lymodemDecodeBlock0_fields started
  rw [verdict, metadataStrings, readFields_numerals]

theorem sizeOverstated_nothing (none : ∀ body j, ¬ FindsBlock0 pThis.crc16 o 10 0 (some body) j) :
    SizeOverstated pThis o ↔ pThis.fileData.isValid lmodemMetadataFilesizeValid = true ∧
      pThis.fileData.size ≤ pThis.ramfile.maxSize ∧ 0 < pThis.fileData.size.toNat := by
  constructor
  · rintro (⟨_, stale⟩ | ⟨body, j, _, finds, _⟩)
    · exact stale
    · exact absurd finds (none body j)
  · exact fun stale => Or.inl ⟨none, stale⟩

theorem FindsBlock0.sizeOverstated_iff {body : List UInt8} {j : ℕ}
    (finds : FindsBlock0 pThis.crc16 o 10 0 (some body) j) :
    SizeOverstated pThis o ↔ ∃ size, StatesSize (pThis.fill body) size ∧ size ≤ pThis.ramfile.maxSize ∧
      (¬ Numerals 0 (metadataStrings (pThis.fill body)) ∧ 0 < size.toNat ∨
        Numerals 0 (metadataStrings (pThis.fill body)) ∧ ∃ payloads ended,
          FileComes pThis.crc16 o 1 10 false pThis.ramfile.maxSize.toNat j payloads ended ∧
          (ended = true → payloads.flatten ≠ []) ∧ payloads.flatten.length < size.toNat) := by
  constructor
  · rintro (⟨none, _⟩ | ⟨body', j', size, finds', states⟩)
    · exact absurd finds (none body j)
    · obtain ⟨hbody, rfl⟩ := finds.unique finds'
      cases hbody
      exact ⟨size, states⟩
  · rintro ⟨size, states⟩
    exact Or.inr ⟨body, j, size, finds, states⟩

theorem lymodemReceiveData_came (protocol : pThis.protocol = .ymodem) (hs : pThis.ramfile.Writable)
    (configured : pThis.Configured) (accepted : (lymodemDecodeBlock0 pThis).2 = true)
    (run : (lymodemReceiveData fuel .recvOk pThis).run o i = (t, some (receivedBytes, before))) :
    ∃ s payloads ended, FileCame o i (.initial (lymodemDecodeBlock0 pThis).1) s payloads ended ∧
      before.ramfile = s.pThis.ramfile ∧ before.fileData = (lymodemDecodeBlock0 pThis).1.fileData ∧
      receivedBytes = s.receivedBytes := by
  obtain ⟨buffer, fileData, hdecode⟩ := lymodemDecodeBlock0_changes pThis
  rw [lymodemReceiveData_eq, if_pos rfl, if_pos accepted] at run
  generalize (lymodemDecodeBlock0 pThis).1 = d at *
  have writable : d.ramfile.Writable := by rw [hdecode]; exact hs
  obtain ⟨t₁, ⟨received, p⟩, t₂, data, later, rfl⟩ := Program.exists_of_run_bind run
  obtain ⟨p', next, hresult⟩ := Program.exists_of_run_map later
  cases hresult
  obtain ⟨rest, s, rfl, loop, rfl, rfl⟩ := lxmodemReceive_run data
  have waiting : AwaitsBlock (.initial d) :=
    ⟨by rw [hdecode]; exact protocol, writable, rfl, Nat.succ_pos 9, Nat.zero_le 1⟩
  obtain ⟨payloads, ended, came⟩ := lxmodemReceiveLoop_came waiting loop
  obtain ⟨⟨blocks, stores⟩, _⟩ :=
    (lxmodemReceiveLoop_stores writable (by rw [hdecode]; exact configured) fuel).run loop
  rw [lymodemBlockNextFile, lxmodemBuildAndSendPreambule, putchars_bind] at next
  obtain ⟨rest', rfl, answered⟩ := Program.exists_of_run_write next
  obtain ⟨ramfile, metadata⟩ := (@lymodemWaitNextFile_keeps
    (fun p => p.ramfile = s.pThis.ramfile ∧ p.fileData = s.pThis.fileData) (fun _ _ h => h) _ ⟨rfl, rfl⟩ 10).run
      answered
  exact ⟨s, payloads, ended, came, ramfile, metadata.trans stores.setup.fileData.symm,
    UInt32.toUInt32_toInt32 _⟩

theorem lymodemReceiveData_overstates (protocol : pThis.protocol = .ymodem) (hs : pThis.ramfile.Writable)
    (configured : pThis.Configured) (fresh : pThis.ramfile.writeOffset.toNat = 0)
    (run : (lymodemReceiveData fuel .recvOk pThis).run o i = (t, some (receivedBytes, before))) :
    Overstates receivedBytes before before.ramfile.writeOffset.toNat ↔
      ∃ size, StatesSize pThis size ∧ size ≤ pThis.ramfile.maxSize ∧
        (¬ Numerals 0 (metadataStrings pThis) ∧ 0 < size.toNat ∨
          Numerals 0 (metadataStrings pThis) ∧ ∃ payloads ended,
            FileComes pThis.crc16 o 1 10 false pThis.ramfile.maxSize.toNat i payloads ended ∧
            (ended = true → payloads.flatten ≠ []) ∧ payloads.flatten.length < size.toNat) := by
  have kept : (lymodemDecodeBlock0 pThis).1.ramfile = pThis.ramfile := lymodemDecodeBlock0_ramfile pThis
  by_cases accepted : (lymodemDecodeBlock0 pThis).2 = true
  · obtain ⟨s, payloads, ended, came, ramfile, fileData, rfl⟩ :=
      lymodemReceiveData_came protocol hs configured accepted run
    have started : pThis.blkBuffer.buffer 2 ≠ 0 := by
      intro unnamed
      rw [lymodemDecodeBlock0] at accepted
      simp [unnamed] at accepted
    have numerals := (lymodemDecodeBlock0_accepts started).mp accepted
    have comes (p : List (List UInt8)) (e : Bool) :
        FileComes pThis.crc16 o 1 10 false pThis.ramfile.maxSize.toNat i p e ↔ p = payloads ∧ e = ended := by
      obtain ⟨buffer, data, hdecode⟩ := lymodemDecodeBlock0_changes pThis
      have h := came.comes p e
      rw [hdecode] at h
      change FileComes pThis.crc16 o 1 10 false (pThis.ramfile.maxSize.toNat - pThis.ramfile.writeOffset.toNat) i
        p e ↔ _ at h
      rwa [fresh, Nat.sub_zero] at h
    have fits : pThis.ramfile.writeOffset.toNat + payloads.flatten.length ≤ pThis.ramfile.maxSize.toNat := by
      have h := came.fits
      rwa [LxmodemReceiveState.initial, kept] at h
    have stored : before.ramfile = pThis.ramfile.appended payloads.flatten := by
      rw [ramfile, came.ramfile, LxmodemReceiveState.initial, kept]
    have offset : before.ramfile.writeOffset.toNat = payloads.flatten.length := by
      rw [stored, appended_writeOffset hs.size fits, fresh, Nat.zero_add]
    have received : s.receivedBytes ≠ 0 ↔ (ended = true → payloads.flatten ≠ []) := by
      have := hs.size
      cases hended : ended with
      | false => simp [came.result, hended]
      | true =>
        have count : s.receivedBytes = payloads.flatten.length.toUInt32 := by
          rw [came.result, hended]
          exact UInt32.zero_add _
        have value : payloads.flatten.length.toUInt32.toNat = payloads.flatten.length :=
          UInt32.toNat_ofNat_of_lt' (show _ < 4294967296 by omega)
        rw [count, Ne, ← UInt32.toNat_inj, value, ← List.length_eq_zero_iff.ne]
        exact ⟨fun h _ => h, fun h => h rfl⟩
    have same (size : UInt32) : size ≤ (pThis.ramfile.appended payloads.flatten).maxSize ↔
      size ≤ pThis.ramfile.maxSize := Iff.rfl
    rw [Overstates, offset, fileData, stored, received]
    constructor
    · rintro ⟨counted, valid, allowed, larger⟩
      exact ⟨_, (statesSize_iff _).mp ⟨valid, rfl⟩, allowed, Or.inr ⟨numerals, payloads, ended,
        (comes _ _).mpr ⟨rfl, rfl⟩, counted, larger⟩⟩
    · rintro ⟨size, states, allowed, ⟨other, _⟩ | ⟨_, p, e, h, counted, larger⟩⟩
      · exact absurd numerals other
      · obtain ⟨rfl, rfl⟩ := (comes p e).mp h
        obtain ⟨valid, rfl⟩ := (statesSize_iff size).mpr states
        exact ⟨counted, valid, allowed, larger⟩
  · have refused : (lymodemReceiveData fuel .recvOk pThis).run o i =
        ([], some (-1, (lymodemDecodeBlock0 pThis).1)) := by
      rw [lymodemReceiveData_eq, if_pos rfl, if_neg accepted, Program.run_done]
    rw [refused] at run
    obtain ⟨_, hresult⟩ := Prod.mk.inj run
    cases hresult
    have numerals (size : UInt32) (states : StatesSize pThis size) : ¬ Numerals 0 (metadataStrings pThis) :=
      fun h => accepted ((lymodemDecodeBlock0_accepts states.1).mpr h)
    rw [Overstates, kept, fresh]
    constructor
    · rintro ⟨_, valid, allowed, larger⟩
      have states := (statesSize_iff _).mp ⟨valid, rfl⟩
      exact ⟨_, states, allowed, Or.inl ⟨numerals _ states, larger⟩⟩
    · rintro ⟨size, states, allowed, ⟨_, larger⟩ | ⟨h, _⟩⟩
      · obtain ⟨valid, rfl⟩ := (statesSize_iff size).mpr states
        exact ⟨by decide, valid, allowed, larger⟩
      · exact absurd h (numerals size states)

theorem lymodemReceiveFile_overstates (protocol : pThis.protocol = .ymodem) (hs : pThis.ramfile.Writable)
    (configured : pThis.Configured) (fresh : pThis.ramfile.writeOffset.toNat = 0)
    (run : (lymodemReceiveFile fuel pThis).run o 0 = (t, some (receivedBytes, before))) :
    Overstates receivedBytes before before.ramfile.writeOffset.toNat ↔ SizeOverstated pThis o := by
  rw [lymodemReceiveFile, lxmodemBuildAndSendPreambule, putchars_bind] at run
  obtain ⟨rest, rfl, started⟩ := Program.exists_of_run_write run
  obtain ⟨t₁, ⟨status, p⟩, t₂, wait, data, rfl⟩ := Program.exists_of_run_bind started
  change (lymodemReceiveData fuel status p).run o (0 + reads t₁) = _ at data
  have same : SameTransfer pThis p := (@lymodemWaitBlock0_keeps (SameTransfer pThis)
    (fun _ _ h => ⟨h.protocol, h.opts, h.crc16, h.withCrc, h.ramfile⟩) pThis ⟨rfl, rfl, rfl, rfl, rfl⟩ fuel 10).run wait
  have metadata : p.fileData = pThis.fileData :=
    (@lymodemWaitBlock0_keeps (fun p => p.fileData = pThis.fileData) (fun _ _ h => h) pThis rfl fuel 10).run wait
  have failed (bad : status ≠ .recvOk) (none : ∀ body j, ¬ FindsBlock0 pThis.crc16 o 10 0 (some body) j) :
      Overstates receivedBytes before before.ramfile.writeOffset.toNat ↔ SizeOverstated pThis o := by
    rw [lymodemReceiveData_eq, if_neg bad, Program.run_done] at data
    obtain ⟨_, hresult⟩ := Prod.mk.inj data
    cases hresult
    have nonzero : (-1 : UInt32) ≠ 0 := by decide
    rw [Overstates, metadata, same.ramfile, fresh, and_iff_right nonzero, sizeOverstated_nothing none]
  cases lymodemWaitBlock0_ended protocol wait with
  | nothing bad none quiet => exact failed bad fun body j => none (some body) j
  | refused bad finds cancelled =>
    refine failed bad fun body j finds' => ?_
    cases (finds.unique finds').1
  | found body finds quiet =>
    rw [finds.sizeOverstated_iff]
    exact lymodemReceiveData_overstates protocol hs configured fresh data

end Stated

/-- After a YMODEM reception into an empty file, the write offset is at most the number of bytes stored of
accepted blocks exactly when the size is not overstated. -/
theorem lymodemReceive_writeOffset_iff (pThis : ModemContext) (configured : pThis.Configured)
    (fresh : pThis.ramfile.writeOffset = 0) (unwritten : pThis.ramfile.buffer.extent = 0)
    (capacity : pThis.ramfile.maxSize.toNat < 2147483648) (o : Peer UInt8)
    {t : List (Event UInt8)} {n : Int32} {pThis' : ModemContext}
    (h : Returns (fun fuel => lmodemReceive .ymodem fuel pThis) o t (n, pThis')) :
    ∃ blocks : List (UInt8 × List UInt8),
      (blocks.mapIdx fun j b => (b.1, frameBody pThis.crc16 true (UInt8.ofNat (j + 1)) b.2)).Sublist
        (framesRead t) ∧
      pThis'.ramfile.buffer.load 0 (blocks.flatMap Prod.snd).length = blocks.flatMap Prod.snd ∧
      pThis'.ramfile.buffer.extent = (blocks.flatMap Prod.snd).length ∧
      (pThis'.ramfile.writeOffset.toNat ≤ (blocks.flatMap Prod.snd).length ↔ ¬ SizeOverstated pThis o) := by
  obtain ⟨fuel, h⟩ := h
  have hrun : (lymodemReceive fuel { pThis with protocol := .ymodem }).run o 0 = (t, some (n, pThis')) := h
  rw [lymodemReceive_eq] at hrun
  obtain ⟨⟨receivedBytes, before⟩, file, hresult⟩ := Program.exists_of_run_map hrun
  cases hresult
  have hw : pThis.ramfile.writeOffset.toNat = 0 := by rw [fresh]; rfl
  have hs : pThis.ramfile.Writable := ⟨by omega, capacity⟩
  obtain ⟨blocks, stored⟩ := (@lymodemReceiveFile_stored { pThis with protocol := .ymodem } hs configured fuel).run file
  have hfits : pThis.ramfile.writeOffset.toNat + (payloads blocks).length ≤ pThis.ramfile.maxSize.toNat :=
    stored.fits
  have hram : before.ramfile = pThis.ramfile.appended (payloads blocks) := stored.ramfile
  have hoffset : before.ramfile.writeOffset.toNat = (payloads blocks).length := by
    rw [hram, appended_writeOffset capacity hfits, hw, Nat.zero_add]
  have overstates := @lymodemReceiveFile_overstates { pThis with protocol := .ymodem } before o fuel t receivedBytes rfl hs
    configured hw file
  rw [hoffset] at overstates
  have usesCrc : ModemContext.usesCrc { pThis with protocol := .ymodem } = true := by
    simp [ModemContext.usesCrc]
  have read := stored.read
  rw [numbered, usesCrc] at read
  refine ⟨blocks, read, ?_, ?_, ?_⟩
  · rw [lymodemTrim_buffer, hram, LmodemBuffer.appended, hw]
    exact Memory.load_store _ _ _
  · rw [lymodemTrim_buffer, hram, LmodemBuffer.appended, Memory.store_extent, unwritten, hw, Nat.zero_add,
      Nat.zero_max]
    split
    · next hnil => exact hnil.symm
    · rfl
  · exact (lymodemTrim_writeOffset_le hoffset).trans (not_congr overstates)

def storedFile : List (List UInt8) :=
  [[SOH], frameBody ymodemReceiver.crc16 true 0 (block0Payload [97] [([51], 3)]),
    [SOH], frameBody ymodemReceiver.crc16 true 1 ([97, 98, 99] ++ .replicate 125 0x1a), [EOT]]

theorem lymodemReceive_writeOffset_stored :
    ∃ t pThis', Returns (fun fuel => lmodemReceive .ymodem fuel ymodemReceiver) (.scripted storedFile) t
      (128, pThis') ∧ pThis'.ramfile.buffer.extent = 128 ∧ pThis'.ramfile.writeOffset.toNat ≤ 128 := by
  have run : ((lmodemReceive .ymodem 4 ymodemReceiver).run (.scripted storedFile) 0).2.map
      (fun r => (r.1, r.2.ramfile.buffer.extent)) = some (128, 128) := by
    decide +kernel
  obtain ⟨⟨n, pThis'⟩, h, hr⟩ := @returns_of_run _ _ _ (fun fuel => lmodemReceive .ymodem fuel ymodemReceiver) _ _ _ 4 run
  obtain ⟨rfl, extent⟩ := Prod.mk.inj hr
  obtain ⟨blocks, _, _, stored, cut⟩ := lymodemReceive_writeOffset_iff ymodemReceiver rfl rfl rfl (by decide)
    (.scripted storedFile) h
  have finds : FindsBlock0 ymodemReceiver.crc16 (.scripted storedFile) 10 0
      (some (frameBody ymodemReceiver.crc16 true 0 (block0Payload [97] [([51], 3)]))) 2 :=
    ⟨SOH, 1, 128, by decide +kernel, Or.inl ⟨rfl, rfl⟩, .intact (by decide +kernel) ⟨_, by decide +kernel, rfl⟩⟩
  refine ⟨_, pThis', h, extent, ?_⟩
  rw [← extent, stored, cut, finds.sizeOverstated_iff]
  rintro ⟨size, states, _, ⟨bad, _⟩ | ⟨_, payloads, ended, comes, _, larger⟩⟩
  · exact bad (by decide +kernel)
  · have data : List.length ([97, 98, 99] ++ .replicate 125 0x1a : List UInt8) = 128 := rfl
    obtain ⟨more, rfl, rest⟩ := (@fileComes_block _ _ _ SOH _ _ _ _ _ _ ([97, 98, 99] ++ .replicate 125 0x1a)
      (by decide +kernel) (Or.inl ⟨rfl, data⟩) (by decide +kernel) (by decide +kernel)).mp comes
    obtain ⟨rfl, rfl⟩ := (fileComes_endOfFile (by decide +kernel)).mp rest
    have size : size = 3 := by
      rw [← ((statesSize_iff size).mpr states).2]
      decide +kernel
    rw [List.flatten_singleton, data, size] at larger
    exact absurd larger (by decide)

def cancelledFile : List (List UInt8) :=
  [[SOH], frameBody ymodemReceiver.crc16 true 0 (block0Payload [97] [([53], 5)]), [CAN], [CAN]]

theorem lymodemReceive_writeOffset_cancelled :
    (((lmodemReceive .ymodem 4 ymodemReceiver).run (.scripted cancelledFile) 0).2.map fun r =>
      (r.1, r.2.ramfile.writeOffset, r.2.ramfile.buffer.extent)) = some (-1, 5, 0) := by
  decide +kernel

end LightModem
