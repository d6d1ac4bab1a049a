import LightModem.Metadata

set_option autoImplicit false

namespace LightModem

/-- The scan for fields stays inside a text: each string that is looked at is ended inside it, and there
is a byte behind it as long as another string is looked for. -/
def Enclosed : ℕ → ℕ → List UInt8 → Prop
  | 0, _, _ => True
  | left + 1, nbFields, text =>
    text ≠ [] ∧ (text.headD 0 = 0 ∨ (fieldText text).length < text.length ∧
      ((fieldNumber nbFields (fieldText text)).2 = [] →
        Enclosed left (nbFields + 1) (text.drop ((fieldText text).length + 1))))

instance : ∀ (left nbFields : ℕ) (text : List UInt8), Decidable (Enclosed left nbFields text)
  | 0, _, _ => isTrue trivial
  | left + 1, nbFields, text =>
    haveI := instDecidableEnclosed left (nbFields + 1) (text.drop ((fieldText text).length + 1))
    inferInstanceAs (Decidable (_ ∧ _))

section Scan

variable {buffer : Memory UInt8} {pString pEnd nbFields left : ℕ} {text stale : List UInt8}
  {d : LmodemFileCharacteristics}

theorem fieldText_length_le (text : List UInt8) : (fieldText text).length ≤ text.length :=
  (List.takeWhile_prefix _).length_le

theorem fieldText_stale (h : (fieldText text).length < text.length) (stale : List UInt8) :
    fieldText (text ++ stale) = fieldText text := by
  unfold fieldText at h ⊢
  rw [List.takeWhile_append, if_neg (Nat.ne_of_lt h)]

theorem fieldText_whole (h : (fieldText text).length = text.length) (stale : List UInt8) :
    text.length ≤ (fieldText (text ++ stale)).length := by
  unfold fieldText at h ⊢
  rw [List.takeWhile_append, if_pos h, List.length_append]
  exact Nat.le_add_right _ _

theorem headD_append (h : text ≠ []) (stale : List UInt8) : (text ++ stale).headD 0 = text.headD 0 := by
  obtain ⟨c, rest, rfl⟩ := List.exists_cons_of_ne_nil h
  rfl

theorem Enclosed.readFields_eq (h : Enclosed left nbFields text) (stale : List UInt8) :
    readFields left nbFields (text ++ stale) = readFields left nbFields text := by
  induction left generalizing nbFields text with
  | zero => rfl
  | succ left ih =>
    obtain ⟨hne, h⟩ := h
    rw [readFields, readFields, headD_append hne]
    by_cases hend : text.headD 0 = 0
    · rw [if_pos hend, if_pos hend]
    · obtain ⟨hlt, hmore⟩ := h.resolve_left hend
      simp only [if_neg hend, fieldText_stale hlt, List.drop_append_of_le_length (Nat.succ_le_of_lt hlt)]
      by_cases hnumber : (fieldNumber nbFields (fieldText text)).2 = []
      · simp only [if_pos hnumber, ih (hmore hnumber)]
      · simp only [if_neg hnumber]

theorem extent_le_lymodemGetFields :
    buffer.extent ≤ (lymodemGetFields pEnd left nbFields buffer pString d).1.extent := by
  induction left generalizing nbFields buffer pString d with
  | zero => exact Nat.le_refl _
  | succ left ih =>
    obtain ⟨text, htext⟩ : ∃ text, buffer.load pString (pEnd - pString) = text := ⟨_, rfl⟩
    rw [lymodemGetFields_succ htext]
    by_cases hend : text.headD 0 = 0
    · rw [if_pos hend]
    · rw [if_neg hend]
      by_cases hnumber : (fieldNumber nbFields (fieldText text)).2 = []
      · simp only [if_pos hnumber]
        exact (Memory.extent_le_store _ _ _).trans ih
      · simp only [if_neg hnumber]
        exact Memory.extent_le_store _ _ _

theorem Enclosed.scan (h : Enclosed left nbFields text)
    (htext : buffer.load pString (pEnd - pString) = text ++ stale) :
    (∀ i, i < pString ∨ pString + text.length ≤ i →
        (lymodemGetFields pEnd left nbFields buffer pString d).1 i = buffer i) ∧
      (buffer.extent ≤ pString + text.length →
        (lymodemGetFields pEnd left nbFields buffer pString d).1.extent ≤ pString + text.length) := by
  induction left generalizing nbFields text buffer pString d with
  | zero => exact ⟨fun _ _ => rfl, id⟩
  | succ left ih =>
    obtain ⟨hne, h⟩ := h
    rw [lymodemGetFields_succ htext, headD_append hne]
    by_cases hend : text.headD 0 = 0
    · rw [if_pos hend]
      exact ⟨fun _ _ => rfl, id⟩
    · obtain ⟨hlt, hmore⟩ := h.resolve_left hend
      rw [if_neg hend, fieldText_stale hlt]
      have kept (i : ℕ) (hi : i < pString ∨ pString + text.length ≤ i) :
          (buffer.store (pString + (fieldText text).length) [0]) i = buffer i := by
        rcases hi with hi | hi
        · exact Memory.store_of_lt _ (by omega)
        · exact Memory.store_of_ge _ (by simp only [List.length_singleton]; omega)
      have inside (hx : buffer.extent ≤ pString + text.length) :
          (buffer.store (pString + (fieldText text).length) [0]).extent ≤ pString + text.length := by
        rw [Memory.store_extent_le _ (by omega)]
        simp only [List.length_singleton]
        omega
      by_cases hnumber : (fieldNumber nbFields (fieldText text)).2 = []
      · simp only [if_pos hnumber]
        have after := load_stored htext (fieldText text).length
        rw [List.drop_append_of_le_length (by omega)] at after
        obtain ⟨hkept, hinside⟩ := @ih _ _ _ _ _ (hmore hnumber) after
        rw [List.length_drop, show pString + (fieldText text).length + 1 +
          (text.length - ((fieldText text).length + 1)) = pString + text.length by omega] at hkept hinside
        refine ⟨fun i hi => ?_, fun hx => hinside (inside hx)⟩
        rw [hkept i (by omega), kept i hi]
      · simp only [if_neg hnumber]
        exact ⟨kept, inside⟩

theorem lt_extent_lymodemGetFields (htext : buffer.load pString (pEnd - pString) = text)
    (started : text.headD 0 ≠ 0) : pString + (fieldText text).length <
      (lymodemGetFields pEnd (left + 1) nbFields buffer pString d).1.extent := by
  have stored : pString + (fieldText text).length <
      (buffer.store (pString + (fieldText text).length) [0]).extent := by
    rw [Memory.store_extent, if_neg (by simp), List.length_singleton]
    omega
  rw [lymodemGetFields_succ htext, if_neg started]
  by_cases hnumber : (fieldNumber nbFields (fieldText text)).2 = []
  · simp only [if_pos hnumber]
    exact Nat.lt_of_lt_of_le stored extent_le_lymodemGetFields
  · simp only [if_neg hnumber]
    exact stored

theorem scan_outside (h : ¬ Enclosed left nbFields text)
    (htext : buffer.load pString (pEnd - pString) = text ++ stale) (hstale : stale.headD 0 ≠ 0) :
    pString + text.length < (lymodemGetFields pEnd left nbFields buffer pString d).1.extent := by
  induction left generalizing nbFields text buffer pString d with
  | zero => exact absurd trivial h
  | succ left ih =>
    by_cases hne : text = []
    · subst hne
      have ended := @lt_extent_lymodemGetFields _ _ _ nbFields left _ d htext hstale
      exact Nat.lt_of_le_of_lt (Nat.le_add_right _ _) ended
    have started : text.headD 0 ≠ 0 := fun h0 => h ⟨hne, Or.inl h0⟩
    rcases Nat.lt_or_ge (fieldText text).length text.length with hlt | hge
    · have further : (fieldNumber nbFields (fieldText text)).2 = [] ∧
          ¬ Enclosed left (nbFields + 1) (text.drop ((fieldText text).length + 1)) := by
        by_contra hmore
        exact h ⟨hne, Or.inr ⟨hlt, fun hnumber => by_contra fun hout => hmore ⟨hnumber, hout⟩⟩⟩
      have after := load_stored htext (fieldText text).length
      rw [List.drop_append_of_le_length (by omega)] at after
      have outside := @ih _ _ _ _ (lymodemSetField d nbFields
        (fieldNumber nbFields (fieldText text)).1.toUInt32) further.2 after
      rw [lymodemGetFields_succ htext, headD_append hne, if_neg started, fieldText_stale hlt]
      simp only [if_pos further.1]
      rw [List.length_drop] at outside
      omega
    · have ended := @lt_extent_lymodemGetFields _ _ _ nbFields left _ d htext (by rwa [headD_append hne])
      have whole := fieldText_whole (Nat.le_antisymm (fieldText_length_le text) hge) stale
      omega

end Scan

theorem holds_holding (before data : List UInt8) (a : UInt8) :
    (Memory.holding (before ++ data) a).Holds before.length data := by
  apply List.ext_getElem (Memory.load_length _ _ _)
  intro i h h'
  rw [Memory.load_getElem, Memory.holding]
  simp [h']

def ModemContext.withLine (pThis : ModemContext) (buffer : Memory UInt8) : ModemContext :=
  { pThis with blkBuffer := { pThis.blkBuffer with buffer := buffer } }

/-- Of the line buffer, the decoding of block 0 reads and writes the payload alone. -/
structure DependsOnPayload (pThis : ModemContext) (payload : List UInt8) : Prop where
  decoded : ∀ buffer buffer' : Memory UInt8, buffer.Holds 2 payload → buffer'.Holds 2 payload →
    (lymodemDecodeBlock0 (pThis.withLine buffer)).2 = (lymodemDecodeBlock0 (pThis.withLine buffer')).2 ∧
    (lymodemDecodeBlock0 (pThis.withLine buffer)).1.fileData =
      (lymodemDecodeBlock0 (pThis.withLine buffer')).1.fileData
  kept : ∀ buffer : Memory UInt8, buffer.Holds 2 payload → ∀ i, i < 2 ∨ 2 + payload.length ≤ i →
    (lymodemDecodeBlock0 (pThis.withLine buffer)).1.blkBuffer.buffer i = buffer i
  inside : ∀ buffer : Memory UInt8, buffer.Holds 2 payload → buffer.extent ≤ 2 + payload.length →
    (lymodemDecodeBlock0 (pThis.withLine buffer)).1.blkBuffer.buffer.extent ≤ 2 + payload.length

section Payload

variable {pThis : ModemContext} {name text : List UInt8} {dest : Memory UInt8}

theorem metadata_payload (content : pThis.blkBuffer.buffer.Holds 2 (name ++ 0 :: text))
    (line : text.length + 1 ≤ pThis.blkBuffer.maxSize.toNat) :
    ∃ stale, stale = pThis.blkBuffer.buffer.load (2 + (name ++ 0 :: text).length)
        (pThis.blkBuffer.maxSize.toNat - (text.length + 1)) ∧
      (text.dropWhile (· = 0) ≠ [] ∨ stale.headD 0 ≠ 0 →
        metadataFrom pThis name.length = text.dropWhile (· = 0) ++ stale ∧
          metadataStart pThis name.length + (text.dropWhile (· = 0)).length = 2 + (name ++ 0 :: text).length) := by
  refine ⟨_, rfl, ?_⟩
  intro hstart
  obtain ⟨_, htail⟩ := Memory.holds_append.mp content
  have window : pThis.blkBuffer.buffer.load (2 + name.length) pThis.blkBuffer.maxSize.toNat =
      0 :: (text ++ pThis.blkBuffer.buffer.load (2 + (name ++ 0 :: text).length)
        (pThis.blkBuffer.maxSize.toNat - (text.length + 1))) := by
    obtain ⟨k, hk⟩ := Nat.exists_eq_add_of_le line
    have hlen : (0 :: text).length = text.length + 1 := rfl
    rw [hk, Memory.load_add, ← hlen, htail, List.cons_append, List.length_append, Nat.add_assoc,
      Nat.add_sub_cancel_left]
  generalize pThis.blkBuffer.buffer.load (2 + (name ++ 0 :: text).length)
    (pThis.blkBuffer.maxSize.toNat - (text.length + 1)) = stale at hstart window
  have dropped : (0 :: (text ++ stale)).dropWhile (fun c => decide (c = 0)) =
      text.dropWhile (fun c => decide (c = 0)) ++ stale := by
    rw [List.dropWhile_cons_of_pos (by simp), List.dropWhile_append]
    split
    · rename_i hempty
      have hnil := List.isEmpty_iff.mp hempty
      have hne := hstart.resolve_left (not_not_intro hnil)
      rw [hnil, List.nil_append]
      cases stale with
      | nil => rfl
      | cons c stale => exact List.dropWhile_cons_of_neg (by simpa using hne)
    · rfl
  refine ⟨by rw [metadataFrom, window, dropped], ?_⟩
  have hlen := congrArg List.length (@List.takeWhile_append_dropWhile _ (fun c : UInt8 => decide (c = 0))
    (0 :: (text ++ stale)))
  rw [dropped] at hlen
  rw [metadataStart, window]
  simp only [List.length_append, List.length_cons] at hlen ⊢
  omega

def namedFileData (pThis : ModemContext) (dest : Memory UInt8) (name : List UInt8) :
    LmodemFileCharacteristics :=
  { lmodemMetadataClean pThis.fileData with
    filename := some (storedName dest name (pThis.fileData.filenameSize.toNat - 1))
    valid := lmodemMetadataFilenameValid }

theorem lymodemDecodeBlock0_payload {buffer : Memory UInt8} (filename : pThis.fileData.filename = some dest)
    (nonempty : name ≠ []) (plain : 0 ∉ name) (room : name.length < pThis.fileData.filenameSize.toNat)
    (content : buffer.Holds 2 (name ++ 0 :: text)) (line : text.length + 1 ≤ pThis.blkBuffer.maxSize.toNat)
    (stale : List UInt8) (hstale : stale = buffer.load (2 + (name ++ 0 :: text).length)
      (pThis.blkBuffer.maxSize.toNat - (text.length + 1)))
    (hstart : text.dropWhile (· = 0) ≠ [] ∨ stale.headD 0 ≠ 0) :
    ∃ pString pEnd, 2 ≤ pString ∧
      pString + (text.dropWhile (· = 0)).length = 2 + (name ++ 0 :: text).length ∧
      buffer.load pString (pEnd - pString) = text.dropWhile (· = 0) ++ stale ∧
      (lymodemDecodeBlock0 (pThis.withLine buffer)).1.blkBuffer.buffer =
        (lymodemGetFields pEnd 4 0 buffer pString (namedFileData pThis dest name)).1 ∧
      (lymodemDecodeBlock0 (pThis.withLine buffer)).1.fileData = setFields (namedFileData pThis dest name) 0
        (readFields 4 0 (text.dropWhile (· = 0) ++ stale)).1 ∧
      (lymodemDecodeBlock0 (pThis.withLine buffer)).2 =
        (readFields 4 0 (text.dropWhile (· = 0) ++ stale)).2 := by
  have ended : buffer.Holds 2 (name ++ [0]) := by
    obtain ⟨hname, htext⟩ := Memory.holds_append.mp content
    exact Memory.holds_append.mpr ⟨hname, Memory.holds_cons.mpr ⟨(Memory.holds_cons.mp htext).1, Memory.holds_nil⟩⟩
  have whole : name.take (pThis.fileData.filenameSize.toNat - 1) = name := List.take_of_length_le (by omega)
  obtain ⟨_, decoded⟩ := @lymodemDecodeBlock0_eq (pThis.withLine buffer) name dest filename
    (show 1 ≤ pThis.fileData.filenameSize.toNat by omega) nonempty plain ended
  obtain ⟨_, rfl, start⟩ := @metadata_payload (pThis.withLine buffer) name text content line
  obtain ⟨hfrom, hlen⟩ := start (hstale ▸ hstart)
  have hload := load_metadataStart (pThis.withLine buffer) name.length
  rw [hfrom] at hload
  have cut : (pThis.withLine buffer).fileData.filenameSize.toNat = pThis.fileData.filenameSize.toNat := rfl
  simp only [cut, whole, hfrom] at decoded
  rw [decoded, hstale]
  exact ⟨metadataStart (pThis.withLine buffer) name.length, _, by rw [metadataStart]; omega, hlen, hload, rfl, rfl, rfl⟩

theorem Enclosed.dependsOnPayload (h : Enclosed 4 0 (text.dropWhile (· = 0)))
    (filename : pThis.fileData.filename = some dest) (nonempty : name ≠ []) (plain : 0 ∉ name)
    (room : name.length < pThis.fileData.filenameSize.toNat)
    (line : text.length + 1 ≤ pThis.blkBuffer.maxSize.toNat) :
    DependsOnPayload pThis (name ++ 0 :: text) := by
  have decode (buffer : Memory UInt8) (content : buffer.Holds 2 (name ++ 0 :: text)) :=
    lymodemDecodeBlock0_payload filename nonempty plain room content line _ rfl (Or.inl h.1)
  constructor
  · intro buffer buffer' content content'
    obtain ⟨_, _, _, _, _, _, hdata, hresult⟩ := decode buffer content
    obtain ⟨_, _, _, _, _, _, hdata', hresult'⟩ := decode buffer' content'
    rw [hdata, hdata', hresult, hresult', h.readFields_eq, h.readFields_eq]
    exact ⟨rfl, rfl⟩
  · intro buffer content i hi
    obtain ⟨pString, _, hstart, hend, hload, hbuffer, _⟩ := decode buffer content
    rw [hbuffer]
    apply (h.scan hload).1
    omega
  · intro buffer content hextent
    obtain ⟨pString, _, _, hend, hload, hbuffer, _⟩ := decode buffer content
    rw [hbuffer, ← hend]
    apply (h.scan hload).2
    omega

theorem lymodemDecodeBlock0_payload_iff (pThis : ModemContext) (dest : Memory UInt8) (name text : List UInt8)
    (filename : pThis.fileData.filename = some dest) (nonempty : name ≠ []) (plain : 0 ∉ name)
    (room : name.length < pThis.fileData.filenameSize.toNat)
    (line : 2 + (name ++ 0 :: text).length + 2 ≤ pThis.blkBuffer.maxSize.toNat) :
    (DependsOnPayload pThis (name ++ 0 :: text) ∧
        ((∀ c ∈ text, c = 0) → ∀ buffer : Memory UInt8, buffer.Holds 2 (name ++ 0 :: text) →
          (lymodemDecodeBlock0 (pThis.withLine buffer)).2 = true ∧
          (lymodemDecodeBlock0 (pThis.withLine buffer)).1.fileData.valid = lmodemMetadataFilenameValid)) ↔
      Enclosed 4 0 (text.dropWhile (· = 0)) := by
  have hroom : text.length + 1 < pThis.blkBuffer.maxSize.toNat := by
    rw [List.length_append, List.length_cons] at line
    omega
  constructor
  · rintro ⟨depends, _⟩
    by_contra hout
    obtain ⟨buffer, hbuffer⟩ : ∃ buffer : Memory UInt8, buffer = .holding (0 :: 0 :: (name ++ 0 :: text)) 49 :=
      ⟨_, rfl⟩
    have content : buffer.Holds 2 (name ++ 0 :: text) := by
      rw [hbuffer]
      exact holds_holding [0, 0] _ _
    have behind : buffer (2 + (name ++ 0 :: text).length) = 49 := by
      rw [hbuffer, Memory.holding]
      simp [Nat.add_comm]
    obtain ⟨k, hk⟩ := Nat.exists_eq_add_of_lt hroom
    have hstale : (buffer.load (2 + (name ++ 0 :: text).length)
        (pThis.blkBuffer.maxSize.toNat - (text.length + 1))).headD 0 ≠ 0 := by
      rw [hk, show text.length + 1 + k + 1 - (text.length + 1) = k + 1 by omega, Memory.load_succ, behind]
      exact show (49 : UInt8) ≠ 0 by decide
    obtain ⟨pString, _, _, hend, hload, hscan, _⟩ := lymodemDecodeBlock0_payload filename nonempty plain room
      content hroom.le _ rfl (Or.inr hstale)
    have outside := @scan_outside _ _ _ _ _ _ _ (namedFileData pThis dest name) hout hload hstale
    have inside := depends.inside buffer content (by rw [hbuffer]; exact Nat.zero_le _)
    rw [hscan] at inside
    omega
  · intro h
    refine ⟨h.dependsOnPayload filename nonempty plain room hroom.le, ?_⟩
    intro hzero
    exact absurd (List.dropWhile_eq_nil_iff.mpr (by simpa using hzero)) h.1

end Payload

def namingReceiver : ModemContext :=
  lmodemSetFilenameBuffer (lmodemSetLineBuffer (lmodemInit .lxmodem128WithCrc) (.fresh 0) 132).1 (.fresh 0) 16

theorem lymodemDecodeBlock0_payload_sized :
    DependsOnPayload namingReceiver ([97] ++ 0 :: (53 :: List.replicate 125 0)) :=
  ((lymodemDecodeBlock0_payload_iff namingReceiver (.fresh 0) [97] (53 :: List.replicate 125 0) rfl (by decide)
    (by decide) (by decide) (by decide +kernel)).mpr (by decide +kernel)).1

theorem lymodemDecodeBlock0_stale :
    (lymodemDecodeBlock0 (namingReceiver.withLine
      (.holding (0 :: 255 :: ([97] ++ 0 :: List.replicate 126 0)) 0))).1.fileData.valid =
        lmodemMetadataFilenameValid ∧
    (lymodemDecodeBlock0 (namingReceiver.withLine
      (.holding (0 :: 255 :: ([97] ++ 0 :: List.replicate 126 0) ++ [49, 50]) 0))).1.fileData.size = 12 ∧
    ¬ DependsOnPayload namingReceiver ([97] ++ 0 :: List.replicate 126 0) := by
  have sizes : (lymodemDecodeBlock0 (namingReceiver.withLine
      (.holding (0 :: 255 :: ([97] ++ 0 :: List.replicate 126 0)) 0))).1.fileData.size = 0 ∧
      (lymodemDecodeBlock0 (namingReceiver.withLine
        (.holding (0 :: 255 :: ([97] ++ 0 :: List.replicate 126 0) ++ [49, 50]) 0))).1.fileData.size = 12 := by
    decide +kernel
  refine ⟨by decide +kernel, sizes.2, ?_⟩
  intro depends
  have same := (depends.decoded (.holding (0 :: 255 :: ([97] ++ 0 :: List.replicate 126 0)) 0)
    (.holding (0 :: 255 :: ([97] ++ 0 :: List.replicate 126 0) ++ [49, 50]) 0) (by decide +kernel)
    (by decide +kernel)).2
  have different := sizes.2
  rw [← same, sizes.1] at different
  exact absurd different (by decide)

end LightModem
