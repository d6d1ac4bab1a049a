import LightModem.Getters

set_option autoImplicit false

namespace LightModem

open Interaction

def sentPayload (maxSize : ℕ) (name text : List UInt8) : List UInt8 :=
  (name ++ 0 :: (text.take (maxSize - 8 - name.length) ++ List.replicate 1024 0)).take
    (block0Size (name ++ 0 :: text).length)

def stringsRead (receiver : ModemContext) (body : List UInt8) (kept : ℕ) : List (List UInt8) :=
  scanned 4 ((body.drop (2 + kept) ++ receiver.blkBuffer.buffer.load body.length
    (receiver.blkBuffer.maxSize.toNat - (body.length - 2 - kept))).dropWhile (fun c => decide (c = 0)))

section Sent

variable {sender receiver : ModemContext} {source dest : Memory UInt8} {name text body : List UInt8}

theorem block0Size_le (n : ℕ) : block0Size n ≤ 1024 := by
  unfold block0Size
  split <;> omega

theorem sentPayload_length (maxSize : ℕ) (name text : List UInt8) :
    (sentPayload maxSize name text).length = block0Size (name ++ 0 :: text).length := by
  have bound := block0Size_le (name ++ 0 :: text).length
  have filled : (List.replicate 1024 (0 : UInt8)).length = 1024 := List.length_replicate
  rw [sentPayload, List.length_take]
  simp only [List.length_append, List.length_cons, filled] at bound ⊢
  omega

theorem sentPayload_drop (maxSize : ℕ) (name text : List UInt8) :
    (sentPayload maxSize name text).drop name.length =
      (0 :: (text.take (maxSize - 8 - name.length) ++ List.replicate 1024 0)).take
        (block0Size (name ++ 0 :: text).length - name.length) := by
  rw [sentPayload, List.drop_take, List.drop_left]

theorem sentPayload_name (short : name.length < 1024) (maxSize : ℕ) (text : List UInt8) :
    ∃ rest, sentPayload maxSize name text = name ++ 0 :: rest := by
  have room : name.length < block0Size (name ++ 0 :: text).length := by
    rw [block0Size, List.length_append, List.length_cons]
    split <;> omega
  obtain ⟨k, hk⟩ := Nat.exists_eq_add_of_lt room
  rw [sentPayload, hk, Nat.add_assoc, List.take_length_add_append, List.take_succ_cons]
  exact ⟨_, rfl⟩

theorem take_zeros {a b k : ℕ} (s : List UInt8) (ha : k ≤ s.length + a) (hb : k ≤ s.length + b) :
    (s ++ List.replicate a 0).take k = (s ++ List.replicate b 0).take k := by
  rw [List.take_append, List.take_append, List.take_replicate, List.take_replicate]
  congr 2
  omega

theorem block0Named_zeros (filename : sender.fileData.filename = some source)
    (content : source.Holds 0 (name ++ [0])) (plain : 0 ∉ name) (short : name.length < 1024)
    (line : lymodemBufferMinSize ≤ sender.blkBuffer.maxSize.toNat) :
    (block0Named sender).Holds 3
      (name ++ List.replicate (sender.blkBuffer.maxSize.toNat - 2 - name.length) 0) := by
  have line' : 1029 ≤ sender.blkBuffer.maxSize.toNat := line
  have hmax : (sender.blkBuffer.maxSize - 3).toNat = sender.blkBuffer.maxSize.toNat - 3 :=
    toNat_sub_of_le (Nat.le_trans (by decide) line)
  have named := @strncpy_name (((sender.blkBuffer.buffer.store 0
    (List.replicate sender.blkBuffer.maxSize.toNat 0)).store 1 [0]).store 2 [~~~0]) _ _ plain content
    (sender.blkBuffer.maxSize.toNat - 3) (by omega)
  rw [show sender.blkBuffer.maxSize.toNat - 3 + 1 - name.length =
    sender.blkBuffer.maxSize.toNat - 2 - name.length by omega] at named
  rw [block0Named, filename, hmax]
  exact named

theorem snprintf_cut {b : Memory UInt8} {k size : ℕ} (content : b.Holds 3 (name ++ List.replicate k 0))
    (room : size < k) :
    ∃ j, k = j + 1 + (text.take (size - 1)).length ∧
      (snprintf b (3 + name.length + 1) size text).1.Holds 3
        (name ++ 0 :: (text.take (size - 1) ++ List.replicate j 0)) := by
  have cut : (text.take (size - 1)).length ≤ size - 1 := by
    rw [List.length_take]
    exact Nat.min_le_left _ _
  refine ⟨k - 1 - (text.take (size - 1)).length, by omega, ?_⟩
  cases size with
  | zero =>
    obtain ⟨j, rfl⟩ : ∃ j, k = j + 1 := ⟨k - 1, by omega⟩
    rw [snprintf]
    exact content
  | succ size =>
    have same : (snprintf b (3 + name.length + 1) (size + 1) text).1 =
        (snprintf b (3 + name.length + 1) (size + 1) (text.take size)).1 := by
      simp [snprintf, List.take_take]
    rw [same]
    apply snprintf_text content _ room
    rw [List.length_take]
    omega

theorem block0Printed_payload (filename : sender.fileData.filename = some source)
    (content : source.Holds 0 (name ++ [0])) (plain : 0 ∉ name) (short : name.length < 1024)
    (line : lymodemBufferMinSize ≤ sender.blkBuffer.maxSize.toNat) {k : ℕ} (hk : k ≤ 1024) :
    (block0Printed sender).1.load 3 k = (name ++ 0 :: ((metadataText sender.fileData.fields).take
      (sender.blkBuffer.maxSize.toNat - 8 - name.length) ++ List.replicate 1024 0)).take k := by
  have line' : 1029 ≤ sender.blkBuffer.maxSize.toNat := line
  have hmax : (sender.blkBuffer.maxSize - 3).toNat = sender.blkBuffer.maxSize.toNat - 3 :=
    toNat_sub_of_le (Nat.le_trans (by decide) line)
  have hlt := sender.blkBuffer.maxSize.toNat_lt
  have named := block0Named_zeros filename content plain short line
  have size := block0SizeFilename_eq filename content plain
  rw [List.take_of_length_le (by omega)] at size
  obtain ⟨maxSize, hsize⟩ : ∃ maxSize, sender.blkBuffer.maxSize.toNat = maxSize := ⟨_, rfl⟩
  rw [hsize] at named line' hlt
  have loaded {m : Memory UInt8} {a : List UInt8} (h : m.Holds 3 a) (ha : k ≤ a.length) :
      m.load 3 k = a.take k := by
    rw [← Memory.load_take m ha, h]
  have zeros (j : ℕ) (hj : k ≤ name.length + j) :
      (name ++ List.replicate j (0 : UInt8)).take k = (name ++ 0 :: List.replicate 1024 0).take k :=
    @take_zeros j 1025 k name hj (by omega)
  by_cases printed : 1 ≤ lymodemNbMetaData sender.fileData
  · have format := lymodemFormat_eq sender.fileData
    have count := lymodemNbMetaData_le sender.fileData
    simp only [block0Printed, printed, count, and_self, ↓reduceIte, size, format, hsize]
    rcases Nat.lt_or_ge maxSize (name.length + 7) with full | room
    -- the size given to `snprintf` has wrapped around, and the text is printed behind the block
    · have behind : 3 + k ≤ 3 + name.length + 1 := by omega
      have kept : (snprintf (block0Named sender) (3 + name.length + 1) (block0SnprintfSize sender)
          (metadataText sender.fileData.fields)).1.load 3 k = (block0Named sender).load 3 k := by
        rw [snprintf]
        simp only
        split
        · rfl
        · exact Memory.load_store_disjoint _ (Or.inl behind)
      rw [kept, loaded named (by rw [List.length_append, List.length_replicate]; omega),
        show maxSize - 8 - name.length = 0 by omega, List.take_zero, List.nil_append]
      exact zeros _ (by omega)
    · have left : block0SnprintfSize sender = maxSize - 7 - name.length := by
        rw [block0SnprintfSize, block0Left, size, hsize]
        omega
      obtain ⟨j, hj, held⟩ := @snprintf_cut name (metadataText sender.fileData.fields) (block0Named sender) _
        (maxSize - 7 - name.length) named (by omega)
      have whole (j : ℕ) (text : List UInt8) : name ++ 0 :: (text ++ List.replicate j 0) =
          (name ++ 0 :: text) ++ List.replicate j 0 := by
        rw [List.append_assoc, List.cons_append]
      rw [show maxSize - 8 - name.length = maxSize - 7 - name.length - 1 by omega, left]
      rw [whole] at held ⊢
      have covered : k ≤ (name ++ 0 :: (metadataText sender.fileData.fields).take
          (maxSize - 7 - name.length - 1)).length + j := by
        rw [List.length_append, List.length_cons]
        omega
      rw [loaded held (by rwa [List.length_append, List.length_replicate])]
      exact take_zeros _ covered (by omega)
  · have nothing : metadataText sender.fileData.fields = [] := by
      rw [LmodemFileCharacteristics.fields, show lymodemNbMetaData sender.fileData = 0 by omega]
      rfl
    rw [nothing, List.take_nil, List.nil_append, block0Printed]
    simp only [printed, false_and, ↓reduceIte]
    rw [loaded named (by rw [List.length_append, List.length_replicate]; omega)]
    exact zeros _ (by omega)

theorem block0Printed_number (filename : sender.fileData.filename = some source)
    (content : source.Holds 0 (name ++ [0])) (plain : 0 ∉ name) : (block0Printed sender).1.Holds 1 [0, ~~~0] := by
  have size := block0SizeFilename_eq filename content plain
  have stored : ((sender.blkBuffer.buffer.store 0 (List.replicate sender.blkBuffer.maxSize.toNat 0)).store 1
      [0]).store 2 [~~~0] = (sender.blkBuffer.buffer.store 0
        (List.replicate sender.blkBuffer.maxSize.toNat 0)).store 1 [0, ~~~0] := Memory.store_append _ 1 [0] [~~~0]
  have named : (block0Named sender).Holds 1 [0, ~~~0] := by
    rw [block0Named, stored, strncpy, Memory.holds_store_disjoint (Or.inl (by simp)),
      Memory.holds_store_disjoint (Or.inl (by simp))]
    exact Memory.holds_store _ _ _
  rw [block0Printed]
  split
  · rw [snprintf]
    simp only
    split
    · exact named
    · rw [Memory.holds_store_disjoint (Or.inl (by simp; omega))]
      exact named
  · exact named

theorem lymodemBuildAndSendBlock0_frame (named : sender.fileData.isValid lmodemMetadataFilenameValid = true)
    (filename : sender.fileData.filename = some source) (content : source.Holds 0 (name ++ [0])) (plain : 0 ∉ name)
    (short : name.length < 1024) (line : lymodemBufferMinSize ≤ sender.blkBuffer.maxSize.toNat) :
    ∃ (header : UInt8) (sender' : ModemContext), lymodemBuildAndSendBlock0 sender =
      .write (header :: frameBody sender.crc16 true 0
        (sentPayload sender.blkBuffer.maxSize.toNat name (metadataText sender.fileData.fields))) (.done sender') := by
  have line' : 1029 ≤ sender.blkBuffer.maxSize.toNat := line
  have hmax : (sender.blkBuffer.maxSize - 3).toNat = sender.blkBuffer.maxSize.toNat - 3 :=
    toNat_sub_of_le (Nat.le_trans (by decide) line)
  have size := block0SizeFilename_eq filename content plain
  rw [List.take_of_length_le (by omega)] at size
  have printed : (block0Printed sender).2 = (metadataText sender.fileData.fields).length := by
    rw [← lymodemFormat_eq, block0Printed]
    split
    · rfl
    · have count := lymodemNbMetaData_le sender.fileData
      rw [show lymodemNbMetaData sender.fileData = 0 by omega]
      rfl
  have blksize : block0EffectiveBlksize sender =
      block0Size (name ++ 0 :: metadataText sender.fileData.fields).length := by
    rw [block0EffectiveBlksize, size, printed, block0Size, List.length_append, List.length_cons]
    congr 2
    omega
  have payload := block0Printed_payload filename content plain short line
    (block0Size_le (name ++ 0 :: metadataText sender.fileData.fields).length)
  rw [← sentPayload, ← blksize] at payload
  have length := sentPayload_length sender.blkBuffer.maxSize.toNat name (metadataText sender.fileData.fields)
  rw [← blksize] at length
  have frame (header : UInt8) : ((block0Printed sender).1.store 0 [header]).Holds 0 (header :: 0 :: ~~~0 ::
      sentPayload sender.blkBuffer.maxSize.toNat name (metadataText sender.fileData.fields)) := by
    refine Memory.holds_append.mpr ⟨Memory.holds_store (block0Printed sender).1 0 [header], (Memory.holds_store_disjoint (Or.inr (Nat.le_refl _))).mpr ?_⟩
    rw [Memory.holds_cons, Memory.holds_cons, Memory.Holds, length]
    have number := block0Printed_number filename content plain
    exact ⟨(Memory.holds_cons.mp number).1, (Memory.holds_cons.mp (Memory.holds_cons.mp number).2).1, payload⟩
  have sent (header : UInt8) := load_headerBlock (frame header) sender.crc16
  rw [length] at sent
  simp only [lymodemBuildAndSendBlock0, named, ↓reduceIte, putchars_bind]
  exact ⟨_, _, congrArg (Program.write · _) (sent _)⟩

theorem metadataStrings_fill {k : ℕ} (kept : (receiver.fill body).keptLength = k) (hk : 2 + k ≤ body.length)
    (room : body.length - 2 - k ≤ receiver.blkBuffer.maxSize.toNat) :
    metadataStrings (receiver.fill body) = stringsRead receiver body k := by
  obtain ⟨rest, hrest⟩ := Nat.exists_eq_add_of_le room
  have data : (receiver.blkBuffer.buffer.store 0 body).load (2 + k) (body.length - 2 - k) = body.drop (2 + k) := by
    have whole := Memory.load_store receiver.blkBuffer.buffer 0 body
    rw [← congrArg (List.drop (2 + k)) whole, Memory.load_drop _ hk, Nat.zero_add, Nat.sub_sub]
  have stale : (receiver.blkBuffer.buffer.store 0 body).load (2 + k + (body.length - 2 - k)) rest =
      receiver.blkBuffer.buffer.load body.length (receiver.blkBuffer.maxSize.toNat - (body.length - 2 - k)) := by
    rw [Memory.load_store_disjoint _ (Or.inr (by omega)), hrest, Nat.add_sub_cancel_left]
    congr 1
    omega
  rw [metadataStrings, kept, metadataFrom, stringsRead, ← data, ← stale, ← Memory.load_add, ← hrest]
  rfl

theorem metadataStrings_sent (short : name.length < 1024) (plain : 0 ∉ name) (maxSize : ℕ) (text : List UInt8)
    (crc16 : Crc16Context) (filename : receiver.fileData.filename = some dest)
    (line : lymodemBufferMinSize ≤ receiver.blkBuffer.maxSize.toNat) :
    (name ≠ [] → (receiver.fill (frameBody crc16 true 0 (sentPayload maxSize name text))).blkBuffer.buffer 2 ≠ 0) ∧
    metadataStrings (receiver.fill (frameBody crc16 true 0 (sentPayload maxSize name text))) =
      stringsRead receiver (frameBody crc16 true 0 (sentPayload maxSize name text))
        (min name.length (receiver.fileData.filenameSize.toNat - 1)) := by
  have line' : 1029 ≤ receiver.blkBuffer.maxSize.toNat := line
  obtain ⟨rest, hrest⟩ := sentPayload_name short maxSize text
  have bound := block0Size_le (name ++ 0 :: text).length
  rw [← sentPayload_length maxSize] at bound
  have length := frameBody_length crc16 true 0 (sentPayload maxSize name text)
  rw [checkSize, if_pos rfl] at length
  have atLeast : name.length + 1 ≤ (sentPayload maxSize name text).length := by
    rw [hrest, List.length_append, List.length_cons]
    omega
  have parts : frameBody crc16 true 0 (sentPayload maxSize name text) = 0 :: ~~~0 ::
      ((name ++ [0]) ++ (rest ++ checkBytes crc16 true (sentPayload maxSize name text))) := by
    rw [frameBody, hrest, List.append_assoc, List.append_assoc, List.cons_append, List.singleton_append]
  generalize frameBody crc16 true 0 (sentPayload maxSize name text) = body at parts length
  have stored : (receiver.blkBuffer.buffer.store 0 body).Holds 0 (0 :: ~~~0 ::
      ((name ++ [0]) ++ (rest ++ checkBytes crc16 true (sentPayload maxSize name text)))) := by
    rw [← parts]
    exact Memory.holds_store _ _ _
  rw [Memory.holds_cons, Memory.holds_cons, Memory.holds_append] at stored
  have named : (receiver.fill body).blkBuffer.buffer.Holds 2 (name ++ [0]) := stored.2.2.1
  constructor
  · intro nonempty
    obtain ⟨c, more, rfl⟩ := List.exists_cons_of_ne_nil nonempty
    rw [List.cons_append, Memory.holds_cons] at named
    rw [named.1]
    exact ne_of_mem_of_not_mem List.mem_cons_self plain
  · apply metadataStrings_fill (keptLength_min filename plain named)
    · change 2 + min name.length (receiver.fileData.filenameSize.toNat - 1) ≤ _
      omega
    · omega

end Sent

theorem frameBody_drop {crc16 : Crc16Context} {withCrc : Bool} {n : UInt8} {payload : List UInt8} {k : ℕ}
    (hk : k ≤ payload.length) :
    (frameBody crc16 withCrc n payload).drop (2 + k) = payload.drop k ++ checkBytes crc16 withCrc payload := by
  rw [frameBody, ← List.drop_drop]
  exact List.drop_append_of_le_length hk

theorem metadataText_nulls {nbFields : ℕ} {fields : List (List UInt8 × UInt32)} (h : MetadataFields nbFields fields) :
    0 ∉ metadataText fields := by
  induction fields generalizing nbFields with
  | nil => exact List.not_mem_nil
  | cons field fields ih =>
    obtain ⟨hfield, hfields⟩ := h
    have first : 0 ∉ field.1 := fun hc => (hfield.plain 0 hc).2 rfl
    cases fields with
    | nil => exact first
    | cons field' fields =>
      rw [metadataText, List.mem_append, List.mem_cons]
      rintro (hc | hc | hc)
      · exact first hc
      · cases hc
      · exact ih hfields hc

theorem scanned_length_le (left : ℕ) (text : List UInt8) : (scanned left text).length ≤ left := by
  induction left generalizing text with
  | zero => exact Nat.le_refl _
  | succ left ih =>
    rw [scanned]
    split
    · exact Nat.zero_le _
    · exact Nat.succ_le_succ (ih _)

section OnlySet

variable {sender receiver : ModemContext} {source dest : Memory UInt8} {name : List UInt8}

theorem carriesFields_unset {d : LmodemFileCharacteristics} (named : d.isValid lmodemMetadataFilenameValid = true)
    (unset : lymodemNbMetaData d = 0) {strings : List (List UInt8)} (few : strings.length ≤ 4) :
    CarriesFields d strings ↔ strings = [] := by
  constructor
  · rintro ⟨given, _⟩
    by_contra some
    have pos := List.length_pos_iff.mpr some
    have first : metadataMask strings.length &&& lmodemMetadataFilesizeValid = lmodemMetadataFilesizeValid := by
      generalize strings.length = n at pos few
      interval_cases n <;> decide
    rw [LmodemFileCharacteristics.isValid, decide_eq_true_eq] at given
    have size : d.isValid lmodemMetadataFilesizeValid = true := by
      rw [LmodemFileCharacteristics.isValid, decide_eq_true_eq, ← first, ← UInt32.and_assoc, given]
    have := lymodemNbMetaData_pos size
    omega
  · rintro rfl
    exact ⟨named, rfl⟩

theorem lymodemDecodeBlock0_onlySet_sent (named : sender.fileData.isValid lmodemMetadataFilenameValid = true)
    (given : sender.fileData.filename = some source) (content : source.Holds 0 (name ++ [0]))
    (nonempty : name ≠ []) (plain : 0 ∉ name) (short : name.length < 1024)
    (senderLine : lymodemBufferMinSize ≤ sender.blkBuffer.maxSize.toNat)
    (filename : receiver.fileData.filename = some dest)
    (receiverLine : lymodemBufferMinSize ≤ receiver.blkBuffer.maxSize.toNat) :
    ∃ (header : UInt8) (sender' : ModemContext),
      let payload := sentPayload sender.blkBuffer.maxSize.toNat name (metadataText sender.fileData.fields)
      let body := frameBody sender.crc16 true 0 payload
      let strings := stringsRead receiver body (min name.length (receiver.fileData.filenameSize.toNat - 1))
      lymodemBuildAndSendBlock0 sender = .write (header :: body) (.done sender') ∧
      (((lymodemDecodeBlock0 (receiver.fill body)).2 = true →
          OnlySet sender.fileData (lymodemDecodeBlock0 (receiver.fill body)).1.fileData) ↔
        ¬ Numerals 0 strings ∨ CarriesFields sender.fileData strings) := by
  obtain ⟨header, sender', build⟩ := lymodemBuildAndSendBlock0_frame named given content plain short senderLine
  obtain ⟨started, strings⟩ := metadataStrings_sent short plain sender.blkBuffer.maxSize.toNat
    (metadataText sender.fileData.fields) sender.crc16 filename receiverLine
  refine ⟨header, sender', build, ?_⟩
  rw [lymodemDecodeBlock0_carries (started nonempty), strings]

/-- When no field is set, the receiver is right only if it finds no string in the CRC and what its line buffer holds
behind it, or one that is no number. -/
theorem lymodemDecodeBlock0_onlySet_unset (named : sender.fileData.isValid lmodemMetadataFilenameValid = true)
    (unset : lymodemNbMetaData sender.fileData = 0) (given : sender.fileData.filename = some source)
    (content : source.Holds 0 (name ++ [0])) (nonempty : name ≠ []) (plain : 0 ∉ name) (short : name.length < 1024)
    (senderLine : lymodemBufferMinSize ≤ sender.blkBuffer.maxSize.toNat)
    (filename : receiver.fileData.filename = some dest) (fits : name.length < receiver.fileData.filenameSize.toNat)
    (receiverLine : lymodemBufferMinSize ≤ receiver.blkBuffer.maxSize.toNat) :
    ∃ (header : UInt8) (sender' : ModemContext),
      let payload := name ++ List.replicate (block0Size (name.length + 1) - name.length) 0
      let body := frameBody sender.crc16 true 0 payload
      let stale := receiver.blkBuffer.buffer.load body.length
        (receiver.blkBuffer.maxSize.toNat - (body.length - 2 - name.length))
      let strings := scanned 4 ((checkBytes sender.crc16 true payload ++ stale).dropWhile (fun c => decide (c = 0)))
      lymodemBuildAndSendBlock0 sender = .write (header :: body) (.done sender') ∧
      (((lymodemDecodeBlock0 (receiver.fill body)).2 = true →
          OnlySet sender.fileData (lymodemDecodeBlock0 (receiver.fill body)).1.fileData) ↔
        strings = [] ∨ ¬ Numerals 0 strings) := by
  obtain ⟨header, sender', build, verdict⟩ := lymodemDecodeBlock0_onlySet_sent named given content nonempty plain
    short senderLine filename receiverLine
  have nothing : metadataText sender.fileData.fields = [] := by
    rw [LmodemFileCharacteristics.fields, unset]
    rfl
  have bound := block0Size_le (name.length + 1)
  have payload : sentPayload sender.blkBuffer.maxSize.toNat name [] =
      name ++ List.replicate (block0Size (name.length + 1) - name.length) 0 := by
    have atLeast : name.length ≤ block0Size (name.length + 1) := by
      rw [block0Size]
      split <;> omega
    rw [sentPayload, List.take_nil, List.nil_append, ← List.replicate_succ, List.length_append, List.length_singleton,
      List.take_append, List.take_of_length_le atLeast, List.take_replicate, Nat.min_eq_left (by omega)]
  refine ⟨header, sender', ?_⟩
  rw [nothing, payload] at build verdict
  refine ⟨build, ?_⟩
  have zeros : ∀ c ∈ List.replicate (block0Size (name.length + 1) - name.length) (0 : UInt8), decide (c = 0) = true :=
    fun c hc => decide_eq_true (List.eq_of_mem_replicate hc)
  rw [verdict, Nat.min_eq_left (by omega), stringsRead, carriesFields_unset named unset (scanned_length_le 4 _),
    or_comm, frameBody_drop (by simp), List.drop_left, List.append_assoc, List.dropWhile_append_of_pos zeros]

theorem lymodemDecodeBlock0_onlySet_cut (named : sender.fileData.isValid lmodemMetadataFilenameValid = true)
    (printed : 1 ≤ lymodemNbMetaData sender.fileData) (given : sender.fileData.filename = some source)
    (content : source.Holds 0 (name ++ [0])) (plain : 0 ∉ name)
    (text : (name ++ 0 :: metadataText sender.fileData.fields).length ≤ 1022)
    (senderLine : lymodemBufferMinSize ≤ sender.blkBuffer.maxSize.toNat)
    (filename : receiver.fileData.filename = some dest) (capacity : 1 ≤ receiver.fileData.filenameSize.toNat)
    (cut : receiver.fileData.filenameSize.toNat ≤ name.length)
    (receiverLine : lymodemBufferMinSize ≤ receiver.blkBuffer.maxSize.toNat) :
    ∃ (header : UInt8) (body : List UInt8) (sender' : ModemContext),
      let strings := (stringsFrom name (metadataText sender.fileData.fields)
        receiver.fileData.filenameSize.toNat).take 4
      lymodemBuildAndSendBlock0 sender = .write (header :: body) (.done sender') ∧
      (((lymodemDecodeBlock0 (receiver.fill body)).2 = true →
          OnlySet sender.fileData (lymodemDecodeBlock0 (receiver.fill body)).1.fileData) ↔
        ¬ Numerals 0 strings ∨ CarriesFields sender.fileData strings) := by
  obtain ⟨sender', build, _⟩ := lymodemBuildAndSendBlock0_eq named printed given content plain text senderLine
  obtain ⟨field, fields, hfields⟩ := fields_eq_cons printed
  obtain ⟨c, more, started, _⟩ := metadataText_head (metadataFields_fields sender.fileData) (by rw [hfields]; simp)
  have nulls := metadataText_nulls (metadataFields_fields sender.fileData)
  have payload := holds_block0 receiver.blkBuffer.buffer sender.crc16 text
  refine ⟨_, frameBody sender.crc16 true 0 (block0Payload name sender.fileData.fields), sender', build, ?_⟩
  generalize frameBody sender.crc16 true 0 (block0Payload name sender.fileData.fields) = body at payload
  have line : 1029 ≤ receiver.blkBuffer.maxSize.toNat := receiverLine
  have ended : (receiver.fill body).blkBuffer.buffer.Holds 2 (name ++ [0]) := by
    rw [List.append_cons, Memory.holds_append] at payload
    exact payload.1
  have named : (receiver.fill body).blkBuffer.buffer 2 ≠ 0 := by
    obtain ⟨c, rest, hname⟩ := List.exists_cons_of_length_pos (show 0 < name.length by omega)
    rw [hname, List.cons_append, Memory.holds_cons] at ended
    rw [ended.1]
    exact ne_of_mem_of_not_mem (by simp [hname]) plain
  have room : (name ++ 0 :: (metadataText sender.fileData.fields ++ [0, 0])).length ≤
      (receiver.fill body).blkBuffer.maxSize.toNat := by
    change _ ≤ receiver.blkBuffer.maxSize.toNat
    rw [← List.cons_append, ← List.append_assoc, List.length_append, List.length_cons, List.length_singleton]
    omega
  have kept : (receiver.fill body).keptLength = min name.length (receiver.fileData.filenameSize.toNat - 1) :=
    keptLength_min filename plain ended
  have found := scanned_cut plain (started ▸ List.cons_ne_nil c more) nulls payload room capacity
  rw [lymodemDecodeBlock0_carries named, metadataStrings, kept]
  exact found ▸ Iff.rfl

theorem lymodemDecodeBlock0_onlySet_full (named : sender.fileData.isValid lmodemMetadataFilenameValid = true)
    (given : sender.fileData.filename = some source) (content : source.Holds 0 (name ++ [0]))
    (plain : 0 ∉ name) (short : name.length < 1024)
    (full : 1022 < (name ++ 0 :: metadataText sender.fileData.fields).length)
    (senderLine : lymodemBufferMinSize ≤ sender.blkBuffer.maxSize.toNat)
    (filename : receiver.fileData.filename = some dest) (fits : name.length < receiver.fileData.filenameSize.toNat)
    (receiverLine : lymodemBufferMinSize ≤ receiver.blkBuffer.maxSize.toNat) :
    ∃ (header : UInt8) (body : List UInt8) (sender' : ModemContext),
      let text := (metadataText sender.fileData.fields).take (sender.blkBuffer.maxSize.toNat - 8 - name.length) ++
        List.replicate 1024 0
      let crc := body.drop (2 + 1024)
      let stale := receiver.blkBuffer.buffer.load (2 + 1024 + 2)
        (receiver.blkBuffer.maxSize.toNat - (1024 + 2 - name.length))
      let strings := scanned 4 ((text.take (1023 - name.length) ++ crc ++ stale).dropWhile (fun c => decide (c = 0)))
      lymodemBuildAndSendBlock0 sender = .write (header :: body) (.done sender') ∧
      (((lymodemDecodeBlock0 (receiver.fill body)).2 = true →
          OnlySet sender.fileData (lymodemDecodeBlock0 (receiver.fill body)).1.fileData) ↔
        ¬ Numerals 0 strings ∨ CarriesFields sender.fileData strings) := by
  have text := metadataText_length sender.fileData
  have nonempty : name ≠ [] := by
    rintro rfl
    simp at full
    omega
  obtain ⟨header, sender', build, verdict⟩ := lymodemDecodeBlock0_onlySet_sent named given content nonempty plain
    short senderLine filename receiverLine
  have blksize : block0Size (name ++ 0 :: metadataText sender.fileData.fields).length = 1024 := by
    rw [block0Size, if_neg (by omega)]
  have length := sentPayload_length sender.blkBuffer.maxSize.toNat name (metadataText sender.fileData.fields)
  have rest := sentPayload_drop sender.blkBuffer.maxSize.toNat name (metadataText sender.fileData.fields)
  rw [blksize] at length rest
  generalize hpayload : sentPayload sender.blkBuffer.maxSize.toNat name (metadataText sender.fileData.fields) =
    payload at length rest build verdict
  have size := frameBody_length sender.crc16 true 0 payload
  have crc := @frameBody_drop sender.crc16 true 0 payload 1024 length.ge
  rw [checkSize, if_pos rfl] at size
  refine ⟨header, frameBody sender.crc16 true 0 payload, sender', build, ?_⟩
  have started : (0 :: ((metadataText sender.fileData.fields).take (sender.blkBuffer.maxSize.toNat - 8 - name.length) ++
      List.replicate 1024 0)).take (1024 - name.length) = 0 :: ((metadataText sender.fileData.fields).take
        (sender.blkBuffer.maxSize.toNat - 8 - name.length) ++ List.replicate 1024 0).take (1023 - name.length) := by
    rw [show 1024 - name.length = 1023 - name.length + 1 by omega, List.take_succ_cons]
  rw [List.drop_eq_nil_of_le length.le, List.nil_append] at crc
  rw [started] at rest
  have whole : stringsRead receiver (frameBody sender.crc16 true 0 payload) name.length = scanned 4
      ((((metadataText sender.fileData.fields).take (sender.blkBuffer.maxSize.toNat - 8 - name.length) ++
          List.replicate 1024 0).take (1023 - name.length) ++
        (frameBody sender.crc16 true 0 payload).drop (2 + 1024) ++
        receiver.blkBuffer.buffer.load (2 + 1024 + 2) (receiver.blkBuffer.maxSize.toNat -
          (1024 + 2 - name.length))).dropWhile (fun c => decide (c = 0))) := by
    rw [stringsRead, frameBody_drop (by omega), rest, ← crc, List.cons_append, List.cons_append,
      List.dropWhile_cons_of_pos (by simp), show (frameBody sender.crc16 true 0 payload).length = 2 + 1024 + 2 by omega,
      show 2 + 1024 + 2 - 2 = 1024 + 2 by omega]
  rw [verdict, Nat.min_eq_left (by omega), whole]

end OnlySet

end LightModem
