import LightModem.Reception
import LightModem.YmodemReceiver
import LightModem.YmodemSender

set_option autoImplicit false

namespace LightModem

open Interaction

structure MetadataField (nbFields : ℕ) (text : List UInt8) (value : UInt32) : Prop where
  nonempty : text ≠ []
  plain : ∀ c ∈ text, c ≠ 32 ∧ c ≠ 0
  number : ∃ r, strtoul text (if nbFields = 0 then 10 else 8) = (r, []) ∧ r.toUInt32 = value

def MetadataFields : ℕ → List (List UInt8 × UInt32) → Prop
  | _, [] => True
  | nbFields, field :: fields => MetadataField nbFields field.1 field.2 ∧ MetadataFields (nbFields + 1) fields

def metadataText : List (List UInt8 × UInt32) → List UInt8
  | [] => []
  | [field] => field.1
  | field :: field' :: fields => field.1 ++ 32 :: metadataText (field' :: fields)

def setFields (d : LmodemFileCharacteristics) : ℕ → List (List UInt8 × UInt32) → LmodemFileCharacteristics
  | _, [] => d
  | nbFields, field :: fields => setFields (lymodemSetField d nbFields field.2) (nbFields + 1) fields

def fieldText (text : List UInt8) : List UInt8 := text.takeWhile (fun c => c ≠ 32 ∧ c ≠ 0)

def fieldNumber (nbFields : ℕ) (field : List UInt8) : ℕ × List UInt8 :=
  strtoul field (if nbFields = 0 then 10 else 8)

/-- The fields of a text, of which `left` are looked for from the place `nbFields` on, and whether
each of them is a number. -/
def readFields : ℕ → ℕ → List UInt8 → List (List UInt8 × UInt32) × Bool
  | 0, _, _ => ([], true)
  | left + 1, nbFields, text =>
    if text.headD 0 = 0 then ([], true)
    else
      let field := fieldText text
      let (r, rest) := fieldNumber nbFields field
      if rest = [] then
        let (fields, bResult) := readFields left (nbFields + 1) (text.drop (field.length + 1))
        ((field, r.toUInt32) :: fields, bResult)
      else ([(field, r.toUInt32)], false)

section Parse

variable {buffer : Memory UInt8} {pString pEnd nbFields left : ℕ} {text : List UInt8} {value : UInt32}
  {d : LmodemFileCharacteristics}

theorem fieldText_plain (text : List UInt8) : ∀ c ∈ fieldText text, c ≠ 32 ∧ c ≠ 0 := by
  intro c hc
  simpa using List.mem_takeWhile_imp hc

theorem fieldText_append {field : List UInt8} (plain : ∀ c ∈ field, c ≠ 32 ∧ c ≠ 0) {sep : UInt8}
    (hsep : sep = 32 ∨ sep = 0) (rest : List UInt8) : fieldText (field ++ sep :: rest) = field := by
  rw [fieldText, List.takeWhile_append_of_pos]
  · rcases hsep with rfl | rfl <;> simp
  · intro c hc
    simpa using plain c hc

theorem lymodemGetNextMetaDataString_eq (htext : buffer.load pString (pEnd - pString) = text) :
    lymodemGetNextMetaDataString buffer pString pEnd =
      if text.headD 0 = 0 then none
      else some (pString, buffer.store (pString + (fieldText text).length) [0],
        pString + (fieldText text).length + 1) := by
  subst text
  rw [lymodemGetNextMetaDataString]
  rcases Nat.lt_or_ge pString pEnd with h | h
  · obtain ⟨k, hk⟩ : ∃ k, pEnd - pString = k + 1 := ⟨pEnd - pString - 1, by omega⟩
    have head : (buffer.load pString (pEnd - pString)).headD 0 = buffer pString := by
      rw [hk, Memory.load_succ]
      rfl
    rw [head]
    simp only [Nat.not_le.mpr h, or_false]
    rfl
  · rw [Nat.sub_eq_zero_of_le h]
    simp [h]

theorem lymodemGetValue_field (htext : buffer.load pString (pEnd - pString) = text) (nbFields : ℕ) :
    lymodemGetValue (buffer.store (pString + (fieldText text).length) [0]) pString
        (pString + (fieldText text).length + 1) (if nbFields = 0 then 10 else 8) =
      ((fieldNumber nbFields (fieldText text)).1.toUInt32, decide ((fieldNumber nbFields (fieldText text)).2 = [])) := by
  have held : buffer.Holds pString (fieldText text) := by
    obtain ⟨rest, hrest⟩ := @List.takeWhile_prefix _ text (fun c => decide (c ≠ 32 ∧ c ≠ 0))
    have whole : buffer.Holds pString text := by
      rw [Memory.Holds, ← htext, Memory.load_length]
    rw [← hrest] at whole
    exact (Memory.holds_append.mp whole).1
  have string : cString ((buffer.store (pString + (fieldText text).length) [0]).shift pString)
      (pString + (fieldText text).length + 1 - pString) = fieldText text := by
    apply cString_eq _ (fun h => (fieldText_plain text 0 h).2 rfl) (by omega)
    rw [Memory.holds_shift, Nat.add_zero, Memory.holds_append]
    exact ⟨(Memory.holds_store_disjoint (Or.inl (Nat.le_refl _))).mpr held, Memory.holds_store _ _ _⟩
  rw [lymodemGetValue, string]
  rfl

theorem lymodemGetFields_succ (htext : buffer.load pString (pEnd - pString) = text) :
    lymodemGetFields pEnd (left + 1) nbFields buffer pString d =
      if text.headD 0 = 0 then (buffer, d, true)
      else
        let number := fieldNumber nbFields (fieldText text)
        let stored := buffer.store (pString + (fieldText text).length) [0]
        let d := lymodemSetField d nbFields number.1.toUInt32
        if number.2 = [] then
          lymodemGetFields pEnd left (nbFields + 1) stored (pString + (fieldText text).length + 1) d
        else (stored, d, false) := by
  rw [lymodemGetFields, lymodemGetNextMetaDataString_eq htext]
  by_cases hend : text.headD 0 = 0
  · simp only [if_pos hend]
  · simp only [if_neg hend, lymodemGetValue_field htext]
    by_cases hnumber : (fieldNumber nbFields (fieldText text)).2 = []
    · simp only [hnumber, decide_true, Bool.true_eq_false, ↓reduceIte]
    · simp only [hnumber, decide_false, ↓reduceIte]

theorem load_stored (htext : buffer.load pString (pEnd - pString) = text) (n : ℕ) :
    (buffer.store (pString + n) [0]).load (pString + n + 1) (pEnd - (pString + n + 1)) = text.drop (n + 1) := by
  rw [Memory.load_store_disjoint _ (Or.inr (by simp)), ← htext]
  rcases Nat.lt_or_ge (pString + n) pEnd with h | h
  · rw [Memory.load_drop _ (by omega), Nat.add_assoc, Nat.sub_sub]
  · rw [Nat.sub_eq_zero_of_le (by omega), List.drop_eq_nil_of_le]
    · rfl
    · rw [Memory.load_length]
      omega

theorem lymodemGetFields_eq (htext : buffer.load pString (pEnd - pString) = text) :
    (lymodemGetFields pEnd left nbFields buffer pString d).2 =
      (setFields d nbFields (readFields left nbFields text).1, (readFields left nbFields text).2) := by
  induction left generalizing nbFields buffer pString text d with
  | zero => rfl
  | succ left ih =>
    rw [lymodemGetFields_succ htext, readFields]
    by_cases hend : text.headD 0 = 0
    · simp only [if_pos hend]
      rfl
    · simp only [if_neg hend]
      by_cases hnumber : (fieldNumber nbFields (fieldText text)).2 = []
      · simp only [if_pos hnumber]
        rw [ih (load_stored htext _)]
        rfl
      · simp only [if_neg hnumber]
        rfl

theorem metadataText_head {nbFields : ℕ} {fields : List (List UInt8 × UInt32)}
    (h : MetadataFields nbFields fields) (hne : fields ≠ []) :
    ∃ c rest, metadataText fields = c :: rest ∧ c ≠ 0 := by
  match fields, h, hne with
  | [field], h, _ =>
    obtain ⟨c, rest, he⟩ := List.exists_cons_of_ne_nil h.1.nonempty
    exact ⟨c, rest, he, (h.1.plain c (by simp [he])).2⟩
  | field :: field' :: fields, h, _ =>
    obtain ⟨c, rest, he⟩ := List.exists_cons_of_ne_nil h.1.nonempty
    refine ⟨c, rest ++ 32 :: metadataText (field' :: fields), ?_, (h.1.plain c (by simp [he])).2⟩
    rw [metadataText, he, List.cons_append]

theorem readFields_cons {field : List UInt8} (nonempty : field ≠ []) (plain : ∀ c ∈ field, c ≠ 32 ∧ c ≠ 0)
    {sep : UInt8} (hsep : sep = 32 ∨ sep = 0) (left nbFields : ℕ) (rest : List UInt8) :
    readFields (left + 1) nbFields (field ++ sep :: rest) =
      let number := fieldNumber nbFields field
      let more := readFields left (nbFields + 1) rest
      if number.2 = [] then ((field, number.1.toUInt32) :: more.1, more.2)
      else ([(field, number.1.toUInt32)], false) := by
  have started : (field ++ sep :: rest).headD 0 ≠ 0 := by
    obtain ⟨c, more, rfl⟩ := List.exists_cons_of_ne_nil nonempty
    exact (plain c (by simp)).2
  have after : (field ++ sep :: rest).drop (field.length + 1) = rest := by
    rw [List.append_cons, List.drop_left' (by simp)]
  rw [readFields, if_neg started]
  simp only [fieldText_append plain hsep, after]

theorem MetadataField.read (h : MetadataField nbFields text value) {sep : UInt8} (hsep : sep = 32 ∨ sep = 0)
    (left : ℕ) (rest : List UInt8) :
    readFields (left + 1) nbFields (text ++ sep :: rest) =
      ((text, value) :: (readFields left (nbFields + 1) rest).1, (readFields left (nbFields + 1) rest).2) := by
  obtain ⟨r, hr, hv⟩ := h.number
  rw [readFields_cons h.nonempty h.plain hsep]
  simp only [fieldNumber, hr, hv, ↓reduceIte]

theorem readFields_end (left nbFields : ℕ) (rest : List UInt8) :
    readFields left nbFields (0 :: rest) = ([], true) := by
  cases left with
  | zero => rfl
  | succ left => rfl

theorem readFields_text {fields : List (List UInt8 × UInt32)} (h : MetadataFields nbFields fields)
    (hne : fields ≠ []) (hleft : fields.length ≤ left) (rest : List UInt8) :
    readFields left nbFields (metadataText fields ++ 0 :: 0 :: rest) = (fields, true) := by
  induction fields generalizing nbFields left with
  | nil => exact absurd rfl hne
  | cons field fields ih =>
    obtain ⟨hfield, hfields⟩ := h
    obtain ⟨left, rfl⟩ : ∃ n, left = n + 1 := ⟨left - 1, by simp only [List.length_cons] at hleft; omega⟩
    cases fields with
    | nil =>
      rw [metadataText, hfield.read (Or.inr rfl), readFields_end]
    | cons field' fields =>
      rw [metadataText, List.append_assoc, List.cons_append, hfield.read (Or.inl rfl),
        ih hfields (by simp) (by simpa using hleft)]

end Parse

section Decode

variable {pThis : ModemContext} {name : List UInt8} {fields : List (List UInt8 × UInt32)}

def ModemContext.withMetadata (pThis : ModemContext) (buffer dest : Memory UInt8)
    (fields : List (List UInt8 × UInt32)) : ModemContext :=
  { pThis with
    blkBuffer := { pThis.blkBuffer with buffer := buffer }
    fileData := setFields { lmodemMetadataClean pThis.fileData with
      filename := some dest, valid := lmodemMetadataFilenameValid } 0 fields }

def storedName (dest : Memory UInt8) (name : List UInt8) (last : ℕ) : Memory UInt8 :=
  ((dest.store 0 [0]).store 0 (name.take last ++ List.replicate (last - (name.take last).length) 0)).store last [0]

def metadataStart (pThis : ModemContext) (n : ℕ) : ℕ :=
  2 + n + ((pThis.blkBuffer.buffer.load (2 + n) pThis.blkBuffer.maxSize.toNat).takeWhile (· = 0)).length

def metadataFrom (pThis : ModemContext) (n : ℕ) : List UInt8 :=
  (pThis.blkBuffer.buffer.load (2 + n) pThis.blkBuffer.maxSize.toNat).dropWhile (· = 0)

theorem load_metadataStart (pThis : ModemContext) (n : ℕ) :
    pThis.blkBuffer.buffer.load (metadataStart pThis n)
      (2 + n + pThis.blkBuffer.maxSize.toNat - metadataStart pThis n) = metadataFrom pThis n := by
  have parts := @List.takeWhile_append_dropWhile _ (fun c : UInt8 => decide (c = 0))
    (pThis.blkBuffer.buffer.load (2 + n) pThis.blkBuffer.maxSize.toNat)
  have hlen := congrArg List.length parts
  rw [List.length_append, Memory.load_length] at hlen
  have hdrop := congrArg (List.drop (List.takeWhile (fun c : UInt8 => decide (c = 0))
    (pThis.blkBuffer.buffer.load (2 + n) pThis.blkBuffer.maxSize.toNat)).length) parts
  rw [List.drop_left, Memory.load_drop _ (by omega)] at hdrop
  rw [metadataFrom, hdrop, metadataStart]
  congr 1
  omega

theorem lymodemGetMetaData_eq {n : ℕ} (hn : (cString (pThis.fileData.filename.getD (.fresh 0))
      pThis.fileData.filenameSize.toNat).length = n) :
    lymodemGetMetaData pThis =
      ({ pThis with
          blkBuffer := { pThis.blkBuffer with
            buffer := (lymodemGetFields (2 + n + pThis.blkBuffer.maxSize.toNat) 4 0 pThis.blkBuffer.buffer
              (metadataStart pThis n) pThis.fileData).1 }
          fileData := setFields pThis.fileData 0 (readFields 4 0 (metadataFrom pThis n)).1 },
        (readFields 4 0 (metadataFrom pThis n)).2) := by
  have parsed := @lymodemGetFields_eq pThis.blkBuffer.buffer (metadataStart pThis n)
    (2 + n + pThis.blkBuffer.maxSize.toNat) 0 4 _ pThis.fileData (load_metadataStart pThis n)
  simp only [lymodemGetMetaData, hn, Nat.add_sub_cancel_left]
  change (if metadataStart pThis n < 2 + n + pThis.blkBuffer.maxSize.toNat then _ else _) = _
  split
  · exact congrArg (fun r : LmodemFileCharacteristics × Bool => (({ pThis with
      blkBuffer := { pThis.blkBuffer with
        buffer := (lymodemGetFields (2 + n + pThis.blkBuffer.maxSize.toNat) 4 0 pThis.blkBuffer.buffer
          (metadataStart pThis n) pThis.fileData).1 }
      fileData := r.1 } : ModemContext), r.2)) parsed
  · rename_i hend
    have nothing : lymodemGetFields (2 + n + pThis.blkBuffer.maxSize.toNat) 4 0 pThis.blkBuffer.buffer
        (metadataStart pThis n) pThis.fileData = (pThis.blkBuffer.buffer, pThis.fileData, true) := by
      rw [lymodemGetFields, lymodemGetNextMetaDataString, if_pos (Or.inr (Nat.not_lt.mp hend))]
    rw [nothing] at parsed ⊢
    obtain ⟨hfields, hresult⟩ := Prod.mk.inj parsed
    rw [← hfields, ← hresult]

theorem lymodemDecodeBlock0_reads {dest : Memory UInt8} (filename : pThis.fileData.filename = some dest)
    (capacity : 1 ≤ pThis.fileData.filenameSize.toNat) (started : pThis.blkBuffer.buffer 2 ≠ 0) :
    let last := pThis.fileData.filenameSize.toNat - 1
    let n := (cString (pThis.blkBuffer.buffer.shift 2) last).length
    let fileData := { lmodemMetadataClean pThis.fileData with
      filename := some ((strncpy (dest.store 0 [0]) 0 (pThis.blkBuffer.buffer.shift 2) last).store last [0])
      valid := lmodemMetadataFilenameValid }
    lymodemDecodeBlock0 pThis =
      ({ pThis with
          blkBuffer := { pThis.blkBuffer with
            buffer := (lymodemGetFields (2 + n + pThis.blkBuffer.maxSize.toNat) 4 0 pThis.blkBuffer.buffer
              (metadataStart pThis n) fileData).1 }
          fileData := setFields fileData 0 (readFields 4 0 (metadataFrom pThis n)).1 },
        (readFields 4 0 (metadataFrom pThis n)).2) := by
  intro last n fileData
  have hlast : (pThis.fileData.filenameSize - 1).toNat = last := toNat_sub_of_le capacity
  have cleaned : (lmodemMetadataClean pThis.fileData).filenameSize = pThis.fileData.filenameSize := rfl
  have name' : (lmodemMetadataClean pThis.fileData).filename = some (dest.store 0 [0]) := by
    rw [lmodemMetadataClean, filename]
    rfl
  have valid : (lmodemMetadataClean pThis.fileData).valid ||| lmodemMetadataFilenameValid =
      lmodemMetadataFilenameValid := show (0 : UInt32) ||| 0x01 = 0x01 by decide
  have string : cString ((strncpy (dest.store 0 [0]) 0 (pThis.blkBuffer.buffer.shift 2) last).store last [0])
      pThis.fileData.filenameSize.toNat = cString (pThis.blkBuffer.buffer.shift 2) last := by
    rw [← Nat.sub_add_cancel capacity]
    exact cString_strncpy _ _ _
  simp only [lymodemDecodeBlock0, started, ↓reduceIte, cleaned, name', Option.map_some, hlast, valid]
  exact lymodemGetMetaData_eq (congrArg List.length string)

theorem lymodemDecodeBlock0_eq {dest : Memory UInt8} (filename : pThis.fileData.filename = some dest)
    (capacity : 1 ≤ pThis.fileData.filenameSize.toNat) (hname : name ≠ []) (plain : 0 ∉ name)
    (content : pThis.blkBuffer.buffer.Holds 2 (name ++ [0])) :
    let last := pThis.fileData.filenameSize.toNat - 1
    let n := (name.take last).length
    let fileData := { lmodemMetadataClean pThis.fileData with
      filename := some (storedName dest name last), valid := lmodemMetadataFilenameValid }
    cString (storedName dest name last) pThis.fileData.filenameSize.toNat = name.take last ∧
    lymodemDecodeBlock0 pThis =
      ({ pThis with
          blkBuffer := { pThis.blkBuffer with
            buffer := (lymodemGetFields (2 + n + pThis.blkBuffer.maxSize.toNat) 4 0 pThis.blkBuffer.buffer
              (metadataStart pThis n) fileData).1 }
          fileData := setFields fileData 0 (readFields 4 0 (metadataFrom pThis n)).1 },
        (readFields 4 0 (metadataFrom pThis n)).2) := by
  intro last n fileData
  have started : pThis.blkBuffer.buffer 2 ≠ 0 := by
    obtain ⟨c, rest, rfl⟩ := List.exists_cons_of_ne_nil hname
    rw [List.cons_append, Memory.holds_cons] at content
    rw [content.1]
    exact fun h0 => plain (by simp [h0])
  have source : (pThis.blkBuffer.buffer.shift 2).Holds 0 (name ++ [0]) := Memory.holds_shift.mpr content
  have taken : cString (pThis.blkBuffer.buffer.shift 2) last = name.take last := cString_take plain source last
  have copied : (strncpy (dest.store 0 [0]) 0 (pThis.blkBuffer.buffer.shift 2) last).store last [0] =
      storedName dest name last := by
    rw [strncpy, taken, storedName]
  constructor
  · rw [← copied, ← Nat.sub_add_cancel capacity, ← taken]
    exact cString_strncpy _ _ _
  · have decoded := lymodemDecodeBlock0_reads filename capacity started
    simp only at decoded
    rw [show pThis.fileData.filenameSize.toNat - 1 = last from rfl, taken, copied] at decoded
    exact decoded

theorem metadataFrom_cut {tail : List UInt8} {k : ℕ} (content : pThis.blkBuffer.buffer.Holds 2 (name ++ tail))
    (hk : k ≤ name.length) (room : (name.drop k ++ tail).length ≤ pThis.blkBuffer.maxSize.toNat) :
    ∃ more, metadataFrom pThis k = (name.drop k ++ (tail ++ more)).dropWhile (fun c => decide (c = 0)) := by
  obtain ⟨j, hj⟩ := Nat.exists_eq_add_of_le room
  have held : pThis.blkBuffer.buffer.Holds (2 + k) (name.drop k ++ tail) := by
    rw [← List.take_append_drop k name, List.append_assoc, Memory.holds_append, List.length_take,
      Nat.min_eq_left hk] at content
    exact content.2
  refine ⟨pThis.blkBuffer.buffer.load (2 + k + (name.drop k ++ tail).length) j, ?_⟩
  rw [metadataFrom, hj, Memory.load_add, held, List.append_assoc]

theorem lymodemDecodeBlock0_text {dest : Memory UInt8} (filename : pThis.fileData.filename = some dest)
    (hname : name ≠ []) (plain : 0 ∉ name) (size : name.length < pThis.fileData.filenameSize.toNat)
    (hfields : MetadataFields 0 fields) (hne : fields ≠ []) (hlen : fields.length ≤ 4)
    (content : pThis.blkBuffer.buffer.Holds 2 (name ++ 0 :: (metadataText fields ++ [0, 0])))
    (room : (metadataText fields).length + 2 < pThis.blkBuffer.maxSize.toNat) :
    ∃ buffer' dest', cString dest' pThis.fileData.filenameSize.toNat = name ∧
      lymodemDecodeBlock0 pThis = (pThis.withMetadata buffer' dest' fields, true) := by
  have whole : name.take (pThis.fileData.filenameSize.toNat - 1) = name :=
    List.take_of_length_le (by omega)
  obtain ⟨hcontent, htail⟩ := Memory.holds_append.mp content
  have ended : pThis.blkBuffer.buffer.Holds 2 (name ++ [0]) := by
    rw [Memory.holds_append]
    exact ⟨hcontent, Memory.holds_cons.mpr ⟨(Memory.holds_cons.mp htail).1, Memory.holds_nil⟩⟩
  obtain ⟨string, decoded⟩ := lymodemDecodeBlock0_eq filename (show 1 ≤ _ by omega) hname plain ended
  obtain ⟨more, hmore⟩ := metadataFrom_cut content (Nat.le_refl _) (by
    simp only [List.drop_length, List.length_append, List.length_cons, List.length_nil]
    omega)
  rw [List.cons_append, List.append_assoc, List.cons_append, List.singleton_append] at hmore
  obtain ⟨c, rest, htext, hc⟩ := metadataText_head hfields hne
  have started : (0 :: (metadataText fields ++ 0 :: 0 :: more)).dropWhile (fun c => decide (c = 0)) =
      metadataText fields ++ 0 :: 0 :: more := by
    rw [htext, List.dropWhile_cons_of_pos (by simp), List.cons_append,
      List.dropWhile_cons_of_neg (by simpa using hc)]
  rw [List.drop_length, List.nil_append, started] at hmore
  simp only [whole, hmore, readFields_text hfields hne hlen] at string decoded
  exact ⟨_, _, string, decoded⟩

end Decode

theorem or_and_of_and {v f b : UInt32} (h : v &&& b = b) : (v ||| f) &&& b = b := by
  have absorb (x y z : Bool) (h : (x && z) = z) : ((x || y) && z) = z := by
    revert x y z
    decide
  have hbits := UInt32.toBitVec_inj.mpr h
  apply UInt32.toBitVec_inj.mp
  apply BitVec.eq_of_getLsbD_eq
  intro i _
  rw [UInt32.toBitVec_and, UInt32.toBitVec_or, BitVec.getLsbD_and, BitVec.getLsbD_or]
  apply absorb
  rw [← BitVec.getLsbD_and, ← UInt32.toBitVec_and, hbits]

theorem setFields_later {d : LmodemFileCharacteristics} {nbFields : ℕ} (hpos : 0 < nbFields)
    (fields : List (List UInt8 × UInt32)) :
    (setFields d nbFields fields).size = d.size ∧
      (d.isValid lmodemMetadataFilesizeValid = true →
        (setFields d nbFields fields).isValid lmodemMetadataFilesizeValid = true) := by
  induction fields generalizing d nbFields with
  | nil => exact ⟨rfl, id⟩
  | cons field fields ih =>
    obtain ⟨hsize, hvalid⟩ := @ih (lymodemSetField d nbFields field.2) (nbFields + 1) (by omega)
    have step : (lymodemSetField d nbFields field.2).size = d.size ∧
        (d.isValid lmodemMetadataFilesizeValid = true →
          (lymodemSetField d nbFields field.2).isValid lmodemMetadataFilesizeValid = true) := by
      have flag (f : UInt32) (h : d.isValid lmodemMetadataFilesizeValid = true) :
          decide ((d.valid ||| f) &&& lmodemMetadataFilesizeValid = lmodemMetadataFilesizeValid) = true := by
        rw [LmodemFileCharacteristics.isValid, decide_eq_true_eq] at h
        exact decide_eq_true (or_and_of_and h)
      match nbFields, hpos with
      | 1, _ => exact ⟨rfl, flag _⟩
      | 2, _ => exact ⟨rfl, flag _⟩
      | 3, _ => exact ⟨rfl, flag _⟩
      | n + 4, _ => exact ⟨rfl, id⟩
    exact ⟨hsize.trans step.1, fun h => hvalid (step.2 h)⟩

def LmodemFileCharacteristics.fields (d : LmodemFileCharacteristics) : List (List UInt8 × UInt32) :=
  [(printInt d.size.toInt32.toInt, d.size), (printNat 8 d.modifDate.toNat, d.modifDate),
    (printNat 8 (d.permission ||| 0x8000).toNat, (d.permission ||| 0x8000).toUInt32),
    (printNat 8 d.serialNumber.toNat, d.serialNumber)].take (lymodemNbMetaData d)

section Format

variable {d : LmodemFileCharacteristics}

theorem metadataField_printInt (value : UInt32) : MetadataField 0 (printInt value.toInt32.toInt) value :=
  ⟨printInt_ne_nil _, printInt_plain, strtoul_printInt value⟩

theorem metadataField_printNat {nbFields : ℕ} (hpos : 0 < nbFields) (value : UInt32) :
    MetadataField nbFields (printNat 8 value.toNat) value := by
  have := value.toNat_lt
  refine ⟨printNat_ne_nil _ _, ?_, value.toNat, ?_, UInt32.ofNat_toNat⟩
  · intro c hc
    obtain ⟨h32, h0, _⟩ := isdigit_plain (by decide) (isdigit_printNat (by decide) (by decide) _ c hc)
    exact ⟨h32, h0⟩
  · rw [if_neg (by omega)]
    apply strtoul_printNat (by decide) (by decide)
    rw [ulongMax]
    omega

theorem MetadataFields.take {nbFields : ℕ} {fields : List (List UInt8 × UInt32)}
    (h : MetadataFields nbFields fields) (n : ℕ) : MetadataFields nbFields (fields.take n) := by
  induction fields generalizing nbFields n with
  | nil => simpa using h
  | cons field fields ih =>
    cases n with
    | zero => trivial
    | succ n => exact ⟨h.1, ih h.2 n⟩

theorem metadataFields_fields (d : LmodemFileCharacteristics) : MetadataFields 0 d.fields := by
  have permission := @metadataField_printNat 2 (by decide) (d.permission ||| 0x8000).toUInt32
  rw [UInt16.toNat_toUInt32] at permission
  apply MetadataFields.take
  exact ⟨metadataField_printInt _, metadataField_printNat (by decide) _, permission,
    metadataField_printNat (by decide) _, trivial⟩

theorem lymodemNbMetaData_le (d : LmodemFileCharacteristics) : lymodemNbMetaData d ≤ 4 := by
  unfold lymodemNbMetaData
  split_ifs <;> decide

theorem lymodemNbMetaData_pos (h : d.isValid lmodemMetadataFilesizeValid = true) :
    1 ≤ lymodemNbMetaData d := by
  simp only [lymodemNbMetaData, h, ↓reduceIte]
  omega

theorem fields_length_le (d : LmodemFileCharacteristics) : d.fields.length ≤ 4 := by
  rw [LmodemFileCharacteristics.fields, List.length_take]
  exact Nat.min_le_right _ _

theorem fields_eq_cons (h : 1 ≤ lymodemNbMetaData d) : ∃ text fields, d.fields = (text, d.size) :: fields := by
  obtain ⟨n, hn⟩ : ∃ n, lymodemNbMetaData d = n + 1 := ⟨lymodemNbMetaData d - 1, by omega⟩
  rw [LmodemFileCharacteristics.fields, hn, List.take_succ_cons]
  exact ⟨_, _, rfl⟩

theorem setFields_fields (h : d.isValid lmodemMetadataFilesizeValid = true)
    (d' : LmodemFileCharacteristics) :
    (setFields d' 0 d.fields).size = d.size ∧
      (setFields d' 0 d.fields).isValid lmodemMetadataFilesizeValid = true := by
  obtain ⟨text, fields, hfields⟩ := fields_eq_cons (lymodemNbMetaData_pos h)
  obtain ⟨hsize, hvalid⟩ := @setFields_later (lymodemSetField d' 0 d.size) 1 (by decide) fields
  rw [hfields, setFields]
  refine ⟨hsize, hvalid (decide_eq_true ?_)⟩
  change (d'.valid ||| lmodemMetadataFilesizeValid) &&& lmodemMetadataFilesizeValid = _
  rw [UInt32.or_comm]
  exact or_and_of_and (by decide)

theorem lymodemFormat_eq (d : LmodemFileCharacteristics) :
    lymodemFormat d (lymodemNbMetaData d) = metadataText d.fields := by
  have hle := lymodemNbMetaData_le d
  rw [LmodemFileCharacteristics.fields]
  generalize lymodemNbMetaData d = n at hle
  match n, hle with
  | 0, _ => rfl
  | 1, _ => rfl
  | 2, _ => rfl
  | 3, _ => simp [lymodemFormat, metadataText]
  | 4, _ => simp [lymodemFormat, metadataText]

theorem metadataText_length (d : LmodemFileCharacteristics) : (metadataText d.fields).length ≤ 42 := by
  have hsize := printInt_length_le d.size
  have hmodif : (printNat 8 d.modifDate.toNat).length ≤ 11 :=
    printNat_length_le (by decide) (by decide) (lt_of_lt_of_le d.modifDate.toNat_lt (by decide))
  have hperm : (printNat 8 (d.permission ||| 0x8000).toNat).length ≤ 6 :=
    printNat_length_le (by decide) (by decide)
      (lt_of_lt_of_le (d.permission ||| 0x8000).toNat_lt (by decide))
  have hserial : (printNat 8 d.serialNumber.toNat).length ≤ 11 :=
    printNat_length_le (by decide) (by decide) (lt_of_lt_of_le d.serialNumber.toNat_lt (by decide))
  have hle := lymodemNbMetaData_le d
  rw [LmodemFileCharacteristics.fields]
  generalize lymodemNbMetaData d = n at hle
  match n, hle with
  | 0, _ => exact Nat.zero_le _
  | 1, _ => simp only [metadataText, List.take]; omega
  | 2, _ => simp only [metadataText, List.take, List.length_append, List.length_cons]; omega
  | 3, _ => simp only [metadataText, List.take, List.length_append, List.length_cons]; omega
  | 4, _ => simp only [metadataText, List.take, List.length_append, List.length_cons]; omega

end Format

end LightModem
