import LightModem.MetadataStrings
import LightModem.Payload
import LightModem.RoundTrip

set_option autoImplicit false

namespace LightModem

def storedNumber (nbFields : ℕ) (s : List UInt8) : UInt32 :=
  let value := (fieldNumber nbFields s).1.toUInt32
  if nbFields = 2 then keptPermission value else value

/-- Place by place, the strings of two lists begin with the same number, up to the first that are no numerals. -/
def ReadAlike : ℕ → List (List UInt8) → List (List UInt8) → Prop
  | _, [], [] => True
  | nbFields, s :: strings, s' :: strings' =>
    storedNumber nbFields s = storedNumber nbFields s' ∧
      (IsNumeral (fieldBase nbFields) s ∧ IsNumeral (fieldBase nbFields) s' ∧
          ReadAlike (nbFields + 1) strings strings' ∨
        ¬ IsNumeral (fieldBase nbFields) s ∧ ¬ IsNumeral (fieldBase nbFields) s')
  | _, [], _ :: _ => False
  | _, _ :: _, [] => False

instance decidableReadAlike : ∀ nbFields strings strings', Decidable (ReadAlike nbFields strings strings')
  | _, [], [] => isTrue trivial
  | nbFields, _ :: strings, _ :: strings' =>
    haveI := decidableReadAlike (nbFields + 1) strings strings'
    inferInstanceAs (Decidable (_ ∧ _))
  | _, [], _ :: _ => isFalse id
  | _, _ :: _, [] => isFalse id

/-- The strings behind the first `s - 1` characters of a name before a text: those of the text when the name is
shorter than `s`, and otherwise those of its tail as well, which are the last when it ends with a space. -/
def stringsFrom (name text : List UInt8) (s : ℕ) : List (List UInt8) :=
  if name.length < s then spacedStrings text
  else if name.getLast? = some 32 then spacedStrings (name.drop (s - 1))
  else spacedStrings (name.drop (s - 1)) ++ spacedStrings text

@[mk_iff] structure SameNumbers (d d' : LmodemFileCharacteristics) : Prop where
  valid : d.valid = d'.valid
  size : d.size = d'.size
  modifDate : d.modifDate = d'.modifDate
  permission : d.permission = d'.permission
  serialNumber : d.serialNumber = d'.serialNumber

section Fields

variable {d d' : LmodemFileCharacteristics} {fields fields' : List (List UInt8 × UInt32)}

theorem metadataMask_inj {n n' : ℕ} (hn : n ≤ 4) (hn' : n' ≤ 4) (h : metadataMask n = metadataMask n') :
    n = n' := by
  interval_cases n <;> interval_cases n' <;> revert h <;> decide

theorem setFields_valid (hd : d.valid = lmodemMetadataFilenameValid) (hlen : fields.length ≤ 4) :
    (setFields d 0 fields).valid = metadataMask fields.length := by
  match fields, hlen with
  | [], _ => simp [setFields, metadataMask, hd]
  | [_], _ => simp [setFields, lymodemSetField, metadataMask, hd]
  | [_, _], _ => simp [setFields, lymodemSetField, metadataMask, hd]
  | [_, _, _], _ => simp [setFields, lymodemSetField, metadataMask, hd]
  | [_, _, _, _], _ => simp [setFields, lymodemSetField, metadataMask, hd]

theorem sameNumbers_numbers : SameNumbers d d' ↔ d.valid = d'.valid ∧ d.numbers = d'.numbers := by
  rw [sameNumbers_iff]
  simp only [LmodemFileCharacteristics.numbers, List.cons.injEq, and_true, UInt16.toUInt32_inj]

theorem setFields_sameNumbers_iff (hd : d.valid = lmodemMetadataFilenameValid) (same : SameNumbers d d')
    (hlen : fields.length ≤ 4) (hlen' : fields'.length ≤ 4) :
    SameNumbers (setFields d 0 fields) (setFields d' 0 fields') ↔ fieldValues 0 fields = fieldValues 0 fields' := by
  obtain ⟨valid, numbers⟩ := sameNumbers_numbers.mp same
  have count (fields : List (List UInt8 × UInt32)) : (fieldValues 0 fields).length = fields.length := by
    simp [fieldValues]
  rw [sameNumbers_numbers, setFields_valid hd hlen, setFields_valid (valid.symm.trans hd) hlen', setFields_numbers hlen,
    setFields_numbers hlen', numbers]
  constructor
  · rintro ⟨mask, whole⟩
    have lengths := metadataMask_inj hlen hlen' mask
    exact (List.append_inj whole (by rw [count, count, lengths])).1
  · intro values
    have lengths : fields.length = fields'.length := by rw [← count, values, count]
    rw [values, lengths]
    exact ⟨rfl, rfl⟩

theorem SameNumbers.symm (h : SameNumbers d d') : SameNumbers d' d :=
  ⟨h.valid.symm, h.size.symm, h.modifDate.symm, h.permission.symm, h.serialNumber.symm⟩

theorem SameNumbers.trans {d'' : LmodemFileCharacteristics} (h : SameNumbers d d') (h' : SameNumbers d' d'') :
    SameNumbers d d'' :=
  ⟨h.valid.trans h'.valid, h.size.trans h'.size, h.modifDate.trans h'.modifDate,
    h.permission.trans h'.permission, h.serialNumber.trans h'.serialNumber⟩

end Fields

section Alike

variable {left nbFields : ℕ} {text text' : List UInt8} {strings strings' : List (List UInt8)}

theorem readAlike_refl (nbFields : ℕ) (strings : List (List UInt8)) : ReadAlike nbFields strings strings := by
  induction strings generalizing nbFields with
  | nil => trivial
  | cons s strings ih =>
    refine ⟨rfl, ?_⟩
    by_cases numeral : IsNumeral (fieldBase nbFields) s
    · exact Or.inl ⟨numeral, numeral, ih _⟩
    · exact Or.inr ⟨numeral, numeral⟩

theorem ReadAlike.length (h : ReadAlike nbFields strings strings') (numerals : Numerals nbFields strings') :
    strings.length = strings'.length := by
  induction strings generalizing nbFields strings' with
  | nil =>
    cases strings' with
    | nil => rfl
    | cons s' strings' => cases h
  | cons s strings ih =>
    cases strings' with
    | nil => cases h
    | cons s' strings' =>
      obtain ⟨_, ⟨_, _, later⟩ | ⟨_, other⟩⟩ := h
      · exact congrArg (· + 1) (ih later numerals.2)
      · exact absurd numerals.1 other

theorem fieldValues_cons (field : List UInt8 × UInt32) (fields : List (List UInt8 × UInt32)) :
    fieldValues nbFields (field :: fields) =
      (if nbFields = 2 then keptPermission field.2 else field.2) :: fieldValues (nbFields + 1) fields := by
  rw [fieldValues, List.mapIdx_cons, fieldValues]
  simp only [Nat.add_assoc, Nat.add_comm 1]
  rfl

theorem readFields_numeral (started : text.headD 0 ≠ 0) (numeral : IsNumeral (fieldBase nbFields) (fieldText text)) :
    readFields (left + 1) nbFields text =
      ((fieldText text, (fieldNumber nbFields (fieldText text)).1.toUInt32) ::
        (readFields left (nbFields + 1) (text.drop ((fieldText text).length + 1))).1,
      (readFields left (nbFields + 1) (text.drop ((fieldText text).length + 1))).2) := by
  rw [readFields, if_neg started]
  simp only [if_pos (fieldNumber_rest_iff.mpr numeral)]

theorem readFields_other (started : text.headD 0 ≠ 0) (other : ¬ IsNumeral (fieldBase nbFields) (fieldText text)) :
    readFields (left + 1) nbFields text =
      ([(fieldText text, (fieldNumber nbFields (fieldText text)).1.toUInt32)], false) := by
  rw [readFields, if_neg started]
  simp only [if_neg (fieldNumber_rest_iff.not.mpr other)]

theorem readFields_started (started : text.headD 0 ≠ 0) : (readFields (left + 1) nbFields text).1 ≠ [] := by
  by_cases numeral : IsNumeral (fieldBase nbFields) (fieldText text)
  · rw [readFields_numeral started numeral]
    exact List.cons_ne_nil _ _
  · rw [readFields_other started numeral]
    exact List.cons_ne_nil _ _

theorem readFields_refused (h : (readFields left nbFields text).2 = false) :
    (readFields left nbFields text).1 ≠ [] := by
  cases left with
  | zero => cases h
  | succ left =>
    apply readFields_started
    intro hend
    rw [readFields, if_pos hend] at h
    cases h

theorem fieldValues_eq_nil {fields : List (List UInt8 × UInt32)} : fieldValues nbFields fields = [] ↔ fields = [] :=
  List.mapIdx_eq_nil_iff

def SameReading (left nbFields : ℕ) (text text' : List UInt8) : Prop :=
  (readFields left nbFields text).2 = (readFields left nbFields text').2 ∧
    fieldValues nbFields (readFields left nbFields text).1 = fieldValues nbFields (readFields left nbFields text').1

theorem SameReading.symm (h : SameReading left nbFields text text') : SameReading left nbFields text' text :=
  ⟨h.1.symm, h.2.symm⟩

theorem not_sameReading_ended (hend : text.headD 0 = 0) (started : text'.headD 0 ≠ 0) :
    ¬ SameReading (left + 1) nbFields text text' := by
  rintro ⟨_, values⟩
  rw [readFields, if_pos hend] at values
  exact readFields_started started (fieldValues_eq_nil.mp values.symm)

theorem not_sameReading_other (started : text.headD 0 ≠ 0) (started' : text'.headD 0 ≠ 0)
    (numeral : IsNumeral (fieldBase nbFields) (fieldText text))
    (other : ¬ IsNumeral (fieldBase nbFields) (fieldText text')) : ¬ SameReading (left + 1) nbFields text text' := by
  rintro ⟨verdict, values⟩
  rw [readFields_numeral started numeral, readFields_other started' other] at verdict values
  rw [fieldValues_cons, fieldValues_cons, List.cons.injEq] at values
  exact readFields_refused verdict (fieldValues_eq_nil.mp values.2)

theorem sameReading_iff :
    SameReading left nbFields text text' ↔ ReadAlike nbFields (scanned left text) (scanned left text') := by
  -- where both texts go on with numerals, the readings go on; all other cases are settled by the first strings
  induction left generalizing nbFields text text' with
  | zero => exact iff_of_true ⟨rfl, rfl⟩ trivial
  | succ left ih =>
    by_cases hend : text.headD 0 = 0 <;> by_cases hend' : text'.headD 0 = 0
    · simp only [SameReading, readFields, scanned, if_pos hend, if_pos hend', ReadAlike, and_self]
    · simp only [scanned, if_pos hend, if_neg hend', ReadAlike]
      exact iff_false_intro (not_sameReading_ended hend hend')
    · simp only [scanned, if_neg hend, if_pos hend', ReadAlike]
      exact iff_false_intro fun h => not_sameReading_ended hend' hend h.symm
    · simp only [scanned, if_neg hend, if_neg hend', ReadAlike]
      by_cases numeral : IsNumeral (fieldBase nbFields) (fieldText text) <;>
        by_cases numeral' : IsNumeral (fieldBase nbFields) (fieldText text')
      · rw [← ih]
        simp only [SameReading, readFields_numeral hend numeral, readFields_numeral hend' numeral', fieldValues_cons,
          List.cons.injEq, numeral, numeral', storedNumber]
        tauto
      · refine iff_of_false (not_sameReading_other hend hend' numeral numeral') ?_
        tauto
      · refine iff_of_false (fun h => not_sameReading_other hend' hend numeral' numeral h.symm) ?_
        tauto
      · simp only [SameReading, readFields_other hend numeral, readFields_other hend' numeral', fieldValues_cons,
          List.cons.injEq, numeral, numeral', storedNumber]
        tauto

end Alike

section Truncation

variable {pThis : ModemContext} {name : List UInt8}

structure OnlyTruncates (pThis : ModemContext) (name : List UInt8) (dest : Memory UInt8) (s : UInt32)
    (dest' : Memory UInt8) (s' : UInt32) : Prop where
  verdict : (lymodemDecodeBlock0 (lmodemSetFilenameBuffer pThis dest s)).2 =
    (lymodemDecodeBlock0 (lmodemSetFilenameBuffer pThis dest' s')).2
  numbers : SameNumbers (lymodemDecodeBlock0 (lmodemSetFilenameBuffer pThis dest s)).1.fileData
    (lymodemDecodeBlock0 (lmodemSetFilenameBuffer pThis dest' s')).1.fileData
  stored : ((lymodemDecodeBlock0 (lmodemSetFilenameBuffer pThis dest s)).1.fileData.filename.map
    fun m => cString m s.toNat) = some (name.take (s.toNat - 1))
  stored' : ((lymodemDecodeBlock0 (lmodemSetFilenameBuffer pThis dest' s')).1.fileData.filename.map
    fun m => cString m s'.toNat) = some (name.take (s'.toNat - 1))

theorem lymodemDecodeBlock0_capacity {dest : Memory UInt8} {s : UInt32} (hs : 2 ≤ s.toNat) (nonempty : name ≠ [])
    (plain : 0 ∉ name) (content : pThis.blkBuffer.buffer.Holds 2 (name ++ [0])) :
    (lymodemDecodeBlock0 (lmodemSetFilenameBuffer pThis dest s)).2 =
      (readFields 4 0 (metadataFrom pThis (name.take (s.toNat - 1)).length)).2 ∧
    (∃ d : LmodemFileCharacteristics, (lymodemDecodeBlock0 (lmodemSetFilenameBuffer pThis dest s)).1.fileData =
        setFields d 0 (readFields 4 0 (metadataFrom pThis (name.take (s.toNat - 1)).length)).1 ∧
      d.valid = lmodemMetadataFilenameValid ∧
      SameNumbers d { lmodemMetadataClean pThis.fileData with valid := lmodemMetadataFilenameValid }) ∧
    ((lymodemDecodeBlock0 (lmodemSetFilenameBuffer pThis dest s)).1.fileData.filename.map
      fun m => cString m s.toNat) = some (name.take (s.toNat - 1)) := by
  obtain ⟨string, decoded⟩ := @lymodemDecodeBlock0_eq (lmodemSetFilenameBuffer pThis dest s) name dest rfl
    (show 1 ≤ s.toNat by omega) nonempty plain content
  simp only at string decoded
  rw [decoded]
  refine ⟨rfl, ⟨_, rfl, rfl, ⟨rfl, rfl, rfl, rfl, rfl⟩⟩, ?_⟩
  rw [setFields_filename]
  exact congrArg some string

theorem onlyTruncates_iff {dest dest' : Memory UInt8} {s s' : UInt32} (hs : 2 ≤ s.toNat) (hs' : 2 ≤ s'.toNat)
    (nonempty : name ≠ []) (plain : 0 ∉ name) (content : pThis.blkBuffer.buffer.Holds 2 (name ++ [0])) :
    OnlyTruncates pThis name dest s dest' s' ↔
      ReadAlike 0 (scanned 4 (metadataFrom pThis (min name.length (s.toNat - 1))))
        (scanned 4 (metadataFrom pThis (min name.length (s'.toNat - 1)))) := by
  obtain ⟨verdict, ⟨d, hdata, hvalid, hnumbers⟩, stored⟩ :=
    @lymodemDecodeBlock0_capacity pThis name dest s hs nonempty plain content
  obtain ⟨verdict', ⟨d', hdata', _, hnumbers'⟩, stored'⟩ :=
    @lymodemDecodeBlock0_capacity pThis name dest' s' hs' nonempty plain content
  have agree := setFields_sameNumbers_iff hvalid (hnumbers.trans hnumbers'.symm)
    (readFields_length_le 4 0 (metadataFrom pThis (name.take (s.toNat - 1)).length))
    (readFields_length_le 4 0 (metadataFrom pThis (name.take (s'.toNat - 1)).length))
  have reading : OnlyTruncates pThis name dest s dest' s' ↔
      SameReading 4 0 (metadataFrom pThis (name.take (s.toNat - 1)).length)
        (metadataFrom pThis (name.take (s'.toNat - 1)).length) := by
    constructor
    · intro h
      have hverdict := h.verdict
      have hsame := h.numbers
      rw [verdict, verdict'] at hverdict
      rw [hdata, hdata'] at hsame
      exact ⟨hverdict, agree.mp hsame⟩
    · rintro ⟨hverdict, hvalues⟩
      refine ⟨by rw [verdict, verdict', hverdict], ?_, stored, stored'⟩
      rw [hdata, hdata']
      exact agree.mpr hvalues
  rw [reading, sameReading_iff, List.length_take, List.length_take, Nat.min_comm, Nat.min_comm _ name.length]

theorem cut_tail (plain : 0 ∉ name) {s : ℕ} (hs : 1 ≤ s) (cut : s ≤ name.length) :
    name.drop (s - 1) ≠ [] ∧ 0 ∉ name.drop (s - 1) ∧ (name.drop (s - 1)).getLast? = name.getLast? := by
  refine ⟨?_, fun h => plain (List.mem_of_mem_drop h), ?_⟩
  · rw [Ne, List.drop_eq_nil_iff]
    omega
  · rw [List.getLast?_drop, if_neg (by omega)]

theorem scanned_stringsFrom {text : List UInt8} (plain : 0 ∉ name) (htext : text ≠ []) (nulls : 0 ∉ text) {s : ℕ}
    (hs : 1 ≤ s) (behind : List UInt8) :
    ∃ left, (left = 0 ∨ left + (spacedStrings text).length ≤ 4) ∧
      scanned 4 ((name.drop (min name.length (s - 1)) ++ 0 :: (text ++ 0 :: behind)).dropWhile
        (fun c => decide (c = 0))) = (stringsFrom name text s).take 4 ++ scanned left behind := by
  have fields (left : ℕ) : ∃ more, (more = 0 ∨ more + (spacedStrings text).length ≤ left) ∧
      scanned left (text ++ 0 :: behind) = (spacedStrings text).take left ++ scanned more behind := by
    rw [scanned_text nulls]
    split
    · exact ⟨0, Or.inl rfl, rfl⟩
    · exact ⟨left - (spacedStrings text).length, by omega, rfl⟩
  rw [stringsFrom]
  by_cases fits : name.length < s
  · obtain ⟨more, few, found⟩ := fields 4
    obtain ⟨c, rest, rfl⟩ := List.exists_cons_of_ne_nil htext
    have hc : c ≠ 0 := ne_of_mem_of_not_mem List.mem_cons_self nulls
    refine ⟨more, few, ?_⟩
    rw [if_pos fits, Nat.min_eq_left (by omega), List.drop_length, List.nil_append,
      List.dropWhile_cons_of_pos (by simp), List.cons_append, List.dropWhile_cons_of_neg (by simpa using hc),
      ← List.cons_append, found]
  · obtain ⟨uncut, tail, last⟩ := cut_tail plain hs (Nat.le_of_not_lt fits)
    obtain ⟨more, few, found⟩ := fields (4 - (spacedStrings (name.drop (s - 1))).length)
    obtain ⟨c, rest, htail⟩ := List.exists_cons_of_ne_nil uncut
    have started : (name.drop (s - 1) ++ 0 :: (text ++ 0 :: behind)).dropWhile (fun c => decide (c = 0)) =
        name.drop (s - 1) ++ 0 :: (text ++ 0 :: behind) := by
      have hc : c ≠ 0 := ne_of_mem_of_not_mem (by simp [htail]) tail
      rw [htail, List.cons_append, List.dropWhile_cons_of_neg (by simpa using hc)]
    rw [if_neg fits, Nat.min_eq_right (by omega), started, scanned_text tail, found]
    simp only [splitOn_last uncut, last]
    split
    · exact ⟨0, Or.inl rfl, rfl⟩
    · exact ⟨more, by omega, by rw [List.take_append, List.append_assoc]⟩

theorem scanned_cut {text : List UInt8} (plain : 0 ∉ name) (htext : text ≠ []) (nulls : 0 ∉ text)
    (payload : pThis.blkBuffer.buffer.Holds 2 (name ++ 0 :: (text ++ [0, 0])))
    (room : (name ++ 0 :: (text ++ [0, 0])).length ≤ pThis.blkBuffer.maxSize.toNat) {s : ℕ} (hs : 1 ≤ s) :
    scanned 4 (metadataFrom pThis (min name.length (s - 1))) = (stringsFrom name text s).take 4 := by
  obtain ⟨more, hmore⟩ := metadataFrom_cut payload (Nat.min_le_left name.length (s - 1)) (by
    rw [List.length_append] at room ⊢
    rw [List.length_drop]
    omega)
  rw [List.cons_append, List.append_assoc, List.cons_append, List.singleton_append] at hmore
  obtain ⟨left, _, found⟩ := scanned_stringsFrom plain htext nulls hs (0 :: more)
  rw [hmore, found, scanned_end, List.append_nil]

theorem stringsFrom_cut {text : List UInt8} {s : ℕ} (plain : 0 ∉ name) (hs : 1 ≤ s) (cut : s ≤ name.length)
    (last : name.getLast? ≠ some 32)
    (few : (spacedStrings text).length ≤ 3) :
    ((stringsFrom name text s).take 4).length ≠ (spacedStrings text).length := by
  obtain ⟨uncut, _, ended⟩ := cut_tail plain hs cut
  have pieces : 0 < (spacedStrings (name.drop (s - 1))).length := by
    rw [spacedStrings, if_neg (by rwa [splitOn_last uncut, ended])]
    exact List.length_pos_iff.mpr (List.splitOn_ne_nil _ _)
  rw [stringsFrom, if_neg (by omega), if_neg last, List.length_take, List.length_append]
  omega

/-- A buffer for the name that is too small only cuts the name exactly when the strings behind both cuts read alike.
Before one to three fields, a name that does not end with a space and fits in one buffer has to fit in the other. -/
theorem lymodemDecodeBlock0_truncates_iff (pThis : ModemContext) (dest dest' : Memory UInt8) (s s' : UInt32)
    (name : List UInt8) (hs : 2 ≤ s.toNat) (hs' : 2 ≤ s'.toNat) (nonempty : name ≠ []) (plain : 0 ∉ name)
    (content : pThis.blkBuffer.buffer.Holds 2 (name ++ [0])) :
    (OnlyTruncates pThis name dest s dest' s' ↔
      ReadAlike 0 (scanned 4 (metadataFrom pThis (min name.length (s.toNat - 1))))
        (scanned 4 (metadataFrom pThis (min name.length (s'.toNat - 1))))) ∧
    (min name.length (s.toNat - 1) = min name.length (s'.toNat - 1) → OnlyTruncates pThis name dest s dest' s') ∧
    ∀ text, text ≠ [] → 0 ∉ text → pThis.blkBuffer.buffer.Holds 2 (name ++ 0 :: (text ++ [0, 0])) →
      (name ++ 0 :: (text ++ [0, 0])).length ≤ pThis.blkBuffer.maxSize.toNat →
      (OnlyTruncates pThis name dest s dest' s' ↔
        ReadAlike 0 ((stringsFrom name text s.toNat).take 4) ((stringsFrom name text s'.toNat).take 4)) ∧
      ((spacedStrings text).length ≤ 3 → Numerals 0 (spacedStrings text) → name.getLast? ≠ some 32 →
        name.length < s'.toNat → (OnlyTruncates pThis name dest s dest' s' ↔ name.length < s.toNat)) := by
  have whole := @onlyTruncates_iff pThis name dest dest' s s' hs hs' nonempty plain content
  refine ⟨whole, ?_, ?_⟩
  · intro same
    rw [whole, same]
    exact readAlike_refl _ _
  intro text htext nulls payload room
  have found {s : ℕ} (hs : 2 ≤ s) := scanned_cut plain htext nulls payload room (show 1 ≤ s by omega)
  rw [found hs, found hs'] at whole
  refine ⟨whole, ?_⟩
  intro few numerals last fits'
  have full : (stringsFrom name text s'.toNat).take 4 = spacedStrings text := by
    rw [stringsFrom, if_pos fits', List.take_of_length_le (by omega)]
  rw [whole, full]
  constructor
  · intro alike
    by_contra cut
    exact stringsFrom_cut plain (by omega) (by omega) last few (alike.length numerals)
  · intro fits
    rw [stringsFrom, if_pos fits, List.take_of_length_le (by omega)]
    exact readAlike_refl _ _

end Truncation

def sizedReceiver : ModemContext :=
  namingReceiver.withLine (.holding (0 :: 255 :: ([97, 53] ++ 0 :: [55])) 0)

theorem lymodemDecodeBlock0_truncates_fitting :
    OnlyTruncates sizedReceiver [97, 53] (.fresh 0) 16 (.fresh 0) 3 :=
  (((lymodemDecodeBlock0_truncates_iff sizedReceiver (.fresh 0) (.fresh 0) 16 3 [97, 53] (by decide) (by decide)
    (by decide) (by decide) (by decide)).2.2 [55] (by decide) (by decide) (by decide) (by decide +kernel)).2
      (by decide) (by decide +kernel) (by decide) (by decide)).mpr (by decide)

theorem lymodemDecodeBlock0_shifted :
    (lymodemDecodeBlock0 (lmodemSetFilenameBuffer sizedReceiver (.fresh 0) 16)).1.fileData.size = 7 ∧
    (lymodemDecodeBlock0 (lmodemSetFilenameBuffer sizedReceiver (.fresh 0) 2)).2 = true ∧
    (lymodemDecodeBlock0 (lmodemSetFilenameBuffer sizedReceiver (.fresh 0) 2)).1.fileData.size = 5 ∧
    ¬ OnlyTruncates sizedReceiver [97, 53] (.fresh 0) 16 (.fresh 0) 2 := by
  have sizes : (lymodemDecodeBlock0 (lmodemSetFilenameBuffer sizedReceiver (.fresh 0) 16)).1.fileData.size = 7 ∧
      (lymodemDecodeBlock0 (lmodemSetFilenameBuffer sizedReceiver (.fresh 0) 2)).1.fileData.size = 5 := by
    decide +kernel
  refine ⟨sizes.1, by decide +kernel, sizes.2, ?_⟩
  intro h
  have same := h.numbers.size
  rw [sizes.1, sizes.2] at same
  exact absurd same (by decide)

end LightModem
