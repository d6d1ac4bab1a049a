import LightModem.Metadata

set_option autoImplicit false

namespace LightModem

def keptPermission (value : UInt32) : UInt32 := (value.toUInt16 &&& ~~~0x8000).toUInt32

def fieldValues (nbFields : ℕ) (fields : List (List UInt8 × UInt32)) : List UInt32 :=
  fields.mapIdx fun i field => if nbFields + i = 2 then keptPermission field.2 else field.2

def LmodemFileCharacteristics.numbers (d : LmodemFileCharacteristics) : List UInt32 :=
  [d.size, d.modifDate, d.permission.toUInt32, d.serialNumber]

def fieldBase (nbFields : ℕ) : ℕ := if nbFields = 0 then 10 else 8

def AtPlaces (P : ℕ → List UInt8 → Prop) : ℕ → List (List UInt8) → Prop
  | _, [] => True
  | nbFields, s :: strings => P nbFields s ∧ AtPlaces P (nbFields + 1) strings

def Numerals : ℕ → List (List UInt8) → Prop := AtPlaces (fun nbFields => IsNumeral (fieldBase nbFields))

/-- The strings that are looked at when `left` are looked for. -/
def scanned : ℕ → List UInt8 → List (List UInt8)
  | 0, _ => []
  | left + 1, text =>
    if text.headD 0 = 0 then []
    else fieldText text :: scanned left (text.drop ((fieldText text).length + 1))

/-- The strings between the spaces of a text, where nothing stands behind the last of them. -/
def spacedStrings (text : List UInt8) : List (List UInt8) :=
  if (text.splitOn 32).getLastD [] = [] then (text.splitOn 32).dropLast else text.splitOn 32

def ModemContext.keptLength (pThis : ModemContext) : ℕ :=
  match pThis.fileData.filename with
  | none => 0
  | some _ => (cString (pThis.blkBuffer.buffer.shift 2) (pThis.fileData.filenameSize.toNat - 1)).length

def metadataStrings (pThis : ModemContext) : List (List UInt8) := scanned 4 (metadataFrom pThis pThis.keptLength)

section Places

variable {P Q : ℕ → List UInt8 → Prop} {nbFields : ℕ} {strings strings' : List (List UInt8)}

theorem AtPlaces.append :
    AtPlaces P nbFields (strings ++ strings') ↔
      AtPlaces P nbFields strings ∧ AtPlaces P (nbFields + strings.length) strings' := by
  induction strings generalizing nbFields with
  | nil => simp [AtPlaces]
  | cons s strings ih =>
    rw [List.cons_append, AtPlaces, AtPlaces, ih, and_assoc, List.length_cons, Nat.add_assoc,
      Nat.add_comm 1]

theorem AtPlaces.imp (h : ∀ i s, P i s → Q i s) (hp : AtPlaces P nbFields strings) :
    AtPlaces Q nbFields strings := by
  induction strings generalizing nbFields with
  | nil => trivial
  | cons s strings ih => exact ⟨h _ _ hp.1, ih hp.2⟩

theorem AtPlaces.forall (h : AtPlaces P nbFields strings) : ∀ s ∈ strings, ∃ i, P i s := by
  induction strings generalizing nbFields with
  | nil => simp
  | cons s strings ih =>
    intro s' hs'
    rcases List.mem_cons.mp hs' with rfl | hs'
    · exact ⟨_, h.1⟩
    · exact ih h.2 s' hs'

theorem AtPlaces.mapIdx_congr {f g : ℕ → List UInt8 → UInt32} (h : ∀ i s, P i s → f i s = g i s)
    (hp : AtPlaces P nbFields strings) :
    strings.mapIdx (fun i => f (nbFields + i)) = strings.mapIdx (fun i => g (nbFields + i)) := by
  induction strings generalizing nbFields with
  | nil => rfl
  | cons s strings ih =>
    have tail := ih hp.2
    simp only [Nat.add_assoc, Nat.add_comm 1] at tail
    rw [List.mapIdx_cons, List.mapIdx_cons, Nat.add_zero, h _ _ hp.1, tail]

end Places

theorem fieldBase_le (nbFields : ℕ) : fieldBase nbFields ≤ 10 := by
  rw [fieldBase]
  split <;> decide

instance (nbFields : ℕ) (s : List UInt8) : Decidable (IsNumeral (fieldBase nbFields) s) :=
  decidable_of_iff _ (strtoul_rest_iff (fieldBase_le nbFields))

instance decidableAtPlaces (P : ℕ → List UInt8 → Prop) [∀ i s, Decidable (P i s)] :
    ∀ nbFields strings, Decidable (AtPlaces P nbFields strings)
  | _, [] => isTrue trivial
  | nbFields, _ :: strings =>
    haveI := decidableAtPlaces P (nbFields + 1) strings
    inferInstanceAs (Decidable (_ ∧ _))

instance (nbFields : ℕ) (strings : List (List UInt8)) : Decidable (Numerals nbFields strings) :=
  decidableAtPlaces _ _ _

section Scanned

variable {left nbFields : ℕ} {text behind : List UInt8} {strings : List (List UInt8)} {s : List UInt8}

theorem readFields_length_le (left nbFields : ℕ) (text : List UInt8) :
    (readFields left nbFields text).1.length ≤ left := by
  induction left generalizing nbFields text with
  | zero => exact Nat.le_refl _
  | succ left ih =>
    rw [readFields]
    by_cases hend : text.headD 0 = 0
    · rw [if_pos hend]
      exact Nat.zero_le _
    · simp only [if_neg hend]
      by_cases hnumber : (fieldNumber nbFields (fieldText text)).2 = []
      · simp only [if_pos hnumber]
        exact Nat.succ_le_succ (ih _ _)
      · simp only [if_neg hnumber]
        exact Nat.succ_le_succ (Nat.zero_le _)

theorem fieldNumber_rest_iff : (fieldNumber nbFields s).2 = [] ↔ IsNumeral (fieldBase nbFields) s :=
  strtoul_rest_iff (fieldBase_le nbFields)

theorem readFields_numerals : (readFields left nbFields text).2 = true ↔ Numerals nbFields (scanned left text) := by
  induction left generalizing nbFields text with
  | zero => exact iff_of_true rfl trivial
  | succ left ih =>
    rw [readFields, scanned]
    by_cases hend : text.headD 0 = 0
    · rw [if_pos hend, if_pos hend]
      exact iff_of_true rfl trivial
    · rw [if_neg hend, if_neg hend]
      by_cases hnumber : (fieldNumber nbFields (fieldText text)).2 = []
      · simp only [if_pos hnumber]
        rw [ih]
        exact ⟨fun h => ⟨fieldNumber_rest_iff.mp hnumber, h⟩, fun h => h.2⟩
      · simp only [if_neg hnumber]
        exact iff_of_false (by decide) (fun h => hnumber (fieldNumber_rest_iff.mpr h.1))

theorem readFields_scanned (h : (readFields left nbFields text).2 = true) :
    (readFields left nbFields text).1 =
      (scanned left text).mapIdx (fun i s => (s, (fieldNumber (nbFields + i) s).1.toUInt32)) := by
  induction left generalizing nbFields text with
  | zero => rfl
  | succ left ih =>
    rw [readFields] at h ⊢
    rw [scanned]
    by_cases hend : text.headD 0 = 0
    · rw [if_pos hend, if_pos hend]
      rfl
    · rw [if_neg hend] at h ⊢
      rw [if_neg hend]
      by_cases hnumber : (fieldNumber nbFields (fieldText text)).2 = []
      · simp only [if_pos hnumber] at h ⊢
        have tail := ih h
        simp only [Nat.add_assoc, Nat.add_comm 1] at tail
        rw [List.mapIdx_cons, tail]
        rfl
      · simp only [if_neg hnumber] at h
        exact absurd h (by decide)

theorem scanned_cons (plain : ∀ c ∈ s, c ≠ 32 ∧ c ≠ 0) {sep : UInt8} (hsep : sep = 32 ∨ sep = 0 ∧ s ≠ [])
    (left : ℕ) (rest : List UInt8) : scanned (left + 1) (s ++ sep :: rest) = s :: scanned left rest := by
  have started : (s ++ sep :: rest).headD 0 ≠ 0 := by
    cases s with
    | nil =>
      rcases hsep with rfl | ⟨_, h⟩
      · exact show (32 : UInt8) ≠ 0 by decide
      · exact absurd rfl h
    | cons c s => exact (plain c (by simp)).2
  have after : (s ++ sep :: rest).drop (s.length + 1) = rest := by
    rw [List.append_cons, List.drop_left' (by simp)]
  rw [scanned, if_neg started, fieldText_append plain (hsep.imp_right And.left), after]

theorem scanned_intercalate (plain : ∀ s ∈ strings, ∀ c ∈ s, c ≠ 32 ∧ c ≠ 0) (last : strings.getLastD [] ≠ [])
    (left : ℕ) (behind : List UInt8) :
    scanned left ([32].intercalate strings ++ 0 :: behind) =
      strings.take left ++ scanned (left - strings.length) behind := by
  induction strings generalizing left with
  | nil => exact absurd rfl last
  | cons s strings ih =>
    cases left with
    | zero => simp [scanned]
    | succ left =>
      have hs := plain s (by simp)
      cases strings with
      | nil =>
        rw [List.intercalate_singleton, scanned_cons hs (Or.inr ⟨rfl, last⟩)]
        simp
      | cons s' strings =>
        have tail := ih (fun t ht => plain t (by simp [ht])) (by simpa using last) left
        rw [List.intercalate_cons_cons, List.append_assoc, List.append_assoc, List.singleton_append,
          scanned_cons hs (Or.inl rfl), tail]
        simp

theorem scanned_end (left : ℕ) (behind : List UInt8) : scanned left (0 :: behind) = [] := by
  cases left <;> rfl

theorem scanned_pieces (plain : ∀ s ∈ strings, ∀ c ∈ s, c ≠ 32 ∧ c ≠ 0) (ne : strings ≠ [])
    (last : strings.getLastD [] = []) (left : ℕ) (behind : List UInt8) :
    scanned left ([32].intercalate strings ++ 0 :: behind) = strings.dropLast.take left := by
  induction strings generalizing left with
  | nil => exact absurd rfl ne
  | cons s strings ih =>
    cases strings with
    | nil =>
      obtain rfl : s = [] := last
      rw [List.intercalate_singleton, List.nil_append, scanned_end]
      simp
    | cons s' strings =>
      cases left with
      | zero => simp [scanned]
      | succ left =>
        have tail := ih (fun t ht => plain t (by simp [ht])) (by simp) (by simpa using last) left
        rw [List.intercalate_cons_cons, List.append_assoc, List.append_assoc, List.singleton_append,
          scanned_cons (plain s (by simp)) (Or.inl rfl), tail]
        rfl

theorem mem_of_mem_splitOn {x c : UInt8} (h : s ∈ text.splitOn x) (hc : c ∈ s) : c ∈ text ∧ c ≠ x := by
  induction text generalizing s with
  | nil => simp_all
  | cons d text ih =>
    rw [List.splitOn_cons_eq_if_modifyHead] at h
    by_cases hd : d = x
    · rw [if_pos (by simp [hd])] at h
      rcases List.mem_cons.mp h with rfl | h
      · simp at hc
      · exact ⟨List.mem_cons_of_mem _ (ih h hc).1, (ih h hc).2⟩
    · rw [if_neg (by simpa using hd)] at h
      obtain ⟨piece, pieces, hpieces⟩ := List.exists_cons_of_ne_nil (List.splitOn_ne_nil x text)
      rw [hpieces, List.modifyHead_cons] at h
      rw [hpieces] at ih
      rcases List.mem_cons.mp h with rfl | h
      · rcases List.mem_cons.mp hc with rfl | hc
        · exact ⟨List.mem_cons_self, hd⟩
        · have found := ih List.mem_cons_self hc
          exact ⟨List.mem_cons_of_mem _ found.1, found.2⟩
      · have found := ih (List.mem_cons_of_mem _ h) hc
        exact ⟨List.mem_cons_of_mem _ found.1, found.2⟩

theorem splitOn_plain (plain : 0 ∉ text) : ∀ s ∈ text.splitOn 32, ∀ c ∈ s, c ≠ 32 ∧ c ≠ 0 := by
  intro s hs c hc
  obtain ⟨found, space⟩ := mem_of_mem_splitOn hs hc
  exact ⟨space, ne_of_mem_of_not_mem found plain⟩

theorem scanned_text (plain : 0 ∉ text) (left : ℕ) (behind : List UInt8) :
    scanned left (text ++ 0 :: behind) = (spacedStrings text).take left ++
      if (text.splitOn 32).getLastD [] = [] then [] else scanned (left - (spacedStrings text).length) behind := by
  have whole : [32].intercalate (text.splitOn 32) = text := List.intercalate_splitOn 32
  rw [spacedStrings]
  split
  · next last =>
    have scans := scanned_pieces (splitOn_plain plain) (List.splitOn_ne_nil 32 text) last left behind
    rw [whole] at scans
    rw [scans, List.append_nil]
  · next last =>
    have scans := scanned_intercalate (splitOn_plain plain) last left behind
    rw [whole] at scans
    exact scans

theorem splitOn_last (ne : text ≠ []) : (text.splitOn 32).getLastD [] = [] ↔ text.getLast? = some 32 := by
  induction text with
  | nil => exact absurd rfl ne
  | cons c text ih =>
    obtain ⟨piece, pieces, hpieces⟩ := List.exists_cons_of_ne_nil (List.splitOn_ne_nil 32 text)
    have whole : [32].intercalate (text.splitOn 32) = text := List.intercalate_splitOn 32
    rw [List.splitOn_cons_eq_if_modifyHead, hpieces]
    by_cases hnil : text = []
    · subst hnil
      obtain ⟨rfl, rfl⟩ : [] = piece ∧ [] = pieces := by simpa using hpieces
      by_cases hc : c = 32 <;> simp [hc]
    · have later := ih hnil
      have tail : (c :: text).getLast? = text.getLast? := List.getLast?_cons_of_ne_nil hnil
      rw [tail, ← later, hpieces]
      cases pieces with
      | nil =>
        rw [hpieces, List.intercalate_singleton] at whole
        by_cases hc : c = 32 <;> simp [hc, whole, hnil]
      | cons piece' pieces => by_cases hc : c = 32 <;> simp [hc]

end Scanned

section Decode

variable {pThis : ModemContext} {dest : Memory UInt8} {d : LmodemFileCharacteristics}
  {fields : List (List UInt8 × UInt32)}

theorem setFields_numbers (hlen : fields.length ≤ 4) :
    (setFields d 0 fields).numbers = fieldValues 0 fields ++ d.numbers.drop fields.length := by
  match fields, hlen with
  | [], _ => rfl
  | [_], _ => rfl
  | [_, _], _ => rfl
  | [_, _, _], _ => rfl
  | [_, _, _, _], _ => rfl

theorem setFields_numbers_take (hlen : fields.length ≤ 4) :
    (setFields d 0 fields).numbers.take fields.length = fieldValues 0 fields := by
  rw [setFields_numbers hlen, List.take_left' (by simp [fieldValues])]

theorem keptLength_eq (filename : pThis.fileData.filename = some dest) :
    pThis.keptLength = (cString (pThis.blkBuffer.buffer.shift 2) (pThis.fileData.filenameSize.toNat - 1)).length := by
  rw [ModemContext.keptLength, filename]

theorem lymodemDecodeBlock0_fields (started : pThis.blkBuffer.buffer 2 ≠ 0) :
    ∃ d : LmodemFileCharacteristics, d.valid = lmodemMetadataFilenameValid ∧ d.numbers = .replicate 4 0 ∧
      (lymodemDecodeBlock0 pThis).1.fileData =
        setFields d 0 (readFields 4 0 (metadataFrom pThis pThis.keptLength)).1 ∧
      (lymodemDecodeBlock0 pThis).2 = (readFields 4 0 (metadataFrom pThis pThis.keptLength)).2 := by
  have named : (0 : UInt32) ||| lmodemMetadataFilenameValid = lmodemMetadataFilenameValid := by decide
  simp only [lymodemDecodeBlock0, if_neg started]
  generalize hnamed : ({ lmodemMetadataClean pThis.fileData with
      filename := _, valid := _ } : LmodemFileCharacteristics) = d
  have kept : (cString (d.filename.getD (.fresh 0)) d.filenameSize.toNat).length = pThis.keptLength := by
    subst hnamed
    simp only [lmodemMetadataClean, ModemContext.keptLength]
    cases pThis.fileData.filename with
    | none => simp [cString, Memory.fresh, Memory.load]
    | some dest =>
      rcases Nat.eq_zero_or_pos pThis.fileData.filenameSize.toNat with none | capacity
      · simp [none, cString]
      · have last : (pThis.fileData.filenameSize - 1).toNat = pThis.fileData.filenameSize.toNat - 1 :=
          toNat_sub_of_le capacity
        have string := cString_strncpy (dest.store 0 [0]) (pThis.blkBuffer.buffer.shift 2)
          (pThis.fileData.filenameSize.toNat - 1)
        rw [Nat.sub_add_cancel capacity] at string
        simp only [Option.map_some, Option.getD_some, last, string]
  rw [@lymodemGetMetaData_eq { pThis with fileData := d } _ kept]
  subst hnamed
  exact ⟨_, named, rfl, rfl, rfl⟩

end Decode

end LightModem
