import LightModem.Positions

set_option autoImplicit false

namespace LightModem

def metadataGetters : List (ModemContext → Option UInt32 → Option UInt32 × Bool) :=
  [lmodemMetadataGetFilesize, lmodemMetadataGetModifTime, lmodemMetadataGetPermission, lmodemMetadataGetSerial]

def ReportsFields (pThis : ModemContext) (strings : List (List UInt8)) : Prop :=
  ∀ (i : ℕ) (getter : ModemContext → Option UInt32 → Option UInt32 × Bool) (dest : UInt32),
    metadataGetters[i]? = some getter →
      getter pThis (some dest) = match strings[i]? with
        | some s => (some (storedNumber i s), true)
        | none => (some dest, false)

section Getters

variable {pThis : ModemContext} {name : List UInt8} {strings : List (List UInt8)}

theorem getter_named (valid : pThis.fileData.isValid lmodemMetadataFilenameValid = true) {i : ℕ}
    {getter : ModemContext → Option UInt32 → Option UInt32 × Bool} (h : metadataGetters[i]? = some getter)
    (dest : UInt32) :
    ∃ value, pThis.fileData.numbers[i]? = some value ∧ getter pThis (some dest) = (some value, true) := by
  have named (value : UInt32) : lmodemMetadataGet pThis value (some dest) = (some value, true) := by
    rw [LmodemFileCharacteristics.isValid, decide_eq_true_eq] at valid
    rw [lmodemMetadataGet, if_pos valid]
  obtain ⟨hi, rfl⟩ := List.getElem?_eq_some_iff.mp h
  have hi' : i < 4 := hi
  interval_cases i
  · exact ⟨_, rfl, named _⟩
  · exact ⟨_, rfl, named _⟩
  · exact ⟨_, rfl, named _⟩
  · exact ⟨_, rfl, named _⟩

theorem storedNumber_nil (nbFields : ℕ) : storedNumber nbFields [] = 0 := by
  have none : fieldNumber nbFields [] = (0, []) := by
    rw [fieldNumber]
    split <;> rfl
  rw [storedNumber, none]
  split <;> rfl

theorem lymodemDecodeBlock0_numbers (accepted : (lymodemDecodeBlock0 pThis).2 = true) {i : ℕ} (hi : i < 4) :
    (lymodemDecodeBlock0 pThis).1.fileData.isValid lmodemMetadataFilenameValid = true ∧
      (lymodemDecodeBlock0 pThis).1.fileData.numbers[i]? =
        some (storedNumber i ((metadataStrings pThis).getD i [])) := by
  have started : pThis.blkBuffer.buffer 2 ≠ 0 := by
    intro unnamed
    rw [lymodemDecodeBlock0_unnamed unnamed] at accepted
    cases accepted
  obtain ⟨d, valid, zeros, fileData, verdict⟩ := lymodemDecodeBlock0_fields started
  have hlen := readFields_length_le 4 0 (metadataFrom pThis pThis.keptLength)
  have fields := readFields_scanned (verdict.symm.trans accepted)
  have count := congrArg List.length fields
  rw [List.length_mapIdx] at count
  have values : fieldValues 0 (readFields 4 0 (metadataFrom pThis pThis.keptLength)).1 =
      (metadataStrings pThis).mapIdx storedNumber := by
    rw [fields, fieldValues, List.mapIdx_mapIdx]
    simp only [Nat.zero_add]
    rfl
  rw [fileData]
  refine ⟨(isValid_metadataMask (setFields_valid valid hlen) hlen).1, ?_⟩
  rw [setFields_numbers hlen, values, zeros, count]
  change ((metadataStrings pThis).mapIdx storedNumber ++ (List.replicate 4 0).drop (metadataStrings pThis).length)[i]? = _
  rcases Nat.lt_or_ge i (metadataStrings pThis).length with found | absent
  · rw [List.getElem?_append_left (by simpa using found), List.getElem?_mapIdx, List.getD_eq_getElem?_getD,
      List.getElem?_eq_getElem found]
    rfl
  · rw [List.getElem?_append_right (by simpa using absent), List.getD_eq_getElem?_getD,
      List.getElem?_eq_none absent, Option.getD_none, storedNumber_nil, List.getElem?_drop, List.getElem?_replicate,
      List.length_mapIdx, Nat.add_sub_cancel' absent, if_pos hi]

theorem reportsFields_iff (accepted : (lymodemDecodeBlock0 pThis).2 = true) (few : strings.length ≤ 4) :
    ReportsFields (lymodemDecodeBlock0 pThis).1 strings ↔ strings.length = 4 ∧ ∀ i < 4,
      storedNumber i ((metadataStrings pThis).getD i []) = storedNumber i (strings.getD i []) := by
  have got {i : ℕ} {getter : ModemContext → Option UInt32 → Option UInt32 × Bool} (h : metadataGetters[i]? = some getter)
      (dest : UInt32) : getter (lymodemDecodeBlock0 pThis).1 (some dest) =
        (some (storedNumber i ((metadataStrings pThis).getD i [])), true) := by
    obtain ⟨hi, _⟩ := List.getElem?_eq_some_iff.mp h
    obtain ⟨named, number⟩ := lymodemDecodeBlock0_numbers accepted (show i < 4 from hi)
    obtain ⟨value, hvalue, told⟩ := getter_named named h dest
    rw [number] at hvalue
    rw [told, Option.some.inj hvalue]
  constructor
  · intro reports
    have all : strings.length = 4 := by
      by_contra hne
      have told := reports 3 lmodemMetadataGetSerial 0 rfl
      rw [got (i := 3) rfl, List.getElem?_eq_none (by omega)] at told
      have verdict : true = false := congrArg Prod.snd told
      cases verdict
    refine ⟨all, fun i hi => ?_⟩
    obtain ⟨getter, hgetter⟩ : ∃ getter, metadataGetters[i]? = some getter :=
      ⟨_, List.getElem?_eq_getElem (show i < metadataGetters.length from hi)⟩
    have told := reports i getter 0 hgetter
    rw [got hgetter, List.getElem?_eq_getElem (by omega)] at told
    rw [@List.getD_eq_getElem?_getD _ strings, List.getElem?_eq_getElem (by omega)]
    simpa using told
  · rintro ⟨all, same⟩ i getter dest hgetter
    obtain ⟨hi, _⟩ := List.getElem?_eq_some_iff.mp hgetter
    have hi' : i < 4 := hi
    rw [got hgetter, same i hi', @List.getD_eq_getElem?_getD _ strings, List.getElem?_eq_getElem (by omega)]
    rfl

theorem spacedStrings_intercalate (spaced : ∀ s ∈ strings, ∀ c ∈ s, c ≠ 32 ∧ c ≠ 0) (last : strings.getLastD [] ≠ []) :
    spacedStrings ([32].intercalate strings) = strings := by
  have ne : strings ≠ [] := by
    rintro rfl
    exact last rfl
  have split : ([32].intercalate strings).splitOn 32 = strings :=
    List.splitOn_intercalate 32 (fun s hs hc => (spaced s hs 32 hc).1 rfl) ne
  rw [spacedStrings, split, if_neg last]

theorem intercalate_nulls (spaced : ∀ s ∈ strings, ∀ c ∈ s, c ≠ 32 ∧ c ≠ 0) : 0 ∉ [32].intercalate strings := by
  induction strings with
  | nil => simp
  | cons s strings ih =>
    have hs : 0 ∉ s := fun h => (spaced s List.mem_cons_self 0 h).2 rfl
    cases strings with
    | nil => rwa [List.intercalate_singleton]
    | cons s' strings =>
      have tail := ih fun t ht => spaced t (List.mem_cons_of_mem _ ht)
      rw [List.intercalate_cons_cons, List.mem_append, List.mem_append, List.mem_singleton]
      rintro ((h | h) | h)
      · exact hs h
      · cases h
      · exact tail h

theorem keptLength_min {dest : Memory UInt8} (filename : pThis.fileData.filename = some dest) (plain : 0 ∉ name)
    (content : pThis.blkBuffer.buffer.Holds 2 (name ++ [0])) :
    pThis.keptLength = min name.length (pThis.fileData.filenameSize.toNat - 1) := by
  rw [keptLength_eq filename, cString_take plain (Memory.holds_shift.mpr content), List.length_take, Nat.min_comm]

theorem metadataStrings_four {dest : Memory UInt8} (filename : pThis.fileData.filename = some dest)
    (capacity : 1 ≤ pThis.fileData.filenameSize.toNat) (plain : 0 ∉ name)
    (spaced : ∀ s ∈ strings, ∀ c ∈ s, c ≠ 32 ∧ c ≠ 0) (last : strings.getLastD [] ≠ []) (four : strings.length = 4)
    (content : pThis.blkBuffer.buffer.Holds 2 (name ++ 0 :: ([32].intercalate strings ++ [0])))
    (room : (name ++ 0 :: ([32].intercalate strings ++ [0])).length ≤ pThis.blkBuffer.maxSize.toNat) :
    metadataStrings pThis =
      (stringsFrom name ([32].intercalate strings) pThis.fileData.filenameSize.toNat).take 4 := by
  have whole := spacedStrings_intercalate spaced last
  have nulls := intercalate_nulls spaced
  have some : [32].intercalate strings ≠ [] := by
    intro none
    rw [none] at whole
    rw [← whole] at four
    cases four
  have ended : pThis.blkBuffer.buffer.Holds 2 (name ++ [0]) := by
    rw [← List.singleton_append, ← List.append_assoc, Memory.holds_append] at content
    exact content.1
  obtain ⟨more, hmore⟩ := metadataFrom_cut content (Nat.min_le_left name.length (pThis.fileData.filenameSize.toNat - 1))
    (by
      rw [List.length_append] at room ⊢
      rw [List.length_drop]
      omega)
  rw [List.cons_append, List.append_assoc, List.singleton_append] at hmore
  obtain ⟨left, bound, found⟩ := scanned_stringsFrom plain some nulls capacity more
  rw [whole, four] at bound
  obtain rfl : left = 0 := by omega
  rw [metadataStrings, keptLength_min filename plain ended, hmore, found]
  exact List.append_nil _

end Getters

theorem lymodemDecodeBlock0_reports_iff (receiver : ModemContext) (dest : Memory UInt8) (name : List UInt8)
    (strings : List (List UInt8)) (filename : receiver.fileData.filename = some dest)
    (capacity : 1 ≤ receiver.fileData.filenameSize.toNat) (plain : 0 ∉ name)
    (spaced : ∀ s ∈ strings, ∀ c ∈ s, c ≠ 32 ∧ c ≠ 0) (last : strings ≠ [] → strings.getLastD [] ≠ [])
    (few : strings.length ≤ 4)
    (content : receiver.blkBuffer.buffer.Holds 2
      (name ++ 0 :: if strings = [] then [] else [32].intercalate strings ++ [0]))
    (room : (name ++ 0 :: if strings = [] then [] else [32].intercalate strings ++ [0]).length ≤
      receiver.blkBuffer.maxSize.toNat)
    (accepted : (lymodemDecodeBlock0 receiver).2 = true) :
    (ReportsFields (lymodemDecodeBlock0 receiver).1 strings ↔ strings.length = 4 ∧ ∀ i < 4,
      storedNumber i ((stringsFrom name ([32].intercalate strings) receiver.fileData.filenameSize.toNat).getD i []) =
        storedNumber i (strings.getD i [])) ∧
    (name.length < receiver.fileData.filenameSize.toNat →
      (ReportsFields (lymodemDecodeBlock0 receiver).1 strings ↔ strings.length = 4)) := by
  have reports := reportsFields_iff accepted few
  have whole : ReportsFields (lymodemDecodeBlock0 receiver).1 strings ↔ strings.length = 4 ∧ ∀ i < 4,
      storedNumber i ((stringsFrom name ([32].intercalate strings) receiver.fileData.filenameSize.toNat).getD i []) =
        storedNumber i (strings.getD i []) := by
    rw [reports]
    refine and_congr_right fun four => ?_
    have some : strings ≠ [] := by
      rintro rfl
      cases four
    rw [if_neg some] at content room
    have found := metadataStrings_four filename capacity plain spaced (last some) four content room
    refine forall₂_congr fun i hi => ?_
    rw [found, List.getD_eq_getElem?_getD, List.getElem?_take_of_lt hi, ← List.getD_eq_getElem?_getD]
  refine ⟨whole, fun fits => ?_⟩
  rw [whole]
  refine and_iff_left_of_imp fun four i _ => ?_
  have some : strings ≠ [] := by
    rintro rfl
    cases four
  rw [stringsFrom, if_pos fits, spacedStrings_intercalate spaced (last some)]

theorem lymodemDecodeBlock0_reports_all :
    ReportsFields (lymodemDecodeBlock0 (parsingReceiver [49, 32, 50, 32, 51, 32, 52])).1 [[49], [50], [51], [52]] :=
  ((lymodemDecodeBlock0_reports_iff (parsingReceiver [49, 32, 50, 32, 51, 32, 52]) (.holding [97] 0) [97]
    [[49], [50], [51], [52]] rfl (by decide) (by decide) (by decide +kernel) (by decide) (by decide) (by decide) (by decide)
    (by decide +kernel)).2 (by decide)).mpr rfl

theorem lymodemDecodeBlock0_misreports :
    (lymodemDecodeBlock0 (parsingReceiver [53])).2 = true ∧
      lmodemMetadataGetSerial (lymodemDecodeBlock0 (parsingReceiver [53])).1 (some 7) = (some 0, true) ∧
      ¬ ReportsFields (lymodemDecodeBlock0 (parsingReceiver [53])).1 [[53]] := by
  have serial : lmodemMetadataGetSerial (lymodemDecodeBlock0 (parsingReceiver [53])).1 (some 7) = (some 0, true) := by
    decide +kernel
  refine ⟨by decide +kernel, serial, fun reports => ?_⟩
  have told := reports 3 _ 7 rfl
  rw [serial] at told
  cases told

end LightModem
