import LightModem.Truncation

set_option autoImplicit false

namespace LightModem

def fieldBound (nbFields : ℕ) : ℕ := if nbFields = 2 then 2 ^ 16 else 2 ^ 32

/-- A field as it should be: digits of its base that denote a value of its place. -/
def IsField (nbFields : ℕ) (s : List UInt8) : Prop :=
  s ≠ [] ∧ (∀ c ∈ s, isdigit (fieldBase nbFields) c = true) ∧
    digitsValue (fieldBase nbFields) s < fieldBound nbFields

def denoted (nbFields : ℕ) (s : List UInt8) : UInt32 :=
  if nbFields = 2 then keptPermission (digitsValue (fieldBase nbFields) s).toUInt32
  else (digitsValue (fieldBase nbFields) s).toUInt32

instance (nbFields : ℕ) (s : List UInt8) : Decidable (IsField nbFields s) :=
  haveI : Decidable (∀ c ∈ s, isdigit (fieldBase nbFields) c = true) :=
    List.decidableBAll (fun c => isdigit (fieldBase nbFields) c = true) s
  inferInstanceAs (Decidable (_ ∧ _))

section Stored

variable {d : LmodemFileCharacteristics} {nbFields : ℕ} {s : List UInt8} {fields : List (List UInt8 × UInt32)}
  {strings more : List (List UInt8)}

theorem IsField.isNumeral (h : IsField nbFields s) : IsNumeral (fieldBase nbFields) s :=
  Or.inr ⟨[], [], s, rfl, by simp, Or.inl rfl, h.1, h.2.1⟩

theorem IsField.fieldNumber_eq (h : IsField nbFields s) :
    fieldNumber nbFields s = (digitsValue (fieldBase nbFields) s, []) := by
  have small : digitsValue (fieldBase nbFields) s ≤ ulongMax := by
    have bound : fieldBound nbFields ≤ 2 ^ 32 := by
      rw [fieldBound]
      split <;> decide
    have := h.2.2
    rw [ulongMax]
    omega
  exact strtoul_digits (fieldBase_le nbFields) h.1 h.2.1 small

theorem fieldValues_denoted (h : AtPlaces IsField 0 strings) (more : List (List UInt8)) :
    (fieldValues 0 ((strings ++ more).mapIdx fun i s => (s, (fieldNumber (0 + i) s).1.toUInt32))).take strings.length =
      strings.mapIdx denoted := by
  have same (i : ℕ) (s : List UInt8) (hs : IsField i s) :
      (if i = 2 then keptPermission (fieldNumber i s).1.toUInt32 else (fieldNumber i s).1.toUInt32) =
        denoted i s := by
    rw [hs.fieldNumber_eq, denoted]
  have values := AtPlaces.mapIdx_congr same h
  simp only [Nat.zero_add] at values
  rw [fieldValues, List.mapIdx_mapIdx, List.mapIdx_append, List.take_left' (by simp)]
  simpa [Function.comp_def] using values

end Stored

/-- One to four fields that are separated by spaces, as the strings between the spaces: where a space is
repeated, there is an empty one. -/
structure SpacedFields (strings : List (List UInt8)) : Prop where
  plain : ∀ s ∈ strings, ∀ c ∈ s, c ≠ 32 ∧ c ≠ 0
  last : strings.getLastD [] ≠ []
  count : (strings.filter (· ≠ [])).length ≤ 4

/-- The parser accepts fields that are separated by single spaces, each of them as it should be, and
no others, and stores what they denote. -/
structure AcceptsGrammar (pThis : ModemContext) (strings : List (List UInt8)) : Prop where
  accepted : (lymodemGetMetaData pThis).2 = true ↔ AtPlaces IsField 0 strings
  stored : (lymodemGetMetaData pThis).2 = true →
    (lymodemGetMetaData pThis).1.fileData.numbers.take strings.length = strings.mapIdx denoted

def lookedAt (strings : List (List UInt8)) (behind : List UInt8) : List (List UInt8) :=
  strings.take 4 ++ scanned (4 - strings.length) behind

section Grammar

variable {pThis : ModemContext} {name behind : List UInt8} {strings : List (List UInt8)}

theorem SpacedFields.length_le (h : SpacedFields strings) (fields : AtPlaces IsField 0 strings) :
    strings.length ≤ 4 := by
  have all : strings.filter (· ≠ []) = strings := by
    rw [List.filter_eq_self]
    intro s hs
    obtain ⟨i, hfield⟩ := fields.forall s hs
    exact decide_eq_true hfield.1
  have count := h.count
  rwa [all] at count

theorem SpacedFields.head (h : SpacedFields strings) :
    ∃ c rest, [32].intercalate strings = c :: rest ∧ c ≠ 0 := by
  match strings, h with
  | [], h => exact absurd rfl h.last
  | [s], h =>
    rw [List.intercalate_singleton]
    obtain ⟨c, rest, rfl⟩ := List.exists_cons_of_ne_nil h.last
    exact ⟨c, rest, rfl, (h.plain (c :: rest) (by simp) c (by simp)).2⟩
  | [] :: s' :: strings, _ =>
    rw [List.intercalate_cons_cons]
    exact ⟨32, _, rfl, by decide⟩
  | (c :: s) :: s' :: strings, h =>
    rw [List.intercalate_cons_cons]
    exact ⟨c, _, rfl, (h.plain (c :: s) (by simp) c (by simp)).2⟩

theorem SpacedFields.metadataFrom_eq (h : SpacedFields strings)
    (content : pThis.blkBuffer.buffer.Holds 2 (name ++ 0 :: ([32].intercalate strings ++ [0])))
    (room : ([32].intercalate strings).length + 2 ≤ pThis.blkBuffer.maxSize.toNat) :
    metadataFrom pThis name.length = [32].intercalate strings ++ 0 ::
      pThis.blkBuffer.buffer.load (2 + name.length + (([32].intercalate strings).length + 2))
        (pThis.blkBuffer.maxSize.toNat - (([32].intercalate strings).length + 2)) := by
  obtain ⟨j, hj⟩ := Nat.exists_eq_add_of_le room
  have held := (Memory.holds_append.mp content).2
  rw [Memory.Holds, List.length_cons, List.length_append, List.length_singleton] at held
  obtain ⟨c, rest, htext, hc⟩ := h.head
  rw [metadataFrom, hj, Nat.add_sub_cancel_left, Memory.load_add, held, htext]
  simp [hc]

theorem lymodemGetMetaData_accepts {dest : Memory UInt8} (filename : pThis.fileData.filename = some dest)
    (stored : dest.Holds 0 (name ++ [0])) (plain : 0 ∉ name)
    (size : name.length < pThis.fileData.filenameSize.toNat) (fields : SpacedFields strings)
    (hfrom : metadataFrom pThis name.length = [32].intercalate strings ++ 0 :: behind) :
    ((lymodemGetMetaData pThis).2 = true ↔ Numerals 0 (lookedAt strings behind)) ∧
      ((lymodemGetMetaData pThis).2 = true → AtPlaces IsField 0 strings →
        (lymodemGetMetaData pThis).1.fileData.numbers.take strings.length = strings.mapIdx denoted) := by
  have string : cString (pThis.fileData.filename.getD (.fresh 0)) pThis.fileData.filenameSize.toNat = name := by
    rw [filename]
    exact cString_eq stored plain size
  have seen : scanned 4 ([32].intercalate strings ++ 0 :: behind) = lookedAt strings behind :=
    scanned_intercalate fields.plain fields.last 4 behind
  rw [lymodemGetMetaData_eq (congrArg List.length string), hfrom, ← seen]
  refine ⟨readFields_numerals, ?_⟩
  intro accepted hfields
  have hlen := readFields_length_le 4 0 ([32].intercalate strings ++ 0 :: behind)
  have values := @setFields_numbers_take pThis.fileData _ hlen
  rw [readFields_scanned accepted, seen, lookedAt, List.take_of_length_le (fields.length_le hfields)] at values
  simp only [List.length_mapIdx] at values
  rw [readFields_scanned accepted, seen, lookedAt, List.take_of_length_le (fields.length_le hfields),
    ← fieldValues_denoted hfields (scanned (4 - strings.length) behind), ← values, List.take_take,
    List.length_append, Nat.min_eq_left (Nat.le_add_right _ _)]

/-- The parser keeps to the grammar exactly when the strings that it looks at behind fields as they should
be are numerals, and a string that it looks at is no numeral when one of the fields is not as it should be.
A numeral is nothing, or white space, a sign that may be missing, and digits, of any value. -/
theorem lymodemGetMetaData_grammar_iff (pThis : ModemContext) (dest : Memory UInt8) (name : List UInt8)
    (strings : List (List UInt8)) (filename : pThis.fileData.filename = some dest)
    (stored : dest.Holds 0 (name ++ [0])) (plain : 0 ∉ name)
    (size : name.length < pThis.fileData.filenameSize.toNat) (fields : SpacedFields strings)
    (content : pThis.blkBuffer.buffer.Holds 2 (name ++ 0 :: ([32].intercalate strings ++ [0])))
    (room : ([32].intercalate strings).length + 2 ≤ pThis.blkBuffer.maxSize.toNat) :
    let behind := pThis.blkBuffer.buffer.load (2 + name.length + (([32].intercalate strings).length + 2))
      (pThis.blkBuffer.maxSize.toNat - (([32].intercalate strings).length + 2))
    AcceptsGrammar pThis strings ↔
      AtPlaces IsField 0 strings ∧ Numerals strings.length (scanned (4 - strings.length) behind) ∨
      ¬ AtPlaces IsField 0 strings ∧ ¬ Numerals 0 (lookedAt strings behind) := by
  intro behind
  obtain ⟨accepts, values⟩ := lymodemGetMetaData_accepts filename stored plain size fields
    (fields.metadataFrom_eq content room)
  have keeps : AcceptsGrammar pThis strings ↔ (Numerals 0 (lookedAt strings behind) ↔ AtPlaces IsField 0 strings) := by
    rw [← accepts]
    exact ⟨fun h => h.accepted, fun h => ⟨h, fun accepted => values accepted (h.mp accepted)⟩⟩
  rw [keeps]
  by_cases hfields : AtPlaces IsField 0 strings
  · have numerals : Numerals 0 strings := hfields.imp fun _ _ hs => hs.isNumeral
    have seen : Numerals 0 (lookedAt strings behind) ↔
        Numerals strings.length (scanned (4 - strings.length) behind) := by
      rw [lookedAt, List.take_of_length_le (fields.length_le hfields), Numerals, AtPlaces.append, Nat.zero_add]
      exact and_iff_right numerals
    rw [seen]
    simp [hfields]
  · simp [hfields]

end Grammar

def parsingReceiver (text : List UInt8) : ModemContext :=
  lmodemSetFilenameBuffer (namingReceiver.withLine (.holding (0 :: 255 :: 97 :: 0 :: text) 0)) (.holding [97] 0) 16

theorem lymodemGetMetaData_grammar_size : AcceptsGrammar (parsingReceiver [49, 50]) [[49, 50]] :=
  (lymodemGetMetaData_grammar_iff (parsingReceiver [49, 50]) (.holding [97] 0) [97] [[49, 50]] rfl (by decide)
    (by decide) (by decide) ⟨by simp, by decide, by decide⟩ (by decide) (by decide)).mpr
    (Or.inl (by decide +kernel))

theorem lymodemGetMetaData_misparses : SpacedFields [[49], [], [50]] ∧
    ¬ AtPlaces IsField 0 [[49], [], [50]] ∧ (lymodemGetMetaData (parsingReceiver [49, 32, 32, 50])).2 = true ∧
    (lymodemGetMetaData (parsingReceiver [49, 32, 32, 50])).1.fileData.numbers = [1, 0, 2, 0] ∧
    ¬ AcceptsGrammar (parsingReceiver [49, 32, 32, 50]) [[49], [], [50]] := by
  have misplaced : ¬ AtPlaces IsField 0 [[49], [], [50]] := by decide
  have accepted : (lymodemGetMetaData (parsingReceiver [49, 32, 32, 50])).2 = true := by decide +kernel
  refine ⟨⟨by simp, by decide, by decide⟩, misplaced, accepted, by decide +kernel, ?_⟩
  intro h
  exact misplaced (h.accepted.mp accepted)

end LightModem
