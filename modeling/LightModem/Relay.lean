import LightModem.YmodemRecovery

set_option autoImplicit false

namespace LightModem

open Interaction

/-- The sender passes its file to the first of the modems, over lines with the faults that come with it,
and that one passes it to the next. Each session succeeds, and `P` holds of the last modem. -/
def Relays (fuel : ℕ) (P : ModemContext → Prop) : ModemContext → List (ModemContext × Schedule) → Prop
  | sender, [] => P sender
  | sender, (receiver, schedule) :: hops =>
    Inevitable (Step (.ofWires (schedule.forwardFrom 3) (schedule.backwardFrom 3)))
      (fun s => ∃ (n : Int32) (sender' receiver' : ModemContext), s.Returned (n, sender') (n, receiver') ∧
        0 ≤ n.toInt ∧ Relays fuel P receiver' hops)
      (.start (lmodemEmit .ymodem fuel sender) (lmodemReceive .ymodem fuel receiver))

theorem Relays.mono {fuel : ℕ} {P Q : ModemContext → Prop} (hPQ : ∀ p, P p → Q p)
    {hops : List (ModemContext × Schedule)} {sender : ModemContext} (h : Relays fuel P sender hops) :
    Relays fuel Q sender hops := by
  induction hops generalizing sender with
  | nil => exact hPQ _ h
  | cons hop hops ih =>
    apply Inevitable.mono h
    rintro s ⟨n, sender', receiver', returned, result, relays⟩
    exact ⟨n, sender', receiver', returned, result, ih relays⟩

structure ModemContext.Awaits (receiver : ModemContext) (crc16 : Crc16Context) (file name : List UInt8) :
    Prop where
  expects : receiver.Expects name
  crc16 : receiver.crc16 = crc16
  unread : receiver.ramfile.readOffset = 0
  fresh : receiver.ramfile.writeOffset = 0
  capacity : receiver.ramfile.maxSize.toNat < 2147483648
  room : (paddedFile 1024 file).length < receiver.ramfile.maxSize.toNat

def permissionAfter (hops : ℕ) (permission : UInt16) : UInt16 :=
  if hops = 0 then permission else permission &&& ~~~0x8000

structure MetadataFrom (hops k : ℕ) (d' d : LmodemFileCharacteristics) : Prop where
  valid : d.valid = metadataMask k
  size : d.size = d'.size
  modifDate : 2 ≤ k → d.modifDate = d'.modifDate
  permission : 3 ≤ k → d.permission = permissionAfter hops d'.permission
  serialNumber : 4 ≤ k → d.serialNumber = d'.serialNumber

section Hop

variable {sender receiver : ModemContext} {file name : List UInt8} {k : ℕ}

theorem holds_of_cString {m : Memory UInt8} {n : ℕ} (string : cString m n = name) (room : name.length < n) :
    m.Holds 0 (name ++ [0]) := by
  have ended : (cString m n).length < (m.load 0 n).length := by
    rw [string, Memory.load_length]
    exact room
  have split : cString m n ++ (m.load 0 n).dropWhile (· ≠ 0) = m.load 0 n := List.takeWhile_append_dropWhile
  obtain ⟨c, rest, later⟩ : ∃ c rest, (m.load 0 n).dropWhile (· ≠ 0) = c :: rest := by
    apply List.exists_cons_of_ne_nil
    intro none
    rw [none, List.append_nil] at split
    rw [split] at ended
    omega
  have hc : c = 0 := by
    have first := List.head?_dropWhile_not (fun c : UInt8 => decide (c ≠ 0)) (m.load 0 n)
    rw [later] at first
    simpa using first
  rw [later, hc, string, List.append_cons] at split
  have held : m.Holds 0 ((name ++ [0]) ++ rest) := by
    have hlen := congrArg List.length split
    rw [Memory.load_length] at hlen
    rw [Memory.Holds, hlen]
    exact split.symm
  exact (Memory.holds_append.mp held).1

theorem ModemContext.Awaits.receiving {crc16 : Crc16Context} (h : receiver.Awaits crc16 file name)
    (protocol : LmodemProtocol) : { receiver with protocol := protocol }.Awaits crc16 file name :=
  ⟨h.expects.receiving protocol, h.crc16, h.unread, h.fresh, h.capacity, h.room⟩

theorem Batched.offers {n : Int32} {receiver' : ModemContext}
    (batched : Batched sender receiver file name n receiver') (offers : sender.Offers file name)
    (awaits : receiver.Awaits sender.crc16 file name) (hk : 1 ≤ k ∧ k ≤ 4)
    (mask : sender.fileData.valid = metadataMask k) :
    receiver'.Offers file name ∧ MetadataFrom 1 k sender.fileData receiver'.fileData := by
  obtain ⟨dest, string, fileData⟩ := batched.metadata
  obtain ⟨valid, size, modifDate, permission, serial⟩ := @setFields_fields_mask sender.fileData
    { lmodemMetadataClean receiver.fileData with
      filename := some dest, valid := lmodemMetadataFilenameValid } k
    (isValid_metadataMask mask hk.2).2 hk.2 rfl
  have filename := setFields_filename { lmodemMetadataClean receiver.fileData with
    filename := some dest, valid := lmodemMetadataFilenameValid } 0 sender.fileData.fields
  rw [← fileData] at valid size modifDate permission serial filename
  have zero : receiver'.ramfile.readOffset.toNat = 0 := by
    rw [batched.readOffset, awaits.unread]
    rfl
  have short : file.length < 2147483648 := offers.loaded.length_lt
  refine ⟨?_, valid, size hk.1, modifDate, permission, serial⟩
  exact
    { loaded := ⟨⟨by omega, by rw [batched.size]; exact short⟩, by
        rw [LmodemBuffer.unread, zero, batched.size]
        exact batched.content⟩
      named := (isValid_metadataMask valid hk.2).1
      sized := by
        rw [fileData]
        exact (setFields_fields offers.sized _).2
      size := by rw [size hk.1, offers.size]
      filename := ⟨dest, filename, holds_of_cString string awaits.expects.room⟩
      nonempty := offers.nonempty
      plain := offers.plain
      length := offers.length
      line := by rw [batched.lineSize]; exact awaits.expects.line }

theorem MetadataFrom.next {hops : ℕ} {d d' d'' : LmodemFileCharacteristics} (first : MetadataFrom 1 k d d')
    (later : MetadataFrom hops k d' d'') : MetadataFrom (hops + 1) k d d'' where
  valid := later.valid
  size := later.size.trans first.size
  modifDate := fun h => (later.modifDate h).trans (first.modifDate h)
  permission := by
    intro h
    have kept : permissionAfter hops (permissionAfter 1 d.permission) = permissionAfter (hops + 1) d.permission := by
      simp only [permissionAfter, Nat.succ_ne_zero, one_ne_zero, ↓reduceIte]
      split
      · rfl
      · rw [UInt16.and_assoc, UInt16.and_self]
    rw [later.permission h, first.permission h, kept]
  serialNumber := fun h => (later.serialNumber h).trans (first.serialNumber h)

end Hop

end LightModem
