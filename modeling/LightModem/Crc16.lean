import Mathlib.Logic.Function.Iterate

set_option autoImplicit false

namespace LightModem

structure Crc16Context where
  crctab : UInt8 → UInt16
  polynome : UInt16

/-- One turn of the inner loop of `crc16_init`, whose `crc` has 32 bits and is not truncated. -/
def crc16Shift (polynome : UInt16) (crc : UInt32) : UInt32 :=
  let highbit := (crc &&& 0x8000).toUInt16
  let crc := crc <<< 1
  if highbit ≠ 0 then crc ^^^ polynome.toUInt32 else crc

def crc16Init (polynome : UInt16) : Crc16Context where
  crctab i := ((crc16Shift polynome)^[8] (i.toUInt32 <<< 8) &&& 0xFFFF).toUInt16
  polynome := polynome

def crc16DoCalcul (pThis : Crc16Context) (data : List UInt8) (initValue xorFinal : UInt16) : UInt16 :=
  let crc := data.foldl (fun (crc : UInt16) (b : UInt8) =>
    let k := ((crc >>> 8) ^^^ b.toUInt16) &&& 0xFF
    (crc <<< 8) ^^^ pThis.crctab k.toUInt8) initValue
  crc ^^^ xorFinal

end LightModem
