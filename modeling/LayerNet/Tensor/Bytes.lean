import LayerNet.Number.Hex
import LayerNet.Tensor.Crash

/-!
Byte buffers: little-endian words inside them, their sizes, and their contents as hexadecimal text.
-/

set_option autoImplicit false
set_option relaxedAutoImplicit false

namespace LayerNet

abbrev Bytes := ByteArray

namespace Bytes

/-- A buffer of zeros, made of two halves. -/
def zeros (size : Nat) : Bytes :=
  if size = 0 then .empty
  else
    let half := zeros (size / 2)
    if size % 2 = 0 then half ++ half else (half ++ half).push 0
termination_by size
decreasing_by omega

def allocate (size : Nat) : Except Crash Bytes := do
  Crash.reserve size
  return zeros size

def word? (data : Bytes) : Nat → Nat → Option Nat
  | _, 0 => some 0
  | start, size + 1 => do
    let low ← data[start]?
    let high ← data.word? (start + 1) size
    return low.toNat + 256 * high

def setByte (data : Bytes) (index : Nat) (byte : UInt8) : Bytes :=
  if h : index < data.size then data.set index byte h else data

def storeWord (data : Bytes) : Nat → Nat → Nat → Bytes
  | _, 0, _ => data
  | start, size + 1, word =>
    storeWord (data.setByte start (UInt8.ofNat word)) (start + 1) size (word / 256)

/-- The buffer cut or extended with zeros to a size, if there is room for it. -/
def resize (data : Bytes) (size : Nat) : Except Crash Bytes := do
  Crash.reserve size
  return data.extract 0 size ++ zeros (size - data.size)

def hex (data : Bytes) : String :=
  String.join (data.toList.map fun byte => hexText 2 byte.toNat)

/-- The bytes that pairs of hexadecimal digits stand for. -/
def ofHexDigits : List Char → List UInt8
  | high :: low :: rest => UInt8.ofNat (hexValue [high, low]) :: ofHexDigits rest
  | _ => []

def ofHex (text : String) : Bytes := (ofHexDigits text.toList).toByteArray

end Bytes

end LayerNet
