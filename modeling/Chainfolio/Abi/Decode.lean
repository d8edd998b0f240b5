import Chainfolio.Abi.Basic
import Chainfolio.Text.Utf8

/-! Decoding of contract values. Offsets count from the start of the enclosing dynamic part; bits
that a type does not read, bytes behind the last value and padding are not looked at. -/
namespace Chainfolio.AbiType

def wordAt? (buffer : List UInt8) (place : Nat) : Option Word :=
  let bytes := (buffer.drop place).take 32
  if bytes.length = 32 then some (Word.ofBytes bytes) else none

/-- The part of a buffer that the word at a place points to. -/
def behind? (buffer : List UInt8) (place : Nat) : Option (List UInt8) := do
  let offset ← wordAt? buffer place
  if offset.toNat ≤ buffer.length then some (buffer.drop offset.toNat) else none

def many {α : Type} (item : Nat → Option (α × Nat)) : Nat → Nat → Option (List α)
  | 0, _ => some []
  | count + 1, place => do
    let (a, next) ← item place
    return a :: (← many item count next)

mutual

/-- The value at a place, and the place behind it. -/
def decodeAt? : AbiType → List UInt8 → Nat → Option (AbiValue × Nat)
  | .string, buffer, place => do
    let part ← behind? buffer place
    let length ← wordAt? part 0
    let bytes := (part.drop 32).take length.toNat
    if bytes.length = length.toNat then some (.text (Text.Utf8.decodeLossy bytes), place + 32)
    else none
  | .array t, buffer, place => do
    let part ← behind? buffer place
    let count ← wordAt? part 0
    let items ← many (fun i => decodeAt? t (part.drop 32) i) count.toNat 0
    return (.list items, place + 32)
  | .tuple ts, buffer, place =>
    if anyDynamic ts then do
      let part ← behind? buffer place
      let (items, _) ← decodeMembers? ts part 0
      return (.list items, place + 32)
    else do
      let (items, next) ← decodeMembers? ts buffer place
      return (.list items, next)
  | t, buffer, place => do
    let w ← wordAt? buffer place
    return (.word (t.clean w), place + 32)

def decodeMembers? : List AbiType → List UInt8 → Nat → Option (List AbiValue × Nat)
  | [], _, place => some ([], place)
  | t :: ts, buffer, place => do
    let (v, next) ← decodeAt? t buffer place
    let (vs, last) ← decodeMembers? ts buffer next
    return (v :: vs, last)

end

/-- The values of a sequence of types at the start of some bytes. -/
def decode? (types : List AbiType) (bytes : List UInt8) : Option (List AbiValue) :=
  (decodeMembers? types bytes 0).map Prod.fst

end Chainfolio.AbiType
