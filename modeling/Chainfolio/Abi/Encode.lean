import Chainfolio.Abi.Basic

/-! Encoding of contract values: fixed parts in order, dynamic parts behind them with an offset in
their place. -/
namespace Chainfolio.AbiValue

/-- An encoded member: whether it is dynamic, and its bytes. -/
abbrev Part := Bool × List UInt8

/-- The bytes of a length or an offset. -/
def countBytes (n : Nat) : List UInt8 := Word.bytes (BitVec.ofNat 256 n)

/-- The length of what stands in a member's place. -/
def headLength (p : Part) : Nat := if p.1 then 32 else p.2.length

def headsLength : List Part → Nat
  | [] => 0
  | p :: rest => headLength p + headsLength rest

/-- Places in order, then the dynamic members. -/
def layout (parts : List Part) : List UInt8 :=
  let placed := parts.foldl (fun (acc : List UInt8 × Nat) p =>
    if p.1 then (acc.1 ++ countBytes acc.2, acc.2 + p.2.length)
    else (acc.1 ++ p.2, acc.2)) ([], headsLength parts)
  placed.1 ++ parts.flatMap fun p => if p.1 then p.2 else []

/-- Bytes behind their length, padded to whole words. -/
def packed (bytes : List UInt8) : List UInt8 :=
  countBytes bytes.length ++ bytes ++
    List.replicate ((32 - bytes.length % 32) % 32) 0

mutual

/-- The bytes of a value without the offset that may stand in its place. -/
def encode : AbiType → AbiValue → List UInt8
  | .string, .text s => packed s.toUTF8.toList
  | .array t, .list items =>
    countBytes items.length ++
      layout (items.map fun v => (t.isDynamic, encode t v))
  | .tuple ts, .list items => layout (encodeMembers ts items)
  | _, .word w => w.bytes
  | _, _ => []

def encodeMembers : List AbiType → List AbiValue → List Part
  | t :: ts, v :: vs => (t.isDynamic, encode t v) :: encodeMembers ts vs
  | _, _ => []

end

end Chainfolio.AbiValue
