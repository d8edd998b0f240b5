import Chainfolio.Word

/-! Contract types and values. Every elementary value is one word; what a type reads of a word is
its own bits and nothing else. -/
namespace Chainfolio

inductive AbiType where
  | uint (bits : Nat)
  | int (bits : Nat)
  | address
  | bool
  | bytes32
  | string
  | array (item : AbiType)
  | tuple (items : List AbiType)

inductive AbiValue where
  | word (w : Word)
  | text (s : String)
  | list (items : List AbiValue)

namespace AbiValue

mutual

def same : AbiValue → AbiValue → Bool
  | .word a, .word b => a = b
  | .text a, .text b => a = b
  | .list a, .list b => sameList a b
  | _, _ => false

def sameList : List AbiValue → List AbiValue → Bool
  | [], [] => true
  | a :: as, b :: bs => same a b && sameList as bs
  | _, _ => false

end

def address (a : Address) : AbiValue := .word a.toWord

def hash (h : Hash) : AbiValue := .word h.bits

def half (h : HalfWord) : AbiValue := .word h.widen

def word? : AbiValue → Option Word
  | .word w => some w
  | _ => none

/-- The words that some values are, or that one tuple of them holds. -/
def words? : List AbiValue → Option (List Word)
  | [.list items] => items.mapM word?
  | values => values.mapM word?

end AbiValue

namespace AbiType

/-- The word that a type reads: unsigned types keep low bits, signed ones extend their sign. -/
def clean : AbiType → Word → Word
  | .uint bits, w => (w.setWidth bits).setWidth 256
  | .int bits, w => (w.setWidth bits).signExtend 256
  | .address, w => (Address.ofWord w).toWord
  | .bool, w => if w = 0 then 0 else 1
  | _, w => w

mutual

/-- Whether the encoding of a type is kept apart from its place, behind an offset. -/
def isDynamic : AbiType → Bool
  | .string => true
  | .array _ => true
  | .tuple items => anyDynamic items
  | _ => false

def anyDynamic : List AbiType → Bool
  | [] => false
  | t :: rest => isDynamic t || anyDynamic rest

end

end AbiType

end Chainfolio
