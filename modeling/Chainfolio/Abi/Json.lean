import Chainfolio.Abi.Basic
import Chainfolio.Codec.Word

/-! Contract values written in JSON: numbers as decimal text, tuples and arrays as lists. -/
namespace Chainfolio.AbiType

/-- The word of a signed decimal text or of a JSON integer. -/
def numberOfJson? : Json → Option Word
  | .str s =>
    match s.toList with
    | '-' :: rest => (Word.ofText? (String.ofList rest)).map fun w => -w
    | _ => Word.ofText? s
  | .num (.natural n) => Word.ofNat? n
  | .num (.negative n) => (Word.ofNat? n).map fun w => -w
  | _ => none

mutual

/-- The value of a type that a JSON value stands for. -/
def ofJson? : AbiType → Json → Option AbiValue
  | .uint _, j => (numberOfJson? j).map .word
  | .int _, j => (numberOfJson? j).map .word
  | .address, j => (Address.ofJson? j).map .address
  | .bytes32, j => (Hash.ofJson? j).map .hash
  | .bool, j => j.bool?.map fun b => .word (if b then 1 else 0)
  | .string, j => j.text?.map .text
  | .array t, .arr items => (items.mapM fun j => ofJson? t j).map .list
  | .tuple ts, .arr items => (membersOfJson? ts items).map .list
  | _, _ => none

def membersOfJson? : List AbiType → List Json → Option (List AbiValue)
  | [], [] => some []
  | t :: ts, j :: js => do return (← ofJson? t j) :: (← membersOfJson? ts js)
  | _, _ => none

end

end Chainfolio.AbiType
