import Chainfolio.Json.Reader

/-! Values that are held before anything is read from them. In a held value any element at all, if it
is no byte, may stand after the bytes of an address or a hash. -/
namespace Chainfolio.Json

/-- The bytes of an address or a hash that some items open with, if one more item follows them and is
no byte. -/
def overrunBytes? (items : List Json) : Option (List UInt8) :=
  JsonText.byteWidths.findSome? fun width =>
    if items.length = width + 1 ∧ (items.getLast?.bind byte?).isNone then
      items.dropLast.mapM byte?
    else none

mutual

/-- The value as it is once it is held. -/
def held : Json → Json
  | .arr items =>
    let whole := .arr (heldItems items)
    match overrunBytes? items with
    | some bytes => .sealed bytes whole
    | none => whole
  | .obj fields => .obj (heldFields fields)
  | .sealed _ whole => held whole
  | j => j

def heldItems : List Json → List Json
  | [] => []
  | j :: rest => held j :: heldItems rest

def heldFields : List (String × Json) → List (String × Json)
  | [] => []
  | (name, v) :: rest => (name, held v) :: heldFields rest

end

end Chainfolio.Json
