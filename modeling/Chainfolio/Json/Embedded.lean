import Chainfolio.Json.Reader

/-! Values that stand in others as texts. An object that opens with the reserved field holds nothing
but it, and the text in it spells the value that the object stands for. -/
namespace Chainfolio.Json

def embeddedName : String := "$serde_json::private::RawValue"

mutual

/-- The value with all values embedded in it, which `read` reads from their texts. -/
def expandWith (read : String → Option Json) : Json → Option Json
  | .obj [] => some (.obj [])
  | .obj ((name, v) :: rest) =>
    if name = embeddedName then
      match v, rest with
      | .str text, [] => read text
      | _, _ => none
    else (expandFields read ((name, v) :: rest)).map .obj
  | .arr items => (expandItems read items).map .arr
  | .sealed _ whole => expandWith read whole
  | j => some j

def expandItems (read : String → Option Json) : List Json → Option (List Json)
  | [] => some []
  | j :: rest => do return (← expandWith read j) :: (← expandItems read rest)

def expandFields (read : String → Option Json) :
    List (String × Json) → Option (List (String × Json))
  | [] => some []
  | (name, v) :: rest => do return (name, ← expandWith read v) :: (← expandFields read rest)

end

/-- Reads an embedded text. A text inside it is shorter, so that its length is fuel enough. -/
def readEmbedded : Nat → String → Option Json
  | 0, _ => none
  | fuel + 1, text => (parse? text).bind (expandWith (readEmbedded fuel))

/-- The value with all values embedded in it. -/
def expand? (j : Json) : Option Json :=
  expandWith (fun text => readEmbedded (text.length + 1) text) j

end Chainfolio.Json
