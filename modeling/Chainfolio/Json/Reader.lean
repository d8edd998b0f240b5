import Chainfolio.Json.Overrun
import Chainfolio.Json.Token

/-! Reads JSON text by a machine with a stack of open containers. A container nested 128 deep has no
value, though its text is still checked. -/
namespace Chainfolio.JsonText

/-- An open container with its parts in reverse, those of an array counted; a key without a value
spoils its object. -/
inductive Frame where
  | arr (items : List Json) (count : Nat)
  | obj (fields : List (Option String × Json)) (key : Option String)

/-- What may come next. `closing` tells whether the container may end here. -/
inductive Expect where
  | value (closing : Bool)
  | key (closing : Bool)
  | colon
  | separator

structure State where
  stack : List Frame
  expect : Expect
  done : Option Json

def State.initial : State := ⟨[], .value false, none⟩

/-- How many containers may be open around a readable value. -/
def depthLimit : Nat := 128

/-- The value of a finished container at a depth. -/
def Frame.close (depth : Nat) (f : Frame) : Json :=
  if depthLimit ≤ depth then .unreadable
  else match f with
    | .arr items _ => .arr items.reverse
    | .obj fields _ =>
      match fields.reverse.mapM fun (k, v) => k.map fun k => (k, v) with
      | some fields => .obj fields
      | none => .unreadable

/-- Hands a finished value to the innermost open container. -/
def State.fill (stack : List Frame) (j : Json) : State :=
  match stack with
  | [] => ⟨[], .separator, some j⟩
  | .arr items count :: rest => ⟨.arr (j :: items) (count + 1) :: rest, .separator, none⟩
  | .obj fields key :: rest => ⟨.obj ((key, j) :: fields) none :: rest, .separator, none⟩

def State.close (stack : List Frame) : Option State :=
  match stack with
  | [] => none
  | f :: rest => some (.fill rest (f.close stack.length))

def State.step (s : State) (t : Token) : Option State :=
  match s.expect, t, s.stack with
  | .value _, .value j, _ => some (.fill s.stack j)
  | .value _, .string text, _ =>
    some (.fill s.stack (match text with | some text => .str text | none => .unreadable))
  | .value _, .leftBracket, _ => some ⟨.arr [] 0 :: s.stack, .value true, none⟩
  | .value _, .leftBrace, _ => some ⟨.obj [] none :: s.stack, .key true, none⟩
  | .value true, .rightBracket, .arr .. :: _ => State.close s.stack
  | .key _, .string text, .obj fields _ :: rest => some ⟨.obj fields text :: rest, .colon, none⟩
  | .key true, .rightBrace, .obj _ _ :: _ => State.close s.stack
  | .colon, .colon, _ => some { s with expect := .value false }
  | .separator, .comma, .arr .. :: _ => some { s with expect := .value false }
  | .separator, .comma, .obj _ _ :: _ => some { s with expect := .key false }
  | .separator, .rightBracket, .arr .. :: _ => State.close s.stack
  | .separator, .rightBrace, .obj _ _ :: _ => State.close s.stack
  | _, _, _ => none

/-- How many bytes addresses and hashes have. -/
def byteWidths : List Nat := [20, 32]

/-- The bytes of the innermost container, if they are as many as an address or a hash has. -/
def State.bytes? (s : State) : Option (List UInt8) :=
  match s.expect, s.stack with
  | .separator, .arr items count :: _ =>
    if count ∈ byteWidths then items.reverse.mapM Json.byte? else none
  | _, _ => none

/-- The last element of an array, after its comma, and what follows the array. -/
def lastElement? (text : List Char) : Option (Json × List Char) :=
  match skipBlanks text with
  | ',' :: rest =>
    match token? (skipBlanks rest) with
    | some (.value j, rest) => (closed? rest).map fun rest => (j, rest)
    | some (.string text, rest) =>
      (closed? rest).map fun rest => (match text with | some s => .str s | none => .unreadable, rest)
    | _ => none
  | _ => none
where
  closed? (text : List Char) : Option (List Char) :=
    match skipBlanks text with
    | ']' :: rest => some rest
    | _ => none

/-- Closes an array of bytes that may be all that is asked for. -/
def State.seal (stack : List Frame) (bytes : List UInt8) (last : Option Json) : State :=
  match stack with
  | [] => ⟨[], .separator, none⟩
  | f :: rest =>
    let whole := match f, last with
      | .arr items count, some j => (Frame.arr (j :: items) (count + 1)).close stack.length
      | _, _ => .malformed
    .fill rest (if depthLimit ≤ stack.length then whole else .sealed bytes whole)

/-- After the bytes of an address or a hash: the array as it closes with one more element, unless
that element, read as a value, ends elsewhere. -/
def State.overrun? (s : State) (text : List Char) : Option (State × List Char) := do
  let bytes ← s.bytes?
  let rest ← Overrun.close? text
  match lastElement? text with
  | none => return (.seal s.stack bytes none, rest)
  | some (last, after) =>
    if after.length = rest.length then return (.seal s.stack bytes (some last), rest) else none

def State.run : Nat → State → List Char → Option State
  | 0, _, _ => none
  | fuel + 1, s, text =>
    match s.overrun? text with
    | some (s, rest) => run fuel s rest
    | none =>
      match skipBlanks text with
      | [] => some s
      | text =>
        match token? text with
        | none => none
        | some (t, rest) =>
          match s.step t with
          | none => none
          | some s => run fuel s rest

end Chainfolio.JsonText

namespace Chainfolio

/-- Reads the JSON value that a whole text spells. -/
def Json.parse? (text : String) : Option Json := do
  let last ← JsonText.State.run (text.length + 1) .initial text.toList
  last.done

end Chainfolio
