import Chainfolio.Json.Record
import Chainfolio.Text.Amount

/-! JSON forms of words, addresses and hashes: decimal text and hexadecimal text. Addresses and
hashes are also read from arrays of bytes. -/
namespace Chainfolio

def Word.toJson (w : Word) : Json := .str w.text

def Word.ofJson? (j : Json) : Option Word := j.text?.bind Word.ofText?

def HalfWord.toJson (w : HalfWord) : Json := .str w.text

def Json.bytes? : Json → Option (List UInt8)
  | .sealed bytes _ => some bytes
  | j => j.list? Json.byte?

/-- The big-endian number of exactly `count` bytes. -/
def Json.bytesValue? (count : Nat) (j : Json) : Option Nat := do
  let bytes ← j.bytes?
  if bytes.length = count then some (bytes.foldl (fun acc b => 256 * acc + b.toNat) 0) else none

def Address.toJson (a : Address) : Json := .str a.text

def Address.ofJson? (j : Json) : Option Address :=
  match j with
  | .str s => Address.ofText? s
  | j => (j.bytesValue? 20).map fun n => ⟨BitVec.ofNat 160 n⟩

def Hash.toJson (h : Hash) : Json := .str h.text

def Hash.ofJson? (j : Json) : Option Hash :=
  match j with
  | .str s => Hash.ofText? s
  | j => (j.bytesValue? 32).map fun n => ⟨BitVec.ofNat 256 n⟩

end Chainfolio
