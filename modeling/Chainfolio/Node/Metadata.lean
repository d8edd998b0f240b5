import Chainfolio.Node.Basic
import Chainfolio.Token

/-! Token metadata: name, symbol and decimals, asked for at once at the latest block. Names may also
be kept in a fixed word of bytes. -/
namespace Chainfolio

/-- The sentinel address that stands for the native token. -/
def Token.nativeSentinel : Address := ⟨0xEeeeeEeeeEeEeeEeEeEeeEEEeeeeEeeeeeeeEEeE⟩

namespace Metadata

/-- The text in the first word of some bytes, without the zeros at its end. -/
def wordText? (data : List UInt8) : Option String :=
  if data.length < 32 then none
  else
    let kept := ((data.take 32).reverse.dropWhile (· = 0)).reverse
    some (Text.Utf8.decodeLossy kept)

/-- A name: a text if the reply is one, else the text of its first word. -/
def text? (method : Method) (r : Reply) : Option String :=
  match r.values? method with
  | some [.text s] => some s
  | _ => wordText? r.data

def decimals? (r : Reply) : Option UInt8 :=
  match r.values? .decimals with
  | some [.word w] => some (UInt8.ofNat w.toNat)
  | _ => none

/-- A part of the metadata, or the fault of the call that should have given it. -/
def member {α : Type} (address : Address) (index : Nat) (a : Option α) : Except Fault α :=
  match a with
  | some a => .ok a
  | none => .error (.tokenMetadata address index)

/-- The token that three replies describe; the first one at fault is reported. -/
def ofReplies (address : Address) (name symbol decimals : Reply) : Except Fault Token := do
  let name ← member address 0 (text? .name name)
  let symbol ← member address 1 (text? .symbol symbol)
  let decimals ← member address 2 (decimals? decimals)
  return ⟨address, name, symbol, decimals⟩

end Metadata

/-- The token at an address. The zero address and the sentinel are the native token. -/
def Provider.token {σ : Type} (p : Provider σ) (chain : Chain) (address : Address) :
    Run σ Token := do
  if address = .zero ∨ address = Token.nativeSentinel then
    return { Token.native chain with address := address }
  else
    match ← p.multicall [⟨address, .name, [], none, none⟩, ⟨address, .symbol, [], none, none⟩,
      ⟨address, .decimals, [], none, none⟩] with
    | [name, symbol, decimals] => Run.ofExcept (Metadata.ofReplies address name symbol decimals)
    | _ => throw .multicall

end Chainfolio
