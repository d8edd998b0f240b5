import Chainfolio.Registry.Basic

/-! The index from protocol tokens to the adapters that they belong to. It is built when it is first
asked for, from the listings of the adapters that take part in unwrapping; an adapter whose listing
fails is left out, and two adapters must not list the same token. A build that fails is not kept. -/
namespace Chainfolio

variable {σ : Type}

namespace TokenIndex

def owner? (index : TokenIndex σ) (address : Address) : Option (Adapter σ) :=
  (index.find? fun e => e.1 = address).map Prod.snd

def insert (chain : Chain) (a : Adapter σ) (index : TokenIndex σ) (address : Address) :
    Except Fault (TokenIndex σ) :=
  match index.owner? address with
  | none => .ok ((address, a) :: index)
  | some owner =>
    if owner.key = a.key then .ok index
    else .error (.duplicateProtocolToken chain address owner.key.label a.key.label)

def insertAll (chain : Chain) (a : Adapter σ) :
    TokenIndex σ → List ProtocolToken → Except Fault (TokenIndex σ)
  | index, [] => .ok index
  | index, t :: rest => do insertAll chain a (← insert chain a index t.token.address) rest

/-- Adds what adapters listed; listings that failed are left out. -/
def insertListings (chain : Chain) :
    TokenIndex σ → List (Adapter σ × Except Fault (List ProtocolToken)) →
      Except Fault (TokenIndex σ)
  | index, [] => .ok index
  | index, (_, .error _) :: rest => insertListings chain index rest
  | index, (a, .ok tokens) :: rest => do
    insertListings chain (← insertAll chain a index tokens) rest

end TokenIndex

namespace Registry

/-- The adapters of a chain that take part in unwrapping. -/
def unwrapping (r : Registry σ) (chain : Chain) : List (Adapter σ) :=
  (r.adaptersFor chain).filter fun a => a.settings.includeInUnwrap

def buildIndex (r : Registry σ) (chain : Chain) : Run σ (TokenIndex σ) := do
  let listed ← Run.forEach (fun a => do return (a, ← Run.outcome a.protocolTokens))
    (r.unwrapping chain)
  Run.ofExcept (TokenIndex.insertListings chain [] listed)

def setIndex (r : Registry σ) (chain : Chain) (index : TokenIndex σ) : Registry σ :=
  { r with indexes := fun c => if c = chain then some index else r.indexes c }

/-- The index of a chain, built at most once. -/
def tokenIndex (chain : Chain) : Run (Registry σ × σ) (TokenIndex σ) := do
  let r ← Run.read Prod.fst
  match r.indexes chain with
  | some index => return index
  | none =>
    let index ← Run.onSecond (r.buildIndex chain)
    Run.update fun (r, s) => (r.setIndex chain index, s)
    return index

def tokenAdapter (chain : Chain) (address : Address) : Run (Registry σ × σ) (Option (Adapter σ)) := do
  return (← tokenIndex chain).owner? address

end Registry

end Chainfolio
