import Chainfolio.Store.Basic

/-! Listings that are read once: from memory if they have been read before, else from a store if it
has them, else from the source, which is then written to the store. A failure is not remembered. -/
namespace Chainfolio

/-- A listing once it has been read. -/
abbrev TokenMemo := Option (List ProtocolToken)

/-- The listing of one product, with the store behind it. -/
structure TokenCache (σ : Type) where
  key : ProductKey
  store : Option (MetadataStore σ)
  memo : Slot σ TokenMemo

namespace TokenCache

variable {σ : Type}

def stored (c : TokenCache σ) : Run σ (Option (List ProtocolToken)) :=
  match c.store with
  | some store => store.get c.key
  | none => pure none

/-- Writes a listing to the store, if there is one. -/
def save (c : TokenCache σ) (tokens : List ProtocolToken) : Run σ Unit :=
  match c.store with
  | some store => store.put c.key tokens
  | none => pure ()

/-- The listing behind memory: what is stored, or else what the source gives, which is saved. -/
def load (c : TokenCache σ) (fetch : Run σ (List ProtocolToken)) : Run σ (List ProtocolToken) := do
  match ← c.stored with
  | some tokens => pure tokens
  | none =>
    let tokens ← fetch
    c.save tokens
    pure tokens

/-- The listing, read at most once. -/
def getOrFetch (c : TokenCache σ) (fetch : Run σ (List ProtocolToken)) :
    Run σ (List ProtocolToken) := do
  match ← Run.read c.memo.get with
  | some tokens => pure tokens
  | none =>
    let tokens ← c.load fetch
    Run.update (c.memo.set (some tokens))
    pure tokens

end TokenCache

end Chainfolio
