import Chainfolio.Product
import Chainfolio.Run
import Chainfolio.Token

/-! Stores of protocol token listings by product, and the store that keeps them in memory. -/
namespace Chainfolio

structure MetadataStore (σ : Type) where
  get : ProductKey → Run σ (Option (List ProtocolToken))
  put : ProductKey → List ProtocolToken → Run σ Unit

/-- Listings kept in memory, the latest first. -/
structure MemoryStore where
  entries : List (ProductKey × List ProtocolToken) := []

namespace MemoryStore

def get? (m : MemoryStore) (key : ProductKey) : Option (List ProtocolToken) :=
  (m.entries.find? fun e => e.1 = key).map Prod.snd

def insert (m : MemoryStore) (key : ProductKey) (tokens : List ProtocolToken) : MemoryStore :=
  ⟨(key, tokens) :: m.entries.filter fun e => e.1 ≠ key⟩

def size (m : MemoryStore) : Nat := m.entries.length

theorem get?_insert (m : MemoryStore) (key other : ProductKey) (tokens : List ProtocolToken) :
    (m.insert key tokens).get? other = if key = other then some tokens else m.get? other := by
  by_cases h : key = other
  · simp [get?, insert, h]
  · simp only [get?, insert, List.find?_cons, h, decide_false, List.find?_filter, if_false]
    congr 2
    funext e
    by_cases he : e.1 = other <;> simp [he, Ne.symm h]

/-- The store that a part of the state is. -/
def store {σ : Type} (memory : Slot σ MemoryStore) : MetadataStore σ where
  get key := Run.read fun s => (memory.get s).get? key
  put key tokens := Run.update fun s => memory.set ((memory.get s).insert key tokens) s

end MemoryStore

end Chainfolio
