import Chainfolio.Adapter.Basic
import Chainfolio.Config
import Chainfolio.Registry.Order

/-! The registry of adapters: one per product and chain, in ascending order of their keys. Beside
them it keeps the nodes of the chains, and for each chain an index from protocol tokens to adapters
once that has been built. -/
namespace Chainfolio

/-- The adapter that each protocol token belongs to. -/
abbrev TokenIndex (σ : Type) := List (Address × Adapter σ)

structure Registry (σ : Type) where
  providers : Chain → Option (Provider σ)
  adapters : List (Adapter σ)
  ordered : adapters.Pairwise fun a b => a.key.Before b.key
  indexes : Chain → Option (TokenIndex σ)

namespace Registry

variable {σ : Type}

def empty (providers : Chain → Option (Provider σ)) : Registry σ :=
  ⟨providers, [], .nil, fun _ => none⟩

/-- Adds an adapter in front of the first one that comes after it. -/
def insertAdapter (a : Adapter σ) : List (Adapter σ) → List (Adapter σ)
  | [] => [a]
  | b :: rest => if a.key.Before b.key then a :: b :: rest else b :: insertAdapter a rest

theorem mem_insertAdapter {a c : Adapter σ} {adapters : List (Adapter σ)} :
    c ∈ insertAdapter a adapters ↔ c = a ∨ c ∈ adapters := by
  induction adapters with
  | nil => simp [insertAdapter]
  | cons b rest ih =>
    by_cases h : a.key.Before b.key
    · simp [insertAdapter, h]
    · simp only [insertAdapter, h, if_false, List.mem_cons, ih]
      exact or_left_comm

/-- Adding an adapter with a new key keeps the order. -/
theorem ordered_insertAdapter {a : Adapter σ} {adapters : List (Adapter σ)}
    (ordered : adapters.Pairwise fun a b => a.key.Before b.key)
    (isNew : ∀ b ∈ adapters, b.key ≠ a.key) :
    (insertAdapter a adapters).Pairwise fun a b => a.key.Before b.key := by
  induction adapters with
  | nil => simp [insertAdapter]
  | cons b rest ih =>
    obtain ⟨first, ordered⟩ := List.pairwise_cons.1 ordered
    by_cases h : a.key.Before b.key
    · simp only [insertAdapter, h, if_true]
      refine List.pairwise_cons.2 ⟨?_, List.pairwise_cons.2 ⟨first, ordered⟩⟩
      intro c hc
      rcases List.mem_cons.1 hc with rfl | hc
      · exact h
      · exact ProductKey.before_trans h (first c hc)
    · simp only [insertAdapter, h, if_false]
      refine List.pairwise_cons.2 ⟨?_, ih ordered fun c hc => isNew c (List.mem_cons_of_mem _ hc)⟩
      intro c hc
      rcases mem_insertAdapter.1 hc with rfl | hc
      · exact (ProductKey.before_or_before (isNew b List.mem_cons_self)).resolve_right h
      · exact first c hc

/-- Adds an adapter, whose key has to be free. The index of its chain has to be built anew. -/
def register (r : Registry σ) (a : Adapter σ) : Except Fault (Registry σ) :=
  if h : ∀ b ∈ r.adapters, b.key ≠ a.key then
    .ok { r with
      adapters := insertAdapter a r.adapters
      ordered := ordered_insertAdapter r.ordered h
      indexes := fun c => if c = a.key.chain then none else r.indexes c }
  else .error (.duplicateAdapter a.key.chain a.key.protocol a.key.product)

def registerAll (r : Registry σ) : List (Adapter σ) → Except Fault (Registry σ)
  | [] => .ok r
  | a :: rest => do (← r.register a).registerAll rest

def find? (r : Registry σ) (key : ProductKey) : Option (Adapter σ) :=
  r.adapters.find? fun a => a.key = key

def adapter (r : Registry σ) (key : ProductKey) : Except Fault (Adapter σ) :=
  match r.find? key with
  | some a => .ok a
  | none => .error (.adapterNotFound key.chain key.protocol key.product)

def adaptersFor (r : Registry σ) (chain : Chain) : List (Adapter σ) :=
  r.adapters.filter fun a => a.key.chain = chain

def products (r : Registry σ) (chain : Chain) (protocol : Protocol) : List (Adapter σ) :=
  (r.adaptersFor chain).filter fun a => a.key.protocol = protocol

def protocols (r : Registry σ) : List Protocol :=
  Protocol.all.filter fun p => r.adapters.any fun a => a.key.protocol = p

def chains (r : Registry σ) : List Chain :=
  Chain.all.filter fun c => r.adapters.any fun a => a.key.chain = c

def size (r : Registry σ) : Nat := r.adapters.length

def isEmpty (r : Registry σ) : Bool := r.adapters.isEmpty

def provider (r : Registry σ) (chain : Chain) : Except Fault (Provider σ) :=
  match r.providers chain with
  | some p => .ok p
  | none => .error (.missingProvider chain)

/-- What the adapters of the chains that have a node are made from. -/
def contexts (providers : Chain → Option (Provider σ)) (store : Option (MetadataStore σ))
    (memo : ProductKey → Slot σ TokenMemo) : List (AdapterContext σ) :=
  Chain.all.filterMap fun c => (providers c).map fun p => ⟨c, p, store, memo⟩

/-- Registers every product on every chain that has a node and where it is deployed. -/
def ofProviders (providers : Chain → Option (Provider σ)) (factories : List (AdapterFactory σ))
    (store : Option (MetadataStore σ)) (memo : ProductKey → Slot σ TokenMemo) :
    Except Fault (Registry σ) :=
  (empty providers).registerAll
    ((contexts providers store memo).flatMap fun c => factories.filterMap fun f => f c)

/-- Where a node is reached: a port of the local host may be named without a scheme. -/
def endpoint (url : Url) : Except UrlFault Url :=
  if url.scheme = "localhost".toList then Url.parse ("http://" ++ url.text) else .ok url

/-- Whether a node can be reached at an address: over plain or secure web connections. -/
def isReachable (url : Url) : Bool :=
  match endpoint url with
  | .ok u => u.scheme = "http".toList || u.scheme = "https".toList
  | .error _ => false

/-- Registers products on every chain that a configuration has a node for. -/
def ofConfig (config : Config) (connect : Chain → Provider σ) (factories : List (AdapterFactory σ))
    (store : Option (MetadataStore σ)) (memo : ProductKey → Slot σ TokenMemo) :
    Except Fault (Registry σ) :=
  if Chain.all.all fun c => (config.rpc c).all isReachable then
    ofProviders (fun c => (config.rpc c).map fun _ => connect c) factories store memo
  else .error .rpc

/-- Writes the listing of every product to a store, read anew, and counts them. Prices have none. -/
def writeMetadata (r : Registry σ) (store : MetadataStore σ) : Run σ Nat := do
  let written ← Run.forEach (fun a => do store.put a.key (← a.fetchProtocolTokens))
    (r.adapters.filter fun a => a.key.protocol ≠ .prices)
  return written.length

end Registry

end Chainfolio
