import Chainfolio.Adapter.Cached
import Chainfolio.Adapter.Rewards
import Chainfolio.Adapter.Scripted
import Chainfolio.Catalogue
import Chainfolio.Resolution.Registry
import Chainfolio.Session.World

/-! Sessions: adapters, stores and caches under names, one registry, and the world that they live in.
Every operation leaves what it changed before it failed. -/
namespace Chainfolio

inductive SessionStore where
  | memory (number : Nat)
  | directory (number : Nat)
  deriving DecidableEq

def SessionStore.store : SessionStore → MetadataStore World
  | memory n => MemoryStore.store (World.memory n)
  | directory n => FileStore.store (World.directory n)

/-- Named things, of which the latest counts. -/
abbrev Named (α : Type) := List (String × α)

structure Session where
  world : World := .initial
  registry : Registry World := .empty fun _ => none
  adapters : Named (Adapter World) := []
  listings : Named Nat := []
  stores : Named SessionStore := []
  caches : Named (TokenCache World × Nat) := []
  numbers : Nat := 0

namespace Session

def named {α : Type} (things : Session → Named α) (name : String) : Run Session α := do
  Run.ofOption (.input (.refused ("nothing is named " ++ name)))
    ((← Run.read things).lookup name)

def inWorld {α : Type} (x : Run World α) : Run Session α := fun s =>
  let (a, w) := x s.world
  (a, { s with world := w })

def inRegistry {α : Type} (x : Run (Registry World × World) α) : Run Session α := fun s =>
  let (a, r, w) := x (s.registry, s.world)
  (a, { s with registry := r, world := w })

def newNumber : Run Session Nat := do
  let n ← Run.read Session.numbers
  Run.update fun s => { s with numbers := n + 1 }
  return n

def setNode (chain : Chain) (r : Recording) : Run Session Unit :=
  inWorld (Run.update (World.setNode chain r.node))

def addStore (name : String) (kind : Nat → SessionStore) : Run Session Unit := do
  let n ← newNumber
  Run.update fun s => { s with stores := (name, kind n) :: s.stores }

/-- The store of a name, if one is given. -/
def storeOf (name : Option String) : Run Session (Option (MetadataStore World)) := do
  match name with
  | none => return none
  | some name => return some (← named Session.stores name).store

/-- What an adapter on a chain is made from. -/
def context (chain : Chain) (store : Option (MetadataStore World)) :
    Run Session (AdapterContext World) := do
  let n ← newNumber
  return ⟨chain, World.provider chain, store, World.memo n⟩

def addAdapter (name : String) (a : Adapter World) : Run Session ProductKey := do
  Run.update fun s => { s with adapters := (name, a) :: s.adapters }
  return a.key

/-- Names an adapter that follows a script. -/
def addScript (name : String) (script : Script) : Run Session ProductKey := do
  let n ← newNumber
  Run.update fun s => { s with listings := (name, n) :: s.listings }
  addAdapter name (script.adapter (World.count n))

/-- Names the adapter of two others, one of which reports the rewards. -/
def addClaiming (name inner rewards : String) : Run Session ProductKey := do
  let inner ← named Session.adapters inner
  addAdapter name (inner.claiming (← named Session.adapters rewards))

/-- Names an adapter that reads the listing of another through a cache. -/
def addCached (name inner : String) (store : Option String) : Run Session ProductKey := do
  let inner ← named Session.adapters inner
  let store ← storeOf store
  let n ← newNumber
  addAdapter name (inner.cached store (World.memo n inner.key))

/-- Names the adapter of a product, unless the product is not deployed on the chain. -/
def addProduct (name : String) (factory : AdapterFactory World) (chain : Chain)
    (store : Option String) : Run Session (Option ProductKey) := do
  match factory (← context chain (← storeOf store)) with
  | none => return none
  | some a => return some (← addAdapter name a)

/-- Names the adapter of a product whose listing is already in a store of its own. -/
def addListed (name : String) (factory : AdapterFactory World) (chain : Chain)
    (tokens : List ProtocolToken) : Run Session (Option ProductKey) := do
  let store := SessionStore.memory (← newNumber)
  match factory (← context chain (some store.store)) with
  | none => return none
  | some a =>
    inWorld (store.store.put a.key tokens)
    return some (← addAdapter name a)

/-- How often the listing of a scripted adapter was read. -/
def listingCount (name : String) : Run Session Nat := do
  let n ← named Session.listings name
  Run.read fun s => (World.count n).get s.world

def setRegistry (r : Except Fault (Registry World)) : Run Session Nat := do
  let r ← Run.ofExcept r
  Run.update fun s => { s with registry := r }
  return r.size

/-- Starts a registry of products on some chains. -/
def newRegistry (chains : List Chain) (factories : List (AdapterFactory World))
    (store : Option String) : Run Session Nat := do
  let store ← storeOf store
  let n ← newNumber
  setRegistry (Registry.ofProviders
    (fun c => if c ∈ chains then some (World.provider c) else none) factories store (World.memo n))

/-- Starts a registry of all products on the chains of a configuration. -/
def configuredRegistry (config : Config) (store : Option String) : Run Session Nat := do
  let store ← storeOf store
  let n ← newNumber
  setRegistry (Registry.ofConfig config World.provider Catalogue.factories store (World.memo n))

def register (name : String) : Run Session Unit := do
  let a ← named Session.adapters name
  let r ← Run.ofExcept ((← Run.read Session.registry).register a)
  Run.update fun s => { s with registry := r }

def registered (key : ProductKey) : Run Session (Adapter World) := do
  Run.ofExcept ((← Run.read Session.registry).adapter key)

def addCache (name : String) (key : ProductKey) (store : Option String) : Run Session Unit := do
  let store ← storeOf store
  let n ← newNumber
  Run.update fun s => { s with caches := (name, ⟨key, store, World.memo n key⟩, n) :: s.caches }

/-- A source of tokens that counts how often it is read and may fail. -/
def source (number : Nat) (tokens : Option (List ProtocolToken)) :
    Run World (List ProtocolToken) := do
  Run.update fun w => (World.count number).set ((World.count number).get w + 1) w
  Run.ofOption (.config (.refused "fetch failed")) tokens

/-- Reads a cache; says whether its source was read, and the tokens. -/
def readCache (name : String) (tokens : Option (List ProtocolToken)) :
    Run Session (Bool × List ProtocolToken) := do
  let (cache, n) ← named Session.caches name
  let before ← inWorld (Run.read (World.count n).get)
  let tokens ← inWorld (cache.getOrFetch (source n tokens))
  let after ← inWorld (Run.read (World.count n).get)
  return (after ≠ before, tokens)

def directoryNumber (name : String) : Run Session Nat := do
  match ← named Session.stores name with
  | .directory n => return n
  | .memory _ => throw .io

/-- How many listings a store in memory has. -/
def storeSize (name : String) : Run Session Nat := do
  match ← named Session.stores name with
  | .memory n => Run.read fun s => ((World.memory n).get s.world).size
  | .directory _ => throw .io

/-- Writes a text to a file of a store, or makes a directory. -/
def placeText (name path : String) (text : Option String) : Run Session Unit := do
  let n ← directoryNumber name
  inWorld ((World.directory n).run (FileStore.write path text))

/-- The JSON value in a file of a store, if there is a file. -/
def storedJson (name path : String) : Run Session (Option Json) := do
  let n ← directoryNumber name
  let files ← inWorld (Run.read (World.directory n).get)
  Run.ofExcept (files.read? path)

end Session

end Chainfolio
