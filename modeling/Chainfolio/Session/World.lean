import Chainfolio.Node.Recorded
import Chainfolio.Store.Files
import Chainfolio.Store.TokenCache

/-! What changes while a session runs: the nodes, what adapters remember, and the stores. Parts of
which there may be many are numbered. -/
namespace Chainfolio

structure World where
  nodes : Chain → Node
  memos : Nat → ProductKey → TokenMemo
  counts : Nat → Nat
  memories : Nat → MemoryStore
  files : Nat → FileStore

namespace World

/-- Nodes that know nothing, nothing remembered, empty stores. -/
def initial : World where
  nodes _ := Recording.node {}
  memos _ _ := none
  counts _ := 0
  memories _ := {}
  files _ := .new

def provider (chain : Chain) : Provider World := fun w => w.nodes chain

def setNode (chain : Chain) (node : Node) (w : World) : World :=
  { w with nodes := fun c => if c = chain then node else w.nodes c }

/-- What the owner of a number remembers about a product. -/
def memo (number : Nat) (key : ProductKey) : Slot World TokenMemo where
  get w := w.memos number key
  set m w := { w with
    memos := fun n k => if n = number ∧ k = key then m else w.memos n k }

def count (number : Nat) : Slot World Nat where
  get w := w.counts number
  set c w := { w with counts := fun n => if n = number then c else w.counts n }

def memory (number : Nat) : Slot World MemoryStore where
  get w := w.memories number
  set m w := { w with memories := fun n => if n = number then m else w.memories n }

def directory (number : Nat) : Slot World FileStore where
  get w := w.files number
  set f w := { w with files := fun n => if n = number then f else w.files n }

end World

end Chainfolio
