import Chainfolio.Abi.Decode
import Chainfolio.Node.Event
import Chainfolio.Node.Method
import Chainfolio.Run

/-! Nodes: what a chain answers to contract calls, log queries and questions about blocks. -/
namespace Chainfolio

/-- A call of a contract function at a block, the latest one when absent. -/
structure Call where
  target : Address
  method : Method
  args : List AbiValue
  block : Option Block := none
  sender : Option Address := none

/-- What a contract returned; a failed call may return data as well. -/
structure Reply where
  success : Bool
  data : List UInt8
  deriving DecidableEq

/-- The answers of a node. An absent reply means that the node itself failed. -/
structure Node where
  call : Call → Option Reply
  logs : LogFilter → Option (List Log)
  blockNumber : Option Block
  timestamp : Option Block → Option (Option UInt64)

/-- The node of a chain in a state. -/
abbrev Provider (σ : Type) := σ → Node

/-- The values of a successful reply. -/
def Reply.values? (method : Method) (r : Reply) : Option (List AbiValue) :=
  if r.success then AbiType.decode? method.outputs r.data else none

namespace Provider

variable {σ : Type}

def call (p : Provider σ) (c : Call) : Run σ (List AbiValue) := do
  match (← Run.read p).call c with
  | some r =>
    match r.values? c.method with
    | some values => pure values
    | none => throw .contract
  | none => throw .contract

/-- The replies of several calls made at once, without a sender. -/
def multicall (p : Provider σ) (calls : List Call) : Run σ (List Reply) := do
  let node ← Run.read p
  match calls.mapM fun c => node.call { c with sender := none } with
  | some replies => pure replies
  | none => throw .multicall

/-- The values of several calls made at once, all of which have to succeed. -/
def aggregate (p : Provider σ) (calls : List Call) : Run σ (List (List AbiValue)) := do
  let replies ← p.multicall calls
  Run.ofOption .multicall ((calls.zip replies).mapM fun (c, r) => r.values? c.method)

def logs (p : Provider σ) (f : LogFilter) : Run σ (List Log) := do
  match (← Run.read p).logs f with
  | some logs => pure logs
  | none => throw .rpc

def blockNumber (p : Provider σ) : Run σ Block := do
  match (← Run.read p).blockNumber with
  | some b => pure b
  | none => throw .rpc

def timestamp (p : Provider σ) (block : Option Block) : Run σ UInt64 := do
  match (← Run.read p).timestamp block with
  | some (some t) => pure t
  | some none => throw (.blockNotFound block)
  | none => throw .rpc

def word (p : Provider σ) (c : Call) : Run σ Word := do
  match ← p.call c with
  | [.word w] => pure w
  | _ => throw .contract

/-- A call that returns several words, perhaps in a tuple. -/
def words (p : Provider σ) (c : Call) : Run σ (List Word) := do
  Run.ofOption .contract (AbiValue.words? (← p.call c))

def address (p : Provider σ) (c : Call) : Run σ Address := do
  return Address.ofWord (← p.word c)

end Provider

end Chainfolio
