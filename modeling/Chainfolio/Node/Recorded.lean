import Chainfolio.Abi.Encode
import Chainfolio.Abi.Json
import Chainfolio.Node.Basic

/-! Recorded nodes: a node that answers from a list of calls, logs and block times. The first call
that matches answers; a call that none matches fails. -/
namespace Chainfolio

/-- The blocks at which a recorded call answers. -/
inductive CallBlock where
  | any
  | latest
  | at (block : Block)
  deriving DecidableEq

namespace CallBlock

def admits : CallBlock → Option Block → Bool
  | any, _ => true
  | latest, block => block.isNone
  | .at b, block => block = some b

end CallBlock

/-- A recorded call with what it returns; arguments and sender are compared when they are given. -/
structure RecordedCall where
  target : Address
  method : Method
  args : Option (List AbiValue)
  sender : Option Address
  block : CallBlock
  reply : Reply

/-- Whether a recorded call answers a call. -/
def RecordedCall.admits (r : RecordedCall) (c : Call) : Bool :=
  r.target = c.target && r.method = c.method && r.block.admits c.block &&
    (r.args.all fun args => AbiValue.sameList args c.args) &&
    (r.sender.all fun sender => c.sender = some sender)

/-- The questions that a node may be unable to answer. -/
structure Outages where
  calls : Bool := false
  logs : Bool := false
  blocks : Bool := false
  blockNumber : Bool := false
  deriving DecidableEq

/-- What a recorded node knows. An unfiltered one returns every log whatever is asked. -/
structure Recording where
  calls : List RecordedCall := []
  logs : List Log := []
  unfiltered : Bool := false
  outages : Outages := {}
  blockNumber : Option Block := none
  times : List (Option Block × UInt64) := []

def Recording.node (r : Recording) : Node where
  call c :=
    if r.outages.calls then none
    else some (match r.calls.find? fun e => e.admits c with
      | some e => e.reply
      | none => ⟨false, []⟩)
  logs f :=
    if r.outages.logs then none
    else some (if r.unfiltered then r.logs else r.logs.filter f.admits)
  blockNumber := if r.outages.blockNumber then none else r.blockNumber
  timestamp block :=
    if r.outages.blocks then none
    else some ((r.times.find? fun e => e.1 = block).map Prod.snd)

namespace Event

/-- The event of a name with its arguments in declared order. -/
def ofArgs? (name : String) (args : List AbiValue) : Option Event :=
  let addr := Address.ofWord
  match name, args with
  | "ERC20.Transfer", [.word a, .word b, .word v] => some (.transfer (addr a) (addr b) v)
  | "ERC4626.Deposit", [.word a, .word b, .word v, .word s] =>
    some (.vaultDeposit (addr a) (addr b) v s)
  | "ERC4626.Withdraw", [.word a, .word b, .word c, .word v, .word s] =>
    some (.vaultWithdraw (addr a) (addr b) (addr c) v s)
  | "Morpho.Supply", [.word i, .word a, .word b, .word v, .word s] =>
    some (.marketSupply ⟨i⟩ (addr a) (addr b) v s)
  | "Morpho.Withdraw", [.word i, .word a, .word b, .word c, .word v, .word s] =>
    some (.marketWithdraw ⟨i⟩ (addr a) (addr b) (addr c) v s)
  | "Morpho.Borrow", [.word i, .word a, .word b, .word c, .word v, .word s] =>
    some (.marketBorrow ⟨i⟩ (addr a) (addr b) (addr c) v s)
  | "Morpho.Repay", [.word i, .word a, .word b, .word v, .word s] =>
    some (.marketRepay ⟨i⟩ (addr a) (addr b) v s)
  | "CToken.Mint", [.word a, .word v, .word t] => some (.poolMint (addr a) v t)
  | "CToken.Redeem", [.word a, .word v, .word t] => some (.poolRedeem (addr a) v t)
  | "CToken.Borrow", [.word a, .word v, .word t, .word u] => some (.poolBorrow (addr a) v t u)
  | "CToken.RepayBorrow", [.word a, .word b, .word v, .word t, .word u] =>
    some (.poolRepay (addr a) (addr b) v t u)
  | "Uniswap.IncreaseLiquidity", [.word i, .word l, .word v, .word w] =>
    some (.increaseLiquidity i (l.setWidth 128) v w)
  | "Uniswap.Collect", [.word i, .word a, .word v, .word w] => some (.collect i (addr a) v w)
  | _, _ => none

def argTypes (name : String) : List AbiType :=
  let word := AbiType.uint 256
  match name with
  | "ERC20.Transfer" => [.address, .address, word]
  | "ERC4626.Deposit" => [.address, .address, word, word]
  | "ERC4626.Withdraw" => [.address, .address, .address, word, word]
  | "Morpho.Supply" | "Morpho.Repay" => [.bytes32, .address, .address, word, word]
  | "Morpho.Withdraw" | "Morpho.Borrow" => [.bytes32, .address, .address, .address, word, word]
  | "CToken.Mint" | "CToken.Redeem" => [.address, word, word]
  | "CToken.Borrow" => [.address, word, word, word]
  | "CToken.RepayBorrow" => [.address, .address, word, word, word]
  | "Uniswap.IncreaseLiquidity" => [word, .uint 128, word, word]
  | "Uniswap.Collect" => [word, .address, word, word]
  | _ => []

end Event

namespace Recording

def logOfJson? (j : Json) : Option Log := do
  let name ← (← j.get? "event").text?
  let args ← AbiType.membersOfJson? (Event.argTypes name) (← (← j.get? "args").items?)
  return {
    address := ← Address.ofJson? (← j.get? "address")
    event := ← Event.ofArgs? name args
    block := ← Json.nullable Json.uint64? ((j.get? "block").getD .null)
    transaction := ← Json.nullable Hash.ofJson? ((j.get? "tx").getD .null) }

def callBlockOfJson? : Option Json → Option CallBlock
  | none => some .any
  | some (.str "latest") => some .latest
  | some j => j.uint64?.map .at

/-- What a recorded call returns: values, bytes as they are, or a failure. -/
def replyOfJson? (method : Method) (j : Json) : Option Reply :=
  match j.get? "ret", j.get? "raw" with
  | some ret, _ => do
    let values ← AbiType.membersOfJson? method.outputs (← ret.items?)
    return ⟨true, AbiValue.encode (.tuple method.outputs) (.list values)⟩
  | none, some raw => do
    return ⟨true, ← Text.Hex.bytes? (Text.Hex.unmarked (← raw.text?).toList)⟩
  | none, none => some ⟨false, []⟩

def callOfJson? (j : Json) : Option RecordedCall := do
  let method ← Method.ofText? (← (← j.get? "fn").text?)
  return {
    target := ← Address.ofJson? (← j.get? "to")
    method := method
    args := ← match j.get? "args" with
      | none => some none
      | some args => (args.items?.bind (AbiType.membersOfJson? method.inputs)).map some
    sender := ← match j.get? "from" with
      | none => some none
      | some sender => (Address.ofJson? sender).map some
    block := ← callBlockOfJson? (j.get? "block")
    reply := ← replyOfJson? method j }

def timeOfField? (f : String × Json) : Option (Option Block × UInt64) := do
  let block ← if f.1 = "latest" then some none
    else (Text.parseUInt64 f.1).toOption.map fun n => some (UInt64.ofNat n)
  return (block, ← f.2.uint64?)

/-- Reads a list under a name, empty when missing. -/
def listOfJson? {α : Type} (j : Json) (name : String) (read : Json → Option α) :
    Option (List α) :=
  match j.get? name with
  | none => some []
  | some items => items.list? read

def ofJson? (j : Json) : Option Recording := do
  let fail ← listOfJson? j "fail" Json.text?
  return {
    calls := ← listOfJson? j "calls" callOfJson?
    logs := ← listOfJson? j "logs" logOfJson?
    unfiltered := ← match j.get? "rawLogs" with
      | none => some false
      | some b => b.bool?
    outages := {
      calls := fail.contains "eth_call"
      logs := fail.contains "eth_getLogs"
      blocks := fail.contains "eth_getBlockByNumber"
      blockNumber := fail.contains "eth_blockNumber" }
    blockNumber := ← Json.nullable Json.uint64? ((j.get? "blockNumber").getD .null)
    times := ← match j.get? "blocks" with
      | some (.obj fields) => fields.mapM timeOfField?
      | _ => some [] }

end Recording

end Chainfolio
