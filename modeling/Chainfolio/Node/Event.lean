import Chainfolio.Word

/-! The contract events that movements are read from. A log is matched by the kind of its event and,
position by position, by the event's indexed arguments. -/
namespace Chainfolio

/-- An event with its arguments in declared order. -/
inductive Event where
  | transfer (sender recipient : Address) (value : Word)
  | vaultDeposit (sender owner : Address) (assets shares : Word)
  | vaultWithdraw (sender receiver owner : Address) (assets shares : Word)
  | marketSupply (id : Hash) (caller onBehalf : Address) (assets shares : Word)
  | marketWithdraw (id : Hash) (caller onBehalf receiver : Address) (assets shares : Word)
  | marketBorrow (id : Hash) (caller onBehalf receiver : Address) (assets shares : Word)
  | marketRepay (id : Hash) (caller onBehalf : Address) (assets shares : Word)
  | poolMint (minter : Address) (amount tokens : Word)
  | poolRedeem (redeemer : Address) (amount tokens : Word)
  | poolBorrow (borrower : Address) (amount accountBorrows totalBorrows : Word)
  | poolRepay (payer borrower : Address) (amount accountBorrows totalBorrows : Word)
  | increaseLiquidity (tokenId : Word) (liquidity : HalfWord) (amount0 amount1 : Word)
  | collect (tokenId : Word) (recipient : Address) (amount0 amount1 : Word)
  deriving DecidableEq

/-- What an event announces. -/
inductive EventKind where
  | transfer
  | vaultDeposit
  | vaultWithdraw
  | marketSupply
  | marketWithdraw
  | marketBorrow
  | marketRepay
  | poolMint
  | poolRedeem
  | poolBorrow
  | poolRepay
  | increaseLiquidity
  | collect
  deriving DecidableEq

namespace Event

def kind : Event → EventKind
  | transfer .. => .transfer
  | vaultDeposit .. => .vaultDeposit
  | vaultWithdraw .. => .vaultWithdraw
  | marketSupply .. => .marketSupply
  | marketWithdraw .. => .marketWithdraw
  | marketBorrow .. => .marketBorrow
  | marketRepay .. => .marketRepay
  | poolMint .. => .poolMint
  | poolRedeem .. => .poolRedeem
  | poolBorrow .. => .poolBorrow
  | poolRepay .. => .poolRepay
  | increaseLiquidity .. => .increaseLiquidity
  | collect .. => .collect

def topics : Event → List Word
  | transfer sender recipient _ => [sender.toWord, recipient.toWord]
  | vaultDeposit sender owner _ _ => [sender.toWord, owner.toWord]
  | vaultWithdraw sender receiver owner _ _ => [sender.toWord, receiver.toWord, owner.toWord]
  | marketSupply id caller onBehalf _ _ => [id.bits, caller.toWord, onBehalf.toWord]
  | marketWithdraw id _ onBehalf receiver _ _ => [id.bits, onBehalf.toWord, receiver.toWord]
  | marketBorrow id _ onBehalf receiver _ _ => [id.bits, onBehalf.toWord, receiver.toWord]
  | marketRepay id caller onBehalf _ _ => [id.bits, caller.toWord, onBehalf.toWord]
  | increaseLiquidity tokenId .. => [tokenId]
  | collect tokenId .. => [tokenId]
  | _ => []

end Event

/-- An event as a node reports it; a pending one lacks its block or its transaction. -/
structure Log where
  address : Address
  event : Event
  block : Option Block
  transaction : Option Hash
  deriving DecidableEq

/-- Which logs are asked for: a contract, a kind of event, its first indexed arguments where they
matter, and a range of blocks. -/
structure LogFilter where
  address : Address
  kind : EventKind
  topics : List (Option Word)
  fromBlock : Block
  toBlock : Block
  deriving DecidableEq

namespace LogFilter

/-- Whether indexed arguments agree with the ones asked for. -/
def topicsMatch : List (Option Word) → List Word → Bool
  | [], _ => true
  | none :: asked, _ :: topics => topicsMatch asked topics
  | some t :: asked, u :: topics => t = u && topicsMatch asked topics
  | _ :: _, [] => false

/-- Whether a block is in the range; a log without one is never left out. -/
def inRange (f : LogFilter) (block : Option Block) : Bool :=
  match block with
  | none => true
  | some b => f.fromBlock ≤ b && b ≤ f.toBlock

/-- Whether a log is one of those asked for. -/
def admits (f : LogFilter) (l : Log) : Bool :=
  l.address = f.address && l.event.kind = f.kind && topicsMatch f.topics l.event.topics &&
    f.inRange l.block

end LogFilter

end Chainfolio
