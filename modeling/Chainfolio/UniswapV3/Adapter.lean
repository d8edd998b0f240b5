import Chainfolio.Adapter.Basic
import Chainfolio.Radix
import Chainfolio.UniswapV3.Position
import Chainfolio.UniswapV3.Ticks

/-! Uniswap v3 positions, read from the position manager and the pools. An NFT that is burned at a
block can no longer be read at it, so its tokens are then read one block earlier. -/
namespace Chainfolio.UniswapV3

structure Contracts where
  factory : Address
  manager : Address
  deriving DecidableEq

def contracts : Chain → Option Contracts
  | .ethereum | .optimism | .polygon | .arbitrum =>
    some ⟨⟨0x1F98431c8aD98523631AE4a59f267346ea31F984⟩,
      ⟨0xC36442b4a4522E871399CD717aBDD847Ab11FE88⟩⟩
  | .base =>
    some ⟨⟨0x33128a8fC17869897dcE68Ed026d694621f6FDfD⟩,
      ⟨0x03a520b32C04BF3bEEf7BEb72E919cf822Ed34f1⟩⟩
  | _ => none

def product : String := "pool"

def listing : Listing where
  name := "Uniswap v3"
  description := "Uniswap v3 concentrated liquidity positions"
  siteUrl := "https://uniswap.org/"
  iconUrl := "https://cryptologos.cc/logos/uniswap-uni-logo.png"
  positionType := .supply
  assetType := .nonStandardToken

/-- The token whose NFTs all positions are. -/
def managerToken (k : Contracts) : Token :=
  ⟨k.manager, "Uniswap V3 Positions NFT-V1", "UNI-V3-POS", 18⟩

def tokenId (text : String) : Except Fault Word :=
  match Word.ofText? text with
  | some id => .ok id
  | none => .error (.input (.tokenIdMalformed text))

/-- The id of an NFT, which has to be given. -/
def requiredTokenId : Option String → Except Fault Word
  | some text => tokenId text
  | none => .error (.input .tokenIdMissing)

/-- What the manager says about an NFT. -/
structure PositionView where
  token0 : Address
  token1 : Address
  fee : Word
  lower : Int
  upper : Int
  liquidity : HalfWord
  deriving DecidableEq

def PositionView.ofWords? : List Word → Option PositionView
  | [_, _, token0, token1, fee, lower, upper, liquidity, _, _, _, _] =>
    some ⟨Address.ofWord token0, Address.ofWord token1, fee, lower.toInt, upper.toInt,
      liquidity.setWidth 128⟩
  | _ => none

variable {σ : Type}

def positionView (p : Provider σ) (k : Contracts) (id : Word) (block : Option Block) :
    Run σ PositionView := do
  let words ← p.words ⟨k.manager, .positions, [.word id], block, none⟩
  Run.ofOption .contract (PositionView.ofWords? words)

/-- The first number of words that memory has no addresses for. -/
def capacityLimit : Nat := twoTo 58

def tokenIds (p : Provider σ) (k : Contracts) (owner : Address) (block : Option Block) :
    Run σ (List Word) := do
  let count ← p.word ⟨k.manager, .balanceOf, [.address owner], block, none⟩
  if capacityLimit ≤ count.toNat then throw .capacity
  Run.forRange (fun i => p.word
    ⟨k.manager, .tokenOfOwnerByIndex, [.address owner, .word (BitVec.ofNat 256 i)], block, none⟩)
    count.toNat 0

def currentTick (p : Provider σ) (pool : Address) (block : Option Block) : Run σ Int := do
  let words ← p.words ⟨pool, .slot0, [], block, none⟩
  return (← Run.ofOption .contract words[1]?).toInt

/-- The fees that the owner of an NFT could collect. -/
def fees (p : Provider σ) (k : Contracts) (owner : Address) (id : Word) (block : Option Block) :
    Run σ (Word × Word) := do
  let most := AbiValue.half (BitVec.allOnes 128)
  match ← p.words
    ⟨k.manager, .collect, [.list [.word id, .address owner, most, most]], block, some owner⟩ with
  | [fees0, fees1] => return (fees0, fees1)
  | _ => throw .contract

/-- Reads a position; none without liquidity or without a pool. -/
def liquidityPosition (c : AdapterContext σ) (k : Contracts) (owner : Address) (id : Word)
    (block : Option Block) : Run σ (Option LiquidityPosition) := do
  let view ← positionView c.provider k id block
  if view.liquidity = 0 then return none
  else
    let pool ← c.provider.address
      ⟨k.factory, .getPool, [.address view.token0, .address view.token1, .word view.fee], block,
        none⟩
    if pool = .zero then return none
    else
      let tick ← currentTick c.provider pool block
      let (fees0, fees1) ← fees c.provider k owner id block
      let token0 ← c.token view.token0
      let token1 ← c.token view.token1
      let (amount0, amount1) ← Run.ofExcept
        (Ticks.amounts view.liquidity view.lower view.upper tick)
      return some ⟨id, view.liquidity, token0, token1, amount0, amount1, fees0, fees1⟩

/-- An NFT at a block, or one block earlier if it cannot be read. -/
def lastPositionView (p : Provider σ) (k : Contracts) (id : Word) (block : Block) :
    Run σ PositionView := do
  match ← Run.outcome (positionView p k id (some block)) with
  | .ok view => return view
  | .error fault =>
    if block > 0 then positionView p k id (some (block - 1)) else throw fault

def positionTokens (c : AdapterContext σ) (k : Contracts) (id : Word) (block : Block) :
    Run σ (Token × Token) := do
  let view ← lastPositionView c.provider k id block
  let token0 ← c.token view.token0
  return (token0, ← c.token view.token1)

/-- Two amounts that an event moved, with its block and transaction. -/
structure Moved where
  block : Block
  transaction : Hash
  amounts : Word × Word
  deriving DecidableEq

/-- What a log moved; nothing if it is pending or not the user's. -/
def movedIn (kind : EventKind) (amounts : Event → Option (Word × Word)) (log : Log) :
    Except Fault (Option Moved) :=
  match log.block, log.transaction with
  | some block, some transaction =>
    if log.event.kind = kind then .ok ((amounts log.event).map (Moved.mk block transaction))
    else .error .abi
  | _, _ => .ok none

def firstBlock? (events : List Moved) : Option Block := (events.map Moved.block).min?

/-- The movements of both tokens of an NFT, whose tokens are read at the first event's block. -/
def movements (c : AdapterContext σ) (k : Contracts) (kind : EventKind)
    (amounts : Event → Option (Word × Word)) (r : EventsRequest) : Run σ (List Movement) := do
  let id ← Run.ofExcept (requiredTokenId r.tokenId)
  let logs ← c.provider.logs ⟨k.manager, kind, [some id], r.fromBlock, r.toBlock⟩
  let events ← Run.ofExcept (logs.mapM (movedIn kind amounts))
  let events := events.filterMap fun e => e
  match firstBlock? events with
  | none => return []
  | some block =>
    let (token0, token1) ← positionTokens c k id block
    return events.map fun e =>
      ⟨⟨managerToken k, some id.text⟩, amountsOf token0 token1 e.amounts.1 e.amounts.2, e.block,
        e.transaction⟩

def collected (user : Address) : Event → Option (Word × Word)
  | .collect _ recipient amount0 amount1 => if recipient = user then some (amount0, amount1) else none
  | _ => none

def added : Event → Option (Word × Word)
  | .increaseLiquidity _ _ amount0 amount1 => some (amount0, amount1)
  | _ => none

/-- The positions of a user, or some of them. -/
def positions (c : AdapterContext σ) (k : Contracts) (r : PositionsRequest) :
    Run σ (List Position) := do
  if r.tokens.all fun tokens => k.manager ∈ tokens then
    let ids ← match r.tokenIds with
      | some ids => Run.ofExcept (ids.mapM tokenId)
      | none => tokenIds c.provider k r.user r.block
    Run.filterEach (fun id => do
      return (← liquidityPosition c k r.user id r.block).map fun p => p.position (managerToken k)) ids
  else return []

/-- What a whole NFT is worth; nothing once its liquidity is gone. -/
def unwrap (c : AdapterContext σ) (k : Contracts) (r : UnwrapRequest) : Run σ UnwrapRate := do
  let id ← Run.ofExcept (requiredTokenId r.tokenId)
  let owner ← c.provider.address ⟨k.manager, .ownerOf, [.word id], r.block, none⟩
  match ← liquidityPosition c k owner id r.block with
  | none => return { token := managerToken k, tokens := [] }
  | some p => return {
      token := managerToken k
      tokens := [{ token := p.token0, rate := p.amount0 }, { token := p.token1, rate := p.amount1 }] }

def adapter (c : AdapterContext σ) (k : Contracts) : Adapter σ :=
  let details : ProductDetails := ⟨c.key .uniswapV3 product, listing⟩
  { details := details
    settings := { includeInUnwrap := false }
    protocolTokens := pure [{ token := managerToken k, underlyings := [] }]
    positions := positions c k
    withdrawals := fun r => movements c k .collect (collected r.user) r
    deposits := movements c k .increaseLiquidity added
    totalValueLocked := fun _ => throw (details.notImplemented "total_value_locked")
    unwrap := unwrap c k }

def factory : AdapterFactory σ := fun c => (contracts c.chain).map (adapter c)

end Chainfolio.UniswapV3
