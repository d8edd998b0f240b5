import Chainfolio.Adapter.Basic
import Chainfolio.Rates.Unwrap

/-! Products whose protocol token is a plain receipt: its balance is the position, its mints and burns
are the deposits and withdrawals, its supply is the value locked. -/
namespace Chainfolio

/-- What such a product says about its protocol tokens. -/
structure Pool (σ : Type) where
  chain : Chain
  provider : Provider σ
  protocolTokens : Run σ (List ProtocolToken)
  unwrap : UnwrapRequest → Run σ UnwrapRate

/-- Ways in which a protocol token comes to a user or goes. -/
inductive TransferKind where
  | mint
  | burn
  deriving DecidableEq

def TransferKind.parties (user : Address) : TransferKind → Address × Address
  | mint => (.zero, user)
  | burn => (user, .zero)

def Underlying.supply (u : Underlying) : UnderlyingSupply :=
  { token := u.token, kind := u.kind, totalSupply := u.balance }

/-- A token's supply where one total stands for all of its underlying tokens. -/
def ProtocolToken.supply (t : ProtocolToken) (total underlying : Word) : TokenSupply :=
  { token := t.token
    totalSupply := total
    tokens := t.underlyings.map fun u => { token := u, totalSupply := underlying } }

def ProtocolToken.uniformRate (t : ProtocolToken) (rate : Word) : UnwrapRate :=
  { token := t.token, tokens := t.underlyings.map fun u => { token := u, rate := rate } }

/-- A movement of one amount of the first underlying token. -/
def ProtocolToken.movement (t : ProtocolToken) (tokens : List Underlying) (block : Block)
    (transaction : Hash) : Movement :=
  ⟨{ token := t.token }, tokens, block, transaction⟩

namespace Pool

variable {σ : Type}

def tokens (p : Pool σ) (filter : Option (List Address)) : Run σ (List ProtocolToken) := do
  Run.ofExcept (ProtocolToken.filter p.chain (← p.protocolTokens) filter)

def token (p : Pool σ) (address : Address) : Run σ ProtocolToken := do
  Run.ofExcept (ProtocolToken.get p.chain (← p.protocolTokens) address)

/-- A position, unless the balance is zero. -/
def position (p : Pool σ) (t : ProtocolToken) (block : Option Block) (balance : Word) :
    Run σ (Option Position) := do
  if balance = 0 then return none
  else
    let rate ← p.unwrap { token := t.token.address, block := block }
    let underlyings ← Run.ofExcept (rate.underlyings balance)
    return some { token := t.token, balance := balance, tokens := underlyings }

/-- The positions that a balance function of the protocol tokens shows. -/
def positionsBy (p : Pool σ) (method : Method) (r : PositionsRequest) : Run σ (List Position) := do
  Run.filterEach (fun t => do
    let balance ← p.provider.word ⟨t.token.address, method, [.word r.user.toWord], r.block, none⟩
    p.position t r.block balance) (← p.tokens r.tokens)

/-- The positions that the balances of the protocol tokens show. -/
def positions (p : Pool σ) (r : PositionsRequest) : Run σ (List Position) :=
  p.positionsBy .balanceOf r

/-- The transfers of a protocol token between two parties. -/
def transferFilter (kind : TransferKind) (r : EventsRequest) : LogFilter :=
  let (sender, recipient) := kind.parties r.user
  ⟨r.token, .transfer, [some sender.toWord, some recipient.toWord], r.fromBlock, r.toBlock⟩

/-- The movement that a log shows; none if it is pending or a transfer of another kind. -/
def transferMovement (p : Pool σ) (t : ProtocolToken) (parties : Address × Address) (log : Log) :
    Run σ (Option Movement) := do
  match log.block, log.transaction with
  | some block, some transaction =>
    match log.event with
    | .transfer sender recipient value =>
      if (sender, recipient) = parties then
        let rate ← p.unwrap { token := t.token.address, block := some block }
        let underlyings ← Run.ofExcept (rate.underlyings value)
        return some (t.movement underlyings block transaction)
      else return none
    | _ => throw .abi
  | _, _ => return none

/-- The mints or burns of a user's protocol token, unwrapped at the block of each. -/
def movements (p : Pool σ) (kind : TransferKind) (r : EventsRequest) : Run σ (List Movement) := do
  let t ← p.token r.token
  let logs ← p.provider.logs (transferFilter kind r)
  Run.filterEach (p.transferMovement t (kind.parties r.user)) logs

/-- The supply of each protocol token, unwrapped. -/
def totalValueLocked (p : Pool σ) (r : SupplyRequest) : Run σ (List TokenSupply) := do
  Run.forEach (fun t => do
    let total ← p.provider.word ⟨t.token.address, .totalSupply, [], r.block, none⟩
    let rate ← p.unwrap { token := t.token.address, block := r.block }
    let underlyings ← Run.ofExcept (rate.underlyings total)
    return {
      token := t.token
      totalSupply := total
      tokens := underlyings.map Underlying.supply }) (← p.tokens r.tokens)

end Pool

/-- One unit of each underlying token for one protocol token. -/
def Pool.oneToOne {σ : Type} (chain : Chain) (provider : Provider σ)
    (protocolTokens : Run σ (List ProtocolToken)) : Pool σ where
  chain := chain
  provider := provider
  protocolTokens := protocolTokens
  unwrap r := do
    let t ← Run.ofExcept (ProtocolToken.get chain (← protocolTokens) r.token)
    return t.oneToOneRate

end Chainfolio
