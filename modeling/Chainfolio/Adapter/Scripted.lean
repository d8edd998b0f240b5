import Chainfolio.Adapter.Basic
import Chainfolio.Rates.Unwrap

/-! Scripted adapters: products whose answers are fixed beforehand, whatever is asked. Some of their
operations may be broken, and how often the listing is read is counted. -/
namespace Chainfolio

/-- The answers of a scripted product. Rewards are not offered unless there are answers for them or
something is said about broken operations. -/
structure Script where
  key : ProductKey
  settings : AdapterSettings := {}
  broken : Option (List String) := none
  protocolTokens : List ProtocolToken := []
  positions : List Position := []
  withdrawals : List Movement := []
  deposits : List Movement := []
  totalValueLocked : List TokenSupply := []
  rates : List UnwrapRate := []
  rewardPositions : Option (List Underlying) := none
  rewardWithdrawals : Option (List Movement) := none
  rewardsOnlyFor : Option String := none

namespace Script

variable {σ : Type}

def listing : Listing where
  name := "Test"
  description := "Test adapter"
  siteUrl := "https://example.org"
  iconUrl := "https://example.org/icon.png"
  positionType := .supply
  assetType := .standardToken

def isBroken (s : Script) (operation : String) : Bool :=
  s.broken.any fun operations => operations.contains operation

/-- A fixed answer, unless the operation is broken. -/
def answer {α : Type} (s : Script) (operation : String) (a : α) : Except Fault α :=
  if s.isBroken operation then .error (.input (.refused ("stub " ++ operation))) else .ok a

def reward {α : Type} (s : Script) (operation : String) (a : Option (List α)) :
    Except Fault (List α) :=
  if a.isNone ∧ s.broken.isNone then
    .error (.notImplemented operation s.key.protocol s.key.product)
  else s.answer operation (a.getD [])

/-- What one whole protocol token is worth: as the script says, or else one to one. -/
def unwrap (s : Script) (r : UnwrapRequest) : Except Fault UnwrapRate := do
  s.answer "unwrap" ()
  match s.rates.find? fun u => u.token.address = r.token with
  | some rate => return rate
  | none =>
    let tokens ← s.answer "protocol_tokens" s.protocolTokens
    return (← ProtocolToken.get s.key.chain tokens r.token).oneToOneRate

/-- The text of what rewards are asked for: the token and the id. -/
def rewardTarget (r : RewardRequest) : String := r.token.text ++ "/" ++ r.tokenId.getD ""

/-- The rewards of a request; a script may have rewards for one target only. -/
def rewardsFor (s : Script) (r : RewardRequest) : Except Fault (List Underlying) := do
  let rewards ← s.reward "reward_positions" s.rewardPositions
  return if s.rewardsOnlyFor.all fun target => target = rewardTarget r then rewards else []

/-- The adapter that follows a script and counts its listings. -/
def adapter (s : Script) (listings : Slot σ Nat) : Adapter σ where
  details := ⟨s.key, listing⟩
  settings := s.settings
  protocolTokens := do
    Run.update fun w => listings.set (listings.get w + 1) w
    Run.ofExcept (s.answer "protocol_tokens" s.protocolTokens)
  positions _ := Run.ofExcept (s.answer "positions" s.positions)
  withdrawals _ := Run.ofExcept (s.answer "withdrawals" s.withdrawals)
  deposits _ := Run.ofExcept (s.answer "deposits" s.deposits)
  totalValueLocked _ := Run.ofExcept (s.answer "total_value_locked" s.totalValueLocked)
  unwrap r := Run.ofExcept (s.unwrap r)
  rewardPositions r := Run.ofExcept (s.rewardsFor r)
  rewardWithdrawals _ := Run.ofExcept (s.reward "reward_withdrawals" s.rewardWithdrawals)

end Script

end Chainfolio
