import Chainfolio.Adapter.Basic

/-! Adapters whose positions carry the rewards that another adapter reports for them. -/
namespace Chainfolio

variable {σ : Type}

/-- The rewards worth keeping: those that are not zero, marked as rewards. -/
def Underlying.claimable (rewards : List Underlying) : List Underlying :=
  (rewards.filter fun r => r.balance ≠ 0).map fun r => { r with kind := .reward }

/-- The position with the rewards that belong to it. -/
def Adapter.withRewards (rewards : Adapter σ) (r : PositionsRequest) (p : Position) :
    Run σ Position := do
  let claimed ← rewards.rewardPositions
    { user := r.user, token := p.token.address, block := r.block, tokenId := p.tokenId }
  return { p with tokens := p.tokens ++ Underlying.claimable claimed }

/-- Movements in the order of their blocks; those of one block keep their order. -/
def Movement.sortByBlock (movements : List Movement) : List Movement :=
  movements.mergeSort fun a b => a.block ≤ b.block

/-- The adapter of a product together with the adapter of its rewards. -/
def Adapter.claiming (inner rewards : Adapter σ) : Adapter σ :=
  { inner with
    positions := fun r => do
      Run.forEach (rewards.withRewards r) (← inner.positions r)
    withdrawals := fun r => do
      let withdrawals ← inner.withdrawals r
      let claims ← rewards.rewardWithdrawals r
      return Movement.sortByBlock (withdrawals ++ claims)
    rewardPositions := rewards.rewardPositions
    rewardWithdrawals := rewards.rewardWithdrawals }

end Chainfolio
