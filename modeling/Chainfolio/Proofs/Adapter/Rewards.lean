import Chainfolio.Adapter.Rewards
import Chainfolio.Adapter.Scripted
import Chainfolio.Proofs.Run

/-! Rewards beside what they are for. Each position keeps what it is and gets the rewards that are reported
for it; the withdrawals of both adapters come in the order of their blocks, none of them lost. -/
namespace Chainfolio

/-- `Claimed reported claimed`: the rewards that are not zero, in order, each of them as it was reported but
marked as a reward. -/
inductive Underlying.Claimed : List Underlying → List Underlying → Prop
  | nil : Claimed [] []
  | zero {token kind below reported claimed} (rest : Claimed reported claimed) :
      Claimed (⟨token, 0, kind, below⟩ :: reported) claimed
  | kept {token balance kind below reported claimed} (hbalance : balance ≠ 0)
      (rest : Claimed reported claimed) :
      Claimed (⟨token, balance, kind, below⟩ :: reported) (⟨token, balance, .reward, below⟩ :: claimed)

theorem Underlying.claimed_claimable (reported : List Underlying) :
    Claimed reported (claimable reported) := by
  induction reported with
  | nil => exact .nil
  | cons u reported ih =>
    obtain ⟨token, balance, kind, below⟩ := u
    by_cases hbalance : balance = 0
    · subst hbalance
      exact .zero ih
    · have hcons : claimable (⟨token, balance, kind, below⟩ :: reported) =
          ⟨token, balance, .reward, below⟩ :: claimable reported := by
        rw [claimable, List.filter_cons_of_pos (by simpa using hbalance), List.map_cons, claimable]
      rw [hcons]
      exact .kept hbalance ih

namespace Position

def rewardRequest (p : Position) (r : PositionsRequest) : RewardRequest :=
  { user := r.user, token := p.token.address, block := r.block, tokenId := p.tokenId }

/-- A position with some rewards after its own amounts. -/
def claiming (p : Position) (reported : List Underlying) : Position :=
  { p with tokens := p.tokens ++ Underlying.claimable reported }

/-- Whether a position is another one with the rewards that are reported for it. -/
structure Gains (p : Position) (reported : List Underlying) (q : Position) : Prop where
  token : q.token = p.token
  balance : q.balance = p.balance
  kind : q.kind = p.kind
  tokenId : q.tokenId = p.tokenId
  tokens : ∃ claimed, Underlying.Claimed reported claimed ∧ q.tokens = p.tokens ++ claimed

theorem gains_claiming (p : Position) (reported : List Underlying) :
    p.Gains reported (p.claiming reported) :=
  ⟨rfl, rfl, rfl, rfl, _, Underlying.claimed_claimable reported, rfl⟩

end Position

/-! ### Movements -/

namespace Movement

/-- Whether a list has the movements of two lists in the order of their blocks, where those of one block
come as they did, the first list's before the second one's. -/
structure MergedByBlock (first second merged : List Movement) : Prop where
  perm : merged.Perm (first ++ second)
  ascending : merged.Pairwise fun a b => a.block ≤ b.block
  stable : ∀ block, (merged.filter fun m => m.block = block) =
    (first.filter fun m => m.block = block) ++ second.filter fun m => m.block = block

theorem sortByBlock_perm (movements : List Movement) : (sortByBlock movements).Perm movements :=
  List.mergeSort_perm _ _

theorem block_le_trans (a b c : Movement) (hab : decide (a.block ≤ b.block) = true)
    (hbc : decide (b.block ≤ c.block) = true) : decide (a.block ≤ c.block) = true :=
  decide_eq_true (UInt64.le_trans (of_decide_eq_true hab) (of_decide_eq_true hbc))

theorem block_le_total (a b : Movement) :
    (decide (a.block ≤ b.block) || decide (b.block ≤ a.block)) = true := by
  simpa only [Bool.or_eq_true, decide_eq_true_eq] using UInt64.le_total a.block b.block

theorem sortByBlock_ascending (movements : List Movement) :
    (sortByBlock movements).Pairwise fun a b => a.block ≤ b.block :=
  (List.pairwise_mergeSort block_le_trans block_le_total movements).imp of_decide_eq_true

/-- Sorting leaves the movements of one block as they were. -/
theorem sortByBlock_filter (movements : List Movement) (block : Block) :
    ((sortByBlock movements).filter fun m => m.block = block) =
      movements.filter fun m => m.block = block := by
  have hordered : (movements.filter fun m => m.block = block).Pairwise
      fun a b => decide (a.block ≤ b.block) = true := by
    refine List.pairwise_of_forall_mem_list fun a ha b hb => decide_eq_true ?_
    have hblock : ∀ m ∈ movements.filter fun m => m.block = block, m.block = block := fun m hm =>
      of_decide_eq_true (List.mem_filter.mp hm).2
    rw [hblock a ha, hblock b hb]
    exact UInt64.le_refl block
  -- They are in order already, so that they stay a part of the list; and no part is longer than the whole.
  have hsub := (List.sublist_mergeSort block_le_trans block_le_total hordered
    List.filter_sublist).filter fun m => m.block = block
  rw [List.filter_filter] at hsub
  simp only [Bool.and_self] at hsub
  exact (hsub.eq_of_length ((sortByBlock_perm movements).filter _).length_eq.symm).symm

theorem mergedByBlock_sortByBlock (first second : List Movement) :
    MergedByBlock first second (sortByBlock (first ++ second)) :=
  ⟨sortByBlock_perm _, sortByBlock_ascending _, fun block => by
    rw [sortByBlock_filter, List.filter_append]⟩

end Movement

/-! ### Both adapters -/

namespace Adapter

variable {σ : Type} {inner rewards : Adapter σ}

theorem withRewards_eq (r : PositionsRequest) (p : Position) :
    rewards.withRewards r p = do
      return p.claiming (← rewards.rewardPositions (p.rewardRequest r)) := rfl

/-- The positions of a product with its rewards are its own, each with what is reported for it. -/
theorem claiming_positions_of_ok {r : PositionsRequest} {ps : List Position} {s s₁ s₂ : σ}
    {reported : List (List Underlying)} (hpositions : inner.positions r s = (.ok ps, s₁))
    (hreported : Run.forEach (fun p => rewards.rewardPositions (p.rewardRequest r)) ps s₁ =
      (.ok reported, s₂)) :
    (inner.claiming rewards).positions r s = (.ok (List.zipWith Position.claiming ps reported), s₂) := by
  have hrun : Run.forEach (rewards.withRewards r) ps s₁ =
      (.ok (List.zipWith Position.claiming ps reported), s₂) := by
    rw [funext (withRewards_eq r), Run.forEach_zipWith, Run.bind_ok hreported]
    rfl
  exact (Run.bind_ok hpositions).trans hrun

/-- The withdrawals of a product with its rewards are those of both, sorted. -/
theorem claiming_withdrawals_of_ok {r : EventsRequest} {ws cs : List Movement} {s s₁ s₂ : σ}
    (hwithdrawals : inner.withdrawals r s = (.ok ws, s₁))
    (hclaims : rewards.rewardWithdrawals r s₁ = (.ok cs, s₂)) :
    (inner.claiming rewards).withdrawals r s = (.ok (Movement.sortByBlock (ws ++ cs)), s₂) :=
  (Run.bind_ok hwithdrawals).trans (Run.bind_ok hclaims)

/-- Rewards are merged without loss. When a product and the adapter of its rewards answer, the positions are
the product's, in order, and each of them gains exactly the rewards that are reported for its own token
and id at the block of the request. The withdrawals are those of the product and the claims, in the order
of their blocks; within a block they keep their order, those of the product first. -/
theorem claiming_merges (inner rewards : Adapter σ) (s s₁ s₂ : σ) :
    (∀ (r : PositionsRequest) (ps : List Position) (reported : List (List Underlying)),
      inner.positions r s = (.ok ps, s₁) →
      Run.forEach (fun p => rewards.rewardPositions (p.rewardRequest r)) ps s₁ = (.ok reported, s₂) →
      ∃ out, (inner.claiming rewards).positions r s = (.ok out, s₂) ∧ reported.length = ps.length ∧
        List.Forall₂ (fun asked q => asked.1.Gains asked.2 q) (ps.zip reported) out) ∧
    ∀ (r : EventsRequest) (ws cs : List Movement),
      inner.withdrawals r s = (.ok ws, s₁) → rewards.rewardWithdrawals r s₁ = (.ok cs, s₂) →
      ∃ out, (inner.claiming rewards).withdrawals r s = (.ok out, s₂) ∧
        Movement.MergedByBlock ws cs out := by
  refine ⟨fun r ps reported hpositions hreported => ?_, fun r ws cs hwithdrawals hclaims => ?_⟩
  · refine ⟨_, claiming_positions_of_ok hpositions hreported,
      (Run.forall₂_of_forEach hreported).length_eq.symm, ?_⟩
    rw [← List.map_uncurry_zip_eq_zipWith, List.forall₂_map_right_iff, List.forall₂_same]
    exact fun asked _ => asked.1.gains_claiming asked.2
  · exact ⟨_, claiming_withdrawals_of_ok hwithdrawals hclaims, Movement.mergedByBlock_sortByBlock ws cs⟩

/-- Rewards are offered for one of two ids of a token, and one of them is nothing. A claim stands in the block
of a withdrawal that itself comes late in its list. -/
theorem claiming_merges_tokenId :
    let share : Token := ⟨⟨1⟩, "Share", "S", 18⟩
    let gift : Token := ⟨⟨2⟩, "Gift", "G", 18⟩
    let moved (block : Block) (token : Token) : Movement :=
      ⟨⟨share, none⟩, [.leaf token 5 .underlying], block, ⟨0⟩⟩
    let seventh : Position :=
      { token := share, balance := 100, tokenId := some "7", tokens := [.leaf share 3 .underlying] }
    let plain : Position := { token := share, balance := 50, tokens := [] }
    let inner : Adapter Nat := Script.adapter
      { key := ⟨.ethereum, .aaveV3, "a-token"⟩
        positions := [seventh, plain]
        withdrawals := [moved 20 share, moved 10 share] } ⟨id, fun n _ => n⟩
    let rewards : Adapter Nat :=
      { Script.adapter
          { key := ⟨.ethereum, .aaveV3, "rewards"⟩, rewardWithdrawals := some [moved 10 gift] }
          ⟨id, fun n _ => n⟩ with
        rewardPositions := fun r => pure
          (if r.tokenId = some "7" then [.leaf gift 0 .underlying, .leaf gift 42 .underlying] else []) }
    let r : PositionsRequest := { user := ⟨9⟩ }
    let events : EventsRequest := { user := ⟨9⟩, token := ⟨1⟩, fromBlock := 0, toBlock := 30 }
    inner.positions r 0 = (.ok [seventh, plain], 0) ∧
      Run.forEach (fun p => rewards.rewardPositions (p.rewardRequest r)) [seventh, plain] 0 =
        (.ok [[.leaf gift 0 .underlying, .leaf gift 42 .underlying], []], 0) ∧
      inner.withdrawals events 0 = (.ok [moved 20 share, moved 10 share], 0) ∧
      rewards.rewardWithdrawals events 0 = (.ok [moved 10 gift], 0) ∧
      (∃ first second, ((inner.claiming rewards).positions r 0).1 = .ok [first, second] ∧
        seventh.Gains [.leaf gift 0 .underlying, .leaf gift 42 .underlying] first ∧
        plain.Gains [] second) ∧
      ∃ out, ((inner.claiming rewards).withdrawals events 0).1 = .ok out ∧
        (out.filter fun m => m.block = 10) = [moved 10 share, moved 10 gift] := by
  intro share gift moved seventh plain inner rewards r events
  have hpositions : inner.positions r 0 = (.ok [seventh, plain], 0) := rfl
  have hreported : Run.forEach (fun p => rewards.rewardPositions (p.rewardRequest r))
      [seventh, plain] 0 = (.ok [[.leaf gift 0 .underlying, .leaf gift 42 .underlying], []], 0) := rfl
  have hwithdrawals : inner.withdrawals events 0 = (.ok [moved 20 share, moved 10 share], 0) := rfl
  have hclaims : rewards.rewardWithdrawals events 0 = (.ok [moved 10 gift], 0) := rfl
  obtain ⟨hgains, hmerged⟩ := claiming_merges inner rewards 0 0 0
  refine ⟨hpositions, hreported, hwithdrawals, hclaims, ?_, ?_⟩
  · obtain ⟨out, hrun, -, hout⟩ := hgains r _ _ hpositions hreported
    obtain ⟨first, rest, hfirst, hrest, rfl⟩ := List.forall₂_cons_left_iff.mp hout
    obtain ⟨second, _, hsecond, hnil, rfl⟩ := List.forall₂_cons_left_iff.mp hrest
    obtain rfl := List.forall₂_nil_left_iff.mp hnil
    exact ⟨first, second, by rw [hrun], hfirst, hsecond⟩
  · obtain ⟨out, hrun, hout⟩ := hmerged events _ _ hwithdrawals hclaims
    refine ⟨out, by rw [hrun], ?_⟩
    rw [hout.stable]
    rfl

end Adapter

end Chainfolio
