import Chainfolio.Adapter.Pool
import Chainfolio.Proofs.Market.Shares

/-! What balances are worth at a rate. The power of ten behind a rate wraps but never vanishes, so that a
balance is converted exactly when its products fit a word. The amounts of several holders add up to at
most what a report of the whole supply says, short of it by less than one unit for each holder. -/
namespace Chainfolio

namespace Word

/-- The most decimals of a token whose power of ten is a word. -/
def maxDecimals : Nat := 77

theorem toNat_pow10 {decimals : UInt8} (h : decimals.toNat ≤ maxDecimals) :
    (pow10 decimals).toNat = tenTo decimals.toNat := by
  have hle : tenTo decimals.toNat ≤ tenTo maxDecimals := Nat.pow_le_pow_right (by decide) h
  rw [pow10, BitVec.toNat_ofNat]
  exact Nat.mod_eq_of_lt (hle.trans_lt (by decide))

/-- A power of ten that a token can ask for has too few factors of two to vanish. -/
theorem pow10_pos (decimals : UInt8) : 0 < (pow10 decimals).toNat := by
  rw [pow10, BitVec.toNat_ofNat, Nat.pos_iff_ne_zero]
  intro hzero
  have hdvd : 2 ^ 256 ∣ 2 ^ decimals.toNat * 5 ^ decimals.toNat := by
    rw [← Nat.mul_pow]
    exact Nat.dvd_of_mod_eq_zero hzero
  have hcoprime : (2 ^ 256).Coprime (5 ^ decimals.toNat) := Nat.Coprime.pow _ _ (by decide)
  have hle := (Nat.pow_dvd_pow_iff_le_right (by decide)).mp (hcoprime.dvd_of_dvd_mul_right hdvd)
  exact absurd decimals.toNat_lt (by omega)

/-- Nobody holds more than all holders together. -/
theorem le_total_of_mem {holders : List Word} {balance total : Word}
    (htotal : total.toNat = (holders.map BitVec.toNat).sum) (hmem : balance ∈ holders) :
    balance.toNat ≤ total.toNat := htotal ▸ List.le_sum_of_mem (List.mem_map_of_mem hmem)

end Word

/-! ### One underlying token -/

namespace UnderlyingRate

variable {r : UnderlyingRate} {decimals : UInt8} {balance : Word}

/-- What a balance is worth of one underlying token. -/
def amount (r : UnderlyingRate) (decimals : UInt8) (balance : Word) : Word :=
  balance * r.rate / Word.pow10 decimals

theorem toNat_amount (h : balance.toNat * r.rate.toNat < twoTo 256) :
    (r.amount decimals balance).toNat =
      balance.toNat * r.rate.toNat / (Word.pow10 decimals).toNat := Word.toNat_mul_div _ h

theorem apply_eq_ok_iff {u : Underlying} :
    r.apply balance (Word.pow10 decimals) = .ok u ↔
      balance.toNat * r.rate.toNat < twoTo 256 ∧
        .leaf r.token (r.amount decimals balance) r.kind = u := by
  rw [apply, map_eq_ok_iff]
  simp only [FixedPoint.mulDivDown_eq_ok_div_iff, Word.pow10_pos, true_and, and_assoc,
    exists_and_left, exists_eq_left, amount]

/-- What holders have of one underlying token adds up to what all of them have together, less than one unit
short for each holder. -/
theorem sum_amount_le (r : UnderlyingRate) (decimals : UInt8) {holders : List Word} {total : Word}
    (h : total.toNat * r.rate.toNat < twoTo 256) (hne : holders ≠ [])
    (htotal : total.toNat = (holders.map BitVec.toNat).sum) :
    (holders.map fun balance => (r.amount decimals balance).toNat).sum ≤ (r.amount decimals total).toNat ∧
      (r.amount decimals total).toNat ≤
        (holders.map fun balance => (r.amount decimals balance).toNat).sum + (holders.length - 1) := by
  have hfloors : List.Forall₂ (fun s a : Word =>
      a.toNat = s.toNat * r.rate.toNat / (Word.pow10 decimals).toNat)
      holders (holders.map (r.amount decimals)) := by
    rw [List.forall₂_map_right_iff, List.forall₂_same]
    intro balance hmem
    exact toNat_amount ((Nat.mul_le_mul_right _ (Word.le_total_of_mem htotal hmem)).trans_lt h)
  have hbelow := MarketSide.sum_floor_le hfloors
  have habove := MarketSide.floor_le_sum_add (Word.pow10_pos decimals) hne hfloors
  rw [← htotal, List.map_map, ← toNat_amount h] at hbelow habove
  exact ⟨hbelow, habove⟩

end UnderlyingRate

/-! ### All underlying tokens -/

namespace UnwrapRate

variable {rate : UnwrapRate} {balance : Word} {us : List Underlying}

/-- Whether the products of a balance with all rates fit a word. -/
def Converts (rate : UnwrapRate) (balance : Nat) : Prop :=
  ∀ r ∈ rate.tokens, balance * r.rate.toNat < twoTo 256

/-- The amounts of a balance whose products fit. -/
def amounts (rate : UnwrapRate) (balance : Word) : List Underlying :=
  rate.tokens.map fun r => .leaf r.token (r.amount rate.token.decimals balance) r.kind

/-- A balance is converted exactly when its products fit. -/
theorem underlyings_eq_ok_iff :
    rate.underlyings balance = .ok us ↔ rate.Converts balance.toNat ∧ us = rate.amounts balance := by
  constructor
  · intro h
    obtain ⟨hall, hus⟩ := eq_map_of_mapM (fun r u hu => (UnderlyingRate.apply_eq_ok_iff.mp hu).2) h
    exact ⟨fun r hr => (UnderlyingRate.apply_eq_ok_iff.mp (hall r hr)).1, hus⟩
  · rintro ⟨hconverts, rfl⟩
    rw [underlyings, mapM_eq_ok_iff, amounts, List.forall₂_map_right_iff, List.forall₂_same]
    exact fun r hr => UnderlyingRate.apply_eq_ok_iff.mpr ⟨hconverts r hr, rfl⟩

theorem Converts.mono {n m : Nat} (h : rate.Converts n) (hle : m ≤ n) : rate.Converts m :=
  fun r hr => (Nat.mul_le_mul_right _ hle).trans_lt (h r hr)

/-! ### Many holders -/

/-- Whether every holder is told amounts at a rate, and those of each underlying token add up to at most
what is told of it for all of them together, short of that by less than one unit for each holder. -/
def Covers (rate : UnwrapRate) (holders : List Word) (whole : List Underlying) : Prop :=
  ∃ parts : List (List Underlying),
    List.Forall₂ (fun balance part => rate.underlyings balance = .ok part) holders parts ∧
    ∀ (i : Nat) (u : Underlying), whole[i]? = some u → ∃ held : List Underlying,
      List.Forall₂ (fun part v => part[i]? = some v ∧ v.token = u.token ∧ v.kind = u.kind) parts held ∧
      (held.map fun v => v.balance.toNat).sum ≤ u.balance.toNat ∧
      u.balance.toNat ≤ (held.map fun v => v.balance.toNat).sum + (holders.length - 1)

variable {holders : List Word} {total : Word}

theorem covers_amounts (h : rate.Converts total.toNat) (hne : holders ≠ [])
    (htotal : total.toNat = (holders.map BitVec.toNat).sum) :
    rate.Covers holders (rate.amounts total) := by
  refine ⟨holders.map rate.amounts, ?_, fun i u hu => ?_⟩
  · rw [List.forall₂_map_right_iff, List.forall₂_same]
    exact fun balance hmem =>
      underlyings_eq_ok_iff.mpr ⟨h.mono (Word.le_total_of_mem htotal hmem), rfl⟩
  rw [amounts, List.getElem?_map, Option.map_eq_some_iff] at hu
  obtain ⟨r, hr, rfl⟩ := hu
  obtain ⟨hle, hge⟩ :=
    r.sum_amount_le rate.token.decimals (h r (List.mem_of_getElem? hr)) hne htotal
  refine ⟨holders.map fun balance => .leaf r.token (r.amount rate.token.decimals balance) r.kind, ?_, ?_⟩
  · rw [List.forall₂_map_left_iff, List.forall₂_map_right_iff, List.forall₂_same]
    intro balance _
    rw [amounts, List.getElem?_map, hr]
    exact ⟨rfl, rfl, rfl⟩
  · rw [List.map_map]
    exact ⟨hle, hge⟩

end UnwrapRate

namespace Pool

variable {σ : Type} {p : Pool σ} {r : SupplyRequest} {s s' : σ} {supplies : List TokenSupply}

/-- A supply that is reported consists of what the total is worth at the rate of the token. -/
theorem amounts_of_totalValueLocked (h : p.totalValueLocked r s = (.ok supplies, s'))
    {supply : TokenSupply} (hmem : supply ∈ supplies) :
    ∃ rate before after, p.unwrap { token := supply.token.address, block := r.block } before =
        (.ok rate, after) ∧
      rate.Converts supply.totalSupply.toNat ∧
      supply.tokens = (rate.amounts supply.totalSupply).map Underlying.supply := by
  obtain ⟨tokens, s₁, -, h⟩ := Run.bind_eq_ok_iff.mp h
  obtain ⟨t, -, before, after, hrun⟩ := Run.exists_of_mem_forEach h hmem
  obtain ⟨total, s₂, -, hrun⟩ := Run.bind_eq_ok_iff.mp hrun
  obtain ⟨rate, s₃, hrate, hrun⟩ := Run.bind_eq_ok_iff.mp hrun
  obtain ⟨us, s₄, hus, hrun⟩ := Run.bind_eq_ok_iff.mp hrun
  obtain ⟨hamounts, rfl⟩ := Run.ofExcept_eq_ok_iff.mp hus
  obtain ⟨hconverts, rfl⟩ := UnwrapRate.underlyings_eq_ok_iff.mp hamounts
  cases hrun
  exact ⟨rate, s₂, _, hrate, hconverts, rfl⟩

/-- The value locked covers the positions. At every rate, holders whose balances add up to a total that can be
converted are told amounts of each underlying token that add up to at most those of the total, short of
them by less than one unit for each holder; and a report of the supply says exactly what its total is
worth at the rate of the protocol token, so that it covers all holders among whom the supply is divided. -/
theorem supply_covers_holders :
    (∀ (rate : UnwrapRate) (holders : List Word) (total : Word) (whole : List Underlying),
      holders ≠ [] → total.toNat = (holders.map BitVec.toNat).sum →
      rate.underlyings total = .ok whole → rate.Covers holders whole) ∧
    ∀ (p : Pool σ) (r : SupplyRequest) (s s' : σ) (supplies : List TokenSupply),
      p.totalValueLocked r s = (.ok supplies, s') → ∀ supply ∈ supplies,
      ∃ rate whole before after,
        p.unwrap { token := supply.token.address, block := r.block } before = (.ok rate, after) ∧
        rate.underlyings supply.totalSupply = .ok whole ∧
        supply.tokens = whole.map Underlying.supply ∧
        ∀ holders : List Word, holders ≠ [] →
          supply.totalSupply.toNat = (holders.map BitVec.toNat).sum → rate.Covers holders whole := by
  refine ⟨fun rate holders total whole hne htotal h => ?_,
    fun p r s s' supplies h supply hmem => ?_⟩
  · obtain ⟨hconverts, rfl⟩ := UnwrapRate.underlyings_eq_ok_iff.mp h
    exact UnwrapRate.covers_amounts hconverts hne htotal
  · obtain ⟨rate, before, after, hrate, hconverts, htokens⟩ := amounts_of_totalValueLocked h hmem
    refine ⟨rate, _, before, after, hrate, ?_, htokens, fun holders hne htotal => ?_⟩
    · exact UnwrapRate.underlyings_eq_ok_iff.mpr ⟨hconverts, rfl⟩
    · exact UnwrapRate.covers_amounts hconverts hne htotal

/-- Of three holders each is told nothing of a token of which all of them are told two units, and of another
token they are told all there is. -/
theorem supply_covers_holders_three :
    let dollar : Token := ⟨⟨0xD⟩, "Dollar", "D", 0⟩
    let euro : Token := ⟨⟨0xE⟩, "Euro", "E", 0⟩
    let receipt : ProtocolToken := { token := ⟨⟨1⟩, "Receipt", "R", 1⟩, underlyings := [dollar, euro] }
    let rate : UnwrapRate :=
      { token := receipt.token
        tokens := [{ token := dollar, rate := 3 }, { token := euro, rate := 7 }] }
    let node : Node :=
      { call := fun _ => some ⟨true, Word.bytes 9⟩
        logs := fun _ => none
        blockNumber := none
        timestamp := fun _ => none }
    let p : Pool Unit := ⟨.ethereum, fun _ => node, pure [receipt], fun _ => pure rate⟩
    let holders : List Word := [3, 3, 3]
    let whole : List Underlying := [.leaf dollar 2 .underlying, .leaf euro 6 .underlying]
    let supply : TokenSupply :=
      { token := receipt.token, totalSupply := 9, tokens := whole.map Underlying.supply }
    rate.underlyings 9 = .ok whole ∧ rate.underlyings 3 =
        .ok [.leaf dollar 0 .underlying, .leaf euro 2 .underlying] ∧
      rate.Covers holders whole ∧
      p.totalValueLocked {} () = (.ok [supply], ()) ∧
      ∃ told, supply.tokens = told.map Underlying.supply ∧ rate.Covers holders told := by
  intro dollar euro receipt rate node p holders whole supply
  have hwhole : rate.underlyings 9 = .ok whole := by
    simp only [rate, whole, receipt, dollar, euro]
    rfl
  have hpart : rate.underlyings 3 =
      .ok [.leaf dollar 0 .underlying, .leaf euro 2 .underlying] := by
    simp only [rate, receipt, dollar, euro]
    rfl
  have hlocked : p.totalValueLocked {} () = (.ok [supply], ()) := by
    dsimp only [p, node, supply, whole, rate, receipt, dollar, euro]
    rfl
  have hne : holders ≠ [] := by decide
  obtain ⟨hcovers, hreported⟩ := supply_covers_holders (σ := Unit)
  obtain ⟨answer, told, _, _, hanswer, -, htold, htoldcovers⟩ :=
    hreported p {} () () [supply] hlocked supply (by simp)
  obtain rfl : rate = answer := Except.ok.inj (congrArg Prod.fst hanswer)
  exact ⟨hwhole, hpart, hcovers rate holders 9 whole hne (by decide) hwhole, hlocked, told, htold,
    htoldcovers holders hne (by decide)⟩

end Pool

end Chainfolio
