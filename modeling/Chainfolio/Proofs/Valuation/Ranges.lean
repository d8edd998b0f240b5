import Mathlib.Tactic.Abel
import Mathlib.Tactic.Linarith
import Chainfolio.Proofs.Run
import Chainfolio.Proofs.Valuation.Keys

/-! Profits over consecutive ranges. As long as all values have room for each other, every profit is the
exact one, and profits of two ranges that follow each other add up to the profit of both. -/
namespace Chainfolio

open Decimal (grid Fits FitAt FitTogether Room)

namespace RangeMovements

def maps (m : RangeMovements) : List Balances := [m.deposits, m.withdrawals, m.borrows, m.repays]

/-- Whether movements are the sum of two others, kind by kind. -/
structure IsSum (whole first second : RangeMovements) : Prop where
  deposits : whole.deposits.IsSum first.deposits second.deposits
  withdrawals : whole.withdrawals.IsSum first.withdrawals second.withdrawals
  borrows : whole.borrows.IsSum first.borrows second.borrows
  repays : whole.repays.IsSum first.repays second.repays

end RangeMovements

namespace Profit

variable {type : PositionType} {start mid finish : Balances} {m m₁ m₂ : RangeMovements}
  {key : PositionKey} {s : Nat} {bound : ℚ}

/-- The profit under a key in exact arithmetic. -/
def exact (type : PositionType) (start finish : Balances) (m : RangeMovements)
    (key : PositionKey) : ℚ :=
  match type with
  | .borrow => start.number key - finish.number key + m.borrows.number key - m.repays.number key
  | _ => finish.number key - start.number key + m.withdrawals.number key - m.deposits.number key

theorem exact_add (hsum : m.IsSum m₁ m₂) (key : PositionKey) :
    exact type start finish m key = exact type start mid m₁ key + exact type mid finish m₂ key := by
  cases type <;>
    simp only [exact, hsum.deposits.number, hsum.withdrawals.number, hsum.borrows.number,
      hsum.repays.number] <;>
    abel

theorem exact_eq_zero (h : ∀ b ∈ sources start finish m, key ∉ b.keys) :
    exact type start finish m key = 0 := by
  have hzero : ∀ b ∈ sources start finish m, b.number key = 0 :=
    fun b hb => Balances.number_eq_zero (h b hb)
  simp only [sources, List.forall_mem_cons] at hzero
  obtain ⟨hstart, hfinish, hdeposits, hwithdrawals, hborrows, hrepays, -⟩ := hzero
  cases type <;>
    simp only [exact, hstart, hfinish, hdeposits, hwithdrawals, hborrows, hrepays, sub_zero, add_zero]

/-- Whether all that is held under a key at either end of a range and moved in between adds up, signs
aside, to no more than a bound. -/
structure Within (s : Nat) (bound : ℚ) (start finish : Balances) (m : RangeMovements)
    (key : PositionKey) : Prop where
  mem_grid : ∀ b ∈ sources start finish m, b.number key ∈ grid s
  sum_le : ((sources start finish m).map fun b => |b.number key|).sum ≤ bound

/-- A change that is adjusted by what went out and what came in. -/
theorem adjusted_eq_ok {a b c : Decimal} (hroom : Room s bound) (ha : a.toRat ∈ grid s) (hb : b.toRat ∈ grid s)
    (hc : c.toRat ∈ grid s) (hle : |a.toRat| + |b.toRat| + |c.toRat| ≤ bound) :
    ∃ e d, Valuation.add a b = .ok e ∧ Valuation.sub e c = .ok d ∧
      d.toRat = a.toRat + b.toRat - c.toRat := by
  have hsum : Fits s (a.toRat + b.toRat) :=
    ⟨(grid s).add_mem ha hb,
      hroom.mono ((abs_add_le _ _).trans ((le_add_of_nonneg_right (abs_nonneg _)).trans hle))⟩
  obtain ⟨e, hadd, hvalue⟩ := Valuation.add_eq_ok hsum
  have hdifference : Fits s (e.toRat - c.toRat) := by
    rw [hvalue]
    refine ⟨(grid s).sub_mem hsum.mem_grid hc, hroom.mono ?_⟩
    exact (abs_sub _ _).trans ((add_le_add_left (abs_add_le _ _) _).trans hle)
  obtain ⟨d, hsub, hresult⟩ := Valuation.sub_eq_ok hdifference
  exact ⟨e, d, hadd, hsub, by rw [hresult, hvalue]⟩

theorem ofKey_eq_ok (type : PositionType) (token : Token) (hroom : Room s bound)
    (h : Within s bound start finish m key) :
    ∃ p, ofKey type start finish m key token = .ok p ∧ p.token = token ∧
      p.tokenId = key.tokenId ∧ p.profit.toRat = exact type start finish m key := by
  obtain ⟨hgrid, hle⟩ := h
  simp only [sources, List.forall_mem_cons] at hgrid
  obtain ⟨hstart, hfinish, hdeposits, hwithdrawals, hborrows, hrepays, -⟩ := hgrid
  simp only [sources, List.map_cons, List.map_nil, List.sum_cons, List.sum_nil] at hle
  have habs := fun b : Balances => abs_nonneg (b.number key)
  have hends : |(valueOf finish key).toRat - (valueOf start key).toRat| ≤
      |start.number key| + |finish.number key| :=
    (abs_sub _ _).trans_eq (add_comm _ _)
  have hchange : Fits s ((valueOf finish key).toRat - (valueOf start key).toRat) :=
    ⟨(grid s).sub_mem hfinish hstart, hroom.mono
      (by linarith [habs m.deposits, habs m.withdrawals, habs m.borrows, habs m.repays])⟩
  obtain ⟨change, hsub, hvalue⟩ := Valuation.sub_eq_ok hchange
  rw [← hvalue] at hchange hends
  have hborrow := adjusted_eq_ok (a := change.neg) hroom
    (by rw [Decimal.toRat_neg]; exact (grid s).neg_mem hchange.mem_grid) hborrows hrepays
    (by
      rw [Decimal.toRat_neg, abs_neg]
      change |change.toRat| + |m.borrows.number key| + |m.repays.number key| ≤ bound
      linarith [habs m.deposits, habs m.withdrawals])
  have hsupply := adjusted_eq_ok hroom hchange.mem_grid hwithdrawals hdeposits
    (by
      change |change.toRat| + |m.withdrawals.number key| + |m.deposits.number key| ≤ bound
      linarith [habs m.borrows, habs m.repays])
  cases type
  case borrow =>
    obtain ⟨grown, profit, hadd, hless, hresult⟩ := hborrow
    refine ⟨⟨token, key.tokenId, valueOf start key, valueOf finish key, profit⟩, ?_, rfl, rfl, ?_⟩
    · exact bind_eq_ok_iff.mpr
        ⟨change, hsub, bind_eq_ok_iff.mpr ⟨grown, hadd, bind_eq_ok_iff.mpr ⟨profit, hless, rfl⟩⟩⟩
    · rw [hresult, Decimal.toRat_neg, hvalue, neg_sub]
      rfl
  all_goals
    obtain ⟨grown, profit, hadd, hless, hresult⟩ := hsupply
    refine ⟨⟨token, key.tokenId, valueOf start key, valueOf finish key, profit⟩, ?_, rfl, rfl, ?_⟩
    · exact bind_eq_ok_iff.mpr
        ⟨change, hsub, bind_eq_ok_iff.mpr ⟨grown, hadd, bind_eq_ok_iff.mpr ⟨profit, hless, rfl⟩⟩⟩
    · rw [hresult, hvalue]
      rfl

/-- Whether a profit is the exact one under a key, with the token that the first map with the key tells. -/
structure Describes (type : PositionType) (start finish : Balances) (m : RangeMovements)
    (entry : PositionKey × Profit) : Prop where
  tokenId : entry.2.tokenId = entry.1.tokenId
  token : ((sources start finish m).findSome? (Balances.find? entry.1)).map FiatBalance.token =
    some entry.2.token
  exact : entry.2.profit.toRat = exact type start finish m entry.1

/-- Whether some profits are those of a range: one for each key that is held or moved, in ascending
order. -/
structure Reports (type : PositionType) (start finish : Balances) (m : RangeMovements)
    (entries : List (PositionKey × Profit)) : Prop where
  ascending : (entries.map Prod.fst).Pairwise fun a b => a.before b
  mem_keys : ∀ key, key ∈ entries.map Prod.fst ↔ ∃ b ∈ sources start finish m, key ∈ b.keys
  describes : ∀ entry ∈ entries, Describes type start finish m entry

theorem ofKeys_eq_ok (type : PositionType) (hroom : Room s bound)
    (hwithin : ∀ key, Within s bound start finish m key) (keys : List PositionKey)
    (hkeys : ∀ key ∈ keys, ∃ b ∈ sources start finish m, key ∈ b.keys) :
    ∃ entries : List (PositionKey × Profit),
      ofKeys type start finish m keys = .ok (entries.map Prod.snd) ∧
        entries.map Prod.fst = keys ∧ ∀ entry ∈ entries, Describes type start finish m entry := by
  induction keys with
  | nil => exact ⟨[], rfl, rfl, by simp⟩
  | cons key keys ih =>
    obtain ⟨⟨b, hb, hkey⟩, hkeys⟩ := List.forall_mem_cons.mp hkeys
    obtain ⟨entries, hrest, hfst, hentries⟩ := ih hkeys
    cases hfirst : (sources start finish m).findSome? (Balances.find? key) with
    | none =>
      have hnone := List.findSome?_eq_none_iff.mp hfirst b hb
      exact absurd hkey (Balances.find?_eq_none_iff.mp hnone)
    | some held =>
      obtain ⟨p, hp, htoken, htokenId, hexact⟩ :=
        ofKey_eq_ok type held.token hroom (hwithin key)
      refine ⟨(key, p) :: entries, ?_, by rw [List.map_cons, hfst], ?_⟩
      · rw [ofKeys, hfirst]
        exact bind_eq_ok_iff.mpr ⟨p, hp, bind_eq_ok_iff.mpr ⟨_, hrest, rfl⟩⟩
      · rw [List.forall_mem_cons]
        refine ⟨⟨htokenId, ?_, hexact⟩, hentries⟩
        rw [hfirst, htoken]
        rfl

theorem calculateProfits_eq_ok (type : PositionType) (hroom : Room s bound)
    (hwithin : ∀ key, Within s bound start finish m key) :
    ∃ entries : List (PositionKey × Profit),
      calculateProfits type start finish m = .ok (entries.map Prod.snd) ∧
        Reports type start finish m entries := by
  obtain ⟨entries, hrun, hfst, hentries⟩ := ofKeys_eq_ok type hroom hwithin
    (Profit.keys (sources start finish m)) fun _ h => mem_keys.mp h
  refine ⟨entries, hrun, ?_, fun key => ?_, hentries⟩
  · rw [hfst]
    exact ascending_keys _
  · rw [hfst, mem_keys]

/-- The profit under a key among some profits, zero where there is none. -/
def gain (entries : List (PositionKey × Profit)) (key : PositionKey) : ℚ :=
  ((entries.lookup key).map fun p => p.profit.toRat).getD 0

theorem Reports.gain_eq {entries : List (PositionKey × Profit)}
    (h : Reports type start finish m entries) (key : PositionKey) :
    gain entries key = Profit.exact type start finish m key := by
  rw [gain]
  cases hlookup : entries.lookup key with
  | none =>
    refine (exact_eq_zero fun b hb hkey => ?_).symm
    obtain ⟨entry, hentry, rfl⟩ := List.mem_map.mp ((h.mem_keys key).mpr ⟨b, hb, hkey⟩)
    simpa using List.lookup_eq_none_iff.mp hlookup entry hentry
  | some p =>
    obtain ⟨before, after, rfl, -⟩ := List.lookup_eq_some_iff.mp hlookup
    exact (h.describes (key, p) (by simp)).exact

theorem sum_numbers_le {some all : List Balances} (h : some.Sublist all) (key : PositionKey) :
    (some.map fun b => |b.number key|).sum ≤ Decimal.size (all.flatMap Balances.values) := by
  induction h with
  | slnil => exact le_rfl
  | cons _ _ ih =>
    rw [List.flatMap_cons, Decimal.size_append]
    exact ih.trans (le_add_of_nonneg_left (Decimal.size_nonneg _))
  | cons_cons _ _ ih =>
    rw [List.map_cons, List.sum_cons, List.flatMap_cons, Decimal.size_append]
    exact add_le_add Balances.abs_number_le_size ih

/-- What is held and moved over a range has room where all of it has room together. -/
theorem within_of_sublist {maps : List Balances} (h : FitAt s (maps.flatMap Balances.values))
    (hmaps : (sources start finish m).Sublist maps) (key : PositionKey) :
    Within s (Decimal.size (maps.flatMap Balances.values)) start finish m key where
  mem_grid _ hb := Balances.number_mem_grid fun d hd =>
    h.mem_grid d (List.mem_flatMap_of_mem (hmaps.subset hb) hd)
  sum_le := sum_numbers_le hmaps key

/-- Movements that are the sum of two others have room where both of them have room together. -/
theorem within_of_isSum {maps : List Balances} (h : FitAt s (maps.flatMap Balances.values))
    (hsum : m.IsSum m₁ m₂)
    (hmaps : (start :: finish :: (m₁.maps ++ m₂.maps)).Sublist maps) (key : PositionKey) :
    Within s (Decimal.size (maps.flatMap Balances.values)) start finish m key := by
  have hgrid : ∀ b ∈ start :: finish :: (m₁.maps ++ m₂.maps), b.number key ∈ grid s :=
    fun b hb => Balances.number_mem_grid fun d hd =>
      h.mem_grid d (List.mem_flatMap_of_mem (hmaps.subset hb) hd)
  have hle := sum_numbers_le hmaps key
  simp only [RangeMovements.maps, List.cons_append, List.nil_append, List.forall_mem_cons,
    List.map_cons, List.map_nil, List.sum_cons, List.sum_nil] at hgrid hle
  obtain ⟨hstart, hfinish, hd₁, hw₁, hb₁, hr₁, hd₂, hw₂, hb₂, hr₂, -⟩ := hgrid
  constructor
  · simp only [sources, List.forall_mem_cons, hsum.deposits.number, hsum.withdrawals.number,
      hsum.borrows.number, hsum.repays.number]
    exact ⟨hstart, hfinish, (grid s).add_mem hd₁ hd₂, (grid s).add_mem hw₁ hw₂,
      (grid s).add_mem hb₁ hb₂, (grid s).add_mem hr₁ hr₂, fun _ h => nomatch h⟩
  · simp only [sources, List.map_cons, List.map_nil, List.sum_cons, List.sum_nil,
      hsum.deposits.number, hsum.withdrawals.number, hsum.borrows.number, hsum.repays.number]
    have habs := fun b c : Balances => abs_add_le (b.number key) (c.number key)
    linarith [habs m₁.deposits m₂.deposits, habs m₁.withdrawals m₂.withdrawals,
      habs m₁.borrows m₂.borrows, habs m₁.repays m₂.repays]

end Profit

/-- Profits are additive over ranges that follow each other. -/
theorem calculateProfits_additive (type : PositionType) (start mid finish : Balances)
    (m m₁ m₂ : RangeMovements) (hsum : m.IsSum m₁ m₂)
    (hfits : FitTogether
      ((start :: mid :: finish :: (m₁.maps ++ m₂.maps)).flatMap Balances.values)) :
    ∃ whole first second : List (PositionKey × Profit),
      (calculateProfits type start finish m = .ok (whole.map Prod.snd) ∧
        Profit.Reports type start finish m whole) ∧
      (calculateProfits type start mid m₁ = .ok (first.map Prod.snd) ∧
        Profit.Reports type start mid m₁ first) ∧
      (calculateProfits type mid finish m₂ = .ok (second.map Prod.snd) ∧
        Profit.Reports type mid finish m₂ second) ∧
      ∀ key, Profit.gain whole key = Profit.gain first key + Profit.gain second key := by
  have hfit := hfits.fitAt
  obtain ⟨whole, hwhole, hreports⟩ := Profit.calculateProfits_eq_ok type hfit.room
    (Profit.within_of_isSum hfit hsum (.cons_cons start (.cons mid (.refl _))))
  obtain ⟨first, hfirst, hreports₁⟩ := Profit.calculateProfits_eq_ok type hfit.room
    (Profit.within_of_sublist hfit (.cons_cons start (.cons_cons mid
      (.cons finish (List.sublist_append_left m₁.maps m₂.maps)))))
  obtain ⟨second, hsecond, hreports₂⟩ := Profit.calculateProfits_eq_ok type hfit.room
    (Profit.within_of_sublist hfit (.cons start (.cons_cons mid
      (.cons_cons finish (List.sublist_append_right m₁.maps m₂.maps)))))
  refine ⟨whole, first, second, ⟨hwhole, hreports⟩, ⟨hfirst, hreports₁⟩, ⟨hsecond, hreports₂⟩,
    fun key => ?_⟩
  rw [hreports.gain_eq, hreports₁.gain_eq, hreports₂.gain_eq]
  exact Profit.exact_add hsum key

/-- A debt that is paid back in the second range, next to one that is taken up in the first. -/
theorem calculateProfits_additive_debts :
    let house : PositionKey := ⟨⟨1⟩, none⟩
    let car : PositionKey := ⟨⟨2⟩, some "7"⟩
    let debt (key : PositionKey) (value : Decimal) : PositionKey × FiatBalance :=
      (key, ⟨⟨key.address, "Debt", "D", 6⟩, key.tokenId, value⟩)
    let start := [debt house ⟨false, 100, 0, by decide, by decide⟩]
    let mid := [debt house ⟨false, 1405, 1, by decide, by decide⟩,
      debt car ⟨false, 7, 0, by decide, by decide⟩]
    let finish := [debt car ⟨false, 9125, 3, by decide, by decide⟩]
    let m₁ : RangeMovements :=
      { borrows := [debt house ⟨false, 40, 0, by decide, by decide⟩,
          debt car ⟨false, 7, 0, by decide, by decide⟩] }
    let m₂ : RangeMovements :=
      { borrows := [debt car ⟨false, 15, 1, by decide, by decide⟩]
        repays := [debt house ⟨false, 142, 0, by decide, by decide⟩] }
    let m : RangeMovements :=
      { borrows := [debt house ⟨false, 4000, 2, by decide, by decide⟩,
          debt car ⟨false, 85, 1, by decide, by decide⟩]
        repays := [debt house ⟨false, 142, 0, by decide, by decide⟩] }
    m.IsSum m₁ m₂ ∧
    FitTogether ((start :: mid :: finish :: (m₁.maps ++ m₂.maps)).flatMap Balances.values) ∧
    ∃ whole first second : List (PositionKey × Profit),
      (calculateProfits .borrow start finish m = .ok (whole.map Prod.snd) ∧
        Profit.Reports .borrow start finish m whole) ∧
      (calculateProfits .borrow start mid m₁ = .ok (first.map Prod.snd) ∧
        Profit.Reports .borrow start mid m₁ first) ∧
      (calculateProfits .borrow mid finish m₂ = .ok (second.map Prod.snd) ∧
        Profit.Reports .borrow mid finish m₂ second) ∧
      ∀ key, Profit.gain whole key = Profit.gain first key + Profit.gain second key := by
  intro house car debt start mid finish m₁ m₂ m
  have hne : car ≠ house := by decide
  have hnothing : Balances.IsSum [] [] [] := ⟨by simp, by simp⟩
  have hborrows : m.borrows.IsSum m₁.borrows m₂.borrows := by
    constructor <;> intro key
    · simp [m, m₁, m₂, debt, Balances.keys]
    · by_cases hhouse : house = key
      · subst hhouse
        simp [m, m₁, m₂, debt, Balances.number_cons, Decimal.toRat, Decimal.numerator, tenTo, hne]
        norm_num
      · by_cases hcar : car = key <;>
          simp [m, m₁, m₂, debt, Balances.number_cons, Decimal.toRat, Decimal.numerator, tenTo, hhouse,
            hcar]
        norm_num
  have hrepays : m.repays.IsSum m₁.repays m₂.repays :=
    ⟨by simp [m, m₁, m₂, Balances.keys], by simp [m, m₁, m₂]⟩
  have hsum : m.IsSum m₁ m₂ := ⟨hnothing, hnothing, hborrows, hrepays⟩
  have hfits : FitTogether
      ((start :: mid :: finish :: (m₁.maps ++ m₂.maps)).flatMap Balances.values) := by decide
  exact ⟨hsum, hfits, calculateProfits_additive .borrow start mid finish m m₁ m₂ hsum hfits⟩

end Chainfolio
