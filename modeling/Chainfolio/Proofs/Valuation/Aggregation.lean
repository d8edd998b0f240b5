import Mathlib.Tactic.Linarith
import Chainfolio.Proofs.Run
import Chainfolio.Proofs.Underlying
import Chainfolio.Proofs.Valuation.Keys

/-! Aggregation as a homomorphism. As long as the values of all priced amounts have room for each other,
what is aggregated under a key is their exact total, whatever the trees they stand in and whatever the
order in which they come. -/
namespace Chainfolio

open Decimal (grid Fits FitAt FitTogether Room)

variable {s : Nat}

/-! ### Values of trees -/

mutual

/-- The values of the priced amounts that make up the value of an amount. -/
def Underlying.nodeValues : Underlying → List Decimal
  | ⟨token, balance, _, tokens⟩ =>
    match tokens.find? fun t => t.kind = .fiat with
    | some price => (Valuation.priced token balance price).toOption.toList
    | none => Underlying.forestValues tokens

/-- The values of the priced amounts that make up the values of some amounts. -/
def Underlying.forestValues : List Underlying → List Decimal
  | [] => []
  | u :: rest => u.nodeValues ++ Underlying.forestValues rest

end

namespace Underlying

theorem value_toRat_of_below {token : Token} {balance : Word} {kind : TokenKind}
    {below : List Underlying} {v : Decimal}
    (hbelow : ∀ {sum v}, FitAt s (sum :: forestValues below) → sumValues below sum = .ok v →
      v.toRat = sum.toRat + Decimal.total (forestValues below))
    (hfit : FitAt s (nodeValues ⟨token, balance, kind, below⟩))
    (h : value ⟨token, balance, kind, below⟩ = .ok v) :
    v.toRat = Decimal.total (nodeValues ⟨token, balance, kind, below⟩) := by
  unfold value at h
  unfold nodeValues at hfit ⊢
  cases hprice : below.find? fun t => t.kind = .fiat with
  | some price =>
    rw [hprice] at h
    simp [h, Except.toOption]
  | none =>
    rw [hprice] at h hfit
    cases below with
    | nil => cases h
    | cons u us =>
      have hzero : FitAt s (.zero :: forestValues (u :: us)) :=
        Decimal.FitAt.collapse [] hfit Decimal.toRat_zero
      rw [hbelow hzero h, Decimal.toRat_zero, zero_add]

/-- A sum of amounts that have room for each other is exact. -/
theorem sumValues_toRat {us : List Underlying} {sum v : Decimal}
    (hfit : FitAt s (sum :: forestValues us)) (h : sumValues us sum = .ok v) :
    v.toRat = sum.toRat + Decimal.total (forestValues us) := by
  -- The sum so far takes the place of the values that it is made of, so that room is kept.
  induction us using forest_induction generalizing sum v with
  | nil =>
    cases h
    simp [forestValues]
  | cons token balance kind below us ihbelow ihus =>
    rw [forestValues] at hfit ⊢
    rw [sumValues] at h
    obtain ⟨x, hx, h⟩ := bind_eq_ok_iff.mp h
    obtain ⟨sum', hadd, hrest⟩ := bind_eq_ok_iff.mp h
    have hnode : FitAt s (nodeValues ⟨token, balance, kind, below⟩) :=
      hfit.of_sublist ((List.sublist_append_left _ _).cons _)
    have hvalue := value_toRat_of_below ihbelow hnode hx
    have hfirst : FitAt s (sum :: nodeValues ⟨token, balance, kind, below⟩) :=
      hfit.of_sublist ((List.sublist_append_left _ _).cons_cons _)
    obtain ⟨sum'', hadd', hsum⟩ : ∃ c, Valuation.add sum x = .ok c ∧ c.toRat = sum.toRat + x.toRat :=
      Valuation.add_eq_ok (by rw [hvalue]; exact hfirst.fits_total)
    cases hadd.symm.trans hadd'
    have hrest' := ihus (hfit.collapse (sum :: nodeValues _) (by rw [hsum, hvalue]; rfl)) hrest
    rw [hrest', hsum, hvalue, Decimal.total_append, add_assoc]

end Underlying

/-! ### Values by key -/

namespace Balances

/-- What a credit to a balance makes of the balances, as long as a decimal stands for the sum. -/
theorem credit_eq_ok {b : FiatBalance} {balances : Balances} (hkeyed : balances.Keyed)
    (hfits : Fits s (balances.number b.key + b.value.toRat)) :
    ∃ balances', balances.credit b = .ok balances' ∧ balances'.Keyed ∧
      (∀ key, key ∈ balances'.keys ↔ key = b.key ∨ key ∈ balances.keys) ∧
      ∀ key, balances'.number key =
        balances.number key + if b.key = key then b.value.toRat else 0 := by
  cases hfind : balances.find? b.key with
  | none =>
    have hnew : balances.number b.key = 0 := number_eq_zero (find?_eq_none_iff.mp hfind)
    refine ⟨balances.insert b, by rw [credit, hfind], hkeyed.insert b, fun _ => mem_keys_insert,
      fun key => ?_⟩
    rw [number_insert]
    split
    · next h => rw [← h, hnew, zero_add]
    · rw [add_zero]
  | some held =>
    have hnumber : balances.number b.key = held.value.toRat := by
      rw [number, Profit.valueOf, hfind]
    obtain ⟨value, hadd, hvalue⟩ := Valuation.add_eq_ok (hnumber ▸ hfits)
    have hheld : held.key = b.key := hkeyed.own _ _ hfind
    have hkey : FiatBalance.key { held with value := value } = b.key := hheld
    refine ⟨balances.insert { held with value := value }, ?_, hkeyed.insert _, fun key => ?_,
      fun key => ?_⟩
    · rw [credit, hfind]
      exact bind_eq_ok_iff.mpr ⟨value, hadd, rfl⟩
    · rw [mem_keys_insert, hkey]
    · rw [number_insert, hkey]
      split
      · next h => rw [← h, hnumber, hvalue]
      · rw [add_zero]

/-- Whether there is room under every key for what is still to come. -/
structure LeavesRoom (s : Nat) (more : ℚ) (balances : Balances) : Prop where
  keyed : balances.Keyed
  mem_grid : ∀ key, balances.number key ∈ grid s
  room : ∀ key, Room s (|balances.number key| + more)

/-- A credit uses up room of its own size at most. -/
theorem LeavesRoom.credit {b : FiatBalance} {balances : Balances} {used left : ℚ}
    (h : balances.LeavesRoom s (used + left)) (hgrid : b.value.toRat ∈ grid s)
    (hused : |b.value.toRat| ≤ used) (hleft : 0 ≤ left) :
    ∃ balances', balances.credit b = .ok balances' ∧ balances'.LeavesRoom s left ∧
      (∀ key, key ∈ balances'.keys ↔ key = b.key ∨ key ∈ balances.keys) ∧
      ∀ key, balances'.number key =
        balances.number key + if b.key = key then b.value.toRat else 0 := by
  have hfits : Fits s (balances.number b.key + b.value.toRat) := by
    refine ⟨(grid s).add_mem (h.mem_grid _) hgrid, (h.room b.key).mono ?_⟩
    linarith [abs_add_le (balances.number b.key) b.value.toRat]
  obtain ⟨balances', hcredit, hkeyed, hkeys, hnumber⟩ := credit_eq_ok h.keyed hfits
  refine ⟨balances', hcredit, ⟨hkeyed, fun key => ?_, fun key => (h.room key).mono ?_⟩, hkeys,
    hnumber⟩
  · rw [hnumber]
    split
    · exact (grid s).add_mem (h.mem_grid key) hgrid
    · exact (grid s).add_mem (h.mem_grid key) (grid s).zero_mem
  · rw [hnumber]
    split
    · linarith [abs_add_le (balances.number key) b.value.toRat]
    · rw [add_zero]
      linarith [abs_nonneg b.value.toRat]

end Balances

/-- Things with a fiat value: the token that each is held under, its value, and the values of the priced
amounts that it is made up of. -/
structure Holdings (α : Type) where
  token : α → Token
  tokenId : α → Option String
  value : α → Except Fault Decimal
  nodes : α → List Decimal
  value_toRat : ∀ {s a v}, FitAt s (nodes a) → value a = .ok v → v.toRat = Decimal.total (nodes a)

namespace Holdings

variable {α : Type} (H : Holdings α)

def key (a : α) : PositionKey := ⟨(H.token a).address, H.tokenId a⟩

def aggregate : List α → Balances → Except Fault Balances
  | [], balances => .ok balances
  | a :: rest, balances => do
    let value ← H.value a
    aggregate rest (← balances.credit ⟨H.token a, H.tokenId a, value⟩)

/-- The total of the priced amounts under a key. -/
def under (key : PositionKey) (items : List α) : ℚ :=
  Decimal.total ((items.filter fun a => H.key a = key).flatMap H.nodes)

variable {H} {items : List α} {balances : Balances}

theorem under_cons (key : PositionKey) (a : α) (items : List α) :
    H.under key (a :: items) =
      (if H.key a = key then Decimal.total (H.nodes a) else 0) + H.under key items := by
  by_cases h : H.key a = key <;> simp [under, h]

theorem value_of_aggregate {balances' : Balances} (h : H.aggregate items balances = .ok balances') :
    ∀ a ∈ items, ∃ v, H.value a = .ok v := by
  induction items generalizing balances with
  | nil => simp
  | cons a items ih =>
    obtain ⟨v, hv, h⟩ := bind_eq_ok_iff.mp h
    obtain ⟨_, -, hrest⟩ := bind_eq_ok_iff.mp h
    exact List.forall_mem_cons.mpr ⟨⟨v, hv⟩, ih hrest⟩

/-- Things that all have a value are added up, each under its key. -/
theorem aggregate_eq_ok (hvalues : ∀ a ∈ items, ∃ v, H.value a = .ok v)
    (hfit : FitAt s (items.flatMap H.nodes))
    (hleaves : balances.LeavesRoom s (Decimal.size (items.flatMap H.nodes))) :
    ∃ balances', H.aggregate items balances = .ok balances' ∧ balances'.Keyed ∧
      ∀ key, (key ∈ balances'.keys ↔ key ∈ balances.keys ∨ ∃ a ∈ items, H.key a = key) ∧
        balances'.number key = balances.number key + H.under key items := by
  -- Under every key there is room for all that is still to come; a credit takes its own share of it.
  induction items generalizing balances with
  | nil => exact ⟨balances, rfl, hleaves.keyed, fun key => ⟨by simp, by simp [under]⟩⟩
  | cons a items ih =>
    obtain ⟨⟨v, hv⟩, hvalues⟩ := List.forall_mem_cons.mp hvalues
    rw [List.flatMap_cons] at hfit hleaves
    rw [Decimal.size_append] at hleaves
    have hnodes : FitAt s (H.nodes a) := hfit.of_sublist (List.sublist_append_left _ _)
    have hvalue : v.toRat = Decimal.total (H.nodes a) := H.value_toRat hnodes hv
    obtain ⟨middle, hcredit, hleaves', hkeys, hnumber⟩ :=
      hleaves.credit (b := ⟨H.token a, H.tokenId a, v⟩) (hvalue ▸ hnodes.total_mem_grid)
        (hvalue ▸ Decimal.abs_total_le_size _) (Decimal.size_nonneg _)
    obtain ⟨balances', hrun, hkeyed, hspec⟩ :=
      ih hvalues (hfit.of_sublist (List.sublist_append_right _ _)) hleaves'
    refine ⟨balances', bind_eq_ok_iff.mpr ⟨v, hv, bind_eq_ok_iff.mpr ⟨middle, hcredit, hrun⟩⟩,
      hkeyed, fun key => ⟨?_, ?_⟩⟩
    · rw [(hspec key).1, hkeys, List.exists_mem_cons_iff, eq_comm, or_assoc]
      exact or_left_comm
    · rw [(hspec key).2, hnumber, under_cons, ← hvalue, add_assoc]
      rfl

theorem leavesRoom_nil {more : ℚ} (h : Room s more) : Balances.LeavesRoom s more [] where
  keyed := ⟨.nil, fun _ _ hfind => nomatch hfind⟩
  mem_grid key := by
    rw [Balances.number_nil]
    exact (grid s).zero_mem
  room key := by rwa [Balances.number_nil, abs_zero, zero_add]

/-- Aggregation fails only on things that have no value. -/
theorem aggregate_ok_iff (hfit : FitAt s (items.flatMap H.nodes)) :
    (∃ balances, H.aggregate items [] = .ok balances) ↔ ∀ a ∈ items, ∃ v, H.value a = .ok v := by
  constructor
  · rintro ⟨balances, h⟩
    exact value_of_aggregate h
  · intro hvalues
    obtain ⟨balances, h, -⟩ := aggregate_eq_ok hvalues hfit (leavesRoom_nil hfit.room)
    exact ⟨balances, h⟩

/-- Whether balances hold the total of the priced amounts under each key, and have no other key. -/
structure Totals (H : Holdings α) (items : List α) (balances : Balances) : Prop where
  keyed : balances.Keyed
  mem_keys : ∀ key, key ∈ balances.keys ↔ ∃ a ∈ items, H.key a = key
  number : ∀ key, balances.number key = H.under key items

theorem totals_of_aggregate (hfit : FitAt s (items.flatMap H.nodes))
    (h : H.aggregate items [] = .ok balances) : H.Totals items balances := by
  obtain ⟨balances', h', hkeyed, hspec⟩ :=
    aggregate_eq_ok (value_of_aggregate h) hfit (leavesRoom_nil hfit.room)
  cases h.symm.trans h'
  refine ⟨hkeyed, fun key => ?_, fun key => ?_⟩
  · simpa [Balances.keys] using (hspec key).1
  · rw [(hspec key).2, Balances.number_nil, zero_add]

theorem under_append (key : PositionKey) (xs ys : List α) :
    H.under key (xs ++ ys) = H.under key xs + H.under key ys := by
  simp [under]

theorem under_perm (key : PositionKey) {xs ys : List α} (h : xs.Perm ys) :
    H.under key xs = H.under key ys :=
  Decimal.total_perm ((h.filter _).flatMap_right _)

/-- Totals of two lists add up. -/
theorem Totals.isSum {xs ys : List α} {whole first second : Balances}
    (hwhole : H.Totals (xs ++ ys) whole) (hfirst : H.Totals xs first)
    (hsecond : H.Totals ys second) : whole.IsSum first second where
  mem_keys key := by
    simp only [hwhole.mem_keys, hfirst.mem_keys, hsecond.mem_keys, List.mem_append, or_and_right,
      exists_or]
  number key := by rw [hwhole.number, hfirst.number, hsecond.number, under_append]

theorem Totals.keys_eq {xs ys : List α} {balances other : Balances} (hperm : xs.Perm ys)
    (h : H.Totals xs balances) (h' : H.Totals ys other) : balances.keys = other.keys := by
  have hmem : ∀ key, key ∈ balances.keys ↔ key ∈ other.keys := fun key => by
    simp only [h.mem_keys, h'.mem_keys, hperm.mem_iff]
  exact PositionKey.ascending_ext h.keyed.ascending h'.keyed.ascending hmem

/-- Whether an aggregation turns two lists one after the other into the sum of what it makes of each, and
does so whatever their order. -/
structure Homomorphic (H : Holdings α) (aggregate : List α → Except Fault Balances)
    (xs ys : List α) : Prop where
  succeeds_iff : (∃ whole, aggregate (xs ++ ys) = .ok whole) ↔
    (∃ first, aggregate xs = .ok first) ∧ ∃ second, aggregate ys = .ok second
  totals : ∀ {whole}, aggregate (xs ++ ys) = .ok whole → H.Totals (xs ++ ys) whole
  isSum : ∀ {whole first second}, aggregate (xs ++ ys) = .ok whole → aggregate xs = .ok first →
    aggregate ys = .ok second → whole.IsSum first second
  reorder_iff : ∀ {zs}, zs.Perm (xs ++ ys) →
    ((∃ other, aggregate zs = .ok other) ↔ ∃ whole, aggregate (xs ++ ys) = .ok whole)
  reorder : ∀ {zs other whole}, zs.Perm (xs ++ ys) → aggregate zs = .ok other →
    aggregate (xs ++ ys) = .ok whole →
    other.keys = whole.keys ∧ ∀ key, other.number key = whole.number key

theorem aggregate_homomorphic (H : Holdings α) {xs ys : List α}
    (hfits : FitTogether ((xs ++ ys).flatMap H.nodes)) :
    H.Homomorphic (fun items => H.aggregate items []) xs ys := by
  have hfit := hfits.fitAt
  have hnodes : (xs ++ ys).flatMap H.nodes = xs.flatMap H.nodes ++ ys.flatMap H.nodes :=
    List.flatMap_append
  have hfitx := hfit.of_sublist (hnodes ▸ List.sublist_append_left (xs.flatMap H.nodes) _)
  have hfity := hfit.of_sublist (hnodes ▸ List.sublist_append_right (xs.flatMap H.nodes) _)
  have hfitz : ∀ {zs : List α}, zs.Perm (xs ++ ys) → FitAt _ (zs.flatMap H.nodes) :=
    fun hperm => hfit.of_perm (hperm.flatMap_right _)
  constructor
  · rw [aggregate_ok_iff hfit, aggregate_ok_iff hfitx, aggregate_ok_iff hfity,
      List.forall_mem_append]
  · exact totals_of_aggregate hfit
  · intro whole first second hwhole hfirst hsecond
    exact (totals_of_aggregate hfit hwhole).isSum (totals_of_aggregate hfitx hfirst)
      (totals_of_aggregate hfity hsecond)
  · intro zs hperm
    rw [aggregate_ok_iff (hfitz hperm), aggregate_ok_iff hfit]
    simp only [hperm.mem_iff]
  · intro zs other whole hperm hother hwhole
    have htotals := totals_of_aggregate (hfitz hperm) hother
    have htotals' := totals_of_aggregate hfit hwhole
    exact ⟨htotals.keys_eq hperm htotals', fun key => by
      rw [htotals.number, htotals'.number, under_perm key hperm]⟩

/-- Positions, each held under its protocol token. -/
def positions : Holdings Position where
  token := Position.token
  tokenId := Position.tokenId
  value := Position.value
  nodes p := Underlying.nodeValues ⟨p.token, p.balance, p.kind, p.tokens⟩
  value_toRat := Underlying.value_toRat_of_below Underlying.sumValues_toRat

/-- Movements, each held under the protocol token that it is about. -/
def movements : Holdings Movement where
  token m := m.protocolToken.token
  tokenId m := m.protocolToken.tokenId
  value := Movement.value
  nodes m := Underlying.forestValues m.tokens
  value_toRat {s m v} hfit h := by
    unfold Movement.value at h
    split at h
    · cases h
    · have hzero : FitAt s (.zero :: Underlying.forestValues m.tokens) :=
        Decimal.FitAt.collapse [] hfit Decimal.toRat_zero
      rw [Underlying.sumValues_toRat hzero h, Decimal.toRat_zero, zero_add]

theorem ofPositions_eq (ps : List Position) (balances : Balances) :
    Balances.ofPositions ps balances = positions.aggregate ps balances := by
  induction ps generalizing balances with
  | nil => rfl
  | cons p ps ih => simp only [Balances.ofPositions, aggregate, ih]; rfl

theorem ofMovements_eq (ms : List Movement) (balances : Balances) :
    Balances.ofMovements ms balances = movements.aggregate ms balances := by
  induction ms generalizing balances with
  | nil => rfl
  | cons m ms ih => simp only [Balances.ofMovements, aggregate, ih]; rfl

end Holdings

/-- Aggregation of positions and of movements is a homomorphism as long as the values of all priced
amounts have room for each other. -/
theorem aggregate_append (ps qs : List Position) (ms ns : List Movement)
    (hpositions : FitTogether ((ps ++ qs).flatMap Holdings.positions.nodes))
    (hmovements : FitTogether ((ms ++ ns).flatMap Holdings.movements.nodes)) :
    Holdings.positions.Homomorphic aggregatePositions ps qs ∧
      Holdings.movements.Homomorphic aggregateMovements ms ns := by
  have hps : aggregatePositions = fun ps => Holdings.positions.aggregate ps [] :=
    funext fun ps => Holdings.ofPositions_eq ps []
  have hms : aggregateMovements = fun ms => Holdings.movements.aggregate ms [] :=
    funext fun ms => Holdings.ofMovements_eq ms []
  rw [hps, hms]
  exact ⟨Holdings.aggregate_homomorphic _ hpositions, Holdings.aggregate_homomorphic _ hmovements⟩

/-- A token held twice next to a position kept as an NFT, and two deposits of the token. -/
theorem aggregate_append_nft :
    let usdc : Token := ⟨⟨1⟩, "USD Coin", "USDC", 6⟩
    let weth : Token := ⟨⟨2⟩, "Wrapped Ether", "WETH", 18⟩
    let supplied : Token := ⟨⟨3⟩, "Aave USDC", "aUSDC", 6⟩
    let nft : Token := ⟨⟨4⟩, "Positions NFT", "POS", 18⟩
    let priced (token : Token) (balance price : Word) : Underlying :=
      ⟨token, balance, .underlying, [.leaf ⟨⟨5⟩, "US Dollar", "USD", 8⟩ price .fiat]⟩
    let supply (balance : Word) : Position :=
      ⟨supplied, balance, .protocol, none, [priced usdc balance ⟨99980000⟩]⟩
    let deposit (balance : Word) : Movement :=
      ⟨⟨supplied, none⟩, [priced usdc balance ⟨100000000⟩], 1, ⟨0⟩⟩
    let ps := [supply ⟨100000000⟩]
    let qs := [supply ⟨50500000⟩, ⟨nft, ⟨1⟩, .protocol, some "42",
      [priced weth ⟨2000000000000000000⟩ ⟨300012345678⟩, priced usdc ⟨500000000⟩ ⟨99980000⟩]⟩]
    let ms := [deposit ⟨10000000⟩]
    let ns := [deposit ⟨15000000⟩]
    FitTogether ((ps ++ qs).flatMap Holdings.positions.nodes) ∧
      FitTogether ((ms ++ ns).flatMap Holdings.movements.nodes) ∧
      Holdings.positions.Homomorphic aggregatePositions ps qs ∧
      Holdings.movements.Homomorphic aggregateMovements ms ns := by
  intro usdc weth supplied nft priced supply deposit ps qs ms ns
  have hpositions : FitTogether ((ps ++ qs).flatMap Holdings.positions.nodes) := by decide
  have hmovements : FitTogether ((ms ++ ns).flatMap Holdings.movements.nodes) := by decide
  exact ⟨hpositions, hmovements, aggregate_append ps qs ms ns hpositions hmovements⟩

end Chainfolio
