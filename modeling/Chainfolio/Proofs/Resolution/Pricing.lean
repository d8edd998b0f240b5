import Chainfolio.Proofs.Resolution.Record
import Chainfolio.Proofs.Valuation.Unpriced

/-! Resolution with prices, and then a valuation of its result. What both of them take for an amount that
needs a price is the same: resolution has asked for the price of every amount that a valuation can miss
the price of, and there was none. -/
namespace Chainfolio

open Underlying

variable {τ : Type}

/-- Whether the price of a token was asked in a run and there was none. -/
def Oracle.Unknown (o : Oracle τ) (record : Record τ) (token : Token) : Prop :=
  ∃ before, .asked token before ∈ record ∧ (o.price token before).1 = .ok none

namespace Resolution

variable {o : Oracle τ} {depth : Nat} {us : List Underlying} {t t' : Oracle.Record τ × τ}
  {r : Except Fault (List Underlying)} {record : Oracle.Record τ}

theorem Resolves.record_subset {fiat : Bool}
    (h : Resolves o.recorded fiat depth us t r t') : t.1 ⊆ t'.1 := by
  intro event
  exact h.keeps (o.recorded_keeps_mem event)

/-- A rate that amounts are found by is in the record. -/
theorem finding_amounts_recorded {fiat : Bool} {token : Token} {balance : Word}
    {amounts : List Underlying}
    (h : finding o.recorded fiat depth token balance t = (.ok (.amounts amounts), t')) :
    ∃ rate, .unwrapped rate ∈ t'.1 ∧ rate.underlyings balance = .ok amounts := by
  obtain ⟨-, unwrap, t₁, rate, -, howner, hrate, hamounts⟩ := finding_amounts h
  obtain ⟨unwrap₀, -, rfl⟩ := Oracle.recorded_owner_eq_some howner
  exact ⟨rate, Oracle.noted_eq_ok hrate, hamounts⟩

/-- An amount that is not unwrapped gets its price, or there was none when it was asked. -/
theorem finding_price_recorded (ho : o.PricesAreLeaves) {token : Token} {balance : Word}
    {leaf : List Underlying}
    (h : finding o.recorded true depth token balance t = (.ok (.price leaf), t')) :
    (leaf = [] ∧ o.Unknown t'.1 token) ∨ ∃ currency amount, leaf = [.leaf currency amount .fiat] := by
  obtain ⟨t₁, hleaf⟩ := finding_price h
  obtain ⟨price, hprice, rfl⟩ := priceLeaf_true hleaf
  cases price with
  | none =>
    obtain ⟨hanswer, rfl⟩ := Prod.mk.inj hprice
    exact .inl ⟨rfl, t₁.2, List.mem_cons_self, hanswer⟩
  | some price =>
    obtain ⟨currency, amount, rfl⟩ := ho.recorded token t₁ price t' hprice
    exact .inr ⟨currency, amount, rfl⟩

theorem not_unpriced_price {currency leaf : Token} {amount : Word} :
    ¬ Unpriced [.leaf currency amount .fiat] leaf := by
  rintro (hkind | ⟨hkind, -⟩ | h)
  · exact hkind rfl
  · exact hkind rfl
  · cases h

/-- Where all rates on record have something in them, every amount without a price was asked for. -/
theorem Resolves.unknown (ho : o.PricesAreLeaves)
    (hrates : ∀ rate, .unwrapped rate ∈ record → rate.tokens ≠ [])
    (h : Resolves o.recorded true depth us t r t') (hrecord : t'.1 ⊆ record) :
    ∀ vs, r = .ok vs → ∀ token, Unpriced vs token → o.Unknown record token := by
  -- the record only grows, so that what a part of the run has asked stands in the whole record
  induction h with
  | nil =>
    rintro vs ⟨⟩ token ⟨⟩
  | price _ ih =>
    intro vs hvs token hunpriced
    obtain ⟨others, hothers, rfl⟩ := map_eq_ok_iff.mp hvs
    cases hunpriced with
    | here hkind => exact absurd rfl hkind
    | under hkind _ => exact absurd rfl hkind
    | later hunpriced => exact ih hrecord others hothers token hunpriced
  | nested hkind hbelow first rest ihfirst ih =>
    intro vs hvs token hunpriced
    obtain ⟨others, hothers, rfl⟩ := map_eq_ok_iff.mp hvs
    cases hunpriced with
    | here _ => exact absurd ((first.extends ho.recorded _ rfl).eq_nil_iff.mp rfl) hbelow
    | under _ hunpriced =>
      exact ihfirst (List.Subset.trans rest.record_subset hrecord) _ rfl token hunpriced
    | later hunpriced => exact ih hrecord others hothers token hunpriced
  | unwrapped hkind found first rest ihfirst ih =>
    intro vs hvs token hunpriced
    obtain ⟨others, hothers, rfl⟩ := map_eq_ok_iff.mp hvs
    have hrecord₂ := List.Subset.trans rest.record_subset hrecord
    obtain ⟨rate, hmem, hamounts⟩ := finding_amounts_recorded found
    have hne := UnwrapRate.underlyings_ne_nil hamounts
      (hrates rate (hrecord₂ (first.record_subset hmem)))
    cases hunpriced with
    | here _ => exact absurd ((first.extends ho.recorded _ rfl).eq_nil_iff.mp rfl) hne
    | under _ hunpriced => exact ihfirst hrecord₂ _ rfl token hunpriced
    | later hunpriced => exact ih hrecord others hothers token hunpriced
  | plain hkind found rest ih =>
    intro vs hvs token hunpriced
    obtain ⟨others, hothers, rfl⟩ := map_eq_ok_iff.mp hvs
    cases hunpriced with
    | later hunpriced => exact ih hrecord others hothers token hunpriced
    | here _ =>
      obtain ⟨-, before, hasked, hnone⟩ := (finding_price_recorded ho found).resolve_right (by simp)
      exact ⟨before, hrecord (rest.record_subset hasked), hnone⟩
    | under _ hunpriced =>
      rcases finding_price_recorded ho found with ⟨rfl, -⟩ | ⟨currency, amount, rfl⟩
      · cases hunpriced
      · exact absurd hunpriced not_unpriced_price
  | nestedFails | unwrappedFails | fails =>
    rintro vs ⟨⟩

/-! ### Positions -/

/-- What a resolved position consists of comes from one run of resolution among the others, and what the
oracle keeps from there on holds in the end. -/
theorem positions_eq_ok {o : Oracle τ} {options : Options} {ps resolved : List Position} {s s' : τ}
    (h : positions o options ps s = (.ok resolved, s')) :
    ∀ q ∈ resolved, ∃ p ∈ ps, ∃ s₁ s₂, resolve o options p.tokens s₁ = (.ok q.tokens, s₂) ∧
      ∀ Inv : τ → Prop, o.Keeps Inv → Inv s₂ → Inv s' := by
  induction ps generalizing s resolved with
  | nil =>
    cases h
    simp
  | cons p ps ih =>
    obtain ⟨q, s₁, hq, h⟩ := Run.bind_eq_ok_iff.mp h
    obtain ⟨others, s₂, hothers, h⟩ := Run.bind_eq_ok_iff.mp h
    cases h
    obtain ⟨tokens, s₃, htokens, hq⟩ := Run.bind_eq_ok_iff.mp hq
    cases hq
    rw [List.forall_mem_cons]
    constructor
    · refine ⟨p, List.mem_cons_self, s, s₁, htokens, fun Inv ho hinv => ?_⟩
      exact (positions_keeps ho options ps).of_apply hothers hinv
    · intro q hq
      obtain ⟨p', hp', hrun⟩ := ih hothers q hq
      exact ⟨p', List.mem_cons_of_mem _ hp', hrun⟩

theorem positions_tokens_ne_nil {options : Options} {ps resolved : List Position} {s s' : τ}
    (ho : o.PricesAreLeaves) (h : positions o options ps s = (.ok resolved, s'))
    (htokens : ∀ p ∈ ps, p.tokens ≠ []) : ∀ q ∈ resolved, q.tokens ≠ [] := by
  intro q hq hnil
  obtain ⟨p, hp, s₁, s₂, hrun, -⟩ := positions_eq_ok h q hq
  have hextends := (resolves_iff.mpr hrun).extends ho q.tokens rfl
  exact htokens p hp (hextends.eq_nil_iff.mp hnil)

/-- The price of every amount in resolved positions that has none was asked. -/
theorem positions_unknown {ps resolved : List Position} {s s' : τ} (ho : o.PricesAreLeaves)
    (h : positions o { depth := depth, fiatPrices := true } ps s = (.ok resolved, s'))
    (hrates : ∀ rate,
      .unwrapped rate ∈ Resolution.record o { depth := depth, fiatPrices := true } ps s →
        rate.tokens ≠ []) :
    ∀ q ∈ resolved, ∀ token, Unpriced q.tokens token →
      o.Unknown (Resolution.record o { depth := depth, fiatPrices := true } ps s) token := by
  intro q hq
  obtain ⟨p, -, t₁, t₂, hrun, hkept⟩ := positions_eq_ok (positions_record h) q hq
  refine (resolves_iff.mpr hrun).unknown ho hrates ?_ q.tokens rfl
  intro event hmem
  exact hkept (fun t => event ∈ t.1) (o.recorded_keeps_mem event) hmem

end Resolution

namespace Registry

variable {σ : Type} {chain : Chain} {block : Option Block} {p : Adapter σ}

theorem tokenIndex_keeps_find? (chain : Chain) (key : ProductKey) :
    (tokenIndex chain).Keeps fun t : Registry σ × σ => t.1.find? key = some p := by
  refine Run.Keeps.bind (fun _ h => h) fun _ r _ _ => ?_
  cases r.indexes chain with
  | some index => exact Run.keeps_pure _
  | none =>
    refine (Run.keeps_onSecond fun _ _ h => h).bind fun _ index _ _ => ?_
    exact Run.Keeps.bind (fun _ h => h) fun _ _ _ _ => Run.keeps_pure _

/-- The price adapter stays registered. -/
theorem oracle_keeps_prices (chain : Chain) (block : Option Block) (p : Adapter σ) :
    (oracle chain block).Keeps fun t => t.1.find? ⟨chain, .prices, Prices.product⟩ = some p where
  owner _ :=
    ((tokenIndex_keeps_find? chain _).bind fun _ _ _ _ => Run.keeps_pure _).bind
      fun _ _ _ _ => Run.keeps_pure _
  unwrap h := by
    obtain ⟨owner, t, -, h⟩ := Run.bind_eq_ok_iff.mp h
    cases owner with
    | none => cases h
    | some a =>
      cases h
      exact Run.keeps_onSecond fun _ _ h => h
  price token t h := by
    change (price chain block token t).2.1.find? _ = _
    rwa [price_of_find?_eq_some h]

theorem priceOrNone_eq_ok_none {answer : Except Fault UnwrapRate}
    (h : priceOrNone answer = .ok none) :
    (∃ rate, answer = .ok rate ∧ rate.tokens = []) ∨
      ∃ chain address, answer = .error (.protocolTokenNotFound chain address) := by
  unfold priceOrNone priceOf at h
  split at h
  · rename_i rate
    exact .inl ⟨rate, rfl, by simpa using h⟩
  · exact .inr ⟨_, _, rfl⟩
  · cases h

end Registry

/-- Whether a price adapter was asked for a token in a run and answered that it has no feed for it. -/
def Adapter.AnsweredNoFeed {σ : Type} (p : Adapter σ) (block : Option Block)
    (record : Oracle.Record (Registry σ × σ)) (token : Token) : Prop :=
  ∃ before chain address, .asked token before ∈ record ∧
    (p.unwrap { token := token.address, block := block } before.2).1 =
      .error (.protocolTokenNotFound chain address)

theorem Oracle.Unknown.answeredNoFeed {σ : Type} {chain : Chain} {block : Option Block} {p : Adapter σ}
    {record : Oracle.Record (Registry σ × σ)} {token : Token}
    (h : (Registry.oracle chain block).Unknown record token)
    (hprices : ∀ token before, .asked token before ∈ record →
      before.1.find? ⟨chain, .prices, Prices.product⟩ = some p)
    (hanswers : ∀ token before rate, .asked token before ∈ record →
      (p.unwrap { token := token.address, block := block } before.2).1 = .ok rate → rate.tokens ≠ []) :
    p.AnsweredNoFeed block record token := by
  obtain ⟨before, hasked, hnone⟩ := h
  change (Registry.price chain block token before).1 = .ok none at hnone
  rw [Registry.price_of_find?_eq_some (hprices token before hasked)] at hnone
  rcases Registry.priceOrNone_eq_ok_none hnone with ⟨rate, hrate, hnil⟩ | ⟨chain', address, hnoFeed⟩
  · exact absurd hnil (hanswers token before rate hasked hrate)
  · exact ⟨before, chain', address, hasked, hnoFeed⟩

/-- Resolution with prices and the valuation of its result fit together. Where the rates and the prices
that a run is answered with have something in them, the valuation lacks a price only of a token that
stands in the result with nothing below it and that the price adapter said to have no feed for. So if
it has a feed for every such token, no price is lacking. -/
theorem aggregate_missing_only_without_feed {σ : Type} {chain : Chain} {block : Option Block}
    {depth : Nat} {p : Adapter σ} {s s' : Registry σ × σ} {ps resolved : List Position}
    (hprices : s.1.find? ⟨chain, .prices, Prices.product⟩ = some p)
    (htokens : ∀ q ∈ ps, q.tokens ≠ [])
    (hresolved : Resolution.positions (Registry.oracle chain block)
      { depth := depth, fiatPrices := true } ps s = (.ok resolved, s'))
    (hrates : ∀ rate,
      .unwrapped rate ∈ Resolution.record (Registry.oracle chain block)
        { depth := depth, fiatPrices := true } ps s → rate.tokens ≠ [])
    (hanswers : ∀ token before rate,
      .asked token before ∈ Resolution.record (Registry.oracle chain block)
        { depth := depth, fiatPrices := true } ps s →
      (p.unwrap { token := token.address, block := block } before.2).1 = .ok rate →
        rate.tokens ≠ []) :
    let record := Resolution.record (Registry.oracle chain block)
      { depth := depth, fiatPrices := true } ps s
    (∀ a, aggregatePositions resolved = .error (.missingFiatLeaf a) →
      ∃ q ∈ resolved, ∃ token, Unpriced q.tokens token ∧ token.address = a ∧
        p.AnsweredNoFeed block record token) ∧
    ((∀ q ∈ resolved, ∀ token, Unpriced q.tokens token → ¬ p.AnsweredNoFeed block record token) →
      ∀ a, aggregatePositions resolved ≠ .error (.missingFiatLeaf a)) := by
  intro record
  have ho : (Registry.oracle chain block : Oracle (Registry σ × σ)).PricesAreLeaves :=
    Registry.oracle_pricesAreLeaves chain block
  have hrecord := Resolution.positions_record hresolved
  have hregistered := ((Resolution.positions_keeps
    (Registry.oracle_keeps_prices chain block p).recorded _ ps).of_apply hrecord
      ⟨by simp, hprices⟩).1
  have hmissing : ∀ a, aggregatePositions resolved = .error (.missingFiatLeaf a) →
      ∃ q ∈ resolved, ∃ token, Unpriced q.tokens token ∧ token.address = a ∧
        p.AnsweredNoFeed block record token := by
    intro a h
    obtain ⟨q, hq, hvalue⟩ := Balances.ofPositions_eq_missing h
    have hne := Resolution.positions_tokens_ne_nil ho hresolved htokens q hq
    obtain ⟨token, hunpriced, ha⟩ := Position.value_eq_missing hvalue hne
    have hunknown := Resolution.positions_unknown ho hresolved hrates q hq token hunpriced
    exact ⟨q, hq, token, hunpriced, ha, hunknown.answeredNoFeed hregistered hanswers⟩
  refine ⟨hmissing, fun hfeeds a h => ?_⟩
  obtain ⟨q, hq, token, hunpriced, -, hnoFeed⟩ := hmissing a h
  exact hfeeds q hq token hunpriced hnoFeed

/-- Prices of some tokens, two dollars each. -/
def Script.prices (tokens : List Token) : Script where
  key := ⟨.ethereum, .prices, Prices.product⟩
  settings := { includeInUnwrap := false }
  rates := tokens.map fun token =>
    { token := token
      tokens := [{ token := Prices.usd, kind := .fiat, rate := 2000000000000000000 }] }

/-- A token that stands for another one, and prices of some tokens. -/
def Registry.wrapperAndPrices (outer inner : Token) (priced : List Token) : Registry Nat where
  providers _ := none
  adapters :=
    [(Script.wrapper .aaveV3 outer inner).adapter ⟨id, fun n _ => n⟩,
      (Script.prices priced).adapter ⟨id, fun n _ => n⟩]
  ordered := List.pairwise_pair.mpr (.inr ⟨rfl, .inl (Nat.zero_lt_succ 5)⟩)
  indexes _ := none

/-- A position of ether and of a vault lacks a price of what is in the vault when only ether has one. -/
theorem aggregate_missing_only_without_feed_vault :
    let ether : Token := ⟨⟨0xE⟩, "Wrapped Ether", "WETH", 18⟩
    let inner : Token := ⟨⟨0xA⟩, "Inner", "IN", 18⟩
    let vault : Token := ⟨⟨0xB⟩, "Vault", "vIN", 18⟩
    let unit : Word := 1000000000000000000
    let prices : Adapter Nat := (Script.prices [ether]).adapter ⟨id, fun n _ => n⟩
    let s := (Registry.wrapperAndPrices vault inner [ether], 0)
    let options : Resolution.Options := { depth := 1, fiatPrices := true }
    let ps : List Position :=
      [{ token := vault
         balance := unit
         tokens := [.leaf ether unit .underlying, .leaf vault unit .underlying] }]
    let resolved : List Position :=
      [{ token := vault
         balance := unit
         tokens := [⟨ether, unit, .underlying, [.leaf Prices.usd 2000000000000000000 .fiat]⟩,
           ⟨vault, unit, .underlying, [.leaf inner unit .underlying]⟩] }]
    s.1.find? ⟨.ethereum, .prices, Prices.product⟩ = some prices ∧
    (Resolution.positions (Registry.oracle .ethereum none) options ps s).1 = .ok resolved ∧
    aggregatePositions resolved = .error (.missingFiatLeaf inner.address) ∧
    ∃ q ∈ resolved, ∃ token, Unpriced q.tokens token ∧ token.address = inner.address ∧
      prices.AnsweredNoFeed none
        (Resolution.record (Registry.oracle .ethereum none) options ps s) token := by
  intro ether inner vault unit prices s options ps resolved
  have hprices : s.1.find? ⟨.ethereum, .prices, Prices.product⟩ = some prices := by
    simp only [ether, inner, vault, prices, s]
    rfl
  have htokens : ∀ q ∈ ps, q.tokens ≠ [] := by simp [ps]
  have hresolved : ∃ s', Resolution.positions (Registry.oracle .ethereum none) options ps s =
      (.ok resolved, s') := by
    simp only [ether, inner, vault, unit, s, options, ps, resolved]
    exact ⟨_, rfl⟩
  have hrecord : ∃ s₁ s₂, Resolution.record (Registry.oracle .ethereum none) options ps s =
      [.asked inner s₂, .unwrapped { token := vault, tokens := [{ token := inner, rate := unit }] },
        .asked ether s₁] := by
    simp only [ether, inner, vault, unit, s, options, ps]
    exact ⟨_, _, rfl⟩
  have hmissing : aggregatePositions resolved = .error (.missingFiatLeaf inner.address) := by
    simp only [ether, inner, vault, unit, resolved]
    rfl
  obtain ⟨s', hresolved⟩ := hresolved
  obtain ⟨s₁, s₂, hrecord⟩ := hrecord
  have hrates : ∀ rate, .unwrapped rate ∈
      Resolution.record (Registry.oracle .ethereum none) options ps s → rate.tokens ≠ [] := by
    rw [hrecord]
    intro rate hmem
    obtain rfl : rate = { token := vault, tokens := [{ token := inner, rate := unit }] } := by
      simpa using hmem
    exact List.cons_ne_nil _ _
  have hanswers : ∀ token before rate, .asked token before ∈
      Resolution.record (Registry.oracle .ethereum none) options ps s →
      (prices.unwrap { token := token.address, block := none } before.2).1 = .ok rate →
        rate.tokens ≠ [] := by
    rw [hrecord]
    intro token before rate hmem hrate
    have htoken : token = inner ∧ before = s₂ ∨ token = ether ∧ before = s₁ := by simpa using hmem
    rcases htoken with ⟨rfl, -⟩ | ⟨rfl, -⟩
    · cases hrate
    · cases hrate
      exact List.cons_ne_nil _ _
  have hfit := aggregate_missing_only_without_feed hprices htokens hresolved hrates hanswers
  exact ⟨hprices, by rw [hresolved], hmissing, hfit.1 _ hmissing⟩

end Chainfolio
