import Chainfolio.Adapter.Scripted
import Chainfolio.Proofs.Resolution.Derivation
import Chainfolio.Resolution.Registry

/-! Resolution only extends. What it is given stays as it is; subtrees are added below amounts that have
nothing below them and are no prices, and the levels of an added subtree are bounded. -/
namespace Chainfolio

theorem UnwrapRate.tokens_eq_nil_of_underlyings {rate : UnwrapRate} {balance : Word}
    {us : List Underlying} (h : rate.underlyings balance = .ok us) : ∀ u ∈ us, u.tokens = [] := by
  replace h := mapM_eq_ok_iff.mp h
  generalize rate.tokens = rates at h
  induction h with
  | nil => simp
  | cons hone _ ih =>
    obtain ⟨amount, -, rfl⟩ := map_eq_ok_iff.mp hone
    intro u hu
    rcases List.mem_cons.mp hu with rfl | hu
    · rfl
    · exact ih u hu

theorem UnwrapRate.underlyings_ne_nil {rate : UnwrapRate} {balance : Word} {us : List Underlying}
    (h : rate.underlyings balance = .ok us) (hrate : rate.tokens ≠ []) : us ≠ [] := by
  rintro rfl
  exact hrate (List.forall₂_nil_right_iff.mp (mapM_eq_ok_iff.mp h))

namespace Underlying

/-- `Extends added us vs`: the forest `vs` is `us` with more below some amounts. They had nothing below
them and are no prices, and `added` holds of what each of them got. -/
inductive Extends (added : List Underlying → Prop) : List Underlying → List Underlying → Prop
  | nil : Extends added [] []
  | price {token balance below us vs} (rest : Extends added us vs) :
      Extends added (⟨token, balance, .fiat, below⟩ :: us) (⟨token, balance, .fiat, below⟩ :: vs)
  | leaf {token balance kind below us vs} (hkind : kind ≠ .fiat) (hadded : added below)
      (rest : Extends added us vs) :
      Extends added (⟨token, balance, kind, []⟩ :: us) (⟨token, balance, kind, below⟩ :: vs)
  | nested {token balance kind below below' us vs} (hkind : kind ≠ .fiat) (hbelow : below ≠ [])
      (first : Extends added below below') (rest : Extends added us vs) :
      Extends added (⟨token, balance, kind, below⟩ :: us) (⟨token, balance, kind, below'⟩ :: vs)

mutual

/-- The amount `v` without what it has below places where `u` has nothing and is no price. -/
def cut : Underlying → Underlying → Underlying
  | ⟨_, _, kind, below⟩, v =>
    if kind = .fiat then v
    else
      match below with
      | [] => { v with tokens := [] }
      | u :: rest => { v with tokens := cutAll (u :: rest) v.tokens }

def cutAll : List Underlying → List Underlying → List Underlying
  | [], vs => vs
  | _ :: _, [] => []
  | u :: us, v :: vs => cut u v :: cutAll us vs

end

variable {added : List Underlying → Prop} {us vs : List Underlying}

/-- Cutting off what was added gives back the forest that was extended. -/
theorem Extends.cutAll_eq (h : Extends added us vs) : cutAll us vs = us := by
  induction h with
  | nil => rfl
  | price _ ih => simp [cutAll, cut, ih]
  | leaf hkind _ _ ih => simp [cutAll, cut, hkind, ih]
  | @nested _ _ _ below _ _ _ hkind hbelow _ _ ihfirst ih =>
    cases below with
    | nil => exact absurd rfl hbelow
    | cons u below => simp [cutAll, cut, hkind, ihfirst, ih]

/-- Below a forest of single amounts stands what was added to each, and nothing below its prices. -/
theorem Extends.of_leaves (h : Extends added us vs) (hleaves : ∀ u ∈ us, u.tokens = []) :
    ∀ v ∈ vs, (v.kind = .fiat → v.tokens = []) ∧ (v.kind ≠ .fiat → added v.tokens) := by
  induction h with
  | nil => simp
  | price _ ih =>
    rw [List.forall_mem_cons] at hleaves ⊢
    exact ⟨⟨fun _ => hleaves.1, fun hkind => absurd rfl hkind⟩, ih hleaves.2⟩
  | leaf hkind hadded _ ih =>
    rw [List.forall_mem_cons] at hleaves ⊢
    exact ⟨⟨fun h => absurd h hkind, fun _ => hadded⟩, ih hleaves.2⟩
  | nested _ hbelow _ _ _ _ =>
    rw [List.forall_mem_cons] at hleaves
    exact absurd hleaves.1 hbelow

theorem Extends.eq_nil_iff (h : Extends added us vs) : vs = [] ↔ us = [] := by
  cases h <;> simp

/-- What resolution puts below an amount with some levels left: nothing, a price alone, or one level of
unwrapped amounts and what is put below these with one level less. -/
inductive Grown : Nat → List Underlying → Prop
  | nothing {depth} : Grown depth []
  | price {depth token balance} : Grown depth [.leaf token balance .fiat]
  | unwrapped {depth us} (prices : ∀ u ∈ us, u.kind = .fiat → u.tokens = [])
      (others : ∀ u ∈ us, u.kind ≠ .fiat → Grown depth u.tokens) : Grown (depth + 1) us

end Underlying

open Underlying

/-- Whether all prices are known as amounts of a currency with nothing below them. -/
def Oracle.PricesAreLeaves {τ : Type} (o : Oracle τ) : Prop :=
  ∀ token s price s', o.price token s = (.ok (some price), s') →
    ∃ currency amount, price = .leaf currency amount .fiat

namespace Resolution

variable {τ : Type} {o : Oracle τ} {fiat : Bool} {depth : Nat} {us : List Underlying} {s s' : τ}
  {r : Except Fault (List Underlying)}

theorem grown_of_finding_price (ho : o.PricesAreLeaves) {token : Token} {balance : Word}
    {leaf : List Underlying} (h : finding o fiat depth token balance s = (.ok (.price leaf), s')) :
    Grown depth leaf := by
  obtain ⟨s₁, hleaf⟩ := finding_price h
  cases fiat with
  | false =>
    rw [priceLeaf_false hleaf]
    exact .nothing
  | true =>
    obtain ⟨price, hprice, rfl⟩ := priceLeaf_true hleaf
    cases price with
    | none => exact .nothing
    | some price =>
      obtain ⟨currency, amount, rfl⟩ := ho _ _ _ _ hprice
      exact .price

/-- A run that succeeds extends what it is given, by no more levels than there are left. -/
theorem Resolves.extends (ho : o.PricesAreLeaves) (h : Resolves o fiat depth us s r s') :
    ∀ vs, r = .ok vs → Extends (Grown depth) us vs := by
  induction h with
  | nil =>
    rintro vs ⟨⟩
    exact .nil
  | price _ ih =>
    intro vs hvs
    obtain ⟨rest, hrest, rfl⟩ := map_eq_ok_iff.mp hvs
    exact .price (ih rest hrest)
  | nested hkind hbelow _ _ ihfirst ih =>
    intro vs hvs
    obtain ⟨rest, hrest, rfl⟩ := map_eq_ok_iff.mp hvs
    exact .nested hkind hbelow (ihfirst _ rfl) (ih rest hrest)
  | unwrapped hkind found _ _ ihfirst ih =>
    intro vs hvs
    obtain ⟨rest, hrest, rfl⟩ := map_eq_ok_iff.mp hvs
    obtain ⟨-, -, -, rate, -, -, -, hamounts⟩ := finding_amounts found
    have hlevel := (ihfirst _ rfl).of_leaves (UnwrapRate.tokens_eq_nil_of_underlyings hamounts)
    have hgrown := Grown.unwrapped (fun u hu => (hlevel u hu).1) (fun u hu => (hlevel u hu).2)
    exact .leaf hkind hgrown (ih rest hrest)
  | plain hkind found _ ih =>
    intro vs hvs
    obtain ⟨rest, hrest, rfl⟩ := map_eq_ok_iff.mp hvs
    exact .leaf hkind (grown_of_finding_price ho found) (ih rest hrest)
  | nestedFails | unwrappedFails | fails =>
    rintro vs ⟨⟩

end Resolution

namespace Registry

variable {σ : Type} {chain : Chain} {block : Option Block}

/-- Where no price adapter is registered no price is known. -/
theorem price_of_find?_eq_none {s : Registry σ × σ}
    (h : s.1.find? ⟨chain, .prices, Prices.product⟩ = none) (token : Token) :
    price chain block token s = (.ok none, s) := by
  rw [price, Run.bind_ok (Run.read_apply _ _), h]
  rfl

/-- The price adapter is asked once, and leaves the registry as it is. -/
theorem price_of_find?_eq_some {s : Registry σ × σ} {a : Adapter σ}
    (h : s.1.find? ⟨chain, .prices, Prices.product⟩ = some a) (token : Token) :
    price chain block token s =
      (priceOrNone (a.unwrap { token := token.address, block := block } s.2).1, s.1,
        (a.unwrap { token := token.address, block := block } s.2).2) := by
  rw [price, Run.bind_ok (Run.read_apply _ _), h]
  exact (Run.bind_ok (Run.outcome_apply _ _)).trans (Run.ofExcept_apply _ _)

theorem priceOrNone_eq_ok_some {answer : Except Fault UnwrapRate} {price : Underlying}
    (h : priceOrNone answer = .ok (some price)) :
    ∃ currency amount, price = .leaf currency amount .fiat := by
  unfold priceOrNone priceOf at h
  split at h
  · obtain ⟨u, -, rfl⟩ := Option.map_eq_some_iff.mp (Except.ok.inj h)
    exact ⟨u.token, u.rate, rfl⟩
  · cases h
  · cases h

theorem oracle_pricesAreLeaves (chain : Chain) (block : Option Block) :
    (oracle chain block : Oracle (Registry σ × σ)).PricesAreLeaves := by
  intro token s price s' h
  change Registry.price chain block token s = _ at h
  cases hfind : s.1.find? ⟨chain, .prices, Prices.product⟩ with
  | none =>
    rw [price_of_find?_eq_none hfind] at h
    cases h
  | some a =>
    rw [price_of_find?_eq_some hfind] at h
    exact priceOrNone_eq_ok_some (Prod.mk.inj h).1

end Registry

/-- Resolution by any registry terminates and only extends. From every state the run follows the rules
in a finite derivation, and when it succeeds, what it was given is still there, with nothing added but
subtrees of at most `depth` unwrapped levels and a price below amounts that had nothing below them and
are no prices; cutting these off gives back what it was given. -/
theorem Resolution.resolve_terminates_and_extends {σ : Type} (chain : Chain) (block : Option Block)
    (options : Options) (us : List Underlying) (s : Registry σ × σ) :
    ∃ r s', Resolves (Registry.oracle chain block) options.fiatPrices options.depth us s r s' ∧
      resolve (Registry.oracle chain block) options us s = (r, s') ∧
      ∀ vs, r = .ok vs → Extends (Grown options.depth) us vs ∧ cutAll us vs = us := by
  obtain ⟨r, s', hderived⟩ :=
    exists_resolves (Registry.oracle chain block) options.fiatPrices options.depth us s
  refine ⟨r, s', hderived, hderived.run, fun vs hvs => ?_⟩
  have hextends := hderived.extends (Registry.oracle_pricesAreLeaves chain block) vs hvs
  exact ⟨hextends, hextends.cutAll_eq⟩

/-- A product with one token, which stands for another one. -/
def Script.wrapper (protocol : Protocol) (outer inner : Token) : Script where
  key := ⟨.ethereum, protocol, "wrapper"⟩
  protocolTokens := [{ token := outer, underlyings := [inner] }]

/-- Two tokens that unwrap into each other. -/
def Registry.cycle (a b : Token) : Registry Nat where
  providers _ := none
  adapters :=
    [(Script.wrapper .aaveV3 a b).adapter ⟨id, fun n _ => n⟩,
      (Script.wrapper .compoundV2 b a).adapter ⟨id, fun n _ => n⟩]
  ordered := List.pairwise_pair.mpr (.inr ⟨rfl, .inl Nat.zero_lt_one⟩)
  indexes _ := none

/-- A token of a cycle is unwrapped as often as there are levels. -/
theorem Resolution.resolve_terminates_and_extends_cycle :
    let a : Token := ⟨⟨0xA⟩, "Vault A", "vA", 18⟩
    let b : Token := ⟨⟨0xB⟩, "Vault B", "vB", 6⟩
    let us : List Underlying := [.leaf a 1000000000000000000 .protocol]
    let vs : List Underlying := [⟨a, 1000000000000000000, .protocol,
      [⟨b, 1000000, .underlying, [.leaf a 1000000000000000000 .underlying]⟩]⟩]
    (resolve (Registry.oracle .ethereum none) { depth := 2 } us (Registry.cycle a b, 0)).1 = .ok vs ∧
      Extends (Grown 2) us vs ∧ cutAll us vs = us := by
  intro a b us vs
  obtain ⟨r, s', -, hrun, hextends⟩ :=
    resolve_terminates_and_extends .ethereum none { depth := 2 } us (Registry.cycle a b, 0)
  have hanswer : (resolve (Registry.oracle .ethereum none) { depth := 2 } us
      (Registry.cycle a b, 0)).1 = .ok vs := by
    simp only [a, b, us, vs]
    rfl
  refine ⟨hanswer, hextends vs ?_⟩
  rwa [hrun] at hanswer

end Chainfolio
