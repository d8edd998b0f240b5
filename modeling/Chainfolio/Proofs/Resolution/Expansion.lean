import Chainfolio.Proofs.Rates.Unwrap
import Chainfolio.Proofs.Registry.History
import Chainfolio.Proofs.Resolution.Record

/-! What resolution does with every amount that it comes to. One that a product owns is unwrapped while a
level is left, and then it has the tokens of the product's rate below it; any other one is left as it is
or gets its price. What stands below a price is not looked at. -/
namespace Chainfolio

namespace Underlying

/-- An amount without what it unwraps into. -/
def bare (u : Underlying) : Underlying := .leaf u.token u.balance u.kind

/-- `Stands us vs n u v`: in the forest `vs`, which the forest `us` was resolved to, `v` stands where `u`
stood, after `n` unwrappings below an amount of `us` that had nothing below it. Prices and what is below
them are left out. -/
inductive Stands : List Underlying → List Underlying → Nat → Underlying → Underlying → Prop
  | here {u v us vs} (hkind : u.kind ≠ .fiat) : Stands (u :: us) (v :: vs) 0 u v
  | nested {u v us vs n w x} (hkind : u.kind ≠ .fiat) (hbelow : u.tokens ≠ [])
      (h : Stands u.tokens v.tokens n w x) : Stands (u :: us) (v :: vs) n w x
  | unwrapped {u v us vs n w x} (hkind : u.kind ≠ .fiat) (hbelow : u.tokens = [])
      (h : Stands (v.tokens.map bare) v.tokens n w x) : Stands (u :: us) (v :: vs) (n + 1) w x
  | later {u v us vs n w x} (h : Stands us vs n w x) : Stands (u :: us) (v :: vs) n w x

/-- `Holds vs v`: the amount `v` stands in the forest `vs`, is no price and is below none. -/
inductive Holds : List Underlying → Underlying → Prop
  | here {v vs} (hkind : v.kind ≠ .fiat) : Holds (v :: vs) v
  | under {v vs w} (hkind : v.kind ≠ .fiat) (h : Holds v.tokens w) : Holds (v :: vs) w
  | later {v vs w} (h : Holds vs w) : Holds (v :: vs) w

variable {added : List Underlying → Prop} {us vs : List Underlying} {u v w : Underlying} {n : Nat}

theorem map_bare_of_leaves (h : ∀ u ∈ us, u.tokens = []) : us.map bare = us := by
  refine (List.map_congr_left fun u hu => ?_).trans (List.map_id us)
  obtain ⟨token, balance, kind, below⟩ := u
  obtain rfl : below = [] := h _ hu
  rfl

theorem Extends.map_bare (h : Extends added us vs) : vs.map bare = us.map bare := by
  induction h with
  | nil => rfl
  | price _ ih | leaf _ _ _ ih | nested _ _ _ _ _ ih => exact congrArg (List.cons _) ih

theorem not_stands_of_prices (hprices : ∀ u ∈ us, u.kind = .fiat) : ¬ Stands us vs n u v := by
  intro h
  induction h with
  | here hkind | nested hkind _ _ _ | unwrapped hkind _ _ _ =>
    exact hkind (hprices _ List.mem_cons_self)
  | later _ ih => exact ih fun u hu => hprices u (List.mem_cons_of_mem _ hu)

theorem Holds.stands_bare (h : Holds vs w) : ∃ n u, Stands (vs.map bare) vs n u w := by
  induction h with
  | here hkind => exact ⟨0, _, .here hkind⟩
  | under hkind _ ih =>
    obtain ⟨n, u, h⟩ := ih
    exact ⟨n + 1, u, .unwrapped hkind rfl h⟩
  | later _ ih =>
    obtain ⟨n, u, h⟩ := ih
    exact ⟨n, u, .later h⟩

/-- Every amount of an extended forest stands somewhere. -/
theorem Extends.stands (h : Extends added us vs) (hw : Holds vs w) : ∃ n u, Stands us vs n u w := by
  induction h with
  | nil => cases hw
  | price _ ih =>
    cases hw with
    | here hkind => exact absurd rfl hkind
    | under hkind _ => exact absurd rfl hkind
    | later hw =>
      obtain ⟨n, u, h⟩ := ih hw
      exact ⟨n, u, .later h⟩
  | leaf hkind _ _ ih =>
    cases hw with
    | here _ => exact ⟨0, _, .here hkind⟩
    | under _ hw =>
      obtain ⟨n, u, h⟩ := hw.stands_bare
      exact ⟨n + 1, u, .unwrapped hkind rfl h⟩
    | later hw =>
      obtain ⟨n, u, h⟩ := ih hw
      exact ⟨n, u, .later h⟩
  | nested hkind hbelow _ _ ihfirst ih =>
    cases hw with
    | here _ => exact ⟨0, _, .here hkind⟩
    | under _ hw =>
      obtain ⟨n, u, h⟩ := ihfirst hw
      exact ⟨n, u, .nested hkind hbelow h⟩
    | later hw =>
      obtain ⟨n, u, h⟩ := ih hw
      exact ⟨n, u, .later h⟩

end Underlying

open Underlying

variable {τ : Type}

/-- Whether a state comes about from another one by questions to an oracle: whatever the oracle keeps of
the first one holds of the second. -/
def Oracle.Leads (o : Oracle τ) (s s' : τ) : Prop := ∀ Inv : τ → Prop, o.Keeps Inv → Inv s → Inv s'

theorem Oracle.leads_refl (o : Oracle τ) (s : τ) : o.Leads s s := fun _ _ h => h

theorem Oracle.Leads.trans {o : Oracle τ} {s s₁ s' : τ} (h : o.Leads s s₁) (h' : o.Leads s₁ s') :
    o.Leads s s' := fun Inv ho hs => h' Inv ho (h Inv ho hs)

theorem Oracle.leads_owner {o : Oracle τ} {address : Address} {s s' : τ}
    {owner : Except Fault (Option (Run τ UnwrapRate))} (h : o.owner address s = (owner, s')) :
    o.Leads s s' := fun _ ho => (ho.owner address).of_apply h

namespace Resolution

variable {o : Oracle τ} {fiat : Bool} {depth n : Nat} {us vs : List Underlying} {u v : Underlying}
  {s s' : τ} {r : Except Fault (List Underlying)}

/-- Whether something found stands below an amount, with more below it perhaps. -/
def Finding.Below : Finding → List Underlying → Prop
  | .amounts us, below => below.map bare = us
  | .price leaf, below => below = leaf

/-- Whether in a run from `s` to `s'` the amount `u` was looked into with some levels left, and what was
found then stands below `v`. -/
def Found (o : Oracle τ) (fiat : Bool) (levels : Nat) (u v : Underlying) (s s' : τ) : Prop :=
  ∃ before found after, finding o fiat levels u.token u.balance before = (.ok found, after) ∧
    found.Below v.tokens ∧ o.Leads s before ∧ o.Leads after s'

theorem Found.mono {levels : Nat} {t t' : τ} (h : Found o fiat levels u v t t')
    (hbefore : o.Leads s t) (hafter : o.Leads t' s') : Found o fiat levels u v s s' := by
  obtain ⟨before, found, after, hfound, hbelow, hs, hs'⟩ := h
  exact ⟨before, found, after, hfound, hbelow, hbefore.trans hs, hs'.trans hafter⟩

theorem Resolves.leads (h : Resolves o fiat depth us s r s') : o.Leads s s' :=
  fun _ ho => h.keeps ho

theorem finding_leads {token : Token} {balance : Word} {found : Except Fault Finding}
    (h : finding o fiat depth token balance s = (found, s')) : o.Leads s s' :=
  fun _ ho => (finding_keeps ho fiat depth token balance).of_apply h

theorem prices_of_finding (ho : o.PricesAreLeaves) {token : Token} {balance : Word}
    {leaf : List Underlying} (h : finding o fiat depth token balance s = (.ok (.price leaf), s')) :
    leaf = [] ∨ ∃ currency amount, leaf = [.leaf currency amount .fiat] := by
  obtain ⟨s₁, hleaf⟩ := finding_price h
  cases fiat with
  | false => exact .inl (priceLeaf_false hleaf)
  | true =>
    obtain ⟨price, hprice, rfl⟩ := priceLeaf_true hleaf
    cases price with
    | none => exact .inl rfl
    | some price =>
      obtain ⟨currency, amount, rfl⟩ := ho _ _ _ _ hprice
      exact .inr ⟨currency, amount, rfl⟩

theorem not_stands_price (ho : o.PricesAreLeaves) {token : Token} {balance : Word}
    {leaf : List Underlying} (h : finding o fiat depth token balance s = (.ok (.price leaf), s')) :
    ¬ Stands (leaf.map bare) leaf n u v := by
  refine not_stands_of_prices ?_
  rcases prices_of_finding ho h with rfl | ⟨currency, amount, rfl⟩ <;> simp [bare, leaf]

/-- The amounts that an amount unwraps into stay below it. -/
theorem Resolves.map_bare_of_found (ho : o.PricesAreLeaves) {token : Token} {balance : Word}
    {levels : Nat} {below : List Underlying} {t t' : τ} (h : Resolves o fiat depth us s (.ok below) s')
    (found : finding o fiat levels token balance t = (.ok (.amounts us), t')) :
    below.map bare = us := by
  obtain ⟨-, -, -, rate, -, -, -, hamounts⟩ := finding_amounts found
  have hleaves := map_bare_of_leaves (UnwrapRate.tokens_eq_nil_of_underlyings hamounts)
  exact (h.extends ho _ rfl).map_bare.trans hleaves

/-- What becomes of an amount `u` that stands as `v` after `n` unwrappings, in a run from `s` to `s'`: it stays
what it is. If there was something below it, this is still there. Otherwise it was looked into, with the
levels that the unwrappings above it have left. -/
structure Becomes (o : Oracle τ) (fiat : Bool) (depth n : Nat) (u v : Underlying) (s s' : τ) : Prop where
  bare : v.bare = u.bare
  kept : u.tokens ≠ [] → v.tokens.map Underlying.bare = u.tokens.map Underlying.bare
  found : u.tokens = [] → n ≤ depth ∧ Found o fiat (depth - n) u v s s'

namespace Becomes

theorem mono {t t' : τ} (h : Becomes o fiat depth n u v t t') (hbefore : o.Leads s t)
    (hafter : o.Leads t' s') : Becomes o fiat depth n u v s s' :=
  { h with found := fun hchildless => (h.found hchildless).imp_right (·.mono hbefore hafter) }

/-- One more unwrapping above an amount takes one more level. -/
theorem succ (h : Becomes o fiat depth n u v s s') : Becomes o fiat (depth + 1) (n + 1) u v s s' :=
  { h with
    found := fun hchildless => by
      rw [Nat.add_sub_add_right]
      exact (h.found hchildless).imp_left Nat.succ_le_succ }

variable {token : Token} {balance : Word} {kind : TokenKind} {below below' : List Underlying}

theorem of_found {found : Finding} {t : τ} (h : finding o fiat depth token balance s = (.ok found, t))
    (hbelow : found.Below below) (hafter : o.Leads t s') :
    Becomes o fiat depth 0 ⟨token, balance, kind, []⟩ ⟨token, balance, kind, below⟩ s s' where
  bare := rfl
  kept hne := absurd rfl hne
  found _ := ⟨Nat.zero_le _, _, _, _, h, hbelow, o.leads_refl _, hafter⟩

theorem of_nested (hne : below ≠ [])
    (hkept : below'.map Underlying.bare = below.map Underlying.bare) :
    Becomes o fiat depth 0 ⟨token, balance, kind, below⟩ ⟨token, balance, kind, below'⟩ s s' where
  bare := rfl
  kept _ := hkept
  found hnil := absurd hnil hne

end Becomes

/-- Every amount of a resolved forest came to be in this way. -/
theorem Resolves.becomes (ho : o.PricesAreLeaves) (h : Resolves o fiat depth us s r s') :
    ∀ vs, r = .ok vs → ∀ n u v, Stands us vs n u v → Becomes o fiat depth n u v s s' := by
  induction h with
  | nil =>
    rintro vs ⟨⟩ n u v ⟨⟩
  | price rest ih =>
    intro vs hvs n u v hstands
    obtain ⟨others, hothers, rfl⟩ := map_eq_ok_iff.mp hvs
    cases hstands with
    | later hstands => exact ih others hothers n u v hstands
    | here hkind | nested hkind | unwrapped hkind => exact absurd rfl hkind
  | nested hkind hbelow first rest ihfirst ih =>
    intro vs hvs n u v hstands
    obtain ⟨others, hothers, rfl⟩ := map_eq_ok_iff.mp hvs
    cases hstands with
    | here _ => exact .of_nested hbelow (first.extends ho _ rfl).map_bare
    | nested _ _ hstands => exact (ihfirst _ rfl n u v hstands).mono (o.leads_refl _) rest.leads
    | unwrapped _ h => exact absurd h hbelow
    | later hstands => exact (ih others hothers n u v hstands).mono first.leads (o.leads_refl _)
  | unwrapped hkind found first rest ihfirst ih =>
    intro vs hvs n u v hstands
    obtain ⟨others, hothers, rfl⟩ := map_eq_ok_iff.mp hvs
    have hbelow := first.map_bare_of_found ho found
    have hfound := finding_leads found
    cases hstands with
    | here _ => exact .of_found found hbelow (first.leads.trans rest.leads)
    | nested _ h => exact absurd rfl h
    | unwrapped _ _ hstands =>
      dsimp only at hstands
      rw [hbelow] at hstands
      exact (ihfirst _ rfl _ u v hstands).succ.mono hfound rest.leads
    | later hstands =>
      exact (ih others hothers n u v hstands).mono (hfound.trans first.leads) (o.leads_refl _)
  | plain hkind found rest ih =>
    intro vs hvs n u v hstands
    obtain ⟨others, hothers, rfl⟩ := map_eq_ok_iff.mp hvs
    cases hstands with
    | here _ => exact .of_found found rfl rest.leads
    | nested _ h => exact absurd rfl h
    | unwrapped _ _ hstands => exact absurd hstands (not_stands_price ho found)
    | later hstands =>
      exact (ih others hothers n u v hstands).mono (finding_leads found) (o.leads_refl _)
  | nestedFails | unwrappedFails | fails =>
    rintro vs ⟨⟩

end Resolution

/-! ### Rates -/

/-- Whether a balance of a token is worth some amounts at a rate: one of each token of the rate, in order
and of its kind, with the balance times the rate of a whole token, rounded down. A token with so many
decimals that their power of ten is no word says nothing about the balances. -/
def UnwrapRate.Yields (rate : UnwrapRate) (balance : Word) (us : List Underlying) : Prop :=
  List.Forall₂ (fun r u => u.token = r.token ∧ u.kind = r.kind ∧
    (rate.token.decimals.toNat ≤ Word.maxDecimals →
      u.balance.toNat = balance.toNat * r.rate.toNat / tenTo rate.token.decimals.toNat))
    rate.tokens us

theorem UnwrapRate.yields_of_underlyings {rate : UnwrapRate} {balance : Word} {us : List Underlying}
    (h : rate.underlyings balance = .ok (us.map bare)) : rate.Yields balance us := by
  refine (List.forall₂_map_right_iff.mp (mapM_eq_ok_iff.mp h)).imp fun r u hone => ?_
  obtain ⟨amount, hamount, hu⟩ := map_eq_ok_iff.mp hone
  obtain ⟨htoken, hbalance, hkind, -⟩ := (Underlying.mk.injEq ..).mp hu
  obtain ⟨-, -, hfloor⟩ := FixedPoint.mulDivDown_eq_ok_iff.mp hamount
  refine ⟨htoken.symm, hkind.symm, fun hdecimals => ?_⟩
  rw [← hbalance, hfloor, Word.toNat_pow10 hdecimals]

namespace Registry

variable {σ : Type} {chain : Chain} {block : Option Block} {address : Address} {s s' : Registry σ × σ}

/-- An answer about a token comes from the index that is remembered then. -/
theorem tokenAdapter_eq_ok {found : Option (Adapter σ)}
    (h : tokenAdapter chain address s = (.ok found, s')) :
    ∃ index, s'.1.indexes chain = some index ∧ found = index.owner? address := by
  cases hindex : s.1.indexes chain with
  | some index =>
    rw [tokenAdapter_of_remembered hindex] at h
    cases h
    exact ⟨index, hindex, rfl⟩
  | none =>
    rcases hbuilt : s.1.buildIndex chain s.2 with ⟨fault | index, world⟩
    · rw [tokenAdapter_of_not_built hindex hbuilt] at h
      cases h
    · rw [tokenAdapter_of_built hindex hbuilt] at h
      cases h
      exact ⟨index, if_pos rfl, rfl⟩

theorem oracle_owner_eq_ok {owner : Option (Run (Registry σ × σ) UnwrapRate)}
    (h : (oracle chain block).owner address s = (.ok owner, s')) :
    ∃ index, s'.1.indexes chain = some index ∧ owner = (index.owner? address).map fun a =>
      Run.onSecond (a.unwrap { token := address, block := block }) := by
  obtain ⟨found, middle, hfound, h⟩ := Run.bind_eq_ok_iff.mp h
  cases h
  obtain ⟨index, hindex, rfl⟩ := tokenAdapter_eq_ok hfound
  exact ⟨index, hindex, rfl⟩

/-- An index that is remembered stays. -/
theorem oracle_keeps_index (chain : Chain) (block : Option Block) (index : TokenIndex σ) :
    (oracle chain block).Keeps fun t => t.1.indexes chain = some index where
  owner address t h := by
    change (tokenAdapter chain address >>= _) t |>.2.1.indexes chain = _
    rw [Run.bind_ok (tokenAdapter_of_remembered h address)]
    exact h
  unwrap h := by
    obtain ⟨found, middle, -, h⟩ := Run.bind_eq_ok_iff.mp h
    cases found with
    | none => cases h
    | some a =>
      cases h
      exact Run.keeps_onSecond fun _ _ h => h
  price token := by
    refine Run.Keeps.bind (fun _ h => h) fun _ r _ _ => ?_
    cases r.find? ⟨chain, .prices, Prices.product⟩ with
    | none => exact Run.keeps_pure _
    | some a =>
      exact Run.Keeps.bind (fun t h => h) fun _ _ _ _ => Run.keeps_ofExcept _

/-- Whether no adapter is found for a token in the index of a chain. -/
def Unowned (r : Registry σ) (chain : Chain) (address : Address) : Prop :=
  ∃ index, r.indexes chain = some index ∧ index.owner? address = none

/-- Whether a token is unwrapped at a rate between two states: an adapter is found for it in the index of
the chain, and this is what the adapter answers when it is asked at the block. -/
def Unwraps (chain : Chain) (block : Option Block) (s s' : Registry σ × σ) (address : Address)
    (rate : UnwrapRate) : Prop :=
  ∃ index a before world, s'.1.indexes chain = some index ∧ index.owner? address = some a ∧
    (oracle chain block).Leads s before ∧
    a.unwrap { token := address, block := block } before.2 = (.ok rate, world) ∧
    (oracle chain block).Leads (before.1, world) s'

/-- What was found about an amount is what it unwraps into, or else at most its price, where no adapter is
found for it or no level is left. -/
theorem settled_of_found {fiat : Bool} {levels : Nat} {u v : Underlying}
    (hfound : Resolution.Found (oracle chain block) fiat levels u v s s') (hbare : v.bare = u.bare) :
    ((s'.1.Unowned chain v.token.address ∨ levels = 0) ∧
      (v.tokens = [] ∨ ∃ currency amount, v.tokens = [.leaf currency amount .fiat])) ∨
    (0 < levels ∧ ∃ rate, Unwraps chain block s s' v.token.address rate ∧
      rate.underlyings v.balance = .ok (v.tokens.map bare)) := by
  obtain ⟨before, found, after, hfound, hbelow, hs, hs'⟩ := hfound
  obtain ⟨htoken, hbalance, -⟩ := (Underlying.mk.injEq ..).mp hbare
  rw [← htoken, ← hbalance] at hfound
  rcases Resolution.finding_eq_ok hfound with
    ⟨lower, unwrap, t, rate, amounts, hlevels, howner, hrate, hamounts, rfl⟩ |
    ⟨owner, t, leaf, hlimit, howner, hleaf, rfl⟩
  · obtain ⟨index, hindex, hadapter⟩ := oracle_owner_eq_ok howner
    obtain ⟨a, ha, rfl⟩ := Option.map_eq_some_iff.mp hadapter.symm
    obtain ⟨hanswer, rfl⟩ := Prod.mk.inj hrate
    have hkept := hs' _ (oracle_keeps_index chain block index) hindex
    refine .inr ⟨by omega, rate, ?_, hbelow ▸ hamounts⟩
    exact ⟨index, a, t, _, hkept, ha, hs.trans (Oracle.leads_owner howner),
      Prod.ext hanswer rfl, hs'⟩
  · obtain ⟨index, hindex, rfl⟩ := oracle_owner_eq_ok howner
    have hkeeps := oracle_keeps_index chain block index
    have hkept := hs' _ hkeeps ((Resolution.priceLeaf_keeps hkeeps fiat _).of_apply hleaf hindex)
    refine .inl ⟨hlimit.imp_left fun hnone => ⟨index, hkept, Option.map_eq_none_iff.mp hnone⟩, ?_⟩
    obtain rfl : v.tokens = leaf := hbelow
    exact Resolution.prices_of_finding (oracle_pricesAreLeaves chain block) hfound

end Registry

namespace Underlying

theorem kinds_eq {us vs : List Underlying} (h : vs.map bare = us.map bare) :
    vs.map kind = us.map kind := by
  have hkind : kind ∘ bare = kind := rfl
  have hkinds := congrArg (List.map kind) h
  rwa [List.map_map, List.map_map, hkind] at hkinds

end Underlying

theorem UnwrapRate.Yields.kinds_eq {rate : UnwrapRate} {balance : Word} {us : List Underlying}
    (h : rate.Yields balance us) : us.map Underlying.kind = rate.tokens.map UnderlyingRate.kind := by
  rw [← List.forall₂_eq_eq_eq, List.forall₂_map_left_iff, List.forall₂_map_right_iff]
  exact h.flip.imp fun u r hone => hone.2.1

/-- What resolution does with an amount that it comes to after `n` unwrappings and finds nothing below: it
is left as it is or gets a price if no adapter is found for its token or the limit is reached, and
otherwise the amounts below it are what its balance is worth at the rate of the adapter. -/
def Registry.Settles {σ : Type} (chain : Chain) (block : Option Block) (depth n : Nat)
    (s s' : Registry σ × σ) (v : Underlying) : Prop :=
  ((s'.1.Unowned chain v.token.address ∨ n = depth) ∧
    (v.tokens = [] ∨ ∃ currency amount, v.tokens = [.leaf currency amount .fiat])) ∨
  (n < depth ∧ ∃ rate, Unwraps chain block s s' v.token.address rate ∧
    rate.underlyings v.balance = .ok (v.tokens.map bare) ∧ rate.Yields v.balance v.tokens)

section
variable {σ : Type} {chain : Chain} {block : Option Block} {options : Resolution.Options}
  {us vs : List Underlying} {s s' : Registry σ × σ}

/-- What stands where there was nothing below an amount has been settled. -/
theorem Resolution.settles_of_stands {n : Nat} {u v : Underlying}
    (h : resolve (Registry.oracle chain block) options us s = (.ok vs, s'))
    (hstands : Stands us vs n u v) (hchildless : u.tokens = []) :
    Registry.Settles chain block options.depth n s s' v := by
  have hprices := Registry.oracle_pricesAreLeaves (σ := σ) chain block
  have hbecomes := (resolves_iff.mpr h).becomes hprices vs rfl n u v hstands
  obtain ⟨hle, hfound⟩ := hbecomes.found hchildless
  rcases Registry.settled_of_found hfound hbecomes.bare with ⟨hlimit, hprice⟩ | ⟨hlevel, rate, hrate, hamounts⟩
  · exact .inl ⟨hlimit.imp_right (by omega), hprice⟩
  · exact .inr ⟨by omega, rate, hrate, hamounts, UnwrapRate.yields_of_underlyings hamounts⟩

/-- Resolution unwraps all that it can, and balances follow the rates. An amount that ends up with nothing
but prices below it has no adapter, or stands at the limit, or its adapter's rate has only prices, or it
had only prices below it before. This is about amounts that are no prices themselves and below none. -/
theorem Resolution.resolve_unwraps_all
    (h : resolve (Registry.oracle chain block) options us s = (.ok vs, s')) :
    (∀ n u v, Stands us vs n u v → u.tokens = [] →
      Registry.Settles chain block options.depth n s s' v) ∧
    ∀ v, Holds vs v → (∀ c ∈ v.tokens, c.kind = .fiat) → ∃ n u, Stands us vs n u v ∧
      (s'.1.Unowned chain v.token.address ∨
        (u.tokens = [] ∧ n = options.depth) ∨
        (∃ rate, Registry.Unwraps chain block s s' v.token.address rate ∧
          ∀ r ∈ rate.tokens, r.kind = .fiat) ∨
        (u.tokens ≠ [] ∧ ∀ c ∈ u.tokens, c.kind = .fiat)) := by
  refine ⟨fun _ _ _ hstands hchildless => settles_of_stands h hstands hchildless, fun v hv hfiat => ?_⟩
  have hderived := resolves_iff.mpr h
  have hprices := Registry.oracle_pricesAreLeaves (σ := σ) chain block
  obtain ⟨n, u, hstands⟩ := (hderived.extends hprices vs rfl).stands hv
  refine ⟨n, u, hstands, ?_⟩
  by_cases hchildless : u.tokens = []
  · rcases settles_of_stands h hstands hchildless with ⟨hlimit, -⟩ | ⟨-, rate, hrate, -, hyields⟩
    · exact hlimit.imp_right fun hn => .inl ⟨hchildless, hn⟩
    · refine .inr (.inr (.inl ⟨rate, hrate, fun r hr => ?_⟩))
      have hmem := hyields.kinds_eq ▸ List.mem_map_of_mem (f := UnderlyingRate.kind) hr
      obtain ⟨c, hc, hkind⟩ := List.mem_map.mp hmem
      exact hkind ▸ hfiat c hc
  · have hkept := (hderived.becomes hprices vs rfl n u v hstands).kept
    refine .inr (.inr (.inr ⟨hchildless, fun c hc => ?_⟩))
    have hmem := kinds_eq (hkept hchildless) ▸ List.mem_map_of_mem (f := Underlying.kind) hc
    obtain ⟨d, hd, hkind⟩ := List.mem_map.mp hmem
    exact hkind ▸ hfiat d hd

end

/-- In a cycle of two tokens with two levels, the first two amounts have an adapter's rate below them and
the third one stands at the limit. -/
theorem Resolution.resolve_unwraps_all_cycle :
    let a : Token := ⟨⟨0xA⟩, "Vault A", "vA", 18⟩
    let b : Token := ⟨⟨0xB⟩, "Vault B", "vB", 6⟩
    let s := (Registry.cycle a b, 0)
    let us : List Underlying := [.leaf a 1000000000000000000 .protocol]
    let second : Underlying := ⟨b, 1000000, .underlying, [.leaf a 1000000000000000000 .underlying]⟩
    let vs : List Underlying := [⟨a, 1000000000000000000, .protocol, [second]⟩]
    ∃ s', resolve (Registry.oracle .ethereum none) { depth := 2 } us s = (.ok vs, s') ∧
      Stands us vs 1 (.leaf b 1000000 .underlying) second ∧
      Registry.Settles .ethereum none 2 1 s s' second := by
  intro a b s us second vs
  have hrun : (resolve (Registry.oracle .ethereum none) { depth := 2 } us s).1 = .ok vs := by
    simp only [a, b, us, vs, s, second]
    rfl
  have hstands : Stands us vs 1 (.leaf b 1000000 .underlying) second :=
    .unwrapped (by decide) rfl (.here (by decide))
  exact ⟨_, Prod.ext hrun rfl, hstands, (resolve_unwraps_all (Prod.ext hrun rfl)).1 _ _ _ hstands rfl⟩

/-- A vault below a price is not unwrapped although one beside it is, and an amount of a token with 78
decimals is worth one unit where the floor would be none. -/
theorem Resolution.vault_below_price_stays :
    let inner : Token := ⟨⟨0xA⟩, "Inner", "IN", 18⟩
    let vault : Token := ⟨⟨0xB⟩, "Vault", "vIN", 18⟩
    let fine : Token := ⟨⟨0xC⟩, "Fine", "fIN", 78⟩
    let unit : Word := 1000000000000000000
    let large : Word := 1000000000000000000000000000000000000000
    let rate : Word := 100000000000000000000000000000000000000
    let script : Script :=
      { key := ⟨.ethereum, .aaveV3, "wrapper"⟩
        protocolTokens := [{ token := vault, underlyings := [inner] },
          { token := fine, underlyings := [inner] }]
        rates := [{ token := vault, tokens := [{ token := inner, rate := unit }] },
          { token := fine, tokens := [{ token := inner, rate := rate }] }] }
    let registry : Registry Nat :=
      ⟨fun _ => none, [script.adapter ⟨id, fun n _ => n⟩], List.pairwise_singleton _ _, fun _ => none⟩
    let us : List Underlying := [.leaf vault unit .underlying,
      ⟨Prices.usd, unit, .fiat, [.leaf vault unit .underlying]⟩, .leaf fine large .underlying]
    let run := resolve (Registry.oracle .ethereum none) {} us (registry, 0)
    run.1 = .ok [⟨vault, unit, .underlying, [.leaf inner unit .underlying]⟩,
        ⟨Prices.usd, unit, .fiat, [.leaf vault unit .underlying]⟩,
        ⟨fine, large, .underlying, [.leaf inner 1 .underlying]⟩] ∧
      ((run.2.1.indexes .ethereum).bind (·.owner? vault.address)).map (·.key) = some script.key ∧
      large.toNat * rate.toNat / tenTo fine.decimals.toNat = 0 := by
  intro inner vault fine unit large rate script registry us run
  refine ⟨?_, ?_, by decide +kernel⟩
  · simp only [run, us, registry, script, rate, large, unit, fine, vault, inner]
    rfl
  · simp only [run, us, registry, script, rate, large, unit, fine, vault, inner]
    rfl

end Chainfolio
