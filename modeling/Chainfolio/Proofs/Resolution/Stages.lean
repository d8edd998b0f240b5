import Chainfolio.Proofs.Resolution.Agreement
import Chainfolio.Proofs.Resolution.Expansion
import Chainfolio.Proofs.Resolution.Pricing

/-! Resolution done again and in stages. Where adapters keep their answers and no amount is left at the
limit, what was resolved stays as it is, and prices may be asked for later. A second run has more levels
left than the first one had at the same place, so that both are compared for all numbers of levels that are
at least those of the first one. -/
namespace Chainfolio

open Underlying

variable {τ : Type} {Inv : τ → Prop} {o : Oracle τ}

/-- Whether an oracle says in all states of some kind that no product owns a token. -/
def Oracle.Disowns (o : Oracle τ) (Inv : τ → Prop) (address : Address) : Prop :=
  (o.owner address).Always Inv (.ok none)

/-- Whether the limit of a resolution of `us` to `vs` left nothing to unwrap: some condition holds of each
token at the limit. -/
def Underlying.WithinLimit (settled : Address → Prop) (depth : Nat) (us vs : List Underlying) : Prop :=
  ∀ u v, Stands us vs depth u v → u.tokens = [] → settled v.token.address

namespace Underlying.WithinLimit

variable {settled : Address → Prop} {depth : Nat} {u v : Underlying} {us vs : List Underlying}

theorem tail (h : WithinLimit settled depth (u :: us) (v :: vs)) : WithinLimit settled depth us vs :=
  fun w x hstands => h w x (.later hstands)

theorem nested (h : WithinLimit settled depth (u :: us) (v :: vs)) (hkind : u.kind ≠ .fiat)
    (hbelow : u.tokens ≠ []) : WithinLimit settled depth u.tokens v.tokens :=
  fun w x hstands => h w x (.nested hkind hbelow hstands)

theorem unwrapped (h : WithinLimit settled (depth + 1) (u :: us) (v :: vs)) (hkind : u.kind ≠ .fiat)
    (hbelow : u.tokens = []) : WithinLimit settled depth (v.tokens.map bare) v.tokens :=
  fun w x hstands => h w x (.unwrapped hkind hbelow hstands)

theorem head (h : WithinLimit settled depth (u :: us) (v :: vs)) (hkind : u.kind ≠ .fiat)
    (hbelow : u.tokens = []) (hdepth : depth = 0) : settled v.token.address :=
  h u v (hdepth ▸ .here hkind) hbelow

end Underlying.WithinLimit

namespace Resolution

variable {fiat : Bool} {depth levels : Nat} {us vs : List Underlying} {s s' : τ}
  {token : Token} {balance : Word}

/-! ### What is found again -/

/-- An amount that was unwrapped is unwrapped into the same amounts whenever a level is left. -/
theorem finding_amounts_always (ho : o.Agrees (Run.Both Inv)) (hs : Inv s) {amounts : List Underlying}
    (h : finding o fiat depth token balance s = (.ok (.amounts amounts), s')) (fiat' : Bool)
    (levels : Nat) :
    (finding o fiat' (levels + 1) token balance).Always Inv (.ok (.amounts amounts)) := by
  obtain ⟨lower, unwrap, s₁, rate, rfl, howner, hrate, hamounts⟩ := finding_amounts h
  have hfound : finding o fiat' (levels + 1) token balance s = (.ok (.amounts amounts), s') := by
    rw [finding, Run.bind_ok howner]
    change (unwrap >>= _) s₁ = _
    rw [Run.bind_ok hrate, hamounts]
    rfl
  exact (finding_agrees ho fiat' (levels + 1) token balance).always hfound hs

/-- An amount that was not unwrapped although the limit left nothing to unwrap belongs to no product, and
its price is the same whenever it is asked. -/
theorem finding_price_always (ho : o.Agrees (Run.Both Inv)) (hs : Inv s) {leaf : List Underlying}
    (h : finding o fiat depth token balance s = (.ok (.price leaf), s'))
    (hlimit : depth = 0 → o.Disowns Inv token.address) :
    o.Disowns Inv token.address ∧ (priceLeaf o fiat token).Always Inv (.ok leaf) := by
  rcases finding_eq_ok h with ⟨_, _, _, _, _, -, -, -, -, hfound⟩ |
    ⟨owner, s₁, leaf, hnone, howner, hleaf, hfound⟩
  · cases hfound
  · cases hfound
    have hs₁ := (ho.owner token.address).inv howner hs
    refine ⟨?_, (priceLeaf_agrees ho fiat token).always hleaf hs₁⟩
    rcases hnone with rfl | hdepth
    · exact (ho.owner token.address).always howner hs
    · exact hlimit hdepth

theorem settle_price (o : Oracle τ) (fiat : Bool) (levels : Nat) (token : Token) :
    (do return .price (← priceLeaf o fiat token) : Run τ Finding) >>= settle o fiat levels =
      priceLeaf o fiat token := by
  simp only [bind_assoc, pure_bind]
  cases levels <;> exact bind_pure _

/-- Nothing but the price is asked about a token that belongs to no product, at any level. -/
theorem below_of_disowned (ho : o.Disowns Inv token.address) {r : Except Fault (List Underlying)}
    (hprice : (priceLeaf o fiat token).Always Inv r) (levels : Nat) (balance : Word) :
    (finding o fiat levels token balance >>= settle o fiat levels).Always Inv r := by
  rw [finding, bind_assoc]
  refine ho.bind_ok ?_
  cases levels with
  | zero => exact (settle_price o fiat 0 token).symm ▸ hprice
  | succ levels => exact (settle_price o fiat (levels + 1) token).symm ▸ hprice

/-- An amount that unwraps has the amounts that it unwraps into resolved below it. -/
theorem below_of_unwrapped {amounts : List Underlying} {r : Except Fault (List Underlying)}
    (hfound : (finding o fiat (levels + 1) token balance).Always Inv (.ok (.amounts amounts)))
    (hbelow : (resolveAll o fiat levels amounts).Always Inv r) :
    (finding o fiat (levels + 1) token balance >>= settle o fiat (levels + 1)).Always Inv r :=
  hfound.bind_ok hbelow

/-! ### Runs with one answer -/

theorem Resolves.inv (ho : o.Agrees (Run.Both Inv)) (hs : Inv s) {r : Except Fault (List Underlying)}
    (h : Resolves o fiat depth us s r s') : Inv s' := by
  obtain ⟨t', -, hs', -⟩ := h.agrees ho ⟨hs, hs⟩
  exact hs'

section
variable {kind : TokenKind} {below : List Underlying} {r r' : Except Fault (List Underlying)}

/-- What a forest is resolved to when this is known of what is below its first amount and of the others. -/
def withFirst (token : Token) (balance : Word) (kind : TokenKind)
    (below others : Except Fault (List Underlying)) : Except Fault (List Underlying) := do
  let below ← below
  return ⟨token, balance, kind, below⟩ :: (← others)

theorem always_nil : (resolveAll o fiat depth []).Always Inv (.ok []) := by
  rw [resolveAll_nil]
  exact Run.always_pure _

/-- What is resolved to nothing is nothing. -/
theorem eq_nil_of_always (hprices : o.PricesAreLeaves)
    (h : (resolveAll o fiat depth us).Always Inv (.ok vs)) (hs : Inv s) : vs = [] → us = [] := by
  obtain ⟨s', hrun, -⟩ := h s hs
  exact ((resolves_iff.mpr hrun).extends hprices vs rfl).eq_nil_iff.mp

theorem always_price (h : (resolveAll o fiat depth us).Always Inv r) (token : Token) (balance : Word)
    (below : List Underlying) :
    (resolveAll o fiat depth (⟨token, balance, .fiat, below⟩ :: us)).Always Inv
      (withFirst token balance .fiat (.ok below) r) := by
  rw [resolveAll_price]
  exact h.bind fun _ _ => Run.always_pure _

theorem always_nested (hkind : kind ≠ .fiat) (hbelow : below ≠ [])
    (hfirst : (resolveAll o fiat depth below).Always Inv r)
    (hrest : (resolveAll o fiat depth us).Always Inv r') (token : Token) (balance : Word) :
    (resolveAll o fiat depth (⟨token, balance, kind, below⟩ :: us)).Always Inv
      (withFirst token balance kind r r') := by
  rw [resolveAll_nested hkind hbelow]
  exact hfirst.bind fun _ _ => hrest.bind fun _ _ => Run.always_pure _

theorem always_childless (hkind : kind ≠ .fiat)
    (hfirst : (finding o fiat depth token balance >>= settle o fiat depth).Always Inv r)
    (hrest : (resolveAll o fiat depth us).Always Inv r') :
    (resolveAll o fiat depth (⟨token, balance, kind, []⟩ :: us)).Always Inv
      (withFirst token balance kind r r') := by
  rw [resolveAll_childless hkind]
  exact hfirst.bind fun _ _ => hrest.bind fun _ _ => Run.always_pure _

end

/-- Amounts with the prices that are asked for them, resolved before those after them. -/
theorem always_disowned {kind : TokenKind} {leaf r : Except Fault (List Underlying)} (hkind : kind ≠ .fiat)
    (hdisowned : o.Disowns Inv token.address) (hprice : (priceLeaf o fiat token).Always Inv leaf)
    (hrest : (resolveAll o fiat levels us).Always Inv r) :
    (resolveAll o fiat levels (⟨token, balance, kind, []⟩ :: us)).Always Inv
      (withFirst token balance kind leaf r) :=
  always_childless hkind (below_of_disowned hdisowned hprice levels balance) hrest

/-- What an amount has unwrapped into, resolved to `below`, is resolved again where nothing else is below
it: if it has unwrapped into nothing, it unwraps into nothing again. -/
theorem always_unwrapped {kind : TokenKind} {below amounts : List Underlying}
    {r r' : Except Fault (List Underlying)} (hkind : kind ≠ .fiat)
    (hfound : (finding o fiat (levels + 1) token balance).Always Inv (.ok (.amounts amounts)))
    (hbelow : below = [] → amounts = [])
    (hfirst : (resolveAll o fiat (levels + 1) below).Always Inv r)
    (hrest : (resolveAll o fiat (levels + 1) us).Always Inv r') :
    (resolveAll o fiat (levels + 1) (⟨token, balance, kind, below⟩ :: us)).Always Inv
      (withFirst token balance kind r r') := by
  by_cases hnil : below = []
  · subst hnil
    obtain rfl := hbelow rfl
    rw [resolveAll_nil, ← resolveAll_nil o fiat levels] at hfirst
    exact always_childless hkind (below_of_unwrapped hfound hfirst) hrest
  · exact always_nested hkind hnil hfirst hrest token balance

/-! ### Again -/

/-- Resolving a result again, with at least as many levels, gives the result. -/
theorem Resolves.again (hprices : o.PricesAreLeaves) (ho : o.Agrees (Run.Both Inv))
    {r : Except Fault (List Underlying)} (h : Resolves o fiat depth us s r s') (hs : Inv s) :
    ∀ vs, r = .ok vs → WithinLimit (o.Disowns Inv) depth us vs → ∀ levels, depth ≤ levels →
      (resolveAll o fiat levels vs).Always Inv (.ok vs) := by
  induction h with
  | nil =>
    rintro vs ⟨⟩ - levels -
    exact always_nil
  | price _ ih =>
    intro vs hvs hlimit levels hlevels
    obtain ⟨others, hothers, rfl⟩ := map_eq_ok_iff.mp hvs
    exact always_price (ih hs others hothers hlimit.tail levels hlevels) _ _ _
  | nested hkind hbelow first rest ihfirst ih =>
    intro vs hvs hlimit levels hlevels
    obtain ⟨others, hothers, rfl⟩ := map_eq_ok_iff.mp hvs
    have hne := mt (first.extends hprices _ rfl).eq_nil_iff.mp hbelow
    have hfirst := ihfirst hs _ rfl (hlimit.nested hkind hbelow) levels hlevels
    have hrest := ih (first.inv ho hs) others hothers hlimit.tail levels hlevels
    exact always_nested hkind hne hfirst hrest _ _
  | unwrapped hkind found first rest ihfirst ih =>
    intro vs hvs hlimit levels hlevels
    obtain ⟨others, hothers, rfl⟩ := map_eq_ok_iff.mp hvs
    obtain ⟨levels, rfl⟩ := Nat.exists_eq_add_one_of_ne_zero (Nat.ne_zero_of_lt hlevels)
    have hs₁ := (finding_agrees ho _ _ _ _).inv found hs
    have hbelow := hlimit.unwrapped hkind rfl
    rw [first.map_bare_of_found hprices found] at hbelow
    have hfirst := ihfirst hs₁ _ rfl hbelow (levels + 1) (by omega)
    have hrest := ih (first.inv ho hs₁) others hothers hlimit.tail _ hlevels
    exact always_unwrapped hkind (finding_amounts_always ho hs found _ levels)
      (first.extends hprices _ rfl).eq_nil_iff.mp hfirst hrest
  | plain hkind found rest ih =>
    intro vs hvs hlimit levels hlevels
    obtain ⟨others, hothers, rfl⟩ := map_eq_ok_iff.mp hvs
    have hs₁ := (finding_agrees ho _ _ _ _).inv found hs
    have hrest := ih hs₁ others hothers hlimit.tail levels hlevels
    obtain ⟨hdisowned, hleaf⟩ := finding_price_always ho hs found (hlimit.head hkind rfl)
    rcases prices_of_finding hprices found with rfl | ⟨currency, amount, rfl⟩
    · exact always_disowned hkind hdisowned hleaf hrest
    · exact always_nested hkind (List.cons_ne_nil _ _) (always_price always_nil currency amount [])
        hrest _ _
  | nestedFails | unwrappedFails | fails =>
    rintro vs ⟨⟩

/-! ### In stages -/

/-- Whether a run without prices gives a forest for which a run with prices, with at least as many levels,
ends as one for the original forest does. -/
def Staged (o : Oracle τ) (Inv : τ → Prop) (depth : Nat) (us : List Underlying) : Prop :=
  ∃ halfway r, (resolveAll o false depth us).Always Inv (.ok halfway) ∧
    (resolveAll o true depth us).Always Inv r ∧
    ∀ levels, depth ≤ levels → (resolveAll o true levels halfway).Always Inv r

/-- A run that succeeds, with prices or without, may be done in two stages. -/
theorem Resolves.staged (hprices : o.PricesAreLeaves) (ho : o.Agrees (Run.Both Inv))
    {r : Except Fault (List Underlying)} (h : Resolves o fiat depth us s r s') (hs : Inv s) :
    ∀ vs, r = .ok vs → WithinLimit (o.Disowns Inv) depth us vs → Staged o Inv depth us := by
  induction h with
  | nil =>
    rintro vs ⟨⟩ -
    exact ⟨_, _, always_nil, always_nil, fun _ _ => always_nil⟩
  | price _ ih =>
    intro vs hvs hlimit
    obtain ⟨others, hothers, rfl⟩ := map_eq_ok_iff.mp hvs
    obtain ⟨halfway, r, hunpriced, hpriced, hlater⟩ := ih hs others hothers hlimit.tail
    exact ⟨_, _, always_price hunpriced _ _ _, always_price hpriced _ _ _,
      fun levels hlevels => always_price (hlater levels hlevels) _ _ _⟩
  | nested hkind hbelow first rest ihfirst ih =>
    intro vs hvs hlimit
    obtain ⟨others, hothers, rfl⟩ := map_eq_ok_iff.mp hvs
    obtain ⟨below, r, hunpriced, hpriced, hlater⟩ := ihfirst hs _ rfl (hlimit.nested hkind hbelow)
    obtain ⟨halfway, r', hunpriced', hpriced', hlater'⟩ :=
      ih (first.inv ho hs) others hothers hlimit.tail
    have hne : below ≠ [] := mt (eq_nil_of_always hprices hunpriced hs) hbelow
    exact ⟨_, _, always_nested hkind hbelow hunpriced hunpriced' _ _,
      always_nested hkind hbelow hpriced hpriced' _ _, fun levels hlevels =>
        always_nested hkind hne (hlater levels hlevels) (hlater' levels hlevels) _ _⟩
  | unwrapped hkind found first rest ihfirst ih =>
    intro vs hvs hlimit
    obtain ⟨others, hothers, rfl⟩ := map_eq_ok_iff.mp hvs
    have hs₁ := (finding_agrees ho _ _ _ _).inv found hs
    have hamounts := finding_amounts_always ho hs found
    have hbelow := hlimit.unwrapped hkind rfl
    rw [first.map_bare_of_found hprices found] at hbelow
    obtain ⟨below, r, hunpriced, hpriced, hlater⟩ := ihfirst hs₁ _ rfl hbelow
    obtain ⟨halfway, r', hunpriced', hpriced', hlater'⟩ :=
      ih (first.inv ho hs₁) others hothers hlimit.tail
    refine ⟨_, _, always_childless hkind (below_of_unwrapped (hamounts _ _) hunpriced) hunpriced',
      always_childless hkind (below_of_unwrapped (hamounts _ _) hpriced) hpriced',
      fun levels hlevels => ?_⟩
    obtain ⟨levels, rfl⟩ := Nat.exists_eq_add_one_of_ne_zero (Nat.ne_zero_of_lt hlevels)
    exact always_unwrapped hkind (hamounts _ _) (eq_nil_of_always hprices hunpriced hs₁)
      (hlater _ (by omega)) (hlater' _ hlevels)
  | plain hkind found rest ih =>
    intro vs hvs hlimit
    obtain ⟨others, hothers, rfl⟩ := map_eq_ok_iff.mp hvs
    have hs₁ := (finding_agrees ho _ _ _ _).inv found hs
    obtain ⟨hdisowned, -⟩ := finding_price_always ho hs found (hlimit.head hkind rfl)
    obtain ⟨halfway, r, hunpriced, hpriced, hlater⟩ := ih hs₁ others hothers hlimit.tail
    have hnone (token : Token) : (priceLeaf o false token).Always Inv (.ok []) := Run.always_pure []
    obtain ⟨leaf, hleaf⟩ := (priceLeaf_agrees ho true _).exists_always hs
    exact ⟨_, _, always_disowned hkind hdisowned (hnone _) hunpriced,
      always_disowned hkind hdisowned hleaf hpriced,
      fun levels hlevels => always_disowned hkind hdisowned hleaf (hlater levels hlevels)⟩
  | nestedFails | unwrappedFails | fails =>
    rintro vs ⟨⟩

/-! ### Positions -/

variable {options : Options} {ps qs : List Position}

/-- The amounts of resolved positions stay as they are when they are resolved again, and those of the
original positions may be resolved in stages. -/
theorem positions_settled (hprices : o.PricesAreLeaves) (ho : o.Agrees (Run.Both Inv)) (hs : Inv s)
    (h : positions o options ps s = (.ok qs, s'))
    (hlimit : List.Forall₂ (fun p q => WithinLimit (o.Disowns Inv) options.depth p.tokens q.tokens)
      ps qs) :
    (∀ q ∈ qs, (resolve o options q.tokens).Always Inv (.ok q.tokens)) ∧
      ∀ p ∈ ps, Staged o Inv options.depth p.tokens := by
  induction hlimit generalizing s with
  | nil => simp
  | cons hfirst _ ih =>
    obtain ⟨q, s₁, hq, h⟩ := Run.bind_eq_ok_iff.mp h
    obtain ⟨others, s₂, hothers, h⟩ := Run.bind_eq_ok_iff.mp h
    cases h
    obtain ⟨tokens, s₃, htokens, hq⟩ := Run.bind_eq_ok_iff.mp hq
    cases hq
    have hderived := resolves_iff.mpr htokens
    obtain ⟨hagain, hstaged⟩ := ih (hderived.inv ho hs) hothers
    rw [List.forall_mem_cons, List.forall_mem_cons]
    exact ⟨⟨hderived.again hprices ho hs tokens rfl hfirst _ le_rfl, hagain⟩,
      hderived.staged hprices ho hs tokens rfl hfirst, hstaged⟩

/-- Positions are resolved to themselves when what they consist of is. -/
theorem positions_always (h : ∀ q ∈ qs, (resolve o options q.tokens).Always Inv (.ok q.tokens)) :
    (positions o options qs).Always Inv (.ok qs) :=
  Run.always_forEach (List.forall₂_same.mpr fun q hq => (h q hq).bind_ok (Run.always_pure q))

/-- Positions may be resolved in stages when what they consist of may be. -/
theorem positions_staged (h : ∀ p ∈ ps, Staged o Inv options.depth p.tokens) :
    ∃ halfway r, (positions o { options with fiatPrices := false } ps).Always Inv (.ok halfway) ∧
      (positions o { options with fiatPrices := true } ps).Always Inv r ∧
      (positions o { options with fiatPrices := true } halfway).Always Inv r := by
  induction ps with
  | nil => exact ⟨[], .ok [], Run.always_pure _, Run.always_pure _, Run.always_pure _⟩
  | cons p ps ih =>
    obtain ⟨hfirst, hrest⟩ := List.forall_mem_cons.mp h
    obtain ⟨tokens, r, hunpriced, hpriced, hlater⟩ := hfirst
    obtain ⟨halfway, r', hunpriced', hpriced', hlater'⟩ := ih hrest
    have hboth {us : List Underlying} {others : List Position}
        (h : (resolveAll o true options.depth us).Always Inv r)
        (h' : (positions o { options with fiatPrices := true } others).Always Inv r') :
        (positions o { options with fiatPrices := true } ({ p with tokens := us } :: others)).Always Inv
          (do
            let q ← (do return { p with tokens := ← r })
            return q :: (← r')) :=
      (h.bind fun _ _ => Run.always_pure _).bind fun _ _ => h'.bind fun _ _ => Run.always_pure _
    refine ⟨{ p with tokens := tokens } :: halfway, _, ?_, hboth hpriced hpriced',
      hboth (hlater _ le_rfl) hlater'⟩
    refine Run.Always.bind_ok (a := { p with tokens := tokens }) ?_ ?_
    · exact hunpriced.bind_ok (Run.always_pure _)
    · exact hunpriced'.bind_ok (Run.always_pure _)

end Resolution

/-! ### Registries -/

namespace Registry

variable {σ : Type} {Worlds : σ → Prop} {chain : Chain} {block : Option Block}
  {start t : Registry σ × σ} {r : Registry σ}

/-- Whether the adapters of a chain answer the same way throughout some worlds: their listings and what
they say about a block are the same in all of them, and asking leads to no other world. -/
structure Steady (r : Registry σ) (chain : Chain) (block : Option Block) (Worlds : σ → Prop) : Prop where
  listings : ∀ a ∈ r.adaptersFor chain, a.protocolTokens.Agrees (Run.Both Worlds)
  rates : ∀ a ∈ r.adaptersFor chain, ∀ address,
    (a.unwrap { token := address, block := block }).Agrees (Run.Both Worlds)

/-- What may have become of a registry by questions about a chain: it has the same adapters, and the index
of the chain is the one that would have been told in the beginning. -/
structure Since (chain : Chain) (Worlds : σ → Prop) (start t : Registry σ × σ) : Prop where
  adapters : t.1.adapters = start.1.adapters
  known : ∀ index, t.1.indexes chain = some index → (tokenIndex chain start).1 = .ok index
  unknown : t.1.indexes chain = none → start.1.indexes chain = none
  world : Worlds t.2

theorem since_refl (hworld : Worlds start.2) : Since chain Worlds start start where
  adapters := rfl
  known index hindex := by rw [tokenIndex_of_remembered hindex]
  unknown := id
  world := hworld

theorem Since.adaptersFor (h : Since chain Worlds start t) :
    t.1.adaptersFor chain = start.1.adaptersFor chain := by
  rw [Registry.adaptersFor, Registry.adaptersFor, h.adapters]

/-- The index of the chain is the same all the time. -/
theorem tokenIndex_always (hsteady : start.1.Steady chain block Worlds) (hworld : Worlds start.2) :
    (tokenIndex chain).Always (Since chain Worlds start) (tokenIndex chain start).1 := by
  intro t ht
  cases hindex : t.1.indexes chain with
  | some index =>
    rw [ht.known index hindex]
    exact ⟨t, tokenIndex_of_remembered hindex, ht⟩
  | none =>
    have hunknown := ht.unknown hindex
    rcases hbuilt : start.1.buildIndex chain start.2 with ⟨built, world⟩
    have hsame := buildIndex_congr ht.adaptersFor
    obtain ⟨world', hbuilt', hworld'⟩ :=
      (buildIndex_agrees hsteady.listings).always hbuilt hworld t.2 ht.world
    rw [← hsame] at hbuilt'
    cases built with
    | error fault =>
      rw [tokenIndex_of_not_built hunknown hbuilt, tokenIndex_of_not_built hindex hbuilt']
      refine ⟨_, rfl, ht.adapters, fun index h => ?_, fun _ => hunknown, hworld'⟩
      exact absurd (hindex.symm.trans h) (by simp)
    | ok index =>
      rw [tokenIndex_of_built hunknown hbuilt, tokenIndex_of_built hindex hbuilt']
      refine ⟨_, rfl, ht.adapters, fun index' h => ?_, fun _ => hunknown, hworld'⟩
      obtain rfl := Option.some.inj ((if_pos rfl).symm.trans h)
      rw [tokenIndex_of_built hunknown hbuilt]

/-- Questions to an adapter of the chain leave everything else as it is. -/
theorem onSecond_since {α : Type} {x : Run σ α} (hx : x.Agrees (Run.Both Worlds)) :
    (Run.onSecond x : Run (Registry σ × σ) α).Agrees (Run.Both (Since chain Worlds start)) := by
  rintro t t' ⟨h, h'⟩
  obtain ⟨hanswer, hworld, hworld'⟩ := hx t.2 t'.2 ⟨h.world, h'.world⟩
  exact ⟨hanswer, { h with world := hworld }, { h' with world := hworld' }⟩

/-- A steady registry answers the same way all the time. -/
theorem oracle_agrees_since (hsteady : start.1.Steady chain block Worlds) (hworld : Worlds start.2)
    (hown : start.1.HasOwnIndex chain) :
    (oracle chain block).Agrees (Run.Both (Since chain Worlds start)) := by
  have hindex := tokenIndex_always hsteady hworld
  refine oracle_agrees_of (fun t t' h => h.1.adapters.trans h.2.adapters.symm)
    (fun address => hindex.agrees.bind fun _ => Run.agrees_pure _) ?_ ?_
  · rintro t - address a ⟨ht, -⟩ howner
    obtain ⟨index, t', htold, howner⟩ := Run.bind_eq_ok_iff.mp (Prod.ext howner rfl)
    obtain ⟨howner, -⟩ := Prod.mk.inj howner
    rw [ht.adaptersFor]
    obtain ⟨world, hbuilt⟩ : ∃ world, (start.1.buildIndex chain world).1 = .ok index := by
      have htold : (tokenIndex chain start).1 = .ok index := by rw [← hindex.eq ht, htold]
      cases hknown : start.1.indexes chain with
      | some index' =>
        rw [tokenIndex_of_remembered hknown] at htold
        exact hown index (hknown.trans (congrArg some (Except.ok.inj htold)))
      | none =>
        rcases hbuilt : start.1.buildIndex chain start.2 with ⟨fault | index', world⟩
        · rw [tokenIndex_of_not_built hknown hbuilt] at htold
          cases htold
        · rw [tokenIndex_of_built hknown hbuilt] at htold
          cases htold
          exact ⟨start.2, congrArg Prod.fst hbuilt⟩
    exact owner_mem_adaptersFor hbuilt (Except.ok.inj howner)
  · rintro t t' a ⟨ht, -⟩ ha address
    exact onSecond_since (hsteady.rates a (ht.adaptersFor ▸ ha) address)

/-- A token for which no adapter is found once is found to have none all the time. -/
theorem Unowned.disowns (hsteady : start.1.Steady chain block Worlds) (hworld : Worlds start.2)
    (ht : Since chain Worlds start t) {address : Address} (h : t.1.Unowned chain address) :
    (oracle chain block).Disowns (Since chain Worlds start) address := by
  obtain ⟨index, hindex, hnone⟩ := h
  have htold := tokenIndex_always hsteady hworld
  rw [ht.known index hindex] at htold
  have howner : (tokenAdapter chain address).Always (Since chain Worlds start) (.ok none) :=
    htold.bind_ok (hnone ▸ Run.always_pure _)
  exact howner.bind_ok (Run.always_pure none)

end Registry

/-- Resolution may be done again and in stages. Where the adapters of a chain answer the same way
throughout some worlds and a resolution of positions succeeds without leaving anything to unwrap at its
limit, resolving the result again gives the result, whatever world has come about meanwhile. Resolving
without prices succeeds too, and resolving what it gives with prices ends as resolving with prices at
once does, failures included. -/
theorem Resolution.positions_again_and_in_stages {σ : Type} {Worlds : σ → Prop} {chain : Chain}
    {block : Option Block} {r : Registry σ} {world : σ} {t : Registry σ × σ} {options : Options}
    {ps qs : List Position} (hsteady : r.Steady chain block Worlds) (hworld : Worlds world)
    (hown : r.HasOwnIndex chain)
    (h : positions (Registry.oracle chain block) options ps (r, world) = (.ok qs, t))
    (hlimit : List.Forall₂ (fun p q =>
      WithinLimit (t.1.Unowned chain) options.depth p.tokens q.tokens) ps qs) :
    (∀ meanwhile, Worlds meanwhile →
      (positions (Registry.oracle chain block) options qs (t.1, meanwhile)).1 = .ok qs) ∧
    ∃ halfway t₁,
      positions (Registry.oracle chain block) { options with fiatPrices := false } ps (r, world) =
        (.ok halfway, t₁) ∧
      ∀ meanwhile, Worlds meanwhile →
        (positions (Registry.oracle chain block) { options with fiatPrices := true } halfway
          (t₁.1, meanwhile)).1 =
        (positions (Registry.oracle chain block) { options with fiatPrices := true } ps (r, world)).1 := by
  have ho : (Registry.oracle chain block).Agrees (Run.Both (Registry.Since chain Worlds (r, world))) :=
    Registry.oracle_agrees_since hsteady hworld hown
  have hprices := Registry.oracle_pricesAreLeaves (σ := σ) chain block
  have hs : Registry.Since chain Worlds (r, world) (r, world) := Registry.since_refl hworld
  have ht := (positions_agrees ho options ps).inv h hs
  obtain ⟨hagain, hstaged⟩ := positions_settled hprices ho hs h (hlimit.imp fun p q hpq u v hstands hnil =>
    (hpq u v hstands hnil).disowns hsteady hworld ht)
  obtain ⟨halfway, answer, hunpriced, hpriced, hlater⟩ := positions_staged hstaged
  refine ⟨fun meanwhile hmeanwhile => ?_, ?_⟩
  · exact (positions_always hagain).eq { ht with world := hmeanwhile }
  · obtain ⟨t₁, hrun, ht₁⟩ := hunpriced _ hs
    refine ⟨halfway, t₁, hrun, fun meanwhile hmeanwhile => ?_⟩
    rw [hpriced.eq hs]
    exact hlater.eq { ht₁ with world := hmeanwhile }

/-- Scripted adapters answer the same way in all worlds, although they count how often they are asked. -/
theorem Script.steady {σ : Type} {r : Registry σ} {chain : Chain} (block : Option Block)
    (h : ∀ a ∈ r.adaptersFor chain, ∃ (script : Script) (listings : Slot σ Nat),
      a = script.adapter listings) : r.Steady chain block fun _ => True where
  listings a ha := by
    obtain ⟨script, listings, rfl⟩ := h a ha
    intro s s' hs
    have hanswer (s : σ) : ((script.adapter listings).protocolTokens s).1 =
        script.answer "protocol_tokens" script.protocolTokens :=
      congrArg Prod.fst ((Run.bind_ok rfl).trans (Run.ofExcept_apply _ _))
    exact ⟨(hanswer s).trans (hanswer s').symm, hs⟩
  rates a ha address := by
    obtain ⟨script, listings, rfl⟩ := h a ha
    exact Run.agrees_ofExcept _

/-- A vault is unwrapped once, and what is in it gets its price in a second run. -/
theorem Resolution.positions_again_and_in_stages_vault :
    let inner : Token := ⟨⟨0xA⟩, "Inner", "IN", 18⟩
    let vault : Token := ⟨⟨0xB⟩, "Vault", "vIN", 18⟩
    let unit : Word := 1000000000000000000
    let oracle := Registry.oracle (σ := Nat) .ethereum none
    let position (below : List Underlying) : Position :=
      { token := vault, balance := unit, tokens := [⟨vault, unit, .underlying, below⟩] }
    let unwrapped := position [.leaf inner unit .underlying]
    let priced := position [⟨inner, unit, .underlying, [.leaf Prices.usd 2000000000000000000 .fiat]⟩]
    let s := (Registry.wrapperAndPrices vault inner [inner], 0)
    ∃ t, positions oracle { depth := 1 } [position []] s = (.ok [unwrapped], t) ∧
      (positions oracle { depth := 1 } [unwrapped] (t.1, 9)).1 = .ok [unwrapped] ∧
      ∃ t₁, positions oracle { depth := 1 } [position []] s = (.ok [unwrapped], t₁) ∧
        (positions oracle { depth := 1, fiatPrices := true } [unwrapped] (t₁.1, 9)).1 =
          .ok [priced] := by
  intro inner vault unit oracle position unwrapped priced s
  have hrun : ∃ t, positions oracle { depth := 1 } [position []] s = (.ok [unwrapped], t) ∧
      t.1.Unowned .ethereum inner.address := by
    simp only [inner, vault, unit, oracle, position, unwrapped, s]
    exact ⟨_, rfl, _, rfl, rfl⟩
  have hpriced : (positions oracle { depth := 1, fiatPrices := true } [position []] s).1 =
      .ok [priced] := by
    simp only [inner, vault, unit, oracle, position, priced, s]
    rfl
  obtain ⟨t, hrun, hunowned⟩ := hrun
  have hsteady : s.1.Steady .ethereum none fun _ => True := by
    refine Script.steady none fun a ha => ?_
    rcases List.mem_pair.mp (List.mem_of_mem_filter ha) with rfl | rfl <;> exact ⟨_, _, rfl⟩
  have hlimit : WithinLimit (t.1.Unowned .ethereum) 1 (position []).tokens unwrapped.tokens := by
    rintro u v hstands -
    cases hstands with
    | nested _ hbelow => exact absurd rfl hbelow
    | later hstands => cases hstands
    | unwrapped _ _ hstands =>
      cases hstands with
      | here _ => exact hunowned
      | nested _ hbelow => exact absurd rfl hbelow
      | later hstands => cases hstands
  obtain ⟨hagain, halfway, t₁, hunpriced, hlater⟩ :=
    positions_again_and_in_stages hsteady trivial (fun _ h => nomatch h) hrun (.cons hlimit .nil)
  obtain ⟨hhalfway, rfl⟩ := Prod.mk.inj (hrun.symm.trans hunpriced)
  cases hhalfway
  exact ⟨t, hrun, hagain 9 trivial, t, hrun, (hlater 9 trivial).trans hpriced⟩

end Chainfolio
