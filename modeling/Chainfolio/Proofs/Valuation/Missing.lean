import Chainfolio.Proofs.Valuation.Aggregation
import Chainfolio.Proofs.Valuation.Unpriced

/-! Which missing price a valuation reports. A path counts the amounts of each level from the left, so that
the lexicographic order of paths is the one in which trees are gone through, each amount before what is
below it. The price that is missed is that of the first amount with nothing below it and no price above. -/
namespace Chainfolio

/-- A position as the root of a tree. -/
def Position.root (p : Position) : Underlying := ⟨p.token, p.balance, p.kind, p.tokens⟩

namespace Underlying

/-- `Down us path v`: the path leads from a forest down to `v`, never through an amount that has a price
directly below it. -/
inductive Down : List Underlying → List Nat → Underlying → Prop
  | here {u us} : Down (u :: us) [0] u
  | under {u us path v} (hprice : u.fiatLeaf? = none) (h : Down u.tokens path v) :
      Down (u :: us) (0 :: path) v
  | later {u us i path v} (h : Down us (i :: path) v) : Down (u :: us) ((i + 1) :: path) v

/-- Whether a path leads down to an amount with nothing below it. -/
def Bare (us : List Underlying) (path : List Nat) (v : Underlying) : Prop :=
  Down us path v ∧ v.tokens = []

/-- Whether an amount is the first one with nothing below it. -/
def FirstBare (us : List Underlying) (v : Underlying) : Prop :=
  ∃ path, Bare us path v ∧
    ∀ other w, Bare us other w → other = path ∨ List.Lex (· < ·) path other

/-- What the valuation of a forest may come to. -/
inductive Outcome {α : Type} (us : List Underlying) : Except Fault α → Prop
  | valued (a : α) (h : ∀ path v, ¬ Bare us path v) : Outcome us (.ok a)
  | missing {v} (h : FirstBare us v) : Outcome us (.error (.missingFiatLeaf v.token.address))
  | arithmetic (cause : MathFault) : Outcome us (.error (.math cause))

/-! ### Paths -/

section
variable {u v w : Underlying} {us : List Underlying} {path : List Nat}

theorem Down.ne_nil (h : Down us path v) : path ≠ [] := by
  cases h <;> exact List.cons_ne_nil _ _

/-- A path leads to one amount. -/
theorem Down.unique (hv : Down us path v) (hw : Down us path w) : v = w := by
  induction hv with
  | here =>
    cases hw with
    | here => rfl
    | under _ h => exact absurd rfl h.ne_nil
  | under _ h ih =>
    cases hw with
    | here => exact absurd rfl h.ne_nil
    | under _ hw => exact ih hw
  | later _ ih =>
    cases hw with
    | later hw => exact ih hw

/-- Only one amount comes first. -/
theorem FirstBare.unique (hv : FirstBare us v) (hw : FirstBare us w) : v = w := by
  obtain ⟨path, hpath, hfirst⟩ := hv
  obtain ⟨other, hother, hfirst'⟩ := hw
  have heq : other = path := by
    rcases hfirst _ _ hother with h | hlt
    · exact h
    rcases hfirst' _ _ hpath with h | hlt'
    · exact h.symm
    · exact absurd hlt' (List.lex_asymm Nat.lt_asymm hlt)
  subst heq
  exact hpath.1.unique hother.1

theorem firstBare_of_nil (h : u.tokens = []) : FirstBare [u] u := by
  refine ⟨[0], ⟨.here, h⟩, ?_⟩
  rintro other w ⟨_ | ⟨_, hdown⟩ | hlater, -⟩
  · exact .inl rfl
  · rw [h] at hdown
    cases hdown
  · cases hlater

/-- What comes first below an amount without a price comes first in its tree. -/
theorem FirstBare.under (hprice : u.fiatLeaf? = none) (h : FirstBare u.tokens v) :
    FirstBare [u] v := by
  obtain ⟨path, ⟨hdown, hbare⟩, hfirst⟩ := h
  refine ⟨0 :: path, ⟨.under hprice hdown, hbare⟩, ?_⟩
  rintro other w ⟨_ | ⟨_, hother⟩ | hlater, hw⟩
  · rw [hw] at hdown
    cases hdown
  · exact (hfirst _ _ ⟨hother, hw⟩).imp (congrArg _) .cons
  · cases hlater

/-- What comes first in the first tree comes first in the forest. -/
theorem FirstBare.head (h : FirstBare [u] v) (us : List Underlying) : FirstBare (u :: us) v := by
  obtain ⟨path, ⟨hdown, hbare⟩, hfirst⟩ := h
  obtain ⟨rest, rfl, hdown'⟩ : ∃ rest, path = 0 :: rest ∧ Down (u :: us) path v := by
    cases hdown with
    | here => exact ⟨[], rfl, .here⟩
    | under hprice h => exact ⟨_, rfl, .under hprice h⟩
    | later h => cases h
  refine ⟨0 :: rest, ⟨hdown', hbare⟩, ?_⟩
  rintro other w ⟨_ | ⟨hprice, h⟩ | _, hw⟩
  · exact hfirst _ _ ⟨.here, hw⟩
  · exact hfirst _ _ ⟨.under hprice h, hw⟩
  · exact .inr (.rel (Nat.succ_pos _))

/-- A path that leads into a forest with a tree in front leads into this tree, or goes on as before. -/
theorem Bare.of_cons (h : Bare (u :: us) path v) :
    Bare [u] path v ∨ ∃ i rest, path = (i + 1) :: rest ∧ Bare us (i :: rest) v := by
  obtain ⟨_ | ⟨hprice, h⟩ | h, hv⟩ := h
  · exact .inl ⟨.here, hv⟩
  · exact .inl ⟨.under hprice h, hv⟩
  · exact .inr ⟨_, _, rfl, h, hv⟩

theorem FirstBare.tail (hhead : ∀ path w, ¬ Bare [u] path w) (h : FirstBare us v) :
    FirstBare (u :: us) v := by
  obtain ⟨path, ⟨hdown, hbare⟩, hfirst⟩ := h
  obtain ⟨i, rest, rfl⟩ : ∃ i rest, path = i :: rest := by cases hdown <;> exact ⟨_, _, rfl⟩
  refine ⟨(i + 1) :: rest, ⟨.later hdown, hbare⟩, fun other w hother => ?_⟩
  rcases hother.of_cons with h | ⟨j, rest', rfl, h⟩
  · exact absurd h (hhead _ _)
  · rcases hfirst _ _ h with heq | hlt
    · cases heq
      exact .inl rfl
    · cases hlt with
      | rel hlt => exact .inr (.rel (Nat.succ_lt_succ hlt))
      | cons hlt => exact .inr (.cons hlt)

theorem not_bare_cons (hhead : ∀ path v, ¬ Bare [u] path v) (htail : ∀ path v, ¬ Bare us path v) :
    ¬ Bare (u :: us) path v := by
  intro h
  rcases h.of_cons with h | ⟨_, _, -, h⟩
  · exact hhead _ _ h
  · exact htail _ _ h

/-- A tree whose root has something below it is bare nowhere if the root has a price, or if what is below
it is bare nowhere. -/
theorem not_bare_singleton (hne : u.tokens ≠ [])
    (h : u.fiatLeaf? = none → ∀ path v, ¬ Bare u.tokens path v) : ¬ Bare [u] path v := by
  rintro ⟨_ | ⟨hprice, hdown⟩ | hlater, hv⟩
  · exact hne hv
  · exact h hprice _ _ ⟨hdown, hv⟩
  · cases hlater

end

end Underlying

/-! ### Arithmetic -/

namespace Valuation

variable {α β : Type}

/-- Whether a computation fails for arithmetic reasons only. -/
def Arithmetic (x : Except Fault α) : Prop := ∀ e, x = .error e → ∃ cause, e = .math cause

theorem Arithmetic.bind {x : Except Fault α} {f : α → Except Fault β} (hx : Arithmetic x)
    (hf : ∀ a, Arithmetic (f a)) : Arithmetic (x >>= f) := by
  intro e h
  rcases bind_eq_error_iff.mp h with h | ⟨a, -, h⟩
  · exact hx e h
  · exact hf a e h

theorem arithmetic_ok (a : α) : Arithmetic (.ok a) := fun _ h => nomatch h

theorem arithmetic_math (cause : MathFault) : Arithmetic (.error (.math cause) : Except Fault α) := by
  rintro e ⟨⟩
  exact ⟨cause, rfl⟩

theorem arithmetic_add (a b : Decimal) : Arithmetic (Valuation.add a b) := by
  unfold Valuation.add
  split
  · exact arithmetic_ok _
  · exact arithmetic_math _

theorem arithmetic_amount (balance : Word) (decimals : UInt8) :
    Arithmetic (Valuation.amount balance decimals) := by
  intro e h
  unfold Valuation.amount at h
  cases hd : Wei.toDecimal balance decimals.toUInt32 with
  | none =>
    rw [hd] at h
    exact arithmetic_math _ e h
  | some r =>
    rw [hd] at h
    obtain ⟨⟨mantissa, scale⟩, -, hr⟩ := Option.map_eq_some_iff.mp hd
    dsimp only at hr
    split at hr
    · subst hr
      cases h
    · subst hr
      exact arithmetic_math _ e h

theorem arithmetic_priced (token : Token) (balance : Word) (price : Underlying) :
    Arithmetic (Valuation.priced token balance price) := by
  refine (arithmetic_amount _ _).bind fun amount => (arithmetic_amount _ _).bind fun rate => ?_
  split
  · exact arithmetic_ok _
  · exact arithmetic_math _

end Valuation

theorem Balances.arithmetic_credit (b : FiatBalance) (balances : Balances) :
    Valuation.Arithmetic (balances.credit b) := by
  unfold Balances.credit
  split
  · exact Valuation.arithmetic_ok _
  · exact (Valuation.arithmetic_add _ _).bind fun _ => Valuation.arithmetic_ok _

/-! ### Valuations -/

namespace Underlying

section
variable {α β : Type} {u : Underlying} {us : List Underlying}

/-- A forest is valued tree by tree. -/
theorem Outcome.cons {x : Except Fault α} {f : α → Except Fault β} (hhead : Outcome [u] x)
    (htail : ∀ a, Outcome us (f a)) : Outcome (u :: us) (x >>= f) := by
  cases hhead with
  | missing h => exact .missing (h.head us)
  | arithmetic cause => exact .arithmetic cause
  | valued a hnone =>
    have h := htail a
    change Outcome (u :: us) (f a)
    generalize f a = result at h ⊢
    cases h with
    | valued b h => exact .valued b fun _ _ => not_bare_cons hnone h
    | missing h => exact .missing (h.tail hnone)
    | arithmetic cause => exact .arithmetic cause

theorem Outcome.after {x : Except Fault α} {f : α → Except Fault β} (hx : Valuation.Arithmetic x)
    (hf : ∀ a, Outcome us (f a)) : Outcome us (x >>= f) := by
  cases x with
  | ok a => exact hf a
  | error e =>
    obtain ⟨cause, rfl⟩ := hx e rfl
    exact .arithmetic cause

/-- An amount with a price directly below it never lacks one. -/
theorem outcome_of_price {x : Except Fault α} (hprice : u.fiatLeaf? ≠ none)
    (hx : Valuation.Arithmetic x) : Outcome [u] x := by
  cases x with
  | error e =>
    obtain ⟨cause, rfl⟩ := hx e rfl
    exact .arithmetic cause
  | ok a =>
    refine .valued a fun _ _ => not_bare_singleton (fun hnil => hprice ?_) fun h => absurd h hprice
    rw [fiatLeaf?, hnil, List.find?_nil]

/-- An amount without a price lacks what the amounts below it lack. -/
theorem Outcome.under {x : Except Fault α} (hne : u.tokens ≠ []) (hprice : u.fiatLeaf? = none)
    (h : Outcome u.tokens x) : Outcome [u] x := by
  cases h with
  | valued a h => exact .valued a fun _ _ => not_bare_singleton hne fun _ => h
  | missing h => exact .missing (h.under hprice)
  | arithmetic cause => exact .arithmetic cause

end

theorem value_outcome {u : Underlying} (hbelow : ∀ sum, Outcome u.tokens (sumValues u.tokens sum)) :
    Outcome [u] u.value := by
  obtain ⟨token, balance, kind, below⟩ := u
  unfold value
  cases hprice : below.find? fun t => t.kind = .fiat with
  | some price =>
    refine outcome_of_price ?_ (Valuation.arithmetic_priced token balance price)
    rw [fiatLeaf?, hprice]
    exact Option.some_ne_none _
  | none =>
    cases below with
    | nil => exact .missing (firstBare_of_nil rfl)
    | cons u us => exact (hbelow .zero).under (List.cons_ne_nil _ _) hprice

/-- The trees of a forest are valued from left to right, each from the top. -/
theorem sumValues_outcome (us : List Underlying) (sum : Decimal) : Outcome us (sumValues us sum) := by
  -- The sum so far decides about arithmetic only, so that the hypotheses have to hold for all sums.
  induction us using forest_induction generalizing sum with
  | nil => exact .valued sum fun _ _ h => nomatch h.1
  | cons token balance kind below us ihbelow ihus =>
    rw [sumValues]
    exact (value_outcome ihbelow).cons fun v => .after (Valuation.arithmetic_add sum v) ihus

end Underlying

namespace Balances

open Underlying (Outcome)

theorem ofPositions_outcome (ps : List Position) (balances : Balances) :
    Outcome (ps.map Position.root) (ofPositions ps balances) := by
  induction ps generalizing balances with
  | nil => exact .valued balances fun _ _ h => nomatch h.1
  | cons p ps ih =>
    have hvalue : Outcome [p.root] p.value := Underlying.value_outcome (Underlying.sumValues_outcome _)
    exact hvalue.cons fun v => .after (arithmetic_credit _ balances) ih

/-! ### Keys -/

theorem credit_keys {b : FiatBalance} {balances balances' : Balances} (hkeyed : balances.Keyed)
    (h : balances.credit b = .ok balances') :
    balances'.Keyed ∧ ∀ key, key ∈ balances'.keys ↔ key = b.key ∨ key ∈ balances.keys := by
  unfold credit at h
  split at h
  · cases h
    exact ⟨hkeyed.insert b, fun _ => mem_keys_insert⟩
  · next held hfind =>
    obtain ⟨value, -, h⟩ := bind_eq_ok_iff.mp h
    cases h
    have hheld : held.key = b.key := hkeyed.own _ _ hfind
    have hkey : FiatBalance.key { held with value := value } = b.key := hheld
    exact ⟨hkeyed.insert _, fun _ => hkey ▸ mem_keys_insert⟩

/-- Positions are kept under their keys and no other ones. -/
theorem ofPositions_keys {ps : List Position} {balances balances' : Balances}
    (hkeyed : balances.Keyed) (h : ofPositions ps balances = .ok balances') :
    balances'.Keyed ∧
      ∀ key, key ∈ balances'.keys ↔ key ∈ balances.keys ∨ ∃ p ∈ ps, Holdings.positions.key p = key := by
  induction ps generalizing balances with
  | nil =>
    cases h
    exact ⟨hkeyed, by simp⟩
  | cons p ps ih =>
    obtain ⟨v, -, h⟩ := bind_eq_ok_iff.mp h
    obtain ⟨middle, hcredit, h⟩ := bind_eq_ok_iff.mp h
    obtain ⟨hmiddle, hkeys⟩ := credit_keys hkeyed hcredit
    obtain ⟨hkeyed', hkeys'⟩ := ih hmiddle h
    refine ⟨hkeyed', fun key => ?_⟩
    rw [hkeys', hkeys, List.exists_mem_cons_iff, eq_comm, or_assoc]
    exact or_left_comm

end Balances

/-- As long as no decimal operation fails, an aggregation misses a price exactly when some amount with
nothing below it, perhaps a position itself, is reached from a position through amounts without a price
directly below them. It reports the first such amount. Otherwise there is one balance for each key. -/
theorem aggregate_misses_first (ps : List Position)
    (hdecimals : ∀ cause, aggregatePositions ps ≠ .error (.math cause)) :
    ((∃ a, aggregatePositions ps = .error (.missingFiatLeaf a)) ↔
      ∃ path v, Underlying.Bare (ps.map Position.root) path v) ∧
    (∀ a, aggregatePositions ps = .error (.missingFiatLeaf a) ↔
      ∃ v, Underlying.FirstBare (ps.map Position.root) v ∧ v.token.address = a) ∧
    ((¬ ∃ path v, Underlying.Bare (ps.map Position.root) path v) →
      ∃ balances, aggregatePositions ps = .ok balances ∧ balances.keys.Nodup ∧
        ∀ key, key ∈ balances.keys ↔ ∃ p ∈ ps, Holdings.positions.key p = key) := by
  have houtcome := Balances.ofPositions_outcome ps []
  change Underlying.Outcome _ (aggregatePositions ps) at houtcome
  generalize hresult : aggregatePositions ps = result at houtcome hdecimals ⊢
  cases houtcome with
  | arithmetic cause => exact absurd rfl (hdecimals cause)
  | missing hfirst =>
    obtain ⟨path, hbare, -⟩ := id hfirst
    refine ⟨⟨fun _ => ⟨path, _, hbare⟩, fun _ => ⟨_, rfl⟩⟩, fun a => ⟨?_, ?_⟩, fun h => ?_⟩
    · rintro ⟨⟩
      exact ⟨_, hfirst, rfl⟩
    · rintro ⟨v, hv, rfl⟩
      rw [hv.unique hfirst]
    · exact absurd ⟨path, _, hbare⟩ h
  | valued balances hnone =>
    refine ⟨⟨?_, ?_⟩, fun a => ⟨?_, ?_⟩, fun _ => ⟨balances, rfl, ?_⟩⟩
    · rintro ⟨a, ⟨⟩⟩
    · rintro ⟨path, v, h⟩
      exact absurd h (hnone path v)
    · rintro ⟨⟩
    · rintro ⟨v, ⟨path, h, -⟩, -⟩
      exact absurd h (hnone path v)
    · have hempty : Balances.Keyed [] := ⟨.nil, fun _ _ h => nomatch h⟩
      obtain ⟨hkeyed, hkeys⟩ := Balances.ofPositions_keys hempty hresult
      exact ⟨PositionKey.nodup_of_ascending hkeyed.ascending,
        fun key => (hkeys key).trans (by simp [Balances.keys])⟩

/-- A vault over a pool of three amounts, two of which have no price, next to a position with nothing below
it; a price hides the bare amount beside it. Without the vault and the bare position all is valued. -/
theorem aggregate_misses_first_nested :
    let token (address : BitVec 160) : Token := ⟨⟨address⟩, "Token", "T", 0⟩
    let price : Underlying := .leaf ⟨.zero, "US Dollar", "USD", 0⟩ 3 .fiat
    let bare (address : BitVec 160) : Underlying := .leaf (token address) 5 .underlying
    let priced (address : BitVec 160) : Underlying :=
      ⟨token address, 2, .underlying, [bare 9, price]⟩
    let pool : Underlying := ⟨token 4, 7, .underlying, [priced 1, bare 2, bare 3]⟩
    let held (address : BitVec 160) (tokens : List Underlying) : Position :=
      { token := token address, balance := 1, tokens := tokens }
    let ps := [held 5 [priced 1], held 6 [pool, bare 3], held 7 []]
    let qs := [held 5 [priced 1], held 8 [priced 1, priced 2], held 5 [priced 2]]
    (∀ cause, aggregatePositions ps ≠ .error (.math cause)) ∧
    Underlying.Bare (ps.map Position.root) [1, 0, 1] (bare 2) ∧
    (∃ v, Underlying.FirstBare (ps.map Position.root) v ∧ v.token.address = ⟨2⟩) ∧
    aggregatePositions ps = .error (.missingFiatLeaf ⟨2⟩) ∧
    (∀ cause, aggregatePositions qs ≠ .error (.math cause)) ∧
    (¬ ∃ path v, Underlying.Bare (qs.map Position.root) path v) ∧
    ∃ balances, aggregatePositions qs = .ok balances ∧ balances.keys.Nodup ∧
      balances.keys = [⟨⟨5⟩, none⟩, ⟨⟨8⟩, none⟩] := by
  intro token price bare priced pool held ps qs
  have hps : aggregatePositions ps = .error (.missingFiatLeaf ⟨2⟩) := by
    simp only [ps, held, pool, priced, bare, price, token]
    rfl
  obtain ⟨balances, hqs, hkeys⟩ : ∃ balances, aggregatePositions qs = .ok balances ∧
      balances.keys = [⟨⟨5⟩, none⟩, ⟨⟨8⟩, none⟩] := by
    simp only [qs, held, priced, bare, price, token]
    exact ⟨_, rfl, rfl⟩
  have hps' : ∀ cause, aggregatePositions ps ≠ .error (.math cause) := by
    rw [hps]
    exact fun _ h => nomatch h
  have hqs' : ∀ cause, aggregatePositions qs ≠ .error (.math cause) := by
    rw [hqs]
    exact fun _ h => nomatch h
  have hbare : Underlying.Bare (ps.map Position.root) [1, 0, 1] (bare 2) :=
    ⟨.later (.under rfl (.under rfl (.later .here))), rfl⟩
  obtain ⟨-, hfirst, -⟩ := aggregate_misses_first ps hps'
  obtain ⟨hmisses, -, hvalued⟩ := aggregate_misses_first qs hqs'
  have hnone : ¬ ∃ path v, Underlying.Bare (qs.map Position.root) path v := by
    intro h
    obtain ⟨a, ha⟩ := hmisses.mpr h
    rw [hqs] at ha
    cases ha
  obtain ⟨balances', hqs'', hnodup, -⟩ := hvalued hnone
  cases hqs.symm.trans hqs''
  exact ⟨hps', hbare, (hfirst ⟨2⟩).mp hps, hps, hqs', hnone, balances, hqs, hnodup, hkeys⟩

end Chainfolio
