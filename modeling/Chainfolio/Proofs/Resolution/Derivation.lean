import Chainfolio.Proofs.Run
import Chainfolio.Proofs.Underlying
import Chainfolio.Resolution.Basic

/-! Resolution as a system of rules. A derivation lists what a run asks and what it is answered; each
run has a finite one, whatever the answers are, because unwrapping uses up a level and everything else
goes down a forest that is already there. -/
namespace Chainfolio.Resolution

variable {τ : Type}

/-- What is found out about an amount that has nothing below it. -/
inductive Finding where
  | amounts (us : List Underlying)
  | price (leaf : List Underlying)

/-- Unwraps an amount once, unless no product owns its token or no level is left; then its price
is asked. -/
def finding (o : Oracle τ) (fiat : Bool) (depth : Nat) (token : Token) (balance : Word) :
    Run τ Finding := do
  match ← o.owner token.address, depth with
  | some unwrap, _ + 1 =>
    let rate ← unwrap
    return .amounts (← Run.ofExcept (rate.underlyings balance))
  | _, _ => return .price (← priceLeaf o fiat token)

/-- `Resolves o fiat depth us s r s'`: amounts resolved from the state `s` on, with `depth` levels left,
end with the outcome `r` in the state `s'`. -/
inductive Resolves (o : Oracle τ) (fiat : Bool) :
    Nat → List Underlying → τ → Except Fault (List Underlying) → τ → Prop
  | nil {depth s} : Resolves o fiat depth [] s (.ok []) s
  | price {depth token balance below us s r s'} (rest : Resolves o fiat depth us s r s') :
      Resolves o fiat depth (⟨token, balance, .fiat, below⟩ :: us) s
        (r.map (⟨token, balance, .fiat, below⟩ :: ·)) s'
  | nested {depth token balance kind below us s below' s₁ r s'} (hkind : kind ≠ .fiat)
      (hbelow : below ≠ []) (first : Resolves o fiat depth below s (.ok below') s₁)
      (rest : Resolves o fiat depth us s₁ r s') :
      Resolves o fiat depth (⟨token, balance, kind, below⟩ :: us) s
        (r.map (⟨token, balance, kind, below'⟩ :: ·)) s'
  | nestedFails {depth token balance kind below us s e s'} (hkind : kind ≠ .fiat)
      (hbelow : below ≠ []) (first : Resolves o fiat depth below s (.error e) s') :
      Resolves o fiat depth (⟨token, balance, kind, below⟩ :: us) s (.error e) s'
  | unwrapped {depth token balance kind amounts us s s₁ below s₂ r s'} (hkind : kind ≠ .fiat)
      (found : finding o fiat (depth + 1) token balance s = (.ok (.amounts amounts), s₁))
      (first : Resolves o fiat depth amounts s₁ (.ok below) s₂)
      (rest : Resolves o fiat (depth + 1) us s₂ r s') :
      Resolves o fiat (depth + 1) (⟨token, balance, kind, []⟩ :: us) s
        (r.map (⟨token, balance, kind, below⟩ :: ·)) s'
  | unwrappedFails {depth token balance kind amounts us s s₁ e s'} (hkind : kind ≠ .fiat)
      (found : finding o fiat (depth + 1) token balance s = (.ok (.amounts amounts), s₁))
      (first : Resolves o fiat depth amounts s₁ (.error e) s') :
      Resolves o fiat (depth + 1) (⟨token, balance, kind, []⟩ :: us) s (.error e) s'
  | plain {depth token balance kind leaf us s s₁ r s'} (hkind : kind ≠ .fiat)
      (found : finding o fiat depth token balance s = (.ok (.price leaf), s₁))
      (rest : Resolves o fiat depth us s₁ r s') :
      Resolves o fiat depth (⟨token, balance, kind, []⟩ :: us) s
        (r.map (⟨token, balance, kind, leaf⟩ :: ·)) s'
  | fails {depth token balance kind us s e s'} (hkind : kind ≠ .fiat)
      (found : finding o fiat depth token balance s = (.error e, s')) :
      Resolves o fiat depth (⟨token, balance, kind, []⟩ :: us) s (.error e) s'

variable {o : Oracle τ} {fiat : Bool} {depth : Nat} {us : List Underlying} {s s' : τ}
  {r : Except Fault (List Underlying)}

section
variable {token : Token} {balance : Word} {found : Finding}

/-- What is found is a rate's amounts, with a level left, or the price, where no product owns the token
or no level is left. -/
theorem finding_eq_ok (h : finding o fiat depth token balance s = (.ok found, s')) :
    (∃ lower unwrap s₁ rate amounts, depth = lower + 1 ∧
      o.owner token.address s = (.ok (some unwrap), s₁) ∧ unwrap s₁ = (.ok rate, s') ∧
      rate.underlyings balance = .ok amounts ∧ found = .amounts amounts) ∨
    ∃ owner s₁ leaf, (owner = none ∨ depth = 0) ∧ o.owner token.address s = (.ok owner, s₁) ∧
      priceLeaf o fiat token s₁ = (.ok leaf, s') ∧ found = .price leaf := by
  obtain ⟨owner, s₁, howner, h⟩ := Run.bind_eq_ok_iff.mp h
  have hprice (h : (do return .price (← priceLeaf o fiat token) : Run τ Finding) s₁ =
      (.ok found, s')) : ∃ leaf, priceLeaf o fiat token s₁ = (.ok leaf, s') ∧
        found = .price leaf := by
    obtain ⟨leaf, s₂, hleaf, h⟩ := Run.bind_eq_ok_iff.mp h
    cases h
    exact ⟨leaf, hleaf, rfl⟩
  cases owner with
  | none => exact .inr ⟨_, s₁, (hprice h).imp fun _ hleaf => ⟨.inl rfl, howner, hleaf⟩⟩
  | some unwrap =>
    cases depth with
    | zero => exact .inr ⟨_, s₁, (hprice h).imp fun _ hleaf => ⟨.inr rfl, howner, hleaf⟩⟩
    | succ lower =>
      obtain ⟨rate, s₂, hrate, h⟩ := Run.bind_eq_ok_iff.mp h
      obtain ⟨amounts, s₃, hconverted, hfound⟩ := Run.bind_eq_ok_iff.mp h
      obtain ⟨hamounts, rfl⟩ := Run.ofExcept_eq_ok_iff.mp hconverted
      cases hfound
      exact .inl ⟨lower, unwrap, s₁, rate, amounts, rfl, howner, hrate, hamounts, rfl⟩

theorem finding_amounts {amounts : List Underlying}
    (h : finding o fiat depth token balance s = (.ok (.amounts amounts), s')) :
    ∃ lower unwrap s₁ rate, depth = lower + 1 ∧
      o.owner token.address s = (.ok (some unwrap), s₁) ∧ unwrap s₁ = (.ok rate, s') ∧
      rate.underlyings balance = .ok amounts := by
  rcases finding_eq_ok h with
    ⟨lower, unwrap, s₁, rate, amounts, hdepth, howner, hrate, hamounts, hfound⟩ |
    ⟨_, _, _, -, -, -, hfound⟩
  · cases hfound
    exact ⟨lower, unwrap, s₁, rate, hdepth, howner, hrate, hamounts⟩
  · cases hfound

theorem finding_price {leaf : List Underlying}
    (h : finding o fiat depth token balance s = (.ok (.price leaf), s')) :
    ∃ s₁, priceLeaf o fiat token s₁ = (.ok leaf, s') := by
  rcases finding_eq_ok h with ⟨_, _, _, _, _, -, -, -, -, hfound⟩ | ⟨_, s₁, leaf, -, -, hleaf, hfound⟩
  · cases hfound
  · cases hfound
    exact ⟨s₁, hleaf⟩

theorem priceLeaf_true {leaf : List Underlying} (h : priceLeaf o true token s = (.ok leaf, s')) :
    ∃ price, o.price token s = (.ok price, s') ∧ leaf = price.toList := by
  obtain ⟨price, s₁, hprice, h⟩ := Run.bind_eq_ok_iff.mp h
  cases h
  exact ⟨price, hprice, rfl⟩

theorem priceLeaf_false {leaf : List Underlying} (h : priceLeaf o false token s = (.ok leaf, s')) :
    leaf = [] := by
  cases h
  rfl

end

/-- At a fixed level the forest gets smaller, unless a level is used up and every forest has a
derivation there. -/
theorem exists_resolves_of_lower
    (hlower : ∀ lower, depth = lower + 1 → ∀ us s, ∃ r s', Resolves o fiat lower us s r s')
    (us : List Underlying) : ∀ s, ∃ r s', Resolves o fiat depth us s r s' := by
  induction us using Underlying.forest_induction with
  | nil => exact fun s => ⟨_, _, .nil⟩
  | cons token balance kind below us ihbelow ihus =>
    intro s
    by_cases hkind : kind = .fiat
    · subst hkind
      obtain ⟨r, s', hrest⟩ := ihus s
      exact ⟨_, _, .price hrest⟩
    by_cases hbelow : below = []
    · subst hbelow
      rcases hfound : finding o fiat depth token balance s with ⟨e | amounts | leaf, s₁⟩
      · exact ⟨_, _, .fails hkind hfound⟩
      · obtain ⟨lower, -, -, -, rfl, -⟩ := finding_amounts hfound
        obtain ⟨e | below, s₂, hfirst⟩ := hlower lower rfl amounts s₁
        · exact ⟨_, _, .unwrappedFails hkind hfound hfirst⟩
        · obtain ⟨r, s', hrest⟩ := ihus s₂
          exact ⟨_, _, .unwrapped hkind hfound hfirst hrest⟩
      · obtain ⟨r, s', hrest⟩ := ihus s₁
        exact ⟨_, _, .plain hkind hfound hrest⟩
    · obtain ⟨e | below', s₁, hfirst⟩ := ihbelow s
      · exact ⟨_, _, .nestedFails hkind hbelow hfirst⟩
      · obtain ⟨r, s', hrest⟩ := ihus s₁
        exact ⟨_, _, .nested hkind hbelow hfirst hrest⟩

/-- Every run of resolution has a derivation. Levels are lost by unwrapping, where the amounts to go on
with can be any; otherwise they stay and the forest gets smaller. -/
theorem exists_resolves (o : Oracle τ) (fiat : Bool) (depth : Nat) (us : List Underlying) (s : τ) :
    ∃ r s', Resolves o fiat depth us s r s' := by
  induction depth generalizing us s with
  | zero => exact exists_resolves_of_lower (fun _ h => absurd h (by omega)) us s
  | succ depth ih =>
    refine exists_resolves_of_lower (fun lower h => ?_) us s
    obtain rfl : depth = lower := by omega
    exact ih

/-! ### Runs follow the rules -/

/-- What a finding puts below an amount. -/
def settle (o : Oracle τ) (fiat : Bool) : Nat → Finding → Run τ (List Underlying)
  | depth + 1, .amounts us => resolveAll o fiat depth us
  | 0, .amounts us => pure us
  | _, .price leaf => pure leaf

/-- How amounts are resolved one level below. -/
def deeper (o : Oracle τ) (fiat : Bool) : Nat → Option (List Underlying → Run τ (List Underlying))
  | 0 => none
  | depth + 1 => some (resolveAll o fiat depth)

theorem resolveAll_eq (o : Oracle τ) (fiat : Bool) (depth : Nat) :
    resolveAll o fiat depth = expandAll (children o fiat (deeper o fiat depth)) := by
  cases depth <;> rfl

theorem children_eq (o : Oracle τ) (fiat : Bool) (depth : Nat) (token : Token) (balance : Word) :
    children o fiat (deeper o fiat depth) token balance =
      finding o fiat depth token balance >>= settle o fiat depth := by
  unfold children finding
  rw [bind_assoc]
  congr 1
  funext owner
  cases depth <;> cases owner <;> simp [deeper, settle]

theorem resolveAll_nil (o : Oracle τ) (fiat : Bool) (depth : Nat) :
    resolveAll o fiat depth [] = pure [] := by
  rw [resolveAll_eq]
  rfl

theorem resolveAll_price (o : Oracle τ) (fiat : Bool) (depth : Nat) (token : Token) (balance : Word)
    (below us : List Underlying) :
    resolveAll o fiat depth (⟨token, balance, .fiat, below⟩ :: us) = do
      return ⟨token, balance, .fiat, below⟩ :: (← resolveAll o fiat depth us) := by
  rw [resolveAll_eq]
  cases below <;> simp [expandAll, expand]

theorem resolveAll_childless {kind : TokenKind} (hkind : kind ≠ .fiat) (o : Oracle τ) (fiat : Bool)
    (depth : Nat) (token : Token) (balance : Word) (us : List Underlying) :
    resolveAll o fiat depth (⟨token, balance, kind, []⟩ :: us) = do
      let below ← finding o fiat depth token balance >>= settle o fiat depth
      return ⟨token, balance, kind, below⟩ :: (← resolveAll o fiat depth us) := by
  rw [resolveAll_eq, expandAll, expand, children_eq]
  simp [hkind]

theorem resolveAll_nested {kind : TokenKind} {below : List Underlying} (hkind : kind ≠ .fiat)
    (hbelow : below ≠ []) (o : Oracle τ) (fiat : Bool) (depth : Nat) (token : Token)
    (balance : Word) (us : List Underlying) :
    resolveAll o fiat depth (⟨token, balance, kind, below⟩ :: us) = do
      let below ← resolveAll o fiat depth below
      return ⟨token, balance, kind, below⟩ :: (← resolveAll o fiat depth us) := by
  cases below with
  | nil => exact absurd rfl hbelow
  | cons v vs =>
    rw [resolveAll_eq]
    simp [expandAll, expand, hkind]

/-- A derivation tells what the run does. -/
theorem Resolves.run (h : Resolves o fiat depth us s r s') :
    resolveAll o fiat depth us s = (r, s') := by
  induction h with
  | nil => rw [resolveAll_nil, Run.pure_apply]
  | price _ ih =>
    rw [resolveAll_price]
    exact Run.cons_apply _ ih
  | nested hkind hbelow _ _ ihfirst ih =>
    rw [resolveAll_nested hkind hbelow, Run.bind_ok ihfirst]
    exact Run.cons_apply _ ih
  | nestedFails hkind hbelow _ ihfirst =>
    rw [resolveAll_nested hkind hbelow, Run.bind_error ihfirst]
  | unwrapped hkind found _ _ ihfirst ih =>
    rw [resolveAll_childless hkind, Run.bind_ok ((Run.bind_ok found).trans ihfirst)]
    exact Run.cons_apply _ ih
  | unwrappedFails hkind found _ ihfirst =>
    rw [resolveAll_childless hkind, Run.bind_error ((Run.bind_ok found).trans ihfirst)]
  | @plain depth _ _ _ _ _ _ _ _ _ hkind found _ ih =>
    have hsettle := (Run.bind_ok (f := settle o fiat depth) found).trans (by cases depth <;> rfl)
    rw [resolveAll_childless hkind, Run.bind_ok hsettle]
    exact Run.cons_apply _ ih
  | fails hkind found =>
    rw [resolveAll_childless hkind, Run.bind_error (Run.bind_error found)]

/-- The rules describe exactly what resolution does. -/
theorem resolves_iff :
    Resolves o fiat depth us s r s' ↔ resolveAll o fiat depth us s = (r, s') := by
  constructor
  · exact Resolves.run
  · intro h
    obtain ⟨r₁, s₁, hderived⟩ := exists_resolves o fiat depth us s
    obtain ⟨rfl, rfl⟩ := Prod.mk.inj (hderived.run.symm.trans h)
    exact hderived

end Chainfolio.Resolution
