import Chainfolio.Proofs.Resolution.Extension

/-! What a run of resolution asks and is answered. A record is kept beside the state by an oracle that
answers as the original one does, so that a run and the run that is recorded end alike. -/
namespace Chainfolio

variable {τ : Type}

namespace Oracle

/-- Something that happens while amounts are resolved: a token unwraps at a rate, or its price is asked
in some state. -/
inductive Event (τ : Type) where
  | unwrapped (rate : UnwrapRate)
  | asked (token : Token) (before : τ)

/-- The events of a run, the last one first. -/
abbrev Record (τ : Type) := List (Event τ)

/-- Unwraps and notes the rate. -/
def noted (unwrap : Run τ UnwrapRate) : Run (Record τ × τ) UnwrapRate := do
  let rate ← Run.onSecond unwrap
  Run.update fun (record, s) => (.unwrapped rate :: record, s)
  return rate

/-- The oracle that keeps a record of what it is asked. -/
def recorded (o : Oracle τ) : Oracle (Record τ × τ) where
  owner address := do
    return (← Run.onSecond (o.owner address)).map noted
  price token := do
    Run.update fun (record, s) => (.asked token s :: record, s)
    Run.onSecond (o.price token)

/-- Whether an oracle keeps what holds of the state, whatever it is asked. -/
structure Keeps (o : Oracle τ) (Inv : τ → Prop) : Prop where
  owner : ∀ address, (o.owner address).Keeps Inv
  unwrap : ∀ {address s unwrap s'}, o.owner address s = (.ok (some unwrap), s') → unwrap.Keeps Inv
  price : ∀ token, (o.price token).Keeps Inv

variable {o : Oracle τ}

theorem recorded_price_apply (token : Token) (record : Record τ) (s : τ) :
    o.recorded.price token (record, s) =
      ((o.price token s).1, .asked token s :: record, (o.price token s).2) := rfl

theorem noted_eq_ok {unwrap : Run τ UnwrapRate} {rate : UnwrapRate} {t t' : Record τ × τ}
    (h : noted unwrap t = (.ok rate, t')) : .unwrapped rate ∈ t'.1 := by
  obtain ⟨rate', t₁, -, h⟩ := Run.bind_eq_ok_iff.mp h
  cases h
  exact List.mem_cons_self

theorem noted_follows (unwrap : Run τ UnwrapRate) : (noted unwrap).Follows unwrap := by
  intro record s
  rcases h : unwrap s with ⟨e | rate, s'⟩
  · have hrun : Run.onSecond unwrap (record, s) = (.error e, record, s') := by
      rw [Run.onSecond_apply, h]
    exact ⟨record, by rw [noted, Run.bind_error hrun]⟩
  · have hrun : Run.onSecond unwrap (record, s) = (.ok rate, record, s') := by
      rw [Run.onSecond_apply, h]
    exact ⟨.unwrapped rate :: record, by rw [noted, Run.bind_ok hrun]; rfl⟩

theorem recorded_owner_eq_some {address : Address} {unwrap : Run (Record τ × τ) UnwrapRate}
    {t t' : Record τ × τ} (h : o.recorded.owner address t = (.ok (some unwrap), t')) :
    ∃ unwrap₀, o.owner address t.2 = (.ok (some unwrap₀), t'.2) ∧ unwrap = noted unwrap₀ := by
  obtain ⟨owner, t₁, howner, h⟩ := Run.bind_eq_ok_iff.mp h
  cases owner with
  | none => cases h
  | some unwrap₀ =>
    cases h
    obtain ⟨hanswer, rfl⟩ := Prod.mk.inj howner
    exact ⟨unwrap₀, Prod.ext hanswer rfl, rfl⟩

/-- An event stays in the record. -/
theorem recorded_keeps_mem (o : Oracle τ) (event : Event τ) :
    o.recorded.Keeps fun t => event ∈ t.1 where
  owner _ := (Run.keeps_onSecond fun _ _ h => h).bind fun _ _ _ _ => Run.keeps_pure _
  unwrap h := by
    obtain ⟨unwrap₀, -, rfl⟩ := recorded_owner_eq_some h
    exact (Run.keeps_onSecond fun _ _ h => h).bind fun _ _ _ _ _ hmem => List.mem_cons_of_mem _ hmem
  price _ _ hmem := List.mem_cons_of_mem _ hmem

/-- What an oracle keeps holds in each state in which a price is asked. -/
theorem Keeps.recorded {Inv : τ → Prop} (ho : o.Keeps Inv) :
    o.recorded.Keeps fun t =>
      (∀ token before, .asked token before ∈ t.1 → Inv before) ∧ Inv t.2 where
  owner address :=
    (Run.keeps_onSecond fun _ s h => ⟨h.1, ho.owner address s h.2⟩).bind
      fun _ _ _ _ => Run.keeps_pure _
  unwrap h := by
    obtain ⟨unwrap₀, howner, rfl⟩ := recorded_owner_eq_some h
    refine Run.Keeps.bind (Run.keeps_onSecond fun _ s h => ⟨h.1, ho.unwrap howner s h.2⟩) ?_
    rintro - rate - - t ⟨hasked, hinv⟩
    refine ⟨fun token before hmem => hasked token before ?_, hinv⟩
    exact (List.mem_cons.mp hmem).resolve_left (by simp)
  price token := by
    rintro t ⟨hasked, hinv⟩
    refine ⟨fun token' before hmem => ?_, ho.price token t.2 hinv⟩
    rcases List.mem_cons.mp hmem with h | hmem
    · cases h
      exact hinv
    · exact hasked token' before hmem

theorem PricesAreLeaves.recorded (ho : o.PricesAreLeaves) : o.recorded.PricesAreLeaves := by
  intro token t price t' h
  obtain ⟨hanswer, -⟩ := Prod.mk.inj h
  exact ho token t.2 price (o.price token t.2).2 (Prod.ext hanswer rfl)

end Oracle

namespace Resolution

variable {o : Oracle τ} {fiat : Bool} {depth : Nat} {us : List Underlying} {s s' : τ}
  {r : Except Fault (List Underlying)}

theorem priceLeaf_keeps {Inv : τ → Prop} (ho : o.Keeps Inv) (fiat : Bool) (token : Token) :
    (priceLeaf o fiat token).Keeps Inv := by
  cases fiat with
  | false => exact Run.keeps_pure _
  | true => exact (ho.price token).bind fun _ _ _ _ => Run.keeps_pure _

theorem finding_keeps {Inv : τ → Prop} (ho : o.Keeps Inv) (fiat : Bool) (depth : Nat) (token : Token)
    (balance : Word) : (finding o fiat depth token balance).Keeps Inv := by
  have hprice := priceLeaf_keeps ho fiat token
  refine (ho.owner token.address).bind fun s owner s' howner => ?_
  cases owner with
  | none => exact hprice.bind fun _ _ _ _ => Run.keeps_pure _
  | some unwrap =>
    cases depth with
    | zero => exact hprice.bind fun _ _ _ _ => Run.keeps_pure _
    | succ depth =>
      refine (ho.unwrap howner).bind fun _ rate _ _ => ?_
      exact (Run.keeps_ofExcept _).bind fun _ _ _ _ => Run.keeps_pure _

/-- A run keeps what each answer keeps. -/
theorem Resolves.keeps {Inv : τ → Prop} (ho : o.Keeps Inv) (h : Resolves o fiat depth us s r s') :
    Inv s → Inv s' := by
  induction h with
  | nil => exact id
  | price _ ih => exact ih
  | nested _ _ _ _ ihfirst ih => exact ih ∘ ihfirst
  | nestedFails _ _ _ ihfirst => exact ihfirst
  | unwrapped _ found _ _ ihfirst ih =>
    exact fun hs => ih (ihfirst ((finding_keeps ho _ _ _ _).of_apply found hs))
  | unwrappedFails _ found _ ihfirst =>
    exact fun hs => ihfirst ((finding_keeps ho _ _ _ _).of_apply found hs)
  | plain _ found _ ih => exact fun hs => ih ((finding_keeps ho _ _ _ _).of_apply found hs)
  | fails _ found => exact (finding_keeps ho _ _ _ _).of_apply found

theorem resolve_keeps {Inv : τ → Prop} (ho : o.Keeps Inv) (options : Options)
    (us : List Underlying) : (resolve o options us).Keeps Inv := by
  intro s hs
  obtain ⟨r, s', h⟩ := exists_resolves o options.fiatPrices options.depth us s
  rw [resolve, h.run]
  exact h.keeps ho hs

theorem positions_keeps {Inv : τ → Prop} (ho : o.Keeps Inv) (options : Options)
    (ps : List Position) : (positions o options ps).Keeps Inv := by
  refine Run.keeps_forEach (fun p => ?_) ps
  exact (resolve_keeps ho options p.tokens).bind fun _ _ _ _ => Run.keeps_pure _

/-! ### The recorded run -/

theorem priceLeaf_recorded (o : Oracle τ) (fiat : Bool) (token : Token) :
    (priceLeaf o.recorded fiat token).Follows (priceLeaf o fiat token) := by
  cases fiat with
  | false => exact Run.follows_pure _
  | true =>
    refine Run.Follows.bind (fun record s => ?_) fun _ => Run.follows_pure _
    exact ⟨_, Oracle.recorded_price_apply token record s⟩

theorem finding_recorded (o : Oracle τ) (fiat : Bool) (depth : Nat) (token : Token) (balance : Word) :
    (finding o.recorded fiat depth token balance).Follows (finding o fiat depth token balance) := by
  have hprice := (priceLeaf_recorded o fiat token).bind fun leaf =>
    Run.follows_pure (Finding.price leaf)
  simp only [finding, Oracle.recorded, bind_assoc, pure_bind]
  refine (Run.follows_onSecond _).bind fun owner => ?_
  cases owner with
  | none => exact hprice
  | some unwrap =>
    cases depth with
    | zero => exact hprice
    | succ depth =>
      refine (Oracle.noted_follows unwrap).bind fun rate => ?_
      exact (Run.follows_ofExcept _).bind fun _ => Run.follows_pure _

/-- Every derivation is one of the recorded run too. -/
theorem Resolves.recorded (h : Resolves o fiat depth us s r s') (record : Oracle.Record τ) :
    ∃ record', Resolves o.recorded fiat depth us (record, s) r (record', s') := by
  induction h generalizing record with
  | nil => exact ⟨record, .nil⟩
  | price _ ih =>
    obtain ⟨record', hrest⟩ := ih record
    exact ⟨record', .price hrest⟩
  | nested hkind hbelow _ _ ihfirst ih =>
    obtain ⟨record₁, hfirst⟩ := ihfirst record
    obtain ⟨record', hrest⟩ := ih record₁
    exact ⟨record', .nested hkind hbelow hfirst hrest⟩
  | nestedFails hkind hbelow _ ihfirst =>
    obtain ⟨record', hfirst⟩ := ihfirst record
    exact ⟨record', .nestedFails hkind hbelow hfirst⟩
  | unwrapped hkind found _ _ ihfirst ih =>
    obtain ⟨record₁, hfound⟩ := (finding_recorded _ _ _ _ _).of_apply found record
    obtain ⟨record₂, hfirst⟩ := ihfirst record₁
    obtain ⟨record', hrest⟩ := ih record₂
    exact ⟨record', .unwrapped hkind hfound hfirst hrest⟩
  | unwrappedFails hkind found _ ihfirst =>
    obtain ⟨record₁, hfound⟩ := (finding_recorded _ _ _ _ _).of_apply found record
    obtain ⟨record', hfirst⟩ := ihfirst record₁
    exact ⟨record', .unwrappedFails hkind hfound hfirst⟩
  | plain hkind found _ ih =>
    obtain ⟨record₁, hfound⟩ := (finding_recorded _ _ _ _ _).of_apply found record
    obtain ⟨record', hrest⟩ := ih record₁
    exact ⟨record', .plain hkind hfound hrest⟩
  | fails hkind found =>
    obtain ⟨record', hfound⟩ := (finding_recorded _ _ _ _ _).of_apply found record
    exact ⟨record', .fails hkind hfound⟩

theorem resolve_recorded (o : Oracle τ) (options : Options) (us : List Underlying) :
    (resolve o.recorded options us).Follows (resolve o options us) := by
  intro record s
  obtain ⟨r, s', h⟩ := exists_resolves o options.fiatPrices options.depth us s
  obtain ⟨record', hrecorded⟩ := h.recorded record
  exact ⟨record', by rw [resolve, resolve, h.run, hrecorded.run]⟩

theorem positions_recorded (o : Oracle τ) (options : Options) (ps : List Position) :
    (positions o.recorded options ps).Follows (positions o options ps) := by
  refine Run.follows_forEach (fun p => ?_) ps
  exact (resolve_recorded o options p.tokens).bind fun _ => Run.follows_pure _

/-- What is asked and answered while positions are resolved. -/
def record (o : Oracle τ) (options : Options) (ps : List Position) (s : τ) : Oracle.Record τ :=
  (positions o.recorded options ps ([], s)).2.1

theorem positions_record {options : Options} {ps resolved : List Position}
    (h : positions o options ps s = (.ok resolved, s')) :
    positions o.recorded options ps ([], s) = (.ok resolved, record o options ps s, s') := by
  obtain ⟨record', hrecorded⟩ := (positions_recorded o options ps).of_apply h []
  rw [record, hrecorded]

end Resolution

end Chainfolio
