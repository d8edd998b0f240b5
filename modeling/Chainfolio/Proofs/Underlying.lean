import Chainfolio.Position

/-! Lists of amounts as forests: what holds of the amounts below the first one and of the rest holds of
the whole list. -/
namespace Chainfolio.Underlying

/-- Induction over a forest, amount by amount and level by level. -/
theorem forest_induction {P : List Underlying → Prop} (nil : P [])
    (cons : ∀ token balance kind below rest, P below → P rest →
      P (⟨token, balance, kind, below⟩ :: rest)) : ∀ us, P us
  | [] => nil
  | ⟨token, balance, kind, below⟩ :: rest =>
    cons token balance kind below rest (forest_induction nil cons below)
      (forest_induction nil cons rest)

end Chainfolio.Underlying
