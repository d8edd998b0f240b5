import Mathlib.Data.List.Nodup
import Mathlib.Data.List.Sort
import Chainfolio.Registry.Index

/-! The adapters of a registry. Each key has one of them, registering adds an adapter to those of its
chain alone, and the order in which adapters were registered leaves no trace. -/
namespace Chainfolio.Registry

variable {σ : Type} {r r' : Registry σ} {a b : Adapter σ} {chain : Chain}

theorem nodup_keys_of_ascending {adapters : List (Adapter σ)}
    (h : adapters.Pairwise fun a b => a.key.Before b.key) : (adapters.map Adapter.key).Nodup := by
  apply List.pairwise_map.mpr
  apply h.imp
  intro a b hbefore heq
  exact ProductKey.before_irrefl _ (heq ▸ hbefore)

theorem nodup_keys (r : Registry σ) : (r.adapters.map Adapter.key).Nodup :=
  nodup_keys_of_ascending r.ordered

theorem eq_of_key_eq (r : Registry σ) (ha : a ∈ r.adapters) (hb : b ∈ r.adapters)
    (h : a.key = b.key) : a = b := List.inj_on_of_nodup_map r.nodup_keys ha hb h

theorem insertAdapter_perm (a : Adapter σ) (adapters : List (Adapter σ)) :
    (insertAdapter a adapters).Perm (a :: adapters) := by
  induction adapters with
  | nil => exact .refl _
  | cons b rest ih =>
    by_cases h : a.key.Before b.key
    · rw [insertAdapter, if_pos h]
    · rw [insertAdapter, if_neg h]
      exact (ih.cons b).trans (.swap a b rest)

theorem filter_insertAdapter {p : Adapter σ → Bool} (h : p a = false)
    (adapters : List (Adapter σ)) : (insertAdapter a adapters).filter p = adapters.filter p := by
  induction adapters with
  | nil => simp [insertAdapter, h]
  | cons b rest ih =>
    by_cases hb : a.key.Before b.key
    · simp [insertAdapter, hb, h]
    · simp only [insertAdapter, hb, if_false, List.filter_cons, ih]

/-- An adapter that is registered is added, and the index of its chain is forgotten. -/
theorem register_eq_ok (h : r.register a = .ok r') :
    r'.adapters = insertAdapter a r.adapters ∧
      ∀ c, r'.indexes c = if c = a.key.chain then none else r.indexes c := by
  unfold register at h
  split at h
  · cases h
    exact ⟨rfl, fun _ => rfl⟩
  · cases h

theorem adaptersFor_register (h : r.register a = .ok r') (hne : a.key.chain ≠ chain) :
    r'.adaptersFor chain = r.adaptersFor chain := by
  rw [adaptersFor, (register_eq_ok h).1, adaptersFor]
  exact filter_insertAdapter (by simpa using hne) r.adapters

/-- Adapters in the order of their keys leave no trace of the order that they came in. -/
theorem eq_of_ascending_of_perm {adapters adapters' : List (Adapter σ)} (h : adapters.Perm adapters')
    (hordered : adapters.Pairwise fun a b => a.key.Before b.key)
    (hordered' : adapters'.Pairwise fun a b => a.key.Before b.key) : adapters = adapters' := by
  refine h.eq_of_pairwise (fun a b _ _ hab hba => ?_) hordered hordered'
  exact absurd (ProductKey.before_trans hab hba) (ProductKey.before_irrefl _)

theorem adaptersFor_eq_of_perm (h : (r.adaptersFor chain).Perm (r'.adaptersFor chain)) :
    r.adaptersFor chain = r'.adaptersFor chain :=
  eq_of_ascending_of_perm h (r.ordered.filter _) (r'.ordered.filter _)

/-- The index of a chain is built from the adapters of that chain and nothing else. -/
theorem buildIndex_congr (h : r.adaptersFor chain = r'.adaptersFor chain) :
    r.buildIndex chain = r'.buildIndex chain := by
  rw [buildIndex, buildIndex, unwrapping, unwrapping, h]

end Chainfolio.Registry
