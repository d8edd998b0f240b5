import Chainfolio.Proofs.Registry.Adapters
import Chainfolio.Proofs.Registry.Index

/-! What a registry answers from an index that is built anew: the adapter of the chain that takes part in
unwrapping and has listed the address, unless two such adapters have listed the same one. -/
namespace Chainfolio.Registry

variable {σ : Type} {r : Registry σ} {chain : Chain} {address : Address} {world : σ} {a : Adapter σ}

/-- The answer of an index that is built in a world. -/
def answer (r : Registry σ) (chain : Chain) (address : Address) (world : σ) :
    Except Fault (Option (Adapter σ)) :=
  (r.buildIndex chain world).1.map (·.owner? address)

theorem mem_unwrapping_of_lists (h : (r.listed chain world).Lists a address) :
    a ∈ r.adaptersFor chain ∧ a.settings.includeInUnwrap = true := by
  obtain ⟨tokens, hmem, -⟩ := h
  simpa [unwrapping] using mem_of_mem_outcomes hmem

theorem listed_key_inj {a b : Adapter σ} {tokens others : Except Fault (List ProtocolToken)}
    (ha : (a, tokens) ∈ r.listed chain world) (hb : (b, others) ∈ r.listed chain world)
    (h : a.key = b.key) : a = b := by
  have hmem {c : Adapter σ} {listing : Except Fault (List ProtocolToken)}
      (hc : (c, listing) ∈ r.listed chain world) : c ∈ r.adapters :=
    List.mem_of_mem_filter (List.mem_of_mem_filter (mem_of_mem_outcomes hc))
  exact r.eq_of_key_eq (hmem ha) (hmem hb) h

/-- Without a clash the adapter that has listed an address is found. -/
theorem answer_eq_some_iff :
    r.answer chain address world = .ok (some a) ↔
      (∀ common b c, ¬ (r.listed chain world).Clash common b c) ∧
        (r.listed chain world).Lists a address := by
  rw [answer, buildIndex_fst]
  cases h : TokenIndex.insertListings chain [] (r.listed chain world) with
  | error fault =>
    obtain ⟨common, b, c, hclash, -⟩ := TokenIndex.insertListings_eq_error h
    simp only [Except.map, reduceCtorEq, false_iff, not_and]
    exact fun hnone => absurd hclash (hnone common b c)
  | ok index =>
    have hnone := TokenIndex.not_clash_of_insertListings listed_key_inj h
    simp only [Except.map, Except.ok.injEq, TokenIndex.owner?_eq_some_iff listed_key_inj h]
    exact (and_iff_right hnone).symm

/-- A build fails only for a clash, which it reports. -/
theorem answer_eq_error {fault : Fault} (h : r.answer chain address world = .error fault) :
    ∃ common b c, (r.listed chain world).Clash common b c ∧
      fault = .duplicateProtocolToken chain common b.key.label c.key.label := by
  rw [answer, buildIndex_fst] at h
  cases hbuilt : TokenIndex.insertListings chain [] (r.listed chain world) with
  | error fault' =>
    rw [hbuilt] at h
    cases h
    exact TokenIndex.insertListings_eq_error hbuilt
  | ok index =>
    rw [hbuilt] at h
    cases h

/-- Any clash makes a build fail. -/
theorem exists_answer_eq_error {common : Address} {b c : Adapter σ}
    (h : (r.listed chain world).Clash common b c) :
    ∃ fault, r.answer chain address world = .error fault := by
  rw [answer, buildIndex_fst]
  cases hbuilt : TokenIndex.insertListings chain [] (r.listed chain world) with
  | error fault => exact ⟨fault, rfl⟩
  | ok index =>
    exact absurd h (TokenIndex.not_clash_of_insertListings listed_key_inj hbuilt common b c)

end Chainfolio.Registry
