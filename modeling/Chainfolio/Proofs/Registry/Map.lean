import Mathlib.Data.Set.Card
import Chainfolio.Proofs.Registry.History

/-! The registry as a finite map from product keys to adapters. After any run it holds, under each key,
the adapter that came first, and all of its enumerations are views of this map. -/
namespace Chainfolio.Registry

variable {σ : Type} {r r' : Registry σ} {a b : Adapter σ} {key : ProductKey}

/-- The first adapter of a key. -/
def firstOf (adapters : List (Adapter σ)) (key : ProductKey) : Option (Adapter σ) :=
  adapters.find? fun a => a.key = key

/-- Whether adapters are listed by ascending key, those that are meant and no others. -/
structure Enumerates (adapters : List (Adapter σ)) (Meant : Adapter σ → Prop) : Prop where
  ascending : adapters.Pairwise fun a b => a.key.Before b.key
  mem_iff : ∀ a, a ∈ adapters ↔ Meant a

/-- Whether a registry shows a map from keys to adapters. -/
structure Shows (r : Registry σ) (held : ProductKey → Option (Adapter σ)) : Prop where
  register_ok_iff : ∀ a, (∃ r', r.register a = .ok r') ↔ held a.key = none
  register_error_iff : ∀ a fault, r.register a = .error fault ↔
    held a.key ≠ none ∧ fault = .duplicateAdapter a.key.chain a.key.protocol a.key.product
  adapter : ∀ key, r.adapter key =
    match held key with
    | some a => .ok a
    | none => .error (.adapterNotFound key.chain key.protocol key.product)
  adapters : Enumerates r.adapters fun a => held a.key = some a
  adaptersFor : ∀ chain, Enumerates (r.adaptersFor chain) fun a =>
    held a.key = some a ∧ a.key.chain = chain
  products : ∀ chain protocol, Enumerates (r.products chain protocol) fun a =>
    held a.key = some a ∧ a.key.chain = chain ∧ a.key.protocol = protocol
  protocols_ascending : r.protocols.Pairwise fun p q => p.rank < q.rank
  mem_protocols : ∀ p, p ∈ r.protocols ↔ ∃ key, (held key).isSome ∧ key.protocol = p
  chains_ascending : r.chains.Pairwise fun c d => c.rank < d.rank
  mem_chains : ∀ c, c ∈ r.chains ↔ ∃ key, (held key).isSome ∧ key.chain = c
  size : r.size = {key | (held key).isSome}.ncard

/-! ### Lists of adapters -/

theorem firstOf_eq_some_iff {adapters : List (Adapter σ)} (h : (adapters.map Adapter.key).Nodup) :
    firstOf adapters key = some a ↔ a ∈ adapters ∧ a.key = key := by
  constructor
  · intro hfirst
    exact ⟨List.mem_of_find?_eq_some hfirst, by simpa using List.find?_some hfirst⟩
  · rintro ⟨hmem, rfl⟩
    cases hfirst : firstOf adapters a.key with
    | none => simpa using List.find?_eq_none.mp hfirst a hmem
    | some b =>
      have hkey : b.key = a.key := by simpa using List.find?_some hfirst
      rw [List.inj_on_of_nodup_map h (List.mem_of_find?_eq_some hfirst) hmem hkey]

/-- Where all keys are different, the order of adapters makes no difference. -/
theorem firstOf_perm {adapters adapters' : List (Adapter σ)} (h : (adapters.map Adapter.key).Nodup)
    (hperm : adapters'.Perm adapters) : firstOf adapters' = firstOf adapters := by
  funext key
  ext a
  rw [firstOf_eq_some_iff h, firstOf_eq_some_iff ((hperm.map _).nodup_iff.mpr h), hperm.mem_iff]

theorem Enumerates.eq {adapters adapters' : List (Adapter σ)} {Meant : Adapter σ → Prop}
    (h : Enumerates adapters Meant) (h' : Enumerates adapters' Meant) : adapters = adapters' := by
  have hnodup := (nodup_keys_of_ascending h.ascending).of_map
  have hnodup' := (nodup_keys_of_ascending h'.ascending).of_map
  have hperm : adapters.Perm adapters' :=
    (List.perm_ext_iff_of_nodup hnodup hnodup').mpr fun a =>
      (h.mem_iff a).trans (h'.mem_iff a).symm
  exact eq_of_ascending_of_perm hperm h.ascending h'.ascending

/-! ### One registry -/

theorem find?_eq_some_iff (r : Registry σ) :
    r.find? key = some a ↔ a ∈ r.adapters ∧ a.key = key := firstOf_eq_some_iff r.nodup_keys

theorem find?_eq_none_iff (r : Registry σ) :
    r.find? key = none ↔ ∀ b ∈ r.adapters, b.key ≠ key := by
  simp [find?]

theorem isSome_find?_iff (r : Registry σ) :
    (r.find? key).isSome ↔ ∃ a ∈ r.adapters, a.key = key := by
  simp [find?]

/-- An adapter is refused exactly when its key is taken. -/
theorem register_of_free (h : r.find? a.key = none) : ∃ r', r.register a = .ok r' := by
  rw [register, dif_pos (r.find?_eq_none_iff.mp h)]
  exact ⟨_, rfl⟩

theorem register_of_taken (h : r.find? a.key ≠ none) :
    r.register a = .error (.duplicateAdapter a.key.chain a.key.protocol a.key.product) := by
  rw [register, dif_neg (mt r.find?_eq_none_iff.mpr h)]

theorem find?_of_register (h : r.register a = .ok r') : r.find? a.key = none := by
  by_contra htaken
  rw [register_of_taken htaken] at h
  cases h

/-- A registered adapter is found under its key, and all others stay where they were. -/
theorem find?_register (h : r.register a = .ok r') (key : ProductKey) :
    r'.find? key = (r.find? key).or (firstOf [a] key) := by
  have hmem : ∀ b, b ∈ r'.adapters ↔ b = a ∨ b ∈ r.adapters := fun b => by
    rw [(register_eq_ok h).1, mem_insertAdapter]
  by_cases hkey : a.key = key
  · subst hkey
    rw [find?_of_register h, Option.none_or, r'.find?_eq_some_iff.mpr ⟨(hmem a).mpr (.inl rfl), rfl⟩]
    simp [firstOf]
  · have hfirst : firstOf [a] key = none := by simp [firstOf, hkey]
    rw [hfirst, Option.or_none]
    ext b
    rw [find?_eq_some_iff, find?_eq_some_iff, hmem]
    constructor
    · rintro ⟨rfl | hb, hb'⟩
      · exact absurd hb' hkey
      · exact ⟨hb, hb'⟩
    · rintro ⟨hb, hb'⟩
      exact ⟨.inr hb, hb'⟩

theorem mem_adapters_iff (r : Registry σ) : a ∈ r.adapters ↔ r.find? a.key = some a := by
  rw [find?_eq_some_iff]
  exact (and_iff_left rfl).symm

/-- Every registry shows the map that its adapters make up. -/
theorem shows_find? (r : Registry σ) : r.Shows r.find? where
  register_ok_iff a := by
    constructor
    · rintro ⟨r', h⟩
      exact find?_of_register h
    · exact register_of_free
  register_error_iff a fault := by
    constructor
    · intro h
      have htaken : r.find? a.key ≠ none := by
        intro hfree
        obtain ⟨r', h'⟩ := register_of_free hfree
        cases h.symm.trans h'
      rw [register_of_taken htaken] at h
      cases h
      exact ⟨htaken, rfl⟩
    · rintro ⟨htaken, rfl⟩
      exact register_of_taken htaken
  adapter key := by
    unfold Registry.adapter
    cases r.find? key <;> rfl
  adapters := ⟨r.ordered, fun _ => r.mem_adapters_iff⟩
  adaptersFor chain := ⟨r.ordered.filter _, fun a => by
    simp [Registry.adaptersFor, r.mem_adapters_iff]⟩
  products chain protocol := ⟨(r.ordered.filter _).filter _, fun a => by
    simp only [Registry.products, Registry.adaptersFor, List.mem_filter, decide_eq_true_eq,
      r.mem_adapters_iff, and_assoc]⟩
  protocols_ascending := List.Pairwise.filter _ (by decide)
  mem_protocols p := by
    simp [Registry.protocols, Protocol.mem_all, isSome_find?_iff]
  chains_ascending := List.Pairwise.filter _ (by decide)
  mem_chains c := by
    simp [Registry.chains, Chain.mem_all, isSome_find?_iff]
  size := by
    have hkeys : {key | (r.find? key).isSome} = ↑(r.adapters.map Adapter.key).toFinset := by
      ext key
      simp [isSome_find?_iff]
    rw [hkeys, Set.ncard_coe_finset, List.toFinset_card_of_nodup r.nodup_keys, List.length_map]
    rfl

/-! ### Runs -/

/-- The adapter that a step tries to register. -/
def Step.attempt? : Step σ → Option (Adapter σ)
  | register a => some a
  | _ => none

/-- The adapters that some steps try to register, in order. -/
def attempts (steps : List (Step σ)) : List (Adapter σ) := steps.filterMap Step.attempt?

variable {x : Step σ} {t t' : Registry σ × σ}

/-- A step keeps every adapter in its place; what it registers is found under a free key only. -/
theorem Step.Effect.find? (h : x.Effect t t') (key : ProductKey) :
    t'.1.find? key = (t.1.find? key).or (firstOf x.attempt?.toList key) := by
  cases h with
  | registers accepted => exact find?_register accepted key
  | @refuses a r s fault refused =>
    by_cases hkey : a.key = key
    · subst hkey
      cases hfind : r.find? a.key with
      | none =>
        obtain ⟨r', accepted⟩ := register_of_free hfind
        cases refused.symm.trans accepted
      | some b => rfl
    · have hfirst : firstOf [a] key = none := by simp [firstOf, hkey]
      exact (hfirst ▸ Option.or_none).symm
  | remembers | builds | fails | changes => exact Option.or_none.symm

theorem after_find? (steps : List (Step σ)) (t : Registry σ × σ) (key : ProductKey) :
    (after steps t).1.find? key = (t.1.find? key).or (firstOf (attempts steps) key) := by
  -- What is held already goes before what the rest of the run tries to register.
  induction steps generalizing t with
  | nil => exact Option.or_none.symm
  | cons x steps ih =>
    have hattempts : attempts (x :: steps) = x.attempt?.toList ++ attempts steps := by
      cases h : x.attempt? <;> simp [attempts, h]
    rw [after, ih, (x.effect t).find? key, Option.or_assoc, hattempts, firstOf, firstOf, firstOf,
      List.find?_append]

/-- Whether two registries list the same adapters, protocols and chains in the same order. -/
structure SameViews (r r' : Registry σ) : Prop where
  adapters : r.adapters = r'.adapters
  adaptersFor : ∀ chain, r.adaptersFor chain = r'.adaptersFor chain
  products : ∀ chain protocol, r.products chain protocol = r'.products chain protocol
  protocols : r.protocols = r'.protocols
  chains : r.chains = r'.chains
  size : r.size = r'.size

/-- Registries that show the same map list the same. -/
theorem Shows.sameViews {held : ProductKey → Option (Adapter σ)} (h : r.Shows held)
    (h' : r'.Shows held) : r.SameViews r' := by
  have hadapters : r.adapters = r'.adapters := h.adapters.eq h'.adapters
  constructor <;>
    simp only [Registry.adaptersFor, Registry.products, Registry.protocols, Registry.chains,
      Registry.size, hadapters, implies_true]

theorem after_shows (providers : Chain → Option (Provider σ)) (s : σ) (steps : List (Step σ)) :
    (after steps (empty providers, s)).1.Shows (firstOf (attempts steps)) := by
  have hfind : (after steps (empty providers, s)).1.find? = firstOf (attempts steps) :=
    funext fun key => after_find? steps (empty providers, s) key
  exact hfind ▸ shows_find? _

/-- The registry over whole runs, from an empty one on. What it shows is the map that holds, under each
key, the adapter that was the first to be registered under it; a registration under a taken key fails
and leaves all as it was; and the order in which adapters of different keys come makes no difference. -/
theorem registry_shows_first (providers : Chain → Option (Provider σ)) (s : σ)
    (steps : List (Step σ)) :
    let now := after steps (empty providers, s)
    now.1.Shows (firstOf (attempts steps)) ∧
    (∀ a, firstOf (attempts steps) a.key ≠ none →
      (Step.register a).run now =
        (.error (.duplicateAdapter a.key.chain a.key.protocol a.key.product), now)) ∧
    ∀ (providers' : Chain → Option (Provider σ)) (s' : σ) (steps' : List (Step σ)),
      ((attempts steps).map Adapter.key).Nodup → (attempts steps').Perm (attempts steps) →
        (after steps' (empty providers', s')).1.SameViews now.1 := by
  intro now
  have hshows : now.1.Shows (firstOf (attempts steps)) := after_shows providers s steps
  refine ⟨hshows, fun a htaken => ?_, fun providers' s' steps' hnodup hperm => ?_⟩
  · exact Step.run_register_refused ((hshows.register_error_iff a _).mpr ⟨htaken, rfl⟩)
  · have hshows' := after_shows providers' s' steps'
    rw [firstOf_perm hnodup hperm] at hshows'
    exact hshows'.sameViews hshows

/-- Two products that are registered in either order, with a second try for one of them. -/
theorem registry_shows_first_two_products :
    let product (key : ProductKey) : Adapter Nat := Script.adapter { key := key } ⟨id, fun n _ => n⟩
    let pool := product ⟨.base, .aaveV3, "a-token"⟩
    let staked := product ⟨.ethereum, .lido, "st-eth"⟩
    let steps : List (Step Nat) := [.register pool, .tokenAdapter .base ⟨0xA⟩, .register staked]
    let steps' : List (Step Nat) := [.register staked, .register pool]
    let now := after steps (empty (fun _ => none), 0)
    now.1.Shows (firstOf [pool, staked]) ∧
      (Step.register pool).run now = (.error (.duplicateAdapter .base .aaveV3 "a-token"), now) ∧
      (after steps' (empty (fun _ => none), 1)).1.SameViews now.1 := by
  intro product pool staked steps steps' now
  obtain ⟨hshows, hrefused, hreorder⟩ := registry_shows_first (fun _ => none) 0 steps
  have htaken : firstOf (attempts steps) pool.key ≠ none := by
    intro hfree
    cases hfree
  have hnodup : ((attempts steps).map Adapter.key).Nodup := by decide
  have hperm : (attempts steps').Perm (attempts steps) := .swap pool staked []
  exact ⟨hshows, hrefused pool htaken, hreorder _ _ steps' hnodup hperm⟩

end Chainfolio.Registry
