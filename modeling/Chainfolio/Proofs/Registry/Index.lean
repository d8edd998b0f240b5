import Chainfolio.Proofs.Run
import Chainfolio.Registry.Index

/-! What an index of protocol tokens answers. It is built exactly when no two adapters have listed the
same address, and then it finds for each address the adapter that has listed it. -/
namespace Chainfolio

variable {σ : Type}

/-- What adapters answered when they were asked for their protocol tokens. -/
abbrev Listings (σ : Type) := List (Adapter σ × Except Fault (List ProtocolToken))

namespace Listings

/-- Whether an adapter has listed an address. -/
def Lists (listed : Listings σ) (a : Adapter σ) (address : Address) : Prop :=
  ∃ tokens, (a, .ok tokens) ∈ listed ∧ ∃ t ∈ tokens, t.token.address = address

/-- Whether two different adapters have listed an address. -/
def Clash (listed : Listings σ) (address : Address) (a b : Adapter σ) : Prop :=
  a ≠ b ∧ listed.Lists a address ∧ listed.Lists b address

/-- The listed addresses, each with the adapter that has listed it. -/
def entries : Listings σ → TokenIndex σ
  | [] => []
  | (_, .error _) :: rest => entries rest
  | (a, .ok tokens) :: rest => tokens.map (fun t => (t.token.address, a)) ++ entries rest

theorem mem_entries {listed : Listings σ} {a : Adapter σ} {address : Address} :
    (address, a) ∈ listed.entries ↔ listed.Lists a address := by
  induction listed with
  | nil => simp [entries, Lists]
  | cons first rest ih =>
    rcases first with ⟨b, e | tokens⟩
    · simp only [entries, ih, Lists, List.mem_cons, Prod.mk.injEq, reduceCtorEq, and_false, false_or]
    · simp only [entries, List.mem_append, ih, List.mem_map, Prod.mk.injEq, Lists, List.mem_cons,
        Except.ok.injEq]
      constructor
      · rintro (⟨t, ht, haddress, rfl⟩ | ⟨others, hothers, hlisted⟩)
        · exact ⟨tokens, .inl ⟨rfl, rfl⟩, t, ht, haddress⟩
        · exact ⟨others, .inr hothers, hlisted⟩
      · rintro ⟨others, ⟨rfl, rfl⟩ | hothers, hlisted⟩
        · obtain ⟨t, ht, haddress⟩ := hlisted
          exact .inl ⟨t, ht, haddress, rfl⟩
        · exact .inr ⟨others, hothers, hlisted⟩

end Listings

namespace TokenIndex

variable {chain : Chain} {index index' : TokenIndex σ} {address : Address} {a o : Adapter σ}

@[simp] theorem owner?_nil (address : Address) : owner? ([] : TokenIndex σ) address = none := rfl

theorem owner?_cons (entry : Address × Adapter σ) (index : TokenIndex σ) (address : Address) :
    owner? (entry :: index) address =
      if entry.1 = address then some entry.2 else index.owner? address := by
  by_cases h : entry.1 = address <;> simp [owner?, h]

/-- Adds entries in order. -/
def insertEntries (chain : Chain) : TokenIndex σ → TokenIndex σ → Except Fault (TokenIndex σ)
  | index, [] => .ok index
  | index, (address, a) :: rest => do insertEntries chain (← insert chain a index address) rest

theorem insertEntries_append (chain : Chain) (index first rest : TokenIndex σ) :
    insertEntries chain index (first ++ rest) =
      insertEntries chain index first >>= (insertEntries chain · rest) := by
  induction first generalizing index with
  | nil => rfl
  | cons entry first ih => simp only [List.cons_append, insertEntries, ih, bind_assoc]

theorem insertAll_eq (chain : Chain) (a : Adapter σ) (index : TokenIndex σ)
    (tokens : List ProtocolToken) :
    insertAll chain a index tokens =
      insertEntries chain index (tokens.map fun t => (t.token.address, a)) := by
  induction tokens generalizing index with
  | nil => rfl
  | cons t tokens ih => simp only [insertAll, List.map_cons, insertEntries, ih]

theorem insertListings_eq (chain : Chain) (index : TokenIndex σ) (listed : Listings σ) :
    insertListings chain index listed = insertEntries chain index listed.entries := by
  induction listed generalizing index with
  | nil => rfl
  | cons first rest ih =>
    rcases first with ⟨b, e | tokens⟩
    · simp only [insertListings, Listings.entries, ih]
    · simp only [insertListings, Listings.entries, insertEntries_append, insertAll_eq, ih]

/-- What an index answers after it has taken in some entries: what it answered before, and for each
entry an adapter with the key of the entry's. -/
structure Takes (index entries index' : TokenIndex σ) : Prop where
  kept : ∀ address o, index.owner? address = some o → index'.owner? address = some o
  taken : ∀ address a, (address, a) ∈ entries → ∃ o, index'.owner? address = some o ∧ o.key = a.key
  sound : ∀ address o, index'.owner? address = some o →
    index.owner? address = some o ∨ (address, o) ∈ entries

theorem takes_of_insert (h : insert chain a index address = .ok index') :
    Takes index [(address, a)] index' := by
  unfold insert at h
  split at h
  · next hfree =>
    cases h
    refine ⟨fun x o ho => ?_, fun x b hmem => ?_, fun x o ho => ?_⟩
    · have hne : address ≠ x := by
        rintro rfl
        rw [hfree] at ho
        cases ho
      rw [owner?_cons, if_neg hne, ho]
    · obtain ⟨rfl, rfl⟩ : x = address ∧ b = a := by simpa using hmem
      exact ⟨b, by rw [owner?_cons, if_pos rfl], rfl⟩
    · rw [owner?_cons] at ho
      split at ho
      · next hx =>
        cases ho
        exact .inr (by simp [← hx])
      · exact .inl ho
  · next owner howner =>
    split at h
    · next hkey =>
      cases h
      refine ⟨fun _ _ ho => ho, fun x b hmem => ?_, fun _ _ ho => .inl ho⟩
      obtain ⟨rfl, rfl⟩ : x = address ∧ b = a := by simpa using hmem
      exact ⟨owner, howner, hkey⟩
    · cases h

/-- Only an entry of an address that belongs to another key is refused. -/
theorem insert_eq_error {fault : Fault} (h : insert chain a index address = .error fault) :
    ∃ o, index.owner? address = some o ∧ o.key ≠ a.key ∧
      fault = .duplicateProtocolToken chain address o.key.label a.key.label := by
  unfold insert at h
  split at h
  · cases h
  · next owner howner =>
    split at h
    · cases h
    · next hkey =>
      cases h
      exact ⟨owner, howner, hkey, rfl⟩

theorem Takes.cons {entry : Address × Adapter σ} {entries middle : TokenIndex σ}
    (first : Takes index [entry] middle) (rest : Takes middle entries index') :
    Takes index (entry :: entries) index' := by
  refine ⟨fun x o ho => rest.kept x o (first.kept x o ho), fun x b hmem => ?_, fun x o ho => ?_⟩
  · rcases List.mem_cons.mp hmem with rfl | hmem
    · obtain ⟨o, ho, hkey⟩ := first.taken x b List.mem_cons_self
      exact ⟨o, rest.kept x o ho, hkey⟩
    · exact rest.taken x b hmem
  · rcases rest.sound x o ho with ho | hmem
    · exact (first.sound x o ho).imp_right fun hmem =>
        List.mem_cons.mpr (.inl (List.mem_singleton.mp hmem))
    · exact .inr (List.mem_cons_of_mem _ hmem)

theorem takes_of_insertEntries {entries : TokenIndex σ}
    (h : insertEntries chain index entries = .ok index') : Takes index entries index' := by
  induction entries generalizing index with
  | nil =>
    cases h
    exact ⟨fun _ _ ho => ho, by simp, fun _ _ ho => .inl ho⟩
  | cons entry entries ih =>
    obtain ⟨middle, hfirst, hrest⟩ := bind_eq_ok_iff.mp h
    exact (takes_of_insert hfirst).cons (ih hrest)

/-- Entries are refused only for two that have the same address and different keys. -/
theorem insertEntries_eq_error {entries : TokenIndex σ} {fault : Fault}
    (h : insertEntries chain index entries = .error fault) :
    ∃ address o a, (address, a) ∈ entries ∧
      (index.owner? address = some o ∨ (address, o) ∈ entries) ∧ o.key ≠ a.key ∧
      fault = .duplicateProtocolToken chain address o.key.label a.key.label := by
  induction entries generalizing index with
  | nil => cases h
  | cons entry entries ih =>
    rcases bind_eq_error_iff.mp h with hfirst | ⟨middle, hfirst, hrest⟩
    · obtain ⟨o, ho, hkey, hfault⟩ := insert_eq_error hfirst
      exact ⟨entry.1, o, entry.2, List.mem_cons_self, .inl ho, hkey, hfault⟩
    · obtain ⟨x, o, b, hmem, ho, hkey, hfault⟩ := ih hrest
      refine ⟨x, o, b, List.mem_cons_of_mem _ hmem, ?_, hkey, hfault⟩
      rcases ho with ho | ho
      · exact ((takes_of_insert hfirst).sound x o ho).imp_right fun hmem =>
          List.mem_cons.mpr (.inl (List.mem_singleton.mp hmem))
      · exact .inr (List.mem_cons_of_mem _ ho)

section
variable {listed : Listings σ}

/-- Listings are refused only for two adapters that have listed the same address. -/
theorem insertListings_eq_error {fault : Fault} (h : insertListings chain [] listed = .error fault) :
    ∃ common a b, listed.Clash common a b ∧
      fault = .duplicateProtocolToken chain common a.key.label b.key.label := by
  rw [insertListings_eq] at h
  obtain ⟨common, a, b, hb, ha, hkey, hfault⟩ := insertEntries_eq_error h
  have ha : (common, a) ∈ listed.entries := ha.resolve_left (by simp)
  exact ⟨common, a, b, ⟨fun hab => hkey (hab ▸ rfl), Listings.mem_entries.mp ha,
    Listings.mem_entries.mp hb⟩, hfault⟩

variable (hkeys : ∀ {a b tokens others}, (a, tokens) ∈ listed → (b, others) ∈ listed → a.key = b.key →
  a = b)
include hkeys

/-- The index finds the adapter that has listed an address, and it is the only one. -/
theorem owner?_eq_some_iff (h : insertListings chain [] listed = .ok index) :
    index.owner? address = some a ↔ listed.Lists a address := by
  rw [insertListings_eq] at h
  have htakes := takes_of_insertEntries h
  have hsound : ∀ o, index.owner? address = some o → listed.Lists o address := fun o ho =>
    Listings.mem_entries.mp ((htakes.sound address o ho).resolve_left (by simp))
  refine ⟨hsound a, fun hlists => ?_⟩
  obtain ⟨o, ho, hkey⟩ := htakes.taken address a (Listings.mem_entries.mpr hlists)
  obtain ⟨tokens, htokens, -⟩ := hlists
  obtain ⟨others, hothers, -⟩ := hsound o ho
  rwa [hkeys hothers htokens hkey] at ho

theorem not_clash_of_insertListings (h : insertListings chain [] listed = .ok index)
    (common : Address) (a b : Adapter σ) : ¬ listed.Clash common a b := by
  rintro ⟨hne, ha, hb⟩
  have hfirst := (owner?_eq_some_iff hkeys h).mpr ha
  have hsecond := (owner?_eq_some_iff hkeys h).mpr hb
  exact hne (Option.some.inj (hfirst.symm.trans hsecond))

end

end TokenIndex

namespace Registry

/-- What adapters answer when they are asked for their protocol tokens one after the other. -/
def outcomes : List (Adapter σ) → σ → Listings σ
  | [], _ => []
  | a :: rest, s => (a, (a.protocolTokens s).1) :: outcomes rest (a.protocolTokens s).2

theorem map_fst_outcomes (adapters : List (Adapter σ)) (s : σ) :
    (outcomes adapters s).map Prod.fst = adapters := by
  induction adapters generalizing s with
  | nil => rfl
  | cons a rest ih => simp only [outcomes, List.map_cons, ih]

theorem mem_of_mem_outcomes {adapters : List (Adapter σ)} {s : σ} {a : Adapter σ}
    {r : Except Fault (List ProtocolToken)} (h : (a, r) ∈ outcomes adapters s) : a ∈ adapters := by
  rw [← map_fst_outcomes adapters s]
  exact List.mem_map_of_mem h

theorem forEach_outcome (adapters : List (Adapter σ)) (s : σ) :
    ∃ s', Run.forEach (fun a : Adapter σ => do return (a, ← Run.outcome a.protocolTokens)) adapters s =
      (.ok (outcomes adapters s), s') := by
  induction adapters generalizing s with
  | nil => exact ⟨s, rfl⟩
  | cons a rest ih =>
    obtain ⟨s', hrest⟩ := ih (a.protocolTokens s).2
    have hfirst : (do return (a, ← Run.outcome a.protocolTokens) : Run σ _) s =
        (.ok (a, (a.protocolTokens s).1), (a.protocolTokens s).2) := rfl
    refine ⟨s', ?_⟩
    rw [Run.forEach, Run.bind_ok hfirst, Run.bind_ok hrest]
    rfl

/-- What the adapters of a chain list in a world. -/
def listed (r : Registry σ) (chain : Chain) (world : σ) : Listings σ :=
  outcomes (r.unwrapping chain) world

/-- Nothing but the listings decides what is built. -/
theorem buildIndex_fst (r : Registry σ) (chain : Chain) (world : σ) :
    (r.buildIndex chain world).1 = TokenIndex.insertListings chain [] (r.listed chain world) := by
  obtain ⟨world', hlisted⟩ := forEach_outcome (r.unwrapping chain) world
  rw [buildIndex, Run.bind_ok hlisted, Run.ofExcept_apply, listed]

end Registry

end Chainfolio
