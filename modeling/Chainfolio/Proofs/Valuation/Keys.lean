import Chainfolio.Proofs.Valuation.Balances

/-! Position keys in order: each key comes before or after every other one. The keys of some maps are
listed once each in this order, and a map that is added to stays in it. -/
namespace Chainfolio

namespace PositionKey

variable {a b c : PositionKey}

theorem idBefore_irrefl (x : Option String) : idBefore x x = false := by
  cases x with
  | none => rfl
  | some s => simp [idBefore]

theorem idBefore_trans {x y z : Option String} (h : idBefore x y) (h' : idBefore y z) :
    idBefore x z := by
  match x, y, z with
  | none, _, some _ => rfl
  | some _, some _, some _ => 
    simp only [idBefore, decide_eq_true_eq] at *
    exact String.lt_trans h h'
  | _, some _, none => simp [idBefore] at h'
  | none, none, _ => simp [idBefore] at h
  | some _, none, _ => simp [idBefore] at h

theorem idBefore_or_idBefore {x y : Option String} (h : x ≠ y) : idBefore x y ∨ idBefore y x := by
  match x, y with
  | none, none => exact absurd rfl h
  | none, some _ => exact .inl rfl
  | some _, none => exact .inr rfl
  | some s, some t =>
    simp only [idBefore, decide_eq_true_eq]
    by_cases hlt : s < t
    · exact .inl hlt
    · exact .inr (Std.lt_of_le_of_ne hlt fun h' => h (congrArg some h'.symm))

theorem before_iff : a.before b ↔
    a.address.bits < b.address.bits ∨ a.address = b.address ∧ idBefore a.tokenId b.tokenId := by
  simp [before]

theorem before_irrefl (a : PositionKey) : ¬ a.before a := by
  rw [before_iff, idBefore_irrefl]
  rintro (h | ⟨-, h⟩)
  · exact BitVec.lt_irrefl _ h
  · cases h

theorem before_trans (h : a.before b) (h' : b.before c) : a.before c := by
  rw [before_iff] at *
  rcases h with h | ⟨haddress, h⟩
  · rcases h' with h' | ⟨haddress', -⟩
    · exact .inl (BitVec.lt_trans h h')
    · exact .inl (haddress' ▸ h)
  · rcases h' with h' | ⟨haddress', h'⟩
    · exact .inl (haddress ▸ h')
    · exact .inr ⟨haddress.trans haddress', idBefore_trans h h'⟩

/-- Two different keys have an order. -/
theorem before_or_before (h : a ≠ b) : a.before b ∨ b.before a := by
  rw [before_iff, before_iff]
  obtain ⟨⟨x⟩, i⟩ := a
  obtain ⟨⟨y⟩, j⟩ := b
  by_cases hxy : x = y
  · subst hxy
    have hij : i ≠ j := fun hij => h (by rw [hij])
    exact (idBefore_or_idBefore hij).imp (fun h => .inr ⟨rfl, h⟩) fun h => .inr ⟨rfl, h⟩
  · have hne : x.toNat ≠ y.toNat := fun h => hxy (BitVec.eq_of_toNat_eq h)
    exact (Nat.lt_or_gt_of_ne hne).imp .inl .inl

theorem nodup_of_ascending {keys : List PositionKey} (h : keys.Pairwise fun a b => a.before b) :
    keys.Nodup := by
  refine h.imp ?_
  rintro a _ hbefore rfl
  exact before_irrefl a hbefore

/-- Keys in ascending order are told by which keys they are. -/
theorem ascending_ext {keys keys' : List PositionKey} (h : keys.Pairwise fun a b => a.before b)
    (h' : keys'.Pairwise fun a b => a.before b) (hmem : ∀ key, key ∈ keys ↔ key ∈ keys') :
    keys = keys' := by
  have hperm : keys.Perm keys' :=
    (List.perm_ext_iff_of_nodup (nodup_of_ascending h) (nodup_of_ascending h')).mpr hmem
  exact hperm.eq_of_pairwise (fun a b _ _ hab hba => absurd (before_trans hab hba) (before_irrefl a))
    h h'

end PositionKey

namespace Profit

variable {key other : PositionKey} {keys : List PositionKey}

theorem mem_insertKey : other ∈ insertKey key keys ↔ other = key ∨ other ∈ keys := by
  induction keys with
  | nil => simp [insertKey]
  | cons k rest ih =>
    simp only [insertKey]
    split
    · next hk => simp [hk]
    · split
      · simp
      · rw [List.mem_cons, ih, List.mem_cons]
        exact or_left_comm

theorem ascending_insertKey (key : PositionKey) (h : keys.Pairwise fun a b => a.before b) :
    (insertKey key keys).Pairwise fun a b => a.before b := by
  induction keys with
  | nil => simp [insertKey]
  | cons k rest ih =>
    obtain ⟨first, ordered⟩ := List.pairwise_cons.mp h
    simp only [insertKey]
    split
    · exact h
    · next hne =>
      split
      · next hbefore =>
        refine List.pairwise_cons.mpr ⟨fun other hother => ?_, h⟩
        rcases List.mem_cons.mp hother with rfl | hother
        · exact hbefore
        · exact PositionKey.before_trans hbefore (first other hother)
      · next hbefore =>
        refine List.pairwise_cons.mpr ⟨fun other hother => ?_, ih ordered⟩
        rcases mem_insertKey.mp hother with rfl | hother
        · exact (PositionKey.before_or_before hne).resolve_right hbefore
        · exact first other hother

theorem insertKeys_spec (added : List PositionKey) (h : keys.Pairwise fun a b => a.before b) :
    (added.foldl (fun ks k => insertKey k ks) keys).Pairwise (fun a b => a.before b) ∧
      ∀ key, key ∈ added.foldl (fun ks k => insertKey k ks) keys ↔ key ∈ keys ∨ key ∈ added := by
  induction added generalizing keys with
  | nil => simpa using h
  | cons k added ih =>
    obtain ⟨hordered, hmem⟩ := ih (ascending_insertKey k h)
    refine ⟨hordered, fun key => ?_⟩
    rw [List.foldl_cons, hmem, mem_insertKey, List.mem_cons, or_assoc]
    exact or_left_comm

/-- The keys of some maps are in ascending order. -/
theorem ascending_keys (maps : List Balances) :
    (Profit.keys maps).Pairwise fun a b => a.before b := (insertKeys_spec _ .nil).1

theorem mem_keys {maps : List Balances} : key ∈ Profit.keys maps ↔ ∃ b ∈ maps, key ∈ b.keys := by
  rw [Profit.keys, (insertKeys_spec _ .nil).2]
  simp [Balances.keys]

end Profit

/-! ### Balances in order -/

namespace Balances

variable {b : FiatBalance} {balances : Balances} {key : PositionKey}

theorem keys_insert (b : FiatBalance) (balances : Balances) :
    (balances.insert b).keys = Profit.insertKey b.key balances.keys := by
  induction balances with
  | nil => rfl
  | cons e rest ih =>
    simp only [insert, keys, List.map_cons, Profit.insertKey] at ih ⊢
    split
    · next hkey => rw [List.map_cons, hkey]
    · split
      · rfl
      · rw [List.map_cons, ih]

theorem mem_keys_insert : key ∈ (balances.insert b).keys ↔ key = b.key ∨ key ∈ balances.keys := by
  rw [keys_insert, Profit.mem_insertKey]

/-- Whether balances are kept in ascending order, each under its own key. -/
structure Keyed (balances : Balances) : Prop where
  ascending : balances.keys.Pairwise fun a b => a.before b
  own : ∀ key held, balances.find? key = some held → held.key = key

theorem Keyed.insert (h : balances.Keyed) (b : FiatBalance) : (balances.insert b).Keyed where
  ascending := by
    rw [keys_insert]
    exact Profit.ascending_insertKey _ h.ascending
  own key held hfind := by
    rw [find?_insert] at hfind
    split at hfind
    · next hkey =>
      cases hfind
      exact hkey
    · exact h.own key held hfind

end Balances

end Chainfolio
