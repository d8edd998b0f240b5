import Chainfolio.Json.Basic

/-! Settled values: every object sorted by name without repetitions, everything readable. Settling
keeps the last of repeated fields, and a settled value settles to itself. -/
namespace Chainfolio.Json

/-- Inserts a field into fields sorted by name, replacing the one of the same name. -/
def insertField (name : String) (v : Json) : List (String × Json) → List (String × Json)
  | [] => [(name, v)]
  | (k, w) :: rest =>
    if name < k then (name, v) :: (k, w) :: rest
    else if name = k then (name, v) :: rest
    else (k, w) :: insertField name v rest

mutual

/-- The settled form of a value, if all of it is readable. -/
def settle? : Json → Option Json
  | .unreadable | .malformed => none
  | .null => some .null
  | .bool b => some (.bool b)
  | .num n => some (.num n)
  | .str s => some (.str s)
  | .arr items => (settleItems? items).map .arr
  | .obj fields => (settleFields? fields []).map .obj
  | .sealed _ whole => settle? whole

def settleItems? : List Json → Option (List Json)
  | [] => some []
  | j :: rest => do return (← settle? j) :: (← settleItems? rest)

/-- Settles fields one by one into fields that are settled already. -/
def settleFields? : List (String × Json) → List (String × Json) → Option (List (String × Json))
  | [], acc => some acc
  | (k, v) :: rest, acc => do settleFields? rest (insertField k (← settle? v) acc)

end

/-- Fields in strictly ascending order of name, each with a settled value. -/
structure Orderly (fields : List (String × Json)) : Prop where
  sorted : fields.Pairwise fun a b => a.1 < b.1
  settled : ∀ f ∈ fields, settle? f.2 = some f.2

theorem mem_insertField {name : String} {v : Json} {f : String × Json} :
    ∀ {fields : List (String × Json)}, f ∈ insertField name v fields → f = (name, v) ∨ f ∈ fields
  | [], h => by simp_all [insertField]
  | (k, w) :: rest, h => by
    simp only [insertField] at h
    split at h
    · simpa using h
    · split at h
      · rcases List.mem_cons.1 h with h | h
        · exact .inl h
        · exact .inr (List.mem_cons_of_mem _ h)
      · rcases List.mem_cons.1 h with h | h
        · exact .inr (by simp [h])
        · exact (mem_insertField h).imp_right (List.mem_cons_of_mem _)

theorem Orderly.nil : Orderly [] := ⟨.nil, by simp⟩

theorem Orderly.insertField {name : String} {v : Json} (hv : settle? v = some v) :
    ∀ {fields : List (String × Json)}, Orderly fields → Orderly (insertField name v fields)
  | [], _ => ⟨by simp [Json.insertField], by simp [Json.insertField, hv]⟩
  | (k, w) :: rest, h => by
    have hrest : Orderly rest :=
      ⟨(List.pairwise_cons.1 h.sorted).2, fun f hf => h.settled f (List.mem_cons_of_mem _ hf)⟩
    have hk := (List.pairwise_cons.1 h.sorted).1
    refine ⟨?_, fun f hf => ?_⟩
    · simp only [Json.insertField]
      split
      · next hlt =>
        refine List.pairwise_cons.2 ⟨fun f hf => ?_, h.sorted⟩
        rcases List.mem_cons.1 hf with rfl | hf
        · exact hlt
        · exact String.lt_trans hlt (hk f hf)
      · split
        · next heq => subst heq; exact List.pairwise_cons.2 ⟨hk, hrest.sorted⟩
        · next hlt hne =>
          refine List.pairwise_cons.2 ⟨fun f hf => ?_, (hrest.insertField hv).sorted⟩
          rcases mem_insertField hf with rfl | hf
          · exact Std.lt_of_le_of_ne (String.not_lt.1 hlt) (Ne.symm hne)
          · exact hk f hf
    · rcases mem_insertField hf with rfl | hf
      · exact hv
      · exact h.settled f hf

/-- A field after all others goes to the end. -/
theorem insertField_of_lt {name : String} {v : Json} :
    ∀ {fields : List (String × Json)}, (∀ f ∈ fields, f.1 < name) →
      insertField name v fields = fields ++ [(name, v)]
  | [], _ => rfl
  | (k, w) :: rest, h => by
    have hk : k < name := h (k, w) (by simp)
    have hnot : ¬ name < k := fun h' => String.lt_irrefl _ (String.lt_trans hk h')
    have hne : name ≠ k := fun h' => String.lt_irrefl _ (h' ▸ hk)
    simp [insertField, hnot, hne, insertField_of_lt fun f hf => h f (List.mem_cons_of_mem _ hf)]

/-- Settling orderly fields behind smaller ones only appends them. -/
theorem settleFields?_append : ∀ (acc : List (String × Json)) {fields : List (String × Json)},
    Orderly fields → (∀ a ∈ acc, ∀ f ∈ fields, a.1 < f.1) →
      settleFields? fields acc = some (acc ++ fields)
  | _, [], _, _ => by simp [settleFields?]
  | acc, (k, v) :: rest, h, hacc => by
    have hk := (List.pairwise_cons.1 h.sorted).1
    have hrest : Orderly rest :=
      ⟨(List.pairwise_cons.1 h.sorted).2, fun f hf => h.settled f (List.mem_cons_of_mem _ hf)⟩
    have hv : settle? v = some v := h.settled (k, v) (by simp)
    have hins := insertField_of_lt (v := v) fun a ha => hacc a ha (k, v) (by simp)
    simp only [settleFields?, hv, Option.bind_eq_bind, Option.bind_some, hins]
    rw [settleFields?_append _ hrest]
    · simp
    · intro a ha f hf
      rcases List.mem_append.1 ha with ha | ha
      · exact hacc a ha f (List.mem_cons_of_mem _ hf)
      · simp only [List.mem_singleton] at ha
        subst ha
        exact hk f hf

theorem settleFields?_self {fields : List (String × Json)} (h : Orderly fields) :
    settleFields? fields [] = some fields := by
  simpa using settleFields?_append [] h (by simp)

mutual

/-- A settled value settles to itself. -/
theorem settle?_settled : ∀ {j v : Json}, settle? j = some v → settle? v = some v
  | .unreadable, _, h => by simp [settle?] at h
  | .malformed, _, h => by simp [settle?] at h
  | .sealed _ whole, _, h => settle?_settled (j := whole) (by simpa only [settle?] using h)
  | .null, _, h => by simp only [settle?, Option.some.injEq] at h; subst h; rfl
  | .bool _, _, h => by simp only [settle?, Option.some.injEq] at h; subst h; rfl
  | .num _, _, h => by simp only [settle?, Option.some.injEq] at h; subst h; rfl
  | .str _, _, h => by simp only [settle?, Option.some.injEq] at h; subst h; rfl
  | .arr items, v, h => by
    obtain ⟨out, hout, rfl⟩ := Option.map_eq_some_iff.1 h
    simp [settle?, settleItems?_settled hout]
  | .obj fields, v, h => by
    obtain ⟨out, hout, rfl⟩ := Option.map_eq_some_iff.1 h
    simp [settle?, settleFields?_self (settleFields?_orderly hout .nil)]

theorem settleItems?_settled :
    ∀ {items out : List Json}, settleItems? items = some out → settleItems? out = some out
  | [], _, h => by simp only [settleItems?, Option.some.injEq] at h; subst h; rfl
  | j :: rest, out, h => by
    simp only [settleItems?, Option.bind_eq_bind, Option.bind_eq_some_iff, Option.pure_def,
      Option.some.injEq] at h
    obtain ⟨v, hv, vs, hvs, rfl⟩ := h
    simp [settleItems?, settle?_settled hv, settleItems?_settled hvs]

theorem settleFields?_orderly :
    ∀ {fields acc out : List (String × Json)}, settleFields? fields acc = some out →
      Orderly acc → Orderly out
  | [], _, _, h, hacc => by simp only [settleFields?, Option.some.injEq] at h; exact h ▸ hacc
  | (k, v) :: rest, acc, out, h, hacc => by
    simp only [settleFields?, Option.bind_eq_bind, Option.bind_eq_some_iff] at h
    obtain ⟨w, hw, hrest⟩ := h
    exact settleFields?_orderly hrest (hacc.insertField (settle?_settled hw))

end

end Chainfolio.Json
