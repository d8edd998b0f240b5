import Mathlib.Data.List.Nodup
import Chainfolio.Codec.Token
import Chainfolio.Proofs.Codec.Text

/-! Records that are read from the fields that they wrote. A field is found under its own name as long as
names do not repeat, also where a token has spread its fields over the same object; what was left out
comes back as absent or empty. -/
namespace Chainfolio

/-! ### Single values -/

@[simp] theorem Word.ofJson?_toJson (w : Word) : Word.ofJson? w.toJson = some w := Word.ofText?_text w

@[simp] theorem Address.ofJson?_toJson (a : Address) : Address.ofJson? a.toJson = some a :=
  Address.ofText?_text a

@[simp] theorem Hash.ofJson?_toJson (h : Hash) : Hash.ofJson? h.toJson = some h := Hash.ofText?_text h

@[simp] theorem TokenKind.ofJson?_toJson (k : TokenKind) : TokenKind.ofJson? k.toJson = some k := by
  cases k <;> rfl

namespace Json

@[simp] theorem byte?_nat (b : UInt8) : byte? (nat b.toNat) = some b := by
  have hlt : b.toNat < 256 := b.toNat_lt
  simp [byte?, nat, natBelow?, hlt]

@[simp] theorem uint64?_nat (n : UInt64) : uint64? (nat n.toNat) = some n := by
  have hlt : n.toNat < UInt64.size := n.toNat_lt
  simp [uint64?, nat, natBelow?, hlt]

@[simp] theorem text?_str (s : String) : text? (.str s) = some s := rfl

/-- Items that are each read back are read back together. -/
theorem list?_map {α : Type} {write : α → Json} {read : Json → Option α} {items : List α}
    (h : ∀ a ∈ items, read (write a) = some a) : list? read (.arr (items.map write)) = some items := by
  rw [list?, items?, Option.bind_some]
  induction items with
  | nil => rfl
  | cons a items ih =>
    obtain ⟨hfirst, hrest⟩ := List.forall_mem_cons.mp h
    simp [hfirst, ih hrest]

/-! ### Fields -/

@[simp] theorem field?_nil (name : String) : field? name [] = none := rfl

@[simp] theorem field?_cons (name : String) (f : String × Json) (fields : List (String × Json)) :
    field? name (f :: fields) = if f.1 = name then some f.2 else field? name fields := rfl

@[simp] theorem field?_append (name : String) (fields rest : List (String × Json)) :
    field? name (fields ++ rest) = (field? name fields).or (field? name rest) := by
  induction fields with
  | nil => rfl
  | cons f fields ih =>
    rw [List.cons_append, field?_cons, field?_cons, ih]
    split <;> rfl

theorem mem_of_field?_eq_some {name : String} {j : Json} {fields : List (String × Json)}
    (h : field? name fields = some j) : (name, j) ∈ fields := by
  induction fields with
  | nil => cases h
  | cons f fields ih =>
    rw [field?_cons] at h
    split at h
    · next heq =>
      cases h
      exact heq ▸ List.mem_cons_self
    · exact List.mem_cons_of_mem _ (ih h)

theorem field?_eq_none {name : String} {fields : List (String × Json)} :
    field? name fields = none ↔ name ∉ fields.map Prod.fst := by
  induction fields with
  | nil => simp [field?]
  | cons f fields ih =>
    by_cases h : f.1 = name
    · simp [field?_cons, h]
    · simp [field?_cons, ih, h, Ne.symm h]

@[simp] theorem field?_optionalField {α : Type} (name own : String) (write : α → Json) (a : Option α) :
    field? name (optionalField own write a) = if own = name then a.map write else none := by
  cases a <;> simp [optionalField]

@[simp] theorem field?_listField {α : Type} (name own : String) (write : α → Json) (items : List α) :
    field? name (listField own write items) =
      if own = name ∧ items ≠ [] then some (.arr (items.map write)) else none := by
  cases items <;> simp [listField]

theorem map_fst_optionalField {α : Type} (name : String) (write : α → Json) (a : Option α) :
    ((optionalField name write a).map Prod.fst).Sublist [name] := by
  cases a <;> simp [optionalField]

theorem map_fst_listField {α : Type} (name : String) (write : α → Json) (items : List α) :
    ((listField name write items).map Prod.fst).Sublist [name] := by
  cases items <;> simp [listField]

end Json

namespace JsonRecord

variable {α : Type} {r : JsonRecord} {name : String} {read : Json → Option α}

theorem required_eq {j : Json} (h : r.find name = some j) : r.required name read = read j := by
  rw [required, h, Option.bind_some]

/-- A text that may be absent comes back as it was written. -/
theorem optional_text_eq {text : Option String} (h : r.find name = text.map .str) :
    r.optional name Json.text? = some text := by
  rw [optional, h]
  cases text <;> rfl

/-- A list that was left out because it is empty comes back as the default. -/
theorem defaulted_eq {read : Json → Option (List α)} {write : α → Json} {items : List α}
    (h : r.find name = if items ≠ [] then some (.arr (items.map write)) else none)
    (hread : read (.arr (items.map write)) = some items) : r.defaulted name read [] = some items := by
  rw [defaulted, h]
  cases items with
  | nil => rfl
  | cons a items => exact hread

/-- A record that shares its object looks its own fields up in that object. -/
theorem shared?_find {spread own : List String} {j : Json} (h : shared? spread own j = some r)
    (hname : name ∈ own) : r.find name = j.get? name := by
  cases j with
  | obj fields =>
    rw [shared?] at h
    split at h
    · cases h
      simp [hname, Json.get?]
    · cases h
  | _ => cases h

/-- Names that do not repeat occur at most once. -/
theorem distinct_of_nodup {fields : List (String × Json)} (h : (fields.map Prod.fst).Nodup)
    (names : List String) : distinct names fields = true := by
  refine List.all_eq_true.mpr fun n _ => decide_eq_true ?_
  have hsame : (fun f : String × Json => decide (f.1 = n)) = (· == n) ∘ Prod.fst := by
    funext f
    exact Bool.beq_eq_decide_eq f.1 n |>.symm
  rw [hsame, ← List.countP_map]
  exact List.nodup_iff_count_le_one.mp h n

/-- A record that stands alone is read from fields of its own. -/
theorem read?_own {names : List String} (fields : List (String × Json))
    (hfields : (fields.map Prod.fst).Sublist names) (hnames : names.Nodup) :
    ∃ r, read? names (.obj fields) = some r ∧ ∀ name, r.find name = Json.field? name fields := by
  have hown : ∀ f ∈ fields, f.1 ∈ names := fun f hf => hfields.subset (List.mem_map_of_mem hf)
  have hfilter : (fields.filter fun f => !names.contains f.1) = [] := by
    simpa using fun name j hf => hown (name, j) hf
  refine ⟨⟨(Json.field? · fields)⟩, ?_, fun _ => rfl⟩
  rw [read?, hfilter, distinct_of_nodup (hnames.sublist hfields)]
  rfl

end JsonRecord

/-! ### Tokens -/

namespace Token

variable (t : Token)

theorem map_fst_fields : t.fields.map Prod.fst = fieldNames := rfl

theorem ofRecord?_eq {r : JsonRecord} (h : ∀ name ∈ fieldNames, r.find name = Json.field? name t.fields) :
    ofRecord? r = some t := by
  have haddress : r.find "address" = some t.address.toJson := h _ (by decide)
  have hname : r.find "name" = some (.str t.name) := h _ (by decide)
  have hsymbol : r.find "symbol" = some (.str t.symbol) := h _ (by decide)
  have hdecimals : r.find "decimals" = some (Json.nat t.decimals.toNat) := h _ (by decide)
  simp [ofRecord?, JsonRecord.required_eq haddress, JsonRecord.required_eq hname,
    JsonRecord.required_eq hsymbol, JsonRecord.required_eq hdecimals]

@[simp] theorem ofJson?_toJson : ofJson? t.toJson = some t := by
  obtain ⟨r, hread, hfind⟩ :=
    JsonRecord.read?_own t.fields (List.Sublist.refl fieldNames) (by decide)
  rw [ofJson?, toJson, hread, Option.bind_some]
  exact ofRecord?_eq t fun name _ => hfind name

/-- The fields of a token are single values: holding them changes nothing. -/
theorem held_field {name : String} {j : Json} (hname : name ∈ fieldNames)
    (h : Json.field? name t.fields = some j) : j.held = j := by
  simp only [fieldNames, List.mem_cons, List.not_mem_nil, or_false] at hname
  rcases hname with rfl | rfl | rfl | rfl <;> cases h <;> rfl

/-- A record that shares its object with a token finds its own fields, and the token its. -/
theorem shared?_fields (own : List String) (rest : List (String × Json))
    (hrest : (rest.map Prod.fst).Sublist own) (hnodup : own.Nodup)
    (hapart : ∀ name ∈ fieldNames, name ∉ own) :
    ∃ r, JsonRecord.shared? fieldNames own (.obj (t.fields ++ rest)) = some r ∧
      ofRecord? r = some t ∧ ∀ name ∈ own, r.find name = Json.field? name rest := by
  have hown : ∀ f ∈ rest, f.1 ∈ own := fun f hf => hrest.subset (List.mem_map_of_mem hf)
  have hspread : ∀ f ∈ t.fields, f.1 ∉ own := fun f hf => hapart f.1 (List.mem_map_of_mem hf)
  have hfilter : ((t.fields ++ rest).filter fun f => !own.contains f.1) = t.fields := by
    rw [List.filter_append, List.filter_eq_self.mpr (by simpa using fun n j hf => hspread (n, j) hf),
      List.filter_eq_nil_iff.mpr (by simpa using fun n j hf => hown (n, j) hf), List.append_nil]
  have hnames : ((t.fields ++ rest).map Prod.fst).Nodup := by
    rw [List.map_append, map_fst_fields]
    refine List.nodup_append.mpr ⟨by decide, hnodup.sublist hrest, fun name hname other hother heq => ?_⟩
    obtain ⟨f, hf, rfl⟩ := List.mem_map.mp hother
    exact hapart name hname (heq ▸ hown f hf)
  refine ⟨⟨fun name =>
    if own.contains name then Json.field? name (t.fields ++ rest)
    else (Json.field? name (t.fields ++ rest)).map Json.held⟩, ?_, ?_, fun name hname => ?_⟩
  · rw [JsonRecord.shared?, hfilter, JsonRecord.distinct_of_nodup hnames]
    rfl
  · refine ofRecord?_eq t fun name hname => ?_
    have hsome : Json.field? name t.fields ≠ none := by
      rwa [Ne, Json.field?_eq_none, not_not, map_fst_fields]
    obtain ⟨j, hj⟩ := Option.ne_none_iff_exists'.mp hsome
    simp [hapart name hname, Json.field?_append, hj, t.held_field hname hj]
  · have hnone : Json.field? name t.fields = none :=
      Json.field?_eq_none.mpr fun h => hapart name h hname
    simp [hname, Json.field?_append, hnone]

end Token

end Chainfolio
