import Chainfolio.Proofs.Codec.Record
import Chainfolio.Proofs.Run

/-! Extra data that is read from what it wrote. A settled value is read as it stands, unless one of its
objects opens with the reserved name: settling sorts the fields of an object, so that the reserved one can
come to the front and is taken for an embedded text. -/
namespace Chainfolio

namespace Json

/-! ### Values part by part -/

/-- Induction over a value: items, fields and what is sealed come before the value that holds them. -/
theorem parts_induction {P : Json → Prop} (null : P .null) (bool : ∀ b, P (.bool b))
    (num : ∀ n, P (.num n)) (str : ∀ s, P (.str s))
    (arr : ∀ items, (∀ j ∈ items, P j) → P (.arr items))
    (obj : ∀ fields : List (String × Json), (∀ f ∈ fields, P f.2) → P (.obj fields))
    (unreadable : P .unreadable) (malformed : P .malformed)
    («sealed» : ∀ bytes whole, P whole → P (.sealed bytes whole)) (j : Json) : P j :=
  @Json.rec P (fun items => ∀ j ∈ items, P j) (fun fields => ∀ f ∈ fields, P f.2) (fun f => P f.2)
    null bool num str arr obj unreadable malformed «sealed» (by simp)
    (fun _ _ hfirst hrest => List.forall_mem_cons.mpr ⟨hfirst, hrest⟩) (by simp)
    (fun _ _ hfirst hrest => List.forall_mem_cons.mpr ⟨hfirst, hrest⟩) (fun _ _ h => h) j

/-- The objects that occur in a value, by their fields. -/
inductive Within (fields : List (String × Json)) : Json → Prop
  | here : Within fields (.obj fields)
  | item {j : Json} {items : List Json} (hj : j ∈ items) (h : Within fields j) : Within fields (.arr items)
  | field {f : String × Json} {outer : List (String × Json)} (hf : f ∈ outer) (h : Within fields f.2) :
      Within fields (.obj outer)
  | whole {bytes : List UInt8} {j : Json} (h : Within fields j) : Within fields (.sealed bytes j)

/-- What holds of the names of every object in a value. -/
def EveryObject (p : List String → Prop) (j : Json) : Prop :=
  ∀ fields, Within fields j → p (fields.map Prod.fst)

/-- No object in the value opens with the reserved name. -/
def Plain : Json → Prop := EveryObject fun names => names.head? ≠ some embeddedName

/-- No object in the value has the reserved name at all. -/
def Unreserved : Json → Prop := EveryObject fun names => embeddedName ∉ names

section

variable {p : List String → Prop} {j : Json} {items : List Json} {fields : List (String × Json)}

@[simp] theorem everyObject_num (n : JsonNumber) : EveryObject p (.num n) := fun _ hw => nomatch hw

@[simp] theorem everyObject_str (s : String) : EveryObject p (.str s) := fun _ hw => nomatch hw

@[simp] theorem everyObject_arr : EveryObject p (.arr items) ↔ ∀ j ∈ items, EveryObject p j := by
  refine ⟨fun h j hj fields hw => h fields (.item hj hw), fun h fields hw => ?_⟩
  cases hw with
  | item hj hw => exact h _ hj fields hw

@[simp] theorem everyObject_obj :
    EveryObject p (.obj fields) ↔ p (fields.map Prod.fst) ∧ ∀ f ∈ fields, EveryObject p f.2 := by
  refine ⟨fun h => ⟨h fields .here, fun f hf inner hw => h inner (.field hf hw)⟩, fun h inner hw => ?_⟩
  cases hw with
  | here => exact h.1
  | field hf hw => exact h.2 _ hf inner hw

theorem everyObject_sealed {bytes : List UInt8} : EveryObject p (.sealed bytes j) ↔ EveryObject p j := by
  refine ⟨fun h fields hw => h fields (.whole hw), fun h fields hw => ?_⟩
  cases hw with
  | whole hw => exact h fields hw

/-- What holds of the objects of a value holds of those in its fields. -/
theorem EveryObject.get? {name : String} (h : EveryObject p j) {v : Json} (hv : j.get? name = some v) :
    EveryObject p v := by
  cases j with
  | obj fields => exact (everyObject_obj.mp h).2 _ (mem_of_field?_eq_some hv)
  | _ => cases hv

theorem Unreserved.plain (h : Unreserved j) : Plain j :=
  fun fields hw hhead => h fields hw (List.mem_of_head? hhead)

end

/-! ### Expanding and settling, part by part -/

/-- What comes back at every place comes back at each. -/
theorem forall₂_back {α β : Type} {R : α → β → Prop} {S : β → α → Prop} {items : List α} {out : List β}
    {a : α} (hR : List.Forall₂ R items out) (hS : List.Forall₂ S out items) (ha : a ∈ items) :
    ∃ b, R a b ∧ S b a := by
  have hflip : List.Forall₂ (flip R) out items := List.Forall₂.flip hR
  obtain ⟨b, -, hs, hr⟩ := forall₂_mem_right (hS.mp (fun _ _ => And.intro) hflip) ha
  exact ⟨b, hr, hs⟩

/-- The fields keep their names, and each value is what `f` makes of it. -/
def Fieldwise (f : Json → Option Json) : (fields out : List (String × Json)) → Prop :=
  List.Forall₂ fun a b => a.1 = b.1 ∧ f a.2 = some b.2

variable {read : String → Option Json} {f : Json → Option Json} {j v : Json} {items : List Json}
  {fields out mid acc : List (String × Json)} {name : String}

theorem Fieldwise.names (h : Fieldwise f fields out) : fields.map Prod.fst = out.map Prod.fst := by
  induction h with
  | nil => rfl
  | cons hab _ ih => rw [List.map_cons, List.map_cons, hab.1, ih]

theorem Fieldwise.self : Fieldwise f fields fields ↔ ∀ a ∈ fields, f a.2 = some a.2 := by
  simp [Fieldwise, List.forall₂_same]

/-- What comes of the fields comes of one of them. -/
theorem Fieldwise.of_mem {b : String × Json} (h : Fieldwise f fields out) (hb : b ∈ out) :
    ∃ a ∈ fields, f a.2 = some b.2 :=
  (forall₂_mem_right h hb).imp fun _ ⟨ha, hab⟩ => ⟨ha, hab.2⟩

theorem mapM_fields_eq_some_iff :
    (fields.mapM fun a => (f a.2).map (a.1, ·)) = some out ↔ Fieldwise f fields out := by
  have hfield (a b : String × Json) :
      (f a.2).map (a.1, ·) = some b ↔ a.1 = b.1 ∧ f a.2 = some b.2 := by
    refine Option.map_eq_some_iff.trans ⟨?_, fun h => ⟨b.2, h.2, Prod.ext h.1 rfl⟩⟩
    rintro ⟨v, hv, rfl⟩
    exact ⟨rfl, hv⟩
  simp only [mapM_eq_some_iff, hfield, Fieldwise]

theorem expandItems_eq : expandItems read items = items.mapM (expandWith read) := by
  induction items with
  | nil => simp [expandItems]
  | cons j items ih => simp [expandItems, ih]

theorem settleItems?_eq : settleItems? items = items.mapM settle? := by
  induction items with
  | nil => simp [settleItems?]
  | cons j items ih => simp [settleItems?, ih]

theorem expandFields_eq_some_iff :
    expandFields read fields = some out ↔ Fieldwise (expandWith read) fields out := by
  rw [← mapM_fields_eq_some_iff]
  refine Iff.of_eq (congrArg (· = some out) ?_)
  induction fields with
  | nil => simp [expandFields]
  | cons a fields ih => simp [expandFields, ih, Option.map_eq_bind, Option.bind_assoc]

/-! ### What stands in a value as a text -/

/-- An object that does not open with the reserved name is expanded field by field. -/
theorem expandWith_obj (h : (fields.map Prod.fst).head? ≠ some embeddedName) :
    expandWith read (.obj fields) = (expandFields read fields).map .obj := by
  cases fields with
  | nil => rfl
  | cons a fields =>
    have hne : a.1 ≠ embeddedName := fun he => h (by rw [List.map_cons, List.head?_cons, he])
    simp [expandWith, hne]

/-- An object that opens with it holds nothing but a text. -/
theorem expandWith_obj_eq_some (h : (fields.map Prod.fst).head? = some embeddedName)
    (hv : expandWith read (.obj fields) = some v) :
    ∃ text, fields = [(embeddedName, .str text)] ∧ read text = some v := by
  obtain - | ⟨⟨name, w⟩, rest⟩ := fields
  · cases h
  · obtain rfl : name = embeddedName := Option.some.inj h
    simp only [expandWith, if_true] at hv
    split at hv
    · next text => exact ⟨text, rfl, hv⟩
    · cases hv

/-- The objects of what is expanded have the names of objects that were there and do not open with the
reserved name, or stand in what is read from a text. -/
theorem expandWith_everyObject {p : List String → Prop}
    (hread : ∀ text v, Within [(embeddedName, .str text)] j → read text = some v → EveryObject p v)
    (hj : EveryObject (fun names => names.head? ≠ some embeddedName → p names) j) :
    ∀ v, expandWith read j = some v → EveryObject p v := by
  induction j using parts_induction with
  | null | bool _ | num _ | str _ | unreadable | malformed =>
    intro v h
    cases h
    intro fields hw
    cases hw
  | arr items ih =>
    intro v h
    obtain ⟨out, hout, rfl⟩ := Option.map_eq_some_iff.mp (by rwa [expandWith] at h)
    rw [expandItems_eq, mapM_eq_some_iff] at hout
    refine everyObject_arr.mpr fun w hw => ?_
    obtain ⟨j, hmem, hjw⟩ := forall₂_mem_right hout hw
    exact ih j hmem (fun text v ht => hread text v (.item hmem ht)) (everyObject_arr.mp hj j hmem) w hjw
  | obj fields ih =>
    intro v h
    by_cases hhead : (fields.map Prod.fst).head? = some embeddedName
    · obtain ⟨text, rfl, hv⟩ := expandWith_obj_eq_some hhead h
      exact hread text v .here hv
    · obtain ⟨hnames, hvalues⟩ := everyObject_obj.mp hj
      obtain ⟨out, hout, rfl⟩ := Option.map_eq_some_iff.mp (expandWith_obj hhead ▸ h)
      have hfields := expandFields_eq_some_iff.mp hout
      refine everyObject_obj.mpr ⟨hfields.names ▸ hnames hhead, fun b hb => ?_⟩
      obtain ⟨a, ha, hab⟩ := hfields.of_mem hb
      exact ih a ha (fun text v ht => hread text v (.field ha ht)) (hvalues a ha) b.2 hab
  | «sealed» bytes whole ih =>
    intro v h
    exact ih (fun text v ht => hread text v (.whole ht)) (everyObject_sealed.mp hj) v
      (by rwa [expandWith] at h)

/-- What is expanded is plain if the texts in it stand for plain values. -/
theorem expandWith_plain (hread : ∀ text v, read text = some v → Plain v) :
    ∀ v, expandWith read j = some v → Plain v :=
  expandWith_everyObject (fun text v _ => hread text v) fun _ _ hhead => hhead

theorem expandWith_unreserved (hj : Unreserved j) : ∀ v, expandWith read j = some v → Unreserved v := by
  refine expandWith_everyObject (fun text v ht => ?_) fun fields hw _ => hj fields hw
  exact absurd (hj _ ht) (by simp)

theorem readEmbedded_plain (fuel : Nat) :
    ∀ text v, readEmbedded fuel text = some v → Plain v := by
  induction fuel with
  | zero => intro text v h; cases h
  | succ fuel ih =>
    intro text v h
    obtain ⟨j, -, hj⟩ := Option.bind_eq_some_iff.mp h
    exact expandWith_plain ih v hj

/-! ### What settles to itself -/

theorem mem_names_insertField {x : String} :
    x ∈ (insertField name v fields).map Prod.fst ↔ x = name ∨ x ∈ fields.map Prod.fst := by
  induction fields with
  | nil => simp [insertField]
  | cons a fields ih =>
    rw [insertField]
    split
    · simp
    · split
      · next heq => simp [heq]
      · simp only [List.map_cons, List.mem_cons, ih]
        tauto

/-- Settling an object neither adds nor drops a name. -/
theorem mem_names_settleFields? {x : String} (h : settleFields? fields acc = some out) :
    x ∈ out.map Prod.fst ↔ x ∈ acc.map Prod.fst ∨ x ∈ fields.map Prod.fst := by
  induction fields generalizing acc with
  | nil =>
    cases h
    simp
  | cons a fields ih =>
    obtain ⟨v, -, h⟩ := Option.bind_eq_some_iff.mp h
    rw [ih h, mem_names_insertField, List.map_cons, List.mem_cons]
    tauto

/-- A settled field is one that was there, or comes of one. -/
theorem mem_settleFields? {b : String × Json} (h : settleFields? fields acc = some out) (hb : b ∈ out) :
    b ∈ acc ∨ ∃ a ∈ fields, settle? a.2 = some b.2 := by
  induction fields generalizing acc with
  | nil =>
    cases h
    exact .inl hb
  | cons a fields ih =>
    obtain ⟨v, hv, h⟩ := Option.bind_eq_some_iff.mp h
    rcases ih h with hacc | ⟨c, hc, hcb⟩
    · rcases mem_insertField hacc with rfl | hacc
      · exact .inr ⟨a, List.mem_cons_self, hv⟩
      · exact .inl hacc
    · exact .inr ⟨c, List.mem_cons_of_mem _ hc, hcb⟩

/-- Fields in ascending order settle where they are. -/
theorem settleFields?_ascending (hacc : ∀ a ∈ acc, ∀ b ∈ fields, a.1 < b.1)
    (hfields : fields.Pairwise fun a b => a.1 < b.1) (h : settleFields? fields acc = some out) :
    ∃ settled, out = acc ++ settled ∧ Fieldwise settle? fields settled := by
  induction fields generalizing acc with
  | nil =>
    cases h
    exact ⟨[], (List.append_nil _).symm, .nil⟩
  | cons a fields ih =>
    obtain ⟨hfirst, hrest⟩ := List.pairwise_cons.mp hfields
    obtain ⟨v, hv, h⟩ := Option.bind_eq_some_iff.mp h
    rw [insertField_of_lt fun c hc => hacc c hc a List.mem_cons_self] at h
    have hacc' : ∀ c ∈ acc ++ [(a.1, v)], ∀ b ∈ fields, c.1 < b.1 := by
      intro c hc b hb
      rcases List.mem_append.mp hc with hc | hc
      · exact hacc c hc b (List.mem_cons_of_mem _ hb)
      · rw [List.mem_singleton.mp hc]
        exact hfirst b hb
    obtain ⟨settled, rfl, hsettled⟩ := ih hacc' hrest h
    exact ⟨(a.1, v) :: settled, by simp, .cons ⟨rfl, hv⟩ hsettled⟩

theorem settled_arr (h : settle? (.arr items) = some (.arr items)) :
    ∀ j ∈ items, settle? j = some j := by
  obtain ⟨out, hout, heq⟩ := Option.map_eq_some_iff.mp h
  obtain rfl : out = items := Json.arr.inj heq
  rw [settleItems?_eq, mapM_eq_some_iff] at hout
  exact List.forall₂_same.mp hout

theorem settled_obj (h : settle? (.obj fields) = some (.obj fields)) : Orderly fields := by
  obtain ⟨out, hout, heq⟩ := Option.map_eq_some_iff.mp h
  obtain rfl : out = fields := Json.obj.inj heq
  exact settleFields?_orderly hout .nil

/-- Nothing settles to a sealed value. -/
theorem settle?_ne_sealed (bytes : List UInt8) (whole : Json) : settle? j ≠ some (.sealed bytes whole) := by
  induction j using parts_induction with
  | null | bool _ | num _ | str _ | unreadable | malformed => simp [settle?]
  | arr | obj => simp [settle?]
  | «sealed» _ _ ih => rwa [settle?]

/-! ### What is read as it was written -/

/-- A settled value that is plain stands for itself. -/
theorem expandWith_settled (hj : settle? j = some j) (hplain : Plain j) : expandWith read j = some j := by
  induction j using parts_induction with
  | null | bool _ | num _ | str _ => rfl
  | unreadable | malformed => cases hj
  | arr items ih =>
    have hitems : expandItems read items = some items := by
      rw [expandItems_eq, mapM_eq_some_iff]
      exact List.forall₂_same.mpr fun j hmem =>
        ih j hmem (settled_arr hj j hmem) (everyObject_arr.mp hplain j hmem)
    rw [expandWith, hitems, Option.map_some]
  | obj fields ih =>
    obtain ⟨hhead, hvalues⟩ := everyObject_obj.mp hplain
    have hfields : expandFields read fields = some fields :=
      expandFields_eq_some_iff.mpr <| Fieldwise.self.mpr fun a ha =>
        ih a ha ((settled_obj hj).settled a ha) (hvalues a ha)
    rw [expandWith_obj hhead, hfields, Option.map_some]
  | «sealed» bytes whole => exact absurd hj (settle?_ne_sealed bytes whole)

/-- Of settled fields only those come back that do so one by one. -/
theorem settleFields?_back (hfields : Orderly fields) (hmid : Fieldwise f fields mid)
    (hback : settleFields? mid [] = some fields) : ∀ a ∈ fields, (f a.2).bind settle? = some a.2 := by
  have hascending : mid.Pairwise fun a b => a.1 < b.1 := by
    have := List.pairwise_map.mpr hfields.sorted
    rw [hmid.names] at this
    exact List.pairwise_map.mp this
  obtain ⟨settled, heq, hsettled⟩ := settleFields?_ascending (by simp) hascending hback
  obtain rfl : fields = settled := heq
  intro a ha
  obtain ⟨b, hab, hba⟩ := forall₂_back hmid hsettled ha
  rw [hab.2, Option.bind_some, hba.2]

/-- An object of the reserved name alone does not come of a plain value. -/
theorem not_plain_of_settle? {w : Json} (h : settle? j = some (.obj [(embeddedName, w)])) : ¬ Plain j := by
  induction j using parts_induction with
  | null | bool _ | num _ | str _ | unreadable | malformed => cases h
  | arr items =>
    obtain ⟨_, -, heq⟩ := Option.map_eq_some_iff.mp h
    cases heq
  | obj fields =>
    obtain ⟨out, hout, heq⟩ := Option.map_eq_some_iff.mp h
    obtain rfl : out = [(embeddedName, w)] := Json.obj.inj heq
    have hnames (x : String) : x ∈ fields.map Prod.fst ↔ x = embeddedName := by
      simpa using (mem_names_settleFields? (x := x) hout).symm
    intro hplain
    refine (everyObject_obj.mp hplain).1 ?_
    obtain - | ⟨a, fields⟩ := fields
    · simpa using (hnames embeddedName).mpr rfl
    · rw [List.map_cons, List.head?_cons, (hnames a.1).mp List.mem_cons_self]
  | «sealed» bytes whole ih => exact fun hplain => ih h (everyObject_sealed.mp hplain)

/-- A settled value that is read back from what it wrote is plain. -/
theorem plain_of_expandWith (hread : ∀ text v, read text = some v → Plain v) (hj : settle? j = some j)
    (hback : (expandWith read j).bind settle? = some j) : Plain j := by
  induction j using parts_induction with
  | null | bool _ | num _ | str _ =>
    intro fields hw
    cases hw
  | unreadable | malformed => cases hj
  | arr items ih =>
    obtain ⟨v, hv, hsettle⟩ := Option.bind_eq_some_iff.mp hback
    obtain ⟨out, hout, rfl⟩ := Option.map_eq_some_iff.mp (by rwa [expandWith] at hv)
    obtain ⟨settled, hsettled, heq⟩ := Option.map_eq_some_iff.mp hsettle
    obtain rfl : settled = items := Json.arr.inj heq
    rw [expandItems_eq, mapM_eq_some_iff] at hout
    rw [settleItems?_eq, mapM_eq_some_iff] at hsettled
    refine everyObject_arr.mpr fun j hmem => ?_
    obtain ⟨w, hjw, hwj⟩ := forall₂_back hout hsettled hmem
    exact ih j hmem (settled_arr hj j hmem) (by rw [hjw, Option.bind_some, hwj])
  | obj fields ih =>
    obtain ⟨v, hv, hsettle⟩ := Option.bind_eq_some_iff.mp hback
    by_cases hhead : (fields.map Prod.fst).head? = some embeddedName
    · -- an embedded value is plain, so it cannot settle to an object of the reserved name alone
      obtain ⟨text, rfl, htext⟩ := expandWith_obj_eq_some hhead hv
      exact absurd (hread text v htext) (not_plain_of_settle? hsettle)
    · obtain ⟨mid, hmid, rfl⟩ := Option.map_eq_some_iff.mp (expandWith_obj hhead ▸ hv)
      obtain ⟨settled, hsettled, heq⟩ := Option.map_eq_some_iff.mp hsettle
      obtain rfl : settled = fields := Json.obj.inj heq
      have hfields := settled_obj hj
      have hvalues := settleFields?_back hfields (expandFields_eq_some_iff.mp hmid) hsettled
      exact everyObject_obj.mpr ⟨hhead, fun a ha =>
        ih a ha (hfields.settled a ha) (hvalues a ha)⟩
  | «sealed» bytes whole => exact absurd hj (settle?_ne_sealed bytes whole)

/-- A settled value is read back from what it wrote exactly when it is plain. -/
theorem expand?_settled_iff (hj : settle? j = some j) : (expand? j).bind settle? = some j ↔ Plain j := by
  refine ⟨plain_of_expandWith (fun text => readEmbedded_plain _ text) hj, fun hplain => ?_⟩
  rw [expand?, expandWith_settled hj hplain, Option.bind_some, hj]

/-! ### Values without the reserved name -/

theorem settle?_unreserved (hj : Unreserved j) : ∀ v, settle? j = some v → Unreserved v := by
  induction j using parts_induction with
  | null | bool _ | num _ | str _ =>
    intro v h
    cases h
    exact hj
  | unreadable | malformed =>
    intro v h
    cases h
  | arr items ih =>
    intro v h
    obtain ⟨out, hout, rfl⟩ := Option.map_eq_some_iff.mp h
    rw [settleItems?_eq, mapM_eq_some_iff] at hout
    refine everyObject_arr.mpr fun w hw => ?_
    obtain ⟨j, hmem, hjw⟩ := forall₂_mem_right hout hw
    exact ih j hmem (everyObject_arr.mp hj j hmem) w hjw
  | obj fields ih =>
    intro v h
    obtain ⟨hnames, hvalues⟩ := everyObject_obj.mp hj
    obtain ⟨out, hout, rfl⟩ := Option.map_eq_some_iff.mp h
    refine everyObject_obj.mpr ⟨?_, fun b hb => ?_⟩
    · simpa [mem_names_settleFields? hout] using hnames
    · obtain hnone | ⟨a, ha, hab⟩ := mem_settleFields? hout hb
      · cases hnone
      · exact ih a ha (hvalues a ha) b.2 hab
  | «sealed» bytes whole ih =>
    intro v h
    exact ih (everyObject_sealed.mp hj) v h

end Json

/-! ### Extra data -/

namespace Extra

/-- No object within the values opens with the reserved name. -/
def Plain (e : Extra) : Prop := ∀ a ∈ e.entries, a.2.Plain

variable {e : Extra} {fields out : List (String × Json)}

theorem expandEach?_eq_some_iff : expandEach? fields = some out ↔ Json.Fieldwise Json.expand? fields out := by
  rw [← Json.mapM_fields_eq_some_iff]
  refine Iff.of_eq (congrArg (· = some out) ?_)
  induction fields with
  | nil => simp [expandEach?]
  | cons a fields ih => simp [expandEach?, ih, Option.map_eq_bind, Option.bind_assoc]

theorem ofJson?_obj_eq_some_iff :
    ofJson? (.obj fields) = some e ↔
      ∃ mid, Json.Fieldwise Json.expand? fields mid ∧ Json.settleFields? mid [] = some e.entries := by
  simp only [← expandEach?_eq_some_iff, ← Option.bind_eq_some_iff]
  rw [ofJson?]
  split
  · next entries h =>
    cases e
    simp [h]
  · next h => simp [h]

/-- Extra data is read back from what it wrote exactly when it is plain. -/
theorem ofJson?_entries_iff : ofJson? (.obj e.entries) = some e ↔ e.Plain := by
  rw [ofJson?_obj_eq_some_iff]
  constructor
  · rintro ⟨mid, hmid, hback⟩ a ha
    exact (Json.expand?_settled_iff (e.orderly.settled a ha)).mp
      (Json.settleFields?_back e.orderly hmid hback a ha)
  · intro hplain
    refine ⟨e.entries, Json.Fieldwise.self.mpr fun a ha => ?_, Json.settleFields?_self e.orderly⟩
    exact Json.expandWith_settled (e.orderly.settled a ha) (hplain a ha)

/-- What is read where nothing has the reserved name is plain. -/
theorem plain_of_ofJson? {j : Json} (hj : j.Unreserved) (h : ofJson? j = some e) : e.Plain := by
  cases j with
  | obj fields =>
    obtain ⟨mid, hmid, hback⟩ := ofJson?_obj_eq_some_iff.mp h
    intro b hb
    obtain hnone | ⟨c, hc, hcb⟩ := Json.mem_settleFields? hback hb
    · cases hnone
    · obtain ⟨a, ha, hac⟩ := hmid.of_mem hc
      have ha := (Json.everyObject_obj.mp hj).2 a ha
      exact (Json.settle?_unreserved (Json.expandWith_unreserved ha c.2 hac) b.2 hcb).plain
  | _ => cases h

end Extra

end Chainfolio
