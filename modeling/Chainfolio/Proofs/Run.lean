import Mathlib.Data.List.Forall2
import Chainfolio.Run

/-! How operations that may fail are taken apart. A sequence of steps succeeds exactly when every step
does, each in the state that the one before has left. -/
namespace Chainfolio

section
variable {α β : Type}

theorem bind_eq_ok_iff {x : Except Fault α} {f : α → Except Fault β} {b : β} :
    x >>= f = .ok b ↔ ∃ a, x = .ok a ∧ f a = .ok b := by
  cases x with
  | error e => simp [bind, Except.bind]
  | ok a => simp [bind, Except.bind]

theorem bind_eq_error_iff {x : Except Fault α} {f : α → Except Fault β} {e : Fault} :
    x >>= f = .error e ↔ x = .error e ∨ ∃ a, x = .ok a ∧ f a = .error e := by
  cases x <;> simp [bind, Except.bind]

theorem map_eq_ok_iff {x : Except Fault α} {f : α → β} {b : β} :
    x.map f = .ok b ↔ ∃ a, x = .ok a ∧ f a = b := by
  cases x <;> simp [Except.map]

/-- What comes out in pairs with items comes of one of them. -/
theorem forall₂_mem_right {R : α → β → Prop} {items : List α} {out : List β} {b : β}
    (h : List.Forall₂ R items out) (hb : b ∈ out) : ∃ a ∈ items, R a b := by
  induction h with
  | nil => cases hb
  | cons hab _ ih =>
    rcases List.mem_cons.mp hb with rfl | hb
    · exact ⟨_, List.mem_cons_self, hab⟩
    · obtain ⟨a, ha, hf⟩ := ih hb
      exact ⟨a, List.mem_cons_of_mem _ ha, hf⟩

/-- Items are mapped when each of them is, also where nothing says why one is not. -/
theorem mapM_eq_some_iff {f : α → Option β} {items : List α} {out : List β} :
    items.mapM f = some out ↔ List.Forall₂ (fun a b => f a = some b) items out := by
  induction items generalizing out with
  | nil => simp [eq_comm]
  | cons a items ih =>
    rw [List.mapM_cons, List.forall₂_cons_left_iff]
    simp only [Option.bind_eq_bind, Option.bind_eq_some_iff, Option.pure_def, Option.some.injEq, ih,
      ← exists_and_left, @eq_comm _ out]

/-- Items are mapped when each of them is. -/
theorem mapM_eq_ok_iff {f : α → Except Fault β} {items : List α} {results : List β} :
    items.mapM f = .ok results ↔ List.Forall₂ (fun a b => f a = .ok b) items results := by
  induction items generalizing results with
  | nil => cases results <;> simp [pure, Except.pure]
  | cons a items ih =>
    rw [List.mapM_cons, bind_eq_ok_iff, List.forall₂_cons_left_iff]
    simp only [bind_eq_ok_iff, ih, pure, Except.pure, Except.ok.injEq]
    constructor
    · rintro ⟨b, hb, bs, hbs, rfl⟩
      exact ⟨b, bs, hb, hbs, rfl⟩
    · rintro ⟨b, bs, hb, hbs, rfl⟩
      exact ⟨b, hb, bs, hbs, rfl⟩

/-- Answers that are all there are what a function says that knows each of them. -/
theorem eq_map_of_mapM {g : α → Except Fault β} {f : α → β} {items : List α} {results : List β}
    (hf : ∀ a b, g a = .ok b → f a = b) (h : items.mapM g = .ok results) :
    (∀ a ∈ items, g a = .ok (f a)) ∧ results = items.map f := by
  have hanswers := mapM_eq_ok_iff.mp h
  clear h
  induction hanswers with
  | nil => exact ⟨nofun, rfl⟩
  | @cons a b items results hfirst _ ih =>
    obtain ⟨hall, rfl⟩ := ih
    obtain rfl := hf a b hfirst
    exact ⟨List.forall_mem_cons.mpr ⟨hfirst, hall⟩, rfl⟩

end

namespace Run
variable {σ α β : Type}

@[simp] theorem pure_apply (a : α) (s : σ) : (pure a : Run σ α) s = (.ok a, s) := rfl

@[simp] theorem ofExcept_apply (r : Except Fault α) (s : σ) : ofExcept r s = (r, s) := by
  cases r <;> rfl

@[simp] theorem read_apply (f : σ → α) (s : σ) : read f s = (.ok (f s), s) := rfl

@[simp] theorem outcome_apply (x : Run σ α) (s : σ) : outcome x s = (.ok (x s).1, (x s).2) := rfl

@[simp] theorem onSecond_apply {ρ : Type} (x : Run σ α) (r : ρ) (s : σ) :
    onSecond x (r, s) = ((x s).1, r, (x s).2) := rfl

theorem bind_apply (x : Run σ α) (f : α → Run σ β) (s : σ) :
    (x >>= f) s =
      match x s with
      | (.ok a, s') => f a s'
      | (.error e, s') => (.error e, s') := by
  simp only [bind, ExceptT.bind, ExceptT.mk, StateT.bind]
  rcases x s with ⟨e | a, s'⟩ <;> rfl

theorem bind_ok {x : Run σ α} {f : α → Run σ β} {a : α} {s s' : σ} (h : x s = (.ok a, s')) :
    (x >>= f) s = f a s' := by
  rw [bind_apply, h]

theorem bind_error {x : Run σ α} {f : α → Run σ β} {e : Fault} {s s' : σ}
    (h : x s = (.error e, s')) : (x >>= f) s = (.error e, s') := by
  rw [bind_apply, h]

/-- A result put in front of the results of what is left to run. -/
theorem cons_apply {x : Run σ (List α)} {r : Except Fault (List α)} {s s' : σ} (a : α)
    (h : x s = (r, s')) :
    (do return a :: (← x) : Run σ (List α)) s = (r.map (a :: ·), s') := by
  cases r with
  | error e => exact bind_error h
  | ok as => exact bind_ok h

theorem pure_eq_ok_iff {a b : α} {s s' : σ} :
    (pure a : Run σ α) s = (.ok b, s') ↔ a = b ∧ s' = s := by
  rw [pure_apply, Prod.mk.injEq, Except.ok.injEq, @eq_comm _ s]

theorem ofExcept_eq_ok_iff {r : Except Fault α} {a : α} {s s' : σ} :
    (ofExcept r : Run σ α) s = (.ok a, s') ↔ r = .ok a ∧ s' = s := by
  rw [ofExcept_apply, Prod.mk.injEq, @eq_comm _ s]

theorem ofOption_eq_ok_iff {fault : Fault} {a : Option α} {b : α} {s s' : σ} :
    (ofOption fault a : Run σ α) s = (.ok b, s') ↔ a = some b ∧ s' = s := by
  cases a with
  | none => exact ⟨nofun, nofun⟩
  | some a => exact pure_eq_ok_iff.trans (by rw [Option.some.injEq])

/-- A sequence of two steps succeeds when both do. -/
theorem bind_eq_ok_iff {x : Run σ α} {f : α → Run σ β} {b : β} {s s' : σ} :
    (x >>= f) s = (.ok b, s') ↔ ∃ a middle, x s = (.ok a, middle) ∧ f a middle = (.ok b, s') := by
  constructor
  · intro h
    rw [bind_apply] at h
    rcases hx : x s with ⟨e | a, middle⟩
    · rw [hx] at h
      cases h
    · rw [hx] at h
      exact ⟨a, middle, rfl, h⟩
  · rintro ⟨a, middle, hx, hf⟩
    rw [bind_ok hx, hf]

/-- Items run one after the other give what each of them gives in some state. -/
theorem forall₂_of_forEach {f : α → Run σ β} {items : List α} {results : List β} {s s' : σ}
    (h : forEach f items s = (.ok results, s')) :
    List.Forall₂ (fun a b => ∃ before after, f a before = (.ok b, after)) items results := by
  induction items generalizing results s with
  | nil =>
    cases h
    exact .nil
  | cons a items ih =>
    obtain ⟨b, middle, hfirst, h⟩ := bind_eq_ok_iff.mp h
    obtain ⟨rest, s₂, hrest, h⟩ := bind_eq_ok_iff.mp h
    cases h
    exact .cons ⟨s, middle, hfirst⟩ (ih hrest)

/-- What comes out of a run over items is what one of them gives in some state. -/
theorem exists_of_mem_forEach {f : α → Run σ β} {items : List α} {results : List β} {s s' : σ}
    (h : forEach f items s = (.ok results, s')) {b : β} (hb : b ∈ results) :
    ∃ a ∈ items, ∃ before after, f a before = (.ok b, after) :=
  forall₂_mem_right (forall₂_of_forEach h) hb

/-- What every item gives beside the item itself. -/
theorem forEach_zipWith {γ : Type} {f : α → Run σ β} {g : α → β → γ} {items : List α} :
    forEach (fun a => do return g a (← f a)) items = do
      return List.zipWith g items (← forEach f items) := by
  induction items with
  | nil => rfl
  | cons a items ih => simp only [forEach, ih, bind_assoc, pure_bind, List.zipWith_cons_cons]

/-- Items that give nothing are as good as left out. -/
theorem filterEach_eq_forEach {γ : Type} {f : α → Run σ (Option β)} {pick : α → Option γ}
    {g : γ → Run σ β} {items : List α}
    (hnone : ∀ a ∈ items, pick a = none → f a = pure none)
    (hsome : ∀ a ∈ items, ∀ c, pick a = some c → f a = do return some (← g c)) :
    filterEach f items = forEach g (items.filterMap pick) := by
  induction items with
  | nil => rfl
  | cons a items ih =>
    specialize ih (fun b hb => hnone b (List.mem_cons_of_mem _ hb))
      (fun b hb => hsome b (List.mem_cons_of_mem _ hb))
    have hcons : filterEach f (a :: items) = do
        let b ← f a
        return b.toList ++ (← filterEach f items) := by
      simp only [filterEach, forEach, bind_assoc, pure_bind]
      congr 1
      funext b
      cases b <;> rfl
    cases hpick : pick a with
    | none =>
      rw [hcons, hnone a List.mem_cons_self hpick, List.filterMap_cons_none hpick, ih, pure_bind]
      exact bind_pure _
    | some c =>
      rw [hcons, hsome a List.mem_cons_self c hpick, List.filterMap_cons_some hpick, forEach, ih]
      simp only [bind_assoc, pure_bind, Option.toList_some, List.singleton_append]

/-! ### What is kept -/

section
variable {Inv : σ → Prop}

/-- Whether an operation keeps what holds of the state, also where it fails. -/
def Keeps (x : Run σ α) (Inv : σ → Prop) : Prop := ∀ s, Inv s → Inv (x s).2

theorem Keeps.of_apply {x : Run σ α} {s s' : σ} {r : Except Fault α} (hx : x.Keeps Inv)
    (h : x s = (r, s')) (hs : Inv s) : Inv s' := by
  have hkept := hx s hs
  rwa [h] at hkept

theorem keeps_pure (a : α) : (pure a : Run σ α).Keeps Inv := fun _ hs => hs

theorem keeps_ofExcept (r : Except Fault α) : (ofExcept r : Run σ α).Keeps Inv := by
  intro s hs
  rwa [ofExcept_apply]

/-- An operation on the second part keeps what holds of both when it does so beside each first part. -/
theorem keeps_onSecond {ρ : Type} {x : Run σ α} {Inv : ρ × σ → Prop}
    (hx : ∀ r, x.Keeps fun s => Inv (r, s)) : (onSecond x).Keeps Inv :=
  fun (r, s) hs => hx r s hs

theorem Keeps.bind {x : Run σ α} {f : α → Run σ β} (hx : x.Keeps Inv)
    (hf : ∀ s a s', x s = (.ok a, s') → (f a).Keeps Inv) : (x >>= f).Keeps Inv := by
  intro s hs
  rcases hrun : x s with ⟨e | a, s'⟩
  · rw [bind_error hrun]
    exact hx.of_apply hrun hs
  · rw [bind_ok hrun]
    exact hf s a s' hrun s' (hx.of_apply hrun hs)

/-- What every step keeps is kept by the sequence of all steps. -/
theorem keeps_forEach {f : α → Run σ β} (hf : ∀ a, (f a).Keeps Inv) (items : List α) :
    (forEach f items).Keeps Inv := by
  induction items with
  | nil => exact keeps_pure _
  | cons a items ih =>
    exact (hf a).bind fun _ _ _ _ => ih.bind fun _ _ _ _ => keeps_pure _

end

/-! ### Two runs of one operation -/

section
variable {R : σ → σ → Prop}

/-- Whether an operation ends alike from related states and leaves them related. -/
def Agrees (x : Run σ α) (R : σ → σ → Prop) : Prop :=
  ∀ s s', R s s' → (x s).1 = (x s').1 ∧ R (x s).2 (x s').2

theorem Agrees.of_apply {x : Run σ α} {s s' t : σ} {r : Except Fault α} (hx : x.Agrees R)
    (h : x s = (r, s')) (hs : R s t) : ∃ t', x t = (r, t') ∧ R s' t' := by
  obtain ⟨hanswer, hafter⟩ := hx s t hs
  rw [h] at hanswer hafter
  exact ⟨(x t).2, Prod.ext hanswer.symm rfl, hafter⟩

theorem agrees_pure (a : α) : (pure a : Run σ α).Agrees R := fun _ _ h => ⟨rfl, h⟩

theorem agrees_throw (e : Fault) : (throw e : Run σ α).Agrees R := fun _ _ h => ⟨rfl, h⟩

theorem agrees_ofExcept (r : Except Fault α) : (ofExcept r : Run σ α).Agrees R := by
  intro s s' h
  simpa only [ofExcept_apply, true_and] using h

theorem agrees_ofOption (fault : Fault) (a : Option α) : (ofOption fault a : Run σ α).Agrees R := by
  cases a with
  | none => exact agrees_throw fault
  | some a => exact agrees_pure a

/-- What is read may differ as long as what comes next does not. -/
theorem agrees_read_bind {f : σ → α} {k : α → Run σ β} (hf : ∀ s s', R s s' → k (f s) = k (f s'))
    (hk : ∀ s s', R s s' → (k (f s)).Agrees R) : (read f >>= k).Agrees R := by
  intro s s' h
  rw [bind_ok (read_apply f s), bind_ok (read_apply f s'), ← hf s s' h]
  exact hk s s' h s s' h

theorem agrees_outcome {x : Run σ α} (hx : x.Agrees R) : (outcome x).Agrees R :=
  fun s s' h => ⟨congrArg Except.ok (hx s s' h).1, (hx s s' h).2⟩

/-- The second of two operations may use what the first one can answer in related states. -/
theorem Agrees.bind_of {x : Run σ α} {f : α → Run σ β} (hx : x.Agrees R)
    (hf : ∀ s s' a, R s s' → (x s).1 = .ok a → (f a).Agrees R) : (x >>= f).Agrees R := by
  intro s s' h
  obtain ⟨hanswer, hafter⟩ := hx s s' h
  rcases hrun : x s with ⟨e | a, s₁⟩ <;> rcases hrun' : x s' with ⟨r, s₁'⟩ <;>
    rw [hrun, hrun'] at hanswer hafter <;> subst hanswer
  · rw [bind_error hrun, bind_error hrun']
    exact ⟨rfl, hafter⟩
  · rw [bind_ok hrun, bind_ok hrun']
    exact hf s s' a h (by rw [hrun]) s₁ s₁' hafter

theorem Agrees.bind {x : Run σ α} {f : α → Run σ β} (hx : x.Agrees R)
    (hf : ∀ a, (f a).Agrees R) : (x >>= f).Agrees R := hx.bind_of fun _ _ a _ _ => hf a

theorem agrees_forEach {f : α → Run σ β} {items : List α} (hf : ∀ a ∈ items, (f a).Agrees R) :
    (forEach f items).Agrees R := by
  induction items with
  | nil => exact agrees_pure _
  | cons a items ih =>
    obtain ⟨hfirst, hrest⟩ := List.forall_mem_cons.mp hf
    exact hfirst.bind fun _ => (ih hrest).bind fun _ => agrees_pure _

theorem agrees_filterEach {f : α → Run σ (Option β)} {items : List α}
    (hf : ∀ a ∈ items, (f a).Agrees R) : (filterEach f items).Agrees R :=
  (agrees_forEach hf).bind fun _ => agrees_pure _

theorem agrees_forRange {f : Nat → Run σ β} (hf : ∀ n, (f n).Agrees R) (count first : Nat) :
    (forRange f count first).Agrees R := by
  induction count generalizing first with
  | zero => exact agrees_pure _
  | succ count ih => exact (hf first).bind fun _ => (ih (first + 1)).bind fun _ => agrees_pure _

/-- Whether something holds of both of two states. -/
def Both (Inv : σ → Prop) (s s' : σ) : Prop := Inv s ∧ Inv s'

/-- What agrees in any one state leaves the state as it is. -/
theorem Agrees.keeps {x : Run σ α} (hx : ∀ s, x.Agrees fun t t' => t = s ∧ t' = s) {Inv : σ → Prop} :
    x.Keeps Inv := by
  intro s hs
  rwa [((hx s) s s ⟨rfl, rfl⟩).2.1]

end

/-! ### Operations with one answer -/

section
variable {Inv : σ → Prop}

/-- Whether an operation has one answer in all states of some kind, and leads to such a state again. -/
def Always (x : Run σ α) (Inv : σ → Prop) (r : Except Fault α) : Prop :=
  ∀ s, Inv s → ∃ s', x s = (r, s') ∧ Inv s'

/-- What answers alike in all states of some kind answers in each of them as it does in one. -/
theorem Agrees.always {x : Run σ α} (hx : x.Agrees (Both Inv)) {s s' : σ} {r : Except Fault α}
    (h : x s = (r, s')) (hs : Inv s) : x.Always Inv r := by
  intro t ht
  obtain ⟨t', hrun, -, ht'⟩ := hx.of_apply h ⟨hs, ht⟩
  exact ⟨t', hrun, ht'⟩

theorem Agrees.inv {x : Run σ α} (hx : x.Agrees (Both Inv)) {s s' : σ} {r : Except Fault α}
    (h : x s = (r, s')) (hs : Inv s) : Inv s' := by
  obtain ⟨t', -, hs', -⟩ := hx.of_apply h ⟨hs, hs⟩
  exact hs'

theorem Agrees.exists_always {x : Run σ α} (hx : x.Agrees (Both Inv)) {s : σ} (hs : Inv s) :
    ∃ r, x.Always Inv r := ⟨_, hx.always rfl hs⟩

theorem Always.eq {x : Run σ α} {r : Except Fault α} (hx : x.Always Inv r) {s : σ} (hs : Inv s) :
    (x s).1 = r := by
  obtain ⟨s', hrun, -⟩ := hx s hs
  rw [hrun]

theorem always_pure (a : α) : (pure a : Run σ α).Always Inv (.ok a) := fun s hs => ⟨s, rfl, hs⟩

theorem Always.agrees {x : Run σ α} {r : Except Fault α} (hx : x.Always Inv r) :
    x.Agrees (Both Inv) := by
  rintro s s' ⟨hs, hs'⟩
  obtain ⟨t, hrun, ht⟩ := hx s hs
  obtain ⟨t', hrun', ht'⟩ := hx s' hs'
  rw [hrun, hrun']
  exact ⟨rfl, ht, ht'⟩

theorem Always.bind {x : Run σ α} {f : α → Run σ β} {r : Except Fault α} {g : α → Except Fault β}
    (hx : x.Always Inv r) (hf : ∀ a, r = .ok a → (f a).Always Inv (g a)) :
    (x >>= f).Always Inv (r >>= g) := by
  intro s hs
  obtain ⟨s', hrun, hs'⟩ := hx s hs
  cases r with
  | error e => exact ⟨s', bind_error hrun, hs'⟩
  | ok a =>
    rw [bind_ok hrun]
    exact hf a rfl s' hs'

theorem Always.bind_ok {x : Run σ α} {f : α → Run σ β} {a : α} {r : Except Fault β}
    (hx : x.Always Inv (.ok a)) (hf : (f a).Always Inv r) : (x >>= f).Always Inv r := by
  intro s hs
  obtain ⟨s', hrun, hs'⟩ := hx s hs
  rw [Run.bind_ok hrun]
  exact hf s' hs'

theorem always_ofExcept (r : Except Fault α) : (ofExcept r : Run σ α).Always Inv r :=
  fun s hs => ⟨s, ofExcept_apply r s, hs⟩

theorem always_forEach {f : α → Run σ β} {items : List α} {results : List β}
    (h : List.Forall₂ (fun a b => (f a).Always Inv (.ok b)) items results) :
    (forEach f items).Always Inv (.ok results) := by
  induction h with
  | nil => exact always_pure _
  | cons hfirst _ ih => exact hfirst.bind_ok (ih.bind_ok (always_pure _))

/-- Items with one answer each are run with the answers of all of them, up to the first failure. -/
theorem always_mapM {f : α → Run σ β} {g : α → Except Fault β} {items : List α}
    (h : ∀ a ∈ items, (f a).Always Inv (g a)) : (forEach f items).Always Inv (items.mapM g) := by
  induction items with
  | nil => exact always_pure _
  | cons a items ih =>
    obtain ⟨hfirst, hrest⟩ := List.forall_mem_cons.mp h
    rw [List.mapM_cons]
    exact hfirst.bind fun _ _ => (ih hrest).bind fun _ _ => always_pure _

theorem always_filterEach {f : α → Run σ (Option β)} {g : α → Except Fault (Option β)}
    {items : List α} (h : ∀ a ∈ items, (f a).Always Inv (g a)) :
    (filterEach f items).Always Inv ((items.mapM g).map fun results => results.filterMap id) := by
  intro s hs
  obtain ⟨s', hrun, hs'⟩ := always_mapM h s hs
  cases hresults : items.mapM g with
  | error e => exact ⟨s', bind_error (hrun.trans (by rw [hresults])), hs'⟩
  | ok results => exact ⟨s', bind_ok (hrun.trans (by rw [hresults])), hs'⟩

/-- Items with a result each are run to the results that are present. -/
theorem always_filterMap {f : α → Run σ (Option β)} {g : α → Option β} {items : List α}
    (h : ∀ a ∈ items, (f a).Always Inv (.ok (g a))) :
    (filterEach f items).Always Inv (.ok (items.filterMap g)) := by
  have hresults : (forEach f items).Always Inv (.ok (items.map g)) :=
    always_forEach (List.forall₂_map_right_iff.mpr (List.forall₂_same.mpr h))
  have hpresent : items.filterMap g = (items.map g).filterMap id := by
    rw [List.filterMap_map, Function.id_comp]
  rw [hpresent]
  exact hresults.bind_ok (always_pure _)

end

/-! ### Operations beside a record -/

section
variable {ρ : Type}

/-- Whether an operation ends as another one does, which it follows on the second part of a state. -/
def Follows (x : Run (ρ × σ) α) (y : Run σ α) : Prop :=
  ∀ r s, ∃ r', x (r, s) = ((y s).1, r', (y s).2)

theorem Follows.of_apply {x : Run (ρ × σ) α} {y : Run σ α} {s s' : σ} {a : Except Fault α}
    (hx : x.Follows y) (h : y s = (a, s')) (r : ρ) : ∃ r', x (r, s) = (a, r', s') := by
  obtain ⟨r', hr'⟩ := hx r s
  exact ⟨r', by rw [hr', h]⟩

theorem follows_pure (a : α) : (pure a : Run (ρ × σ) α).Follows (pure a) := fun r _ => ⟨r, rfl⟩

theorem follows_ofExcept (a : Except Fault α) : (ofExcept a : Run (ρ × σ) α).Follows (ofExcept a) := by
  intro r s
  exact ⟨r, by rw [ofExcept_apply, ofExcept_apply]⟩

theorem follows_onSecond (y : Run σ α) : (onSecond y : Run (ρ × σ) α).Follows y := fun r _ => ⟨r, rfl⟩

theorem Follows.bind {x : Run (ρ × σ) α} {y : Run σ α} {f : α → Run (ρ × σ) β} {g : α → Run σ β}
    (hx : x.Follows y) (hf : ∀ a, (f a).Follows (g a)) : (x >>= f).Follows (y >>= g) := by
  intro r s
  obtain ⟨r₁, hr₁⟩ := hx r s
  rcases hy : y s with ⟨e | a, s₁⟩
  · rw [hy] at hr₁
    exact ⟨r₁, by rw [bind_error hr₁, bind_error hy]⟩
  · rw [hy] at hr₁
    obtain ⟨r₂, hr₂⟩ := hf a r₁ s₁
    exact ⟨r₂, by rw [bind_ok hr₁, bind_ok hy, hr₂]⟩

theorem follows_forEach {f : α → Run (ρ × σ) β} {g : α → Run σ β} (hf : ∀ a, (f a).Follows (g a))
    (items : List α) : (forEach f items).Follows (forEach g items) := by
  induction items with
  | nil => exact follows_pure _
  | cons a items ih => exact (hf a).bind fun _ => ih.bind fun _ => follows_pure _

end

end Run

end Chainfolio
