import Chainfolio.Proofs.Codec.Scalars
import Chainfolio.Proofs.Run

/-! Values that are read back from their text. The reader is a machine with a stack of open containers:
the text of a value makes it hand that value to the innermost one, whatever is open around it. Containers
are taken in part by part, so that one relation between a state with its text and a later one is carried
through the whole text. An array that opens with the bytes of an address or a hash may come back sealed. -/
namespace Chainfolio

/-- Values that can be read back from their text, by the number of containers that may open one in another.
They hold no number but integers of 64 bits. -/
inductive Json.Legible : Nat → Json → Prop
  | null {room : Nat} : Legible room .null
  | bool {room : Nat} (b : Bool) : Legible room (.bool b)
  | natural {room n : Nat} (hn : n < UInt64.size) : Legible room (.num (.natural n))
  | negative {room n : Nat} (hpos : 0 < n) (hn : n ≤ twoTo 63) : Legible room (.num (.negative n))
  | str {room : Nat} (s : String) : Legible room (.str s)
  | arr {room : Nat} {items : List Json} (hitems : ∀ j ∈ items, Legible room j) :
      Legible (room + 1) (.arr items)
  | obj {room : Nat} {fields : List (String × Json)} (hfields : ∀ f ∈ fields, Legible room f.2) :
      Legible (room + 1) (.obj fields)

/-- One value is another with some of its arrays sealed. -/
inductive Json.Sealing : Json → Json → Prop
  | null : Sealing .null .null
  | bool (b : Bool) : Sealing (.bool b) (.bool b)
  | num (n : JsonNumber) : Sealing (.num n) (.num n)
  | str (s : String) : Sealing (.str s) (.str s)
  | arr {items out : List Json} (hitems : List.Forall₂ Sealing items out) : Sealing (.arr items) (.arr out)
  | arrSealed {items out : List Json} (bytes : List UInt8) (hitems : List.Forall₂ Sealing items out) :
      Sealing (.arr items) (.sealed bytes (.arr out))
  | obj {fields out : List (String × Json)} (hnames : fields.map Prod.fst = out.map Prod.fst)
      (hvalues : List.Forall₂ Sealing (fields.map Prod.snd) (out.map Prod.snd)) :
      Sealing (.obj fields) (.obj out)

namespace JsonText

/-! ### The next element -/

section
variable {s : State} {j : Json} {room : Nat} {text tail : List Char}

theorem skipBlanks_scalar (h : IsScalar j) (tail : List Char) :
    skipBlanks ((print j).toList ++ tail) = (print j).toList ++ tail := by
  obtain ⟨c, text, htext, hblank⟩ := h.first
  rw [htext, List.cons_append]
  exact List.dropWhile_cons_of_neg (by simp [hblank])

/-- An element without parts is given up at its end, and only the end of the array may follow there. -/
theorem close?_scalar (h : IsScalar j) (hends : Ends tail) :
    Overrun.close? (',' :: ((print j).toList ++ tail)) = none ∨
      ∃ rest, tail = ']' :: rest ∧ Overrun.close? (',' :: ((print j).toList ++ tail)) = some rest := by
  have hcomma : skipBlanks (',' :: ((print j).toList ++ tail)) = ',' :: ((print j).toList ++ tail) := rfl
  simp only [Overrun.close?, hcomma, skipBlanks_scalar h]
  obtain hnone | hsome := h.givenUp tail hends
  · simp [hnone]
  · simp only [hsome, Option.map_some]
    cases tail with
    | nil => exact .inl rfl
    | cons c rest =>
      obtain rfl | rfl | rfl := hends c rfl
      · exact .inl rfl
      · exact .inr ⟨rest, rfl, rfl⟩
      · exact .inl rfl

theorem lastElement?_scalar (h : IsScalar j) (rest : List Char) :
    lastElement? (',' :: ((print j).toList ++ ']' :: rest)) = some (j, rest) := by
  have hcomma : skipBlanks (',' :: ((print j).toList ++ ']' :: rest)) =
      ',' :: ((print j).toList ++ ']' :: rest) := rfl
  have htoken := h.token (']' :: rest) (by intro c hc; cases hc; simp)
  simp only [lastElement?, hcomma, skipBlanks_scalar h, htoken]
  cases j <;> rfl

/-- Nothing that opens a container is given up. -/
theorem close?_container {c : Char} (hc : c = '[' ∨ c = '\x7b') :
    Overrun.close? (',' :: c :: text) = none := by
  obtain rfl | rfl := hc <;> rfl

/-- A value has no parts or opens a container. -/
theorem scalar_or_container (h : j.Legible room) :
    (IsScalar j ∧ j.Sealing j) ∨ ∃ c text, (print j).toList = c :: text ∧ (c = '[' ∨ c = '\x7b') := by
  cases h with
  | null => exact .inl ⟨isScalar_null, .null⟩
  | bool b => exact .inl ⟨isScalar_bool b, .bool b⟩
  | natural hn => exact .inl ⟨isScalar_natural hn, .num _⟩
  | negative hpos hn => exact .inl ⟨isScalar_negative hpos hn, .num _⟩
  | str s => exact .inl ⟨isScalar_str s, .str s⟩
  | arr => exact .inr ⟨'[', _, by rw [print, String.append_assoc, String.toList_append]; rfl, .inl rfl⟩
  | obj => exact .inr ⟨'\x7b', _, by rw [print, String.append_assoc, String.toList_append]; rfl, .inr rfl⟩

/-- After a comma the machine goes on as ever, or the array closes with one last element without parts. -/
theorem overrun?_element (s : State) (h : j.Legible room) (hends : Ends tail) :
    s.overrun? (',' :: ((print j).toList ++ tail)) = none ∨
      ∃ bytes rest, tail = ']' :: rest ∧ j.Sealing j ∧
        s.overrun? (',' :: ((print j).toList ++ tail)) = some (.seal s.stack bytes (some j), rest) := by
  rw [State.overrun?]
  cases hbytes : s.bytes? with
  | none => exact .inl rfl
  | some bytes =>
    obtain ⟨hscalar, hsame⟩ | ⟨c, text, htext, hc⟩ := scalar_or_container h
    · obtain hnone | ⟨rest, rfl, hclose⟩ := close?_scalar hscalar hends
      · simp [hnone]
      · refine .inr ⟨bytes, rest, rfl, hsame, ?_⟩
        simp [hclose, lastElement?_scalar hscalar]
    · simp [htext, close?_container hc]

end

/-! ### The machine -/

/-- Whether the machine comes from one state and text to another, with fuel left where there was enough. -/
def Reaches (s : State) (text : List Char) (s' : State) (rest : List Char) : Prop :=
  ∀ fuel, text.length < fuel →
    ∃ fuel', rest.length < fuel' ∧ State.run fuel s text = State.run fuel' s' rest

section
variable {s s' s'' : State} {t : Token} {c : Char} {text text' rest : List Char}

theorem Reaches.trans (h : Reaches s text s' text') (h' : Reaches s' text' s'' rest) :
    Reaches s text s'' rest := by
  intro fuel hfuel
  obtain ⟨fuel', hfuel', heq⟩ := h fuel hfuel
  obtain ⟨fuel'', hfuel'', heq'⟩ := h' fuel' hfuel'
  exact ⟨fuel'', hfuel'', heq.trans heq'⟩

theorem overrun?_of_bytes? (h : s.bytes? = none) (text : List Char) : s.overrun? text = none := by
  rw [State.overrun?, h]
  rfl

/-- An array of bytes closes after the last of them. -/
theorem overrun?_closing (s : State) (rest : List Char) : s.overrun? (']' :: rest) = none := by
  rw [State.overrun?]
  cases s.bytes? <;> rfl

/-- A token that begins with no blank takes the machine one step further. -/
theorem Reaches.token (hs : s.overrun? (c :: text) = none) (hblank : isBlank c = false)
    (ht : token? (c :: text) = some (t, rest)) (hstep : s.step t = some s')
    (hrest : rest.length ≤ text.length) : Reaches s (c :: text) s' rest := by
  intro fuel hfuel
  obtain ⟨fuel, rfl⟩ := Nat.exists_eq_succ_of_ne_zero (Nat.ne_zero_of_lt hfuel)
  have hskip : skipBlanks (c :: text) = c :: text := List.dropWhile_cons_of_neg (by simp [hblank])
  refine ⟨fuel, by simp only [List.length_cons] at hfuel; omega, ?_⟩
  rw [State.run, hs, hskip]
  simp only [ht, hstep]

/-- An array that closes with one element more than it has bytes. -/
theorem Reaches.overrun (hs : s.overrun? text = some (s', rest)) (hrest : rest.length < text.length) :
    Reaches s text s' rest := by
  intro fuel hfuel
  obtain ⟨fuel, rfl⟩ := Nat.exists_eq_succ_of_ne_zero (Nat.ne_zero_of_lt hfuel)
  exact ⟨fuel, by omega, by rw [State.run, hs]⟩

end

section
variable {stack : List Frame} {closing : Bool} {j : Json} {rest : List Char} {room : Nat}

/-- Whether the text of a value makes the machine take in the value. -/
def Takes (stack : List Frame) (j : Json) : Prop :=
  ∀ closing rest, Ends rest → ∃ j', j.Sealing j' ∧
    Reaches ⟨stack, .value closing, none⟩ ((print j).toList ++ rest) (.fill stack j') rest

theorem ends_nil : Ends [] := nofun

theorem ends_cons {c : Char} (h : c = ',' ∨ c = ']' ∨ c = '\x7d') (rest : List Char) :
    Ends (c :: rest) := by
  intro d hd
  cases hd
  exact h

theorem takes_scalar (h : IsScalar j) (hsame : j.Sealing j) (stack : List Frame) : Takes stack j := by
  intro closing rest hends
  refine ⟨j, hsame, ?_⟩
  obtain ⟨c, text, htext, hblank⟩ := h.first
  have htoken := h.token rest hends
  rw [htext, List.cons_append] at *
  refine .token (overrun?_of_bytes? rfl _) hblank htoken ?_ (by simp)
  cases j <;> rfl

/-! Containers are taken in part by part. -/

theorem close_items {depth : Nat} (hdepth : depth < depthLimit) (items : List Json) (count : Nat) :
    Frame.close depth (.arr items count) = .arr items.reverse := by
  simp [Frame.close, Nat.not_le.mpr hdepth]

/-- What follows the first of some items; it is the closing bracket only after the last one. -/
theorem printItems_cons (j : Json) (items : List Json) (rest : List Char) :
    ∃ tail, (printItems (j :: items)).toList ++ ']' :: rest = (print j).toList ++ tail ∧ Ends tail ∧
      ∀ rest', tail = ']' :: rest' → items = [] ∧ rest' = rest := by
  cases items with
  | nil => exact ⟨_, by rw [printItems], ends_cons (by decide) rest, fun rest' h => ⟨rfl, by cases h; rfl⟩⟩
  | cons next items =>
    refine ⟨',' :: ((printItems (next :: items)).toList ++ ']' :: rest), by simp [printItems],
      ends_cons (by decide) _, fun rest' h => ?_⟩
    cases (List.cons.inj h).1

/-- The items of an array that are left, with some taken in before them. -/
theorem reaches_items (hdepth : stack.length + 1 < depthLimit) (todo : List Json) (hne : todo ≠ [])
    (htakes : ∀ taken count, ∀ j ∈ todo, Takes (.arr taken count :: stack) j)
    (hlegible : ∀ j ∈ todo, j.Legible room) (before taken : List Json)
    (hbefore : List.Forall₂ Json.Sealing before taken.reverse) (count : Nat) (closing : Bool)
    (rest : List Char) :
    ∃ j', (Json.arr (before ++ todo)).Sealing j' ∧
      Reaches ⟨.arr taken count :: stack, .value closing, none⟩
        ((printItems todo).toList ++ ']' :: rest) (.fill stack j') rest := by
  induction todo generalizing before taken count closing with
  | nil => exact absurd rfl hne
  | cons j todo ih =>
    have hfirst := htakes taken count j List.mem_cons_self closing
    cases todo with
    | nil =>
      obtain ⟨j', hj, hreaches⟩ := hfirst (']' :: rest) (ends_cons (by decide) rest)
      refine ⟨.arr (taken.reverse ++ [j']), .arr (List.rel_append hbefore (.cons hj .nil)),
        hreaches.trans (.token (overrun?_closing _ _) rfl rfl ?_ le_rfl)⟩
      simp only [State.fill, State.step, State.close, List.length_cons, close_items hdepth,
        List.reverse_cons]
    | cons next todo =>
      have hprint : (printItems (j :: next :: todo)).toList ++ ']' :: rest =
          (print j).toList ++ ',' :: ((printItems (next :: todo)).toList ++ ']' :: rest) := by
        simp [printItems]
      rw [hprint]
      obtain ⟨j', hj, hreaches⟩ :=
        hfirst (',' :: ((printItems (next :: todo)).toList ++ ']' :: rest)) (ends_cons (by decide) _)
      obtain ⟨tail, htail, hends, hlast⟩ := printItems_cons next todo rest
      have hbefore' : List.Forall₂ Json.Sealing (before ++ [j]) (j' :: taken).reverse := by
        rw [List.reverse_cons]
        exact List.rel_append hbefore (.cons hj .nil)
      obtain hquiet | ⟨bytes, rest', htailrest, hsame, hseal⟩ := overrun?_element
        (State.fill (.arr taken count :: stack) j') (hlegible next (by simp)) hends
      · rw [← htail] at hquiet
        obtain ⟨whole, hwhole, hrest⟩ := ih (by simp)
          (fun taken count j hj => htakes taken count j (List.mem_cons_of_mem _ hj))
          (fun j hj => hlegible j (List.mem_cons_of_mem _ hj)) (before ++ [j]) (j' :: taken) hbefore'
          (count + 1) false
        rw [List.append_assoc, List.singleton_append] at hwhole
        exact ⟨whole, hwhole, hreaches.trans ((Reaches.token hquiet rfl rfl rfl le_rfl).trans hrest)⟩
      · obtain ⟨rfl, rfl⟩ := hlast rest' htailrest
        rw [← htail] at hseal
        refine ⟨.sealed bytes (.arr ((j' :: taken).reverse ++ [next])), ?_,
          hreaches.trans (.overrun ?_ (by simp; omega))⟩
        · have hitems : List.Forall₂ Json.Sealing (before ++ [j] ++ [next]) _ :=
            List.rel_append hbefore' (.cons hsame .nil)
          rw [List.append_assoc, List.singleton_append] at hitems
          exact .arrSealed bytes hitems
        · rw [hseal]
          simp only [State.fill, State.seal, List.length_cons, close_items hdepth,
            if_neg (Nat.not_le.mpr hdepth), List.reverse_cons, List.append_assoc]

theorem takes_arr {items : List Json} (hdepth : stack.length + 1 < depthLimit)
    (htakes : ∀ taken count, ∀ j ∈ items, Takes (.arr taken count :: stack) j)
    (hlegible : ∀ j ∈ items, j.Legible room) : Takes stack (.arr items) := by
  intro closing rest _
  have hprint : (print (.arr items)).toList ++ rest = '[' :: ((printItems items).toList ++ ']' :: rest) := by
    simp [print]
  have hopen (text : List Char) : Reaches ⟨stack, .value closing, none⟩ ('[' :: text)
      ⟨.arr [] 0 :: stack, .value true, none⟩ text :=
    .token (overrun?_of_bytes? rfl _) rfl rfl rfl le_rfl
  rw [hprint]
  cases items with
  | nil =>
    refine ⟨.arr [], .arr .nil, (hopen _).trans (.token (overrun?_closing _ _) rfl rfl ?_ le_rfl)⟩
    simp only [State.step, State.close, List.length_cons, close_items hdepth, List.reverse_nil]
  | cons j items =>
    obtain ⟨j', hj, hreaches⟩ := reaches_items hdepth _ (by simp) htakes hlegible [] [] .nil 0 true rest
    exact ⟨j', hj, (hopen _).trans hreaches⟩

theorem close_fields {depth : Nat} (hdepth : depth < depthLimit) (fields : List (String × Json)) :
    Frame.close depth (.obj (fields.map fun f => (some f.1, f.2)).reverse none) = .obj fields := by
  have hkeys (named : Option String × Json → Option (String × Json))
      (hnamed : ∀ f : String × Json, named (some f.1, f.2) = some f) :
      (fields.map fun f => (some f.1, f.2)).mapM named = some fields := by
    induction fields with
    | nil => rfl
    | cons f fields ih => simp_all
  simp [Frame.close, Nat.not_le.mpr hdepth, hkeys]

/-- The name, the colon and the value of a field. -/
theorem reaches_field {fields : List (Option String × Json)} {key : Option String} {name : String}
    (htakes : Takes (.obj fields (some name) :: stack) j) (hends : Ends rest) :
    ∃ j', j.Sealing j' ∧
      Reaches ⟨.obj fields key :: stack, .key closing, none⟩
        ((quote name).toList ++ ':' :: ((print j).toList ++ rest))
        ⟨.obj ((some name, j') :: fields) none :: stack, .separator, none⟩ rest := by
  obtain ⟨j', hj, hvalue⟩ := htakes false rest hends
  have htoken := token?_quote name (':' :: ((print j).toList ++ rest))
  rw [toList_quote, List.cons_append] at *
  refine ⟨j', hj, (Reaches.token (overrun?_of_bytes? rfl _) rfl htoken rfl (by simp; omega)).trans ?_⟩
  exact (Reaches.token (overrun?_of_bytes? rfl _) rfl rfl rfl le_rfl).trans hvalue

/-- The fields of an object that are left, with some taken in before them. -/
theorem reaches_fields (hdepth : stack.length + 1 < depthLimit) (todo : List (String × Json))
    (hne : todo ≠ []) (htakes : ∀ taken key, ∀ f ∈ todo, Takes (.obj taken key :: stack) f.2)
    (before taken : List (String × Json)) (hnames : before.map Prod.fst = taken.map Prod.fst)
    (hvalues : List.Forall₂ Json.Sealing (before.map Prod.snd) (taken.map Prod.snd)) (closing : Bool)
    (rest : List Char) :
    ∃ j', (Json.obj (before ++ todo)).Sealing j' ∧
      Reaches ⟨.obj (taken.map fun f => (some f.1, f.2)).reverse none :: stack, .key closing, none⟩
        ((printFields todo).toList ++ '\x7d' :: rest) (.fill stack j') rest := by
  induction todo generalizing before taken closing with
  | nil => exact absurd rfl hne
  | cons f todo ih =>
    obtain ⟨name, j⟩ := f
    have hfirst := htakes (taken.map fun f => (some f.1, f.2)).reverse (some name) (name, j)
      List.mem_cons_self
    have hfield (rest : List Char) := @reaches_field stack closing j rest _ none name hfirst
    have hsnoc (j' : Json) : (some name, j') :: (taken.map fun f => (some f.1, f.2)).reverse =
        ((taken ++ [(name, j')]).map fun f => (some f.1, f.2)).reverse := by simp
    have hnames' (j' : Json) :
        (before ++ [(name, j)]).map Prod.fst = (taken ++ [(name, j')]).map Prod.fst := by simp [hnames]
    have hvalues' {j' : Json} (hj : j.Sealing j') : List.Forall₂ Json.Sealing
        ((before ++ [(name, j)]).map Prod.snd) ((taken ++ [(name, j')]).map Prod.snd) := by
      rw [List.map_append, List.map_append]
      exact List.rel_append hvalues (.cons hj .nil)
    cases todo with
    | nil =>
      have hprint : (printFields [(name, j)]).toList ++ '\x7d' :: rest =
          (quote name).toList ++ ':' :: ((print j).toList ++ '\x7d' :: rest) := by
        simp [printFields]
      rw [hprint]
      obtain ⟨j', hj, hreaches⟩ := hfield _ (ends_cons (.inr (.inr rfl)) rest)
      refine ⟨.obj (taken ++ [(name, j')]), .obj (hnames' j') (hvalues' hj), hreaches.trans ?_⟩
      refine .token (overrun?_of_bytes? rfl _) rfl rfl ?_ le_rfl
      simp only [State.step, State.close, List.length_cons, hsnoc, close_fields hdepth]
    | cons f' todo =>
      have hprint : (printFields ((name, j) :: f' :: todo)).toList ++ '\x7d' :: rest =
          (quote name).toList ++ ':' :: ((print j).toList ++
            ',' :: ((printFields (f' :: todo)).toList ++ '\x7d' :: rest)) := by
        simp [printFields]
      rw [hprint]
      obtain ⟨j', hj, hreaches⟩ := hfield _ (ends_cons (.inl rfl) _)
      obtain ⟨whole, hwhole, hrest⟩ := ih (by simp)
        (fun taken key f hf => htakes taken key f (List.mem_cons_of_mem _ hf)) (before ++ [(name, j)])
        (taken ++ [(name, j')]) (hnames' j') (hvalues' hj) false
      rw [List.append_assoc, List.singleton_append] at hwhole
      rw [hsnoc] at hreaches
      refine ⟨whole, hwhole, hreaches.trans (Reaches.trans ?_ hrest)⟩
      exact .token (overrun?_of_bytes? rfl _) rfl rfl rfl le_rfl

theorem takes_obj {fields : List (String × Json)} (hdepth : stack.length + 1 < depthLimit)
    (htakes : ∀ taken key, ∀ f ∈ fields, Takes (.obj taken key :: stack) f.2) :
    Takes stack (.obj fields) := by
  intro closing rest _
  have hprint : (print (.obj fields)).toList ++ rest =
      '\x7b' :: ((printFields fields).toList ++ '\x7d' :: rest) := by
    simp [print]
  have hopen (text : List Char) : Reaches ⟨stack, .value closing, none⟩ ('\x7b' :: text)
      ⟨.obj [] none :: stack, .key true, none⟩ text :=
    .token (overrun?_of_bytes? rfl _) rfl rfl rfl le_rfl
  rw [hprint]
  cases fields with
  | nil =>
    refine ⟨.obj [], .obj rfl .nil, (hopen _).trans (.token (overrun?_of_bytes? rfl _) rfl rfl ?_ le_rfl)⟩
    simp only [State.step, State.close, List.length_cons]
    exact congrArg (fun j => some (State.fill stack j)) (close_fields hdepth [])
  | cons f fields =>
    obtain ⟨j', hj, hreaches⟩ := reaches_fields hdepth _ (by simp) htakes [] [] rfl .nil true rest
    exact ⟨j', hj, (hopen _).trans hreaches⟩

theorem takes_legible (h : j.Legible room) (stack : List Frame) (hdepth : stack.length + room < depthLimit) :
    Takes stack j := by
  induction h generalizing stack with
  | null => exact takes_scalar isScalar_null .null stack
  | bool b => exact takes_scalar (isScalar_bool b) (.bool b) stack
  | natural hn => exact takes_scalar (isScalar_natural hn) (.num _) stack
  | negative hpos hn => exact takes_scalar (isScalar_negative hpos hn) (.num _) stack
  | str s => exact takes_scalar (isScalar_str s) (.str s) stack
  | arr hitems ih =>
    refine takes_arr (by omega) (fun taken count j hj => ih j hj _ ?_) hitems
    rw [List.length_cons]
    omega
  | obj hfields ih =>
    refine takes_obj (by omega) fun taken key f hf => ih f hf _ ?_
    rw [List.length_cons]
    omega

end

end JsonText

/-- A value is read back from its text, but for arrays that come back sealed. -/
theorem Json.exists_parse?_text {j : Json} {room : Nat} (h : j.Legible room)
    (hroom : room < JsonText.depthLimit) : ∃ j', Json.parse? j.text = some j' ∧ j.Sealing j' := by
  obtain ⟨j', hj, htakes⟩ :=
    JsonText.takes_legible h [] (by simpa using hroom) false [] JsonText.ends_nil
  rw [List.append_nil] at htakes
  obtain ⟨fuel, hfuel, hrun⟩ := htakes ((JsonText.print j).length + 1) (Nat.lt_succ_self _)
  obtain ⟨fuel, rfl⟩ := Nat.exists_eq_succ_of_ne_zero (Nat.ne_zero_of_lt hfuel)
  refine ⟨j', ?_, hj⟩
  rw [Json.parse?, Json.text, JsonText.State.initial, hrun]
  rfl

end Chainfolio
