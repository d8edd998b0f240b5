import Chainfolio.Proofs.Store.Paths
import Chainfolio.Proofs.Store.Tree

/-! The store of files as a map from products to listings. Writing one listing makes directories and replaces
one file, so that each product keeps the last listing that was written for it. -/
namespace Chainfolio.FileStore

variable {f f' g : FileStore} {key other : ProductKey} {path : Path} {text name : String} {dirs : List String}
  {q p' : Place} {r : Except Fault Unit} {tokens : List ProtocolToken}

/-! ### Texts of files -/

/-- The text of a product's file. -/
def textOf (f : FileStore) (key : ProductKey) : Except PathFault String :=
  f.place.textAt key.directories key.fileName

theorem start_of_relative (hrelative : path.isAbsolute = false) : f.start path = f.place := by
  simp [start, hrelative]

theorem readText_filePath (h : key.IsOrdinary) :
    f.readText (Path.ofText key.filePath) =
      if isUsable (Path.ofText key.filePath) then f.textOf key else .error .unusable := by
  rw [readText, ProductKey.fileName?_filePath h, start_of_relative (ProductKey.isAbsolute_filePath h),
    ProductKey.parts_filePath h, List.dropLast_concat]
  by_cases husable : isUsable (Path.ofText key.filePath) = true
  · simp [husable, textOf, Place.textAt]
  · simp [husable]

/-- After a change below the store's directory its files are those of the directory as it has become. -/
theorem textAt_changed (hlies : q.LiesBelow p') (habove : p'.above = f.place.above)
    (hdirs : ∀ part ∈ dirs, Path.IsName part) :
    (f.changed q).place.textAt dirs name = p'.textAt dirs name := by
  refine Place.textAt_congr hdirs ?_
  have hnames : f.place.names = p'.names := by rw [Place.names, Place.names, habove]
  rw [changed, hlies.top_eq, hnames]
  exact p'.entries_foldl_down

/-- Making directories keeps every file that lies as deep. -/
theorem makeDirectories_keeps (hparts : ∀ part ∈ path.parts, Path.IsName part)
    (hrelative : path.isAbsolute = false) (h : makeDirectories path f = (r, f')) :
    f.place.Keeps path.parts.length f'.place := by
  rw [makeDirectories] at h
  split at h
  · cases h
    exact fun dirs name _ _ => .inl rfl
  · rw [start_of_relative hrelative] at h
    rcases hmake : Place.followOrMake path.parts f.place with ⟨made, q⟩
    obtain ⟨p', hlies, habove, hkeeps⟩ := Place.followOrMake_keeps hparts hmake
    rw [hmake] at h
    cases h
    intro dirs name hlength hdirs
    rw [textAt_changed hlies habove hdirs]
    exact hkeeps dirs name hlength hdirs

/-- A file is written where it can be looked up, and every other one that lies as deep is kept. -/
structure Writes (f : FileStore) (path : Path) (dirs : List String) (name text : String) (f' : FileStore) :
    Prop where
  usable : isUsable path = true
  short : ∀ part ∈ dirs, part.utf8ByteSize ≤ Place.nameLimit
  text : f'.place.textAt dirs name = .ok text
  others : ∀ dirs' other, dirs'.length = dirs.length → (∀ part ∈ dirs', Path.IsName part) →
    (dirs' ≠ dirs ∨ other ≠ name) → f'.place.textAt dirs' other = f.place.textAt dirs' other

theorem replaceText_cases (hdirs : ∀ part ∈ dirs, Path.IsName part) (hparts : path.parts = dirs ++ [name])
    (hrelative : path.isAbsolute = false) (hname : path.fileName? = some name)
    (h : replaceText path text f = (r, f')) :
    (r = .error .io ∧ f' = f) ∨ r = .ok () ∧ f.Writes path dirs name text f' := by
  rw [replaceText, hname, start_of_relative hrelative, hparts, List.dropLast_concat] at h
  split at h
  · cases h
    exact .inl ⟨rfl, rfl⟩
  · next own hown =>
    obtain ⟨hsame, husable⟩ := Option.filter_eq_some_iff.mp hown
    obtain rfl : name = own := Option.some.inj hsame
    split at h
    · cases h
      exact .inl ⟨rfl, rfl⟩
    · next directory hfollow =>
      split at h
      · cases h
        exact .inl ⟨rfl, rfl⟩
      · next written hwrite =>
        cases h
        obtain ⟨p', hlies, habove, htext, hothers⟩ := Place.writeFile_textAt hdirs hfollow hwrite
        refine .inr ⟨rfl, husable, (Place.names_follow hdirs hfollow).2, ?_, ?_⟩
        · rw [textAt_changed hlies habove hdirs, htext]
        · intro dirs' other hlength hdirs' hne
          rw [textAt_changed hlies habove hdirs', hothers dirs' other hlength hdirs' hne]

theorem makeDirectories_parent (h : key.IsOrdinary)
    (hmake : makeDirectories (Path.ofText key.filePath).parent f = (r, f')) :
    f.place.Keeps 2 f'.place := by
  have hrelative := ProductKey.isAbsolute_parent h
  rw [ProductKey.parent_filePath h] at hmake hrelative
  exact makeDirectories_keeps (ProductKey.isName_of_mem_directories h) hrelative hmake

/-- A listing is written after directories have been made, or nothing is done but that. -/
theorem insert_cases (h : key.IsOrdinary) (hinsert : insert key tokens f = (r, f')) :
    ∃ made : FileStore, f.place.Keeps 2 made.place ∧
      ((∃ fault, r = .error fault) ∧ f' = made ∨
        r = .ok () ∧ made.Writes (Path.ofText key.filePath) key.directories key.fileName
          (ListingFile.text ⟨f.now, tokens⟩) f') := by
  have hdirs := ProductKey.isName_of_mem_directories h
  rw [insert, Run.bind_ok (Run.read_apply FileStore.now f), writeText] at hinsert
  rcases hmake : makeDirectories (Path.ofText key.filePath).parent f with ⟨outcome, made⟩
  refine ⟨made, makeDirectories_parent h hmake, ?_⟩
  cases outcome with
  | error fault =>
    rw [Run.bind_error hmake] at hinsert
    cases hinsert
    exact .inl ⟨⟨fault, rfl⟩, rfl⟩
  | ok =>
    rw [Run.bind_ok hmake] at hinsert
    obtain ⟨hfault, hsame⟩ | hwrites := replaceText_cases hdirs (ProductKey.parts_filePath h)
      (ProductKey.isAbsolute_filePath h) (ProductKey.fileName?_filePath h) hinsert
    · exact .inl ⟨⟨_, hfault⟩, hsame⟩
    · exact .inr hwrites

/-- Only what a file system takes can be written. -/
theorem isStorable_of_insert (h : key.IsOrdinary) (hinsert : insert key tokens f = (.ok (), f')) :
    key.IsStorable := by
  obtain ⟨made, -, ⟨⟨fault, hfault⟩, -⟩ | ⟨-, hwrites⟩⟩ := insert_cases h hinsert
  · cases hfault
  · exact ⟨hwrites.short _ (by simp [ProductKey.directories]),
      ((ProductKey.isUsable_filePath_iff h).mp hwrites.usable).2⟩

/-- A listing that has been written is the text of the product's file. -/
theorem textOf_insert_self (h : key.IsOrdinary) (hinsert : insert key tokens f = (.ok (), f')) :
    f'.textOf key = .ok (ListingFile.text ⟨f.now, tokens⟩) := by
  obtain ⟨made, -, ⟨⟨fault, hfault⟩, -⟩ | ⟨-, hwrites⟩⟩ := insert_cases h hinsert
  · cases hfault
  · exact hwrites.text

/-- Nothing but a product's own file changes when its listing is written, except that a file whose name is
too long may no longer be missing. -/
theorem textOf_insert (h : key.IsOrdinary) (hinsert : insert key tokens f = (r, f'))
    (hother : other.IsOrdinary) (hne : other ≠ key ∨ r ≠ .ok ()) :
    f'.textOf other = f.textOf other ∨
      Place.nameLimit < other.product.utf8ByteSize ∧ f'.textOf other = .error .unusable := by
  obtain ⟨made, hkeeps, hcases⟩ := insert_cases h hinsert
  have hmade := hkeeps other.directories other.fileName rfl (ProductKey.isName_of_mem_directories hother)
  rw [ProductKey.exists_long_iff] at hmade
  have hsame : f'.textOf other = made.textOf other := by
    obtain ⟨-, rfl⟩ | ⟨hok, hwrites⟩ := hcases
    · rfl
    · refine hwrites.others _ _ rfl (ProductKey.isName_of_mem_directories hother) ?_
      exact ProductKey.file_ne (hne.resolve_right fun hnot => hnot hok)
  rwa [hsame]

/-- The directories of a product are made where its file could be looked up. -/
theorem exists_makeDirectories_parent (h : key.IsOrdinary) (hstorable : key.IsStorable)
    (htext : f.textOf key ≠ .error .unusable) :
    ∃ made directory, makeDirectories (Path.ofText key.filePath).parent f = (.ok (), made) ∧
      made.place.follow key.directories = .ok directory := by
  have hdirs := ProductKey.isName_of_mem_directories h
  have hshort : ∀ part ∈ key.directories ++ [key.fileName], ¬ Place.nameLimit < part.utf8ByteSize :=
    fun part hpart hlong => hstorable.not_long (ProductKey.exists_long_iff.mp ⟨part, hpart, hlong⟩)
  obtain ⟨q, hmade⟩ := Place.followOrMake_of_textAt hdirs hshort htext
  obtain ⟨hnames, hlimits⟩ := Place.names_followOrMake hdirs hmade
  obtain ⟨directory, hfollow, -⟩ :=
    Place.follow_names hnames fun part hpart => ⟨hdirs part hpart, hlimits part hpart⟩
  refine ⟨f.changed q, directory, ?_, hfollow⟩
  have husable := ProductKey.isUsable_parent h (hstorable.isUsable h)
  rw [makeDirectories, if_neg (not_not.mpr husable), start_of_relative (ProductKey.isAbsolute_parent h),
    ProductKey.parent_filePath h]
  simp only [hmade]

/-- The listing of a product whose file could be looked up is written. -/
theorem exists_insert (h : key.IsOrdinary) (hstorable : key.IsStorable)
    (htext : f.textOf key ≠ .error .unusable) (tokens : List ProtocolToken) :
    ∃ f', insert key tokens f = (.ok (), f') := by
  obtain ⟨made, directory, hmake, hfollow⟩ := exists_makeDirectories_parent h hstorable htext
  have hread : directory.readFile key.fileName ≠ .error .unusable := by
    have hmade : made.textOf key = directory.readFile key.fileName := by
      rw [textOf, Place.textAt, hfollow]
      rfl
    obtain hsame | ⟨hlong, -⟩ := makeDirectories_parent h hmake key.directories key.fileName rfl
      (ProductKey.isName_of_mem_directories h)
    · rw [← hmade, textOf, hsame]
      exact htext
    · exact absurd (ProductKey.exists_long_iff.mp hlong) hstorable.not_long
  have hname : (Path.ofText key.filePath).fileName?.filter (fun _ => isUsable (Path.ofText key.filePath)) =
      some key.fileName := by
    rw [ProductKey.fileName?_filePath h, Option.filter_some, hstorable.isUsable h]
    rfl
  rw [insert, Run.bind_ok (Run.read_apply FileStore.now f), writeText, Run.bind_ok hmake, replaceText, hname,
    start_of_relative (ProductKey.isAbsolute_filePath h), ProductKey.parts_filePath h, List.dropLast_concat,
    hfollow]
  simp only [Place.writeFile]
  exact ⟨_, rfl⟩

/-! ### Listings -/

/-- The listing of a product is what its file says. -/
theorem get?_congr (h : key.IsOrdinary) (htext : f.textOf key = g.textOf key) : f.get? key = g.get? key := by
  rw [get?, get?, readText_filePath h, readText_filePath h, htext]

theorem get?_of_unusable (h : key.IsOrdinary) (htext : f.textOf key = .error .unusable) :
    f.get? key = .error .io := by
  rw [get?, readText_filePath h, htext, ite_self]

/-- A listing that has been written is read, if its text can be. -/
theorem get?_insert_self (h : key.IsOrdinary) (hback : ListingFile.ReadsBack ⟨f.now, tokens⟩)
    (hinsert : insert key tokens f = (.ok (), f')) : f'.get? key = .ok (some tokens) := by
  have husable := (isStorable_of_insert h hinsert).isUsable h
  rw [get?, readText_filePath h, textOf_insert_self h hinsert, if_pos husable]
  rw [ListingFile.ReadsBack] at hback
  simp only [hback]
  rfl

/-- Another listing is read as before, or its product is too long a name. -/
theorem get?_insert_other (h : key.IsOrdinary) (hother : other.IsOrdinary) (hne : other ≠ key ∨ r ≠ .ok ())
    (hinsert : insert key tokens f = (r, f')) :
    f'.get? other = f.get? other ∨
      Place.nameLimit < other.product.utf8ByteSize ∧ f'.get? other = .error .io := by
  obtain hsame | ⟨hlong, hunusable⟩ := textOf_insert h hinsert hother hne
  · exact .inl (get?_congr hother hsame)
  · exact .inr ⟨hlong, get?_of_unusable hother hunusable⟩

/-- The files of all products could be looked up, as far as a file system takes them. -/
def IsOpen (f : FileStore) : Prop :=
  ∀ key : ProductKey, key.IsOrdinary → key.IsStorable → f.textOf key ≠ .error .unusable

theorem IsOpen.insert (hopen : f.IsOpen) (h : key.IsOrdinary) (hinsert : insert key tokens f = (r, f')) :
    f'.IsOpen := by
  intro other hother hstorable
  by_cases hself : other = key ∧ r = .ok ()
  · obtain ⟨rfl, rfl⟩ := hself
    rw [textOf_insert_self h hinsert]
    nofun
  · obtain hsame | ⟨hlong, -⟩ := textOf_insert h hinsert hother (not_and_or.mp hself)
    · rw [hsame]
      exact hopen other hother hstorable
    · exact absurd hlong hstorable.not_long

/-- In an empty directory there is no listing; one whose product is too long a name cannot be looked up. -/
theorem textOf_of_empty (h : key.IsOrdinary) (hempty : f.place.entries = []) :
    f.textOf key = .error .missing ∨
      Place.nameLimit < key.product.utf8ByteSize ∧ f.textOf key = .error .unusable := by
  have htext := Place.textAt_empty key.fileName (ProductKey.isName_of_mem_directories h) hempty
  rwa [ProductKey.exists_long_iff] at htext

theorem isOpen_of_empty (hempty : f.place.entries = []) : f.IsOpen := by
  intro key h hstorable
  obtain hmissing | ⟨hlong, -⟩ := textOf_of_empty h hempty
  · rw [hmissing]
    nofun
  · exact absurd hlong hstorable.not_long

/-- In an empty directory a listing is missing, or its product is no name that a file system takes. -/
theorem get?_of_empty (h : key.IsOrdinary) (hempty : f.place.entries = []) :
    f.get? key = .ok none ∨ ¬ key.IsStorable ∧ f.get? key = .error .io := by
  rw [get?, readText_filePath h]
  by_cases husable : isUsable (Path.ofText key.filePath) = true
  · rw [if_pos husable]
    obtain hmissing | ⟨hlong, hunusable⟩ := textOf_of_empty h hempty
    · rw [hmissing]
      exact .inl rfl
    · rw [hunusable]
      exact .inr ⟨fun hstorable => hstorable.not_long hlong, rfl⟩
  · rw [if_neg husable]
    exact .inr ⟨fun hstorable => husable (hstorable.isUsable h), rfl⟩

/-- Where the protocol of a product has a listing, a product with too long a name cannot be looked up. -/
theorem textOf_of_long (h : key.IsOrdinary) (hprotocol : other.protocol = key.protocol)
    (hlong : Place.nameLimit < key.product.utf8ByteSize) (hother : f.textOf other = .ok text) :
    f.textOf key = .error .unusable := by
  have hname := ProductKey.isName_protocol key.protocol
  rw [textOf, ProductKey.directories, hprotocol, Place.textAt_cons hname] at hother
  rw [textOf, ProductKey.directories, Place.textAt_cons hname]
  cases henter : f.place.enter key.protocol.name with
  | error fault =>
    rw [henter] at hother
    cases hother
  | ok place =>
    change Place.textAt [key.product] key.fileName place = _
    rw [Place.textAt_cons h.1, Place.enter, if_pos hlong]
    rfl

/-! ### Many listings -/

/-- A listing that is written at some time. -/
structure Put where
  key : ProductKey
  tokens : List ProtocolToken
  now : String

/-- Writes a listing at its time. -/
def put (f : FileStore) (p : Put) : Except Fault Unit × FileStore :=
  insert p.key p.tokens { f with now := p.now }

/-- The store after listings have been written one after the other, or have failed to be. -/
def after (f : FileStore) (puts : List Put) : FileStore := puts.foldl (fun f p => (f.put p).2) f

/-- The last listing of a product. -/
def lastOf (key : ProductKey) (puts : List Put) : Option (List ProtocolToken) :=
  ((puts.filter fun p => p.key = key).getLast?).map Put.tokens

variable {p : Put} {puts : List Put}

theorem after_cons (hput : f.put p = (r, f')) : f.after (p :: puts) = f'.after puts := by
  rw [after, List.foldl_cons, hput, after]

theorem put_self (h : p.key.IsOrdinary) (hback : ListingFile.ReadsBack ⟨p.now, p.tokens⟩)
    (hput : f.put p = (.ok (), f')) : f'.get? p.key = .ok (some p.tokens) :=
  get?_insert_self (f := { f with now := p.now }) h hback hput

theorem put_other (h : p.key.IsOrdinary) (hother : other.IsOrdinary) (hne : other ≠ p.key ∨ r ≠ .ok ())
    (hput : f.put p = (r, f')) :
    f'.get? other = f.get? other ∨
      Place.nameLimit < other.product.utf8ByteSize ∧ f'.get? other = .error .io :=
  get?_insert_other (f := { f with now := p.now }) h hother hne hput

theorem IsOpen.exists_put (hopen : f.IsOpen) (h : p.key.IsOrdinary) (hstorable : p.key.IsStorable) :
    ∃ f', f.put p = (.ok (), f') :=
  exists_insert (f := { f with now := p.now }) h hstorable (hopen _ h hstorable) p.tokens

theorem IsOpen.put (hopen : f.IsOpen) (h : p.key.IsOrdinary) (hput : f.put p = (r, f')) : f'.IsOpen :=
  IsOpen.insert (f := { f with now := p.now }) hopen h hput

theorem lastOf_cons_self (p : Put) (puts : List Put) :
    lastOf p.key (p :: puts) = some ((lastOf p.key puts).getD p.tokens) := by
  rw [lastOf, List.filter_cons_of_pos (by simp), List.getLast?_cons, Option.map_some, lastOf]
  cases (puts.filter fun q => q.key = p.key).getLast? <;> rfl

theorem lastOf_cons_other (h : p.key ≠ key) (puts : List Put) :
    lastOf key (p :: puts) = lastOf key puts := by
  rw [lastOf, List.filter_cons_of_neg (by simpa using h), lastOf]

/-- After any writes the last listing of each product is read. -/
theorem get?_after (hopen : f.IsOpen)
    (hputs : ∀ p ∈ puts, p.key.IsOrdinary ∧ ListingFile.ReadsBack ⟨p.now, p.tokens⟩)
    (h : key.IsOrdinary) (hstorable : key.IsStorable) :
    (f.after puts).get? key =
      match lastOf key puts with
      | some tokens => .ok (some tokens)
      | none => f.get? key := by
  induction puts generalizing f with
  | nil => rfl
  | cons p puts ih =>
    obtain ⟨⟨hp, hback⟩, hputs⟩ := List.forall_mem_cons.mp hputs
    rcases hput : f.put p with ⟨r, f'⟩
    rw [after_cons hput, ih (hopen.put hp hput) hputs]
    by_cases hkey : p.key = key
    · subst hkey
      obtain ⟨written, hwritten⟩ := hopen.exists_put hp hstorable
      rw [hput] at hwritten
      cases hwritten
      rw [lastOf_cons_self]
      cases lastOf p.key puts with
      | some tokens => rfl
      | none => exact put_self hp hback hput
    · rw [lastOf_cons_other hkey]
      cases lastOf key puts with
      | some tokens => rfl
      | none =>
        obtain hsame | ⟨hlong, -⟩ := put_other hp h (.inl (Ne.symm hkey)) hput
        · exact hsame
        · exact absurd hlong hstorable.not_long

/-- A product that a file system does not take keeps having no listing. -/
theorem get?_after_of_not_isStorable (hputs : ∀ p ∈ puts, p.key.IsOrdinary) (h : key.IsOrdinary)
    (hstorable : ¬ key.IsStorable) :
    (f.after puts).get? key = f.get? key ∨ (f.after puts).get? key = .error .io := by
  induction puts generalizing f with
  | nil => exact .inl rfl
  | cons p puts ih =>
    obtain ⟨hp, hputs⟩ := List.forall_mem_cons.mp hputs
    rcases hput : f.put p with ⟨r, f'⟩
    have hne : key ≠ p.key ∨ r ≠ .ok () := by
      by_contra! hself
      obtain ⟨rfl, rfl⟩ := hself
      exact hstorable (isStorable_of_insert hp hput)
    rw [after_cons hput]
    obtain hsame | hfault := ih (f := f') hputs
    · obtain hbefore | ⟨-, hfault⟩ := put_other hp h hne hput
      · exact .inl (hsame.trans hbefore)
      · exact .inr (hsame.trans hfault)
    · exact .inr hfault

/-- What has been written to a product's file is read from it, also by another store on the same directory, and
writing another product's listing changes nothing there. After any writes to an empty directory each product
that a file system takes has its last listing, or none if it was never written. Where the product is no such
name, its listing is missing, or it cannot be looked up. A listing is read back from its text if it tells its
time and the extra data in it is durable. -/
theorem listings_kept (h : key.IsOrdinary) :
    (∀ (f f' g : FileStore) (tokens : List ProtocolToken), ListingFile.ReadsBack ⟨f.now, tokens⟩ →
      insert key tokens f = (.ok (), f') → g.place = f'.place → g.get? key = .ok (some tokens)) ∧
    (∀ (f f' : FileStore) (other : ProductKey) (tokens : List ProtocolToken) (r : Except Fault Unit),
      other.IsOrdinary → other ≠ key → insert other tokens f = (r, f') →
      f'.get? key = f.get? key ∨
        Place.nameLimit < key.product.utf8ByteSize ∧ f'.get? key = .error .io) ∧
    (∀ (f : FileStore) (puts : List Put), f.place.entries = [] →
      (∀ p ∈ puts, p.key.IsOrdinary ∧ ListingFile.ReadsBack ⟨p.now, p.tokens⟩) →
      (key.IsStorable → (f.after puts).get? key = .ok (lastOf key puts)) ∧
      (¬ key.IsStorable → (f.after puts).get? key = .ok none ∨ (f.after puts).get? key = .error .io)) ∧
    ∀ f : ListingFile, Timestamp.isValid f.writtenAt = true → (∀ t ∈ f.tokens, t.extra.IsDurable) →
      f.ReadsBack := by
  refine ⟨fun f f' g tokens hback hinsert hplace => ?_, fun f f' other tokens r hother hne hinsert => ?_,
    fun f puts hempty hputs => ⟨fun hstorable => ?_, fun hstorable => ?_⟩,
    fun f htime hextra => ListingFile.readsBack htime hextra⟩
  · have htext : g.textOf key = f'.textOf key := by rw [textOf, textOf, hplace]
    rw [get?_congr h htext]
    exact get?_insert_self h hback hinsert
  · exact get?_insert_other hother h (.inl (Ne.symm hne)) hinsert
  · have hbefore := (get?_of_empty h hempty).resolve_right fun hnot => hnot.1 hstorable
    rw [get?_after (isOpen_of_empty hempty) hputs h hstorable, hbefore]
    cases lastOf key puts <;> rfl
  · obtain hsame | hfault := get?_after_of_not_isStorable (f := f) (fun p hp => (hputs p hp).1) h hstorable
    · rw [hsame]
      exact (get?_of_empty h hempty).imp_right And.right
    · exact .inr hfault

/-- A listing with a negative number and an array that opens with the bytes of an address, and one of the same
product on another chain. -/
theorem listings_kept_two_chains :
    let key : ProductKey := ⟨.ethereum, .aaveV3, "a-token"⟩
    let other : ProductKey := ⟨.base, .aaveV3, "a-token"⟩
    let nul : ProductKey := ⟨.ethereum, .aaveV3, "a\x00b"⟩
    let time := "2024-01-01T00:00:00Z"
    ∃ t : ProtocolToken,
      t.extra.entries = [("change", .num (.negative 5)),
        ("marks", .arr (List.replicate 20 (Json.nat 7) ++ [.str "x"]))] ∧
      let puts : List Put := [⟨key, [t], time⟩, ⟨other, [], time⟩]
      key.IsOrdinary ∧ key.IsStorable ∧ nul.IsOrdinary ∧ ¬ nul.IsStorable ∧
      (∀ p ∈ puts, p.key.IsOrdinary ∧ ListingFile.ReadsBack ⟨p.now, p.tokens⟩) ∧
      (∃ f f', insert key [t] FileStore.new = (.ok (), f) ∧ f.get? key = .ok (some [t]) ∧
        insert other [] f = (.ok (), f') ∧ f'.get? key = f.get? key) ∧
      (FileStore.new.after puts).get? key = .ok (some [t]) ∧
      ((FileStore.new.after puts).get? nul = .ok none ∨ (FileStore.new.after puts).get? nul = .error .io) := by
  intro key other nul time
  let marks : List Json := List.replicate 20 (Json.nat 7) ++ [.str "x"]
  have hmarks : ∀ j ∈ marks, j = Json.nat 7 ∨ j = .str "x" := by
    simp [marks]
  let extra : Extra := ⟨[("change", .num (.negative 5)), ("marks", .arr marks)],
    ⟨by decide, by simp [marks, Json.settle?, Json.settleItems?, Json.nat]⟩⟩
  have hplain : extra.Plain := by
    simp only [Extra.Plain, Json.Plain, extra, List.forall_mem_cons, Json.everyObject_num,
      Json.everyObject_arr]
    refine ⟨trivial, fun j hj => ?_, nofun⟩
    obtain rfl | rfl := hmarks j hj <;> simp [Json.nat]
  have hlegible : ∀ a ∈ extra.entries, a.2.Legible Extra.room := by
    simp only [extra, List.forall_mem_cons]
    refine ⟨.negative (by decide) (by decide), .arr fun j hj => ?_, nofun⟩
    obtain rfl | rfl := hmarks j hj
    · exact .natural (by decide)
    · exact .str "x"
  let t : ProtocolToken := ⟨.native .ethereum, [], extra⟩
  have hkey : key.IsOrdinary ∧ key.IsStorable := by decide
  have hother : other.IsOrdinary ∧ other.IsStorable := by decide
  have hnul : nul.IsOrdinary ∧ ¬ nul.IsStorable := by decide
  obtain ⟨hself, hkept, hafter, hback⟩ := listings_kept hkey.1
  obtain ⟨-, -, hmissing, -⟩ := listings_kept hnul.1
  have hreadsBack (now : String) (hnow : Timestamp.isValid now = true) :
      ListingFile.ReadsBack ⟨now, [t]⟩ ∧ ListingFile.ReadsBack ⟨now, []⟩ :=
    ⟨hback _ hnow (List.forall_mem_singleton.mpr ⟨hplain, hlegible⟩), hback _ hnow nofun⟩
  have htime := hreadsBack time (by decide +kernel)
  have hputs : ∀ p ∈ [(⟨key, [t], time⟩ : Put), ⟨other, [], time⟩],
      p.key.IsOrdinary ∧ ListingFile.ReadsBack ⟨p.now, p.tokens⟩ := by
    simp only [List.forall_mem_cons]
    exact ⟨⟨hkey.1, htime.1⟩, ⟨hother.1, htime.2⟩, nofun⟩
  have hopen : FileStore.new.IsOpen := isOpen_of_empty rfl
  obtain ⟨f, hf⟩ := exists_insert hkey.1 hkey.2 (hopen key hkey.1 hkey.2) [t]
  obtain ⟨f', hf'⟩ := exists_insert hother.1 hother.2 (hopen.insert hkey.1 hf other hother.1 hother.2) []
  have hget : f.get? key = .ok (some [t]) := hself _ f f [t] (hreadsBack _ (by decide +kernel)).1 hf rfl
  have hsame : f'.get? key = f.get? key :=
    (hkept f f' other [] _ hother.1 (by decide) hf').resolve_right fun hlong =>
      hkey.2.not_long hlong.1
  refine ⟨t, rfl, hkey.1, hkey.2, hnul.1, hnul.2, hputs, ⟨f, f', hf, hget, hf', hsame⟩, ?_, ?_⟩
  · exact (hafter FileStore.new _ rfl hputs).1 hkey.2
  · exact (hmissing FileStore.new _ rfl hputs).2 hnul.2

/-- Names that no file system takes: one cannot be looked up even in an empty directory, the other only as long
as there is no directory to look in. -/
theorem unreadable_listings :
    let nul : ProductKey := ⟨.ethereum, .aaveV3, "a\x00b"⟩
    let long : ProductKey := ⟨.ethereum, .aaveV3, String.ofList (List.replicate 256 'a')⟩
    let other : ProductKey := ⟨.ethereum, .aaveV3, "a-token"⟩
    nul.IsOrdinary ∧ long.IsOrdinary ∧ other.IsOrdinary ∧ other ≠ long ∧
      FileStore.new.get? nul = .error .io ∧ FileStore.new.get? long = .ok none ∧
      ∃ f, insert other [] FileStore.new = (.ok (), f) ∧ f.get? long = .error .io := by
  intro nul long other
  have hnul : nul.IsOrdinary := by decide
  have hother : other.IsOrdinary ∧ other.IsStorable := by decide
  have hletters : long.product.toList = List.replicate 256 'a' := String.toList_ofList
  have hletter : ∀ c ∈ long.product.toList, c = 'a' := by
    rw [hletters]
    exact fun c hc => List.eq_of_mem_replicate hc
  have htoo : Place.nameLimit < long.product.utf8ByteSize := by decide +kernel
  have hlong : long.IsOrdinary := by
    have hshort (part : String) (hpart : part.utf8ByteSize ≤ Place.nameLimit) : long.product ≠ part :=
      fun h => Nat.not_lt.mpr hpart (h ▸ htoo)
    refine ⟨⟨hshort _ (by decide), hshort _ (by decide), hshort _ (by decide)⟩, fun hslash => ?_⟩
    exact absurd (hletter '/' hslash) (by decide)
  have hnulUsable : isUsable (Path.ofText nul.filePath) ≠ true := fun husable =>
    ((ProductKey.isUsable_filePath_iff hnul).mp husable).2 (by decide)
  have hlongUsable : isUsable (Path.ofText long.filePath) = true :=
    (ProductKey.isUsable_filePath_iff hlong).mpr
      ⟨by decide +kernel, fun hmem => absurd (hletter '\x00' hmem) (by decide)⟩
  have hopen : FileStore.new.IsOpen := isOpen_of_empty rfl
  obtain ⟨f, hf⟩ := exists_insert hother.1 hother.2 (hopen other hother.1 hother.2) []
  refine ⟨hnul, hlong, hother.1, fun h => hother.2.not_long (h ▸ htoo), ?_, ?_, f, hf, ?_⟩
  · rw [get?, readText_filePath hnul, if_neg hnulUsable]
  · have hmissing : FileStore.new.textOf long = .error .missing := rfl
    rw [get?, readText_filePath hlong, hmissing, if_pos hlongUsable]
  · have hprotocol : other.protocol = long.protocol := rfl
    exact get?_of_unusable hlong (textOf_of_long hlong hprotocol htoo (textOf_insert_self hother.1 hf))

end Chainfolio.FileStore
