import Mathlib.Logic.Function.Iterate
import Chainfolio.Proofs.Store.Files

/-! What stays as it is when a file is written. Making directories adds empty ones only, so that no file
appears or goes; writing a file changes that file and no other. The tree above a place is carried along, and
going down from the top again leads to the place as it has become. -/
namespace Chainfolio.Place

variable {p q d w : Place} {name other part text : String} {dirs parts : List String}
  {entries : DirectoryEntries} {r : Except Fault Unit}

/-! ### Reading below a place -/

/-- The text of the file of a name in the directory that other names lead to. -/
def textAt (dirs : List String) (name : String) (p : Place) : Except PathFault String := do
  (← p.follow dirs).readFile name

theorem textAt_nil : textAt [] name p = p.readFile name := rfl

theorem textAt_cons (hpart : Path.IsName part) :
    textAt (part :: dirs) name p = p.enter part >>= textAt dirs name := by
  rw [textAt, follow_cons hpart]
  cases p.enter part <;> rfl

/-- Only what a place holds counts for what is read below it. -/
theorem textAt_congr (hdirs : ∀ part ∈ dirs, Path.IsName part) (h : p.entries = q.entries) :
    textAt dirs name p = textAt dirs name q := by
  induction dirs generalizing p q with
  | nil => rw [textAt_nil, textAt_nil, readFile, readFile, h]
  | cons part dirs ih =>
    obtain ⟨hpart, hdirs⟩ := List.forall_mem_cons.mp hdirs
    rw [textAt_cons hpart, textAt_cons hpart, enter, enter, h]
    split
    · rfl
    · split
      · rfl
      · rfl
      · exact ih hdirs rfl

/-- What is read below a name depends on what stands under it. -/
theorem textAt_cons_congr (hpart : Path.IsName part) (hdirs : ∀ part ∈ dirs, Path.IsName part)
    (h : FileTree.child? part p.entries = FileTree.child? part q.entries) :
    textAt (part :: dirs) name p = textAt (part :: dirs) name q := by
  rw [textAt_cons hpart, textAt_cons hpart, enter, enter, h]
  split
  · rfl
  · split
    · rfl
    · rfl
    · exact textAt_congr hdirs rfl

/-- What is read below a directory is read in it. -/
theorem textAt_cons_directory (hpart : Path.IsName part) (hdirs : ∀ part ∈ dirs, Path.IsName part)
    (hshort : ¬ nameLimit < part.utf8ByteSize)
    (h : FileTree.child? part p.entries = some (.directory q.entries)) :
    textAt (part :: dirs) name p = textAt dirs name q := by
  rw [textAt_cons hpart, enter, if_neg hshort, h]
  exact textAt_congr hdirs rfl

/-- In an empty directory every file is missing, unless its path cannot be looked up. -/
theorem textAt_empty (name : String) (hdirs : ∀ part ∈ dirs, Path.IsName part) (h : p.entries = []) :
    textAt dirs name p = .error .missing ∨
      (∃ part ∈ dirs ++ [name], nameLimit < part.utf8ByteSize) ∧ textAt dirs name p = .error .unusable := by
  cases dirs with
  | nil =>
    rw [textAt_nil, readFile, h]
    split
    · next hlong => exact .inr ⟨⟨name, by simp, hlong⟩, rfl⟩
    · exact .inl rfl
  | cons part dirs =>
    rw [textAt_cons (hdirs part List.mem_cons_self), enter, h]
    split
    · next hlong => exact .inr ⟨⟨part, by simp, hlong⟩, rfl⟩
    · exact .inl rfl

/-! ### The tree above -/

/-- Going up some levels from a place one comes to another. -/
def LiesBelow (q p : Place) : Prop := ∃ levels, up^[levels] q = p

theorem LiesBelow.refl (p : Place) : LiesBelow p p := ⟨0, rfl⟩

theorem LiesBelow.up (h : LiesBelow q p) : LiesBelow q p.up := by
  obtain ⟨levels, rfl⟩ := h
  exact ⟨levels + 1, Function.iterate_succ_apply' ..⟩

theorem top_up (p : Place) : p.up.top = p.top := by
  obtain ⟨entries, above⟩ := p
  cases above with
  | nil => rfl
  | cons level above => rfl

theorem LiesBelow.top_eq (h : LiesBelow q p) : q.top = p.top := by
  obtain ⟨levels, rfl⟩ := h
  induction levels with
  | zero => rfl
  | succ levels ih => rw [ih, Function.iterate_succ_apply', top_up]

/-- Every file below a place is after some change what it was before, or its path cannot be looked up. -/
def Keeps (levels : Nat) (p p' : Place) : Prop :=
  ∀ dirs name, dirs.length = levels → (∀ part ∈ dirs, Path.IsName part) →
    textAt dirs name p' = textAt dirs name p ∨
      (∃ part ∈ dirs ++ [name], nameLimit < part.utf8ByteSize) ∧ textAt dirs name p' = .error .unusable

/-! ### Making directories -/

/-- A directory that is entered, or made to be entered, is what stands under its name from then on. -/
structure Entered (p : Place) (name : String) (outer : DirectoryEntries) (q : Place) : Prop where
  above : q.above = (name, outer) :: p.above
  short : ¬ nameLimit < name.utf8ByteSize
  others : ∀ other, name ≠ other → FileTree.child? other outer = FileTree.child? other p.entries
  before : FileTree.child? name p.entries = some (.directory q.entries) ∨
    FileTree.child? name p.entries = none ∧ q.entries = []

theorem followOrMake_cons (hpart : Path.IsName part) (parts : List String) :
    followOrMake (part :: parts) = (do enterOrMake part; followOrMake parts) := by
  obtain ⟨hempty, hhere, hback⟩ := hpart
  rw [followOrMake, if_neg (by simp [hempty, hhere]), if_neg hback]

theorem entered_of_enter (h : p.enter name = .ok q) : Entered p name p.entries q := by
  unfold enter at h
  split at h
  · cases h
  · next hshort =>
    split at h
    · cases h
    · cases h
    · next hchild =>
      cases h
      exact ⟨rfl, hshort, fun _ _ => rfl, .inl hchild⟩

theorem enterOrMake_cases (p : Place) (name : String) :
    (∃ outer q, enterOrMake name p = (.ok (), q) ∧ Entered p name outer q) ∨
      enterOrMake name p = (.error .io, p) ∧ p.enter name = .error .unusable := by
  unfold enterOrMake enter
  by_cases hlong : nameLimit < name.utf8ByteSize
  · simp [hlong]
  · simp only [hlong, if_false]
    cases hchild : FileTree.child? name p.entries with
    | none =>
      refine .inl ⟨_, _, rfl, rfl, hlong, fun other hne => ?_, .inr ⟨hchild, rfl⟩⟩
      rw [FileTree.child?_insertChild, if_neg hne]
    | some t =>
      cases t with
      | file text => exact .inr ⟨rfl, rfl⟩
      | directory entries => exact .inl ⟨_, _, rfl, rfl, hlong, fun _ _ => rfl, .inl hchild⟩

/-- A file below a directory that is entered is read there. -/
theorem Entered.textAt {outer : DirectoryEntries} (h : Entered p part outer q) (hpart : Path.IsName part)
    (hdirs : ∀ part ∈ dirs, Path.IsName part) (name : String) :
    Place.textAt (part :: dirs) name p = Place.textAt dirs name q ∨
      q.entries = [] ∧ Place.textAt (part :: dirs) name p = .error .missing := by
  obtain hchild | ⟨hchild, hempty⟩ := h.before
  · exact .inl (textAt_cons_directory hpart hdirs h.short hchild)
  · refine .inr ⟨hempty, ?_⟩
    rw [textAt_cons hpart, enter, if_neg h.short, hchild]
    rfl

section
variable {outer : DirectoryEntries} (h : Entered p part outer q) (habove : w.above = q.above)
include h habove

/-- The place that a place becomes when a directory that was entered from it has changed. -/
theorem Entered.up_eq : w.up = ⟨FileTree.insertChild part (.directory w.entries) outer, p.above⟩ := by
  rw [Place.up, habove, h.above]

theorem Entered.textAt_up (hpart : Path.IsName part) (hdirs : ∀ part ∈ dirs, Path.IsName part) :
    Place.textAt (part :: dirs) name w.up = Place.textAt dirs name w := by
  refine textAt_cons_directory hpart hdirs h.short ?_
  rw [h.up_eq habove, FileTree.child?_insertChild, if_pos rfl]

theorem Entered.textAt_up_other {first : String} (hne : part ≠ first) (hfirst : Path.IsName first)
    (hdirs : ∀ part ∈ dirs, Path.IsName part) :
    Place.textAt (first :: dirs) name w.up = Place.textAt (first :: dirs) name p := by
  refine textAt_cons_congr hfirst hdirs ?_
  rw [h.up_eq habove, FileTree.child?_insertChild, if_neg hne, h.others first hne]

/-- What is kept below a directory that is entered is kept. -/
theorem Entered.keeps {levels : Nat} (hpart : Path.IsName part) (hkeeps : Keeps levels q w) :
    Keeps (levels + 1) p w.up := by
  intro dirs name hlength hdirs
  obtain - | ⟨first, dirs⟩ := dirs
  · cases hlength
  · obtain ⟨hfirst, hrest⟩ := List.forall_mem_cons.mp hdirs
    by_cases hne : part = first
    · subst hne
      have hlong : (∃ part ∈ dirs ++ [name], nameLimit < part.utf8ByteSize) →
          ∃ each ∈ part :: dirs ++ [name], nameLimit < each.utf8ByteSize :=
        Exists.imp fun _ hlong => ⟨List.mem_cons_of_mem _ hlong.1, hlong.2⟩
      rw [h.textAt_up habove hpart hrest]
      obtain hsame | ⟨hname, hunusable⟩ := hkeeps dirs name (Nat.succ.inj hlength) hrest
      · rw [hsame]
        obtain hbefore | ⟨hempty, hmissing⟩ := h.textAt hpart hrest name
        · exact .inl hbefore.symm
        · rw [hmissing]
          exact (textAt_empty name hrest hempty).imp_right fun h => ⟨hlong h.1, h.2⟩
      · exact .inr ⟨hlong hname, hunusable⟩
    · exact .inl (h.textAt_up_other habove hne hfirst hrest)

end

/-- Making directories keeps every file that lies as deep, whether all of them could be made or not. -/
theorem followOrMake_keeps (hparts : ∀ part ∈ parts, Path.IsName part)
    (h : followOrMake parts p = (r, q)) :
    ∃ p', LiesBelow q p' ∧ p'.above = p.above ∧ Keeps parts.length p p' := by
  induction parts generalizing p with
  | nil =>
    cases h
    exact ⟨_, .refl _, rfl, fun dirs name hlength _ => .inl rfl⟩
  | cons part parts ih =>
    obtain ⟨hpart, hparts⟩ := List.forall_mem_cons.mp hparts
    rw [followOrMake_cons hpart] at h
    obtain ⟨outer, below, henter, hentered⟩ | ⟨henter, -⟩ := enterOrMake_cases p part
    · rw [Run.bind_ok henter] at h
      obtain ⟨below', hlies, habove, hkeeps⟩ := ih hparts h
      exact ⟨below'.up, hlies.up, by rw [hentered.up_eq habove], hentered.keeps habove hpart hkeeps⟩
    · rw [Run.bind_error henter] at h
      cases h
      exact ⟨_, .refl _, rfl, fun dirs name _ _ => .inl rfl⟩

/-- Directories are made where every one of them has a name that it may have and where a file below them
could be looked up. -/
theorem followOrMake_of_textAt (hparts : ∀ part ∈ parts, Path.IsName part)
    (hshort : ∀ part ∈ parts ++ [name], ¬ nameLimit < part.utf8ByteSize)
    (h : textAt parts name p ≠ .error .unusable) :
    ∃ q, followOrMake parts p = (.ok (), q) := by
  induction parts generalizing p with
  | nil => exact ⟨p, rfl⟩
  | cons part parts ih =>
    obtain ⟨hpart, hparts⟩ := List.forall_mem_cons.mp hparts
    rw [followOrMake_cons hpart]
    rw [List.cons_append, List.forall_mem_cons] at hshort
    obtain ⟨outer, below, henter, hentered⟩ | ⟨-, hunusable⟩ := enterOrMake_cases p part
    · rw [Run.bind_ok henter]
      refine ih hparts hshort.2 ?_
      obtain hsame | ⟨hempty, -⟩ := hentered.textAt hpart hparts name
      · rwa [← hsame]
      · obtain hmissing | ⟨⟨long, hmem, hlong⟩, -⟩ := textAt_empty name hparts hempty
        · simp [hmissing]
        · exact absurd hlong (hshort.2 long hmem)
    · rw [textAt_cons hpart, hunusable] at h
      exact absurd rfl h

/-- Directories that have been made can be followed. -/
theorem names_followOrMake (hparts : ∀ part ∈ parts, Path.IsName part)
    (h : followOrMake parts p = (.ok (), q)) :
    q.names = p.names ++ parts ∧ ∀ part ∈ parts, part.utf8ByteSize ≤ nameLimit := by
  induction parts generalizing p with
  | nil =>
    cases h
    simp
  | cons part parts ih =>
    obtain ⟨hpart, hparts⟩ := List.forall_mem_cons.mp hparts
    rw [followOrMake_cons hpart] at h
    obtain ⟨outer, below, henter, hentered⟩ | ⟨henter, -⟩ := enterOrMake_cases p part
    · rw [Run.bind_ok henter] at h
      obtain ⟨hnames, hlimits⟩ := ih hparts h
      refine ⟨?_, List.forall_mem_cons.mpr ⟨Nat.not_lt.mp hentered.short, hlimits⟩⟩
      rw [hnames, names, hentered.above]
      simp [names]
    · rw [Run.bind_error henter] at h
      cases h

/-! ### Writing a file -/

/-- A file that is written in a directory has its text; every other file that lies as deep is as it was. -/
theorem writeFile_textAt (hparts : ∀ part ∈ parts, Path.IsName part) (hfollow : follow parts p = .ok d)
    (hwrite : d.writeFile name text = .ok w) :
    ∃ p', LiesBelow w p' ∧ p'.above = p.above ∧ textAt parts name p' = .ok text ∧
      ∀ dirs other, dirs.length = parts.length → (∀ part ∈ dirs, Path.IsName part) →
        (dirs ≠ parts ∨ other ≠ name) → textAt dirs other p' = textAt dirs other p := by
  induction parts generalizing p with
  | nil =>
    cases hfollow
    rw [writeFile] at hwrite
    split at hwrite
    · cases hwrite
    · next husable =>
      cases hwrite
      have hshort : ¬ nameLimit < name.utf8ByteSize := fun hlong => husable (if_pos hlong)
      refine ⟨_, .refl _, rfl, ?_, fun dirs other hlength _ hne => ?_⟩
      · rw [textAt_nil, Place.readFile, if_neg hshort, FileTree.child?_insertChild, if_pos rfl]
      · obtain rfl := List.eq_nil_of_length_eq_zero hlength
        have hother : name ≠ other := fun heq => by simp [heq] at hne
        rw [textAt_nil, textAt_nil, Place.readFile, Place.readFile, FileTree.child?_insertChild,
          if_neg hother]
  | cons part parts ih =>
    obtain ⟨hpart, hparts⟩ := List.forall_mem_cons.mp hparts
    rw [follow_cons hpart] at hfollow
    cases henter : p.enter part with
    | error fault =>
      rw [henter] at hfollow
      cases hfollow
    | ok below =>
      rw [henter] at hfollow
      obtain ⟨below', hlies, habove, htext, hothers⟩ := ih hparts hfollow
      have hentered := entered_of_enter henter
      refine ⟨below'.up, hlies.up, by rw [hentered.up_eq habove], ?_, fun dirs other hlength hdirs hne => ?_⟩
      · rw [hentered.textAt_up habove hpart hparts, htext]
      · obtain - | ⟨first, dirs⟩ := dirs
        · cases hlength
        · obtain ⟨hfirst, hrest⟩ := List.forall_mem_cons.mp hdirs
          by_cases heq : part = first
          · subst heq
            have hne' : dirs ≠ parts ∨ other ≠ name := hne.imp_left fun h heq => h (by rw [heq])
            rw [hentered.textAt_up habove hpart hrest, hothers dirs other (Nat.succ.inj hlength) hrest hne',
              textAt_cons hpart, henter]
            rfl
          · exact hentered.textAt_up_other habove heq hfirst hrest

end Chainfolio.Place
