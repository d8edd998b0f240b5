/-! Trees of files and directories: a file has a text, a directory has entries under names. -/
namespace Chainfolio

inductive FileTree where
  | file (text : String)
  | directory (entries : List (String × FileTree))

abbrev DirectoryEntries := List (String × FileTree)

namespace FileTree

instance : Inhabited FileTree := ⟨.directory []⟩

def child? (name : String) : DirectoryEntries → Option FileTree
  | [] => none
  | (n, t) :: rest => if n = name then some t else child? name rest

/-- Adds a file or directory, replacing what stood under its name. -/
def insertChild (name : String) (t : FileTree) : DirectoryEntries → DirectoryEntries
  | [] => [(name, t)]
  | (n, u) :: rest => if n = name then (name, t) :: rest else (n, u) :: insertChild name t rest

theorem child?_insertChild (name other : String) (t : FileTree) (entries : DirectoryEntries) :
    child? other (insertChild name t entries) =
      if name = other then some t else child? other entries := by
  induction entries with
  | nil => simp [insertChild, child?]
  | cons e rest ih =>
    obtain ⟨n, u⟩ := e
    by_cases h : n = name
    · subst h
      by_cases h' : n = other <;> simp [insertChild, child?, h']
    · by_cases h' : n = other
      · subst h'
        simp [insertChild, child?, h, Ne.symm h]
      · simp [insertChild, child?, h, h', ih]

end FileTree

end Chainfolio
