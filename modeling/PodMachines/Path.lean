import PodMachines.Text.Split

/-!
# Paths

Paths as texts: joining, the parts between slashes, and the name of a file without its extension.
-/

namespace PodMachines.Path

/-- A path inside a directory; an absolute path stands for itself. -/
def join (directory path : String) : String :=
  if path.startsWith "/" then path
  else if directory.isEmpty || directory.endsWith "/" then directory ++ path
  else directory ++ "/" ++ path

/-- The parts of a path that name something: those between slashes without the empty ones and the single
    dots. -/
def parts (path : String) : List (List Char) :=
  (Text.splitOn '/' path.toList).filter fun part => part ≠ [] ∧ part ≠ ['.']

/-- Whether the path can only be a directory: it ends in a slash or in a single dot. -/
def endsInDirectory (path : String) : Bool :=
  match Text.splitOn '/' path.toList with
  | [] | [_] => false
  | parts => parts.getLast? = some [] || parts.getLast? = some ['.']

/-- A file name without its extension, which starts at the last dot. A name whose only dot is in front has no
    extension. -/
def withoutExtension (name : List Char) : List Char :=
  match name.reverse.dropWhile (· ≠ '.') with
  | _ :: [] | [] => name
  | _ :: stem => stem.reverse

/-- The name of the file without its extension, empty where the path names no file. -/
def stem (path : String) : String :=
  match (parts path).getLast? with
  | some name => if name = ['.', '.'] then "" else String.ofList (withoutExtension name)
  | none => ""

/-- The directory in which a path lies; none for the root and the empty path. -/
def parent? (path : String) : Option String :=
  match (parts path).reverse with
  | [] => none
  | _ :: outer =>
    some ((if path.startsWith "/" then "/" else "") ++
      String.ofList (List.intercalate ['/'] outer.reverse))

end PodMachines.Path
