import PodMachines.Path
import PodMachines.Table
import PodMachines.Text.Utf8

/-!
# Files

The files and directories that exist, by path, and what reading, making and removing them answers.
-/

namespace PodMachines

/-- What a path may name. -/
inductive Entry
  | file (bytes : List UInt8)
  | directory
  deriving DecidableEq, Repr

/-- The files and directories below a starting point, each under its parts joined by slashes. -/
structure Files where
  known : Table Entry

namespace Files

/-- Why the operating system refuses. -/
inductive Fault
  | absent
  | exists
  | notDirectory
  | isDirectory
  | notText
  deriving DecidableEq, Repr

/-- How a refusal reads. -/
def Fault.message : Fault → String
  | .absent => "No such file or directory (os error 2)"
  | .exists => "File exists (os error 17)"
  | .notDirectory => "Not a directory (os error 20)"
  | .isDirectory => "Is a directory (os error 21)"
  | .notText => "stream did not contain valid UTF-8"

/-- No files. -/
def empty : Files :=
  ⟨.empty⟩

instance : Inhabited Files := ⟨empty⟩

/-- The key of a place. -/
def key (place : List (List Char)) : String :=
  String.ofList (List.intercalate ['/'] place)

/-- What is at a place; the starting point is a directory. -/
def entry? (f : Files) (place : List (List Char)) : Option Entry :=
  if place = [] then some .directory else f.known.find? (key place)

/-- The place that parts lead to from another, through directories that exist; two dots lead back. -/
def walk (f : Files) (from_ : List (List Char)) : List (List Char) → Except Fault (List (List Char) × Entry)
  | [] =>
    match f.entry? from_ with
    | some e => .ok (from_, e)
    | none => .error .absent
  | part :: more =>
    match f.entry? from_ with
    | some .directory => f.walk (if part = ['.', '.'] then from_.dropLast else from_ ++ [part]) more
    | some (.file _) => .error .notDirectory
    | none => .error .absent

/-- What a path names. -/
def find (f : Files) (path : String) : Except Fault Entry :=
  if path.isEmpty || path.toList.contains '\x00' then .error .absent
  else
    match f.walk [] (Path.parts path) with
    | .ok (_, .file bytes) => if Path.endsInDirectory path then .error .notDirectory else .ok (.file bytes)
    | .ok (_, .directory) => .ok .directory
    | .error e => .error e

/-- Whether a path names anything. -/
def has (f : Files) (path : String) : Bool :=
  match f.find path with
  | .ok _ => true
  | .error _ => false

/-- The text of a file. -/
def readText (f : Files) (path : String) : Except Fault String :=
  match f.find path with
  | .error e => .error e
  | .ok .directory => .error .isDirectory
  | .ok (.file bytes) =>
    match Text.Utf8.decode? bytes with
    | some text => .ok text
    | none => .error .notText

/-- With something put at a path. -/
def put (f : Files) (path : String) (e : Entry) : Files :=
  ⟨f.known.insert (key (Path.parts path)) e⟩

/-- Without the file at a path. -/
def remove (f : Files) (path : String) : Except Fault Files :=
  match f.find path with
  | .error e => .error e
  | .ok .directory => .error .isDirectory
  | .ok (.file _) => .ok ⟨f.known.erase (key (Path.parts path))⟩

/-- With the directory that the parts lead to, and every directory on the way. -/
def makePath (f : Files) (from_ : List (List Char)) : List (List Char) → Except Fault Files
  | [] => .ok f
  | part :: more =>
    let place := from_ ++ [part]
    match f.entry? place with
    | some .directory => f.makePath place more
    | some (.file _) => .error (if more = [] then .exists else .notDirectory)
    | none => makePath ⟨f.known.insert (key place) .directory⟩ place more

/-- With a directory at a path, and every directory on the way. -/
def makeDirectory (f : Files) (path : String) : Except Fault Files :=
  f.makePath [] (Path.parts path)

/-- With something put at a path, and directories on the way where there can be any. -/
def putBelow (f : Files) (path : String) (e : Entry) : Files :=
  match (Path.parent? path).map f.makeDirectory with
  | some (.ok f) => f.put path e
  | _ => f.put path e

end Files
end PodMachines
