import Retype.Path

/-! A tree of files as a value.  Every operation that a migration makes on files is a function on it, so
what is read and written can be stated without running anything. -/

namespace Retype

/-- What a file holds: text, or bytes that are no text. -/
inductive Content
  | text (s : String)
  | bytes (bs : List Nat)
  deriving DecidableEq, Repr

inductive FileError
  | notFound | notDirectory | isDirectory | notText
  deriving DecidableEq, Repr

def FileError.message : FileError → String
  | .notFound => "No such file or directory (os error 2)"
  | .notDirectory => "Not a directory (os error 20)"
  | .isDirectory => "Is a directory (os error 21)"
  | .notText => "stream did not contain valid UTF-8"

inductive Entry
  | directory
  | file (content : Content)
  deriving DecidableEq, Repr

/-- The entries by their names from the root down.  The working directory and what it lies in are always there. -/
structure Files where
  entries : List (List String × Entry) := []
  /-- The names of the working directory. -/
  cwd : List String := []
  deriving DecidableEq, Repr

namespace Files

def get? (fs : Files) (names : List String) : Option Entry :=
  if names.isPrefixOf fs.cwd then some .directory else (fs.entries.find? (·.1 == names)).map (·.2)

def put (fs : Files) (names : List String) (e : Entry) : Files :=
  if fs.entries.any (·.1 == names) then
    { fs with entries := fs.entries.map fun (n, old) => if n == names then (n, e) else (n, old) }
  else { fs with entries := fs.entries ++ [(names, e)] }

/-- The entry that names lead to from a directory, with its own names from the root down. -/
def follow (fs : Files) (base : List String) : List String → Except FileError (List String × Entry)
  | [] =>
    match fs.get? base with
    | some e => .ok (base, e)
    | none => .error .notFound
  | name :: rest =>
    match fs.get? base with
    | some .directory => if name == ".." then fs.follow base.dropLast rest else fs.follow (base ++ [name]) rest
    | some (.file _) => .error .notDirectory
    | none => .error .notFound

def isRooted (path : String) : Bool := path.toList.head? == some '/'

/-- The names of the directory that a path begins at: the root, or the working directory. -/
def start (fs : Files) (path : String) : List String := if isRooted path then [] else fs.cwd

def find (fs : Files) (path : String) : Except FileError (List String × Entry) :=
  if path.isEmpty then .error .notFound
  else
    match fs.follow (fs.start path) (Path.names path) with
    | .ok (names, .file c) => if path.toList.getLast? == some '/' then .error .notDirectory else .ok (names, .file c)
    | r => r

def read (fs : Files) (path : String) : Except FileError String :=
  match fs.find path with
  | .ok (_, .file (.text s)) => .ok s
  | .ok (_, .file (.bytes _)) => .error .notText
  | .ok (_, .directory) => .error .isDirectory
  | .error e => .error e

/-- Writes a text to a file, whose directory has to exist. -/
def write (fs : Files) (path text : String) : Except FileError Files :=
  match fs.find path with
  | .ok (names, .file _) => .ok (fs.put names (.file (.text text)))
  | .ok (_, .directory) => .error .isDirectory
  | .error .notFound =>
    if path.isEmpty then .error .notFound
    else
      match fs.follow (fs.start path) (Path.names path).dropLast, (Path.names path).getLast? with
      | .ok (names, .directory), some name =>
        if name == ".." then .error .notFound
        else if path.toList.getLast? == some '/' then .error .isDirectory
        else .ok (fs.put (names ++ [name]) (.file (.text text)))
      | .ok (_, .file _), _ => .error .notDirectory
      | .ok _, none => .error .notFound
      | .error e, _ => .error e
  | .error e => .error e

def addAbove (fs : Files) (names : List String) : Files :=
  ((List.range names.length).map fun n => names.take n).foldl
    (fun fs above => if (fs.get? above).isSome then fs else fs.put above .directory) fs

def add (fs : Files) (path : String) (c : Content) : Files :=
  let names := fs.start path ++ Path.names path
  (fs.addAbove names).put names (.file c)

def checkDirectory (fs : Files) (path : String) : Except FileError Unit :=
  match fs.find path with
  | .ok (_, .directory) => .ok ()
  | .ok (_, .file _) => .error .notDirectory
  | .error e => .error e

def age (fs : Files) (names : List String) : Nat := fs.entries.reverse.findIdx (·.1 == names)

/-- The ages of the entries on the way from a directory down. -/
def ages (fs : Files) (base rest : List String) : List Nat :=
  (List.range rest.length).map fun n => fs.age (base ++ rest.take (n + 1))

def noLater : (ages others : List Nat) → Bool
  | [], _ => true
  | _ :: _, [] => false
  | m :: ms, n :: ns => m < n || (m == n && noLater ms ns)

/-- Everything below a directory: the path as seen from it and the content.  A directory lists newer entries
first, and what lies in a directory right after it. -/
def below (fs : Files) (path : String) : List (String × Entry) :=
  match fs.find path with
  | .ok (base, .directory) =>
    let inside := fs.entries.filterMap fun (names, e) =>
      if base.isPrefixOf names && names.length > base.length then some (names.drop base.length, e) else none
    ((inside.map fun i => (fs.ages base i.1, i)).mergeSort fun a b => noLater a.1 b.1).map fun (_, names, e) =>
      (names.foldl Path.join path, e)
  | _ => []

end Files
end Retype
