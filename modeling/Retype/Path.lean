/-! Paths as text.  A path is a sequence of names between slashes; repeated slashes count once, and a name `.`
counts only at the very front. -/

namespace Retype.Path

/-- Drops what adds nothing at the end of a reversed path: slashes, and names `.` after a slash. -/
def trimEnd : List Char → List Char
  | '/' :: r => trimEnd r
  | '.' :: '/' :: r => trimEnd ('/' :: r)
  | s => s

/-- A reversed path without what adds nothing at its end; the root stays. -/
def trimmed (path : String) : List Char :=
  let s := trimEnd path.toList.reverse
  if s.isEmpty && path.toList.head? == some '/' then ['/'] else s

def lastName (path : String) : String :=
  String.ofList ((trimmed path).takeWhile (· != '/')).reverse

/-- The last name of a path, if it names something: neither the root nor `.` nor `..`. -/
def fileName? (path : String) : Option String :=
  let n := lastName path
  if n.isEmpty || n == "." || n == ".." then none else some n

/-- The path without its last name. -/
def parentOf (path : String) : String :=
  let rest := (trimmed path).dropWhile (· != '/')
  let s := trimEnd rest
  if s.isEmpty && rest.getLast? == some '/' && path.toList.head? == some '/' then "/"
  else String.ofList s.reverse

/-- The path of everything above the last name; the root and the empty path have none. -/
def parent? (path : String) : Option String :=
  if (lastName path).isEmpty then none else some (parentOf path)

/-- A name as its stem and extension.  A point at the front begins no extension. -/
def splitName (name : String) : String × Option String :=
  let r := name.toList.reverse
  let ext := r.takeWhile (· != '.')
  let stem := (r.drop (ext.length + 1)).reverse
  if name == ".." || stem.isEmpty then (name, none) else (String.ofList stem, some (String.ofList ext.reverse))

def stem? (path : String) : Option String := (fileName? path).map fun n => (splitName n).1

def extension? (path : String) : Option String := (fileName? path).bind fun n => (splitName n).2

/-- Puts a name after a path. -/
def join (base name : String) : String :=
  if base.isEmpty || base.toList.getLast? == some '/' then base ++ name else base ++ "/" ++ name

/-- The path with another last name; one that names nothing gets it as a further name. -/
def withFileName (path name : String) : String :=
  join (if (fileName? path).isSome then parentOf path else path) name

/-- The file that the typed form of a source goes to, beside the source. -/
def output (source suffix : String) : String :=
  withFileName source ((stem? source).getD "resource" ++ suffix ++ ".rs")

def directoryName (path : String) : String := ((parent? path).bind fileName?).getD ""

/-- The names of a path from the root or the working directory down. -/
def names (path : String) : List String :=
  ((path.toList.splitOn '/').map String.ofList).filter fun n => !n.isEmpty && n != "."

end Retype.Path
