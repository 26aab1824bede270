import Resumable.Text.Search

/-!
# Paths

Pure operations on POSIX paths. A path is a text of components with single slashes between them;
`.` is the empty relative path and `/` the root. `..` stands for itself, because only a file system
could resolve it.
-/

namespace Resumable.Path

/-- The pieces of a text between its slashes. -/
def pieces (s : List Char) : List (List Char) := Text.split ['/'] none s

/-- The components of a text: its pieces that are neither empty nor a single point. -/
def components (s : List Char) : List (List Char) :=
  (pieces s).filter fun piece => !piece.isEmpty && piece != ['.']

/-- Whether a text begins at the root. -/
def isAbsolute (s : List Char) : Bool := s.head? == some '/'

/-- The path of components, from the root or not. -/
def ofComponents (absolute : Bool) (parts : List (List Char)) : List Char :=
  let joined := ['/'].intercalate parts
  if absolute then '/' :: joined else if joined.isEmpty then ['.'] else joined

/-- The path that a text means. -/
def normalize (s : List Char) : List Char := ofComponents (isAbsolute s) (components s)

/-- A path below another one; an absolute one stands for itself. -/
def join (base part : List Char) : List Char :=
  if isAbsolute part || base == ['.'] then normalize part else normalize (base ++ '/' :: part)

/-- Whether a path is the root or the empty relative path, which have no last component. -/
def isBare (path : List Char) : Bool := path == ['/'] || path == ['.']

/-- The part of a text behind the last occurrence of a character, or all of it. -/
def behindLast (c : Char) (s : List Char) : List Char :=
  (s.reverse.takeWhile (· != c)).reverse

/-- The last component of a path. -/
def name (path : List Char) : List Char :=
  if isBare path then [] else behindLast '/' path

/-- The path without its last component. -/
def parent (path : List Char) : List Char :=
  if isBare path then path
  else
    match path.reverse.dropWhile (· != '/') with
    | [] => ['.']
    | ['/'] => ['/']
    | _ :: before => before.reverse

/-- The end of the last component from its last point on, if there is something on either side of
that point. -/
def suffix (path : List Char) : List Char :=
  let name := name path
  let extension := behindLast '.' name
  if extension.isEmpty || extension.length + 1 ≥ name.length then [] else '.' :: extension

/-- The last component without its suffix. -/
def stem (path : List Char) : List Char :=
  let name := name path
  name.take (name.length - (suffix path).length)

/-- The components of a path, behind a slash if it is absolute. -/
def parts (path : List Char) : List (List Char) :=
  (if isAbsolute path then [['/']] else []) ++ components path

/-- The path with another last component; `none` if it has none. -/
def withName? (path newName : List Char) : Option (List Char) :=
  if (name path).isEmpty then none else some (join (parent path) newName)

/-- Whether a text can take the place of a suffix. -/
def isSuffix (s : List Char) : Bool := s.isEmpty || (s.head? == some '.' && s != ['.'])

end Resumable.Path
