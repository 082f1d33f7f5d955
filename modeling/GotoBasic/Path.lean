/-
  Paths.

  * `Path.names`: the names in a path, which slashes divide; two paths with
    the same names lead to the same place.
-/

namespace GotoBasic.Path

/-- The names in a path; a path that ends with a slash names what is inside a
    directory. -/
def names (path : String) : List String :=
  let parts := (path.toList.splitOn '/').map String.ofList
  parts.filter (· ≠ "") ++ (if path.toList.getLast? = some '/' then ["."] else [])

/-- Whether a path starts at the root directory. -/
def isAbsolute (path : String) : Bool := path.toList.head? == some '/'

end GotoBasic.Path
