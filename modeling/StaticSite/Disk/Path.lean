import StaticSite.Url.Basic

/-!
# Paths

A path is the text by which a program names a place in the file system. Slashes separate its
segments and a leading slash starts it at the root. Two paths have the same components when they
differ only in repeated slashes, in `.` segments behind the first one, and in slashes at the end.
-/

namespace StaticSite

/-- A path, as it was written. -/
structure Path where
  text : String
deriving DecidableEq, Inhabited

namespace Path

instance : ToString Path := ⟨Path.text⟩

/-- Whether a path starts at the root. -/
def isAbsolute (p : Path) : Bool :=
  p.text.toList.head? == some '/'

/-- What stands between the slashes, empty segments included. -/
def segments (p : Path) : List String :=
  (Url.segments p.text.toList).map String.ofList

/-- Puts a relative path behind another one; an absolute one replaces it. -/
def join (base : Path) (text : String) : Path :=
  match text.toList.head?, base.text.toList.getLast? with
  | some '/', _ => ⟨text⟩
  | _, none => ⟨text⟩
  | _, some '/' => ⟨base.text ++ text⟩
  | _, some _ => ⟨base.text ++ "/" ++ text⟩

/-- Whether a segment leads nowhere. -/
def isIdle (segment : String) : Bool :=
  segment == "" || segment == "."

/-- The segments that lead somewhere, and a `.` that starts a relative path. -/
def components (p : Path) : List String :=
  let named := p.segments.filter (!isIdle ·)
  if p.isAbsolute then "/" :: named
  else if p.segments.head? = some "." then "." :: named
  else named

/-- The path with the given components. -/
def ofComponents : List String → Path
  | "/" :: names => ⟨"/" ++ "/".intercalate names⟩
  | names => ⟨"/".intercalate names⟩

/-- Drops the last component; the root and the empty path have nothing above them. -/
def parent? (p : Path) : Option Path :=
  match p.components with
  | [] | ["/"] => none
  | names => some (ofComponents names.dropLast)

/-- The nonempty initial parts of a list, the longest first. -/
def initials : List String → List (List String)
  | [] => []
  | name :: names => (initials names).map (name :: ·) ++ [[name]]

/-- The path and the paths above it, the innermost first; the empty path is left out. -/
def withAncestors (p : Path) : List Path :=
  if p.components = [] then []
  else p :: (initials p.components.dropLast).map ofComponents

/-- The last component, unless it is not a name. -/
def fileName? (p : Path) : Option String :=
  match p.components.getLast? with
  | none | some "/" | some "." | some ".." => none
  | some name => some name

/-- What stands behind the last dot of the file name, if something stands before it. -/
def extension? (p : Path) : Option String :=
  p.fileName?.bind fun name =>
    let tail := name.toList.reverse.takeWhile (· != '.')
    if tail.length + 1 < name.toList.length then some (String.ofList tail.reverse) else none

end Path

end StaticSite
