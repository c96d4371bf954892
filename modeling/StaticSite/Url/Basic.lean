/-!
# Relative URLs

A relative URL is a text of segments between slashes. Normalizing drops empty and `.` segments and
lets `..` remove the segment before it; a leading slash stays, and a trailing one if anything is
left before it.
-/

namespace StaticSite.Url

/-- The pieces of a text between the characters that satisfy `p`. -/
def splitAtChars (p : Char → Bool) : List Char → List (List Char)
  | [] => [[]]
  | c :: s =>
    if p c then [] :: splitAtChars p s
    else
      match splitAtChars p s with
      | [] => [[c]]
      | piece :: rest => (c :: piece) :: rest

/-- Whether a character is a slash. -/
def isSlash (c : Char) : Bool :=
  c == '/'

/-- What stands between the slashes of an address, empty segments included. -/
def segments (url : List Char) : List (List Char) :=
  splitAtChars isSlash url

/-- Resolves one segment behind those that are kept, which are held in reverse. -/
def resolveSegment (kept : List (List Char)) (segment : List Char) : List (List Char) :=
  if segment = [] ∨ segment = ['.'] then kept
  else if segment = ['.', '.'] then kept.tail
  else segment :: kept

/-- The segments that are left when all are resolved from left to right. -/
def resolve (segments : List (List Char)) : List (List Char) :=
  (segments.foldl resolveSegment []).reverse

/-- An address with its segments resolved, and with the slashes that stand at its ends. -/
def normalizeChars (url : List Char) : List Char :=
  let kept := resolve (segments url)
  (if url.head? = some '/' then ['/'] else []) ++ ['/'].intercalate kept ++
    (if url.getLast? = some '/' ∧ kept ≠ [] then ['/'] else [])

/-- The normal form of a relative URL. -/
def normalize (url : String) : String :=
  String.ofList (normalizeChars url.toList)

/-- Appends a segment and normalizes. -/
def join (base segment : String) : String :=
  if base = "" then normalize segment else normalize (base ++ "/" ++ segment)

/-- The segments that are not empty. -/
def breadCrumb (url : String) : List String :=
  ((segments url.toList).filter (· ≠ [])).map String.ofList

/-- Drops the slashes at the end. -/
def trimSlashes (s : List Char) : List Char :=
  (s.reverse.dropWhile isSlash).reverse

/-- The URL of a page under a base URL. -/
def absolute (base relative : String) : String :=
  String.ofList (trimSlashes base.toList) ++ "/" ++ relative

/-! ## Containment -/

/-- Whether a character parts the segments of a path on some system. -/
def isSeparator (c : Char) : Bool :=
  c == '/' || c == '\\'

/-- The depth after the segments, unless one of them climbs above the start. -/
def depthAfter : Nat → List (List Char) → Option Nat
  | depth, [] => some depth
  | depth, segment :: rest =>
    if segment = [] ∨ segment = ['.'] then depthAfter depth rest
    else if segment = ['.', '.'] then
      match depth with
      | 0 => none
      | d + 1 => depthAfter d rest
    else depthAfter (depth + 1) rest

/-- Whether a relative path never leaves the directory it is joined to. Both slashes separate
segments. -/
def isContained (path : String) : Bool :=
  path.toList.head? ≠ some '/' && (depthAfter 0 (splitAtChars isSeparator path.toList)).isSome

end StaticSite.Url
