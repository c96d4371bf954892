import StaticSite.Disk.Calls
import StaticSite.Fields
import StaticSite.Url.Basic

/-!
# Files for crawlers

A sitemap lists the addresses of a site's pages, one a line and each once. In the rules for web
robots, the rules of each user agent are a block of lines, and the address of the sitemap ends the
file; without rules there is no file.
-/

namespace StaticSite.Sitemap

/-- The name of the file that lists the addresses of a site. -/
def fileName : String :=
  "sitemap.txt"

/-- A base URL without the slashes at its end. -/
def trimBase (base : String) : String :=
  String.ofList (Url.trimSlashes base.toList)

/-- Where the sitemap is published. -/
def location (base : String) : String :=
  trimBase base ++ "/" ++ fileName

/-- The first occurrences of the items of a list, behind those in `seen`. -/
def distinct (seen : List String) : List String → List String
  | [] => []
  | url :: urls =>
    if seen.contains url then distinct seen urls else url :: distinct (url :: seen) urls

/-- The text of a sitemap. -/
def text (urls : List String) : String :=
  String.join ((distinct [] urls).map (· ++ "\n"))

/-- Writes the sitemap of a site into its output directory. -/
def write (output : Path) (urls : List String) : Disk.Task IoError Unit :=
  Disk.Task.call id (·.writeText (output.join fileName) (text urls))

end StaticSite.Sitemap

namespace StaticSite.Robots

/-- The rules of user agents, in the order in which they are written. -/
abbrev Rules := Fields (List (String × String))

/-- A user agent's block. -/
def block (agent : String) (rules : List (String × String)) : String :=
  "User-agent: " ++ agent ++ "\n" ++
    String.join (rules.map fun (name, value) => name ++ ": " ++ value ++ "\n") ++ "\n"

/-- The rules for crawlers, agent by agent, and the address of the sitemap behind them. -/
def text (rules : Rules) (sitemap : String) : String :=
  String.join (rules.map fun (agent, rules) => block agent rules) ++ "Sitemap: " ++ sitemap ++ "\n"

/-- Writes the rules into the output directory and says whether there are any. -/
def write (rules : Rules) (sitemap : String) (output : Path) : Disk.Task IoError Bool := do
  if rules.isEmpty then return false
  else
    Disk.Task.call id (·.writeText (output.join "robots.txt") (text rules sitemap))
    return true

end StaticSite.Robots
