import StaticSite.Content.Tree
import StaticSite.Proofs.Config.Ordered
import StaticSite.Proofs.Disk.Names

/-!
# Item files

What the item file of a directory says, in terms of what is on the disk: the directory holds the
specification that stands in its `item.json`, or without such a file in its `item.toml`, or none
(`HoldsItem`); its item file is broken if no specification can be read from it (`HasBrokenItem`).
One of both is the case, and `itemAt` says which (`itemAt_eq_ok_iff`, `itemAt_eq_error_iff`).
-/

namespace StaticSite

open Disk

/-! ## Extensions -/

theorem Path.fileName?_join (p : Path) {n : String} (h : Path.IsName n) :
    (p.join n).fileName? = some n := by
  have hlast : (p.join n).components.getLast? = some n := by
    rw [Path.components_eq, Path.steps_join p h.isStep.isRelative,
      h.isStep.steps, ← List.append_assoc, List.getLast?_concat]
  obtain ⟨hempty, hdot, hup, hslash⟩ := h
  unfold Path.fileName?
  rw [hlast]
  split
  · rename_i he
    cases he
  · rename_i he
    cases he
    exact absurd (by decide) hslash
  · rename_i he
    cases he
    exact absurd rfl hdot
  · rename_i he
    cases he
    exact absurd rfl hup
  · rename_i he
    exact he.symm

theorem Config.isToml_json (directory : Path) : isToml (directory.join "item.json") = false := by
  unfold isToml Path.extension?
  rw [Path.fileName?_join directory (by decide)]
  decide

theorem Config.isToml_toml (directory : Path) : isToml (directory.join "item.toml") = true := by
  unfold isToml Path.extension?
  rw [Path.fileName?_join directory (by decide)]
  decide

/-! ## Item files -/

namespace ContentTree

/-- A specification can be read from the text of a file. -/
def IsItemIn (disk : Disk) (path : Path) (read : String → Option Json) (spec : ItemSpec) : Prop :=
  ∃ text document, disk.readText path = .ok text ∧ read text = some document ∧
    ItemSpec.ofJson document = .ok spec

/-- The specification that a directory holds: the one in its `item.json`, else in its
`item.toml`. -/
inductive HoldsItem (disk : Disk) (directory : Path) : Option ItemSpec → Prop where
  | json {spec : ItemSpec} (hf : disk.isFile (directory.join "item.json"))
      (hs : IsItemIn disk (directory.join "item.json")
        (fun text => (Json.read text).toOption) spec) :
      HoldsItem disk directory (some spec)
  | toml {spec : ItemSpec} (hj : disk.isFile (directory.join "item.json") = false)
      (hf : disk.isFile (directory.join "item.toml"))
      (hs : IsItemIn disk (directory.join "item.toml") Toml.read? spec) :
      HoldsItem disk directory (some spec)
  | none (hj : disk.isFile (directory.join "item.json") = false)
      (ht : disk.isFile (directory.join "item.toml") = false) : HoldsItem disk directory none

/-- The item file of a directory cannot be read, or is no item specification. -/
inductive HasBrokenItem (disk : Disk) (directory : Path) : Prop where
  | json (hf : disk.isFile (directory.join "item.json"))
      (hs : ¬ ∃ spec, IsItemIn disk (directory.join "item.json")
        (fun text => (Json.read text).toOption) spec)
  | toml (hj : disk.isFile (directory.join "item.json") = false)
      (hf : disk.isFile (directory.join "item.toml"))
      (hs : ¬ ∃ spec, IsItemIn disk (directory.join "item.toml") Toml.read? spec)

theorem load_eq_ok_iff {disk : Disk} {path : Path} {spec : ItemSpec} :
    Config.load ItemSpec.ofJson disk path = .ok spec ↔ IsItemIn disk path
      (fun text => if Config.isToml path then Toml.read? text else (Json.read text).toOption)
      spec := by
  rw [Config.load_eq_ok_iff]
  constructor
  · rintro ⟨d, hd, hs⟩
    obtain ⟨text, ht, hp⟩ := Config.readDocument_eq_ok_iff.1 hd
    exact ⟨text, d, ht, Config.parse_eq_ok_iff.1 hp, hs⟩
  · rintro ⟨text, d, ht, hp, hs⟩
    exact ⟨d, Config.readDocument_eq_ok_iff.2 ⟨text, ht, Config.parse_eq_ok_iff.2 hp⟩, hs⟩

variable {disk : Disk} {directory : Path}

theorem find?_item : Config.find? disk directory "item" =
    [directory.join "item.json", directory.join "item.toml"].find? (disk.isFile ·) := rfl

theorem itemAt_of_json (hf : disk.isFile (directory.join "item.json")) :
    itemAt disk directory =
      (Config.load ItemSpec.ofJson disk (directory.join "item.json")).map some := by
  unfold itemAt
  rw [find?_item, List.find?_cons_of_pos hf]

theorem itemAt_of_toml (hj : disk.isFile (directory.join "item.json") = false)
    (hf : disk.isFile (directory.join "item.toml")) :
    itemAt disk directory =
      (Config.load ItemSpec.ofJson disk (directory.join "item.toml")).map some := by
  unfold itemAt
  rw [find?_item, List.find?_cons_of_neg (by rw [hj]; decide), List.find?_cons_of_pos hf]

theorem itemAt_of_none (hj : disk.isFile (directory.join "item.json") = false)
    (ht : disk.isFile (directory.join "item.toml") = false) : itemAt disk directory = .ok none := by
  unfold itemAt
  rw [find?_item, List.find?_cons_of_neg (by rw [hj]; decide),
    List.find?_cons_of_neg (by rw [ht]; decide), List.find?_nil]

theorem load_json_iff {spec : ItemSpec} :
    Config.load ItemSpec.ofJson disk (directory.join "item.json") = .ok spec ↔
      IsItemIn disk (directory.join "item.json") (fun text => (Json.read text).toOption) spec := by
  rw [load_eq_ok_iff, Config.isToml_json]
  rfl

theorem load_toml_iff {spec : ItemSpec} :
    Config.load ItemSpec.ofJson disk (directory.join "item.toml") = .ok spec ↔
      IsItemIn disk (directory.join "item.toml") Toml.read? spec := by
  rw [load_eq_ok_iff, Config.isToml_toml]
  rfl

theorem itemAt_eq_ok_iff {spec : Option ItemSpec} :
    itemAt disk directory = .ok spec ↔ HoldsItem disk directory spec := by
  constructor
  · intro h
    rcases hj : disk.isFile (directory.join "item.json") with _ | _
    · rcases ht : disk.isFile (directory.join "item.toml") with _ | _
      · rw [itemAt_of_none hj ht] at h
        cases h
        exact .none hj ht
      · rw [itemAt_of_toml hj ht] at h
        obtain ⟨s, hs, rfl⟩ := Except.map_eq_ok_iff.1 h
        exact .toml hj ht (load_toml_iff.1 hs)
    · rw [itemAt_of_json hj] at h
      obtain ⟨s, hs, rfl⟩ := Except.map_eq_ok_iff.1 h
      exact .json hj (load_json_iff.1 hs)
  · intro h
    cases h with
    | json hf hs =>
      rw [itemAt_of_json hf, load_json_iff.2 hs]
      rfl
    | toml hj hf hs =>
      rw [itemAt_of_toml hj hf, load_toml_iff.2 hs]
      rfl
    | none hj ht => exact itemAt_of_none hj ht

theorem HoldsItem.unique {spec spec' : Option ItemSpec} (h : HoldsItem disk directory spec)
    (h' : HoldsItem disk directory spec') : spec = spec' :=
  Except.ok.inj ((itemAt_eq_ok_iff.2 h).symm.trans (itemAt_eq_ok_iff.2 h'))

theorem hasBrokenItem_iff : HasBrokenItem disk directory ↔
    ¬ ∃ spec, HoldsItem disk directory spec := by
  constructor
  · rintro h ⟨spec, hs⟩
    cases h with
    | json hf hn =>
      cases hs with
      | json _ hs => exact hn ⟨_, hs⟩
      | toml hj | none hj => rw [hf] at hj; cases hj
    | toml hj hf hn =>
      cases hs with
      | json hf' => rw [hj] at hf'; cases hf'
      | toml _ _ hs => exact hn ⟨_, hs⟩
      | none _ ht => rw [hf] at ht; cases ht
  · intro h
    rcases hj : disk.isFile (directory.join "item.json") with _ | _
    · rcases ht : disk.isFile (directory.join "item.toml") with _ | _
      · exact absurd ⟨none, .none hj ht⟩ h
      · exact .toml hj ht fun ⟨spec, hs⟩ => h ⟨some spec, .toml hj ht hs⟩
    · exact .json hj fun ⟨spec, hs⟩ => h ⟨some spec, .json hj hs⟩

theorem itemAt_eq_error_iff : (∃ cause, itemAt disk directory = .error cause) ↔
    HasBrokenItem disk directory := by
  rw [hasBrokenItem_iff]
  constructor
  · rintro ⟨cause, hc⟩ ⟨spec, hs⟩
    rw [itemAt_eq_ok_iff.2 hs] at hc
    cases hc
  · intro h
    rcases hi : itemAt disk directory with cause | spec
    · exact ⟨cause, rfl⟩
    · exact absurd ⟨spec, itemAt_eq_ok_iff.1 hi⟩ h

end ContentTree

end StaticSite
