import StaticSite.Proofs.Spec.Written

/-!
# What templates see of a theme

A theme is found in the first of the directories that has a file for it, and its base path is that
directory. All of the file's fields but `basePath` are written with their own values. A `basePath`
in the file is nothing that the type reads: it is kept aside with the unknown fields, which are
written over the type's own ones, so there it stands in the place of the directory
(`written_of_resolve`).
-/

namespace StaticSite

open Fields

/-! ## Values that are written as they were read -/

theorem map_eq_of_mapM_eq_some {α β : Type} (read : β → Option α) (write : α → β)
    (h : ∀ b a, read b = some a → write a = b) {bs : List β} {as : List α}
    (hm : bs.mapM read = some as) :
    as.map write = bs := by
  induction bs generalizing as with
  | nil =>
    cases hm
    rfl
  | cons b rest ih =>
    rw [List.mapM_cons] at hm
    obtain ⟨a, ha, hm⟩ := Option.bind_eq_some_iff.1 hm
    obtain ⟨others, hr, hm⟩ := Option.bind_eq_some_iff.1 hm
    cases hm
    rw [List.map_cons, h b a ha, ih hr]

namespace Json

variable {j : Json}

theorem eq_of_fieldsOf? {α : Type} {read : Json → Option α} {write : α → Json}
    (h : ∀ v a, read v = some a → write a = v) {fields : Fields α}
    (hr : fieldsOf? read j = some fields) :
    object (fields.mapValues write) = j := by
  cases j with
  | object own =>
    refine congrArg object (map_eq_of_mapM_eq_some _ _ (fun field b hf => ?_) hr)
    obtain ⟨a, ha, rfl⟩ := Option.map_eq_some_iff.1 hf
    exact congrArg (field.1, ·) (h field.2 a ha)
  | _ => cases hr

theorem eq_of_text? {s : String} (h : j.text? = some s) : string s = j := by
  cases j with
  | string t =>
    cases h
    rfl
  | _ => cases h

theorem eq_of_textOrNull? {t : Option String} (h : j.textOrNull? = some t) : ofText? t = j := by
  cases j with
  | null | string =>
    cases h
    rfl
  | _ => cases h

end Json

/-! ## Themes -/

namespace ThemeSpec

variable {disk : Disk} {name : String} {directories : List Path} {theme : ThemeSpec}
  {fields : Fields Json}

/-- The document that a theme is read from: it is in the first of the directories that has a file
for it. -/
structure FoundIn (disk : Disk) (name : String) (directories : List Path) (directory : Path)
    (document : Json) :
    Prop where
  first : ∃ before rest, directories = before ++ directory :: rest ∧
    ∀ other ∈ before, Config.find? disk (other.join name) "theme" = none
  read : ∃ path, Config.find? disk (directory.join name) "theme" = some path ∧
    Config.readDocument disk path = .ok document

-- Otherwise the search itself is unfolded down to the walk that it makes on the disk.
attribute [local irreducible] Config.find? in
theorem resolveIn_cons (disk : Disk) (name : String) (searched : List Path) (directory : Path)
    (rest : List Path) : resolveIn disk name searched (directory :: rest) =
      match Config.find? disk (directory.join name) "theme" with
      | none => resolveIn disk name searched rest
      | some path => Config.load ofJson disk path >>= fun theme =>
        validate name { theme with basePath := directory.join name } :=
  rfl

theorem eq_of_validate {loaded : ThemeSpec} (h : validate name loaded = .ok theme) :
    theme = loaded := by
  unfold validate at h
  split at h <;> cases h
  rfl

theorem foundIn_of_resolveIn {searched : List Path}
    (h : resolveIn disk name searched directories = .ok theme) :
    ∃ directory document loaded, FoundIn disk name directories directory document ∧
      ofJson document = .ok loaded ∧ theme = { loaded with basePath := directory.join name } := by
  induction directories with
  | nil => cases h
  | cons directory rest ih =>
    rw [resolveIn_cons] at h
    cases hf : Config.find? disk (directory.join name) "theme" with
    | none =>
      rw [hf] at h
      obtain ⟨other, document, loaded, ⟨⟨before, after, rfl, hbefore⟩, hread⟩, hloaded⟩ := ih h
      refine ⟨other, document, loaded, ⟨⟨directory :: before, after, rfl, ?_⟩, hread⟩, hloaded⟩
      exact List.forall_mem_cons.2 ⟨hf, hbefore⟩
    | some path =>
      rw [hf] at h
      obtain ⟨loaded, hl, h⟩ := Except.bind_eq_ok_iff.1 h
      obtain ⟨document, hd, hl⟩ := Config.load_eq_ok_iff.1 hl
      exact ⟨directory, document, loaded, ⟨⟨[], rest, rfl, nofun⟩, path, hf, hd⟩, hl,
        eq_of_validate h⟩

/-- What is read of a theme's document. -/
theorem read_of_ofFields (h : ofFields fields = .ok theme) :
    (∀ j, fields.get? "templates" = some j → Json.fieldsOf? Json.text? j = some theme.templates) ∧
      (∀ j, fields.get? "resources" = some j → Json.resources? j = some theme.resources) ∧
      theme.extra = fields.without fieldNames := by
  have hread {α : Type} {read : Json → Option α} {found : Option α} {key : String} (value : α)
      (hf : fields.read? key read = .ok found) (j : Json) (hj : fields.get? key = some j) :
      read j = some (found.getD value) := by
    unfold read? at hf
    rw [hj] at hf
    dsimp only at hf
    split at hf <;> cases hf
    assumption
  obtain ⟨templates, ht, h⟩ := Except.bind_eq_ok_iff.1 h
  obtain ⟨resources, hr, h⟩ := Except.bind_eq_ok_iff.1 h
  cases h
  exact ⟨hread [] ht, hread [] hr, rfl⟩

variable {base : Path}

/-- The fields of a theme's document, other than `basePath`, are written as they are. -/
theorem field?_toJson (hf : fields.IsOrdered) (h : ofFields fields = .ok theme) {key : String}
    (hkey : key ≠ "basePath") {value : Json} (hv : fields.get? key = some value) :
    ({ theme with basePath := base } : ThemeSpec).toJson.field? key = some value := by
  obtain ⟨htemplates, hresources, hextra⟩ := read_of_ofFields h
  have hbeyond : IsBeyond fieldNames theme.extra := hextra ▸ hf.isBeyond fieldNames
  have hown : ∀ k, get? (ThemeSpec.ownFields { theme with basePath := base }) k = _ :=
    get?_ofList (by simp)
  show get? ((ThemeSpec.ownFields { theme with basePath := base }).overlay theme.extra) key =
    some value
  by_cases hn : key ∈ fieldNames
  · rw [hbeyond.get?_own _ hn, hown]
    rcases List.mem_pair.1 hn with rfl | rfl
    · exact congrArg some (Json.eq_of_fieldsOf? (fun _ _ => Json.eq_of_text?) (htemplates value hv))
    · exact congrArg some (Json.eq_of_fieldsOf? (fun _ _ => Json.eq_of_textOrNull?)
        (hresources value hv))
  · rw [get?_overlay hbeyond.order.nodup, hextra, get?_without, if_neg hn, hv, Option.some_or]

/-- A `basePath` of a theme's document is written in the place of the directory. -/
theorem basePath_toJson (hf : fields.IsOrdered) (h : ofFields fields = .ok theme) :
    ({ theme with basePath := base } : ThemeSpec).toJson.field? "basePath" =
      some ((fields.get? "basePath").getD (.string base.text)) := by
  obtain ⟨-, -, hextra⟩ := read_of_ofFields h
  show
    get? ((ThemeSpec.ownFields { theme with basePath := base }).overlay theme.extra) "basePath" = _
  rw [get?_overlay (hextra ▸ (hf.without fieldNames).nodup), hextra, get?_without,
    if_neg (by decide), ownFields, get?_ofList (by simp)]
  cases get? fields "basePath" <;> rfl

/-- A theme comes from the first of the directories that has a file for it, and this is its base
path. What is written of it has all fields of the file, other than `basePath`, with their own
values; its `basePath` is the file's, and the directory when the file has none. -/
theorem written_of_resolve (h : resolve disk name directories = .ok theme) :
    ∃ directory document, FoundIn disk name directories directory document ∧
      theme.basePath = directory.join name ∧
      (∀ key value, key ≠ "basePath" → document.field? key = some value →
        theme.toJson.field? key = some value) ∧
      theme.toJson.field? "basePath" =
        some ((document.field? "basePath").getD (.string theme.basePath.text)) := by
  obtain ⟨directory, document, loaded, hfound, hloaded, rfl⟩ := foundIn_of_resolveIn h
  obtain ⟨path, -, hread⟩ := hfound.read
  refine ⟨directory, document, hfound, rfl, ?_⟩
  cases Config.isOrdered_of_readDocument hread with
  | object order _ =>
    exact ⟨fun key value hkey hv => field?_toJson order hloaded hkey hv,
      basePath_toJson order hloaded⟩
  | _ => cases hloaded

/-- A disk with a theme whose file says these fields besides its templates. -/
def themeDisk (fields : String) : Disk where
  entries :=
    [(["themes"], .directory), (["themes", "p"], .directory),
      (["themes", "p", "theme.json"],
        .file ("\x7b\"templates\": \x7b\"404\": \"d\", \"default\": \"d\"\x7d" ++
        fields ++ "\x7d").toUTF8 0)]

theorem written_of_resolve_plain : ∃ theme,
    resolve (themeDisk ", \"color\": \"red\"") "p" [⟨"themes"⟩] = .ok theme ∧
    theme.toJson.field? "basePath" = some (.string "themes/p") ∧
    theme.toJson.field? "color" = some (.string "red") := by
  have hrun :
      (resolve (themeDisk ", \"color\": \"red\"") "p" [⟨"themes"⟩]).toOption.map (·.basePath.text) =
      some "themes/p" := by
    decide +kernel
  have hfile :
      (Config.find? (themeDisk ", \"color\": \"red\"") (Path.join ⟨"themes"⟩ "p") "theme").bind
        (fun path =>
          (Config.readDocument (themeDisk ", \"color\": \"red\"") path).toOption.map
            fun document =>
              ((document.field? "color").bind Json.text?, (document.field? "basePath").isSome)) =
      some (some "red", false) := by
    decide +kernel
  obtain ⟨theme, htheme, hbase⟩ := Option.map_eq_some_iff.1 hrun
  have htheme := Except.toOption_eq_some_iff.1 htheme
  obtain ⟨directory, document, hfound, -, hothers, hpath⟩ := written_of_resolve htheme
  obtain ⟨before, rest, hd, -⟩ := hfound.first
  obtain ⟨path, hf, hread⟩ := hfound.read
  obtain rfl : directory = ⟨"themes"⟩ := by
    have hm : directory ∈ ([⟨"themes"⟩] : List Path) := by simp [hd]
    exact List.mem_singleton.1 hm
  rw [hf, Option.bind_some, hread] at hfile
  obtain ⟨hcolor, hnone⟩ := Prod.mk.inj (Option.some.inj hfile)
  obtain ⟨j, hj, ht⟩ := Option.bind_eq_some_iff.1 hcolor
  have hnone : document.field? "basePath" = none := by simpa using hnone
  refine ⟨theme, htheme, ?_, hothers "color" _ (by decide)
    (hj.trans (congrArg some (Json.eq_of_text? ht).symm))⟩
  rw [hpath, hnone, hbase]
  rfl

/-- The directory that a theme was loaded from is not what is written of it. -/
theorem basePath_lost_of_resolve : ∃ theme,
    resolve (themeDisk ", \"basePath\": \"q\"") "p" [⟨"themes"⟩] = .ok theme ∧
    theme.basePath = ⟨"themes/p"⟩ ∧
    theme.toJson.field? "basePath" = some (.string "q") ∧
    theme.toJson.field? "basePath" ≠ some (.string theme.basePath.text) := by
  have hrun :
      (resolve (themeDisk ", \"basePath\": \"q\"") "p" [⟨"themes"⟩]).toOption.map (fun theme =>
      (theme.basePath, (theme.toJson.field? "basePath").bind Json.text?)) =
        some (⟨"themes/p"⟩, some "q") := by
    decide +kernel
  obtain ⟨theme, htheme, hrun⟩ := Option.map_eq_some_iff.1 hrun
  obtain ⟨hbase, hwritten⟩ := Prod.mk.inj hrun
  obtain ⟨j, hj, ht⟩ := Option.bind_eq_some_iff.1 hwritten
  have hq : theme.toJson.field? "basePath" = some (.string "q") :=
    hj.trans (congrArg some (Json.eq_of_text? ht).symm)
  refine ⟨theme, Except.toOption_eq_some_iff.1 htheme, hbase, hq, ?_⟩
  rw [hq, hbase]
  simp

end ThemeSpec

end StaticSite
