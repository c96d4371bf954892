import StaticSite.Proofs.Config.Ordered

/-!
# Specifications and the documents they are written as

A specification keeps the fields of its document that its type does not name, and these never have
one of the type's names (`IsBeyond`). So they are written next to the type's own fields and not over
them, and reading what was written finds both again. A page is an item with one field more: what the
page does not name goes to the item, and what neither names is the item's to keep.
-/

namespace StaticSite

open Fields

/-! ## Fields that a type does not name -/

namespace Fields

variable {names : List String} {name : String} {fields own extra : Fields Json}

/-- Fields in order that have none of the names. -/
structure IsBeyond (names : List String) (extra : Fields Json) : Prop where
  order : extra.IsOrdered
  apart : ∀ name ∈ names, extra.get? name = none

theorem IsOrdered.isBeyond (h : fields.IsOrdered) (names : List String) :
    IsBeyond names (fields.without names) where
  order := h.without names
  apart name hn := by rw [get?_without, if_pos hn]

theorem IsBeyond.get?_own (h : IsBeyond names extra) (own : Fields Json) (hn : name ∈ names) :
    get? (own.overlay extra) name = get? own name := by
  rw [get?_overlay h.order.nodup, h.apart name hn, Option.none_or]

theorem IsBeyond.get?_other (h : IsBeyond names extra) (hn : get? own name = none) :
    get? (own.overlay extra) name = get? extra name := by
  rw [get?_overlay h.order.nodup, hn, Option.or_none]

/-- What was written over a type's own fields is found again. -/
theorem IsBeyond.without_overlay (h : IsBeyond names extra) (hown : own.IsOrdered)
    (hnames : ∀ name ∉ names, get? own name = none) :
    (own.overlay extra).without names = extra := by
  refine ((hown.overlay extra).without names).ext h.order fun name => ?_
  rw [get?_without]
  split
  · rename_i hn
    exact (h.apart name hn).symm
  · rename_i hn
    exact h.get?_other (hnames name hn)

theorem without_without (fields : Fields Json) (first second : List String) :
    (fields.without first).without second = fields.without (first ++ second) := by
  unfold without
  rw [List.filter_filter]
  refine List.filter_congr fun field _ => ?_
  simp only [List.contains_eq_mem, List.mem_append, Bool.decide_or, Bool.not_or, Bool.and_comm]

theorem read?_eq_ok_some {α : Type} {read : Json → Option α} {a : α} :
    fields.read? name read = .ok (some a) ↔ ∃ j, fields.get? name = some j ∧ read j = some a := by
  unfold read?
  cases fields.get? name with
  | none => simp
  | some j => cases hr : read j <;> simp [hr]

end Fields

/-- What becomes of a document that is read, with these names for the type's own fields, and written
again: the fields of other names stay as they are, and they are those that are kept aside. -/
structure Json.KeepsOthers (document : Json) (names : List String) (written : Json)
    (extra : Fields Json) :
    Prop where
  others : ∀ name ∉ names, written.field? name = document.field? name
  kept : ∀ name ∉ names, extra.get? name = document.field? name
  apart : ∀ name ∈ names, name ∉ extra.names

theorem Fields.IsOrdered.keepsOthers {fields written : Fields Json} {names : List String}
    (h : fields.IsOrdered)
    (hw : ∀ name ∉ names, get? written name = get? (fields.without names) name) :
    (Json.object fields).KeepsOthers names (.object written) (fields.without names) := by
  have hkept : ∀ name ∉ names, get? (fields.without names) name = get? fields name := by
    intro name hn
    rw [get?_without, if_neg hn]
  exact ⟨fun name hn => (hw name hn).trans (hkept name hn), hkept,
    fun name hn => get?_eq_none_iff.1 ((h.isBeyond names).apart name hn)⟩

/-! ## Values of fields -/

theorem mapM_map_eq_some {α β : Type} (read : β → Option α) (write : α → β)
    (h : ∀ a, read (write a) = some a) (as : List α) : (as.map write).mapM read = some as := by
  induction as with
  | nil => rfl
  | cons a rest ih =>
    rw [List.map_cons, List.mapM_cons, h, ih]
    rfl

namespace Json

theorem fieldsOf?_mapValues {α : Type} (read : Json → Option α) (write : α → Json)
    (h : ∀ a, read (write a) = some a) (fields : Fields α) :
    fieldsOf? read (object (fields.mapValues write)) = some fields := by
  refine mapM_map_eq_some _ (fun field : String × α => (field.1, write field.2))
    (fun field => ?_) fields
  dsimp only
  rw [h]
  rfl

theorem texts?_ofStrings (texts : List String) : (ofStrings texts).texts? = some texts :=
  mapM_map_eq_some text? string (fun _ => rfl) texts

theorem fieldsOf?_ofTextFields (fields : Fields String) :
    fieldsOf? text? (ofTextFields fields) = some fields :=
  fieldsOf?_mapValues text? string (fun _ => rfl) fields

theorem resources?_ofResources (resources : Resources) :
    resources? (ofResources resources) = some resources :=
  fieldsOf?_mapValues textOrNull? ofText? (fun target => by cases target <;> rfl) resources

theorem fieldsOf?_some (fields : Fields Json) : fieldsOf? some (object fields) = some fields := by
  have h := fieldsOf?_mapValues some id (fun _ => rfl) fields
  rwa [show fields.mapValues id = fields from List.map_id fields] at h

theorem textPairs?_ofRules (rules : List (String × String)) :
    textPairs? (WebsiteSpec.ofRules rules) = some rules :=
  mapM_map_eq_some _ (fun rule : String × String => ofStrings [rule.1, rule.2]) (fun _ => rfl) rules

end Json

namespace Fields

variable {fields : Fields Json} {name : String} {α : Type}

theorem read?_of_some (read : Json → Option α) {j : Json} {a : α} (h : fields.get? name = some j)
    (hr : read j = some a) : fields.read? name read = .ok (some a) := by
  rw [read?, h]
  dsimp only
  rw [hr]

theorem read?_of_none (read : Json → Option α) (h : fields.get? name = none) :
    fields.read? name read = .ok none := by
  rw [read?, h]

theorem read?_of_text {t : Option String} (h : fields.get? name = t.map Json.string) :
    fields.read? name Json.textOrNull? = .ok (t.map some) := by
  cases t with
  | none => exact read?_of_none _ h
  | some text => exact read?_of_some _ h rfl

end Fields

/-! ## Items -/

namespace ItemSpec

variable {item : ItemSpec} {fields : Fields Json}

/-- The fields say what the item says. -/
structure IsWrittenIn (item : ItemSpec) (fields : Fields Json) : Prop where
  template : fields.get? "template" = item.template.map Json.string
  stylesheets : fields.get? "extraStylesheets" = some (Json.ofStrings item.stylesheets)
  markdowns : fields.get? "markdowns" = some (Json.ofTextFields item.markdowns)
  inlineStyles : fields.get? "inlineStyles" = item.inlineStyles.map Json.string
  resources : fields.get? "resources" = some (Json.ofResources item.resources)
  values : fields.get? "variables" = some (Json.object item.values)
  extra : fields.without fieldNames = item.extra

theorem IsWrittenIn.ofFields_eq (h : item.IsWrittenIn fields) : ofFields fields = .ok item := by
  have htemplate := read?_of_text h.template
  have hstylesheets := read?_of_some _ h.stylesheets (Json.texts?_ofStrings _)
  have hmarkdowns := read?_of_some _ h.markdowns (Json.fieldsOf?_ofTextFields _)
  have hinlineStyles := read?_of_text h.inlineStyles
  have hresources := read?_of_some _ h.resources (Json.resources?_ofResources _)
  have hvalues := read?_of_some _ h.values (Json.fieldsOf?_some _)
  have hget (t : Option String) : (t.map some).getD none = t := by cases t <;> rfl
  unfold ofFields
  rw [htemplate, hstylesheets, hmarkdowns, hinlineStyles, hresources, hvalues, h.extra]
  show Except.ok _ = Except.ok _
  simp only [Option.getD_some, hget]

theorem names_ownFields (item : ItemSpec) {name : String} (hn : name ∉ fieldNames) :
    get? item.ownFields name = none := by
  obtain ⟨template, stylesheets, markdowns, inlineStyles, resources, values, extra⟩ := item
  refine get?_overlay_of_notMem (fun hm => hn ?_) []
  cases template <;> cases inlineStyles <;>
    exact (by simp [names, fieldNames] : names _ ⊆ fieldNames) hm

theorem isWrittenIn_toFields (h : IsBeyond fieldNames item.extra) :
    item.IsWrittenIn item.toFields := by
  have hget {name : String} (hn : name ∈ fieldNames) :
      get? item.toFields name = get? item.ownFields name :=
    h.get?_own _ hn
  obtain ⟨template, stylesheets, markdowns, inlineStyles, resources, values, extra⟩ := item
  constructor
  case extra => exact h.without_overlay (.ofList _) fun name => names_ownFields _
  all_goals
    rw [hget (by decide), ownFields,
      get?_ofList (by cases template <;> cases inlineStyles <;> simp)]
    cases template <;> cases inlineStyles <;> rfl

theorem get?_toFields (h : IsBeyond fieldNames item.extra) {name : String}
    (hn : name ∉ fieldNames) :
    get? item.toFields name = get? item.extra name :=
  h.get?_other (names_ownFields item hn)

theorem extra_of_ofFields (h : ofFields fields = .ok item) :
    item.extra = fields.without fieldNames := by
  unfold ofFields at h
  simp only [Except.bind_eq_ok_iff] at h
  obtain ⟨_, -, _, -, _, -, _, -, _, -, _, -, h⟩ := h
  cases h
  rfl

end ItemSpec

/-! ## Pages -/

namespace PageSpec

variable {page : PageSpec} {fields : Fields Json}

/-- A page's own field and those of its item. -/
def fieldNames : List String :=
  "basePath" :: ItemSpec.fieldNames

theorem extra_of_ofFields (h : ofFields fields = .ok page) :
    page.item.extra = fields.without fieldNames := by
  unfold ofFields at h
  simp only [Except.bind_eq_ok_iff] at h
  obtain ⟨_, -, item, hi, h⟩ := h
  cases h
  rw [ItemSpec.extra_of_ofFields hi, without_without]
  rfl

theorem isBeyond_item (h : IsBeyond fieldNames page.item.extra) :
    IsBeyond ItemSpec.fieldNames page.item.extra :=
  ⟨h.order, fun name hn => h.apart name (List.mem_cons_of_mem _ hn)⟩

/-- The fields of a page's item are none that the page names. -/
theorem isBeyond_toFields (h : IsBeyond fieldNames page.item.extra) :
    IsBeyond ["basePath"] page.item.toFields where
  order := (IsOrdered.ofList _).overlay _
  apart name hn := by
    obtain rfl := List.mem_singleton.1 hn
    rw [ItemSpec.get?_toFields (isBeyond_item h) (by decide)]
    exact h.apart _ List.mem_cons_self

theorem get?_ownFields (page : PageSpec) {name : String} (hn : name ∉ ["basePath"]) :
    get? (ofList [("basePath", Json.string page.basePath)]) name = none :=
  get?_overlay_of_notMem hn []

theorem ofJson_toJson (h : IsBeyond fieldNames page.item.extra) :
    ofJson page.toJson = .ok page := by
  have hpage := isBeyond_toFields h
  have hbase :=
    read?_of_some Json.text? (hpage.get?_own (ofList [("basePath", Json.string page.basePath)])
    (List.mem_singleton_self _)) rfl
  have hitem := hpage.without_overlay (.ofList [("basePath", Json.string page.basePath)])
    fun name hn => get?_ownFields page hn
  show PageSpec.ofFields _ = _
  unfold ofFields
  rw [hbase, hitem, (ItemSpec.isWrittenIn_toFields (isBeyond_item h)).ofFields_eq]
  rfl

theorem field?_toJson (h : IsBeyond fieldNames page.item.extra) {name : String}
    (hn : name ∉ fieldNames) :
    page.toJson.field? name = get? page.item.extra name := by
  have hbase : name ∉ ["basePath"] := fun hm =>
    hn (List.mem_cons.2 (.inl (List.mem_singleton.1 hm)))
  have hitem : name ∉ ItemSpec.fieldNames := fun hm => hn (List.mem_cons_of_mem _ hm)
  exact ((isBeyond_toFields h).get?_other (get?_ownFields page hbase)).trans
    (ItemSpec.get?_toFields (isBeyond_item h) hitem)

end PageSpec

/-! ## Websites -/

namespace WebsiteSpec

variable {site : WebsiteSpec} {fields : Fields Json}

/-- The fields say what the specification says. -/
structure IsWrittenIn (site : WebsiteSpec) (fields : Fields Json) : Prop where
  theme : fields.get? "theme" = some (Json.string site.theme)
  mainPage : fields.get? "mainPage" = some site.mainPage.toJson
  notFound : fields.get? "404" = some site.notFound.toJson
  contents : fields.get? "contents" = some (Json.string site.contents)
  stylesheets : fields.get? "additionalStylesheets" = some (Json.ofTextFields site.stylesheets)
  otherStylesheets : fields.get? "additional_stylesheets" = none
  aliases : fields.get? "aliases" = some (Json.ofTextFields site.aliases)
  verification : fields.get? "googleVerification" = site.verification.map Json.string
  robots : fields.get? "robots" = some (Json.object (site.robots.mapValues ofRules))
  resources : fields.get? "resources" = some (Json.ofResources site.resources)
  extra : fields.without fieldNames = site.extra

theorem IsWrittenIn.ofFields_eq (h : site.IsWrittenIn fields)
    (hmain : PageSpec.ofJson site.mainPage.toJson = .ok site.mainPage)
    (hnot : PageSpec.ofJson site.notFound.toJson = .ok site.notFound) :
    ofFields fields = .ok site := by
  have htheme := read?_of_some Json.text? h.theme rfl
  have hmainPage := read?_of_some page? h.mainPage (Except.toOption_eq_some_iff.2 hmain)
  have hnotFound := read?_of_some page? h.notFound (Except.toOption_eq_some_iff.2 hnot)
  have hcontents := read?_of_some Json.text? h.contents rfl
  have hsheets := read?_of_some _ h.stylesheets (Json.fieldsOf?_ofTextFields _)
  have hother := read?_of_none (Json.fieldsOf? Json.text?) h.otherStylesheets
  have haliases := read?_of_some _ h.aliases (Json.fieldsOf?_ofTextFields _)
  have hverification := read?_of_text h.verification
  have hrobots := read?_of_some _ h.robots (Json.fieldsOf?_mapValues _ _ Json.textPairs?_ofRules _)
  have hresources := read?_of_some _ h.resources (Json.resources?_ofResources _)
  have hget (t : Option String) : (t.map some).getD none = t := by cases t <;> rfl
  have hstylesheets : readStylesheets fields = .ok site.stylesheets := by
    unfold readStylesheets
    rw [hsheets, hother]
    rfl
  unfold ofFields
  rw [htheme, hmainPage, hnotFound, hcontents, hstylesheets, haliases, hverification, hrobots,
    hresources, h.extra]
  show Except.ok _ = Except.ok _
  simp only [Option.getD_some, hget]

theorem get?_ownFields (site : WebsiteSpec) {name : String} (hn : name ∉ fieldNames) :
    get? site.ownFields name = none := by
  obtain ⟨theme, mainPage, notFound, contents, stylesheets, aliases, verification, robots,
    resources, extra⟩ := site
  refine get?_overlay_of_notMem (fun hm => hn ?_) []
  cases verification <;>
    exact (by simp [names, fieldNames, requiredFields] : names _ ⊆ fieldNames) hm

theorem isWrittenIn_toFields (h : IsBeyond fieldNames site.extra) :
    site.IsWrittenIn (site.ownFields.overlay site.extra) := by
  have hget {name : String} (hn : name ∈ fieldNames) :
      get? (site.ownFields.overlay site.extra) name = get? site.ownFields name :=
    h.get?_own _ hn
  obtain ⟨theme, mainPage, notFound, contents, stylesheets, aliases, verification, robots,
    resources, extra⟩ := site
  constructor
  case extra => exact h.without_overlay (.ofList _) fun name hn => get?_ownFields _ hn
  all_goals
    rw [hget (by decide), ownFields, get?_ofList (by cases verification <;> simp)]
    cases verification <;> rfl

theorem extra_of_ofFields (h : ofFields fields = .ok site) :
    site.extra = fields.without fieldNames := by
  unfold ofFields at h
  simp only [Except.bind_eq_ok_iff] at h
  obtain ⟨_, -, _, -, _, -, _, -, _, -, _, -, _, -, _, -, _, -, _, -, _, -, _, -, _, -, h⟩ := h
  cases h
  rfl

/-- The pages of a website are read from its fields. -/
theorem pages_of_ofFields (h : ofFields fields = .ok site) :
    (∃ j, fields.get? "mainPage" = some j ∧ PageSpec.ofJson j = .ok site.mainPage) ∧
      ∃ j, fields.get? "404" = some j ∧ PageSpec.ofJson j = .ok site.notFound := by
  have hpage {name : String} {found : Option PageSpec} {page : PageSpec}
      (hread : fields.read? name page? = .ok found) (hrequire : require name found = .ok page) :
      ∃ j, fields.get? name = some j ∧ PageSpec.ofJson j = .ok page := by
    cases found with
    | none => cases hrequire
    | some other =>
      cases hrequire
      obtain ⟨j, hj, hp⟩ := read?_eq_ok_some.1 hread
      exact ⟨j, hj, Except.toOption_eq_some_iff.1 hp⟩
  unfold ofFields at h
  simp only [Except.bind_eq_ok_iff] at h
  obtain ⟨_, -, _, hmain, _, hnot, _, -, _, -, _, -, _, -, _, -, _, -, _, -, _, hmain', _, hnot', _,
    -, h⟩ := h
  cases h
  exact ⟨hpage hmain hmain', hpage hnot hnot'⟩

end WebsiteSpec

/-! ## Reading what was written -/

theorem ItemSpec.ofJson_again {j : Json} {item : ItemSpec} (hj : j.IsOrdered)
    (h : ofJson j = .ok item) :
    ofJson item.toJson = .ok item ∧ j.KeepsOthers fieldNames item.toJson item.extra := by
  cases hj with
  | object order each =>
    have hextra := extra_of_ofFields h
    have hbeyond := hextra ▸ order.isBeyond fieldNames
    refine ⟨(isWrittenIn_toFields hbeyond).ofFields_eq, ?_⟩
    have hkeeps := order.keepsOthers fun name hn =>
      (get?_toFields hbeyond hn).trans (by rw [hextra])
    rwa [← hextra] at hkeeps
  | _ => cases h

theorem PageSpec.ofJson_again {j : Json} {page : PageSpec} (hj : j.IsOrdered)
    (h : ofJson j = .ok page) :
    ofJson page.toJson = .ok page ∧ j.KeepsOthers fieldNames page.toJson page.item.extra := by
  cases hj with
  | object order each =>
    have hextra := extra_of_ofFields h
    have hbeyond := hextra ▸ order.isBeyond fieldNames
    refine ⟨ofJson_toJson hbeyond, ?_⟩
    have hkeeps := order.keepsOthers fun name hn =>
      (field?_toJson hbeyond hn).trans (by rw [hextra])
    rwa [← hextra] at hkeeps
  | _ => cases h

theorem WebsiteSpec.ofJson_again {j : Json} {site : WebsiteSpec} (hj : j.IsOrdered)
    (h : ofJson j = .ok site) :
    ofJson site.toJson = .ok site ∧ j.KeepsOthers fieldNames site.toJson site.extra := by
  cases hj with
  | object order each =>
    have hextra := extra_of_ofFields h
    have hbeyond := hextra ▸ order.isBeyond fieldNames
    obtain ⟨⟨main, hm, hmain⟩, ⟨notFound, hn, hnot⟩⟩ := pages_of_ofFields h
    have hmain' := (PageSpec.ofJson_again (each _ (mem_of_get? hm)) hmain).1
    have hnot' := (PageSpec.ofJson_again (each _ (mem_of_get? hn)) hnot).1
    refine ⟨(isWrittenIn_toFields hbeyond).ofFields_eq hmain' hnot', ?_⟩
    have hkeeps := order.keepsOthers fun name hn =>
      (hbeyond.get?_other (get?_ownFields site hn)).trans (by rw [hextra])
    rwa [← hextra] at hkeeps
  | _ => cases h

/-- A document that is read as an item, as a page or as a website, written and read again gives the
same specification. Its fields that the type does not name stand in what is written with the same
values, and nothing that the type names is kept among them. -/
theorem specification_of_written {j : Json} (hj : j.IsOrdered) :
    (∀ item, ItemSpec.ofJson j = .ok item → ItemSpec.ofJson item.toJson = .ok item ∧
      j.KeepsOthers ItemSpec.fieldNames item.toJson item.extra) ∧
    (∀ page, PageSpec.ofJson j = .ok page → PageSpec.ofJson page.toJson = .ok page ∧
      j.KeepsOthers PageSpec.fieldNames page.toJson page.item.extra) ∧
    ∀ site, WebsiteSpec.ofJson j = .ok site → WebsiteSpec.ofJson site.toJson = .ok site ∧
      j.KeepsOthers WebsiteSpec.fieldNames site.toJson site.extra :=
  ⟨fun _ => ItemSpec.ofJson_again hj, fun _ => PageSpec.ofJson_again hj, fun _ =>
    WebsiteSpec.ofJson_again hj⟩

/-- The document of a website with a field of its own, also in its main page. -/
def sampleDocument : Json :=
  .object [("404", .object [("variables", .object [])]),
    ("additional_stylesheets", .object [("site", .string "site.css")]),
    ("contents", .string "content"),
    ("mainPage", .object [("basePath", .string "main"), ("owner", .null)]),
    ("owner", .array [.int 1]),
    ("resources", .object [("logo.png", .null)]), ("theme", .string "plain")]

theorem specification_of_sampleDocument : sampleDocument.IsOrdered ∧ ∃ item page site,
    ItemSpec.ofJson sampleDocument = .ok item ∧ PageSpec.ofJson sampleDocument = .ok page ∧
    WebsiteSpec.ofJson sampleDocument = .ok site ∧ ItemSpec.ofJson item.toJson = .ok item ∧
    PageSpec.ofJson page.toJson = .ok page ∧ WebsiteSpec.ofJson site.toJson = .ok site ∧
    site.toJson.field? "owner" = some (.array [.int 1]) ∧ "theme" ∉ site.extra.names := by
  have hj : sampleDocument.IsOrdered := by
    unfold sampleDocument
    simp only [Json.isOrdered_object_iff, Json.isOrdered_array_iff, List.forall_mem_cons]
    exact ⟨by decide, ⟨by decide, ⟨by decide, nofun⟩, nofun⟩, ⟨by decide, .string _, nofun⟩,
      .string _, ⟨by decide, .string _, .null, nofun⟩, ⟨.int _, nofun⟩, ⟨by decide, .null, nofun⟩,
      .string _, nofun⟩
  obtain ⟨hitem, hpage, hsite⟩ := specification_of_written hj
  refine ⟨hj, _, _, _, rfl, rfl, rfl, (hitem _ rfl).1, (hpage _ rfl).1, (hsite _ rfl).1,
    (hsite _ rfl).2.others "owner" (by decide), (hsite _ rfl).2.apart "theme" (by decide)⟩

end StaticSite
