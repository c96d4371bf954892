import StaticSite.Proofs.Disk.Content
import StaticSite.Proofs.Site.Changes

/-!
# Worlds that are alike

Sessions are alike if they differ in the order of what was reported at most. Changes of different
files that keep known templates give alike sessions in both orders (`applyAll_comm`), and all of a
build does the same in worlds whose disks have the same content and whose sessions are alike
(`alikeWorlds`).
-/

namespace StaticSite

/-! ## What a change does -/

namespace Change

/-- The components of the file that a change claims. -/
def files : Change → List (List String)
  | claim file => [file.components]
  | _ => []

/-- The template that a change keeps, if it has the name. -/
def keeps : Change → Templates
  | keep n template, name => if name = n then some template else none
  | _, _ => none

/-- What a change makes of the registered stylesheets. -/
def sheets : Change → Fields String → Fields String
  | register name css, sheets => if Fields.has sheets name then sheets else sheets.insert name css
  | _, sheets => sheets

/-- What a change reports in a session with the given claims. -/
def problems (claimed : List (List String)) : Change → List Inconsistency
  | report problem => [problem]
  | claim file => if claimed.contains file.components then [.duplicateOutput file] else []
  | _ => []

end Change

namespace Session

variable {s s' t : Session} {c c' : Change}

theorem compiler_apply (s : Session) (c : Change) : (s.apply c).compiler = s.compiler := by
  cases c with
  | report => rfl
  | claim file =>
    show (s.claim file).compiler = s.compiler
    unfold claim
    split <;> rfl
  | register name css =>
    show (s.register name css).compiler = s.compiler
    unfold register
    split <;> rfl
  | keep name template =>
    show (s.keep name template).compiler = s.compiler
    unfold keep
    split <;> rfl

theorem templates_apply (s : Session) (c : Change) (name : String) :
    Fields.get? (s.apply c).templates name = (Fields.get? s.templates name).or (c.keeps name) := by
  cases c with
  | report => simp [apply, report, Change.keeps]
  | claim file =>
    show Fields.get? (s.claim file).templates name = _
    unfold claim
    split <;> simp [report, Change.keeps]
  | register n css =>
    show Fields.get? (s.register n css).templates name = _
    unfold register
    split <;> simp [Change.keeps]
  | keep n template =>
    rw [apply, get?_keep]
    by_cases hn : name = n
    · rw [if_pos hn, Change.keeps, if_pos hn, hn]
      cases Fields.get? s.templates n <;> rfl
    · rw [if_neg hn, Change.keeps, if_neg hn, Option.or_none]

theorem stylesheets_apply (s : Session) (c : Change) :
    (s.apply c).stylesheets = c.sheets s.stylesheets := by
  cases c with
  | report => rfl
  | claim file =>
    show (s.claim file).stylesheets = s.stylesheets
    unfold claim
    split <;> rfl
  | register name css =>
    show (s.register name css).stylesheets = _
    rw [register, hasStylesheet, Change.sheets]
    split <;> rfl
  | keep name template =>
    show (s.keep name template).stylesheets = s.stylesheets
    unfold keep
    split <;> rfl

theorem reports_apply (s : Session) (c : Change) :
    (s.apply c).reports = s.reports ++ c.problems s.claimed := by
  cases c with
  | report => rfl
  | claim file =>
    show (s.claim file).reports = _
    rw [claim, isClaimed, Change.problems]
    split
    · rfl
    · exact (List.append_nil _).symm
  | register name css =>
    show (s.register name css).reports = _
    unfold register
    split <;> simp [Change.problems]
  | keep name template =>
    show (s.keep name template).reports = _
    unfold keep
    split <;> simp [Change.problems]

theorem mem_claimed_apply (s : Session) (c : Change) (file : List String) :
    file ∈ (s.apply c).claimed ↔ file ∈ s.claimed ∨ file ∈ c.files := by
  cases c with
  | report => simp [apply, report, Change.files]
  | claim f =>
    show file ∈ (s.claim f).claimed ↔ _
    unfold claim
    split
    · rename_i hc
      have hf : f.components ∈ s.claimed := by simpa [isClaimed] using hc
      constructor
      · exact .inl
      · rintro (h | h)
        · exact h
        · exact List.mem_singleton.1 h ▸ hf
    · simp [Change.files, or_comm]
  | register n css =>
    show file ∈ (s.register n css).claimed ↔ _
    unfold register
    split <;> simp [Change.files]
  | keep n template =>
    show file ∈ (s.keep n template).claimed ↔ _
    unfold keep
    split <;> simp [Change.files]

/-- Sessions that no part of a build tells apart, except by the order of what was reported. -/
structure Alike (s s' : Session) : Prop where
  compiler : s.compiler = s'.compiler
  templates (name : String) : Fields.get? s.templates name = Fields.get? s'.templates name
  stylesheets : s.stylesheets = s'.stylesheets
  claimed (file : List String) : file ∈ s.claimed ↔ file ∈ s'.claimed
  reports : s.reports.Perm s'.reports

namespace Alike

theorem refl (s : Session) : Alike s s :=
  ⟨rfl, fun _ => rfl, rfl, fun _ => Iff.rfl, .refl _⟩

theorem trans (h : Alike s s') (h' : Alike s' t) : Alike s t :=
  ⟨h.compiler.trans h'.compiler, fun name => (h.templates name).trans (h'.templates name),
    h.stylesheets.trans h'.stylesheets, fun file => (h.claimed file).trans (h'.claimed file),
    h.reports.trans h'.reports⟩

end Alike

theorem problems_congr {claimed claimed' : List (List String)}
    (h : ∀ file ∈ c.files, file ∈ claimed ↔ file ∈ claimed') :
    c.problems claimed = c.problems claimed' := by
  cases c with
  | claim file =>
    have hf := h file.components (by simp [Change.files])
    simp only [Change.problems, List.contains_iff_mem, hf]
  | _ => rfl

theorem Alike.apply (h : Alike s s') (c : Change) : Alike (s.apply c) (s'.apply c) where
  compiler := by rw [compiler_apply, compiler_apply, h.compiler]
  templates name := by rw [templates_apply, templates_apply, h.templates]
  stylesheets := by rw [stylesheets_apply, stylesheets_apply, h.stylesheets]
  claimed file := by rw [mem_claimed_apply, mem_claimed_apply, h.claimed]
  reports := by
    rw [reports_apply, reports_apply, problems_congr fun file _ => h.claimed file]
    exact h.reports.append_right _

theorem Alike.applyAll (h : Alike s s') (changes : List Change) :
    Alike (s.applyAll changes) (s'.applyAll changes) := by
  induction changes generalizing s s' with
  | nil => exact h
  | cons c rest ih => exact ih (h.apply c)

/-! ### Changes in another order -/

variable {known : Templates} {claims claims' : Path → Prop} {name css : String}
  {changes changes' : List Change}

theorem mem_files_of_isWithin {sheets : String → String → Prop}
    (hc : c.IsWithin known claims sheets) {components : List String} (h : components ∈ c.files) :
    ∃ file, claims file ∧ file.components = components := by
  cases c with
  | claim file => exact ⟨file, hc, (List.mem_singleton.1 h).symm⟩
  | _ => cases h

/-- Registering one stylesheet twice is the same in both orders. -/
theorem sheets_comm (hc : c.IsWithin known claims fun n t => n = name ∧ t = css)
    (hc' : c'.IsWithin known claims' fun n t => n = name ∧ t = css) (sheets : Fields String) :
    c'.sheets (c.sheets sheets) = c.sheets (c'.sheets sheets) := by
  cases c with
  | register n t =>
    cases c' with
    | register n' t' =>
      obtain ⟨rfl, rfl⟩ := hc
      obtain ⟨rfl, rfl⟩ := hc'
      rfl
    | _ => rfl
  | _ => rfl

theorem keeps_comm {sheets : String → String → Prop} (hc : c.IsWithin known claims sheets)
    (hc' : c'.IsWithin known claims' sheets) (name : String) :
    (c.keeps name).or (c'.keeps name) = (c'.keeps name).or (c.keeps name) := by
  have kept {c : Change} {claims : Path → Prop} (hc : c.IsWithin known claims sheets) :
      c.keeps name = none ∨ c.keeps name = known name := by
    cases c with
    | keep n template =>
      rw [Change.keeps]
      split
      · rename_i hn
        exact .inr (hn ▸ hc.symm)
      · exact .inl rfl
    | _ => exact .inl rfl
  rcases kept hc with h | h <;> rcases kept hc' with h' | h' <;> rw [h, h'] <;> simp

/-- Two changes that claim different files. -/
theorem apply_comm (hc : c.IsWithin known claims fun n t => n = name ∧ t = css)
    (hc' : c'.IsWithin known claims' fun n t => n = name ∧ t = css)
    (hd : ∀ f f', claims f → claims' f' → f.components ≠ f'.components) (s : Session) :
    Alike ((s.apply c).apply c') ((s.apply c').apply c) where
  compiler := by simp only [compiler_apply]
  templates other := by
    simp only [templates_apply, Option.or_assoc]
    rw [keeps_comm hc hc']
  stylesheets := by
    simp only [stylesheets_apply]
    exact sheets_comm hc hc' s.stylesheets
  claimed file := by
    simp only [mem_claimed_apply]
    tauto
  reports := by
    have apart {file : List String} (h : file ∈ c.files) (h' : file ∈ c'.files) : False := by
      obtain ⟨f, hf, rfl⟩ := mem_files_of_isWithin hc h
      obtain ⟨f', hf', he⟩ := mem_files_of_isWithin hc' h'
      exact hd f f' hf hf' he.symm
    have second : c'.problems (s.apply c).claimed = c'.problems s.claimed :=
      problems_congr fun file h' => by
        rw [mem_claimed_apply]
        exact or_iff_left fun h => apart h h'
    have first : c.problems (s.apply c').claimed = c.problems s.claimed :=
      problems_congr fun file h => by
        rw [mem_claimed_apply]
        exact or_iff_left fun h' => apart h h'
    simp only [reports_apply, first, second, List.append_assoc]
    exact List.perm_append_comm.append_left s.reports

theorem applyAll_apply_comm (hc : c.IsWithin known claims fun n t => n = name ∧ t = css)
    (hc' : ∀ c' ∈ changes', c'.IsWithin known claims' fun n t => n = name ∧ t = css)
    (hd : ∀ f f', claims f → claims' f' → f.components ≠ f'.components) (s : Session) :
    Alike ((s.apply c).applyAll changes') ((s.applyAll changes').apply c) := by
  induction changes' generalizing s with
  | nil => exact .refl _
  | cons c' rest ih =>
    have hswap := apply_comm hc (hc' c' List.mem_cons_self) hd s
    exact (hswap.applyAll rest).trans
      (ih (fun d hm => hc' d (List.mem_cons_of_mem c' hm)) (s.apply c'))

/-- Changes that claim different files. -/
theorem applyAll_comm (hc : ∀ c ∈ changes, c.IsWithin known claims fun n t => n = name ∧ t = css)
    (hc' : ∀ c' ∈ changes', c'.IsWithin known claims' fun n t => n = name ∧ t = css)
    (hd : ∀ f f', claims f → claims' f' → f.components ≠ f'.components) (s : Session) :
    Alike ((s.applyAll changes).applyAll changes') ((s.applyAll changes').applyAll changes) := by
  induction changes generalizing s with
  | nil => exact .refl _
  | cons c rest ih =>
    have hfirst := applyAll_apply_comm (hc c List.mem_cons_self) hc' hd s
    exact (ih (fun d hm => hc d (List.mem_cons_of_mem c hm)) (s.apply c)).trans
      (hfirst.applyAll rest)

/-- Alike sessions have the same template for a name. -/
theorem matches_template (h : Alike s s') {d d' : Disk} {name : String} {path : Path}
    (hr : d.readText path = d'.readText path) :
    Matches (fun r r' => r.1 = r'.1 ∧ Alike r.2 r'.2) (s.template d name path)
      (s'.template d' name path) := by
  have htemplate := h.templates name
  cases hg : Fields.get? s.templates name with
  | some t =>
    rw [template_of_some hg, template_of_some (htemplate.symm.trans hg)]
    exact ⟨rfl, h⟩
  | none =>
    rw [template_of_none hg, template_of_none (htemplate.symm.trans hg), ← hr, ← h.compiler]
    cases d.readText path with
    | error cause => exact rfl
    | ok text => exact ⟨rfl, h.apply (.keep name (s.compiler.compile text))⟩

end Session

/-! ## Worlds -/

/-- Worlds in which all of a build does the same. -/
def alikeWorlds : World.Simulation where
  disks := Disk.SameContent.simulation
  sessions := Session.Alike
  templates _ _ := True
  claims _ := True
  sheets _ _ := True
  report problem h := h.apply (.report problem)
  claim h _ := h.apply (.claim _)
  register h _ := h.apply (.register _ _)
  template hd h _ := Session.matches_template h (Disk.readText_congr (hd.resolve_eq true _))

theorem alikeWorlds_allowsResources (source output : Path) (resources : Resources) :
    alikeWorlds.scope.AllowsResources source output resources :=
  fun _ _ _ _ => ⟨trivial, trivial, fun _ => trivial⟩

theorem alikeWorlds_allowsPage (r : Renderer) (spec : ItemSpec) (source output : Path)
    (target : PageTarget) : alikeWorlds.scope.AllowsPage r spec source output target where
  making _ _ := ⟨fun _ _ _ => trivial, fun _ _ => trivial, trivial, trivial⟩
  directory := trivial
  writing := ⟨trivial, trivial, alikeWorlds_allowsResources _ _ _⟩

theorem alikeWorlds_allowsRest (b : Builder) (plan : BuildPlan) :
    alikeWorlds.scope.AllowsRest b plan where
  theme := alikeWorlds_allowsResources _ _ _
  website := alikeWorlds_allowsResources _ _ _
  sitemap := trivial
  verification _ _ _ := trivial
  aliases _ _ _ _ := ⟨trivial, trivial, trivial⟩
  main := alikeWorlds_allowsPage _ _ _ _ _
  notFound := alikeWorlds_allowsPage _ _ _ _ _
  sheets := trivial
  robots := trivial

theorem alikeWorlds_allowsSheets (b : Builder) : alikeWorlds.logic.AllowsSheets b :=
  fun _ _ h => ⟨h.2.stylesheets, fun _ _ _ _ => trivial⟩

end StaticSite
