import StaticSite.Proofs.Site.Logic
import StaticSite.Proofs.Site.Reading

/-!
# Pages that are not made

Making the text of a page changes nothing on the disk (`disk_makePage`), and writing it fails for
other causes than making it (`publish_fails`). So the disk is as it was unless a page was made, and
what `render` answers says which of the two was the case (`render_outcome`).
-/

namespace StaticSite

/-! ## Tasks that only read -/

/-- All files may be read and nothing may be written. -/
def Disk.Scope.reading : Disk.Scope where
  files _ := True
  origins _ := False
  targets _ := False
  line _ := False
  links := False
  files_of_origin _ := trivial
  line_of_target h _ := h
  line_of_parent h _ _ := h

/-- Tasks that leave what they read from as it was. -/
def Task.Logic.keeping {σ τ : Type} (kept : σ → τ) : Task.Logic σ where
  same := Eq
  holds x := ∀ s, kept (x.run.run s).2 = kept s
  pure _ _ := rfl
  throw _ _ := rfl
  bind {_ _ _ x f} hx hf s := by
    have h := hx s
    rw [Task.run_bind]
    generalize x.run.run s = run at h ⊢
    obtain ⟨cause | a, t⟩ := run
    · exact h
    · exact (hf a t).trans h
  adapt _ hx s := hx s
  get hf s := (hf s s rfl).2 s

namespace Disk.Logic

/-- Tasks that leave the disk as it was. -/
def reading : Logic .reading where
  toLogic := .keeping id
  isFile h _ := by rw [h]
  readText h _ := by rw [h]
  isDirectory h _ := by rw [h]
  listed h _ := by rw [h]
  listing _ h := h.elim
  ensureDirectory {p} h := by
    unfold Disk.ensureDirectory
    cases hp : p.withAncestors with
    | nil => exact Task.Logic.pure _ _
    | cons q above => exact (h q (hp ▸ List.mem_cons_self)).elim
  writeText _ _ h := h.elim
  copyBytes _ h := h.elim
  copyLink _ h := h.elim

end Disk.Logic

/-- Tasks may change the session as they like. -/
def World.Scope.reading : World.Scope where
  disks := .reading
  templates _ _ := True
  claims _ := True
  sheets _ _ := True

/-- Tasks that leave the disk of a world as it was. -/
def World.Logic.reading : World.Logic .reading where
  toLogic := .keeping World.disk
  disks := .reading
  disk_of_same h := congrArg World.disk h
  onDisk failure h w := by
    rw [SiteTask.run_onDisk]
    exact h w.disk
  report _ _ := rfl
  claim _ _ := rfl
  register _ _ := rfl
  runTemplate {name node path context} _ w := by
    rw [Renderer.run_runTemplate]
    split <;> rfl

/-! ## Causes of failure -/

/-- Whether a page fails because its text cannot be made. -/
def RenderError.isOfMaking : RenderError → Bool
  | .templateSource _ _ _ | .template _ _ _ | .markup _ => true
  | .io _ | .asset _ => false

namespace Renderer

variable {r : Renderer} {spec : ItemSpec} {template node url : String} {templatePath source : Path}

theorem disk_makePage (w : World) :
    ((r.makePage spec template templatePath node source url).run.run w).2.disk = w.disk :=
  World.Logic.reading.makePage
    { markdowns := fun _ _ _ => trivial
      style := fun _ _ => trivial
      template := trivial
      sheet := trivial } w

/-- A page whose text was made fails for what happens on the disk. -/
theorem publish_fails (spec : ItemSpec) (source output : Path) (stem page : String) :
    Task.FailsAs (fun cause => cause.isOfMaking = false)
      (publish spec source output stem page) := by
  refine Task.FailsAs.bind (.onDisk _ _ fun _ => rfl) fun _ => ?_
  refine Task.FailsAs.bind (.onSession _) fun _ => ?_
  refine Task.FailsAs.bind (.onDisk _ _ fun _ => rfl) fun _ => ?_
  exact Task.FailsAs.bind (.adapt _ _ fun _ => rfl) fun _ => .pure _

/-- A page that cannot be made is not written. -/
theorem disk_renderWith {output : Path} {stem : String} {cause : RenderError} {w : World}
    (h : ((r.renderWith spec template templatePath node source output url stem).run.run w).1 =
      .error cause) (hc : cause.isOfMaking = true) :
    ((r.renderWith spec template templatePath node source output url stem).run.run w).2.disk =
      w.disk := by
  unfold renderWith at h ⊢
  have hmake := @disk_makePage r spec template node url templatePath source w
  rw [Task.run_bind] at h ⊢
  generalize (r.makePage spec template templatePath node source url).run.run w = run at h hmake ⊢
  obtain ⟨failure | page, m⟩ := run
  · exact hmake
  · rw [publish_fails spec source output stem page m cause h] at hc
    cases hc

end Renderer

/-! ## Addresses -/

/-- An address is that of the site without the slashes at its end, a slash, and the relative URL. -/
theorem Url.exists_trimmed (base url : String) : ∃ trimmed n,
    base.toList = trimmed ++ List.replicate n '/' ∧ trimmed.getLast? ≠ some '/' ∧
      (absolute base url).toList = trimmed ++ '/' :: url.toList := by
  let slashes := base.toList.reverse.takeWhile isSlash
  have hslashes : slashes = List.replicate slashes.length '/' :=
    List.eq_replicate_of_mem fun c hc => by
      simpa [isSlash] using List.all_eq_true.1 List.all_takeWhile c hc
  refine ⟨trimSlashes base.toList, slashes.length, ?_, ?_, ?_⟩
  · calc base.toList = (slashes ++ base.toList.reverse.dropWhile isSlash).reverse := by
          rw [List.takeWhile_append_dropWhile, List.reverse_reverse]
      _ = trimSlashes base.toList ++ slashes.reverse := List.reverse_append
      _ = trimSlashes base.toList ++ List.replicate slashes.length '/' := by
          conv_lhs => rw [hslashes, List.reverse_replicate]
  · intro h
    rw [trimSlashes, List.getLast?_reverse] at h
    have hfirst := List.head?_dropWhile_not isSlash base.toList.reverse
    rw [h] at hfirst
    cases hfirst
  · simp [absolute]

/-! ## Pages -/

namespace Renderer

/-- The name of a page in messages. -/
def nodeName (url : String) (target : PageTarget) : String :=
  if url = "" then target.stem else url

variable {r : Renderer} {spec : ItemSpec} {source url : String} {output : Path}
  {target : PageTarget}

theorem render_of_unknown (h : r.theme.templatePath? (spec.template.getD target.fallback) = none)
    (w : World) : (r.render (some spec) source output url target).run.run w = (.ok none, { w with
      session := w.session.report
        (.unknownTemplate (nodeName url target) (spec.template.getD target.fallback)) }) := by
  unfold render
  dsimp only
  rw [h]
  rfl

theorem render_of_known {path : Path}
    (h : r.theme.templatePath? (spec.template.getD target.fallback) = some path) :
    r.render (some spec) source output url target = (do
      r.renderWith spec (spec.template.getD target.fallback) path (nodeName url target)
        (r.websiteDirectory.join source) output url target.stem
      return some (Url.absolute r.baseUrl url)) := by
  unfold render
  dsimp only
  rw [h]
  rfl

/-- With a template that the theme has, there is a page or a failure, which is one of
`renderWith`. -/
theorem run_render_of_known {path : Path}
    (h : r.theme.templatePath? (spec.template.getD target.fallback) = some path) (w : World) :
    (r.render (some spec) source output url target).run.run w =
      let made := (r.renderWith spec (spec.template.getD target.fallback) path (nodeName url target)
        (r.websiteDirectory.join source) output url target.stem).run.run w
      (made.1.map fun _ => some (Url.absolute r.baseUrl url), made.2) := by
  rw [render_of_known h, Task.run_bind]
  dsimp only
  generalize StateT.run _ w = made
  obtain ⟨cause | ⟨⟩, v⟩ := made <;> rfl

/-- There is no page exactly if there is no specification or its template is not in the theme, which
is reported. Then, and when the text of the page cannot be made, the disk is as it was. The address
of a page is that of the site without the slashes at its end, a slash, and the relative URL. -/
theorem render_outcome (r : Renderer) (spec : Option ItemSpec) (source : String) (output : Path)
    (url : String) (target : PageTarget) (w : World) :
    let run := (r.render spec source output url target).run.run w
    (run.1 = .ok none ↔ spec = none ∨ ∃ s, spec = some s ∧
      r.theme.templatePath? (s.template.getD target.fallback) = none) ∧
    (spec = none → run.2 = w) ∧
    (∀ s, spec = some s → r.theme.templatePath? (s.template.getD target.fallback) = none →
      run.2 = { w with session := { w.session with reports := w.session.reports ++
        [.unknownTemplate (nodeName url target) (s.template.getD target.fallback)] } }) ∧
    (run.1 = .ok none → run.2.disk = w.disk) ∧
    (∀ cause, run.1 = .error cause → cause.isOfMaking = true → run.2.disk = w.disk) ∧
    (∀ address, run.1 = .ok (some address) → ∃ trimmed n,
      r.baseUrl.toList = trimmed ++ List.replicate n '/' ∧ trimmed.getLast? ≠ some '/' ∧
        address.toList = trimmed ++ '/' :: url.toList) := by
  cases spec with
  | none =>
    refine ⟨⟨fun _ => .inl rfl, fun _ => rfl⟩, fun _ => rfl, nofun, fun _ => rfl, nofun, nofun⟩
  | some s =>
    cases hpath : r.theme.templatePath? (s.template.getD target.fallback) with
    | none =>
      rw [render_of_unknown hpath]
      refine ⟨⟨fun _ => .inr ⟨s, rfl, hpath⟩, fun _ => rfl⟩, nofun, ?_, fun _ => rfl, nofun, nofun⟩
      rintro _ ⟨⟩ -
      rfl
    | some path =>
      have hnone : ¬ ((some s : Option ItemSpec) = none ∨ ∃ t, some s = some t ∧
          r.theme.templatePath? (t.template.getD target.fallback) = none) := by
        rintro (h | ⟨_, ⟨⟩, h⟩)
        · cases h
        · cases hpath.symm.trans h
      have hkeep (cause : RenderError) := @disk_renderWith r s (s.template.getD target.fallback)
        (nodeName url target) url path (r.websiteDirectory.join source) output target.stem cause w
      rw [run_render_of_known hpath]
      dsimp only
      generalize (r.renderWith s _ path _ _ output url target.stem).run.run w = made at hkeep ⊢
      obtain ⟨failure | ⟨⟩, v⟩ := made
      · refine ⟨⟨nofun, fun h => (hnone h).elim⟩, nofun, ?_, nofun, ?_, nofun⟩
        · rintro _ ⟨⟩ h
          exact (hnone (.inr ⟨s, rfl, h⟩)).elim
        · rintro cause ⟨⟩
          exact hkeep _ rfl
      · refine ⟨⟨nofun, fun h => (hnone h).elim⟩, nofun, ?_, nofun, nofun, ?_⟩
        · rintro _ ⟨⟩ h
          exact (hnone (.inr ⟨s, rfl, h⟩)).elim
        · rintro address ⟨⟩
          exact Url.exists_trimmed r.baseUrl url

end Renderer

end StaticSite
