import StaticSite.Proofs.Except
import StaticSite.Proofs.Disk.Simulation
import StaticSite.Proofs.Site.Logic

/-!
# Changes of sessions

A `World.Simulation` relates disks and sessions. It is preserved by the calls on the disk and by the
changes of the session in its scope, so respecting it is a logic of worlds
(`World.Simulation.logic`): each part of a build that keeps to the scope has one outcome in related
worlds and leaves related worlds.

Whatever a part of a build does to its session is a list of changes. When the templates of a theme
are what they are on the disk (`Session.Knows`), two runs of one part that read the same make the
same list of changes (`World.Simulation.ofChanges`), whatever the sessions were before.
-/

namespace StaticSite

/-! ## Simulations between builds -/

/-- A relation between worlds that the parts of a build preserve. -/
structure World.Simulation where
  disks : Disk.Simulation
  sessions : Session → Session → Prop
  /-- The templates, by name and file, that may be asked for. -/
  templates : String → Path → Prop
  /-- The files that may be claimed. -/
  claims : Path → Prop
  /-- The stylesheets, by name and text, that may be registered. -/
  sheets : String → String → Prop
  report {s s' : Session} (problem : Inconsistency) :
    sessions s s' → sessions (s.report problem) (s'.report problem)
  claim {s s' : Session} {file : Path} :
    sessions s s' → claims file → sessions (s.claim file) (s'.claim file)
  register {s s' : Session} {name css : String} :
    sessions s s' → sheets name css → sessions (s.register name css) (s'.register name css)
  template {d d' : Disk} {s s' : Session} {name : String} {path : Path} :
    disks.rel d d' → sessions s s' → templates name path →
      Matches (fun r r' => r.1 = r'.1 ∧ sessions r.2 r'.2) (s.template d name path)
        (s'.template d' name path)

namespace World.Simulation

variable (S : World.Simulation) {ε δ α : Type}

/-- What the calls on a world may name. -/
def scope : World.Scope where
  disks := S.disks.toScope
  templates := S.templates
  claims := S.claims
  sheets := S.sheets

/-- Related disks and related sessions. -/
def rel (w w' : World) : Prop :=
  S.disks.rel w.disk w'.disk ∧ S.sessions w.session w'.session

/-- A task that has one outcome in related worlds and leaves related worlds. -/
def Respects (x : SiteTask ε α) : Prop :=
  Task.Respects S.rel x

variable {S}

theorem onDisk_respects {task : Disk.Task δ α} (h : S.disks.Respects task) (failure : δ → ε) :
    S.Respects (SiteTask.onDisk failure task) := by
  intro w w' hw
  obtain ⟨ho, hd⟩ := h w.disk w'.disk hw.1
  rw [SiteTask.run_onDisk, SiteTask.run_onDisk]
  exact ⟨congrArg (Except.mapError failure) ho, hd, hw.2⟩

theorem runTemplate_respects {name node : String} {path : Path} {context : Template.Context}
    (h : S.templates name path) : S.Respects (Renderer.runTemplate name node path context) := by
  intro w w' hw
  have ht := S.template hw.1 hw.2 h
  rw [Renderer.run_runTemplate, Renderer.run_runTemplate]
  generalize w.session.template w.disk name path = outcome at ht ⊢
  generalize w'.session.template w'.disk name path = outcome' at ht ⊢
  rcases outcome with cause | ⟨template, s⟩ <;> rcases outcome' with cause' | ⟨template', s'⟩
  · obtain rfl : cause = cause' := ht
    exact ⟨rfl, hw⟩
  · exact ht.elim
  · exact ht.elim
  · obtain ⟨rfl, hs⟩ := ht
    exact ⟨rfl, hw.1, hs⟩

/-- Tasks that respect a simulation. -/
def logic (S : World.Simulation) : World.Logic S.scope where
  toLogic := .respecting S.rel
  disks := S.disks.logic
  disk_of_same h := h.1
  onDisk failure h := onDisk_respects h failure
  report problem _ _ hw := ⟨rfl, hw.1, S.report problem hw.2⟩
  claim h _ _ hw := ⟨rfl, hw.1, S.claim hw.2 h⟩
  register h _ _ hw := ⟨rfl, hw.1, S.register hw.2 h⟩
  runTemplate := runTemplate_respects

end World.Simulation

/-! ## Changes -/

/-- A change of a session. -/
inductive Change where
  | report (problem : Inconsistency)
  | claim (file : Path)
  | register (name css : String)
  | keep (name : String) (template : Template.Compiled)

/-- Templates as a session compiles them, by name. -/
abbrev Templates := String → Option Template.Compiled

/-- The template that a session makes of a source. -/
def pageTemplate (source : String) : Template.Compiled :=
  Template.Compiler.compile ⟨some pageNames⟩ source

/-- A change that keeps a known template, claims a file of some and registers a stylesheet of
some. -/
def Change.IsWithin (known : Templates) (claims : Path → Prop) (sheets : String → String → Prop) :
    Change → Prop
  | report _ => True
  | claim file => claims file
  | register name css => sheets name css
  | keep name template => known name = some template

namespace Session

variable {s s' : Session} {known : Templates}

/-- Keeps a template unless there is one of its name. -/
def keep (session : Session) (name : String) (template : Template.Compiled) : Session :=
  if (Fields.get? session.templates name).isSome then session
  else { session with
    templates := session.templates.insert name template
    compilations := session.compilations + 1 }

/-- Makes a change to a session. -/
def apply (session : Session) : Change → Session
  | .report problem => session.report problem
  | .claim file => session.claim file
  | .register name css => session.register name css
  | .keep name template => session.keep name template

/-- Makes changes to a session one after the other. -/
def applyAll (session : Session) (changes : List Change) : Session :=
  changes.foldl apply session

theorem applyAll_concat (session : Session) (changes : List Change) (change : Change) :
    session.applyAll (changes ++ [change]) = (session.applyAll changes).apply change := by
  simp [applyAll]

/-- The templates that a session keeps are known ones. -/
structure Knows (known : Templates) (session : Session) : Prop where
  compiler : session.compiler = ⟨some pageNames⟩
  templates (name : String) (template : Template.Compiled) :
    Fields.get? session.templates name = some template → known name = some template

theorem Knows.initial (known : Templates) : Knows known {} :=
  ⟨rfl, fun _ _ h => by cases h⟩

theorem get?_keep (s : Session) (name other : String) (template : Template.Compiled) :
    Fields.get? (s.keep name template).templates other =
      if other = name then some ((Fields.get? s.templates name).getD template)
      else Fields.get? s.templates other := by
  unfold keep
  cases hg : Fields.get? s.templates name with
  | some t =>
    rw [Option.isSome_some, if_pos rfl]
    split
    · rename_i ho
      rw [ho, hg]
      rfl
    · rfl
  | none =>
    rw [Option.isSome_none, if_neg (by simp)]
    split
    · rename_i ho
      rw [ho]
      exact Fields.get?_insert_self name template s.templates
    · rename_i ho
      exact Fields.get?_insert_of_ne ho template s.templates

theorem Knows.apply (h : Knows known s) {claims : Path → Prop} {sheets : String → String → Prop}
    {change : Change} (hc : change.IsWithin known claims sheets) :
    Knows known (s.apply change) := by
  cases change with
  | report problem => exact ⟨h.compiler, h.templates⟩
  | claim file =>
    show Knows known (s.claim file)
    unfold claim
    split
    · exact ⟨h.compiler, h.templates⟩
    · exact ⟨h.compiler, h.templates⟩
  | register name css =>
    show Knows known (s.register name css)
    unfold register
    split
    · exact h
    · exact ⟨h.compiler, h.templates⟩
  | keep name template =>
    refine ⟨?_, fun other t ht => ?_⟩
    · show (s.keep name template).compiler = _
      unfold keep
      split
      · exact h.compiler
      · exact h.compiler
    · rw [Session.apply, get?_keep] at ht
      split at ht
      · rename_i ho
        subst ho
        cases hg : Fields.get? s.templates other with
        | none =>
          rw [hg] at ht
          exact Option.some.inj ht ▸ hc
        | some t' =>
          rw [hg] at ht
          exact Option.some.inj ht ▸ h.templates other t' hg
      · exact h.templates other t ht

theorem Knows.applyAll {claims : Path → Prop} {sheets : String → String → Prop} :
    ∀ {changes : List Change} {s : Session}, Knows known s →
      (∀ c ∈ changes, c.IsWithin known claims sheets) → Knows known (s.applyAll changes)
  | [], _, h, _ => h
  | c :: _, _, h, hc =>
    (h.apply (hc c List.mem_cons_self)).applyAll fun d hd => hc d (List.mem_cons_of_mem c hd)

/-- The stylesheets of a session were there before or were registered. -/
theorem mem_stylesheets_applyAll {changes : List Change} {s : Session} {name css : String}
    (h : (name, css) ∈ (s.applyAll changes).stylesheets) :
    (name, css) ∈ s.stylesheets ∨ .register name css ∈ changes := by
  induction changes generalizing s with
  | nil => exact .inl h
  | cons c rest ih =>
    rcases ih (s := s.apply c) h with h | h
    · cases c with
      | report => exact .inl h
      | claim file =>
        refine .inl ?_
        change (name, css) ∈ (s.claim file).stylesheets at h
        unfold claim at h
        split at h
        · exact h
        · exact h
      | register n text =>
        change (name, css) ∈ (s.register n text).stylesheets at h
        unfold register at h
        split at h
        · exact .inl h
        · rcases Fields.mem_insert h with h | h
          · cases h
            exact .inr List.mem_cons_self
          · exact .inl h
      | keep n template =>
        refine .inl ?_
        change (name, css) ∈ (s.keep n template).stylesheets at h
        unfold keep at h
        split at h
        · exact h
        · exact h
    · exact .inr (List.mem_cons_of_mem c h)

theorem template_of_some {template : Template.Compiled} {disk : Disk} {name : String} {path : Path}
    (h : Fields.get? s.templates name = some template) :
    s.template disk name path = .ok (template, s) := by
  unfold Session.template
  rw [h]

theorem template_of_none {disk : Disk} {name : String} {path : Path}
    (h : Fields.get? s.templates name = none) :
    s.template disk name path = (disk.readText path).map fun text =>
      (s.compiler.compile text, s.keep name (s.compiler.compile text)) := by
  unfold Session.template keep
  rw [h]
  cases disk.readText path with
  | error cause => rfl
  | ok text => rfl

/-- A session that keeps known templates compiles the text of a template or finds the outcome. -/
theorem Knows.template_eq (h : Knows known s) {disk : Disk} {name : String} {path : Path}
    (ht : known name = (disk.readText path).toOption.map pageTemplate) :
    s.template disk name path =
      (disk.readText path).map fun text =>
  (pageTemplate text, s.keep name (pageTemplate text)) := by
  cases hg : Fields.get? s.templates name with
  | some t =>
    have hk := ht.symm.trans (h.templates name t hg)
    obtain ⟨text, hr, rfl⟩ := Option.map_eq_some_iff.1 hk
    rw [template_of_some hg, Except.toOption_eq_some_iff.1 hr]
    show _ = Except.ok (pageTemplate text, s.keep name (pageTemplate text))
    rw [keep, hg]
    rfl
  | none =>
    rw [template_of_none hg, h.compiler]
    rfl

end Session

/-! ## Two runs -/

/-- Sessions that came from two sessions by the same changes. -/
def SameChanges (known : Templates) (claims : Path → Prop) (sheets : String → String → Prop)
    (left right s s' : Session) : Prop :=
  ∃ changes : List Change, (∀ c ∈ changes, c.IsWithin known claims sheets) ∧
    s = left.applyAll changes ∧ s' = right.applyAll changes

variable {known : Templates} {claims : Path → Prop} {sheets : String → String → Prop}
  {left right s s' : Session}

theorem SameChanges.refl : SameChanges known claims sheets left right left right :=
  ⟨[], by simp, rfl, rfl⟩

theorem SameChanges.symm (h : SameChanges known claims sheets left right s s') :
    SameChanges known claims sheets right left s' s := by
  obtain ⟨changes, hall, hs, hs'⟩ := h
  exact ⟨changes, hall, hs', hs⟩

theorem SameChanges.apply (h : SameChanges known claims sheets left right s s') (change : Change)
    (hc : change.IsWithin known claims sheets) :
    SameChanges known claims sheets left right (s.apply change) (s'.apply change) := by
  obtain ⟨changes, hall, rfl, rfl⟩ := h
  refine ⟨changes ++ [change], fun c hm => ?_, ?_, ?_⟩
  · rcases List.mem_append.1 hm with hm | hm
    · exact hall c hm
    · exact List.mem_singleton.1 hm ▸ hc
  · rw [Session.applyAll_concat]
  · rw [Session.applyAll_concat]

theorem SameChanges.template (h : SameChanges known claims sheets left right s s')
    (hl : left.Knows known) (hr : right.Knows known) {disk disk' : Disk} {name : String}
    {path : Path} (hk : known name = (disk.readText path).toOption.map pageTemplate)
    (he : disk.readText path = disk'.readText path) :
    Matches (fun r r' => r.1 = r'.1 ∧ SameChanges known claims sheets left right r.2 r'.2)
      (s.template disk name path) (s'.template disk' name path) := by
  have hs : s.Knows known ∧ s'.Knows known := by
    obtain ⟨changes, hall, rfl, rfl⟩ := h
    exact ⟨hl.applyAll hall, hr.applyAll hall⟩
  rw [hs.1.template_eq hk, hs.2.template_eq (he ▸ hk), ← he]
  cases ht : disk.readText path with
  | error cause => exact rfl
  | ok text =>
    rw [ht] at hk
    exact ⟨rfl, h.apply (.keep name (pageTemplate text)) hk⟩

/-- Runs that read the same on related disks make the same changes of two sessions. -/
def World.Simulation.ofChanges (disks : Disk.Simulation) (known : Templates) (claims : Path → Prop)
    (sheets : String → String → Prop) {left right : Session} (hl : left.Knows known)
    (hr : right.Knows known) : World.Simulation where
  disks
  sessions := SameChanges known claims sheets left right
  templates name path := disks.files path ∧ ∀ d d', disks.rel d d' →
    known name = (d.readText path).toOption.map pageTemplate
  claims
  sheets
  report problem h := h.apply (.report problem) trivial
  claim h hc := h.apply (.claim _) hc
  register h hs := h.apply (.register _ _) hs
  template hd h ht := h.template hl hr (ht.2 _ _ hd) (disks.readText hd ht.1)

end StaticSite
