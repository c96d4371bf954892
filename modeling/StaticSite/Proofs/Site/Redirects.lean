import Mathlib
import StaticSite.Proofs.Disk.Content
import StaticSite.Proofs.Disk.Lasting
import StaticSite.Proofs.Template.Escaping
import StaticSite.Proofs.Text.Replacing
import StaticSite.Site.Alias

/-!
# Redirects

An alias is refused because its target was not built or because of its path (`Alias.refusal?`), and
then nothing is written. Otherwise its file is written, at whatever place its path leads to through
links, behind directories that are made for it. What was on the disk lasts, so paths keep leading
where they led, and the file at a place is the page of the last alias that leads there
(`Alias.redirects_of_writeAll`). A page has its target escaped in two places, in each of which it
reads back as it was.
-/

namespace StaticSite

open Disk

namespace Alias

/-! ## Pages -/

/-- The page that sends its reader on to an escaped address. -/
def redirectMarkup (link : String) : String :=
  "<html><head><meta http-equiv=\"refresh\" content=\"0; url=" ++ link ++
    "\" /></head><body><p>This page has been moved to <a href=\"" ++ link ++
      "\">here</a>.</p></html>"

theorem redirectTemplate_program : redirectTemplate.program = .ok
    [.text "<html><head><meta http-equiv=\"refresh\" content=\"0; url=",
      .output .escaped (.name "target"),
      .text "\" /></head><body><p>This page has been moved to <a href=\"",
        .output .escaped (.name "target"),
      .text "\">here</a>.</p></html>"] := by
  cbv

theorem redirectPage_eq (target : String) :
    redirectPage target = .ok (redirectMarkup (Text.escapeHtml target)) := by
  have hpieces : redirectTemplate.renderWithin Template.loopLimit [("target", .string target)] = .ok
      [.literal "<html><head><meta http-equiv=\"refresh\" content=\"0; url=", .escaped target,
        .literal "\" /></head><body><p>This page has been moved to <a href=\"", .escaped target,
        .literal "\">here</a>.</p></html>"] := by
    unfold Template.Compiled.renderWithin
    rw [redirectTemplate_program]
    rfl
  rw [redirectPage, Template.Compiled.render, hpieces]
  rfl

/-! ## One alias -/

/-- The file of an alias. -/
def fileOf (output : Path) (route : String) : Path :=
  (output.join (relativePath route)).join "index.html"

/-- Why an alias is not written. -/
def refusal? (built : List String) (route target : String) : Option Inconsistency :=
  if !built.contains target then some (.aliasTargetMissing route target)
  else if relativePath route = "" || !Url.isContained (relativePath route) then
    some (.invalidAliasPath route)
  else none

variable {built : List String} {output : Path} {route target : String} {w w' : World}

theorem refusal?_eq_missing_iff :
    refusal? built route target = some (.aliasTargetMissing route target) ↔ target ∉ built := by
  unfold refusal?
  by_cases hb : target ∈ built
  · simp only [List.contains_iff_mem.2 hb, Bool.not_true, Bool.false_eq_true, if_false]
    split <;> simp [hb]
  · simp [hb]

theorem refusal?_eq_invalid_iff : refusal? built route target = some (.invalidAliasPath route) ↔
    target ∈ built ∧ (relativePath route = "" ∨ Url.isContained (relativePath route) = false) := by
  unfold refusal?
  by_cases hb : target ∈ built
  · by_cases hr : relativePath route = "" <;> simp [hb, hr]
  · simp [hb]

theorem run_writeOne_of_refusal {problem : Inconsistency}
    (h : refusal? built route target = some problem) :
    (writeOne built output route target).run.run w =
      (.ok false, { w with session := w.session.report problem }) := by
  unfold refusal? at h
  unfold writeOne
  split at h
  · rename_i hb
    cases h
    dsimp only
    rw [if_pos hb]
    rfl
  · rename_i hb
    split at h
    · rename_i hp
      cases h
      dsimp only
      rw [if_neg hb, if_pos hp]
      rfl
    · cases h

/-- An alias that is written makes directories and puts its page where its file leads. -/
theorem run_writeOne_eq_ok {written : Bool} (h : refusal? built route target = none)
    (hrun : (writeOne built output route target).run.run w = (.ok written, w')) :
    written = true ∧ w'.session = w.session.claim (fileOf output route) ∧ ∃ made place,
      Raised w.disk made ∧ made.writable (fileOf output route) = .ok place ∧
      w'.disk =
        made.put place (.file (redirectMarkup (Text.escapeHtml target)).toUTF8 made.now) := by
  unfold refusal? at h
  split at h
  · cases h
  · rename_i hb
    split at h
    · cases h
    · rename_i hp
      unfold writeOne at hrun
      dsimp only at hrun
      rw [if_neg hb, if_neg hp, redirectPage_eq] at hrun
      generalize redirectMarkup (Text.escapeHtml target) = page at hrun ⊢
      obtain ⟨_, w₁, hmade, hrun⟩ := Task.run_bind_eq_ok.1 hrun
      obtain ⟨made, hensure, rfl⟩ := SiteTask.run_onDisk_eq_ok.1 hmade
      obtain ⟨_, w₂, hclaim, hrun⟩ := Task.run_bind_eq_ok.1 hrun
      cases hclaim
      obtain ⟨_, w₃, hwrite, hrun⟩ := Task.run_bind_eq_ok.1 hrun
      cases hrun
      obtain ⟨disk, hcall, rfl⟩ := SiteTask.run_onDisk_eq_ok.1 hwrite
      obtain ⟨place, hplace, rfl⟩ := writeBytes_eq_ok_iff.1 (Disk.Task.run_call_eq_ok.1 hcall)
      have hraised := ensureDirectory_raises w.disk (output.join (relativePath route))
      rw [hensure] at hraised
      exact ⟨rfl, rfl, made, place, hraised, hplace, rfl⟩

/-! ## Reports -/

end Alias

/-- Whether a report says that an alias was not written. -/
def Inconsistency.isRefusal : Inconsistency → Bool
  | .aliasTargetMissing .. | .invalidAliasPath _ => true
  | _ => false

namespace Alias

variable {built : List String} {output : Path} {route target : String} {w w' : World}
  {aliases : Fields String} {n : Nat} {place : Location}

theorem isRefusal_of_refusal {problem : Inconsistency}
    (h : refusal? built route target = some problem) :
    problem.isRefusal = true := by
  unfold refusal? at h
  split at h
  · cases h
    rfl
  · split at h <;> cases h
    rfl

theorem reports_claim (session : Session) (file : Path) :
    ∃ added, (session.claim file).reports = session.reports ++ added ∧
      added.filter Inconsistency.isRefusal = [] := by
  unfold Session.claim
  split
  · exact ⟨[.duplicateOutput file], rfl, rfl⟩
  · exact ⟨[], (List.append_nil _).symm, rfl⟩

/-- Each alias is counted or refused. -/
theorem reports_of_writeAll (hrun : (writeAll built output aliases).run.run w = (.ok n, w')) :
    ∃ added, w'.session.reports = w.session.reports ++ added ∧
      added.filter Inconsistency.isRefusal = aliases.filterMap (fun e => refusal? built e.1 e.2) ∧
      n + (added.filter Inconsistency.isRefusal).length = aliases.length := by
  induction aliases generalizing w n with
  | nil =>
    cases hrun
    exact ⟨[], (List.append_nil _).symm, rfl, rfl⟩
  | cons entry rest ih =>
    obtain ⟨route, target⟩ := entry
    obtain ⟨written, mid, hone, hrun⟩ := Task.run_bind_eq_ok.1 hrun
    obtain ⟨count, last, hrest, hreturn⟩ := Task.run_bind_eq_ok.1 hrun
    cases hreturn
    obtain ⟨more, hmore, hrefused, hcount⟩ := ih hrest
    cases h : refusal? built route target with
    | some problem =>
      rw [run_writeOne_of_refusal h] at hone
      cases hone
      refine ⟨problem :: more, by rw [hmore]; simp [Session.report], ?_, ?_⟩
      · rw [List.filter_cons_of_pos (isRefusal_of_refusal h), hrefused]
        simp only [List.filterMap_cons, h]
      · rw [List.filter_cons_of_pos (isRefusal_of_refusal h)]
        simp only [List.length_cons, Bool.toNat_false]
        omega
    | none =>
      obtain ⟨rfl, hclaim, -⟩ := run_writeOne_eq_ok h hone
      obtain ⟨own, hown, hnone⟩ := reports_claim w.session (fileOf output route)
      refine ⟨own ++ more, by rw [hmore, hclaim, hown, List.append_assoc], ?_, ?_⟩
      · rw [List.filter_append, hnone, List.nil_append, hrefused]
        simp only [List.filterMap_cons, h]
      · rw [List.filter_append, hnone, List.nil_append]
        simp only [List.length_cons, Bool.toNat_true]
        omega

/-! ## Files -/

/-- The file of an alias is at a place. -/
def IsAt (disk : Disk) (output : Path) (route : String) (place : Location) : Prop :=
  ∃ bytes modified, disk.resolve true (fileOf output route) =
    .ok (.held place (.file bytes modified))

theorem IsAt.unique {disk : Disk} {other : Location} (h : IsAt disk output route place)
    (h' : IsAt disk output route other) : other = place := by
  obtain ⟨_, _, hr⟩ := h
  obtain ⟨_, _, hr'⟩ := h'
  cases hr.symm.trans hr'
  rfl

theorem IsAt.resolve {disk : Disk} {entry : Entry} (h : IsAt disk output route place)
    (hv : disk.at? place = some entry) :
    disk.resolve true (fileOf output route) = .ok (.held place entry) := by
  obtain ⟨bytes, modified, hr⟩ := h
  have hthere := isThere_of_resolve hr
  cases hthere.symm.trans hv
  exact hr

/-- What writing aliases leaves: their files are there, files of no alias are as they were, and the
file of an alias that no later one shares is its page. -/
structure Leaves (built : List String) (output : Path) (aliases : Fields String)
    (disk disk' : Disk) : Prop where
  lasts : Lasts disk disk'
  isAt {route target : String} : (route, target) ∈ aliases → refusal? built route target = none →
    ∃ place, IsAt disk' output route place
  keeps {place : Location} {bytes : ByteArray} {modified : Nat} :
    disk.at? place = some (.file bytes modified) →
    (∀ route target, (route, target) ∈ aliases → refusal? built route target = none →
      ¬ IsAt disk' output route place) →
    disk'.at? place = some (.file bytes modified)
  last {before after : Fields String} {route target : String} {place : Location} :
    aliases = before ++ (route, target) :: after → refusal? built route target = none →
    IsAt disk' output route place →
    (∀ other goal, (other, goal) ∈ after → refusal? built other goal = none →
      ¬ IsAt disk' output other place) →
    ∃ modified, disk'.at? place =
      some (.file (redirectMarkup (Text.escapeHtml target)).toUTF8 modified)

theorem Leaves.nil (disk : Disk) : Leaves built output [] disk disk :=
  ⟨.refl disk, nofun, fun h _ => h, fun h => by simp at h⟩

theorem Leaves.cons_of_refusal {rest : Fields String} {disk disk' : Disk} {problem : Inconsistency}
    (h : Leaves built output rest disk disk') (href : refusal? built route target = some problem) :
    Leaves built output ((route, target) :: rest) disk disk' where
  lasts := h.lasts
  isAt hm hnone := by
    rcases List.mem_cons.1 hm with he | hm
    · cases he
      rw [href] at hnone
      cases hnone
    · exact h.isAt hm hnone
  keeps hv hother := h.keeps hv fun r t hm => hother r t (List.mem_cons_of_mem _ hm)
  last {before after r t place} he hnone := by
    cases before with
    | nil =>
      cases he
      rw [href] at hnone
      cases hnone
    | cons entry before =>
      cases he
      exact h.last rfl hnone

/-- The page is put at `place`, where the file of its alias is from then on. -/
theorem Leaves.cons {rest : Fields String} {disk made disk' : Disk} {now : Nat}
    (hnone : refusal? built route target = none) (hmade : Raised disk made)
    (hw : made.writable (fileOf output route) = .ok place)
    (h : Leaves built output rest
      (made.put place (.file (redirectMarkup (Text.escapeHtml target)).toUTF8 now)) disk') :
    Leaves built output ((route, target) :: rest) disk disk' := by
  have hne := ne_root_of_writable hw
  have hput := at?_put made hne (.file (redirectMarkup (Text.escapeHtml target)).toUTF8 now)
  have hlasts :
      Lasts made (made.put place (.file (redirectMarkup (Text.escapeHtml target)).toUTF8 now)) :=
    .put hne ((at?_of_writable hw).imp_right shape_eq_file_iff.2)
  have hat : IsAt disk' output route place := by
    obtain ⟨bytes, modified, hv⟩ :=
      shape_eq_file_iff.1 (h.lasts.shape (shape_eq_file_iff.2 ⟨_, _, hput⟩))
    exact ⟨bytes, modified, resolve_of_lasts hw (hlasts.trans h.lasts) hv⟩
  refine ⟨hmade.lasts.trans (hlasts.trans h.lasts), ?_, ?_, ?_⟩
  · intro r t hm hrefused
    rcases List.mem_cons.1 hm with he | hm
    · cases he
      exact ⟨place, hat⟩
    · exact h.isAt hm hrefused
  · intro l bytes modified hv hother
    have hl : l ≠ place := fun he => hother route target List.mem_cons_self hnone (he ▸ hat)
    refine h.keeps ?_ fun r t hm => hother r t (List.mem_cons_of_mem _ hm)
    rw [at?_put_of_ne made hl]
    rcases hmade.made l with hm | ⟨hfree, -⟩
    · rw [hm, hv]
    · rw [hfree] at hv
      cases hv
  · intro before after r t l he hrefused hl hlater
    cases before with
    | nil =>
      cases he
      obtain rfl := hat.unique hl
      exact ⟨now, h.keeps hput hlater⟩
    | cons entry before =>
      cases he
      exact h.last rfl hrefused hl hlater

theorem leaves_of_writeAll (hrun : (writeAll built output aliases).run.run w = (.ok n, w')) :
    Leaves built output aliases w.disk w'.disk := by
  induction aliases generalizing w n with
  | nil =>
    cases hrun
    exact .nil _
  | cons entry rest ih =>
    obtain ⟨route, target⟩ := entry
    obtain ⟨written, mid, hone, hrun⟩ := Task.run_bind_eq_ok.1 hrun
    obtain ⟨count, last, hrest, hreturn⟩ := Task.run_bind_eq_ok.1 hrun
    cases hreturn
    cases h : refusal? built route target with
    | some problem =>
      rw [run_writeOne_of_refusal h] at hone
      cases hone
      exact (ih hrest).cons_of_refusal h
    | none =>
      obtain ⟨-, -, made, place, hmade, hw, hdisk⟩ := run_writeOne_eq_ok h hone
      exact .cons h hmade hw (hdisk ▸ ih hrest)

/-- Of the items with a property one is the last. -/
theorem exists_last_split {α : Type} {P : α → Prop} {items : List α} (h : ∃ x ∈ items, P x) :
    ∃ before x after, items = before ++ x :: after ∧ P x ∧ ∀ y ∈ after, ¬ P y := by
  induction items with
  | nil => simp at h
  | cons a rest ih =>
    by_cases hrest : ∃ x ∈ rest, P x
    · obtain ⟨before, x, after, rfl, hx, hlast⟩ := ih hrest
      exact ⟨a :: before, x, after, rfl, hx, hlast⟩
    · push Not at hrest
      obtain ⟨x, hx, hP⟩ := h
      rcases List.mem_cons.1 hx with rfl | hx
      · exact ⟨[], x, rest, rfl, hP, hrest⟩
      · exact absurd hP (hrest x hx)

theorem quote_notMem_escapeHtml (s : String) : '"' ∉ (Text.escapeHtml s).toList := by
  intro hm
  have hplain := Template.escapeHtml_plain s '"' hm
  revert hplain
  decide

/-- Each alias is written or refused, for its target first and then for its path, and a refused one
leaves the disk as it is. In the end the file of an alias that was written has the page of the last
such alias whose file is at the same place. The page of a target has it escaped in both places, so
the address in its link ends at the quote behind it and is the target again when it is read. -/
theorem redirects_of_writeAll (hrun : (writeAll built output aliases).run.run w = (.ok n, w')) :
    (∃ added, w'.session.reports = w.session.reports ++ added ∧
      added.filter Inconsistency.isRefusal = aliases.filterMap (fun e => refusal? built e.1 e.2) ∧
      n + (added.filter Inconsistency.isRefusal).length = aliases.length) ∧
    (∀ route target,
      (refusal? built route target = some (.aliasTargetMissing route target) ↔ target ∉ built) ∧
      (refusal? built route target = some (.invalidAliasPath route) ↔
        target ∈ built ∧ (relativePath route = "" ∨ Url.isContained (relativePath route) = false)) ∧
      ∀ problem, refusal? built route target = some problem →
        problem = .aliasTargetMissing route target ∨ problem = .invalidAliasPath route) ∧
    (∀ route target problem v, refusal? built route target = some problem →
      (writeOne built output route target).run.run v =
        (.ok false, { v with session := v.session.report problem })) ∧
    (∀ route target, (route, target) ∈ aliases → refusal? built route target = none →
      ∃ before last goal after place modified, aliases = before ++ (last, goal) :: after ∧
        refusal? built last goal = none ∧
        (∀ file ∈ [fileOf output route, fileOf output last], w'.disk.resolve true file =
          .ok (.held place (.file (redirectMarkup (Text.escapeHtml goal)).toUTF8 modified))) ∧
        ∀ other aim, (other, aim) ∈ after → refusal? built other aim = none →
          ¬ IsAt w'.disk output other place) ∧
    ∀ target, redirectPage target = .ok (redirectMarkup (Text.escapeHtml target)) ∧
      '"' ∉ (Text.escapeHtml target).toList ∧
      Text.decodeEntities (Text.escapeHtml target).toList = target.toList := by
  have hleaves := leaves_of_writeAll hrun
  refine ⟨reports_of_writeAll hrun, fun route target =>
    ⟨refusal?_eq_missing_iff, refusal?_eq_invalid_iff, ?_⟩,
    fun _ _ _ _ => run_writeOne_of_refusal, fun route target hm hnone => ?_,
    fun target => ⟨redirectPage_eq target, quote_notMem_escapeHtml target,
      Text.decodeEntities_escapeHtml target⟩⟩
  · intro problem h
    unfold refusal? at h
    split at h
    · cases h
      exact .inl rfl
    · split at h <;> cases h
      exact .inr rfl
  · obtain ⟨place, hat⟩ := hleaves.isAt hm hnone
    obtain ⟨before, ⟨last, goal⟩, after, hsplit, ⟨hlast, hplace⟩, hlater⟩ := exists_last_split
      (P := fun e : String × String => refusal? built e.1 e.2 = none ∧
        IsAt w'.disk output e.1 place)
      ⟨(route, target), hm, hnone, hat⟩
    obtain ⟨modified, hv⟩ := hleaves.last hsplit hlast hplace fun other aim hm hnone hat =>
      hlater (other, aim) hm ⟨hnone, hat⟩
    refine ⟨before, last, goal, after, place, modified, hsplit, hlast, ?_,
      fun other aim hm hnone hat =>
      hlater (other, aim) hm ⟨hnone, hat⟩⟩
    simp [hat.resolve hv, hplace.resolve hv]

/-- Aliases of which two share a file and two are refused. -/
def sharedAliases : Fields String :=
  [("/a/", "u/x"), ("../up", "u/x"), ("b/../a", "u/y"), ("gone", "u/z")]

theorem redirects_of_writeAll_shared : ∃ w',
    (writeAll ["u/x", "u/y"] ⟨"/out"⟩ sharedAliases).run.run { disk := {} } = (.ok 2, w') ∧
      w'.session.reports.filter Inconsistency.isRefusal =
        [.invalidAliasPath "../up", .aliasTargetMissing "gone" "u/z"] ∧
      ∃ place modified, ∀ file ∈ [⟨"/out/a/index.html"⟩, ⟨"/out/b/../a/index.html"⟩],
        w'.disk.resolve true file =
          .ok (.held place (.file (redirectMarkup (Text.escapeHtml "u/y")).toUTF8 modified)) := by
  have hcomputed :
      let run := (writeAll ["u/x", "u/y"] ⟨"/out"⟩ sharedAliases).run.run { disk := {} }
      run.1.toOption = some 2 ∧
        (run.2.disk.resolve true (fileOf ⟨"/out"⟩ "b/../a")).toOption.map Place.location =
          (run.2.disk.resolve true (fileOf ⟨"/out"⟩ "/a/")).toOption.map Place.location := by
    decide +kernel
  rcases hrun : (writeAll ["u/x", "u/y"] ⟨"/out"⟩ sharedAliases).run.run { disk := {} } with
    ⟨outcome, w'⟩
  rw [hrun] at hcomputed
  obtain ⟨hcount, hshared⟩ := hcomputed
  obtain rfl := Except.toOption_eq_some_iff.1 hcount
  obtain ⟨⟨added, hadded, hrefused, -⟩, -, -, hfiles, -⟩ := redirects_of_writeAll hrun
  obtain ⟨before, last, goal, after, place, modified, hsplit, hlast, hplace, hlater⟩ :=
    hfiles "/a/" "u/x" List.mem_cons_self (by decide)
  -- the file of the later alias is at the same place, so the earlier one is not the last
  have hat : IsAt w'.disk ⟨"/out"⟩ "b/../a" place := by
    obtain ⟨_, _, _, _, other, _, -, -, hother, -⟩ := hfiles "b/../a" "u/y" (by decide) (by decide)
    have hthere := hother _ List.mem_cons_self
    rw [hthere, hplace _ List.mem_cons_self] at hshared
    obtain rfl : other = place := Option.some.inj hshared
    exact ⟨_, _, hthere⟩
  have hends : (last, goal) = ("b/../a", "u/y") := by
    rcases before with _ | ⟨_, _ | ⟨_, _ | ⟨_, _ | ⟨_, before⟩⟩⟩⟩
    · cases hsplit
      exact absurd hat (hlater "b/../a" "u/y" (by decide) (by decide))
    · cases hsplit
      exact absurd hlast (by decide)
    · cases hsplit
      rfl
    · cases hsplit
      exact absurd hlast (by decide)
    · simp [sharedAliases] at hsplit
  cases hends
  refine ⟨w', rfl, ?_, place, modified, hplace⟩
  rw [hadded]
  exact hrefused.trans (by decide)

end Alias

end StaticSite
