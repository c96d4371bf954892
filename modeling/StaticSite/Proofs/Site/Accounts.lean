import Mathlib.Data.Finset.Card
import Mathlib.Data.List.Induction
import StaticSite.Proofs.Except
import StaticSite.Site.Callers

/-!
# The accounts of a session

What a session holds after calls that it answered one after the other, while files changed, and what
it answered: the first call for a template that succeeds decides what all later ones get, the first
text of a stylesheet stays, and the first claim of a file is the only one that is new
(`Serves.accounts`). Calls that failed leave nothing behind (`Serves.filter`).
-/

namespace StaticSite.Session

variable {compiler : Template.Compiler} {events before after : List Event} {event : Event}
  {session : Session} {name : String}

/-! ## What calls were about -/

namespace Event

/-- The template that a call got, with its name. -/
def template? : Event → Option (String × Template.Compiled)
  | ⟨_, .template name _, .template (.ok template)⟩ => some (name, template)
  | _ => none

/-- The stylesheet that a call brought, with its name. -/
def stylesheet? : Event → Option (String × String)
  | ⟨_, .register name css, _⟩ => some (name, css)
  | _ => none

/-- The components of the file that a call claimed. -/
def file? : Event → Option (List String)
  | ⟨_, .claim path, _⟩ => some path.components
  | _ => none

/-- What a call reported. -/
def problem? : Event → Option Inconsistency
  | ⟨_, .report problem, _⟩ => some problem
  | ⟨_, .claim path, .fresh false⟩ => some (.duplicateOutput path)
  | _ => none

/-- Whether a file could not be read. -/
def hasFailed : Event → Bool
  | ⟨_, .template _ _, .template (.error _)⟩ => true
  | _ => false

end Event

/-- The answer to a call behind others: a template is the one that was got before, and is compiled
from its file if none was; a stylesheet is new if none of its name was registered before, and a file
if none with its components was claimed before. -/
def IsAnswer (compiler : Template.Compiler) (before : List Event) : Event → Prop
  | ⟨disk, .template name path, answer⟩ =>
    match (before.filterMap Event.template?).lookup name with
    | some template => answer = .template (.ok template)
    | none => answer = .template ((disk.readText path).map compiler.compile)
  | ⟨_, .register name _, answer⟩ =>
    answer = .fresh (!((before.filterMap Event.stylesheet?).lookup name).isSome)
  | ⟨_, .claim path, answer⟩ =>
    answer = .fresh (!(before.filterMap Event.file?).contains path.components)
  | ⟨_, .report _, answer⟩ => answer = .done

/-- The number of different names. -/
def countNames {α : Type} (items : List (String × α)) : Nat :=
  (items.map Prod.fst).toFinset.card

/-- What a session answered and holds behind calls. -/
structure Accounts (compiler : Template.Compiler) (events : List Event) (compilations : Nat)
    (stylesheets : Fields String) (reports : List Inconsistency) : Prop where
  answers : ∀ before event after, events = before ++ event :: after → IsAnswer compiler before event
  /-- As many templates were compiled as there are names for which a call succeeded. -/
  compilations : compilations = countNames (events.filterMap Event.template?)
  /-- All calls that succeeded for a name got one template, and the first of them compiled it from
  the file that it read. -/
  templates : ∀ name template, (name, template) ∈ events.filterMap Event.template? →
    (∀ other, (name, other) ∈ events.filterMap Event.template? → other = template) ∧
    ∃ before disk path after text,
      events = before ++ ⟨disk, .template name path, .template (.ok template)⟩ :: after ∧
      (∀ other, (name, other) ∉ before.filterMap Event.template?) ∧
      disk.readText path = .ok text ∧ template = compiler.compile text
  /-- A stylesheet has the text with which it was registered first. -/
  stylesheets : ∀ name, Fields.get? stylesheets name =
    (events.filterMap Event.stylesheet?).lookup name
  reports : reports = events.filterMap Event.problem?

/-! ## What one call does -/

/-- The cases of a call: its answer, and the session behind it. -/
inductive Served (session : Session) (disk : Disk) : Call → Answer → Session → Prop
  | kept {name : String} {template : Template.Compiled} (path : Path)
    (old : Fields.get? session.templates name = some template) :
    Served session disk (.template name path) (.template (.ok template)) session
  | read {name text : String} {path : Path} (new : Fields.get? session.templates name = none)
    (source : disk.readText path = .ok text) :
    Served session disk (.template name path) (.template (.ok (session.compiler.compile text)))
      { session with
        templates := session.templates.insert name (session.compiler.compile text)
        compilations := session.compilations + 1 }
  | unread {name : String} {path : Path} {cause : IoError}
    (new : Fields.get? session.templates name = none) (source : disk.readText path = .error cause) :
    Served session disk (.template name path) (.template (.error cause)) session
  | registered {name : String} (css : String) (new : Fields.get? session.stylesheets name = none) :
    Served session disk (.register name css) (.fresh true)
      { session with stylesheets := session.stylesheets.insert name css }
  | known {name first : String} (css : String)
    (old : Fields.get? session.stylesheets name = some first) :
    Served session disk (.register name css) (.fresh false) session
  | claimed {path : Path} (new : path.components ∉ session.claimed) :
    Served session disk (.claim path) (.fresh true)
      { session with claimed := path.components :: session.claimed }
  | repeated {path : Path} (old : path.components ∈ session.claimed) :
    Served session disk (.claim path) (.fresh false) (session.report (.duplicateOutput path))
  | reported (problem : Inconsistency) :
    Served session disk (.report problem) .done (session.report problem)

theorem Served.serve_eq {disk : Disk} {call : Call} {answer : Answer} {session' : Session}
    (h : Served session disk call answer session') :
    session.serve disk call = (answer, session') := by
  cases h with
  | kept path old => simp only [serve, Session.template, old]
  | read new source =>
    simp only [serve, Session.template, new, source]
    rfl
  | unread new source =>
    simp only [serve, Session.template, new, source]
    rfl
  | registered css new => simp [serve, register, hasStylesheet, Fields.has, new]
  | known css old => simp [serve, register, hasStylesheet, Fields.has, old]
  | claimed new => simp [serve, claim, isClaimed, new]
  | repeated old => simp [serve, claim, isClaimed, old]
  | reported problem => rfl

theorem exists_served (session : Session) (disk : Disk) (call : Call) :
    ∃ answer session', Served session disk call answer session' := by
  cases call with
  | template name path =>
    cases hk : Fields.get? session.templates name with
    | some template => exact ⟨_, _, .kept path hk⟩
    | none =>
      cases hr : disk.readText path with
      | ok text => exact ⟨_, _, .read hk hr⟩
      | error cause => exact ⟨_, _, .unread hk hr⟩
  | register name css =>
    cases hk : Fields.get? session.stylesheets name with
    | some old => exact ⟨_, _, .known css hk⟩
    | none => exact ⟨_, _, .registered css hk⟩
  | claim path =>
    by_cases h : path.components ∈ session.claimed
    · exact ⟨_, _, .repeated h⟩
    · exact ⟨_, _, .claimed h⟩
  | report problem => exact ⟨_, _, .reported problem⟩

theorem served (session : Session) (disk : Disk) (call : Call) :
    Served session disk call (session.serve disk call).1 (session.serve disk call).2 := by
  obtain ⟨answer, session', h⟩ := exists_served session disk call
  rwa [h.serve_eq]

/-! ### Its effect on each part of the session -/

theorem get?_insert {α : Type} {fields : Fields α} (h : Fields.get? fields name = none) (a : α)
    (other : String) : Fields.get? (fields.insert name a) other =
      (Fields.get? fields other).or ([(name, a)].lookup other) := by
  by_cases he : other = name
  · rw [he, Fields.get?_insert_self, h]
    simp
  · rw [Fields.get?_insert_of_ne he]
    simp [List.lookup_cons, beq_eq_false_iff_ne.2 he]

theorem or_lookup {α : Type} {fields : Fields α} {a : α} (h : Fields.get? fields name = some a)
    (b : α) (other : String) :
    Fields.get? fields other = (Fields.get? fields other).or ([(name, b)].lookup other) := by
  by_cases he : other = name
  · rw [he, h]
    rfl
  · simp [List.lookup_cons, beq_eq_false_iff_ne.2 he]

theorem countNames_concat {α : Type} (items : List (String × α)) (name : String) (a : α) :
    countNames (items ++ [(name, a)]) =
      if (items.lookup name).isSome then countNames items else countNames items + 1 := by
  have hmem : name ∈ (items.map Prod.fst).toFinset ↔ (items.lookup name).isSome := by
    rw [List.mem_toFinset, Option.isSome_iff_ne_none, ne_eq, List.lookup_eq_none_iff, List.mem_map]
    constructor
    · rintro ⟨item, hitem, rfl⟩ hnone
      exact bne_iff_ne.1 (hnone item hitem) rfl
    · refine fun h => by_contra fun hn => h fun item hitem => bne_iff_ne.2 fun he => hn ?_
      exact ⟨item, hitem, he.symm⟩
  have hset : ((items ++ [(name, a)]).map Prod.fst).toFinset =
      insert name (items.map Prod.fst).toFinset := by
    ext other
    simp
  unfold countNames
  rw [hset]
  split
  · rename_i h
    rw [Finset.insert_eq_of_mem (hmem.2 h)]
  · rename_i h
    rw [Finset.card_insert_of_notMem (mt hmem.1 h)]

namespace Served

variable {disk : Disk} {call : Call} {answer : Answer} {session' : Session}

theorem compiler_eq (h : Served session disk call answer session') :
    session'.compiler = session.compiler := by
  cases h <;> rfl

theorem templates_eq (h : Served session disk call answer session') (other : String) :
    Fields.get? session'.templates other = (Fields.get? session.templates other).or
      ((Event.template? ⟨disk, call, answer⟩).toList.lookup other) := by
  cases h with
  | kept path old => exact or_lookup old _ other
  | read new source => exact get?_insert new _ other
  | _ => exact (Option.or_none).symm

theorem stylesheets_eq (h : Served session disk call answer session') (other : String) :
    Fields.get? session'.stylesheets other = (Fields.get? session.stylesheets other).or
      ((Event.stylesheet? ⟨disk, call, answer⟩).toList.lookup other) := by
  cases h with
  | registered css new => exact get?_insert new css other
  | known css old => exact or_lookup old css other
  | _ => exact (Option.or_none).symm

theorem mem_claimed_iff (h : Served session disk call answer session') (file : List String) :
    file ∈ session'.claimed ↔
      file ∈ session.claimed ∨ file ∈ (Event.file? ⟨disk, call, answer⟩).toList := by
  cases h with
  | claimed new => simp [Event.file?, or_comm]
  | repeated old =>
    show file ∈ session.claimed ↔ file ∈ session.claimed ∨ file ∈ [_]
    rw [List.mem_singleton]
    exact (or_iff_left_of_imp fun he => he ▸ old).symm
  | _ => exact (or_iff_left List.not_mem_nil).symm

theorem reports_eq (h : Served session disk call answer session') :
    session'.reports = session.reports ++ (Event.problem? ⟨disk, call, answer⟩).toList := by
  cases h with
  | repeated old => rfl
  | reported problem => rfl
  | _ => exact (List.append_nil _).symm

theorem compilations_eq (h : Served session disk call answer session')
    {items : List (String × Template.Compiled)}
    (hi : ∀ name, Fields.get? session.templates name = items.lookup name)
    (hc : session.compilations = countNames items) :
    session'.compilations =
      countNames (items ++ (Event.template? ⟨disk, call, answer⟩).toList) := by
  cases h with
  | kept path old =>
    rw [hi] at old
    show _ = countNames (items ++ [_])
    rw [countNames_concat, old, hc]
    rfl
  | read new source =>
    rw [hi] at new
    show session.compilations + 1 = countNames (items ++ [_])
    rw [countNames_concat, new, hc]
    rfl
  | _ =>
    show _ = countNames (items ++ [])
    rw [List.append_nil]
    exact hc

end Served

/-! ## What follows from the answers -/

theorem forall_split_concat {p : List Event → Event → Prop} :
    (∀ before e after, events ++ [event] = before ++ e :: after → p before e) ↔
      (∀ before e after, events = before ++ e :: after → p before e) ∧ p events event := by
  constructor
  · refine fun h =>
      ⟨fun before e after he => h before e (after ++ [event]) ?_, h events event [] rfl⟩
    rw [he, List.append_assoc, List.cons_append]
  · rintro ⟨h, hlast⟩ before e after he
    rcases List.eq_nil_or_concat after with rfl | ⟨init, last, rfl⟩
    · obtain ⟨rfl, hl⟩ := List.append_inj' he rfl
      rwa [← List.singleton_inj.1 hl]
    · rw [List.concat_eq_append, ← List.cons_append, ← List.append_assoc] at he
      exact h before e init (List.append_inj' he rfl).1

/-- Every call was answered as it is behind those before it. -/
def AllAnswered (compiler : Template.Compiler) (events : List Event) : Prop :=
  ∀ before event after, events = before ++ event :: after → IsAnswer compiler before event

theorem Event.exists_of_template? {template : Template.Compiled}
    (h : event.template? = some (name, template)) :
    ∃ disk path, event = ⟨disk, .template name path, .template (.ok template)⟩ := by
  unfold template? at h
  split at h
  · cases h
    exact ⟨_, _, rfl⟩
  · cases h

theorem filterMap_concat {α β : Type} (f : α → Option β) (items : List α) (a : α) :
    (items ++ [a]).filterMap f = items.filterMap f ++ (f a).toList := by
  rw [List.filterMap_append, List.filterMap_cons]
  cases f a <;> rfl

theorem eq_of_lookup_toList {α : Type} {item : Option (String × α)} {a : α}
    (h : item.toList.lookup name = some a) : item = some (name, a) := by
  cases item with
  | none => cases h
  | some item =>
    obtain ⟨n, b⟩ := item
    rw [Option.toList_some, List.lookup_cons] at h
    split at h
    · rename_i he
      obtain rfl : name = n := by simpa using he
      cases h
      rfl
    · cases h

/-- All that succeeded for a name got what the first one got. -/
theorem AllAnswered.lookup_of_mem (h : AllAnswered compiler events) {template : Template.Compiled}
    (hm : (name, template) ∈ events.filterMap Event.template?) :
    (events.filterMap Event.template?).lookup name = some template := by
  induction events using List.reverseRecOn with
  | nil => cases hm
  | append_singleton events event ih =>
    obtain ⟨hall, hlast⟩ := forall_split_concat.1 h
    rw [filterMap_concat] at hm ⊢
    rw [List.lookup_append]
    rcases List.mem_append.1 hm with hm | hm
    · rw [ih hall hm]
      rfl
    · have hevent := Option.mem_toList.1 hm
      obtain ⟨disk, path, rfl⟩ := Event.exists_of_template? hevent
      rw [hevent]
      unfold IsAnswer at hlast
      dsimp only at hlast
      cases hl : (events.filterMap Event.template?).lookup name with
      | some found =>
        rw [hl] at hlast
        cases hlast
        rfl
      | none => simp

/-- The first call that succeeded for a name compiled its template. -/
theorem AllAnswered.exists_first (h : AllAnswered compiler events) {template : Template.Compiled}
    (hl : (events.filterMap Event.template?).lookup name = some template) :
    ∃ before disk path after text,
      events = before ++ ⟨disk, .template name path, .template (.ok template)⟩ :: after ∧
      (before.filterMap Event.template?).lookup name = none ∧
      disk.readText path = .ok text ∧ template = compiler.compile text := by
  induction events using List.reverseRecOn with
  | nil => cases hl
  | append_singleton events event ih =>
    obtain ⟨hall, hlast⟩ := forall_split_concat.1 h
    rw [filterMap_concat, List.lookup_append] at hl
    cases hbefore : (events.filterMap Event.template?).lookup name with
    | some found =>
      rw [hbefore] at hl
      cases hl
      obtain ⟨before, disk, path, after, text, rfl, hfirst⟩ := ih hall hbefore
      exact ⟨before, disk, path, after ++ [event], text, by simp, hfirst⟩
    | none =>
      rw [hbefore] at hl
      obtain ⟨disk, path, rfl⟩ := Event.exists_of_template? (eq_of_lookup_toList hl)
      unfold IsAnswer at hlast
      dsimp only at hlast
      rw [hbefore] at hlast
      obtain ⟨text, hread, hcompile⟩ :=
        Except.map_eq_ok_iff.1 (Answer.template.inj hlast).symm
      exact ⟨events, disk, path, [], text, rfl, hbefore, hread, hcompile.symm⟩

/-! ## What a session holds -/

/-- What a session holds of the calls that it answered. -/
structure Holds (compiler : Template.Compiler) (events : List Event) (session : Session) :
    Prop where
  compiler : session.compiler = compiler
  templates : ∀ name, Fields.get? session.templates name =
    (events.filterMap Event.template?).lookup name
  compilations : session.compilations = countNames (events.filterMap Event.template?)
  stylesheets : ∀ name,
    Fields.get? session.stylesheets name = (events.filterMap Event.stylesheet?).lookup name
  claimed : ∀ file, file ∈ session.claimed ↔ file ∈ events.filterMap Event.file?
  reports : session.reports = events.filterMap Event.problem?

namespace Holds

variable {disk : Disk} {call : Call} {answer : Answer} {session' : Session}

theorem start (compiler : Template.Compiler) : Holds compiler [] { compiler } :=
  ⟨rfl, fun _ => rfl, rfl, fun _ => rfl, fun _ => Iff.rfl, rfl⟩

theorem next (h : Holds compiler events session) (hs : Served session disk call answer session') :
    Holds compiler (events ++ [⟨disk, call, answer⟩]) session' where
  compiler := hs.compiler_eq.trans h.compiler
  templates name := by
    rw [filterMap_concat, List.lookup_append, ← h.templates]
    exact hs.templates_eq name
  compilations := by
    rw [filterMap_concat]
    exact hs.compilations_eq h.templates h.compilations
  stylesheets name := by
    rw [filterMap_concat, List.lookup_append, ← h.stylesheets]
    exact hs.stylesheets_eq name
  claimed file := by
    rw [filterMap_concat, List.mem_append, ← h.claimed]
    exact hs.mem_claimed_iff file
  reports := by
    rw [filterMap_concat, ← h.reports]
    exact hs.reports_eq

theorem isAnswer (h : Holds compiler events session)
    (hs : Served session disk call answer session') :
    IsAnswer compiler events ⟨disk, call, answer⟩ := by
  cases hs with
  | kept path old =>
    rw [h.templates] at old
    simp only [IsAnswer, old]
  | read new source =>
    rw [h.templates] at new
    simp only [IsAnswer, new, source, h.compiler]
    rfl
  | unread new source =>
    rw [h.templates] at new
    simp only [IsAnswer, new, source]
    rfl
  | registered css new =>
    rw [h.stylesheets] at new
    simp only [IsAnswer, new]
    rfl
  | known css old =>
    rw [h.stylesheets] at old
    simp only [IsAnswer, old]
    rfl
  | claimed new =>
    rw [h.claimed] at new
    simp [IsAnswer, new]
  | repeated old =>
    rw [h.claimed] at old
    simp [IsAnswer, old]
  | reported problem => rfl

end Holds

/-! ## Sequences of calls -/

namespace Serves

theorem next_of_served {disk : Disk} {call : Call} {answer : Answer} {session' : Session}
    (h : Serves compiler events session) (hs : Served session disk call answer session') :
    Serves compiler (events ++ [⟨disk, call, answer⟩]) session' := by
  have := h.next disk call
  rwa [hs.serve_eq] at this

theorem holds (h : Serves compiler events session) :
    Holds compiler events session ∧ AllAnswered compiler events := by
  induction h with
  | start => exact ⟨.start compiler, fun before _ _ he => by simp at he⟩
  | @next events session before disk call ih =>
    obtain ⟨hholds, hall⟩ := ih
    have hs := served session disk call
    exact ⟨hholds.next hs, forall_split_concat.2 ⟨hall, hholds.isAnswer hs⟩⟩

/-- Calls that failed leave no trace: the others alone lead to the same session, with the same
answers. -/
theorem filter (h : Serves compiler events session) :
    Serves compiler (events.filter (!·.hasFailed)) session := by
  induction h with
  | start => exact .start
  | @next events session before disk call ih =>
    have hs := served session disk call
    generalize (session.serve disk call).1 = answer at hs ⊢
    generalize (session.serve disk call).2 = session' at hs ⊢
    rw [List.filter_append]
    cases hf : Event.hasFailed ⟨disk, call, answer⟩ with
    | false =>
      rw [List.filter_cons_of_pos (by simp [hf])]
      exact ih.next_of_served hs
    | true =>
      rw [List.filter_cons_of_neg (by simp [hf]), List.filter_nil, List.append_nil]
      cases hs with
      | unread new source => exact ih
      | _ => cases hf

/-- What a session answered and holds. -/
theorem accounts (h : Serves compiler events session) :
    Accounts compiler events session.compilations session.stylesheets session.reports where
  answers := h.holds.2
  compilations := h.holds.1.compilations
  templates name template hm := by
    have hl := h.holds.2.lookup_of_mem hm
    refine ⟨fun other ho => ?_, ?_⟩
    · exact Option.some.inj ((h.holds.2.lookup_of_mem ho).symm.trans hl)
    · obtain ⟨before, disk, path, after, text, he, hnone, hread, hcompile⟩ :=
        h.holds.2.exists_first hl
      refine ⟨before, disk, path, after, text, he, fun other ho => ?_, hread, hcompile⟩
      simpa using List.lookup_eq_none_iff.1 hnone _ ho
  stylesheets := h.holds.1.stylesheets
  reports := h.holds.1.reports

end Serves

end StaticSite.Session
