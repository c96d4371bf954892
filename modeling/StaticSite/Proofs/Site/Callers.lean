import StaticSite.Proofs.Fields
import StaticSite.Proofs.Site.Accounts

/-!
# Callers that go on at the same time

Every call has one step in which it takes effect: a template that is there when it is looked at, one
that is read and kept, or a read that fails; a registration; a first claim; the report of a repeated
one. So the calls of every interleaving, in the order of their answers, are a sequence that one
session answers alike, and what the callers share is what this session holds (`Interleaves.agrees`).
-/

namespace StaticSite

open Session

/-! ## Slots -/

namespace Shared

variable {shared : Shared} {name other : String} {slot : Nat} {content old : Slot}

/-- The template in the slot of a name. -/
def template? (shared : Shared) (name : String) : Option Template.Compiled :=
  (Fields.get? shared.names name).bind fun slot => (shared.slots[slot]?).bind Slot.template

/-- Each name has a slot of its own. -/
structure OwnSlots (shared : Shared) : Prop where
  lt : ∀ {name slot}, Fields.get? shared.names name = some slot → slot < shared.slots.length
  inj : ∀ {name other slot}, Fields.get? shared.names name = some slot →
    Fields.get? shared.names other = some slot → name = other

theorem template?_setSlot (h : shared.OwnSlots) (hn : Fields.get? shared.names name = some slot)
    (content : Slot) (other : String) : (shared.setSlot slot content).template? other =
      if other = name then content.template else shared.template? other := by
  unfold template?
  show (Fields.get? shared.names other).bind (fun j =>
    ((shared.slots.set slot content)[j]?).bind _) = _
  split
  · rename_i he
    rw [he, hn, Option.bind_some, List.getElem?_set_self (h.lt hn)]
    rfl
  · rename_i hne
    cases ho : Fields.get? shared.names other with
    | none => rfl
    | some j =>
      have hj : slot ≠ j := fun he => hne (h.inj (he ▸ ho) hn)
      rw [Option.bind_some, Option.bind_some, List.getElem?_set_ne hj]

theorem OwnSlots.setSlot (h : shared.OwnSlots) (slot : Nat) (content : Slot) :
    (shared.setSlot slot content).OwnSlots where
  lt hn := by
    show _ < (shared.slots.set slot content).length
    rw [List.length_set]
    exact h.lt hn
  inj := h.inj

theorem get?_takeSlot (shared : Shared) (name : String) :
    Fields.get? (shared.takeSlot name).2.names name = some (shared.takeSlot name).1 := by
  unfold takeSlot
  cases hn : Fields.get? shared.names name with
  | some slot => exact hn
  | none => exact Fields.get?_insert_self _ _ _

/-- What is shared when a slot was made, or nothing was. -/
structure Grows (shared shared' : Shared) : Prop where
  rest : ∃ names slots, shared' = { shared with names, slots }
  names : ∀ other slot, Fields.get? shared.names other = some slot →
    Fields.get? shared'.names other = some slot
  slots : ∀ (slot : Nat) (content : Slot), shared.slots[slot]? = some content →
    shared'.slots[slot]? = some content
  templates : ∀ other, shared'.template? other = shared.template? other

theorem OwnSlots.takeSlot (h : shared.OwnSlots) (name : String) :
    (shared.takeSlot name).2.OwnSlots := by
  unfold Shared.takeSlot
  cases hn : Fields.get? shared.names name with
  | some slot => exact h
  | none =>
    constructor
    · intro other slot ho
      rw [Fields.get?_insert] at ho
      dsimp only
      rw [List.length_append, List.length_singleton]
      split at ho
      · cases ho
        exact Nat.lt_succ_self _
      · exact Nat.lt_succ_of_lt (h.lt ho)
    · intro other third slot ho ht
      rw [Fields.get?_insert] at ho ht
      split at ho <;> split at ht
      · rename_i he he'
        rw [he, he']
      · cases ho
        exact absurd (h.lt ht) (Nat.lt_irrefl _)
      · cases ht
        exact absurd (h.lt ho) (Nat.lt_irrefl _)
      · exact h.inj ho ht

theorem OwnSlots.grows (h : shared.OwnSlots) (name : String) :
    shared.Grows (shared.takeSlot name).2 := by
  unfold Shared.takeSlot
  cases hn : Fields.get? shared.names name with
  | some slot => exact ⟨⟨_, _, rfl⟩, fun _ _ ho => ho, fun _ _ hc => hc, fun _ => rfl⟩
  | none =>
    constructor
    · exact ⟨_, _, rfl⟩
    · intro other slot ho
      rw [Fields.get?_insert, if_neg]
      · exact ho
      · rintro rfl
        cases hn.symm.trans ho
    · intro slot content hc
      obtain ⟨hlt, -⟩ := List.getElem?_eq_some_iff.1 hc
      exact (List.getElem?_append_left hlt).trans hc
    · intro other
      unfold template?
      dsimp only
      rw [Fields.get?_insert]
      split
      · rename_i he
        rw [he, hn]
        simp
      · cases ho : Fields.get? shared.names other with
        | none => rfl
        | some slot =>
          rw [Option.bind_some, Option.bind_some, List.getElem?_append_left (h.lt ho)]

end Shared

namespace Callers

variable {compiler : Template.Compiler} {c c' : Callers} {session : Session} {events : List Event}
  {i slot : Nat} {name : String} {path : Path} {stage : Stage} {shared : Shared}

/-- What a caller in a stage can rely on. -/
def Relies (shared : Shared) (i : Nat) : Stage → Prop
  | .idle => True
  | .waiting name _ slot => Fields.get? shared.names name = some slot
  | .reading name _ slot =>
    Fields.get? shared.names name = some slot ∧ shared.slots[slot]? = some ⟨none, some i⟩
  | .repeating path => path.components ∈ shared.claimed

/-- What is shared is what a session holds. -/
structure Shows (shared : Shared) (session : Session) : Prop where
  compiler : session.compiler = shared.compiler
  templates : ∀ name, Fields.get? session.templates name = shared.template? name
  compilations : session.compilations = shared.compilations
  stylesheets : session.stylesheets = shared.stylesheets
  claimed : session.claimed = shared.claimed
  reports : session.reports = shared.reports

/-- Other slots with the same templates in them. -/
theorem Shows.relink (h : Shows shared session) {names : Fields Nat} {slots : List Slot}
    (ht : ∀ name, Shared.template? { shared with names, slots } name = shared.template? name) :
    Shows { shared with names, slots } session :=
  { h with templates := fun name => (h.templates name).trans (ht name).symm }

/-- Callers that share what a session holds. -/
structure Agrees (c : Callers) (session : Session) : Prop where
  own : c.shared.OwnSlots
  relies : ∀ i, Relies c.shared i (c.stage i)
  holds : Shows c.shared session

/-- Stages after one caller went on. -/
theorem relies_go (hi : Relies shared i stage) (hj : ∀ j, j ≠ i → Relies shared j (c.stage j))
    (j : Nat) :
    Relies (c.go i stage shared).shared j ((c.go i stage shared).stage j) := by
  show Relies shared j (if j = i then stage else c.stage j)
  split
  · rename_i he
    rwa [he]
  · rename_i hne
    exact hj j hne

theorem Relies.grows {shared' : Shared} (h : Relies shared i stage) (hg : shared.Grows shared') :
    Relies shared' i stage := by
  obtain ⟨names, slots, rfl⟩ := hg.rest
  cases stage with
  | idle => trivial
  | waiting name path slot => exact hg.names name slot h
  | reading name path slot => exact ⟨hg.names name slot h.1, hg.slots slot _ h.2⟩
  | repeating path => exact h

/-- What a caller relies on when a slot is changed that it does not hold. -/
theorem Relies.setSlot {old : Slot} (h : Relies shared i stage)
    (ho : shared.slots[slot]? = some old)
    (hne : old.holder ≠ some i) (content : Slot) :
    Relies (shared.setSlot slot content) i stage := by
  cases stage with
  | idle => trivial
  | waiting name path s => exact h
  | reading name path s =>
    refine ⟨h.1, ?_⟩
    have hs : slot ≠ s := by
      rintro rfl
      cases ho.symm.trans h.2
      exact hne rfl
    exact (List.getElem?_set_ne hs).trans h.2
  | repeating path => exact h

theorem Relies.claim (h : Relies shared i stage) (file : List String) :
    Relies { shared with claimed := file :: shared.claimed } i stage := by
  cases stage with
  | repeating path => exact List.mem_cons_of_mem file h
  | _ => exact h

theorem Agrees.waiting (h : c.Agrees session) (here : c.stage i = .waiting name path slot) :
    Fields.get? c.shared.names name = some slot := by
  have := h.relies i
  rwa [here] at this

theorem Agrees.reading (h : c.Agrees session) (here : c.stage i = .reading name path slot) :
    Fields.get? c.shared.names name = some slot ∧ c.shared.slots[slot]? = some ⟨none, some i⟩ := by
  have := h.relies i
  rwa [here] at this

/-- The session has the template that is in the slot of a name. -/
theorem Agrees.template_eq (h : c.Agrees session) (hn : Fields.get? c.shared.names name = some slot)
    {content : Slot} (hc : c.shared.slots[slot]? = some content) :
    Fields.get? session.templates name = content.template := by
  rw [h.holds.templates, Shared.template?, hn, Option.bind_some, hc]
  rfl

/-- A slot that changes hands keeps its template. -/
theorem template?_hand (h : shared.OwnSlots) (hn : Fields.get? shared.names name = some slot)
    {content old : Slot} (ho : shared.slots[slot]? = some old)
    (ht : content.template = old.template)
    (other : String) : (shared.setSlot slot content).template? other = shared.template? other := by
  rw [Shared.template?_setSlot h hn]
  split
  · rename_i he
    rw [he, Shared.template?, hn, Option.bind_some, ho, ht]
    rfl
  · rfl

/-- A template that a caller puts in its slot is one that the session keeps. -/
theorem Shows.fill (h : Shows shared session) (ho : shared.OwnSlots)
    (hn : Fields.get? shared.names name = some slot) (template : Template.Compiled) :
    Shows { shared.setSlot slot ⟨some template, none⟩ with compilations := shared.compilations + 1 }
      { session with
        templates := session.templates.insert name template
        compilations := session.compilations + 1 } := by
  refine { h with templates := fun other => ?_, compilations := congrArg (· + 1) h.compilations }
  show _ = (shared.setSlot slot ⟨some template, none⟩).template? other
  rw [Shared.template?_setSlot ho hn]
  split
  · rename_i he
    rw [he]
    exact Fields.get?_insert_self _ _ _
  · rename_i hne
    exact (Fields.get?_insert_of_ne hne _ _).trans (h.templates other)

/-- A step that answers no call changes nothing that a session holds. -/
theorem Agrees.silent (h : c.Agrees session) (hs : Step c none c') : c'.Agrees session := by
  cases hs with
  | files disk => exact ⟨h.own, h.relies, h.holds⟩
  | takeSlot i name path here =>
    have hgrows := h.own.grows name
    refine ⟨h.own.takeSlot name, relies_go (Shared.get?_takeSlot _ _) fun j _ =>
      (h.relies j).grows hgrows, ?_⟩
    obtain ⟨names, slots, he⟩ := hgrows.rest
    have ht := hgrows.templates
    show Shows (c.shared.takeSlot name).2 session
    rw [he] at ht ⊢
    exact h.holds.relink ht
  | @hold i slot name path here content =>
    have hn := h.waiting here
    refine ⟨h.own.setSlot _ _, relies_go ⟨hn, List.getElem?_set_self (h.own.lt hn)⟩ fun j _ =>
      (h.relies j).setSlot content (by simp) _, ?_⟩
    exact h.holds.relink (template?_hand h.own hn content rfl)
  | claimAgain i path here old =>
    exact ⟨h.own, relies_go old fun j _ => h.relies j, h.holds⟩

/-- A step that answers a call is the call on a session. -/
theorem Agrees.answer {event : Event} (h : c.Agrees session) (hs : Step c (some event) c') :
    ∃ session', Served session event.disk event.call event.answer session' ∧
      c'.Agrees session' := by
  cases hs with
  | @find i slot name path template here content =>
    exact ⟨session, .kept path (h.template_eq (h.waiting here) content), h.own,
      relies_go trivial fun j _ => h.relies j, h.holds⟩
  | @fill i slot name text path here read =>
    obtain ⟨hn, hslot⟩ := h.reading here
    rw [← h.holds.compiler]
    have hown := h.own.setSlot slot ⟨some (session.compiler.compile text), none⟩
    refine ⟨_, .read (h.template_eq hn hslot) read, ⟨hown.lt, hown.inj⟩,
      relies_go trivial fun j hj => ?_, h.holds.fill h.own hn _⟩
    exact (h.relies j).setSlot hslot (fun he => hj (Option.some.inj he).symm) _
  | @fail i slot name path cause here read =>
    obtain ⟨hn, hslot⟩ := h.reading here
    refine ⟨session, .unread (h.template_eq hn hslot) read, h.own.setSlot _ _,
      relies_go trivial fun j hj => ?_, ?_⟩
    · exact (h.relies j).setSlot hslot (fun he => hj (Option.some.inj he).symm) _
    · exact h.holds.relink (template?_hand h.own hn hslot rfl)
  | register i name css here fresh =>
    have hnone : Fields.get? session.stylesheets name = none := by
      rw [h.holds.stylesheets]
      simpa [Fields.has] using fresh
    refine ⟨_, .registered css hnone, ⟨h.own.lt, h.own.inj⟩,
      relies_go trivial fun j _ => h.relies j, ?_⟩
    exact { h.holds with stylesheets := congrArg (Fields.insert name css) h.holds.stylesheets }
  | registerAgain i name css here old =>
    obtain ⟨first, hfirst⟩ := Option.isSome_iff_exists.1 old
    have hknown : Fields.get? session.stylesheets name = some first := by rwa [h.holds.stylesheets]
    exact ⟨session, .known css hknown, h.own, relies_go trivial fun j _ => h.relies j, h.holds⟩
  | claim i path here fresh =>
    rw [← h.holds.claimed] at fresh
    refine ⟨_, .claimed fresh, ⟨h.own.lt, h.own.inj⟩,
      relies_go trivial fun j _ => (h.relies j).claim _, ?_⟩
    exact { h.holds with claimed := congrArg (path.components :: ·) h.holds.claimed }
  | @reportAgain i path here =>
    have hold : path.components ∈ session.claimed := by
      have := h.relies i
      rw [here] at this
      rwa [h.holds.claimed]
    refine ⟨_, .repeated hold, ⟨h.own.lt, h.own.inj⟩, relies_go trivial fun j _ => h.relies j, ?_⟩
    exact { h.holds with reports := congrArg (· ++ [_]) h.holds.reports }
  | report i problem here =>
    refine ⟨_, .reported problem, ⟨h.own.lt, h.own.inj⟩,
      relies_go trivial fun j _ => h.relies j, ?_⟩
    exact { h.holds with reports := congrArg (· ++ [_]) h.holds.reports }

/-- The calls that callers were answered are a sequence that one session answers alike, and it holds
what they share. -/
theorem Interleaves.agrees (h : Interleaves compiler events c) :
    ∃ session, Serves compiler events session ∧ c.Agrees session := by
  induction h with
  | start disk =>
    refine ⟨_, .start, ⟨fun hn => ?_, fun hn => ?_⟩, fun _ => trivial,
      ⟨rfl, fun _ => rfl, rfl, rfl, rfl, rfl⟩⟩
    · cases hn
    · cases hn
  | silent before step ih =>
    obtain ⟨session, hserves, hagrees⟩ := ih
    exact ⟨session, hserves, hagrees.silent step⟩
  | answer before step ih =>
    obtain ⟨session, hserves, hagrees⟩ := ih
    obtain ⟨session', hserved, hagrees'⟩ := hagrees.answer step
    exact ⟨session', hserves.next_of_served hserved, hagrees'⟩

/-- After every sequence of calls that a session answers while files change, and after every
interleaving of callers that share it: as many templates were compiled as there are names for which
a call succeeded; all calls that succeeded for a name got the template that the first of them
compiled from the file it read, and those that failed leave no trace; a stylesheet has the text of
its first registration, which alone was new, and a file is new when it is claimed first; what was
reported are the reports and one duplicate for each repeated claim, in order. -/
theorem accounts_of_calls (compiler : Template.Compiler) (events : List Event) :
    (∀ session, Serves compiler events session →
      Accounts compiler events session.compilations session.stylesheets session.reports ∧
        Serves compiler (events.filter (!·.hasFailed)) session) ∧
    ∀ c, Interleaves compiler events c →
      Accounts compiler events c.shared.compilations c.shared.stylesheets c.shared.reports ∧
        ∃ session, Serves compiler events session ∧
          Serves compiler (events.filter (!·.hasFailed)) session ∧ Shows c.shared session := by
  refine ⟨fun session h => ⟨h.accounts, h.filter⟩, fun c h => ?_⟩
  obtain ⟨session, hserves, hagrees⟩ := h.agrees
  have haccounts := hserves.accounts
  rw [hagrees.holds.compilations, hagrees.holds.stylesheets, hagrees.holds.reports] at haccounts
  exact ⟨haccounts, session, hserves, hserves.filter, hagrees.holds⟩

/-- A disk with a template. -/
def templateDisk : Disk where
  entries := [(["t"], .file "a".toUTF8 0)]

/-- The compiler of a session's templates. -/
def pageCompiler : Template.Compiler :=
  ⟨some pageNames⟩

/-- Two callers want one template, whose file is not there when the first one reads it and is when
the second one does; then they claim one file under two spellings. -/
def raceEvents : List Event :=
  [⟨{}, .template "t" ⟨"/t"⟩, .template (.error .missing)⟩,
    ⟨templateDisk, .template "t" ⟨"/t"⟩, .template (.ok (pageCompiler.compile "a"))⟩,
    ⟨{}, .template "t" ⟨"/t"⟩, .template (.ok (pageCompiler.compile "a"))⟩,
    ⟨{}, .claim ⟨"o/x"⟩, .fresh true⟩, ⟨{}, .claim ⟨"o//x"⟩, .fresh false⟩]

theorem readText_templateDisk : templateDisk.readText ⟨"/t"⟩ = .ok "a" :=
  Except.toOption_eq_some_iff.1 (by decide +kernel)

theorem accounts_of_race : ∃ c, Interleaves pageCompiler raceEvents c ∧
    Accounts pageCompiler raceEvents c.shared.compilations c.shared.stylesheets c.shared.reports ∧
    c.shared.compilations = 1 ∧ c.shared.reports = [.duplicateOutput ⟨"o//x"⟩] ∧
    ∃ session, Serves pageCompiler raceEvents session ∧
      Accounts pageCompiler raceEvents session.compilations session.stylesheets
        session.reports := by
  have hfile : (⟨"o//x"⟩ : Path).components = (⟨"o/x"⟩ : Path).components := by decide
  have start : Interleaves pageCompiler [] _ := .start {}
  have both := (start.silent (.takeSlot 0 "t" ⟨"/t"⟩ rfl)).silent (.takeSlot 1 "t" ⟨"/t"⟩ rfl)
  have failed := (both.silent (.hold 0 rfl rfl)).answer (.fail 0 rfl rfl)
  have filled := ((failed.silent (.hold 1 rfl rfl)).silent (.files _ templateDisk)).answer
    (.fill 1 rfl readText_templateDisk)
  have found := ((filled.silent (.takeSlot 0 "t" ⟨"/t"⟩ rfl)).silent (.files _ {})).answer
    (.find 0 rfl rfl)
  have claimed := found.answer (.claim 0 ⟨"o/x"⟩ rfl List.not_mem_nil)
  have repeated := (claimed.silent (.claimAgain 1 ⟨"o//x"⟩ rfl (List.mem_singleton.2 hfile))).answer
    (.reportAgain 1 rfl)
  obtain ⟨haccounts, session, hserves, -⟩ :=
    (accounts_of_calls pageCompiler raceEvents).2 _ repeated
  exact ⟨_, repeated, haccounts, rfl, rfl, session, hserves,
    ((accounts_of_calls pageCompiler raceEvents).1 session hserves).1⟩

end Callers

end StaticSite
