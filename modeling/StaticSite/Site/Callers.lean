import StaticSite.Site.Session

/-!
# Callers of a session

A session is shared by callers that go on at the same time, while files change. A template has a
slot of its own: a caller takes the slot of the name, which is made when it is first asked for, and
then waits until nobody else has it. If the slot is empty, it keeps it while it reads the file, and
fills it unless this fails. All other calls change what is shared in one step, except that a claim
that was made before is reported in a step of its own.
-/

namespace StaticSite

namespace Session

/-- What a caller asks of a session. -/
inductive Call where
  | template (name : String) (path : Path)
  | register (name css : String)
  | claim (path : Path)
  | report (problem : Inconsistency)

/-- What a call gives back: a template, or whether a stylesheet or a file is new. -/
inductive Answer where
  | template (outcome : Except IoError Template.Compiled)
  | fresh (isFresh : Bool)
  | done

/-- A call that was answered, with the files as they were then. -/
structure Event where
  disk : Disk
  call : Call
  answer : Answer

/-- Answers a call. -/
def serve (session : Session) (disk : Disk) : Call → Answer × Session
  | .template name path =>
    match session.template disk name path with
    | .ok (template, session) => (.template (.ok template), session)
    | .error cause => (.template (.error cause), session)
  | .register name css => (.fresh (!session.hasStylesheet name), session.register name css)
  | .claim path => (.fresh (!session.isClaimed path), session.claim path)
  | .report problem => (.done, session.report problem)

/-- Calls that a session with nothing in it answers one after the other. -/
inductive Serves (compiler : Template.Compiler) : List Event → Session → Prop
  | start : Serves compiler [] { compiler }
  | next {events : List Event} {session : Session} (before : Serves compiler events session)
    (disk : Disk) (call : Call) :
    Serves compiler (events ++ [⟨disk, call, (session.serve disk call).1⟩])
      (session.serve disk call).2

end Session

/-- The place of one template, and the caller that has it to itself. -/
structure Slot where
  template : Option Template.Compiled := none
  holder : Option Nat := none

/-- What callers share. -/
structure Shared where
  compiler : Template.Compiler
  /-- The slots by name. -/
  names : Fields Nat := []
  slots : List Slot := []
  compilations : Nat := 0
  stylesheets : Fields String := []
  claimed : List (List String) := []
  reports : List Inconsistency := []

namespace Shared

/-- The slot of a name, which is made if there is none. -/
def takeSlot (shared : Shared) (name : String) : Nat × Shared :=
  match Fields.get? shared.names name with
  | some slot => (slot, shared)
  | none => (shared.slots.length, { shared with
      names := shared.names.insert name shared.slots.length
      slots := shared.slots ++ [{}] })

/-- Writes to a slot. -/
def setSlot (shared : Shared) (slot : Nat) (content : Slot) : Shared :=
  { shared with slots := shared.slots.set slot content }

end Shared

/-- Where a caller is in its call. -/
inductive Stage where
  | idle
  | waiting (name : String) (path : Path) (slot : Nat)
  | reading (name : String) (path : Path) (slot : Nat)
  | repeating (path : Path)

/-- Callers, by number, with what they share and the files. -/
structure Callers where
  disk : Disk
  shared : Shared
  stage : Nat → Stage := fun _ => .idle

namespace Callers

open Session

/-- A caller goes on to another stage, and what is shared changes. -/
def go (callers : Callers) (i : Nat) (stage : Stage) (shared : Shared) : Callers :=
  { callers with shared, stage := fun j => if j = i then stage else callers.stage j }

/-- One step of one caller, which may answer its call, or a change of files. -/
inductive Step : Callers → Option Event → Callers → Prop
  | files (c : Callers) (disk : Disk) : Step c none { c with disk }
  | takeSlot {c : Callers} (i : Nat) (name : String) (path : Path) (here : c.stage i = .idle) :
    Step c none (c.go i (.waiting name path (c.shared.takeSlot name).1) (c.shared.takeSlot name).2)
  | find {c : Callers} (i : Nat) {slot : Nat} {name : String} {path : Path}
    {template : Template.Compiled} (here : c.stage i = .waiting name path slot)
    (content : c.shared.slots[slot]? = some ⟨some template, none⟩) :
    Step c (some ⟨c.disk, .template name path, .template (.ok template)⟩) (c.go i .idle c.shared)
  | hold {c : Callers} (i : Nat) {slot : Nat} {name : String} {path : Path}
    (here : c.stage i = .waiting name path slot)
    (content : c.shared.slots[slot]? = some ⟨none, none⟩) :
    Step c none (c.go i (.reading name path slot) (c.shared.setSlot slot ⟨none, some i⟩))
  | fill {c : Callers} (i : Nat) {slot : Nat} {name text : String} {path : Path}
    (here : c.stage i = .reading name path slot) (read : c.disk.readText path = .ok text) :
    Step c (some ⟨c.disk, .template name path, .template (.ok (c.shared.compiler.compile text))⟩)
      (c.go i .idle { c.shared.setSlot slot ⟨some (c.shared.compiler.compile text), none⟩ with
        compilations := c.shared.compilations + 1 })
  | fail {c : Callers} (i : Nat) {slot : Nat} {name : String} {path : Path} {cause : IoError}
    (here : c.stage i = .reading name path slot) (read : c.disk.readText path = .error cause) :
    Step c (some ⟨c.disk, .template name path, .template (.error cause)⟩)
      (c.go i .idle (c.shared.setSlot slot ⟨none, none⟩))
  | register {c : Callers} (i : Nat) (name css : String) (here : c.stage i = .idle)
    (fresh : Fields.has c.shared.stylesheets name = false) :
    Step c (some ⟨c.disk, .register name css, .fresh true⟩)
      (c.go i .idle { c.shared with stylesheets := c.shared.stylesheets.insert name css })
  | registerAgain {c : Callers} (i : Nat) (name css : String) (here : c.stage i = .idle)
    (old : Fields.has c.shared.stylesheets name = true) :
    Step c (some ⟨c.disk, .register name css, .fresh false⟩) (c.go i .idle c.shared)
  | claim {c : Callers} (i : Nat) (path : Path) (here : c.stage i = .idle)
    (fresh : path.components ∉ c.shared.claimed) :
    Step c (some ⟨c.disk, .claim path, .fresh true⟩)
      (c.go i .idle { c.shared with claimed := path.components :: c.shared.claimed })
  | claimAgain {c : Callers} (i : Nat) (path : Path) (here : c.stage i = .idle)
    (old : path.components ∈ c.shared.claimed) : Step c none (c.go i (.repeating path) c.shared)
  | reportAgain {c : Callers} (i : Nat) {path : Path} (here : c.stage i = .repeating path) :
    Step c (some ⟨c.disk, .claim path, .fresh false⟩)
      (c.go i .idle { c.shared with reports := c.shared.reports ++ [.duplicateOutput path] })
  | report {c : Callers} (i : Nat) (problem : Inconsistency) (here : c.stage i = .idle) :
    Step c (some ⟨c.disk, .report problem, .done⟩)
      (c.go i .idle { c.shared with reports := c.shared.reports ++ [problem] })

/-- The calls that are answered, in this order, while callers go on in some order. -/
inductive Interleaves (compiler : Template.Compiler) : List Event → Callers → Prop
  | start (disk : Disk) : Interleaves compiler [] ⟨disk, { compiler }, fun _ => .idle⟩
  | silent {events : List Event} {c c' : Callers} (before : Interleaves compiler events c)
    (step : Step c none c') : Interleaves compiler events c'
  | answer {events : List Event} {c c' : Callers} {event : Event}
    (before : Interleaves compiler events c) (step : Step c (some event) c') :
    Interleaves compiler (events ++ [event]) c'

end Callers

end StaticSite
