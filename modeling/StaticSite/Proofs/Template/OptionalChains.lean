import Mathlib
import StaticSite.Proofs.Template.Assignments
import StaticSite.Proofs.Template.Constructs
import StaticSite.Template.Basic

/-!
# Chains of optional accesses

A chain is an expression with accesses and method calls behind it (`Link`). A question mark guards
its own link only: behind undefined or null the link yields undefined and evaluates neither key nor
arguments, and the next link meets undefined. So a chain that begins with a question mark yields
undefined as long as all its links have one, and fails at the first link without (`optional_chain`),
whose key or arguments have been evaluated by then.
-/

namespace StaticSite.Template

/-! ## Links -/

/-- An access or a method call behind an expression. -/
inductive Link where
  | member (name : String) (optional : Bool)
  | index (key : Expr) (optional : Bool)
  | method (name : String) (args : List Expr) (optional : Bool)

namespace Link

/-- A link on what stands before it. -/
def on (target : Expr) : Link → Expr
  | member name optional => .member target name optional
  | index key optional => .index target key optional
  | method name args optional => .call (.member target name optional) args

/-- Whether a link has a question mark. -/
def isOptional : Link → Bool
  | member _ optional | index _ optional | method _ _ optional => optional

/-- What a link without a question mark does behind undefined. -/
def missing : Link → Run Value
  | member name _ => Run.fail (Value.undefined.unreadable name)
  | index key _ => do
    let k ← eval key
    Run.fail (Value.undefined.unreadable k.toText)
  | method name args _ => do
    let _ ← evalArgs args
    Run.fail (Value.undefined.unreadable name)

theorem missing_ne_ok (l : Link) (s t : State) (v : Value) : l.missing.run.run s ≠ (.ok v, t) := by
  cases l with
  | member name optional => exact nofun
  | index key optional =>
    intro h
    obtain ⟨k, u, -, fails⟩ := Task.run_bind_eq_ok.1 h
    cases fails
  | method name args optional =>
    intro h
    obtain ⟨values, u, -, fails⟩ := Task.run_bind_eq_ok.1 h
    cases fails

end Link

/-- The expression with the links behind it. -/
def Expr.linked (o : Expr) (links : List Link) : Expr :=
  links.foldl Link.on o

theorem Expr.linked_append (o : Expr) (links more : List Link) :
    o.linked (links ++ more) = (o.linked links).linked more :=
  List.foldl_append

/-! ## Chains in code -/

section Code

variable {toks : Expr → List Token}

namespace Link

/-- The key of an access or the arguments of a call. -/
def parts : Link → List Expr
  | member _ _ => []
  | index key _ => [key]
  | method _ args _ => args

/-- The tokens of a link, given those of its parts. -/
def tokens (toks : Expr → List Token) : Link → List Token
  | member name optional => [.mark (if optional then .optional else .dot), .name name]
  | index key optional => (if optional then [.mark .optional] else []) ++
      .mark .openBracket :: (toks key ++ [.mark .closeBracket])
  | method name args optional =>
    [.mark (if optional then .optional else .dot), .name name] ++ grouped (listed (args.map toks))

theorem denotes_on {ts : List Token} {target : Expr} (h : Denotes ts target 0) (l : Link)
    (hparts : ∀ e ∈ l.parts, Denotes (toks e) e 9) :
    Denotes (ts ++ l.tokens toks) (l.on target) 0 := by
  cases l with
  | member name optional => exact denotes_member h name optional
  | index key optional => exact denotes_index h (hparts key List.mem_cons_self) optional
  | method name args optional =>
    have called := denotes_call (denotes_member h name optional) hparts
    rwa [List.append_assoc] at called

end Link

/-- Links behind an expression are read as a chain. -/
theorem denotes_linked {links : List Link}
    (hparts : ∀ l ∈ links, ∀ e ∈ l.parts, Denotes (toks e) e 9) :
    ∀ {ts : List Token} {o : Expr}, Denotes ts o 0 →
      Denotes (ts ++ links.flatMap (Link.tokens toks)) (o.linked links) 0 := by
  induction links with
  | nil =>
    intro ts o h
    rwa [List.flatMap_nil, List.append_nil]
  | cons l links ih =>
    intro ts o h
    obtain ⟨hl, hlinks⟩ := List.forall_mem_cons.1 hparts
    rw [List.flatMap_cons, ← List.append_assoc]
    exact ih hlinks (l.denotes_on h hl)

end Code

/-! ## Runs of chains -/

section Runs

variable {e o : Expr} {s t : State} {v : Value} {fault : Fault} {l : Link} {links : List Link}

/-- The expression stands for a receiver, not for a namespace. -/
def IsReceiver (e : Expr) (s : State) : Prop :=
  (ownerOf e).run.run s = (.ok none, s)

theorem isReceiver_of_eval (h : (eval e).run.run s = (.ok v, t)) : IsReceiver e s := by
  cases e with
  | name n =>
    rw [eval] at h
    have owner : (ownerOf (.name n)).run.run s =
        (.ok (if isNamespace n && (s.scope.get? n).isNone then some n else none), s) := rfl
    rcases hn : s.scope.get? n with _ | w
    · cases (run_lookup_of_none hn).symm.trans h
    · rw [IsReceiver, owner, hn, Option.isNone_some, Bool.and_false]
      rfl
  | _ => rfl

theorem isReceiver_on (l : Link) (e : Expr) (s : State) : IsReceiver (l.on e) s := by
  cases l <;> rfl

theorem isReceiver_linked (h : IsReceiver e s) : IsReceiver (e.linked links) s := by
  induction links generalizing e with
  | nil => exact h
  | cons l links ih => exact ih (isReceiver_on l e s)

theorem run_callMember {name : String} {optional : Bool} {receiver : Run Value}
    {args : Run (List Arg)}
    (h : IsReceiver e s) : (callMember e name optional receiver args).run.run s =
      (receiver >>= fun receiver =>
        if optional && receiver.isNullish then pure .undefined
        else args >>= callMethod receiver name).run.run s := by
  rw [callMember, Task.run_bind, h]

theorem index_undefined (k : Value) :
    Value.undefined.index k = .error (Value.undefined.unreadable k.toText) := by
  cases h : positionOfKey? k <;> simp only [Value.index, Value.property]

theorem run_on_of_error (hr : IsReceiver e s) (h : (eval e).run.run s = (.error fault, t))
    (l : Link) :
    (eval (l.on e)).run.run s = (.error fault, t) := by
  cases l with
  | member name optional => rw [Link.on, eval, Task.run_bind, h]
  | index key optional => rw [Link.on, eval, Task.run_bind, h]
  | method name args optional => rw [Link.on, eval, run_callMember hr, Task.run_bind, h]

/-- A link with a question mark evaluates nothing behind undefined or null. -/
theorem run_on_of_nullish (hr : IsReceiver e s) (h : (eval e).run.run s = (.ok v, t))
    (hv : v.isNullish = true) (hl : l.isOptional = true) :
    (eval (l.on e)).run.run s = (.ok .undefined, t) := by
  cases l with
  | member name optional | index key optional =>
    cases (show optional = true from hl)
    rw [Link.on, eval, Task.run_bind, h]
    simp only [hv, Bool.and_self, if_true]
    rfl
  | method name args optional =>
    cases (show optional = true from hl)
    rw [Link.on, eval, run_callMember hr, Task.run_bind, h]
    simp only [hv, Bool.and_self, if_true]
    rfl

theorem run_on_of_undefined (hr : IsReceiver e s) (h : (eval e).run.run s = (.ok .undefined, t))
    (hl : l.isOptional = false) : (eval (l.on e)).run.run s = l.missing.run.run t := by
  cases l with
  | member name optional =>
    cases (show optional = false from hl)
    rw [Link.on, eval, Task.run_bind, h]
    rfl
  | index key optional =>
    cases (show optional = false from hl)
    rw [Link.on, eval, Task.run_bind, h]
    simp only [index_undefined]
    rfl
  | method name args optional =>
    cases (show optional = false from hl)
    rw [Link.on, eval, run_callMember hr, Task.run_bind, h]
    rfl

theorem run_linked_of_error (hr : IsReceiver e s) (h : (eval e).run.run s = (.error fault, t)) :
    (eval (e.linked links)).run.run s = (.error fault, t) := by
  induction links generalizing e with
  | nil => exact h
  | cons l links ih => exact ih (isReceiver_on l e s) (run_on_of_error hr h l)

theorem run_linked_of_undefined (hr : IsReceiver e s) (h : (eval e).run.run s = (.ok .undefined, t))
    (hl : ∀ l ∈ links, l.isOptional = true) :
    (eval (e.linked links)).run.run s = (.ok .undefined, t) := by
  induction links generalizing e with
  | nil => exact h
  | cons l links ih =>
    obtain ⟨first, rest⟩ := List.forall_mem_cons.1 hl
    exact ih (isReceiver_on l e s) (run_on_of_nullish hr h rfl first) rest

/-- Where the first link without a question mark stands, it is met with undefined. -/
theorem run_linked_of_missing (hr : IsReceiver e s) (h : (eval e).run.run s = (.ok .undefined, t))
    (hl : l.isOptional = false) :
    (eval ((l.on e).linked links)).run.run s = l.missing.run.run t := by
  have met := run_on_of_undefined hr h hl
  rcases fails : l.missing.run.run t with ⟨fault | w, u⟩
  · exact run_linked_of_error (isReceiver_on l e s) (met.trans fails)
  · exact absurd fails (l.missing_ne_ok t u w)

theorem isOptional_of_run_linked (hr : IsReceiver e s)
    (h : (eval e).run.run s = (.ok .undefined, t))
    {u : State} (hrun : (eval (e.linked links)).run.run s = (.ok v, u)) :
    ∀ l ∈ links, l.isOptional = true := by
  induction links generalizing e with
  | nil => exact fun _ hl => nomatch hl
  | cons l links ih =>
    rcases hl : l.isOptional with _ | _
    · have missed := (run_linked_of_missing hr h hl).symm.trans hrun
      exact absurd missed (l.missing_ne_ok t u v)
    · have next := run_on_of_nullish hr h rfl hl
      exact List.forall_mem_cons.2 ⟨hl, ih (isReceiver_on l e s) next hrun⟩

end Runs

/-- Behind undefined or null a chain that begins with a question mark yields undefined, and
evaluates nothing more, exactly if every link has a question mark; else it does what the first link
without one does behind undefined, which never yields a value. -/
theorem optional_chain {o : Expr} {s t : State} {v : Value} (h : (eval o).run.run s = (.ok v, t))
    (hv : v.isNullish = true) {first : Link} (hfirst : first.isOptional = true)
    (links : List Link) :
    ((eval (o.linked (first :: links))).run.run s = (.ok .undefined, t) ↔
      ∀ l ∈ links, l.isOptional = true) ∧
    ∀ before l after, links = before ++ l :: after → (∀ m ∈ before, m.isOptional = true) →
      l.isOptional = false →
      (eval (o.linked (first :: links))).run.run s = l.missing.run.run t ∧
        ∀ w u, l.missing.run.run t ≠ (.ok w, u) := by
  have hr : IsReceiver (first.on o) s := isReceiver_on first o s
  have start : (eval (first.on o)).run.run s = (.ok .undefined, t) :=
    run_on_of_nullish (isReceiver_of_eval h) h hv hfirst
  refine ⟨⟨isOptional_of_run_linked hr start, run_linked_of_undefined hr start⟩, ?_⟩
  rintro before l after rfl hbefore hl
  have reached := run_linked_of_undefined hr start hbefore
  refine ⟨?_, fun w u => l.missing_ne_ok t u w⟩
  rw [show o.linked (first :: (before ++ l :: after)) =
    (first.on o).linked (before ++ l :: after) from rfl, Expr.linked_append]
  exact run_linked_of_missing (isReceiver_linked hr) reached hl

/-- The name `nothing` is bound to null, and `n` to one. -/
def nothingState : State :=
  ⟨.ofFrame [("n", .number 1.0), ("nothing", .null)], 0, []⟩

/-- `nothing?.[n++]?.title` evaluates nothing, and `nothing?.title.trim(n++)` its argument. -/
theorem optional_chain_of_nothing :
    let stepped : Expr := .update "n" true false
    (eval (.name "nothing")).run.run nothingState = (.ok .null, nothingState) ∧
      (eval (Expr.linked (.name "nothing") [.index stepped true, .member "title" true])).run.run
        nothingState = (.ok .undefined, nothingState) ∧
      (eval (Expr.linked (.name "nothing") [.member "title" true,
        .method "trim" [stepped] false])).run.run
        nothingState = (Link.method "trim" [stepped] false).missing.run.run nothingState := by
  intro stepped
  have null : (eval (.name "nothing")).run.run nothingState = (.ok .null, nothingState) := rfl
  have index : (Link.index stepped true).isOptional = true := rfl
  have member : (Link.member "title" true).isOptional = true := rfl
  have guarded := optional_chain null rfl index [.member "title" true]
  have unguarded := optional_chain null rfl member [.method "trim" [stepped] false]
  exact ⟨null, guarded.1.2 (by simp [Link.isOptional]),
    (unguarded.2 [] _ [] rfl (by simp) rfl).1⟩

/-- Links without a question mark behind one that has it are not guarded: a page that reads
`nothing?.title.length` fails, and the argument of `nothing?.title.trim(n++)` is evaluated. -/
theorem optional_chain_unguarded :
    let code := "<%= nothing?.title.length %>"
    let reads : Expr := .linked (.name "nothing") [.member "title" true, .member "length" false]
    let steps : Expr :=
      .linked (.name "nothing") [.member "title" true,
        .method "trim" [.update "n" true false] false]
    parse code = .ok [.output .escaped reads] ∧
      (Compiler.compile ⟨none⟩ code).render [("nothing", .null)] =
        .error (.mismatch (.unreadable "undefined" "length")) ∧
      (((eval steps).run.run nothingState).2.scope.get? "n").map Value.toText = some "2" := by
  intro code reads steps
  have parsed : parse code = .ok [.output .escaped reads] := by cbv
  refine ⟨parsed, ?_, rfl⟩
  rw [Compiled.render, Compiled.renderWithin, Compiler.compile, parsed]
  rfl

end StaticSite.Template
