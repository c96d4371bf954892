import StaticSite.Template.Basic
import StaticSite.Proofs.Template.Leaves
import StaticSite.Proofs.Template.Logic

/-!
# What a template writes

Each statement writes pieces that stand for its leaves: a literal text as it is, the value of an
output directive escaped or raw (`exec_writes`). `Run.Quiet x` says that `x` leaves the output
alone: no expression writes, whichever methods and callbacks it runs (`eval_quiet`), so the
statements are the one place where output comes from. `Run.Writes P x` says that all pieces `x`
writes satisfy `P`; what is quiet writes none, and loops repeat what their bodies do. With the
leaves of the parsed template (`leaf_isFrom_of_parse`) it follows that a source without raw output
directives renders to its own literal texts and to escaped ones, so that each bracket and each
quotation mark of the output is one that the template's author typed (`specials_come_from_texts`).
-/

namespace StaticSite.Template

/-! ## Evaluation writes nothing -/

section Rules

variable {α β : Type}

/-- A computation that writes nothing, whatever its outcome. -/
def Run.Quiet (x : Run α) : Prop :=
  ∀ s, (x.run.run s).2.written = s.written

theorem Run.Quiet.pure (a : α) : (Pure.pure a : Run α).Quiet := fun _ => rfl

theorem Run.Quiet.fail (fault : Fault) : (Run.fail fault : Run α).Quiet := fun _ => rfl

/-- A sequence is quiet if its second part is on all that the first one can yield. -/
theorem Run.Quiet.bindYield {x : Run α} {f : α → Run β} (hx : x.Quiet)
    (hf : ∀ a, x.CanYield a → (f a).Quiet) : (x >>= f).Quiet := by
  intro s
  rw [Task.run_bind]
  have hs := hx s
  rcases hr : x.run.run s with ⟨fault | a, s'⟩
  · rwa [hr] at hs
  · rw [hr] at hs
    exact (hf a ⟨s, s', hr⟩ s').trans hs

theorem Run.Quiet.bind {x : Run α} {f : α → Run β} (hx : x.Quiet) (hf : ∀ a, (f a).Quiet) :
    (x >>= f).Quiet :=
  hx.bindYield fun a _ => hf a

theorem Run.Quiet.onScope (f : Scope → Scope) : (Run.onScope f).Quiet := fun _ => rfl

theorem Run.Quiet.inFrame {x : Run α} (hx : x.Quiet) : (Run.inFrame x).Quiet :=
  fun s => hx { s with scope := s.scope.push }

theorem Run.Quiet.lookup (name : String) : (Run.lookup name).Quiet := by
  refine Run.Quiet.bind (fun _ => rfl) fun scope => ?_
  split
  · exact .pure _
  · exact .fail _

end Rules

/-- Runs that write nothing. -/
def Run.Logic.quiet : Run.Logic where
  holds := Run.Quiet
  pure := .pure
  fail _ := .fail _
  bind := .bindYield
  scope _ := rfl
  freshRef _ := rfl
  adopt _ _ := rfl
  stepName name _ _ := (Run.Quiet.lookup name).bind fun _ =>
    (Run.Quiet.onScope _).bind fun _ => .pure _
  invoke _ _ _ h := .inFrame ((Run.Quiet.onScope _).bind fun _ => h)

theorem eval_quiet (e : Expr) : (eval e).Quiet :=
  Run.Logic.quiet.eval e

/-! ## Rules for `Run.Writes` -/

section Rules

variable {α β : Type} {P : Written → Prop}

/-- All pieces that a computation writes satisfy `P`, whatever its outcome. -/
def Run.Writes (P : Written → Prop) (x : Run α) : Prop :=
  ∀ s, (∀ w ∈ s.written, P w) → ∀ w ∈ (x.run.run s).2.written, P w

theorem Run.Quiet.writes {x : Run α} (hx : x.Quiet) : Run.Writes P x := by
  intro s hs
  rwa [hx s]

theorem Run.Writes.pure (a : α) : Run.Writes P (Pure.pure a : Run α) :=
  (Run.Quiet.pure a).writes

theorem Run.Writes.write {w : Written} (hw : P w) : Run.Writes P (Run.write w) := by
  intro s hs v hv
  rcases List.mem_cons.1 hv with rfl | hv
  · exact hw
  · exact hs v hv

theorem Run.Writes.bind {x : Run α} {f : α → Run β} (hx : Run.Writes P x)
    (hf : ∀ a, Run.Writes P (f a)) : Run.Writes P (x >>= f) := by
  intro s hs
  have h := hx s hs
  rw [Task.run_bind]
  rcases hr : x.run.run s with ⟨fault | a, s'⟩
  · rwa [hr] at h
  · rw [hr] at h
    exact hf a s' h

theorem Run.Writes.ite {c : Prop} [Decidable c] {x y : Run α} (hx : Run.Writes P x)
    (hy : Run.Writes P y) : Run.Writes P (if c then x else y) := by
  split
  · exact hx
  · exact hy

theorem Run.Writes.inFrame {x : Run α} (hx : Run.Writes P x) : Run.Writes P (Run.inFrame x) :=
  fun s hs => hx { s with scope := s.scope.push } hs

theorem Run.Writes.repeatWhile {step : Run Bool} (hs : Run.Writes P step) (limit : Nat) :
    Run.Writes P (Run.repeatWhile step limit) := by
  induction limit with
  | zero => exact (Run.Quiet.fail _).writes
  | succ limit ih => exact hs.bind fun _ => .ite ih (.pure _)

theorem forEach_writes {body : Run Flow} (hb : Run.Writes P body) (binding : String) :
    ∀ items, Run.Writes P (forEach binding body items)
  | [] => .pure _
  | _ :: rest =>
    (Run.Writes.inFrame ((Run.Quiet.onScope _).writes.bind fun _ => hb)).bind fun _ =>
      .ite (.pure _) (forEach_writes hb binding rest)

end Rules

/-! ## Statements -/

theorem iterate_quiet (v : Value) : (iterate v).Quiet := by
  unfold iterate
  split
  · exact .pure _
  · exact .pure _
  · exact .fail _

theorem evalTest_quiet (test : Option Expr) : (evalTest test).Quiet := by
  cases test with
  | none => exact .pure _
  | some e => exact (eval_quiet e).bind fun _ => .pure _

theorem assigned_quiet (name : String) (op : AssignOp) (v : Value) :
    (assigned name op v).Quiet := by
  cases op with
  | set => exact .pure _
  | add => exact (Run.Quiet.lookup name).bind fun _ => .pure _
  | sub => exact (Run.Quiet.lookup name).bind fun _ => .pure _

theorem declareAll_quiet : ∀ bindings, (declareAll bindings).Quiet
  | [] => .pure _
  | (name, value) :: rest => by
    have tail (v : Value) : (do Run.onScope (·.declare name v); declareAll rest : Run Unit).Quiet :=
      (Run.Quiet.onScope _).bind fun _ => declareAll_quiet rest
    cases value with
    | none => exact tail .undefined
    | some e => exact (eval_quiet e).bind tail

/-- All pieces that may stand for a leaf satisfy `P`: a text stands as it is, a value is written the
directive's way. -/
def Leaf.Writes (P : Written → Prop) : Leaf → Prop
  | .text s => P (.literal s)
  | .output .escaped _ => ∀ s, P (.escaped s)
  | .output .raw _ => ∀ s, P (.raw s)

section Statements

variable {P : Written → Prop} (limit : Nat)

mutual

theorem exec_writes : ∀ s : Stmt, (∀ leaf ∈ s.leaves, leaf.Writes P) → Run.Writes P (exec limit s)
  | .text s, h => by
    rw [exec]
    exact (Run.Writes.write (h (.text s) List.mem_cons_self)).bind fun _ => .pure _
  | .output how e, h => by
    rw [exec]
    have leaf := h (.output how e) List.mem_cons_self
    refine (eval_quiet e).writes.bind fun v => Run.Writes.bind (.write ?_) fun _ => .pure _
    cases how with
    | escaped => exact leaf _
    | raw => exact leaf _
  | .declare bindings, _ => by
    rw [exec]
    exact (declareAll_quiet bindings).writes.bind fun _ => .pure _
  | .assign name op e, _ => by
    rw [exec]
    exact Run.Quiet.writes ((eval_quiet e).bind fun _ => (assigned_quiet _ _ _).bind fun _ =>
      (Run.Quiet.onScope _).bind fun _ => .pure _)
  | .expr e, _ => by
    rw [exec]
    exact (eval_quiet e).writes.bind fun _ => .pure _
  | .branch test yes no, h => by
    rw [exec]
    refine (eval_quiet test).writes.bind fun _ => .ite (exec_writes yes ?_) (exec_writes no ?_)
    · exact fun leaf hl => h leaf (List.mem_append_left _ hl)
    · exact fun leaf hl => h leaf (List.mem_append_right _ hl)
  | .forOf binding source body, h => by
    rw [exec]
    exact (eval_quiet source).writes.bind fun _ => (iterate_quiet _).writes.bind fun _ =>
      (forEach_writes (exec_writes body h) _ _).bind fun _ => .pure _
  | .forIn binding source body, h => by
    rw [exec]
    exact (eval_quiet source).writes.bind fun _ =>
      (forEach_writes (exec_writes body h) _ _).bind fun _ => .pure _
  | .forLoop start test step body, h => by
    rw [exec]
    have hstart := exec_writes start fun leaf hl =>
      h leaf (List.mem_append_left _ (List.mem_append_left _ hl))
    have hstep := exec_writes step fun leaf hl =>
      h leaf (List.mem_append_left _ (List.mem_append_right _ hl))
    have hbody := exec_writes body fun leaf hl => h leaf (List.mem_append_right _ hl)
    refine .inFrame (hstart.bind fun _ => Run.Writes.bind (.repeatWhile ?_ limit) fun _ => .pure _)
    exact (evalTest_quiet test).writes.bind fun _ =>
      .ite (hbody.bind fun _ => .ite (.pure _) (hstep.bind fun _ => .pure _)) (.pure _)
  | .whileLoop test body, h => by
    rw [exec]
    refine Run.Writes.bind (.repeatWhile ?_ limit) fun _ => .pure _
    exact (eval_quiet test).writes.bind fun _ =>
      .ite ((exec_writes body h).bind fun _ => .pure _) (.pure _)
  | .block body, h => by
    rw [exec]
    exact .inFrame (execAll_writes body h)
  | .breakLoop, _ => by
    rw [exec]
    exact .pure _
  | .continueLoop, _ => by
    rw [exec]
    exact .pure _
  | .empty, _ => by
    rw [exec]
    exact .pure _

theorem execAll_writes : ∀ body : List Stmt, (∀ leaf ∈ leavesOfAll body, leaf.Writes P) →
    Run.Writes P (execAll limit body)
  | [], _ => by
    rw [execAll]
    exact .pure _
  | s :: rest, h => by
    rw [execAll]
    refine (exec_writes s ?_).bind fun _ => .ite (execAll_writes rest ?_) (.pure _)
    · exact fun leaf hl => h leaf (List.mem_append_left _ hl)
    · exact fun leaf hl => h leaf (List.mem_append_right _ hl)

end

theorem runProgram_writes (program : List Stmt) (h : ∀ leaf ∈ leavesOfAll program, leaf.Writes P) :
    Run.Writes P (runProgram limit program) :=
  (execAll_writes limit program h).bind fun _ => .ite (.pure _) (Run.Quiet.fail _).writes

end Statements

/-- The pieces of a successful rendering stand for leaves of the program. -/
theorem Compiled.renderWithin_writes {P : Written → Prop} {t : Compiled} {context : Context}
    {limit : Nat} {pieces : List Written} {program : List Stmt} (ht : t.program = .ok program)
    (hp : ∀ leaf ∈ leavesOfAll program, leaf.Writes P)
    (h : t.renderWithin limit context = .ok pieces) : ∀ w ∈ pieces, P w := by
  unfold Compiled.renderWithin at h
  rw [ht] at h
  have hw := runProgram_writes limit program hp (State.start (t.globals context))
    (by simp [State.start])
  dsimp only at h
  split at h
  · rename_i s hr
    cases h
    rw [hr] at hw
    exact fun w hm => hw w (List.mem_reverse.1 hm)
  · cases h

/-! ## Sources without raw output -/

/-- Whether a character can begin or end a tag or an attribute's value. -/
def isSpecial (c : Char) : Bool :=
  c = '<' || c = '>' || c = '"' || c = '\''

theorem escapeHtmlChar_plain (c : Char) : ∀ x ∈ Text.escapeHtmlChar c, isSpecial x = false := by
  have hplain (text : List Char) (h : text.all (fun x => !isSpecial x) = true) :
      ∀ x ∈ text, isSpecial x = false := by
    simpa using h
  unfold Text.escapeHtmlChar
  split
  any_goals
    refine hplain _ ?_
    decide
  rename_i hquote hsingle hless hgreater
  intro x hx
  obtain rfl := List.mem_singleton.1 hx
  simp only [isSpecial, Bool.or_eq_false_iff, decide_eq_false_iff_not]
  exact ⟨⟨⟨hless, hgreater⟩, hquote⟩, hsingle⟩

theorem escapeHtml_plain (s : String) : ∀ c ∈ (Text.escapeHtml s).toList, isSpecial c = false := by
  intro c hc
  rw [Text.escapeHtml, String.toList_ofList] at hc
  obtain ⟨x, -, hx⟩ := List.mem_flatMap.1 hc
  exact escapeHtmlChar_plain x c hx

/-- No directive of a source writes its value as it is. -/
def HasNoRawOutput (source : String) : Prop :=
  ∀ segments, scan source = .ok segments → ∀ code, .output .raw code ∉ segments

/-- A literal text among some segments, or an escaped text. -/
def IsTextOrEscaped (segments : List Segment) (piece : String) : Prop :=
  .text piece ∈ segments ∨ ∃ s, piece = Text.escapeHtml s

/-- A character that stands in a piece of a text stands there between two parts of the piece. -/
theorem exists_piece_of_join {pieces : List String} {before after : List Char} {c : Char}
    (h : (String.join pieces).toList = before ++ c :: after) :
    ∃ piece ∈ pieces, ∃ left inside behind right, piece.toList = inside ++ c :: behind ∧
      before = left ++ inside ∧ after = behind ++ right := by
  induction pieces generalizing before with
  | nil => simp at h
  | cons piece rest ih =>
    rw [String.join_cons, String.toList_append] at h
    rcases List.append_eq_append_iff.1 h with ⟨mid, hb, hr⟩ | ⟨mid, hp, hr⟩
    · obtain ⟨p, hp, left, inside, behind, right, hpiece, rfl, ha⟩ := ih hr
      exact ⟨p, List.mem_cons_of_mem _ hp, piece.toList ++ left, inside, behind, right, hpiece,
        by rw [hb, List.append_assoc], ha⟩
    · cases mid with
      | nil =>
        rw [List.nil_append] at hr
        obtain ⟨p, hp', left, inside, behind, right, hpiece, hl, ha⟩ := @ih [] hr.symm
        obtain ⟨rfl, rfl⟩ := List.append_eq_nil_iff.1 hl.symm
        exact ⟨p, List.mem_cons_of_mem _ hp', before, [], behind, right, hpiece, by simp, ha⟩
      | cons x mid =>
        obtain ⟨rfl, rfl⟩ := List.cons.inj hr
        exact ⟨piece, List.mem_cons_self, [], before, mid, _, hp, rfl, rfl⟩

/-- Without raw output directives each piece of the output is a literal text or escaped. -/
theorem render_eq_join {compiler : Compiler} {source : String} {context : Context} {out : String}
    (hraw : HasNoRawOutput source) (h : (compiler.compile source).render context = .ok out) :
    ∃ segments pieces, scan source = .ok segments ∧ out = String.join pieces ∧
      ∀ piece ∈ pieces, IsTextOrEscaped segments piece := by
  obtain ⟨written, hw, rfl⟩ := Except.map_eq_ok_iff.1 h
  obtain ⟨program, hp⟩ : ∃ program, parse source = .ok program := by
    rcases hp : parse source with cause | program
    · simp [Compiled.renderWithin, Compiler.compile, hp] at hw
    · exact ⟨program, rfl⟩
  obtain ⟨segments, hs⟩ : ∃ segments, scan source = .ok segments := by
    rcases hs : scan source with cause | segments
    · simp [parse, hs, Bind.bind, Except.bind] at hp
    · exact ⟨segments, rfl⟩
  refine ⟨segments, written.map Written.text, hs, rfl, fun piece hpiece => ?_⟩
  have pieces := Compiled.renderWithin_writes (P := fun w => IsTextOrEscaped segments w.text) hp
    (fun leaf hl => ?_) hw
  · obtain ⟨w, hw', rfl⟩ := List.mem_map.1 hpiece
    exact pieces w hw'
  · have hfrom := leaf_isFrom_of_parse hs hp hl
    match leaf, hfrom with
    | .text s, hs' => exact .inl hs'
    | .output .escaped _, _ => exact fun s => .inr ⟨s, rfl⟩
    | .output .raw _, ⟨code, hc⟩ => exact absurd hc (hraw segments hs code)

/-- Each special character of a text stands in a literal text among some segments, all of which is
in the text around it. -/
def SpecialsComeFrom (segments : List Segment) (out : String) : Prop :=
  ∀ before c after, out.toList = before ++ c :: after → isSpecial c = true →
    ∃ text, .text text ∈ segments ∧ ∃ left inside behind right,
      text.toList = inside ++ c :: behind ∧ before = left ++ inside ∧ after = behind ++ right

/-- Without raw output directives the special characters of the output are those of the source's
literal texts. -/
theorem specials_come_from_texts {compiler : Compiler} {source : String} {context : Context}
    {out : String} (hraw : HasNoRawOutput source)
    (hout : (compiler.compile source).render context = .ok out) :
    ∃ segments pieces, scan source = .ok segments ∧ out = String.join pieces ∧
      (∀ piece ∈ pieces, IsTextOrEscaped segments piece) ∧ SpecialsComeFrom segments out := by
  obtain ⟨segments, pieces, hs, rfl, hpieces⟩ := render_eq_join hraw hout
  refine ⟨segments, pieces, hs, rfl, hpieces, fun before c after hc hspecial => ?_⟩
  obtain ⟨piece, hp, left, inside, behind, right, htext, hb, ha⟩ := exists_piece_of_join hc
  rcases hpieces piece hp with hseg | ⟨s, rfl⟩
  · exact ⟨piece, hseg, left, inside, behind, right, htext, hb, ha⟩
  · have hmem : c ∈ (Text.escapeHtml s).toList := by
      rw [htext]
      exact List.mem_append_right _ List.mem_cons_self
    rw [escapeHtml_plain s c hmem] at hspecial
    cases hspecial

theorem specials_come_from_texts_of_loop :
    ∃ source segments pieces, HasNoRawOutput source ∧
      scan source = .ok segments ∧ "<i>&lt;a&gt;</i><i>&quot;</i>" = String.join pieces ∧
      (∀ piece ∈ pieces, IsTextOrEscaped segments piece) ∧
      SpecialsComeFrom segments "<i>&lt;a&gt;</i><i>&quot;</i>" := by
  have hscan : scan "<% for (const x of xs) \x7b %><i><%= x %></i><% \x7d %>" = .ok
      [.statements " for (const x of xs) \x7b ", .text "<i>", .output .escaped " x ",
        .text "</i>", .statements " \x7d "] :=
    Except.toOption_eq_some_iff.1 (by decide +kernel)
  have hraw : HasNoRawOutput "<% for (const x of xs) \x7b %><i><%= x %></i><% \x7d %>" := by
    intro segments hs code
    rw [hscan] at hs
    cases hs
    simp
  have hout :
      (Compiler.compile ⟨none⟩ "<% for (const x of xs) \x7b %><i><%= x %></i><% \x7d %>").render
      [("xs", .array 0 [.string "<a>", .string "\""])] = .ok "<i>&lt;a&gt;</i><i>&quot;</i>" :=
    Except.toOption_eq_some_iff.1 (by decide +kernel)
  obtain ⟨segments, pieces, h⟩ := specials_come_from_texts hraw hout
  exact ⟨_, segments, pieces, hraw, h⟩

end StaticSite.Template
