import StaticSite.Proofs.Template.Layout
import StaticSite.Proofs.Template.Progress

/-!
# The program of a template

The statements of a template are read to the end of its items (`statements_reads_all`). So the
leaves of a compiled template, in their order, are the literal spans and the value directives of its
source in theirs (`leaves_stand_for_segments`), and it writes escaped output exactly if one of its
directives does.
-/

namespace StaticSite.Template

open Parse

/-! ## Reading to the end -/

theorem statements_reads_all {one : Parse Stmt} (h : Takes 0 1 Stmt.IsTidy one) :
    ∀ fuel items program rest, items.length < fuel →
      (statements one fuel).run items = .ok (program, rest) → rest = [] ∧ AllTidy program
  | 0, items, _, _, hl, _ => absurd hl (Nat.not_lt_zero items.length)
  | fuel + 1, items, program, rest, hl, hr => by
    unfold statements at hr
    obtain ⟨_, _, hget, hr⟩ := run_bind_eq_ok.1 hr
    cases hget
    split at hr
    · rename_i hempty
      cases hr
      exact ⟨List.isEmpty_iff.1 hempty, trivial⟩
    · obtain ⟨stray, mid, hsees, hbehind⟩ := run_bind_eq_ok.1 hr
      obtain ⟨rfl, -⟩ := looks_sees_far .closeBrace items (.zero items) _ _ hsees
      cases stray with
      | true => cases hbehind
      | false =>
        obtain ⟨s, left, hone, hbehind⟩ := run_bind_eq_ok.1 hbehind
        obtain ⟨more, _, hmore, hreturn⟩ := run_bind_eq_ok.1 hbehind
        cases hreturn
        obtain ⟨hshort, htidy⟩ := h mid (.zero mid) s left hone
        obtain ⟨rfl, hall⟩ := statements_reads_all h fuel left more _ (by omega) hmore
        exact ⟨rfl, htidy, hall⟩

/-! ## Leaves and segments -/

/-- A leaf has the text of a literal span, or the expression and the way of writing of a value
directive. -/
inductive Leaf.StandsFor : Leaf → Segment → Prop
  | text (s : String) : StandsFor (.text s) (.text s)
  | output {how : Writing} {code : String} {e : Expr} (h : outputExpr code = .ok e) :
    StandsFor (.output how e) (.output how code)

/-- Whether a segment is a literal span or a value directive. -/
def Segment.isWritten : Segment → Bool
  | .text _ | .output .. => true
  | .statements _ => false

theorem leavesOf_standFor {segments : List Segment} {itemss : List (List Item)}
    (h : segments.mapM Segment.items = .ok itemss) :
    List.Forall₂ Leaf.StandsFor (leavesOf itemss.flatten) (segments.filter Segment.isWritten) := by
  induction mapM_eq_ok_iff.1 h with
  | nil => exact .nil
  | @cons segment items segments itemss hitems hrest ih =>
    have ih := ih (mapM_eq_ok_iff.2 hrest)
    cases segment with
    | text s =>
      cases hitems
      exact .cons (.text s) ih
    | output how code =>
      obtain ⟨e, he, hreturn⟩ := Except.bind_eq_ok_iff.1 hitems
      cases hreturn
      exact .cons (.output he) ih
    | statements code =>
      obtain ⟨tokens, -, hreturn⟩ := Except.bind_eq_ok_iff.1 hitems
      cases hreturn
      simpa [Segment.isWritten] using ih

theorem parse_eq_ok {source : String} {program : List Stmt} (h : parse source = .ok program) :
    ∃ layout, Layout.ofSource source = .ok layout ∧
      List.Forall₂ Leaf.StandsFor (leavesOfAll program) (layout.segments.filter Segment.isWritten) ∧
      AllTidy program := by
  obtain ⟨segments, hscan, h⟩ := Except.bind_eq_ok_iff.1 h
  obtain ⟨layout, hlayout, rfl⟩ := Except.map_eq_ok_iff.1 hscan
  obtain ⟨itemss, hitems, h⟩ := Except.bind_eq_ok_iff.1 h
  obtain ⟨⟨read, rest⟩, hr, he⟩ := Except.map_eq_ok_iff.1 h
  cases he
  obtain ⟨rfl, htidy⟩ := statements_reads_all (statement_takes _) _ _ _ _ (Nat.lt_succ_self _) hr
  have hleaves := statements_reads (statement_reads _) _ _ (.zero _) _ _ hr
  rw [List.nil_append, leavesOf_nil, List.append_nil] at hleaves
  exact ⟨layout, hlayout, hleaves ▸ leavesOf_standFor hitems, htidy⟩

/-! ## Escaped output -/

mutual

theorem escapes_iff : ∀ s : Stmt, s.IsTidy → (s.escapes = true ↔ ∃ e, .output .escaped e ∈ s.leaves)
  | .output how e, _ => by cases how <;> simp [Stmt.escapes, Stmt.leaves]
  | .branch test yes no, h => by
    simp only [Stmt.escapes, Stmt.leaves, Bool.or_eq_true, List.mem_append, exists_or]
    rw [escapes_iff yes h.1, escapes_iff no h.2]
  | .forOf binding source body, h => escapes_iff body h
  | .forIn binding source body, h => escapes_iff body h
  | .whileLoop test body, h => escapes_iff body h
  | .forLoop start test step body, ⟨hstart, hstep, hbody⟩ => by
    simp only [Stmt.escapes, Stmt.leaves, hstart, hstep, List.nil_append]
    exact escapes_iff body hbody
  | .block body, h => anyEscapes_iff body h
  | .text s, _ => by simp [Stmt.escapes, Stmt.leaves]
  | .declare bindings, _ => by simp [Stmt.escapes, Stmt.leaves]
  | .assign name op e, _ => by simp [Stmt.escapes, Stmt.leaves]
  | .expr e, _ => by simp [Stmt.escapes, Stmt.leaves]
  | .breakLoop, _ | .continueLoop, _ | .empty, _ => by simp [Stmt.escapes, Stmt.leaves]

theorem anyEscapes_iff : ∀ program : List Stmt, AllTidy program →
    (Stmt.anyEscapes program = true ↔ ∃ e, .output .escaped e ∈ leavesOfAll program)
  | [], _ => by simp [Stmt.anyEscapes, leavesOfAll]
  | s :: rest, h => by
    simp only [Stmt.anyEscapes, leavesOfAll, Bool.or_eq_true, List.mem_append, exists_or]
    rw [escapes_iff s h.1, anyEscapes_iff rest h.2]

end

theorem mem_segmentsFrom_escaped {code : String} :
    ∀ (before : Closing) (text : List Char) (tail : List (Directive × List Char)),
      .output .escaped code ∈ segmentsFrom before text tail ↔
        ∃ d ∈ tail.map Prod.fst, d.opening = .escaped ∧ String.ofList d.code = code := by
  have notText (s : List Char) : .output .escaped code ∉ textSegment s := by
    unfold textSegment
    split <;> simp
  intro before text tail
  induction tail generalizing before text with
  | nil => simp [segmentsFrom, notText]
  | cons entry rest ih =>
    obtain ⟨d, next⟩ := entry
    have own : .output .escaped code ∈ d.segment ↔
        d.opening = .escaped ∧ String.ofList d.code = code := by
      unfold Directive.segment
      cases d.opening <;> simp [eq_comm]
    rw [segmentsFrom, List.mem_append, List.mem_append, own, ih d.closing next]
    simp [notText]

theorem exists_escaped_leaf_iff {leaves : List Leaf} {segments : List Segment}
    (h : List.Forall₂ Leaf.StandsFor leaves segments) :
    (∃ e, .output .escaped e ∈ leaves) ↔ ∃ code, .output .escaped code ∈ segments := by
  induction h with
  | nil => simp
  | @cons leaf segment _ _ hstands _ ih =>
    cases hstands with
    | text s => simpa using ih
    | @output how code e he => cases how <;> simp [ih]

theorem exists_escaped_segment_iff (layout : Layout) :
    (∃ code, .output .escaped code ∈ layout.segments.filter Segment.isWritten) ↔
      ∃ d ∈ layout.directives, d.opening = .escaped := by
  simp only [List.mem_filter, Segment.isWritten, and_true, Layout.segments, Layout.directives,
    mem_segmentsFrom_escaped]
  constructor
  · rintro ⟨_, d, hd, ho, -⟩
    exact ⟨d, hd, ho⟩
  · rintro ⟨d, hd, ho⟩
    exact ⟨_, d, hd, ho, rfl⟩

/-- The leaves of a compiled template, in the order of its statements, stand for the literal spans
and the value directives of its source, each for one and in their order; and the template writes
escaped output exactly if its source has a directive that does. -/
theorem leaves_stand_for_segments {compiler : Compiler} {source : String} {program : List Stmt}
    (h : (compiler.compile source).program = .ok program) :
    ∃ layout, Layout.ofSource source = .ok layout ∧ scan source = .ok layout.segments ∧
      List.Forall₂ Leaf.StandsFor (leavesOfAll program) (layout.segments.filter Segment.isWritten) ∧
      ((compiler.compile source).escapes = true ↔ ∃ d ∈ layout.directives,
        d.opening = .escaped) := by
  obtain ⟨layout, hlayout, hleaves, htidy⟩ := parse_eq_ok h
  refine ⟨layout, hlayout, by rw [scan, hlayout]; rfl, hleaves, ?_⟩
  have hescapes : (compiler.compile source).escapes = Stmt.anyEscapes program := by
    unfold Compiled.escapes
    rw [h]
  rw [hescapes, anyEscapes_iff program htidy, exists_escaped_leaf_iff hleaves,
    exists_escaped_segment_iff]

/-- A template in which a branch ends and its alternative begins in directives of their own. -/
def branchSource : String :=
  "<% if (a) \x7b %>1<%= x %><% \x7d %><%# or %><% else \x7b -%>\n2<%- y %><% \x7d %>"

theorem leaves_stand_for_segments_of_branch : ∃ program,
    (Compiler.compile {} branchSource).program = .ok program ∧
      List.Forall₂ Leaf.StandsFor (leavesOfAll program)
        [.text "1", .output .escaped " x ", .text "2", .output .raw " y "] ∧
      (Compiler.compile {} branchSource).escapes = true := by
  have hcompiled : (Compiler.compile {} branchSource).program.toOption.isSome = true := by
    decide +kernel
  have hscan : (scan branchSource).toOption.map (·.filter Segment.isWritten) =
      some [.text "1", .output .escaped " x ", .text "2", .output .raw " y "] := by
    decide +kernel
  obtain ⟨program, hp⟩ := Option.isSome_iff_exists.1 hcompiled
  have hp := Except.toOption_eq_some_iff.1 hp
  obtain ⟨layout, -, hsegments, hleaves, -⟩ := leaves_stand_for_segments hp
  rw [hsegments] at hscan
  have hwritten := Option.some.inj hscan
  exact ⟨program, hp, hwritten ▸ hleaves, by decide +kernel⟩

end StaticSite.Template
