import StaticSite.Proofs.Minify.Literals

/-!
# Gaps between pieces of code

A script is made of pieces of code with blanks and comments between them (`Part`). In its tidy form
(`tidy`) each run of blanks and comments is one newline, if it holds one, or else its blanks with a
space for each comment; the runs at both ends are dropped. Writing the parts one after the other
gives the tidy form (`reverse_out_write`).
-/

namespace StaticSite.Minify

/-! ## Parts -/

/-- A blank or a comment. A comment up to the end of its line has the newline. -/
inductive Filler where
  | blank (c : Char) (h : Text.isBlank c = true := by decide)
  | line (text : List Char) (h : '\n' ∉ text := by decide)
  | block (text : List Char) (h : IsCommentText text := by decide)

namespace Filler

/-- A single blank. -/
def space : Filler :=
  .blank ' ' isBlank_space

/-- The text of a filler. -/
def source : Filler → List Char
  | blank c _ => [c]
  | line text _ => '/' :: '/' :: text ++ ['\n']
  | block text _ => '/' :: '*' :: text ++ ['*', '/']

/-- The blank that a filler counts as. -/
def asBlank : Filler → Char
  | blank c _ => c
  | line _ _ => '\n'
  | block text _ => if '\n' ∈ text then '\n' else ' '

theorem isBlank_asBlank (f : Filler) : Text.isBlank f.asBlank = true := by
  cases f with
  | blank c h => exact h
  | line text h => rfl
  | block text h =>
    show Text.isBlank (if '\n' ∈ text then '\n' else ' ') = true
    split <;> rfl

end Filler

/-- What a script is made of. A piece of code does not end its line. -/
inductive Part where
  | filler (f : Filler)
  | code (text : List Char) (h : ∃ c ∈ text.getLast?, c ≠ '\n')

namespace Part

/-- A piece of code that ends in a character that is no newline. -/
def ending (s : List Char) (c : Char) (h : c ≠ '\n') : Part :=
  .code (s ++ [c]) ⟨c, by simp, h⟩

/-- The text of a part. -/
def source : Part → List Char
  | filler f => f.source
  | code text _ => text

end Part

/-- The text in which parts stand one after the other. -/
def sourceOf (parts : List Part) : List Char :=
  parts.flatMap Part.source

@[simp]
theorem sourceOf_nil : sourceOf [] = [] := rfl

@[simp]
theorem sourceOf_cons (part : Part) (rest : List Part) :
    sourceOf (part :: rest) = part.source ++ sourceOf rest := rfl

@[simp]
theorem sourceOf_append (first second : List Part) :
    sourceOf (first ++ second) = sourceOf first ++ sourceOf second :=
  List.flatMap_append

/-- A comment in the last line, which no newline ends. -/
abbrev LastComment := { text : List Char // '\n' ∉ text }

/-- The text of a comment that no newline ends. -/
def LastComment.source (comment : LastComment) : List Char :=
  '/' :: '/' :: comment.1

/-- What is left of a run of blanks. -/
def squeeze (run : List Char) : List Char :=
  if '\n' ∈ run then ['\n'] else run

theorem isBlank_of_mem_squeeze {run : List Char} (h : ∀ c ∈ run, Text.isBlank c = true) {c : Char}
    (hc : c ∈ squeeze run) : Text.isBlank c = true := by
  unfold squeeze at hc
  split at hc
  · obtain rfl := List.mem_singleton.1 hc
    rfl
  · exact h c hc

theorem squeeze_eq_nil_iff {run : List Char} : squeeze run = [] ↔ run = [] := by
  unfold squeeze
  split
  · rename_i hn
    simpa using List.ne_nil_of_mem hn
  · rfl

/-- The tidy form of parts behind a run of blanks. A run is only written between two pieces of code,
and `behind` says whether there is one before it. -/
def tidyFrom (behind : Bool) (run : List Char) : List Part → List Char
  | [] => []
  | .filler f :: rest => tidyFrom behind (run ++ [f.asBlank]) rest
  | .code text _ :: rest => (if behind then squeeze run else []) ++ text ++ tidyFrom true [] rest

/-- The tidy form of some parts. -/
def tidy (parts : List Part) : List Char :=
  tidyFrom false [] parts

/-! ## Writing -/

namespace Progress

/-- What one part makes of the progress. -/
def writeOne (p : Progress) : Part → Progress
  | .filler f => p.pass f.asBlank
  | .code text _ => p.emit text

/-- Writes parts one after the other. -/
def write (p : Progress) (parts : List Part) : Progress :=
  parts.foldl writeOne p

@[simp]
theorem write_nil (p : Progress) : p.write [] = p := rfl

@[simp]
theorem write_cons (p : Progress) (part : Part) (rest : List Part) :
    p.write (part :: rest) = (p.writeOne part).write rest := rfl

@[simp]
theorem write_append (p : Progress) (first second : List Part) :
    p.write (first ++ second) = (p.write first).write second :=
  List.foldl_append

/-- The same progress at other depths. -/
def withDepths (p : Progress) (depth : Nat) (templates : List Nat) : Progress :=
  { p with depth, templates }

/-- Writing leaves the depths alone and does not look at them. -/
theorem write_withDepths (p : Progress) (depth : Nat) (templates : List Nat) (parts : List Part) :
    (p.withDepths depth templates).write parts = (p.write parts).withDepths depth templates := by
  induction parts generalizing p with
  | nil => rfl
  | cons part rest ih =>
    rw [write_cons, write_cons, ← ih]
    cases part <;> rfl

@[simp]
theorem depth_write (p : Progress) (parts : List Part) : (p.write parts).depth = p.depth := by
  have h := congrArg Progress.depth (write_withDepths p p.depth p.templates parts)
  exact h

@[simp]
theorem templates_write (p : Progress) (parts : List Part) :
    (p.write parts).templates = p.templates := by
  have h := congrArg Progress.templates (write_withDepths p p.depth p.templates parts)
  exact h

end Progress

namespace Gap

/-- The gap after a run of blanks. -/
def ofRun (run : List Char) : Gap :=
  if run = [] then .none else if '\n' ∈ run then .newline else .blanks run

theorem add_ofRun (run : List Char) (c : Char) : (ofRun run).add c = ofRun (run ++ [c]) := by
  unfold ofRun add
  by_cases hc : c = '\n'
  · simp [hc]
  · by_cases hn : run = []
    · simp [hn, hc, Ne.symm hc]
    · by_cases hr : '\n' ∈ run <;> simp [hn, hr, hc, Ne.symm hc]

theorem write_ofRun (run : List Char) {last : Char} (h : last ≠ '\n') (out : List Char) :
    (ofRun run).write (last :: out) = (squeeze run).reverse ++ last :: out := by
  unfold ofRun squeeze write
  by_cases hn : run = []
  · simp [hn]
  · by_cases hr : '\n' ∈ run <;> simp [hn, hr, h]

end Gap

theorem Progress.writeOne_ending (p : Progress) (s : List Char) {c : Char} (h : c ≠ '\n') :
    p.writeOne (.ending s c h) = p.emit (s ++ [c]) := rfl

theorem Progress.emit_emit (p : Progress) (first second : List Char) :
    (p.emit first).emit second = p.emit (first ++ second) := by
  have hnone (out : List Char) : Gap.none.write out = out := by
    cases out with
    | nil => rfl
    | cons c out => simp [Gap.write]
  simp [emit, hnone]

/-- A run of blanks behind the output, which does not end a line. -/
structure Progress.IsBehind (p : Progress) (run : List Char) : Prop where
  gap : p.gap = .ofRun run
  last : p.out.head? ≠ some '\n'

namespace Progress.IsBehind

variable {p : Progress} {run : List Char}

theorem start : start.IsBehind [] :=
  ⟨rfl, nofun⟩

theorem filler (h : p.IsBehind run) (c : Char) : (p.pass c).IsBehind (run ++ [c]) where
  gap := by
    rw [← Gap.add_ofRun, ← h.gap]
    rfl
  last := h.last

theorem out_emit (h : p.IsBehind run) (text : List Char) :
    (p.emit text).out = text.reverse ++
      ((if p.out = [] then [] else squeeze run).reverse ++ p.out) := by
  show text.reverse ++ p.gap.write p.out = _
  rw [h.gap]
  cases hout : p.out with
  | nil => simp [Gap.write]
  | cons last out =>
    have hlast : last ≠ '\n' := fun he => h.last (by rw [hout, he]; rfl)
    simp [Gap.write_ofRun run hlast]

theorem code (h : p.IsBehind run) {text : List Char} (ht : ∃ c ∈ text.getLast?, c ≠ '\n') :
    (p.emit text).IsBehind [] where
  gap := rfl
  last := by
    obtain ⟨c, hc, hne⟩ := ht
    rw [h.out_emit, List.head?_append, List.head?_reverse, Option.mem_def.1 hc]
    exact fun he => hne (Option.some.inj he)

/-- Fillers lengthen the run and leave the output alone. -/
theorem write_fillers (h : p.IsBehind run) (gap : List Filler) :
    (p.write (gap.map .filler)).out = p.out ∧
      (p.write (gap.map .filler)).IsBehind (run ++ gap.map Filler.asBlank) := by
  induction gap generalizing p run with
  | nil => exact ⟨rfl, by simpa using h⟩
  | cons f gap ih =>
    obtain ⟨hout, hbehind⟩ := ih (h.filler f.asBlank)
    refine ⟨hout, ?_⟩
    rw [List.map_cons, List.map_cons, List.append_cons]
    exact hbehind

end Progress.IsBehind

/-- Parts are written in their tidy form. -/
theorem reverse_out_write {p : Progress} {run : List Char} (h : p.IsBehind run)
    (parts : List Part) :
    (p.write parts).out.reverse = p.out.reverse ++ tidyFrom (p.out != []) run parts := by
  induction parts generalizing p run with
  | nil => simp [tidyFrom]
  | cons part rest ih =>
    cases part with
    | filler f => exact ih (h.filler f.asBlank)
    | code text ht =>
      have hbehind : ((p.emit text).out != []) = true := by
        obtain ⟨c, hc, -⟩ := ht
        have htext : text ≠ [] := by
          rintro rfl
          cases hc
        simp [h.out_emit, htext]
      rw [Progress.write_cons, Progress.writeOne, ih (h.code ht), hbehind, h.out_emit, tidyFrom]
      by_cases hout : p.out = [] <;> simp [hout]

end StaticSite.Minify
