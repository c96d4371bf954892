import StaticSite.Proofs.Minify.Nesting

/-!
# Scripts that are minified again

Any script is a sequence of pieces of code with blanks and comments before each, however malformed
it is. A piece is read again where other text stands behind it, as long as that begins alike
(`Progress.exists_reads`). So what is written from a place on is written again when it is minified
(`writesItself`), and minifying a script again changes nothing (`script_again`).
-/

namespace StaticSite.Minify

/-- Whether the output has begun and does not end a line, by its last character. Only then a gap is
written. -/
def IsInLine (last : Option Char) : Prop :=
  ∃ c ∈ last, c ≠ '\n'

instance (last : Option Char) : Decidable (IsInLine last) :=
  inferInstanceAs (Decidable (∃ c ∈ last, c ≠ '\n'))

/-- What may stand behind the output in the place of `rest`. -/
structure MayReplace (last : Option Char) (rest other : List Char) : Prop where
  nil : rest = [] → other = []
  first : IsInLine last → ∀ c ∈ other.head?, Text.isBlank c = true ∨ rest.head? = some c
  newline : IsInLine last → rest.head? = some '\n' → ∀ c ∈ other.head?, c = '\n'

namespace MayReplace

variable {last : Option Char} {rest other : List Char}

theorem refl (last : Option Char) (rest : List Char) : MayReplace last rest rest :=
  ⟨id, fun _ _ hc => .inr hc, fun _ hn _ hc => Option.some.inj (hc.symm.trans hn)⟩

theorem nothing (last : Option Char) (rest : List Char) : MayReplace last rest [] :=
  ⟨fun _ => rfl, nofun, nofun⟩

/-- A comment counts as blank. -/
theorem comment {run behind r : List Char} (h : MayReplace last (run ++ behind) other)
    (hb : ∀ c ∈ behind.head?, Text.isBlank c = true) : MayReplace last (run ++ '/' :: r) other := by
  cases run with
  | nil =>
    refine ⟨nofun, fun hl c hc => .inl ?_, nofun⟩
    exact (h.first hl c hc).elim id (hb c)
  | cons d run => exact ⟨nofun, h.first, h.newline⟩

/-- No comment begins where none began. -/
theorem isNoComment {c : Char} {text : List Char} (h : MayReplace last rest other)
    (hl : IsInLine last) (hc : IsNoComment c (text ++ rest)) : IsNoComment c (text ++ other) := by
  have head {d : Char} (hd : Text.isBlank d = false) (hrest : (text ++ rest).head? ≠ some d) :
      (text ++ other).head? ≠ some d := by
    cases text with
    | nil =>
      intro he
      rcases h.first hl d he with hb | hb
      · simp [hd] at hb
      · exact hrest hb
    | cons e text => exact hrest
  exact ⟨fun hs => head rfl (hc.line hs), fun hs => head rfl (hc.block hs)⟩

end MayReplace

/-! ## Readers -/

section Readers

variable {s other : List Char}

theorem splitString_replace {quote : Char} (h : (splitString quote s).2 = [] → other = []) :
    splitString quote ((splitString quote s).1 ++ other) = ((splitString quote s).1, other) := by
  fun_induction splitString quote s with
  | case1 | case2 =>
    rw [h rfl]
    rfl
  | case3 c r ih => simp [splitString, ih h]
  | case4 c r hlast hpair hc => simp [splitString, ne_backslash hlast hpair, hc]
  | case5 c r hlast hpair hc ih => simp [splitString, ne_backslash hlast hpair, hc, ih h]

theorem head?_splitTemplate (s : List Char) : (splitTemplate s).1.head? = s.head? := by
  fun_cases splitTemplate s <;> rfl

theorem splitTemplate_replace (h : (splitTemplate s).2.2 = [] → other = []) :
    splitTemplate ((splitTemplate s).1 ++ other) =
      ((splitTemplate s).1, (splitTemplate s).2.1, other) := by
  fun_induction splitTemplate s with
  | case1 | case2 =>
    rw [h rfl]
    rfl
  | case3 c r ih => simp [splitTemplate, ih h]
  | case4 r => simp [splitTemplate]
  | case5 r hlast hpair hopens => simp [splitTemplate]
  | case6 c r hlast hpair hopens hc ih =>
    have hnone : c = '$' → ((splitTemplate r).1 ++ other).head? ≠ some '\x7b' := by
      intro hdollar he
      rw [List.head?_append, head?_splitTemplate] at he
      cases r with
      | nil =>
        rw [h rfl] at he
        cases he
      | cons d r =>
        obtain rfl := Option.some.inj he
        exact hopens r hdollar rfl
    rw [List.cons_append, splitTemplate_cons (ne_backslash hlast hpair) hc hnone, ih h]

theorem newline_notMem_splitRegex (inClass : Bool) (s : List Char) :
    '\n' ∉ (splitRegex inClass s).1 := by
  fun_induction splitRegex inClass s with
  | case1 | case4 => exact List.not_mem_nil
  | case2 => simp
  | case3 inClass c r hc ih => simp [ih, Ne.symm hc]
  | case5 inClass c r hpair hc hslash => simp [Ne.symm hc]
  | case6 inClass c r hpair hc hslash next ih => simp [ih, Ne.symm hc]

theorem splitRegex_cons {inClass : Bool} {c : Char} {s : List Char} (hback : c ≠ '\\')
    (hline : c ≠ '\n') (hslash : ¬ (c = '/' ∧ (!inClass) = true)) :
    splitRegex inClass (c :: s) =
      (c :: (splitRegex (if c = '[' then true else if c = ']' then false else inClass) s).1,
        (splitRegex (if c = '[' then true else if c = ']' then false else inClass) s).2) := by
  rw [splitRegex, if_neg hline, if_neg hslash]
  exact fun _ _ he => absurd he hback

theorem splitRegex_replace {inClass : Bool} (h : (splitRegex inClass s).2 = [] → other = [])
    (hline : (splitRegex inClass s).2.head? = some '\n' → ∀ c ∈ other.head?, c = '\n') :
    splitRegex inClass ((splitRegex inClass s).1 ++ other) = ((splitRegex inClass s).1, other) := by
  fun_induction splitRegex inClass s with
  | case1 =>
    rw [h rfl]
    rfl
  | case2 inClass r =>
    cases other with
    | nil => simp [splitRegex]
    | cons d other =>
      obtain rfl := hline rfl d rfl
      simp [splitRegex]
  | case3 inClass c r hc ih => simp [splitRegex, hc, ih h hline]
  | case4 inClass r =>
    cases other with
    | nil => rfl
    | cons d other =>
      obtain rfl := hline rfl d rfl
      simp [splitRegex]
  | case5 inClass c r hpair hc hslash =>
    obtain ⟨rfl, hclass⟩ := hslash
    simp [splitRegex, hclass]
  | case6 inClass c r hpair hc hslash next ih =>
    by_cases hback : c = '\\'
    · cases r with
      | nil =>
        rw [h rfl]
        subst hback
        simp [splitRegex]
      | cons d r => exact absurd rfl (hpair d r hback)
    · rw [List.cons_append, splitRegex_cons hback hc hslash, ih h hline]

end Readers

/-! ## Pieces of code -/

section Steps

variable (p : Progress) (rest : List Char)

theorem scriptFrom_quote {quote : Char} (hq : isQuote quote = true) :
    scriptFrom p (quote :: rest) =
      scriptFrom (p.emit (quote :: (splitString quote rest).1)) (splitString quote rest).2 := by
  rw [scriptFrom_cons p _ (isNoComment_of_ne (ne_of_isQuote hq rfl) _),
    if_neg (Bool.eq_false_iff.1 (notBlank_of_isQuote hq)), if_pos (isQuote_cases hq)]

theorem scriptFrom_operand (h : IsNoComment '/' rest) (ho : opensRegex p.out = true) :
    scriptFrom p ('/' :: rest) =
      scriptFrom (p.emit ('/' :: (splitRegex false rest).1)) (splitRegex false rest).2 := by
  rw [scriptFrom_cons p _ h, if_neg (by decide), if_neg (by decide), if_neg (by decide),
    if_pos ⟨rfl, ho⟩]

theorem scriptFrom_division (h : IsNoComment '/' rest) (ho : ¬ opensRegex p.out = true) :
    scriptFrom p ('/' :: rest) = scriptFrom (p.emit ['/']) rest := by
  rw [scriptFrom_cons p _ h, if_neg (by decide), if_neg (by decide), if_neg (by decide),
    if_neg fun h => ho h.2, if_neg (by decide), if_neg (by decide)]

theorem scriptFrom_close_template (h : p.templates.head? = some (p.depth - 1)) :
    scriptFrom p ('\x7d' :: rest) =
      (p.withDepths (p.depth - 1) p.templates.tail).inTemplate '\x7d' rest := by
  have hemit := Progress.emitTemplate_emit (p.withDepths (p.depth - 1) p.templates.tail) ['\x7d']
    (splitTemplate rest).1 (splitTemplate rest).2.1
  rw [scriptFrom_close, if_pos h]
  exact congrArg (scriptFrom · (splitTemplate rest).2.2) hemit

end Steps

namespace Progress

/-- The same progress behind another gap. -/
def withGap (p : Progress) (gap : Gap) : Progress :=
  { p with gap }

theorem emit_withGap (p : Progress) (gap : Gap) (text : List Char) (depth : Nat)
    (templates : List Nat) :
    ((p.withGap gap).emit text).withDepths depth templates =
      ⟨text.reverse ++ gap.write p.out, .none, depth, templates⟩ := rfl

/-- The depths behind a text of a template that opens a substitution or not. -/
def depthBehind (p : Progress) (opens : Bool) : Nat :=
  if opens then p.depth + 1 else p.depth

/-- The depths at which templates go on, behind a text of a template that opens a substitution or
not. -/
def templatesBehind (p : Progress) (opens : Bool) : List Nat :=
  if opens then p.depth :: p.templates else p.templates

theorem inTemplate_replace (p : Progress) (mark : Char) {s other : List Char}
    (h : (splitTemplate s).2.2 = [] → other = []) :
    p.inTemplate mark ((splitTemplate s).1 ++ other) =
      scriptFrom
        ((p.emit (mark :: (splitTemplate s).1)).withDepths (p.depthBehind (splitTemplate s).2.1)
        (p.templatesBehind (splitTemplate s).2.1)) other := by
  rw [inTemplate, splitTemplate_replace h]
  cases hopens : (splitTemplate s).2.1 <;> rfl

end Progress

theorem isInLine_of_notMem {c : Char} (hc : c ≠ '\n') {text : List Char} (h : '\n' ∉ text) :
    IsInLine (c :: text).getLast? := by
  refine ⟨_, List.getLast?_eq_some_getLast (List.cons_ne_nil c text), fun he => ?_⟩
  have hmem := List.getLast_mem (List.cons_ne_nil c text)
  rw [he] at hmem
  exact (List.mem_cons.1 hmem).elim (Ne.symm hc) h

/-- A piece of code is read at the cursor, also where another text may stand behind it, and whatever
gap is before it. -/
def Progress.Reads (p : Progress) (text rest : List Char) : Prop :=
  ∃ depth templates, ∀ gap other, MayReplace text.getLast? rest other →
    scriptFrom (p.withGap gap) (text ++ other) =
      scriptFrom (((p.withGap gap).emit text).withDepths depth templates) other

namespace Progress

variable (p : Progress) (r : List Char)

theorem reads_string {quote : Char} (hq : isQuote quote = true) :
    p.Reads (quote :: (splitString quote r).1) (splitString quote r).2 := by
  refine ⟨p.depth, p.templates, fun gap other h => ?_⟩
  rw [List.cons_append, scriptFrom_quote _ _ hq, splitString_replace h.nil]
  rfl

theorem reads_template : p.Reads ('\x60' :: (splitTemplate r).1) (splitTemplate r).2.2 := by
  refine ⟨p.depthBehind (splitTemplate r).2.1, p.templatesBehind (splitTemplate r).2.1,
    fun gap other h => ?_⟩
  rw [List.cons_append, scriptFrom_backtick]
  exact (p.withGap gap).inTemplate_replace '\x60' h.nil

theorem reads_regex (h : IsNoComment '/' r) (ho : opensRegex p.out = true) :
    p.Reads ('/' :: (splitRegex false r).1) (splitRegex false r).2 := by
  refine ⟨p.depth, p.templates, fun gap other hr => ?_⟩
  have hl := isInLine_of_notMem (c := '/') (by decide) (newline_notMem_splitRegex false r)
  rw [← splitRegex_append false r] at h
  rw [List.cons_append, scriptFrom_operand (p.withGap gap) _ (hr.isNoComment hl h) ho,
    splitRegex_replace hr.nil (hr.newline hl)]
  rfl

theorem reads_division (h : IsNoComment '/' r) (ho : ¬ opensRegex p.out = true) :
    p.Reads ['/'] r := by
  refine ⟨p.depth, p.templates, fun gap other hr => ?_⟩
  have hl : IsInLine ['/'].getLast? := ⟨'/', rfl, by decide⟩
  have hno : IsNoComment '/' other := hr.isNoComment hl (List.nil_append r ▸ h)
  exact scriptFrom_division (p.withGap gap) other hno ho

theorem reads_open : p.Reads ['\x7b'] r :=
  ⟨p.depth + 1, p.templates, fun gap other _ => scriptFrom_open (p.withGap gap) other⟩

/-- A closing brace, with the template that goes on behind it. -/
theorem exists_reads_close : ∃ text rest, r = text ++ rest ∧ p.Reads ('\x7d' :: text) rest := by
  by_cases h : p.templates.head? = some (p.depth - 1)
  · refine ⟨(splitTemplate r).1, (splitTemplate r).2.2, (splitTemplate_append r).symm, ?_⟩
    let q := p.withDepths (p.depth - 1) p.templates.tail
    refine ⟨q.depthBehind (splitTemplate r).2.1, q.templatesBehind (splitTemplate r).2.1, ?_⟩
    intro gap other hr
    rw [List.cons_append, scriptFrom_close_template (p.withGap gap) _ h]
    exact (q.withGap gap).inTemplate_replace '\x7d' hr.nil
  · refine ⟨[], r, rfl, p.depth - 1, p.templates, fun gap other _ => ?_⟩
    exact (scriptFrom_close (p.withGap gap) other).trans (if_neg h)

theorem reads_code {c : Char} (h : isCode c = true) (ho : c ≠ '\x7b') (hc : c ≠ '\x7d') :
    p.Reads [c] r :=
  ⟨p.depth, p.templates, fun gap other _ => scriptFrom_code (p.withGap gap) other h ho hc⟩

/-- At a character of code a piece of code is read. -/
theorem exists_reads {c : Char} {r : List Char} (hblank : Text.isBlank c = false)
    (h : IsNoComment c r) :
    ∃ text rest, r = text ++ rest ∧ p.Reads (c :: text) rest := by
  by_cases hquote : isQuote c = true
  · exact ⟨_, _, (splitString_append c r).symm, p.reads_string r hquote⟩
  by_cases htick : c = '\x60'
  · subst htick
    exact ⟨_, _, (splitTemplate_append r).symm, p.reads_template r⟩
  by_cases hslash : c = '/'
  · subst hslash
    by_cases ho : opensRegex p.out = true
    · exact ⟨_, _, (splitRegex_append false r).symm, p.reads_regex r h ho⟩
    · exact ⟨[], r, rfl, p.reads_division r h ho⟩
  by_cases hopen : c = '\x7b'
  · subst hopen
    exact ⟨[], r, rfl, p.reads_open r⟩
  by_cases hclose : c = '\x7d'
  · subst hclose
    exact p.exists_reads_close r
  · have hcode := isCode_iff.2 ⟨hblank, by simpa [isQuote] using hquote, htick, hslash⟩
    exact ⟨[], r, rfl, p.reads_code r hcode hopen hclose⟩

end Progress

/-! ## Minifying again -/

theorem scriptFrom_blanks {run : List Char} (h : ∀ c ∈ run, Text.isBlank c = true) (p : Progress)
    (before rest : List Char) :
    scriptFrom (p.withGap (.ofRun before)) (run ++ rest) =
      scriptFrom (p.withGap (.ofRun (before ++ run))) rest := by
  induction run generalizing before with
  | nil => rw [List.nil_append, List.append_nil]
  | cons c run ih =>
    have hpass : (p.withGap (.ofRun before)).pass c = p.withGap (.ofRun (before ++ [c])) :=
      congrArg p.withGap (Gap.add_ofRun before c)
    have hrun := ih (fun d hd => h d (List.mem_cons_of_mem c hd)) (before ++ [c])
    rw [List.append_assoc, List.singleton_append] at hrun
    rw [List.cons_append, scriptFrom_blank _ _ (h c List.mem_cons_self), hpass, hrun]

/-- What is written of a run of blanks. -/
def written (out run : List Char) : List Char :=
  if IsInLine out.head? then squeeze run else []

theorem write_ofRun_eq (run out : List Char) :
    (Gap.ofRun run).write out = (written out run).reverse ++ out := by
  unfold written
  cases out with
  | nil =>
    rw [if_neg fun hl => hl.elim fun c hc => nomatch hc.1]
    rfl
  | cons last out =>
    by_cases h : last = '\n'
    · subst h
      rw [if_neg fun hl => hl.elim fun c hc => hc.2 (Option.some.inj hc.1).symm]
      rfl
    · rw [if_pos ⟨last, rfl, h⟩, Gap.write_ofRun run h]

theorem squeeze_squeeze (run : List Char) : squeeze (squeeze run) = squeeze run := by
  by_cases h : '\n' ∈ run
  · simp [squeeze, h]
  · simp [squeeze, h]

theorem written_written (out run : List Char) :
    written out (written out run) = written out run := by
  unfold written
  split
  · exact squeeze_squeeze run
  · rfl

theorem isBlank_of_mem_written {out run : List Char} (h : ∀ c ∈ run, Text.isBlank c = true)
    {c : Char} (hc : c ∈ written out run) : Text.isBlank c = true := by
  unfold written at hc
  split at hc
  · exact isBlank_of_mem_squeeze h hc
  · cases hc

/-- What is written at a piece of code may stand in the place of the piece and the run before it. -/
theorem mayReplace_written {out run : List Char} (h : ∀ c ∈ run, Text.isBlank c = true) (c : Char)
    (first second : List Char) :
    MayReplace out.head? (run ++ c :: first) (written out run ++ c :: second) := by
  have shown (hl : IsInLine out.head?) : written out run = squeeze run := if_pos hl
  cases run with
  | nil =>
    refine ⟨nofun, fun hl d hd => ?_, fun hl hn d hd => ?_⟩
    all_goals
      rw [shown hl] at hd
      obtain rfl := Option.some.inj hd
    · exact .inr rfl
    · exact Option.some.inj hn
  | cons e run =>
    have hne : squeeze (e :: run) ≠ [] := mt squeeze_eq_nil_iff.1 (List.cons_ne_nil e run)
    obtain ⟨f, more, hf⟩ := List.exists_cons_of_ne_nil hne
    refine ⟨nofun, fun hl d hd => .inl ?_, fun hl hn d hd => ?_⟩
    all_goals
      rw [shown hl, hf] at hd
      obtain rfl := Option.some.inj hd
    · exact isBlank_of_mem_squeeze h (hf ▸ List.mem_cons_self)
    · obtain rfl := Option.some.inj hn
      rw [squeeze, if_pos List.mem_cons_self] at hf
      exact (List.cons.inj hf).1.symm

theorem comment_or_isNoComment (c : Char) (r : List Char) :
    (∃ t, c = '/' ∧ r = '/' :: t) ∨ (∃ t, c = '/' ∧ r = '*' :: t) ∨ IsNoComment c r := by
  by_cases hline : c = '/' ∧ r.head? = some '/'
  · obtain ⟨t, ht⟩ := List.head?_eq_some_iff.1 hline.2
    exact .inl ⟨t, hline.1, ht⟩
  · by_cases hblock : c = '/' ∧ r.head? = some '*'
    · obtain ⟨t, ht⟩ := List.head?_eq_some_iff.1 hblock.2
      exact .inr (.inl ⟨t, hblock.1, ht⟩)
    · exact .inr (.inr ⟨fun hc hr => hline ⟨hc, hr⟩, fun hc hr => hblock ⟨hc, hr⟩⟩)

/-- What is written from a place on, where a run of blanks was passed, is written again from
there. -/
def WritesItself (p : Progress) (run s : List Char) : Prop :=
  ∃ text, (scriptFrom (p.withGap (.ofRun run)) s).out = text.reverse ++ p.out ∧
    (scriptFrom (p.withGap .none) text).out = text.reverse ++ p.out ∧
      MayReplace p.out.head? (run ++ s) text

namespace WritesItself

variable {p : Progress} {run : List Char}

theorem nil : WritesItself p run [] := by
  refine ⟨[], ?_, ?_, .nothing _ _⟩
  · rw [scriptFrom_nil]
    rfl
  · rw [scriptFrom_nil]
    rfl

theorem pass_withGap (c : Char) :
    (p.withGap (.ofRun run)).pass c = p.withGap (.ofRun (run ++ [c])) :=
  congrArg p.withGap (Gap.add_ofRun run c)

theorem blank {c : Char} {r : List Char} (hc : Text.isBlank c = true)
    (h : WritesItself p (run ++ [c]) r) : WritesItself p run (c :: r) := by
  obtain ⟨text, hfirst, hsecond, hreplace⟩ := h
  rw [List.append_assoc] at hreplace
  refine ⟨text, ?_, hsecond, hreplace⟩
  rw [scriptFrom_blank _ _ hc, pass_withGap, hfirst]

theorem line {r : List Char} (h : WritesItself p run (r.dropWhile (· != '\n'))) :
    WritesItself p run ('/' :: '/' :: r) := by
  obtain ⟨text, hfirst, hsecond, hreplace⟩ := h
  refine ⟨text, ?_, hsecond, hreplace.comment fun c hc => ?_⟩
  · rw [scriptFrom_slash, hfirst]
  · have hline := List.head?_dropWhile_not (· != '\n') r
    rw [Option.mem_def.1 hc] at hline
    obtain rfl : c = '\n' := by simpa using hline
    rfl

theorem block {r : List Char}
    (h : WritesItself p (run ++ [if '\n' ∈ (splitComment r).1 then '\n' else ' '])
      (splitComment r).2) :
    WritesItself p run ('/' :: '*' :: r) := by
  obtain ⟨text, hfirst, hsecond, hreplace⟩ := h
  rw [List.append_assoc] at hreplace
  refine ⟨text, ?_, hsecond, hreplace.comment fun c hc => ?_⟩
  · rw [scriptFrom_star, pass_withGap, hfirst]
  · obtain rfl := Option.some.inj hc
    split <;> rfl

/-- A piece of code, with what is written of the blanks before it. -/
theorem code {c : Char} {t rest : List Char} (hrun : ∀ d ∈ run, Text.isBlank d = true)
    (hreads : p.Reads (c :: t) rest) (h : ∀ q, WritesItself q [] rest) :
    WritesItself p run (c :: t ++ rest) := by
  obtain ⟨depth, templates, hreads⟩ := hreads
  let q : Progress :=
    ⟨(c :: t).reverse ++ ((written p.out run).reverse ++ p.out), .none, depth, templates⟩
  have hemit : ((p.withGap (.ofRun run)).emit (c :: t)).withDepths depth templates = q := by
    rw [Progress.emit_withGap, write_ofRun_eq]
  have hagain :
      ((p.withGap (.ofRun (written p.out run))).emit (c :: t)).withDepths depth templates = q := by
    rw [Progress.emit_withGap, write_ofRun_eq, written_written]
  obtain ⟨text, hfirst, hsecond, hreplace⟩ := h q
  have hout : q.out = (c :: t).reverse ++ ((written p.out run).reverse ++ p.out) := rfl
  have hlast : q.out.head? = (c :: t).getLast? := by
    rw [hout, List.head?_append, List.head?_reverse]
    simp [List.getLast?_cons]
  rw [hlast, List.nil_append] at hreplace
  have hwritten : ∀ d ∈ written p.out run, Text.isBlank d = true :=
    fun d hd => isBlank_of_mem_written hrun hd
  have htext : (written p.out run ++ (c :: t ++ text)).reverse ++ p.out =
      text.reverse ++ q.out := by
    rw [hout, List.reverse_append, List.reverse_append, List.append_assoc, List.append_assoc]
  refine ⟨written p.out run ++ (c :: t ++ text), ?_, ?_, mayReplace_written hrun c _ _⟩
  · rw [htext, hreads (.ofRun run) rest (.refl _ _), hemit]
    exact hfirst
  · rw [htext, show Gap.none = .ofRun [] from rfl, scriptFrom_blanks hwritten, List.nil_append,
      hreads _ text hreplace, hagain]
    exact hsecond

end WritesItself

theorem writesItself (p : Progress) {run : List Char} (hrun : ∀ c ∈ run, Text.isBlank c = true)
    (s : List Char) : WritesItself p run s := by
  induction hn : s.length using Nat.strongRecOn generalizing p run s with
  | ind n ih =>
    have shorter {t : List Char} (ht : t.length < s.length) (q : Progress) {gap : List Char}
        (hgap : ∀ c ∈ gap, Text.isBlank c = true) : WritesItself q gap t :=
      ih t.length (hn ▸ ht) q hgap t rfl
    have hconcat {c : Char} (hc : Text.isBlank c = true) :
        ∀ d ∈ run ++ [c], Text.isBlank d = true := by
      simpa [or_imp, forall_and] using And.intro hrun hc
    cases s with
    | nil => exact .nil
    | cons c r =>
      rcases comment_or_isNoComment c r with ⟨t, rfl, rfl⟩ | ⟨t, rfl, rfl⟩ | hno
      · have hlength := (List.dropWhile_sublist (· != '\n') (l := t)).length_le
        exact .line (shorter (by simp only [List.length_cons]; omega) p hrun)
      · have hlength := splitComment_length t
        refine .block (shorter (by simp only [List.length_cons]; omega) p (hconcat ?_))
        split <;> rfl
      · by_cases hblank : Text.isBlank c = true
        · exact .blank hblank (shorter (Nat.lt_succ_self _) p (hconcat hblank))
        · obtain ⟨t, rest, rfl, hreads⟩ := p.exists_reads (Bool.eq_false_iff.2 hblank) hno
          refine .code hrun hreads fun q => shorter ?_ q nofun
          simp only [List.length_cons, List.length_append]
          omega

/-- Minifying a script again changes nothing, whether it is well-formed or not. -/
theorem script_again (s : String) : script (script s) = script s := by
  have hnone : ∀ c ∈ [], Text.isBlank c = true := nofun
  obtain ⟨text, hfirst, hsecond, -⟩ := writesItself .start hnone s.toList
  have hstart : Progress.start.out = [] := rfl
  rw [hstart, List.append_nil] at hfirst hsecond
  have hscript : script s = String.ofList text := by
    rw [← List.reverse_reverse text, ← hfirst]
    rfl
  rw [hscript, script, String.toList_ofList]
  refine (congrArg (String.ofList ·.reverse) hsecond).trans ?_
  rw [List.reverse_reverse]

end StaticSite.Minify
