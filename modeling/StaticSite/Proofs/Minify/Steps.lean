import StaticSite.Proofs.Minify.Gaps

/-!
# Steps of a script

What minifying does with each kind of piece that a script may go on with: a blank, a comment, a
literal, a brace, or another character of code.
-/

namespace StaticSite.Minify

/-- The characters that code has outside literals and comments. -/
def isCode (c : Char) : Bool :=
  !Text.isBlank c && c != '"' && c != '\'' && c != '\x60' && c != '/'

section Characters

variable {c : Char}

theorem isCode_iff : isCode c = true ↔
    Text.isBlank c = false ∧ ¬ (c = '"' ∨ c = '\'') ∧ c ≠ '\x60' ∧ c ≠ '/' := by
  simp [isCode, and_assoc, not_or]

theorem ne_newline_of_notBlank (h : Text.isBlank c = false) : c ≠ '\n' := by
  rintro rfl
  cases h

end Characters

variable (p : Progress) (rest : List Char)

/-- What stands at the cursor is no comment. -/
structure IsNoComment (c : Char) (rest : List Char) : Prop where
  line : c = '/' → rest.head? ≠ some '/'
  block : c = '/' → rest.head? ≠ some '*'

theorem isNoComment_of_ne {c : Char} (h : c ≠ '/') (rest : List Char) : IsNoComment c rest :=
  ⟨fun hc => absurd hc h, fun hc => absurd hc h⟩

theorem scriptFrom_nil : scriptFrom p [] = p := by
  rw [scriptFrom.eq_def]

theorem scriptFrom_slash :
    scriptFrom p ('/' :: '/' :: rest) = scriptFrom p (rest.dropWhile (· != '\n')) := by
  rw [scriptFrom.eq_def]
  rfl

theorem scriptFrom_star :
    scriptFrom p ('/' :: '*' :: rest) =
      scriptFrom (p.pass (if '\n' ∈ (splitComment rest).1 then '\n' else ' '))
        (splitComment rest).2 := by
  rw [scriptFrom.eq_def]
  rfl

/-- The step at a character at which no comment starts. -/
theorem scriptFrom_cons {c : Char} (h : IsNoComment c rest) :
    scriptFrom p (c :: rest) =
      if Text.isBlank c then scriptFrom (p.pass c) rest
      else if c = '"' ∨ c = '\'' then
        scriptFrom (p.emit (c :: (splitString c rest).1)) (splitString c rest).2
      else if c = '\x60' then
        scriptFrom (p.emitTemplate (c :: (splitTemplate rest).1) (splitTemplate rest).2.1)
          (splitTemplate rest).2.2
      else if c = '/' ∧ opensRegex p.out then
        scriptFrom (p.emit (c :: (splitRegex false rest).1)) (splitRegex false rest).2
      else if c = '\x7b' then scriptFrom { p.emit [c] with depth := p.depth + 1 } rest
      else if c = '\x7d' then
        let q := { p.emit [c] with depth := p.depth - 1 }
        if q.templates.head? = some q.depth then
          scriptFrom
            ({ q with templates := q.templates.tail }.emitTemplate (splitTemplate rest).1
              (splitTemplate rest).2.1)
            (splitTemplate rest).2.2
        else scriptFrom q rest
      else scriptFrom (p.emit [c]) rest := by
  rw [scriptFrom.eq_def]
  split
  · rename_i hnil
    cases hnil
  · rename_i hcons
    cases hcons
    exact absurd rfl (h.line rfl)
  · rename_i hcons
    cases hcons
    exact absurd rfl (h.block rfl)
  · rename_i hcons
    cases hcons
    rfl

/-! ## Fillers -/

theorem scriptFrom_blank {c : Char} (h : Text.isBlank c = true) :
    scriptFrom p (c :: rest) = scriptFrom (p.pass c) rest := by
  have hslash : c ≠ '/' := by
    rintro rfl
    cases h
  rw [scriptFrom_cons p rest (isNoComment_of_ne hslash rest), if_pos h]

theorem dropWhile_line {text : List Char} (h : '\n' ∉ text) :
    (text ++ rest).dropWhile (· != '\n') = rest.dropWhile (· != '\n') :=
  List.dropWhile_append_of_pos fun _ hc => bne_iff_ne.2 (ne_of_mem_of_not_mem hc h)

theorem scriptFrom_line {text : List Char} (h : '\n' ∉ text) :
    scriptFrom p ('/' :: '/' :: text ++ '\n' :: rest) = scriptFrom (p.pass '\n') rest := by
  rw [List.cons_append, List.cons_append, scriptFrom_slash, dropWhile_line _ h]
  exact scriptFrom_blank p rest rfl

theorem scriptFrom_block {text : List Char} (h : IsCommentText text) :
    scriptFrom p ('/' :: '*' :: text ++ '*' :: '/' :: rest) =
      scriptFrom (p.pass (if '\n' ∈ text then '\n' else ' ')) rest := by
  rw [List.cons_append, List.cons_append, scriptFrom_star, splitComment_append_end h]
  simp

theorem scriptFrom_filler (f : Filler) :
    scriptFrom p (f.source ++ rest) = scriptFrom (p.pass f.asBlank) rest := by
  cases f with
  | blank c h => exact scriptFrom_blank p rest h
  | line text h => simpa [Filler.source, Filler.asBlank] using scriptFrom_line p rest h
  | block text h => simpa [Filler.source, Filler.asBlank] using scriptFrom_block p rest h

theorem scriptFrom_fillers (gap : List Filler) :
    scriptFrom p (sourceOf (gap.map .filler) ++ rest) =
      scriptFrom (p.write (gap.map .filler)) rest := by
  induction gap generalizing p with
  | nil => rfl
  | cons f gap ih =>
    rw [List.map_cons, sourceOf_cons, List.append_assoc]
    exact (scriptFrom_filler p _ f).trans (ih _)

/-- At most a comment is left, which no newline ends. -/
theorem scriptFrom_lastComment (comment : Option LastComment) :
    scriptFrom p ((comment.map LastComment.source).getD []) = p := by
  cases comment with
  | none => exact scriptFrom_nil p
  | some comment =>
    have hskip := dropWhile_line [] comment.2
    rw [List.append_nil] at hskip
    show scriptFrom p ('/' :: '/' :: comment.1) = p
    rw [scriptFrom_slash, hskip, List.dropWhile_nil, scriptFrom_nil]

/-! ## Literals -/

theorem scriptFrom_string {quote : Char} (hq : isQuote quote = true) {text : List Char}
    (h : isStringText quote text = true) :
    scriptFrom p (quote :: text ++ quote :: rest) =
      scriptFrom (p.emit (quote :: text ++ [quote])) rest := by
  have hblank := Bool.eq_false_iff.1 (notBlank_of_isQuote hq)
  rw [List.cons_append, scriptFrom_cons p _ (isNoComment_of_ne (ne_of_isQuote hq rfl) _),
    if_neg hblank, if_pos (isQuote_cases hq), splitString_append_quote hq h]
  rfl

theorem isNoComment_of_startsRegex {text : List Char} (h : startsRegex text = true) :
    IsNoComment '/' (text ++ rest) := by
  cases text with
  | nil => cases h
  | cons c text =>
    simp only [startsRegex, Bool.and_eq_true, bne_iff_ne] at h
    exact ⟨fun _ he => h.1 (Option.some.inj he), fun _ he => h.2 (Option.some.inj he)⟩

theorem scriptFrom_regex (ho : opensRegex p.out = true) {text : List Char}
    (h : isRegexText false text = true) (hs : startsRegex text = true) :
    scriptFrom p ('/' :: text ++ '/' :: rest) =
      scriptFrom (p.emit ('/' :: text ++ ['/'])) rest := by
  rw [List.cons_append, scriptFrom_cons p _ (isNoComment_of_startsRegex _ hs), if_neg (by decide),
    if_neg (by decide), if_neg (by decide), if_pos ⟨rfl, ho⟩, splitRegex_append_slash h]
  rfl

/-! ## Code -/

theorem scriptFrom_open :
    scriptFrom p ('\x7b' :: rest) =
      scriptFrom ((p.emit ['\x7b']).withDepths (p.depth + 1) p.templates) rest := by
  rw [scriptFrom_cons p _ (isNoComment_of_ne (by decide) _), if_neg (by decide), if_neg (by decide),
    if_neg (by decide), if_neg fun h => absurd h.1 (by decide), if_pos rfl]
  rfl

/-- A closing brace. It goes back to a template if it ends the substitution. -/
theorem scriptFrom_close :
    scriptFrom p ('\x7d' :: rest) =
      if p.templates.head? = some (p.depth - 1) then
        scriptFrom
          (((p.emit ['\x7d']).withDepths (p.depth - 1) p.templates.tail).emitTemplate
            (splitTemplate rest).1 (splitTemplate rest).2.1)
          (splitTemplate rest).2.2
      else scriptFrom ((p.emit ['\x7d']).withDepths (p.depth - 1) p.templates) rest := by
  rw [scriptFrom_cons p _ (isNoComment_of_ne (by decide) _), if_neg (by decide), if_neg (by decide),
    if_neg (by decide), if_neg fun h => absurd h.1 (by decide), if_neg (by decide), if_pos rfl]
  rfl

theorem scriptFrom_code {c : Char} (h : isCode c = true) (ho : c ≠ '\x7b') (hc : c ≠ '\x7d') :
    scriptFrom p (c :: rest) = scriptFrom (p.emit [c]) rest := by
  obtain ⟨hblank, hquote, htick, hslash⟩ := isCode_iff.1 h
  rw [scriptFrom_cons p _ (isNoComment_of_ne hslash _), if_neg (Bool.eq_false_iff.1 hblank),
    if_neg hquote, if_neg htick, if_neg fun h => hslash h.1, if_neg ho, if_neg hc]

/-! ## Results -/

/-- A script that is written part by part is minified to their tidy form. -/
theorem script_of_write {source : List Char} {parts : List Part} {depth : Nat}
    {templates : List Nat}
    (h : scriptFrom .start source = (Progress.start.write parts).withDepths depth templates) :
    script (String.ofList source) = String.ofList (tidy parts) := by
  rw [script, String.toList_ofList, h]
  exact congrArg String.ofList (reverse_out_write Progress.IsBehind.start parts)

end StaticSite.Minify
