import StaticSite.Proofs.Minify.Steps

/-!
# Nested templates

A script is a tree: braces hold items, and a template holds items in each of its substitutions
(`ScriptItem`). The depth of open braces and the depths at which templates go on are the same behind
an item as before it, so reading the items writes their parts (`scriptFrom_partsAll`). So minifying
a script gives its tidy form (`script_source`).
-/

namespace StaticSite.Minify

/-! ## Trees -/

/-- A text of a template between its ends and its substitutions. -/
abbrev TemplateText := { text : List Char // isTemplateText text = true }

/-- A template is a first text, and the substitutions with a text behind each. -/
inductive ScriptItem where
  | filler (f : Filler)
  | code (c : Char) (h : isCode c = true := by decide) (ho : c ≠ '\x7b' := by decide)
    (hc : c ≠ '\x7d' := by decide)
  | string (quote : Char) (text : List Char) (hq : isQuote quote = true := by decide)
    (h : isStringText quote text = true := by decide)
  | braces (inner : List ScriptItem)
  | template (first : TemplateText) (rest : List (List ScriptItem × TemplateText))

/-- Items, and perhaps a comment in the last line. -/
structure Script where
  items : List ScriptItem
  comment : Option LastComment := none

namespace ScriptItem

mutual

/-- The parts of an item, those of what is nested in it included. -/
def parts : ScriptItem → List Part
  | filler f => [.filler f]
  | code c h _ _ => [.ending [] c (ne_newline_of_notBlank (isCode_iff.1 h).1)]
  | string quote text hq _ => [.ending (quote :: text) quote (ne_of_isQuote hq rfl)]
  | braces inner =>
    .ending [] '\x7b' (by decide) :: partsAll inner ++ [.ending [] '\x7d' (by decide)]
  | template first rest => partsBehind ('\x60' :: first.1) rest

/-- The parts of some items one after the other. -/
def partsAll : List ScriptItem → List Part
  | [] => []
  | item :: rest => item.parts ++ partsAll rest

/-- The parts of a template from a text of it, with the mark before the text, to the end. -/
def partsBehind (text : List Char) : List (List ScriptItem × TemplateText) → List Part
  | [] => [.ending text '\x60' (by decide)]
  | (inner, next) :: rest =>
    .ending (text ++ ['$']) '\x7b' (by decide) :: partsAll inner ++
      partsBehind ('\x7d' :: next.1) rest

end

/-- The text of a template from a text of it to the end. -/
theorem sourceOf_partsBehind (text : List Char) (rest : List (List ScriptItem × TemplateText)) :
    sourceOf (partsBehind text rest) = text ++ sourceOf (partsBehind [] rest) := by
  cases rest <;> simp [partsBehind, Part.ending, Part.source]

end ScriptItem

namespace Script

/-- The parts of a script. -/
def parts (s : Script) : List Part :=
  ScriptItem.partsAll s.items

/-- The text of a script. -/
def source (s : Script) : List Char :=
  sourceOf s.parts ++ (s.comment.map LastComment.source).getD []

end Script

/-! ## Reading -/

namespace Progress

/-- Open braces are deeper than the template that goes on next. -/
def IsInside (p : Progress) : Prop :=
  ∀ depth ∈ p.templates.head?, depth < p.depth

theorem IsInside.write {p : Progress} (h : p.IsInside) (parts : List Part) :
    (p.write parts).IsInside := by
  unfold IsInside
  rw [depth_write, templates_write]
  exact h

theorem IsInside.emit {p : Progress} (h : p.IsInside) (text : List Char) :
    (p.emit text).IsInside := h

/-- Goes on in a template behind the mark that opens it or closes a substitution. -/
def inTemplate (p : Progress) (mark : Char) (s : List Char) : Progress :=
  scriptFrom (p.emitTemplate (mark :: (splitTemplate s).1) (splitTemplate s).2.1)
    (splitTemplate s).2.2

theorem emitTemplate_emit (p : Progress) (first second : List Char) (opens : Bool) :
    (p.emit first).emitTemplate second opens = p.emitTemplate (first ++ second) opens := by
  unfold emitTemplate
  rw [emit_emit]

/-- What stands behind a text of a template decides how it goes on. -/
theorem inTemplate_append {text : List Char} (h : isTemplateText text = true) (p : Progress)
    (mark : Char) (rest : List Char) :
    p.inTemplate mark (text ++ '\x60' :: rest) =
        scriptFrom (p.emit (mark :: text ++ ['\x60'])) rest ∧
      p.inTemplate mark (text ++ '$' :: '\x7b' :: rest) =
        scriptFrom (p.emitTemplate (mark :: text ++ ['$', '\x7b']) true) rest := by
  unfold inTemplate
  rw [(splitTemplate_append_end h rest).1, (splitTemplate_append_end h rest).2]
  exact ⟨rfl, rfl⟩

end Progress

theorem scriptFrom_backtick (p : Progress) (rest : List Char) :
    scriptFrom p ('\x60' :: rest) = p.inTemplate '\x60' rest := by
  rw [scriptFrom_cons p _ (isNoComment_of_ne (by decide) _), if_neg (by decide), if_neg (by decide),
    if_pos rfl]
  rfl

/-- A closing brace that ends a substitution. -/
theorem scriptFrom_close_substitution (p : Progress) (depth : Nat) (templates : List Nat)
    (rest : List Char) :
    scriptFrom (p.withDepths (depth + 1) (depth :: templates)) ('\x7d' :: rest) =
      (p.withDepths depth templates).inTemplate '\x7d' rest := by
  have hends : (p.withDepths (depth + 1) (depth :: templates)).templates.head? =
      some ((p.withDepths (depth + 1) (depth :: templates)).depth - 1) := rfl
  have hemit := Progress.emitTemplate_emit (p.withDepths depth templates) ['\x7d']
    (splitTemplate rest).1 (splitTemplate rest).2.1
  rw [scriptFrom_close, if_pos hends]
  exact congrArg (scriptFrom · (splitTemplate rest).2.2) hemit

/-- A closing brace behind an opening one in the same code. -/
theorem scriptFrom_close_braces {p : Progress} (h : p.IsInside) (rest : List Char) :
    scriptFrom (p.withDepths (p.depth + 1) p.templates) ('\x7d' :: rest) =
      scriptFrom (p.emit ['\x7d']) rest := by
  rw [scriptFrom_close, if_neg]
  · rfl
  · intro he
    exact absurd (h _ he) (Nat.lt_irrefl _)

namespace ScriptItem

mutual

theorem scriptFrom_parts : (item : ScriptItem) → (p : Progress) → p.IsInside → (rest : List Char) →
    scriptFrom p (sourceOf item.parts ++ rest) = scriptFrom (p.write item.parts) rest
  | filler f, p, _, rest => by
    rw [parts, sourceOf_cons, sourceOf_nil, List.append_nil]
    exact scriptFrom_filler p rest f
  | code c h ho hc, p, _, rest => scriptFrom_code p rest h ho hc
  | string quote text hq h, p, _, rest => by
    have hsource : sourceOf (string quote text hq h).parts ++ rest =
        quote :: text ++ quote :: rest := by
      simp [parts, Part.ending, Part.source]
    rw [hsource]
    exact scriptFrom_string p rest hq h
  | braces inner, p, hp, rest => by
    let opened := p.emit ['\x7b']
    have hopened : (opened.withDepths (p.depth + 1) p.templates).IsInside :=
      fun depth hd => Nat.lt_succ_of_lt (hp depth hd)
    have hinner : (opened.write (partsAll inner)).IsInside := (hp.emit _).write _
    have hclose := scriptFrom_close_braces hinner rest
    rw [Progress.depth_write, Progress.templates_write] at hclose
    calc scriptFrom p (sourceOf (braces inner).parts ++ rest)
        = scriptFrom p ('\x7b' :: (sourceOf (partsAll inner) ++ '\x7d' :: rest)) := by
          simp [parts, Part.ending, Part.source]
      _ = scriptFrom ((opened.write (partsAll inner)).withDepths (p.depth + 1) p.templates)
            ('\x7d' :: rest) := by
          rw [scriptFrom_open, scriptFrom_partsAll inner _ hopened, Progress.write_withDepths]
      _ = scriptFrom ((opened.write (partsAll inner)).emit ['\x7d']) rest := hclose
      _ = scriptFrom (p.write (braces inner).parts) rest := by
          rw [parts, List.cons_append, Progress.write_cons, Progress.write_append]
          rfl
  | template first more, p, hp, rest => by
    rw [parts, sourceOf_partsBehind, List.append_assoc, List.cons_append, scriptFrom_backtick,
      ← List.append_assoc]
    exact inTemplate_partsBehind more p hp '\x60' first rest

theorem scriptFrom_partsAll : (items : List ScriptItem) → (p : Progress) → p.IsInside →
    (rest : List Char) →
    scriptFrom p (sourceOf (partsAll items) ++ rest) = scriptFrom (p.write (partsAll items)) rest
  | [], _, _, _ => rfl
  | item :: items, p, hp, rest => by
    rw [partsAll, sourceOf_append, List.append_assoc, scriptFrom_parts item p hp,
      scriptFrom_partsAll items _ (hp.write _), Progress.write_append]

theorem inTemplate_partsBehind : (more : List (List ScriptItem × TemplateText)) → (p : Progress) →
    p.IsInside → (mark : Char) → (text : TemplateText) → (rest : List Char) →
    p.inTemplate mark (text.1 ++ sourceOf (partsBehind [] more) ++ rest) =
      scriptFrom (p.write (partsBehind (mark :: text.1) more)) rest
  | [], p, _, mark, text, rest => by
    rw [List.append_assoc]
    exact (Progress.inTemplate_append text.2 p mark rest).1
  | (inner, next) :: more, p, hp, mark, text, rest => by
    let opened := p.emit (mark :: text.1 ++ ['$', '\x7b'])
    have hopened : (opened.withDepths (p.depth + 1) (p.depth :: p.templates)).IsInside := by
      rintro depth ⟨⟩
      exact Nat.lt_succ_self _
    have hinner : (opened.write (partsAll inner)).IsInside := (hp.emit _).write _
    let behind := next.1 ++ sourceOf (partsBehind [] more) ++ rest
    calc p.inTemplate mark (text.1 ++ sourceOf (partsBehind [] ((inner, next) :: more)) ++ rest)
        = p.inTemplate mark (text.1 ++ '$' :: '\x7b' ::
            (sourceOf (partsAll inner) ++ '\x7d' :: behind)) := by
          simp [partsBehind, Part.ending, Part.source, sourceOf_partsBehind ('\x7d' :: next.1),
            behind]
      _ = scriptFrom ((opened.write (partsAll inner)).withDepths (p.depth + 1)
            (p.depth :: p.templates)) ('\x7d' :: behind) := by
          rw [(Progress.inTemplate_append text.2 p mark _).2]
          refine (scriptFrom_partsAll inner _ hopened _).trans ?_
          rw [Progress.write_withDepths]
      _ = (opened.write (partsAll inner)).inTemplate '\x7d' behind := by
          rw [scriptFrom_close_substitution, ← Progress.write_withDepths]
          rfl
      _ = scriptFrom (p.write (partsBehind (mark :: text.1) ((inner, next) :: more))) rest := by
          rw [inTemplate_partsBehind more _ hinner, partsBehind, List.cons_append,
            Progress.write_cons, Progress.write_append, Progress.writeOne_ending, List.append_assoc]
          rfl

end

end ScriptItem

theorem Progress.isInside_start : start.IsInside := nofun

/-- Minifying a script gives its tidy form. -/
theorem script_source (s : Script) :
    script (String.ofList s.source) = String.ofList (tidy s.parts) := by
  have hread : scriptFrom .start s.source = (Progress.start.write s.parts).withDepths 0 [] := by
    unfold Script.source Script.parts
    rw [ScriptItem.scriptFrom_partsAll s.items _ Progress.isInside_start, scriptFrom_lastComment,
      ← Progress.write_withDepths]
    rfl
  exact script_of_write hread

/-- A template in braces in a substitution, with comments that look like literals. -/
def Script.nested : Script where
  items := [.filler .space, .code 'f', .filler (.block "'\n".toList), .filler .space,
    .template ⟨"a$".toList, by decide⟩
      [([.filler .space,
          .braces [.filler (.block "\x60".toList), .template ⟨"b\x7d".toList, by decide⟩ []],
          .filler (.line "\"".toList)],
        ⟨" /* c */".toList, by decide⟩)],
    .string '\'' "\\'//".toList, .filler (.blank '\t')]
  comment := some ⟨"\x7b".toList, by decide⟩

example :
    String.ofList Script.nested.source =
        " f/*'\n*/ \x60a$$\x7b \x7b/*\x60*/\x60b\x7d\x60\x7d//\"\n\x7d /* c */\x60'\\'//'\t//\x7b" ∧
      String.ofList (tidy Script.nested.parts) =
        "f\n\x60a$$\x7b \x7b \x60b\x7d\x60\x7d\n\x7d /* c */\x60'\\'//'" := by
  decide

end StaticSite.Minify
