import StaticSite.Template.Basic

/-!
# Writing and scanning templates

A layout is written as the source in which its texts and its directives stand one after the other
(`Layout.source`). If no text has an opener and each directive can be told from its neighbours
(`Layout.IsWritable`), the source is split into the same layout again (`ofSource_source`). So
scanning it gives its directives except comments, and its texts as their neighbours trim them
(`scan_source`).
-/

namespace StaticSite.Template

/-! ## Written directives -/

/-- What stands behind `<%` in an opener. -/
def Opening.mark : Opening → List Char
  | .escaped => ['=']
  | .raw => ['-']
  | .comment => ['#']
  | .trimming => ['_']
  | .plain => []

/-- What stands before `%>` in a closer. -/
def Closing.mark : Closing → List Char
  | .keep => []
  | .newlines => ['-']
  | .blanks => ['_']

namespace Directive

/-- The code of a directive with its closing character. -/
def body (d : Directive) : List Char :=
  d.code ++ d.closing.mark

/-- The text of a directive. -/
def source (d : Directive) : List Char :=
  '<' :: '%' :: (d.opening.mark ++ d.body ++ ['%', '>'])

/-- The code does not hold a closer or end in a closing character, and a plain directive does not
begin like another one. -/
structure IsWritable (d : Directive) : Prop where
  code : ¬ ['%', '>'] <:+: d.code
  last : ∀ c ∈ ['-', '_'], d.code.getLast? ≠ some c
  plain : d.opening = .plain → ∃ c r, d.body = c :: r ∧ c ∉ ['=', '-', '#', '_', '%']

end Directive

namespace Layout

/-- The text of some directives with the texts behind them. -/
def sourceBehind : List (Directive × List Char) → List Char
  | [] => []
  | (d, text) :: rest => d.source ++ text ++ sourceBehind rest

/-- The text of a template with the given layout. -/
def source (layout : Layout) : List Char :=
  layout.head ++ sourceBehind layout.tail

/-- No text has an opener, and all directives can be written. -/
structure IsWritable (layout : Layout) : Prop where
  head : splitOpener layout.head = none
  tail : ∀ entry ∈ layout.tail, entry.1.IsWritable ∧ splitOpener entry.2 = none

end Layout

/-! ## Finding openers and closers -/

theorem splitOpener_append {text rest : List Char} (h : splitOpener text = none)
    (hr : rest.head? ≠ some '%') :
    splitOpener (text ++ '<' :: '%' :: rest) = some (text, rest) := by
  fun_induction splitOpener text with
  | case1 =>
    cases rest with
    | nil => rfl
    | cons c rest =>
      have hc : c ≠ '%' := fun he => hr (by rw [he]; rfl)
      rw [List.nil_append, splitOpener]
      exact fun _ he => hc (List.cons.inj he).1
  | case2 text ih =>
    rw [Option.map_eq_none_iff] at h
    simp only [List.cons_append]
    rw [splitOpener, ih h]
    rfl
  | case3 text hne => cases h
  | case4 c text _ hsingle ih =>
    rw [Option.map_eq_none_iff] at h
    -- an opener that begins with `c` would end in the text
    have hnone (r : List Char) : c = '<' → text ++ '<' :: '%' :: rest ≠ '%' :: r := by
      intro hc he
      cases text with
      | nil => simp at he
      | cons d text => exact hsingle text hc (by rw [(List.cons.inj he).1])
    rw [List.cons_append, splitOpener, ih h]
    · rfl
    · exact fun r hc => hnone ('%' :: r) hc
    · exact hnone

theorem splitCloser_cons {c : Char} {rest : List Char} (h : c = '%' → rest.head? ≠ some '>') :
    splitCloser (c :: rest) = (splitCloser rest).map fun (text, after) => (c :: text, after) := by
  rw [splitCloser]
  intro r hc hr
  exact h hc (by rw [hr]; rfl)

theorem splitCloser_append {code rest : List Char} (h : ¬ ['%', '>'] <:+: code)
    (hr : rest.head? ≠ some '>') :
    splitCloser (code ++ rest) = (splitCloser rest).map fun (text, after) =>
  (code ++ text, after) := by
  induction code with
  | nil => simp
  | cons c code ih =>
    have hcode : ¬ ['%', '>'] <:+: code := fun hi => h (hi.trans (List.suffix_cons c code).isInfix)
    have hnone (hc : c = '%') : (code ++ rest).head? ≠ some '>' := by
      subst hc
      cases code with
      | nil => exact hr
      | cons d code =>
        intro he
        obtain rfl := Option.some.inj he
        exact h (List.prefix_append ['%', '>'] code).isInfix
    rw [List.cons_append, splitCloser_cons hnone, ih hcode, Option.map_map]
    rfl

/-! ## Reading one directive -/

namespace Directive

variable {d : Directive}

theorem splitCloser_body (h : d.IsWritable) (rest : List Char) :
    splitCloser (d.opening.mark ++ d.body ++ '%' :: '>' :: rest) =
      some (d.opening.mark ++ d.body, rest) := by
  have hbody : splitCloser (d.body ++ '%' :: '>' :: rest) = some (d.body, rest) := by
    unfold body
    rw [List.append_assoc]
    cases d.closing with
    | keep =>
      rw [splitCloser_append h.code (by simp [Closing.mark])]
      simp [Closing.mark, splitCloser]
    | newlines =>
      rw [splitCloser_append h.code (by simp [Closing.mark])]
      simp [Closing.mark, splitCloser]
    | blanks =>
      rw [splitCloser_append h.code (by simp [Closing.mark])]
      simp [Closing.mark, splitCloser]
  cases d.opening with
  | plain => exact hbody
  | _ =>
    simp only [Opening.mark, List.cons_append, List.nil_append]
    rw [splitCloser_cons (by simp), hbody]
    rfl

theorem splitClosing_body (h : d.IsWritable) : splitClosing d.body = (d.code, d.closing) := by
  unfold splitClosing body
  cases hc : d.closing with
  | keep =>
    have := h.last
    simp [Closing.mark]
    split <;> simp_all
  | newlines => simp [Closing.mark]
  | blanks => simp [Closing.mark]

theorem ofBody_plain {c : Char} {r : List Char} (hc : c ∉ ['=', '-', '#', '_', '%']) :
    ofBody (c :: r) = ⟨.plain, (splitClosing (c :: r)).1, (splitClosing (c :: r)).2⟩ := by
  simp only [List.mem_cons, List.not_mem_nil, or_false, not_or] at hc
  obtain ⟨hescaped, hraw, hcomment, htrimming, -⟩ := hc
  simp [ofBody, hescaped, hraw, hcomment, htrimming]

theorem ofBody_body (h : d.IsWritable) : ofBody (d.opening.mark ++ d.body) = d := by
  have parts {opening : Opening} (ho : d.opening = opening) :
      (⟨opening, (splitClosing d.body).1, (splitClosing d.body).2⟩ : Directive) = d := by
    rw [splitClosing_body h, ← ho]
  cases ho : d.opening with
  | plain =>
    obtain ⟨c, r, hb, hc⟩ := h.plain ho
    rw [Opening.mark, List.nil_append, hb, ofBody_plain hc, ← hb]
    exact parts ho
  | escaped => exact parts ho
  | raw => exact parts ho
  | comment => exact parts ho
  | trimming => exact parts ho

theorem head?_body (h : d.IsWritable) (rest : List Char) :
    (d.opening.mark ++ d.body ++ rest).head? ≠ some '%' := by
  cases ho : d.opening with
  | plain =>
    obtain ⟨c, r, hb, hc⟩ := h.plain ho
    rw [Opening.mark, List.nil_append, hb]
    rintro he
    obtain rfl := Option.some.inj he
    simp at hc
  | _ => simp [Opening.mark]

end Directive

/-! ## Reading a layout -/

namespace Layout

theorem ofRest_of_none {s : List Char} (h : splitOpener s = none) (line : Nat) :
    ofRest line s = .ok ⟨s, []⟩ := by
  rw [ofRest]
  split
  · rfl
  · rename_i hs
    rw [h] at hs
    cases hs

theorem ofRest_of_some {s text afterOpener inner rest : List Char}
    (ho : splitOpener s = some (text, afterOpener))
    (hc : splitCloser afterOpener = some (inner, rest)) (line : Nat) : ofRest line s =
      (ofRest (line + newlineCount text + newlineCount inner) rest).map fun layout =>
        ⟨text, (.ofBody inner, layout.head) :: layout.tail⟩ := by
  rw [ofRest]
  split
  · rename_i hs
    rw [ho] at hs
    cases hs
  · rename_i hs
    rw [ho] at hs
    cases hs
    split
    · rename_i hs
      rw [hc] at hs
      cases hs
    · rename_i hs
      rw [hc] at hs
      cases hs
      rfl

theorem ofRest_source (tail : List (Directive × List Char)) : ∀ (head : List Char) (line : Nat),
    (⟨head, tail⟩ : Layout).IsWritable →
    ofRest line (head ++ sourceBehind tail) = .ok ⟨head, tail⟩ := by
  induction tail with
  | nil =>
    intro head line h
    rw [sourceBehind, List.append_nil]
    exact ofRest_of_none h.head line
  | cons entry rest ih =>
    obtain ⟨d, next⟩ := entry
    intro head line h
    obtain ⟨hd, hnext⟩ := h.tail _ List.mem_cons_self
    have hsource : head ++ sourceBehind ((d, next) :: rest) =
        head ++ '<' :: '%' ::
          (d.opening.mark ++ d.body ++ '%' :: '>' :: (next ++ sourceBehind rest)) := by
      simp [sourceBehind, Directive.source]
    have hopener := splitOpener_append h.head
      (Directive.head?_body hd ('%' :: '>' :: (next ++ sourceBehind rest)))
    rw [hsource, ofRest_of_some hopener (Directive.splitCloser_body hd _), Directive.ofBody_body hd,
      ih next _ ⟨hnext, fun e he => h.tail e (List.mem_cons_of_mem _ he)⟩]
    rfl

theorem ofSource_source {layout : Layout} (h : layout.IsWritable) :
    ofSource (String.ofList layout.source) = .ok layout := by
  rw [ofSource, String.toList_ofList]
  exact ofRest_source layout.tail layout.head 1 h

end Layout

/-! ## Trimmed texts -/

namespace Layout

/-- The directives of a template. -/
def directives (layout : Layout) : List Directive :=
  layout.tail.map Prod.fst

/-- The texts around the directives. -/
def texts (layout : Layout) : List (List Char) :=
  layout.head :: layout.tail.map Prod.snd

/-- How the directive in front of a text ends; in front of the first one it is as given. -/
def closingBefore (first : Closing) (layout : Layout) : Nat → Closing
  | 0 => first
  | i + 1 => (layout.directives[i]?.map (·.closing)).getD .keep

/-- What is left of a text: its blanks at the end go if the directive behind it trims, and its
newlines or blanks at the start as the one in front of it closes. -/
def spanAt (first : Closing) (layout : Layout) (i : Nat) : List Char :=
  let text := layout.texts[i]?.getD []
  let text := if layout.directives[i]?.any (·.opening == .trimming) then Text.trimEnd text else text
  match layout.closingBefore first i with
  | .keep => text
  | .newlines => text.dropWhile (· == '\n')
  | .blanks => Text.trimStart text

/-- The segments of a text and of the directive behind it. -/
def segmentsAt (first : Closing) (layout : Layout) (i : Nat) : List Segment :=
  textSegment (layout.spanAt first i) ++ (layout.directives[i]?.map Directive.segment).getD []

theorem spanAt_zero (first : Closing) (d : Directive) (text next : List Char)
    (rest : List (Directive × List Char)) :
    spanAt first ⟨text, (d, next) :: rest⟩ 0 = first.trim (d.opening.trim text) := by
  obtain ⟨opening, code, closing⟩ := d
  cases first <;> cases opening <;> rfl

theorem segmentsFrom_eq (tail : List (Directive × List Char)) :
    ∀ (first : Closing) (text : List Char),
    segmentsFrom first text tail =
      (List.range (tail.length + 1)).flatMap (segmentsAt first ⟨text, tail⟩) := by
  induction tail with
  | nil =>
    intro first text
    cases first <;>
      simp [segmentsFrom, segmentsAt, spanAt, directives, texts, closingBefore, Closing.trim]
  | cons entry rest ih =>
    obtain ⟨d, next⟩ := entry
    intro first text
    have shifted : (fun i => segmentsAt first ⟨text, (d, next) :: rest⟩ (i + 1)) =
        segmentsAt d.closing ⟨next, rest⟩ := by
      funext i
      cases i <;> rfl
    calc segmentsFrom first text ((d, next) :: rest)
        = textSegment (first.trim (d.opening.trim text)) ++ d.segment ++
            segmentsFrom d.closing next rest := rfl
      _ = segmentsAt first ⟨text, (d, next) :: rest⟩ 0 ++ (List.range (rest.length + 1)).flatMap
            fun i => segmentsAt first ⟨text, (d, next) :: rest⟩ (i + 1) := by
          rw [shifted, ih, segmentsAt, spanAt_zero]
          rfl
      _ = (List.range (rest.length + 1 + 1)).flatMap (segmentsAt first ⟨text,
        (d, next) :: rest⟩) := by
          rw [List.range_succ_eq_map (n := rest.length + 1), List.flatMap_cons, List.flatMap_map]

end Layout

/-! ## Sources without directives -/

theorem scan_of_none {source : String} (h : splitOpener source.toList = none) :
    scan source = .ok (textSegment source.toList) := by
  rw [scan, Layout.ofSource, Layout.ofRest_of_none h]
  rfl

theorem parse_of_none {source : String} (h : splitOpener source.toList = none) :
    parse source = .ok (if source = "" then [] else [.text source]) := by
  rw [parse, scan_of_none h]
  by_cases hs : source = ""
  · subst hs
    rfl
  · rw [if_neg hs, textSegment, if_neg (by simpa using hs), String.ofList_toList]
    rfl

theorem render_of_none {source : String} (h : splitOpener source.toList = none)
    (compiler : Compiler)
    (context : Context) : (compiler.compile source).render context = .ok source := by
  unfold Compiler.compile Compiled.render Compiled.renderWithin
  rw [parse_of_none h]
  by_cases hs : source = ""
  · subst hs
    rfl
  · rw [if_neg hs]
    have hjoin : String.join [source] = source := by simp [String.join]
    exact congrArg Except.ok hjoin

/-- Scanning a written layout gives its directives except comments, and its texts as their
neighbours trim them. A source without directives is rendered as it is. -/
theorem scan_source (layout : Layout) (h : layout.IsWritable) :
    scan (String.ofList layout.source) =
        .ok ((List.range layout.texts.length).flatMap (layout.segmentsAt .keep)) ∧
      ∀ source, splitOpener source.toList = none → ∀ (compiler : Compiler) (context : Context),
        (compiler.compile source).render context = .ok source := by
  refine ⟨?_, fun source hnone compiler context => render_of_none hnone compiler context⟩
  rw [scan, Layout.ofSource_source h]
  have hlength : layout.texts.length = layout.tail.length + 1 := by simp [Layout.texts]
  rw [hlength, ← Layout.segmentsFrom_eq]
  rfl

/-- Directives whose neighbours and whose own ends look like openers and closers. -/
def edgeLayout : Layout where
  head := "a<%%<".toList
  tail := [(⟨.escaped, " x %".toList, .newlines⟩, "\n\n b <".toList),
    (⟨.trimming, [], .blanks⟩, " \n".toList), (⟨.comment, ">".toList, .blanks⟩, " ".toList),
    (⟨.plain, "\x7d".toList, .keep⟩, " c ".toList)]

theorem edgeLayout_isWritable : edgeLayout.IsWritable where
  head := by decide
  tail := by
    have parts : ∀ e ∈ edgeLayout.tail, splitOpener e.2 = none ∧ ¬ ['%', '>'] <:+: e.1.code ∧
        (e.1.code.getLast? ≠ some '-' ∧ e.1.code.getLast? ≠ some '_') ∧
        (e.1.opening = .plain → e.1.body = ['\x7d']) := by
      decide
    intro e he
    obtain ⟨htext, hcode, hlast, hplain⟩ := parts e he
    have hends : ∀ c ∈ ['-', '_'], e.1.code.getLast? ≠ some c :=
      List.forall_mem_cons.2 ⟨hlast.1, List.forall_mem_singleton.2 hlast.2⟩
    exact ⟨⟨hcode, hends, fun ho => ⟨_, _, hplain ho, by decide⟩⟩, htext⟩

theorem scan_source_of_edges :
    String.ofList edgeLayout.source = "a<%%<<%= x %-%>\n\n b <<%__%> \n<%#>_%> <%\x7d%> c " ∧
      scan (String.ofList edgeLayout.source) = .ok [.text "a<%%<", .output .escaped " x %",
        .text " b <", .statements "", .statements "\x7d", .text " c "] := by
  refine ⟨by decide, (scan_source edgeLayout edgeLayout_isWritable).1.trans (congrArg Except.ok ?_)⟩
  decide

end StaticSite.Template
