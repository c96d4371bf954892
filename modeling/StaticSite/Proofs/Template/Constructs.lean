import StaticSite.Proofs.Template.Denotes

/-!
# Constructs denote their expressions

Each construct of the language denotes its expression if its parts do: parentheses and operands,
lists between commas (`run_listTo`), suffixes of operands (`Denotes.suffix`), signs and steps, the
operators of each level (`denotes_operator`), conditionals and arrows.
-/

namespace StaticSite.Template

open Parse

variable {α : Type}

/-! ## Operands -/

/-- Whether operands without signs begin with the token. -/
def StartsOperand : Token → Prop
  | .name s => s ≠ "typeof"
  | .mark m => m = .openParen ∨ m = .openBracket ∨ m = .openBrace
  | _ => True

theorem run_unary_of_primary {t : Token} (ht : StartsOperand t) {f : Nat} {items rest : List Item}
    {e : Expr} (h : (primary f).run (.code t :: items) = .ok (e, rest)) :
    (unary (f + 1)).run (.code t :: items) = (suffixes f e).run rest := by
  rw [unary, run_bind_of_ok (run_tokenAt_code t items)]
  split
  case h_7 => rw [run_bind_of_ok h]
  all_goals
    rename_i hm
    cases hm
    simp [StartsOperand] at ht

theorem Denotes.of_primary {t : Token} {ts : List Token} {e : Expr} (ht : StartsOperand t)
    (hopens : Opens (t :: ts))
    (h : ∀ f rest, headToken? rest ≠ some (.mark .arrow) → 4 * ts.length ≤ f + 1 →
      (primary (f + 1)).run (code (t :: ts) ++ rest) = .ok (e, rest)) : Denotes (t :: ts) e 0 where
  opens := hopens
  read := by
    intro f rest harrow hf
    rw [List.length_cons] at hf
    obtain ⟨f, rfl⟩ : ∃ f', f = f' + 1 := ⟨f - 1, by omega⟩
    exact ⟨f + 1, by omega, run_unary_of_primary ht (h f rest harrow (by omega))⟩

theorem denotes_number (x : Float) : Denotes [.number x] (.literal (.number x)) 0 :=
  .of_primary trivial trivial fun _ _ _ _ => rfl

theorem denotes_string (s : String) : Denotes [.string s] (.literal (.string s)) 0 :=
  .of_primary trivial trivial fun _ _ _ _ => rfl

theorem denotes_name {s : String} (hs : s ≠ "typeof") : Denotes [.name s] (nameExpr s) 0 := by
  refine .of_primary hs (by rintro m ⟨⟩) fun f rest harrow _ => ?_
  have hnext : (tokenAt 1).run (.code (.name s) :: rest) =
      .ok (headToken? rest, .code (.name s) :: rest) := by
    match rest with
    | [] => rfl
    | .code _ :: _ => rfl
    | .text _ :: _ => rfl
    | .output .. :: _ => rfl
  show (primary (f + 1)).run (.code (.name s) :: rest) = _
  rw [primary, run_bind_of_ok (run_tokenAt_code _ rest)]
  simp only
  rw [run_bind_of_ok hnext]
  split
  · rename_i hm
    exact absurd hm harrow
  · rfl

theorem arrowParams_of_mark {m : Mark} (h : m.separates = false) (rest : List Item) :
    arrowParams (.code (.mark m) :: rest) = none := by
  cases m <;> first | rfl | cases h

theorem arrowParams_of_name {s : String} {items : List Item}
    (h : ∀ m, headToken? items = some (.mark m) → m.separates = false) :
    arrowParams (.code (.name s) :: items) = none := by
  match items with
  | .code (.mark m) :: _ =>
    have hm := h m rfl
    cases m <;> first | rfl | cases hm
  | [] | .code (.name _) :: _ | .code (.number _) :: _ | .code (.string _) :: _
  | .code (.template _) :: _ | .text _ :: _ | .output .. :: _ => rfl

/-- Parentheses around an expression are not those of parameters. -/
theorem arrowParams_of_opens {ts : List Token} {rest : List Item} (h : Opens ts)
    (harrow : headToken? rest ≠ some (.mark .arrow)) :
    arrowParams (code ts ++ .code (.mark .closeParen) :: rest) = none := by
  match ts with
  | [.name s] =>
    match rest with
    | .code (.mark m) :: _ => cases m <;> first | rfl | exact absurd rfl harrow
    | [] | .code (.name _) :: _ | .code (.number _) :: _ | .code (.string _) :: _
    | .code (.template _) :: _ | .text _ :: _ | .output .. :: _ => rfl
  | .name s :: t :: next =>
    refine arrowParams_of_name fun m hm => h m ?_
    cases hm
    rfl
  | .mark m :: next => exact arrowParams_of_mark h _
  | .number _ :: _ | .string _ :: _ | .template _ :: _ => rfl

theorem denotes_grouped {ts : List Token} {e : Expr} (h : Denotes ts e 9) :
    Denotes (grouped ts) e 0 := by
  refine .of_primary (.inl rfl) rfl fun f rest harrow hf => ?_
  have hinner := h.readBy_expression f (.code (.mark .closeParen) :: rest)
    (ends_mark (by decide) rest)
    (by simp only [List.length_append, List.length_singleton] at hf; omega)
  have hitems : code (.mark .openParen :: (ts ++ [.mark .closeParen])) ++ rest =
      .code (.mark .openParen) :: (code ts ++ .code (.mark .closeParen) :: rest) := by
    simp
  rw [hitems, primary, run_bind_of_ok (run_tokenAt_code _ _)]
  simp only
  rw [run_bind_of_ok (a := .code (.mark .openParen) ::
    (code ts ++ .code (.mark .closeParen) :: rest))
    (by rfl), List.drop_one, List.tail_cons, arrowParams_of_opens h.opens harrow]
  simp only
  rw [run_bind_of_ok (run_skip_one _ _),
    run_bind_of_ok hinner, run_bind_of_ok (run_expect _ _)]
  rfl

/-! ## Lists -/

section Lists

variable (toks : α → List Token) {items : List α}

theorem listed_cons_cons (ts next : List Token) (more : List (List Token)) :
    listed (ts :: next :: more) = ts ++ .mark .comma :: listed (next :: more) := by
  rw [listed, List.intercalate_cons_cons, List.append_assoc]
  rfl

theorem length_le_listed {x : α} (hx : x ∈ items) :
    (toks x).length ≤ (listed (items.map toks)).length := by
  induction items with
  | nil => cases hx
  | cons y rest ih =>
    cases rest with
    | nil =>
      cases List.mem_singleton.1 hx
      exact Nat.le_of_eq (by rw [List.map_singleton, listed, List.intercalate_singleton])
    | cons next more =>
      rw [List.map_cons, List.map_cons, listed_cons_cons, List.length_append, List.length_cons]
      rcases List.mem_cons.1 hx with rfl | hx
      · exact Nat.le_add_right _ _
      · exact Nat.le_trans (ih hx) (by simp only [List.map_cons]; omega)

theorem length_items_le_listed (items : List α) :
    items.length ≤ (listed (items.map toks)).length + 1 := by
  induction items with
  | nil => exact Nat.zero_le _
  | cons y rest ih =>
    cases rest with
    | nil => exact Nat.le_add_left _ _
    | cons next more =>
      rw [List.map_cons, List.map_cons, listed_cons_cons, List.length_append, List.length_cons]
      simp only [List.map_cons, List.length_cons] at ih ⊢
      omega

variable {toks}

/-- Items between commas are read up to the closing mark. -/
theorem run_listTo {item : Parse α} {close : Mark} (hclose : 8 < close.looseness)
    (hcomma : close ≠ .comma)
    (h : ∀ x ∈ items, (∀ rest, headToken? (code (toks x) ++ rest) ≠ some (.mark close)) ∧
      ∀ rest, Ends 8 rest → item.run (code (toks x) ++ rest) = .ok (x, rest))
    {g : Nat} (hg : items.length < g) (rest : List Item) :
    (listTo close item g).run (code (listed (items.map toks)) ++ .code (.mark close) :: rest) =
      .ok (items, rest) := by
  induction items generalizing g with
  | nil =>
    obtain ⟨g, rfl⟩ : ∃ g', g = g' + 1 := ⟨g - 1, by omega⟩
    show (listTo close item (g + 1)).run (.code (.mark close) :: rest) = _
    rw [listTo, run_bind_of_ok (run_eat_self close rest)]
    rfl
  | cons x more ih =>
    obtain ⟨g, rfl⟩ : ∃ g', g = g' + 1 := ⟨g - 1, by omega⟩
    obtain ⟨⟨hhead, hitem⟩, hmore⟩ := List.forall_mem_cons.1 h
    cases more with
    | nil =>
      rw [List.map_singleton, listed, List.intercalate_singleton, listTo,
        run_bind_of_ok (run_eat_of_ne (hhead _))]
      simp only [Bool.false_eq_true, if_false]
      rw [run_bind_of_ok (hitem _ (ends_mark hclose rest)),
        run_bind_of_ok (run_eat_of_ne fun he => hcomma (by cases he; rfl))]
      simp only [Bool.false_eq_true, if_false]
      rw [run_bind_of_ok (run_expect close rest)]
      rfl
    | cons y more =>
      have hrest := ih hmore (Nat.lt_of_succ_lt_succ hg)
      rw [List.map_cons] at hrest
      rw [List.map_cons, List.map_cons, listed_cons_cons, code_append, List.append_assoc, listTo,
        run_bind_of_ok (run_eat_of_ne (hhead _))]
      simp only [Bool.false_eq_true, if_false, code_cons, List.cons_append]
      rw [run_bind_of_ok (hitem _ (ends_mark (by decide) _)),
        run_bind_of_ok (run_eat_self .comma _)]
      simp only [if_true]
      rw [run_bind_of_ok hrest]
      rfl

end Lists

/-- Expressions between commas are read up to the closing mark. -/
theorem run_listTo_expression {toks : Expr → List Token} {items : List Expr}
    (h : ∀ e ∈ items, Denotes (toks e) e 9) {close : Mark}
    (hclose : close = .closeParen ∨ close = .closeBracket)
    {f : Nat} (hf : 4 * (listed (items.map toks)).length + 2 ≤ f) (rest : List Item) :
    (listTo close (expression f) f).run
      (code (listed (items.map toks)) ++ .code (.mark close) :: rest) = .ok (items, rest) := by
  have hcount := length_items_le_listed toks items
  refine run_listTo (by rcases hclose with rfl | rfl <;> decide)
    (by rcases hclose with rfl | rfl <;> decide) (fun e he => ⟨?_, ?_⟩) (by omega) rest
  · exact (h e he).opens.headToken?_ne (by rcases hclose with rfl | rfl <;> rfl)
  · have hlength := length_le_listed toks he
    exact fun rest hends => (h e he).readBy_expression f rest hends (by omega)

theorem denotes_array {toks : Expr → List Token} {items : List Expr}
    (h : ∀ e ∈ items, Denotes (toks e) e 9) :
    Denotes (.mark .openBracket :: (listed (items.map toks) ++ [.mark .closeBracket]))
      (.array items) 0 := by
  refine .of_primary (.inr (.inl rfl)) rfl fun f rest _ hf => ?_
  have hlist := run_listTo_expression h (.inr rfl) (f := f)
    (by simp only [List.length_append, List.length_singleton] at hf; omega) rest
  simp only [code_cons, code_append, List.cons_append, List.append_assoc, code_nil, List.nil_append]
  rw [primary, run_bind_of_ok (run_tokenAt_code _ _)]
  simp only
  rw [run_bind_of_ok (run_skip_one _ _),
    run_bind_of_ok hlist]
  rfl

/-- The tokens of a field, whose value has the tokens that `toks` gives it. -/
def keyed (toks : Expr → List Token) (field : String × Expr) : List Token :=
  .string field.1 :: .mark .colon :: toks field.2

theorem run_field {f : Nat} {key : String} {ts : List Token} {e : Expr} {rest left : List Item}
    (h : (expression f).run (code ts ++ rest) = .ok (e, left)) :
    (field (expression f)).run (code (.string key :: .mark .colon :: ts) ++ rest) =
      .ok ((key, e), left) := by
  unfold field
  simp only [code_cons, List.cons_append]
  rw [run_bind_of_ok (run_tokenAt_code _ _)]
  simp only [pure_bind]
  rw [run_bind_of_ok (run_skip_one _ _), run_bind_of_ok (run_eat_self .colon _)]
  simp only [if_true]
  rw [run_bind_of_ok h]
  rfl

theorem denotes_object {toks : Expr → List Token} {fields : List (String × Expr)}
    (h : ∀ field ∈ fields, Denotes (toks field.2) field.2 9) :
    Denotes (.mark .openBrace :: (listed (fields.map (keyed toks)) ++ [.mark .closeBrace]))
      (.object fields) 0 := by
  refine .of_primary (.inr (.inr rfl)) rfl fun f rest _ hf => ?_
  simp only [List.length_append, List.length_singleton] at hf
  have hcount := length_items_le_listed (keyed toks) fields
  have hitem (field : String × Expr) (hm : field ∈ fields) (rest : List Item)
      (hends : Ends 8 rest) :
      (Template.field (expression f)).run (code (keyed toks field) ++ rest) =
        .ok (field, rest) := by
    have hlength := length_le_listed (keyed toks) hm
    rw [keyed, List.length_cons, List.length_cons] at hlength
    exact run_field ((h field hm).readBy_expression f rest hends (by omega))
  have hlist : (listTo .closeBrace (field (expression f)) f).run
      (code (listed (fields.map (keyed toks))) ++ .code (.mark .closeBrace) :: rest) =
        .ok (fields, rest) :=
    run_listTo (by decide) (by decide) (fun field hm =>
      ⟨Opens.headToken?_ne (show Opens (keyed toks field) from trivial) rfl, hitem field hm⟩)
      (by omega) rest
  simp only [code_cons, code_append, List.cons_append, List.append_assoc, code_nil, List.nil_append]
  rw [primary, run_bind_of_ok (run_tokenAt_code _ _)]
  simp only
  rw [run_bind_of_ok (run_skip_one _ _), run_bind_of_ok hlist]
  rfl

/-! ## Suffixes -/

/-- A suffix behind an operand, which the loop over suffixes reads in one turn. -/
theorem Denotes.suffix {ts more : List Token} {target e : Expr} {m : Mark} (h : Denotes ts target 0)
    (hm : m.separates = false ∧ m ≠ .arrow)
    (hstep : ∀ g rest, headToken? rest ≠ some (.mark .arrow) → 4 * more.length ≤ g →
      (suffixes (g + 1) target).run (.code (.mark m) :: (code more ++ rest)) =
        (suffixes g e).run rest) :
    Denotes (ts ++ .mark m :: more) e 0 where
  opens := h.opens.append (by rintro _ ⟨⟩; exact hm.1)
  read := by
    intro f rest harrow hf
    rw [List.length_append, List.length_cons] at hf ⊢
    have hpos := h.opens.length_pos
    obtain ⟨g, hg, hrun⟩ := h.read f (.code (.mark m) :: (code more ++ rest))
      (by rintro ⟨⟩; exact hm.2 rfl) (by omega)
    obtain ⟨g, rfl⟩ : ∃ g', g = g' + 1 := ⟨g - 1, by omega⟩
    refine ⟨g, by omega, ?_⟩
    rw [code_append, code_cons, List.append_assoc, List.cons_append, hrun]
    exact hstep g rest harrow (by omega)

theorem denotes_member {ts : List Token} {target : Expr} (h : Denotes ts target 0)
    (property : String) (optional : Bool) :
    Denotes (ts ++ [.mark (if optional then .optional else .dot), .name property])
      (.member target property optional) 0 := by
  refine h.suffix (by cases optional <;> decide) fun g rest _ _ => ?_
  simp only [code_cons, code_nil, List.cons_append, List.nil_append]
  cases optional
  all_goals
    rw [suffixes]
    simp only [if_true, if_false, Bool.false_eq_true]
    rw [run_bind_of_ok (run_tokenAt_code _ _)]
    simp only
    rw [run_bind_of_ok (run_skip_one _ _)]
  · exact run_bind_of_ok (run_expectName property rest)
  · have hname : headToken? (.code (.name property) :: rest) ≠ some (.mark .openBracket) := by
      rintro ⟨⟩
    rw [run_bind_of_ok (run_eat_of_ne hname)]
    exact run_bind_of_ok (run_expectName property rest)

theorem denotes_index {ts us : List Token} {target key : Expr} (h : Denotes ts target 0)
    (hkey : Denotes us key 9) (optional : Bool) :
    Denotes (ts ++ ((if optional then [.mark .optional] else []) ++
      .mark .openBracket :: (us ++ [.mark .closeBracket]))) (.index target key optional) 0 := by
  have hread (g : Nat) (rest : List Item) (hg : 4 * us.length ≤ g) :
      (expression g >>= fun key => expect .closeBracket >>= fun _ =>
        suffixes g (.index target key optional)).run (code (us ++ [.mark .closeBracket]) ++ rest) =
          (suffixes g (.index target key optional)).run rest := by
    rw [code_append, List.append_assoc]
    exact (run_bind_of_ok (hkey.readBy_expression g (.code (.mark .closeBracket) :: rest)
      (ends_mark (by decide) rest) hg)).trans (run_bind_of_ok (run_expect .closeBracket rest))
  cases optional
  · refine h.suffix (m := .openBracket) (by decide) fun g rest _ hg => ?_
    rw [List.length_append] at hg
    rw [suffixes, run_bind_of_ok (run_tokenAt_code _ _)]
    simp only
    rw [run_bind_of_ok (run_skip_one _ _)]
    exact hread g rest (by omega)
  · show
      Denotes (ts ++ .mark .optional :: (.mark .openBracket :: (us ++ [.mark .closeBracket]))) _ _
    refine h.suffix (by decide) fun g rest _ hg => ?_
    rw [List.length_cons, List.length_append] at hg
    rw [suffixes, run_bind_of_ok (run_tokenAt_code _ _)]
    simp only
    rw [run_bind_of_ok (run_skip_one _ _), code_cons, List.cons_append,
      run_bind_of_ok (run_eat_self .openBracket _)]
    exact hread g rest (by omega)

theorem denotes_call {toks : Expr → List Token} {ts : List Token} {callee : Expr} {args : List Expr}
    (h : Denotes ts callee 0) (hargs : ∀ e ∈ args, Denotes (toks e) e 9) :
    Denotes (ts ++ grouped (listed (args.map toks))) (.call callee args) 0 := by
  refine h.suffix (m := .openParen) (by decide) fun g rest _ hg => ?_
  simp only [List.length_append, List.length_singleton] at hg
  have hlist := run_listTo_expression hargs (.inl rfl) (f := g) (by omega) rest
  rw [code_append, List.append_assoc, suffixes, run_bind_of_ok (run_tokenAt_code _ _)]
  simp only
  rw [run_bind_of_ok (run_skip_one _ _)]
  exact run_bind_of_ok hlist

/-! ## Signs and steps -/

theorem denotes_unary {ts : List Token} {operand : Expr} (h : Denotes ts operand 1) (op : UnaryOp) :
    Denotes (op.token :: ts) (.unary op operand) 1 where
  opens := by
    cases op with
    | typeOf => exact fun m hm => h.opens.head? hm
    | _ => rfl
  read := by
    intro f rest hends hf
    rw [List.length_cons] at hf
    obtain ⟨f, rfl⟩ : ∃ f', f = f' + 1 := ⟨f - 1, by omega⟩
    have hrun := h.read f rest hends (by omega)
    rw [code_cons, List.cons_append, unary, run_bind_of_ok (run_tokenAt_code _ _)]
    cases op
    all_goals
      simp only [UnaryOp.token]
      rw [run_bind_of_ok (run_skip_one _ _), run_bind_of_ok hrun]
      rfl

theorem nameExpr_of_isVariable {s : String} (hs : IsVariable s) : nameExpr s = .name s := by
  have h := hs.notKeyword
  simp only [keywords, List.mem_cons, List.not_mem_nil, or_false, not_or] at h
  simp [nameExpr, h]

theorem denotes_update {s : String} (hs : IsVariable s) (up first : Bool) :
    Denotes (if first then [stepMark up, .name s] else [.name s, stepMark up])
      (.update s up first) 1 where
  opens := by
    cases first
    · rintro m hm
      cases up <;> cases hm <;> rfl
    · cases up <;> rfl
  read := by
    have hkeyword : s ≠ "typeof" := fun he => hs.notKeyword (he ▸ by decide)
    have hname := denotes_name hkeyword
    rw [nameExpr_of_isVariable hs] at hname
    intro f rest hends hf
    cases first
    · simp only [Bool.false_eq_true, if_false, List.length_cons, List.length_nil] at hf ⊢
      obtain ⟨f, rfl⟩ : ∃ f', f = f' + 1 := ⟨f - 1, by omega⟩
      obtain ⟨g, hg, hrun⟩ := hname.read f (code [stepMark up] ++ rest) (by cases up <;> nofun)
        (by simp only [List.length_cons, List.length_nil]; omega)
      rw [List.length_singleton] at hg
      obtain ⟨g, rfl⟩ : ∃ g', g = g' + 1 := ⟨g - 1, by omega⟩
      refine Eq.trans hrun ?_
      cases up <;> rfl
    · simp only [if_true, List.length_cons, List.length_nil] at hf ⊢
      obtain ⟨f, rfl⟩ : ∃ f', f = f' + 1 := ⟨f - 1, by omega⟩
      cases up <;> rfl

/-! ## Operators -/

theorem separates_of_looseness {m : Mark} (h : m.looseness < 10) : m.separates = false := by
  cases m <;> first | rfl | exact absurd h (by decide)

theorem denotes_operator {j : Nat} {ops : Operators} {m : Mark} {make : Expr → Expr → Expr}
    {ts us : List Token} {left right : Expr} (hops : levels[j]? = some ops) (hm : ops m = some make)
    (hleft : Denotes ts left (j + 2)) (hright : Denotes us right (j + 1)) :
    Denotes (ts ++ .mark m :: us) (make left right) (j + 2) := by
  have hlt : j < 6 := (List.getElem?_eq_some_iff.1 hops).1
  have hloose := looseness_of_operator hops hm
  refine ⟨hleft.opens.append ?_, ?_⟩
  · rintro _ ⟨⟩
    exact separates_of_looseness (by omega)
  rw [IsReadIn, hops]
  intro f rest hends hf
  rw [List.length_append, List.length_cons] at hf
  -- the right operand ends where the next operator of the level goes on behind both
  have hoperand := hright.readBy_operators (Nat.le_of_lt hlt) f rest hends (by omega)
  obtain ⟨n, hn, hrun⟩ := hleft.isRead_operator hops (f := f)
    (ends_mark (m := m) (by omega) (code us ++ rest)) (by omega)
  rw [List.length_cons, List.length_append] at hn
  obtain ⟨n, rfl⟩ : ∃ n', n = n' + 1 := ⟨n - 1, by omega⟩
  refine ⟨n, by omega, ?_⟩
  rw [code_append, code_cons, List.append_assoc, List.cons_append, hrun, chain,
    run_bind_of_ok (run_tokenAt_code _ _)]
  simp only [hm]
  rw [run_bind_of_ok (run_skip_one _ _)]
  exact run_bind_of_ok hoperand

theorem denotes_binary (op : BinaryOp) {ts us : List Token} {left right : Expr}
    (hleft : Denotes ts left op.mark.looseness)
    (hright : Denotes us right (op.mark.looseness - 1)) :
    Denotes (ts ++ .mark op.mark :: us) (.binary op left right) op.mark.looseness := by
  cases op with
  | mul | div | rem => exact denotes_operator (j := 0) rfl rfl hleft hright
  | add | sub => exact denotes_operator (j := 1) rfl rfl hleft hright
  | lt | le | gt | ge => exact denotes_operator (j := 2) rfl rfl hleft hright
  | eq | ne | strictEq | strictNe => exact denotes_operator (j := 3) rfl rfl hleft hright

theorem denotes_logical (op : LogicalOp) {ts us : List Token} {left right : Expr}
    (hleft : Denotes ts left op.mark.looseness)
    (hright : Denotes us right (op.mark.looseness - 1)) :
    Denotes (ts ++ .mark op.mark :: us) (.logical op left right) op.mark.looseness := by
  cases op with
  | and => exact denotes_operator (j := 4) rfl rfl hleft hright
  | or | nullish => exact denotes_operator (j := 5) rfl rfl hleft hright

/-! ## Conditionals and arrows -/

theorem denotes_conditional {ts us vs : List Token} {test yes no : Expr} (htest : Denotes ts test 7)
    (hyes : Denotes us yes 8) (hno : Denotes vs no 8) :
    Denotes (ts ++ .mark .question :: (us ++ .mark .colon :: vs)) (.conditional test yes no) 8 where
  opens := htest.opens.append (by rintro _ ⟨⟩; rfl)
  read := by
    show ReadBy expression 8 0 _ _
    intro f rest hends hf
    simp only [List.length_append, List.length_cons] at hf
    obtain ⟨f, rfl⟩ : ∃ f', f = f' + 1 := ⟨f - 1, by omega⟩
    simp only [code_append, code_cons, List.append_assoc, List.cons_append]
    have hrun : (operation (unary f)).run (code ts ++ .code (.mark .question) ::
        (code us ++ .code (.mark .colon) :: (code vs ++ rest))) = .ok (test, _) :=
      htest.readBy_operators (Nat.le_refl 6) f _ (ends_mark (by decide) _) (by omega)
    rw [expression, run_bind_of_ok hrun, run_bind_of_ok (run_eat_self .question _)]
    simp only [if_true]
    rw [run_bind_of_ok (hyes.readBy_expression f _ (ends_mark (by decide) _) (by omega)),
      run_bind_of_ok (run_expect .colon _),
      run_bind_of_ok (hno.readBy_expression f rest hends (by omega))]
    rfl

/-- What is read without operators, where nothing goes on with it, is an expression. -/
theorem readBy_expression_of_unary {ts : List Token} {e : Expr} (hpos : 0 < ts.length)
    (h : ReadBy unary 8 1 ts e) : ReadBy expression 8 0 ts e := by
  intro f rest hends hf
  obtain ⟨f, rfl⟩ : ∃ f', f = f' + 1 := ⟨f - 1, by omega⟩
  have hlevels : ∀ j ≤ 6, (operators f j).run (code ts ++ rest) = .ok (e, rest) := by
    intro j hj
    induction j with
    | zero => exact h f rest hends hf
    | succ j ih =>
      have hops := List.getElem?_eq_getElem (show j < levels.length from hj)
      rw [operators_succ hops, level, run_bind_of_ok (ih (Nat.le_of_succ_le hj))]
      refine run_chain_of_ends (fun m hm => operator_eq_none hops ?_) _ e
      have := hends m hm
      omega
  exact run_expression_of_operation hends (hlevels 6 (Nat.le_refl 6))

theorem arrowParams_listed (params : List String) (rest : List Item) :
    arrowParams (code (listed (params.map fun s => [.name s])) ++
      .code (.mark .closeParen) :: .code (.mark .arrow) :: rest) = some (params, rest) := by
  induction params with
  | nil => rfl
  | cons s more ih =>
    cases more with
    | nil => rfl
    | cons next more =>
      rw [List.map_cons] at ih
      rw [List.map_cons, List.map_cons, listed_cons_cons]
      exact congrArg (Option.map fun found => (s :: found.1, found.2)) ih

theorem run_arrowBody (params : List String) {f : Nat} {ts : List Token} {body : Expr}
    {rest : List Item} (hbrace : headToken? (code ts ++ rest) ≠ some (.mark .openBrace))
    (h : (expression f).run (code ts ++ rest) = .ok (body, rest)) :
    (arrowBody (expression f) params).run (code ts ++ rest) = .ok (.arrow params body, rest) := by
  unfold arrowBody
  rw [run_bind_of_ok (run_sees_of_ne hbrace)]
  simp only [Bool.false_eq_true, if_false]
  rw [run_bind_of_ok h]
  rfl

/-- One name before an arrow is its parameter. -/
theorem run_primary_of_name {s : String} {f : Nat} {items : List Item} :
    (primary (f + 1)).run (.code (.name s) :: .code (.mark .arrow) :: items) =
      (arrowBody (expression f) [s]).run items := by
  rw [primary, run_bind_of_ok (run_tokenAt_code _ _)]
  rfl

/-- Names in parentheses before an arrow are its parameters. -/
theorem run_primary_of_listed {params : List String} {f : Nat} {items : List Item} :
    (primary (f + 1)).run (code (grouped (listed (params.map fun s => [.name s]))) ++
      .code (.mark .arrow) :: items) = (arrowBody (expression f) params).run items := by
  have hparams := arrowParams_listed params items
  rw [grouped, code_cons, code_append, List.cons_append, List.append_assoc, primary,
    run_bind_of_ok (run_tokenAt_code _ _)]
  simp only
  rw [run_bind_of_ok (a := .code (.mark .openParen) ::
    (code (listed (params.map fun s => [.name s])) ++
    .code (.mark .closeParen) :: .code (.mark .arrow) :: items)) (by rfl), List.drop_one,
      List.tail_cons,
    hparams]
  rfl

theorem denotes_arrow {params : List String} {ts : List Token} {body : Expr}
    (hparams : ∀ s ∈ params, IsVariable s) (hbody : Denotes ts body 9)
    (hbrace : ∀ rest, headToken? (code ts ++ rest) ≠ some (.mark .openBrace)) :
    Denotes (paramTokens params ++ .mark .arrow :: ts) (.arrow params body) 9 where
  opens := by
    unfold paramTokens
    split
    · rintro _ ⟨⟩
      rfl
    · rfl
  read := by
    show ReadBy expression 8 0 _ _
    refine readBy_expression_of_unary (by rw [List.length_append, List.length_cons]; omega)
      fun f rest hends hf => ?_
    rw [List.length_append, List.length_cons] at hf
    obtain ⟨f, rfl⟩ : ∃ f', f = f' + 2 := ⟨f - 2, by omega⟩
    have hrun := run_arrowBody params (hbrace rest)
      (hbody.readBy_expression f rest hends (by omega))
    have hstop := run_suffixes_of_ends (hends.mono (by decide)) f (.arrow params body)
    rw [code_append, code_cons, List.append_assoc, List.cons_append]
    unfold paramTokens
    split
    · rename_i s
      have hs : s ≠ "typeof" := fun he => (hparams s List.mem_cons_self).notKeyword (he ▸ by decide)
      exact (run_unary_of_primary (t := .name s) hs (run_primary_of_name.trans hrun)).trans hstop
    · exact (run_unary_of_primary (t := .mark .openParen) (.inl rfl)
        (run_primary_of_listed.trans hrun)).trans hstop

end StaticSite.Template
