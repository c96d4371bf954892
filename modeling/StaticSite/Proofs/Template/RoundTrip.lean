import StaticSite.Proofs.Template.Constructs

/-!
# Printed expressions are read back

By induction on an expression, its tokens denote it (`denotes_tokens`). So a printable expression is
read from its text as it was (`outputExpr_print`).
-/

namespace StaticSite.Template

open Parse

/-! ## Printed expressions -/

namespace Denotes

variable {ts : List Token} {e : Expr}

/-- Parentheses make every expression fit into a place. -/
theorem within (h : Denotes ts e e.looseness) (k : Nat) : Denotes (e.within k ts) e k := by
  unfold Expr.within
  split
  · rename_i hk
    exact h.mono hk
  · exact (denotes_grouped (h.mono e.looseness_le)).mono (Nat.zero_le k)

end Denotes

namespace Expr

theorem eachTokens_eq_map : ∀ items : List Expr, eachTokens items = items.map tokens
  | [] => rfl
  | e :: rest => congrArg (e.tokens :: ·) (eachTokens_eq_map rest)

theorem fieldTokens_eq_map : ∀ fields : List (String × Expr), fieldTokens fields =
    fields.map (keyed tokens)
  | [] => rfl
  | (_, _) :: rest => congrArg (_ :: ·) (fieldTokens_eq_map rest)

theorem headToken?_of_isAtom {e : Expr} (h : e.isAtom = true) (rest : List Item) :
    headToken? (code e.tokens ++ rest) ≠ some (.mark .openBrace) := by
  match e with
  | literal l => cases l <;> nofun
  | name s => nofun

variable {digits : Float → Nat}

theorem denotes_literal : (l : Literal) → Denotes [l.token] (literal l) 0
  | .undefined => denotes_name (s := "undefined") (by decide)
  | .null => denotes_name (s := "null") (by decide)
  | .bool true => denotes_name (s := "true") (by decide)
  | .bool false => denotes_name (s := "false") (by decide)
  | .number x => denotes_number x
  | .string s => denotes_string s

mutual

/-- The tokens of a printable expression denote it. -/
theorem denotes_tokens : (e : Expr) → e.IsPrintable digits → Denotes e.tokens e e.looseness
  | literal l, _ => denotes_literal l
  | name s, h => by
    have hname := denotes_name (s := s) fun he => (IsVariable.notKeyword h) (he ▸ by decide)
    rwa [nameExpr_of_isVariable h] at hname
  | array items, h => by
    rw [tokens, eachTokens_eq_map]
    exact denotes_array (denotes_each items h)
  | object fields, h => by
    rw [tokens, fieldTokens_eq_map]
    exact denotes_object (denotes_fields fields h)
  | member target property optional, h =>
    denotes_member ((denotes_tokens target h.1).within 0) property optional
  | index target key optional, h =>
    denotes_index ((denotes_tokens target h.1).within 0)
      ((denotes_tokens key h.2).mono key.looseness_le) optional
  | call callee args, h => by
    rw [tokens, eachTokens_eq_map]
    exact denotes_call ((denotes_tokens callee h.1).within 0) (denotes_each args h.2)
  | arrow params body, h => by
    have hbody := (denotes_tokens body h.2).mono body.looseness_le
    rw [tokens]
    split
    · rename_i hatom
      exact denotes_arrow h.1 hbody (headToken?_of_isAtom hatom)
    · exact denotes_arrow h.1 ((denotes_grouped hbody).mono (Nat.zero_le 9)) nofun
  | unary op operand, h => denotes_unary ((denotes_tokens operand h).within 1) op
  | binary op left right, h =>
    denotes_binary op ((denotes_tokens left h.1).within _) ((denotes_tokens right h.2).within _)
  | logical op left right, h =>
    denotes_logical op ((denotes_tokens left h.1).within _) ((denotes_tokens right h.2).within _)
  | conditional test yes no, h =>
    denotes_conditional ((denotes_tokens test h.1).within 7) ((denotes_tokens yes h.2.1).within 8)
      ((denotes_tokens no h.2.2).within 8)
  | update s up first, h => denotes_update h up first

theorem denotes_each : (items : List Expr) → AllPrintable digits items →
    ∀ e ∈ items, Denotes e.tokens e 9
  | [], _ => nofun
  | e :: rest, h => List.forall_mem_cons.2
    ⟨(denotes_tokens e h.1).mono e.looseness_le, denotes_each rest h.2⟩

theorem denotes_fields : (fields : List (String × Expr)) → FieldsPrintable digits fields →
    ∀ field ∈ fields, Denotes field.2.tokens field.2 9
  | [], _ => nofun
  | (_, e) :: rest, h => List.forall_mem_cons.2
    ⟨(denotes_tokens e h.1).mono e.looseness_le, denotes_fields rest h.2⟩

end

end Expr

theorem Token.weight_pos (t : Token) : 0 < t.weight := by
  cases t with
  | template pieces =>
    rw [weight]
    omega
  | _ => exact Nat.one_pos

/-- The bound on calls pays for all tokens. -/
theorem length_le_callBound (ts : List Token) : 4 * ts.length ≤ callBound (code ts) := by
  have hweights : ts.length ≤ (code ts).foldr (fun item n => item.weight + n) 2 := by
    induction ts with
    | nil => exact Nat.zero_le _
    | cons t rest ih =>
      have hpos : 0 < (Item.code t).weight := t.weight_pos
      rw [code_cons, List.foldr_cons, List.length_cons]
      omega
  rw [callBound]
  omega

/-- Printing an expression and reading it as an output directive gives the expression back. -/
theorem outputExpr_print {digits : Float → Nat} {e : Expr} (h : e.IsPrintable digits) :
    outputExpr (e.print digits) = .ok e := by
  have hread := ((e.denotes_tokens h).mono e.looseness_le).readBy_expression
    (callBound (code e.tokens)) []
    (ends_nil 8) (length_le_callBound e.tokens)
  rw [List.append_nil] at hread
  rw [outputExpr, Expr.print, tokenize_spell (e.isPlain_tokens h)]
  show ((expression (callBound (code e.tokens))).run (code e.tokens) >>= _) = _
  rw [hread]
  rfl

/-- An expression in which parentheses are needed and others are not. -/
def Expr.sample : Expr :=
  let two : Expr := .literal (.number (Decimal.nearestFloat 2 0))
  .conditional
    (.logical .or
      (.binary .lt (.binary .sub (.name "a") (.binary .sub (.name "b") two))
        (.update "i" true false))
      (.unary .not (.member (.unary .typeOf (.name "c")) "length" false)))
    (.call (.member (.name "list") "map" true)
      [.arrow ["x"] (.binary .mul (.binary .add (.name "x") two) two), .arrow [] (.object [])])
    (.index (.array [.literal (.string "it's"), .literal .null]) (.update "i" false true) true)

theorem Expr.sample_isPrintable : Expr.sample.IsPrintable fun _ => 2 := by
  simp only [sample, IsPrintable, AllPrintable, FieldsPrintable, List.forall_mem_cons,
    List.not_mem_nil, false_implies, implies_true, and_true, true_and]
  decide +kernel

theorem outputExpr_print_sample :
    Expr.sample.print (fun _ => 2) =
      "a - ( b - 2 ) < i ++ || ! ( typeof c ) . length ? " ++
        "list ?. map ( x => ( ( x + 2 ) * 2 ) , ( ) => ( \x7b \x7d ) ) : " ++
        "[ \"it\\'s\" , null ] ?. [ -- i ]" ∧
    outputExpr (Expr.sample.print fun _ => 2) = .ok Expr.sample :=
  ⟨by decide +kernel, outputExpr_print Expr.sample_isPrintable⟩

end StaticSite.Template
