import StaticSite.Proofs.Template.Spelling
import StaticSite.Template.Parser

/-!
# Printing expressions

Expressions and marks have a looseness. An expression that binds more loosely than its place allows
stands in parentheses (`Expr.within`); the left operand of an operator may be as loose as the
operator, the right one may not. The arguments of calls, the items of arrays, the values of fields
and the keys of indices may be any expressions. The body of an arrow is a literal or a name, or
stands in parentheses.
-/

namespace StaticSite.Template

/-! ## Looseness -/

/-- How loosely a mark binds what stands before it: suffixes most tightly, marks that end
expressions most loosely. -/
def Mark.looseness : Mark → Nat
  | dot | optional | openBracket | openParen | increment | decrement | arrow => 1
  | star | slash | percent => 2
  | plus | minus => 3
  | le | ge | lt | gt => 4
  | strictEq | strictNe | eq | ne => 5
  | andAnd => 6
  | orOr | nullish => 7
  | question => 8
  | _ => 10

/-- The mark of an operator. -/
def BinaryOp.mark : BinaryOp → Mark
  | add => .plus
  | sub => .minus
  | mul => .star
  | div => .slash
  | rem => .percent
  | lt => .lt
  | le => .le
  | gt => .gt
  | ge => .ge
  | eq => .eq
  | ne => .ne
  | strictEq => .strictEq
  | strictNe => .strictNe

/-- The mark of an operator. -/
def LogicalOp.mark : LogicalOp → Mark
  | and => .andAnd
  | or => .orOr
  | nullish => .nullish

/-- The token of an operator. -/
def UnaryOp.token : UnaryOp → Token
  | not => .mark .bang
  | negate => .mark .minus
  | plus => .mark .plus
  | typeOf => .name "typeof"

namespace Expr

/-- Operands that suffixes may follow bind most tightly, then signs and steps, operators by their
marks, conditionals, and arrows. -/
def looseness : Expr → Nat
  | literal _ | name _ | array _ | object _ | member .. | index .. | call .. => 0
  | unary .. | update .. => 1
  | binary op _ _ => op.mark.looseness
  | logical op _ _ => op.mark.looseness
  | conditional .. => 8
  | arrow .. => 9

theorem looseness_le (e : Expr) : e.looseness ≤ 9 := by
  cases e with
  | binary op =>
    show op.mark.looseness ≤ 9
    cases op <;> decide
  | logical op =>
    show op.mark.looseness ≤ 9
    cases op <;> decide
  | _ => simp [looseness]

end Expr

/-! ## Tokens -/

/-- Parentheses around tokens. -/
def grouped (ts : List Token) : List Token :=
  .mark .openParen :: (ts ++ [.mark .closeParen])

/-- Tokens with commas between them. -/
def listed (tss : List (List Token)) : List Token :=
  [.mark .comma].intercalate tss

/-- The token of a literal. -/
def Literal.token : Literal → Token
  | undefined => .name "undefined"
  | null => .name "null"
  | bool b => .name (if b then "true" else "false")
  | number x => .number x
  | string s => .string s

/-- The mark that steps a variable up or down. -/
def stepMark (up : Bool) : Token :=
  .mark (if up then .increment else .decrement)

/-- The parameters of an arrow; parentheses may be left out around one. -/
def paramTokens : List String → List Token
  | [s] => [.name s]
  | params => grouped (listed (params.map fun s => [.name s]))

namespace Expr

/-- Whether the expression holds no others. -/
def isAtom : Expr → Bool
  | literal _ | name _ => true
  | _ => false

/-- The tokens of an expression in a place for expressions up to a looseness. -/
def within (k : Nat) (e : Expr) (ts : List Token) : List Token :=
  if e.looseness ≤ k then ts else grouped ts

mutual

/-- The tokens of an expression. -/
def tokens : Expr → List Token
  | literal l => [l.token]
  | name s => [.name s]
  | array items => .mark .openBracket :: (listed (eachTokens items) ++ [.mark .closeBracket])
  | object fields => .mark .openBrace :: (listed (fieldTokens fields) ++ [.mark .closeBrace])
  | member target property optional =>
    target.within 0 target.tokens ++ [.mark (if optional then .optional else .dot), .name property]
  | index target key optional =>
    target.within 0 target.tokens ++ ((if optional then [.mark .optional] else []) ++
      .mark .openBracket :: (key.tokens ++ [.mark .closeBracket]))
  | call callee args =>
    callee.within 0 callee.tokens ++ grouped (listed (eachTokens args))
  | arrow params body =>
    paramTokens params ++ .mark .arrow :: if body.isAtom then body.tokens else grouped body.tokens
  | unary op operand => op.token :: operand.within 1 operand.tokens
  | binary op left right =>
    left.within op.mark.looseness left.tokens ++ .mark op.mark ::
      right.within (op.mark.looseness - 1) right.tokens
  | logical op left right =>
    left.within op.mark.looseness left.tokens ++ .mark op.mark ::
      right.within (op.mark.looseness - 1) right.tokens
  | conditional test yes no =>
    test.within 7 test.tokens ++ .mark .question :: (yes.within 8 yes.tokens ++
      .mark .colon :: no.within 8 no.tokens)
  | update s up first => if first then [stepMark up, .name s] else [.name s, stepMark up]

/-- The tokens of each of some expressions. -/
def eachTokens : List Expr → List (List Token)
  | [] => []
  | e :: rest => e.tokens :: eachTokens rest

/-- The tokens of each of some fields. -/
def fieldTokens : List (String × Expr) → List (List Token)
  | [] => []
  | (key, e) :: rest => (.string key :: .mark .colon :: e.tokens) :: fieldTokens rest

end

/-- The text of an expression, with spaces between tokens and numbers written by `digits`. -/
def print (digits : Float → Nat) (e : Expr) : String :=
  spell digits e.tokens

end Expr

/-! ## Printable expressions -/

/-- The names that are no variables. -/
def keywords : List String :=
  ["true", "false", "null", "undefined", "typeof"]

/-- Whether variables can have the name. -/
structure IsVariable (s : String) : Prop where
  identifier : isIdentifier s.toList = true
  notKeyword : s ∉ keywords

instance (s : String) : Decidable (IsVariable s) :=
  decidable_of_iff (isIdentifier s.toList = true ∧ s ∉ keywords)
    ⟨fun h => ⟨h.1, h.2⟩, fun h => ⟨h.identifier, h.notKeyword⟩⟩

namespace Expr

variable (digits : Float → Nat)

mutual

/-- Names are those of variables, properties are identifiers, and numbers are the doubles of natural
numbers, which `digits` gives. -/
def IsPrintable : Expr → Prop
  | literal (.number x) => Decimal.nearestFloat (digits x) 0 = x
  | literal _ => True
  | name s | update s _ _ => IsVariable s
  | array items => AllPrintable items
  | object fields => FieldsPrintable fields
  | member target property _ => target.IsPrintable ∧ isIdentifier property.toList = true
  | index target key _ => target.IsPrintable ∧ key.IsPrintable
  | call callee args => callee.IsPrintable ∧ AllPrintable args
  | arrow params body => (∀ s ∈ params, IsVariable s) ∧ body.IsPrintable
  | unary _ operand => operand.IsPrintable
  | binary _ left right | logical _ left right => left.IsPrintable ∧ right.IsPrintable
  | conditional test yes no => test.IsPrintable ∧ yes.IsPrintable ∧ no.IsPrintable

/-- All of some expressions can be printed. -/
def AllPrintable : List Expr → Prop
  | [] => True
  | e :: rest => e.IsPrintable ∧ AllPrintable rest

/-- The values of some fields can be printed. -/
def FieldsPrintable : List (String × Expr) → Prop
  | [] => True
  | (_, e) :: rest => e.IsPrintable ∧ FieldsPrintable rest

end

end Expr

/-! ## The tokens of printable expressions -/

variable {digits : Float → Nat}

theorem isPlain_grouped {ts : List Token} (h : ∀ t ∈ ts, t.IsPlain digits) :
    ∀ t ∈ grouped ts, t.IsPlain digits := by
  simp only [grouped, List.mem_cons, List.mem_append, List.not_mem_nil, or_false]
  rintro t (rfl | ht | rfl)
  · trivial
  · exact h t ht
  · trivial

theorem isPlain_listed {tss : List (List Token)} (h : ∀ ts ∈ tss, ∀ t ∈ ts, t.IsPlain digits) :
    ∀ t ∈ listed tss, t.IsPlain digits := by
  induction tss with
  | nil => nofun
  | cons ts more ih =>
    obtain ⟨hts, hmore⟩ := List.forall_mem_cons.1 h
    cases more with
    | nil => rwa [listed, List.intercalate_singleton]
    | cons next more =>
      intro t ht
      rw [listed, List.intercalate_cons_cons, List.mem_append, List.mem_append] at ht
      rcases ht with (ht | ht) | ht
      · exact hts t ht
      · cases List.mem_singleton.1 ht
        trivial
      · exact ih hmore t ht

theorem isPlain_within (k : Nat) (e : Expr) {ts : List Token} (h : ∀ t ∈ ts, t.IsPlain digits) :
    ∀ t ∈ e.within k ts, t.IsPlain digits := by
  unfold Expr.within
  split
  · exact h
  · exact isPlain_grouped h

theorem isPlain_paramTokens {params : List String} (h : ∀ s ∈ params, IsVariable s) :
    ∀ t ∈ paramTokens params, t.IsPlain digits := by
  have hlisted : ∀ t ∈ listed (params.map fun s => [.name s]), t.IsPlain digits := by
    refine isPlain_listed fun ts hts => ?_
    obtain ⟨s, hs, rfl⟩ := List.mem_map.1 hts
    exact List.forall_mem_singleton.2 (h s hs).identifier
  unfold paramTokens
  split
  · simpa [listed, List.intercalate_singleton] using hlisted
  · exact isPlain_grouped hlisted

namespace Expr

mutual

/-- The tokens of a printable expression stand for themselves. -/
theorem isPlain_tokens : (e : Expr) → e.IsPrintable digits → ∀ t ∈ e.tokens, t.IsPlain digits
  | literal (.bool true), _ | literal (.bool false), _ | literal .undefined, _ | literal .null, _ =>
    List.forall_mem_singleton.2 (by decide : isIdentifier (String.toList _) = true)
  | literal (.number _), h => List.forall_mem_singleton.2 h
  | literal (.string _), _ => List.forall_mem_singleton.2 trivial
  | name _, h => List.forall_mem_singleton.2 (IsVariable.identifier h)
  | array items, h => by
    have hitems := isPlain_listed (isPlain_eachTokens items h)
    exact List.forall_mem_cons.2 ⟨trivial, List.forall_mem_append.2
      ⟨hitems, List.forall_mem_singleton.2 trivial⟩⟩
  | object fields, h => by
    have hfields := isPlain_listed (isPlain_fieldTokens fields h)
    exact List.forall_mem_cons.2 ⟨trivial, List.forall_mem_append.2
      ⟨hfields, List.forall_mem_singleton.2 trivial⟩⟩
  | member target property optional, h => by
    have htarget := isPlain_within 0 target (isPlain_tokens target h.1)
    exact List.forall_mem_append.2 ⟨htarget, List.forall_mem_cons.2
      ⟨trivial, List.forall_mem_singleton.2 h.2⟩⟩
  | index target key optional, h => by
    have htarget := isPlain_within 0 target (isPlain_tokens target h.1)
    have hkey := isPlain_tokens key h.2
    refine List.forall_mem_append.2 ⟨htarget, List.forall_mem_append.2 ⟨?_, List.forall_mem_cons.2
      ⟨trivial, List.forall_mem_append.2 ⟨hkey, List.forall_mem_singleton.2 trivial⟩⟩⟩⟩
    cases optional
    · nofun
    · exact List.forall_mem_singleton.2 trivial
  | call callee args, h => by
    have hcallee := isPlain_within 0 callee (isPlain_tokens callee h.1)
    have hargs := isPlain_listed (isPlain_eachTokens args h.2)
    exact List.forall_mem_append.2 ⟨hcallee, isPlain_grouped hargs⟩
  | arrow params body, h => by
    have hbody := isPlain_tokens body h.2
    refine List.forall_mem_append.2 ⟨isPlain_paramTokens h.1, List.forall_mem_cons.2 ⟨trivial, ?_⟩⟩
    split
    · exact hbody
    · exact isPlain_grouped hbody
  | unary op operand, h => by
    have hoperand := isPlain_within 1 operand (isPlain_tokens operand h)
    refine List.forall_mem_cons.2 ⟨?_, hoperand⟩
    cases op with
    | typeOf => exact (by decide : isIdentifier ("typeof".toList) = true)
    | _ => trivial
  | binary op left right, h => by
    have hleft := isPlain_within op.mark.looseness left (isPlain_tokens left h.1)
    have hright := isPlain_within (op.mark.looseness - 1) right (isPlain_tokens right h.2)
    exact List.forall_mem_append.2 ⟨hleft, List.forall_mem_cons.2 ⟨trivial, hright⟩⟩
  | logical op left right, h => by
    have hleft := isPlain_within op.mark.looseness left (isPlain_tokens left h.1)
    have hright := isPlain_within (op.mark.looseness - 1) right (isPlain_tokens right h.2)
    exact List.forall_mem_append.2 ⟨hleft, List.forall_mem_cons.2 ⟨trivial, hright⟩⟩
  | conditional test yes no, h => by
    have htest := isPlain_within 7 test (isPlain_tokens test h.1)
    have hyes := isPlain_within 8 yes (isPlain_tokens yes h.2.1)
    have hno := isPlain_within 8 no (isPlain_tokens no h.2.2)
    exact List.forall_mem_append.2 ⟨htest, List.forall_mem_cons.2 ⟨trivial,
      List.forall_mem_append.2 ⟨hyes, List.forall_mem_cons.2 ⟨trivial, hno⟩⟩⟩⟩
  | update s up first, h => by
    have hname : Token.IsPlain digits (.name s) := IsVariable.identifier h
    cases first
    · exact List.forall_mem_cons.2 ⟨hname, List.forall_mem_singleton.2 trivial⟩
    · exact List.forall_mem_cons.2 ⟨trivial, List.forall_mem_singleton.2 hname⟩

theorem isPlain_eachTokens : (items : List Expr) → AllPrintable digits items →
    ∀ ts ∈ eachTokens items, ∀ t ∈ ts, t.IsPlain digits
  | [], _ => nofun
  | e :: rest, h => List.forall_mem_cons.2 ⟨isPlain_tokens e h.1, isPlain_eachTokens rest h.2⟩

theorem isPlain_fieldTokens : (fields : List (String × Expr)) → FieldsPrintable digits fields →
    ∀ ts ∈ fieldTokens fields, ∀ t ∈ ts, t.IsPlain digits
  | [], _ => nofun
  | (_, e) :: rest, h => List.forall_mem_cons.2
    ⟨List.forall_mem_cons.2 ⟨trivial, List.forall_mem_cons.2 ⟨trivial, isPlain_tokens e h.1⟩⟩,
      isPlain_fieldTokens rest h.2⟩

end

end Expr

end StaticSite.Template
