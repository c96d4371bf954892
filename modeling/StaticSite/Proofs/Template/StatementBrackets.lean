import Mathlib
import StaticSite.Proofs.Template.Brackets
import StaticSite.Proofs.Template.Program

/-!
# Brackets of statements

Statements are read like expressions: a statement leads from no awaited mark to none, and the body
of a block leads out of its brace (`nests_statement`, `nests_blockBody`). The statements of a
template are read to the end of its items, and neither texts nor value directives hold brackets, so
the brackets of the statement directives are properly nested when they are taken together
(`Balanced`). A bracket that one directive opens is closed in that directive or in a later one
(`brackets_match_of_compiled`).
-/

namespace StaticSite.Template

open Parse

/-! ## Rules for readers that look ahead -/

namespace Parse

variable {β : Type} {known more : List Token} {t : Token} {pre mid post : List Mark}

theorem Nests.past {p : Parse β} (h : Nests known pre post p) : Nests (known ++ more) pre post p :=
  fun items hi => h items ((List.prefix_append _ _).trans (by rwa [List.map_append] at hi))

/-- Going on behind the first token. -/
theorem Nests.setTail {k : PUnit → Parse β} {tail items rest : List Item} {b : β}
    (ht : t.awaited pre = some mid) (hk : Nests [] mid post (k ⟨⟩))
    (hr : (set tail >>= k).run items = .ok (b, rest)) :
    ∃ taken, .code t :: tail = taken ++ rest ∧ Leads pre post taken := by
  obtain ⟨taken, rfl, hl⟩ := hk tail List.nil_prefix b rest hr
  exact ⟨.code t :: taken, rfl, .cons ht hl⟩

/-- A name that is known to come first. -/
theorem Nests.knownName {s : String} {k : String → Parse β} (hk : ∀ s, Nests known pre post (k s)) :
    Nests (.name s :: known) pre post (expectName >>= k) := by
  intro items hi b rest hr
  obtain ⟨behind, rfl⟩ := hi
  obtain ⟨taken, he, hl⟩ := hk s _ (List.prefix_append _ behind) b rest hr
  exact ⟨.code (.name s) :: taken, congrArg _ he, .cons rfl hl⟩

theorem Nests.seesDeclarator {k : Bool → Parse β} (hs : ∀ s, Nests [.name s] pre post (k true))
    (hn : Nests [] pre post (k false)) : Nests [] pre post (seesDeclarator >>= k) := by
  unfold Template.seesDeclarator
  rw [bind_assoc]
  refine Nests.tokenAt [] fun o => ?_
  split
  · rename_i s
    rw [pure_bind]
    cases isDeclarator s with
    | true => exact hs s
    | false => exact hn.anywhere
  · rw [pure_bind]
    exact hn.anywhere

/-- A look at two tokens, which is of use only if both are there. -/
theorem Nests.twoTokens (known : List Token) {k : Option Token → Option Token → Parse β}
    (hs : ∀ t u, Nests (known ++ [t, u]) pre post (k (some t) (some u)))
    (hn : ∀ t u, t = none ∨ u = none → Nests known pre post (k t u)) :
    Nests known pre post (Parse.tokenAt known.length >>= fun t =>
      Parse.tokenAt (known.length + 1) >>= k t) := by
  refine Nests.tokenAt known fun t => ?_
  cases t with
  | none => exact .looking (looks_tokenAt_far _) fun u => (hn none u (.inl rfl)).past
  | some t =>
    have length : known.length + 1 = (known ++ [t]).length := by simp
    rw [length]
    refine Nests.tokenAt (known ++ [t]) fun u => ?_
    rw [List.append_assoc]
    cases u with
    | none => exact (hn (some t) none (.inr rfl)).past
    | some u => exact hs t u

theorem Nests.iteration {k : Option Bool → Parse β}
    (hs : ∀ isOf binding word, Nests (known ++ [.name binding, .name word]) pre post
      (k (some isOf)))
    (hn : Nests known pre post (k none)) :
    Nests known pre post (iteration? known.length >>= k) := by
  simp only [iteration?, bind_assoc]
  refine Nests.twoTokens known (fun t u => ?_) fun t u h => ?_
  · split <;> rename_i h1 h2
    · cases h1; cases h2
      exact hs true _ _
    · cases h1; cases h2
      exact hs false _ _
    · exact hn.past
  · split <;> first | exact hn | simp at h

theorem Nests.assignment {k : Option (String × AssignOp) → Parse β}
    (hs : ∀ s m op, assignOp? m = some op → Nests [.name s, .mark m] pre post (k (some (s, op))))
    (hn : Nests [] pre post (k none)) : Nests [] pre post (assignment? >>= k) := by
  simp only [assignment?, bind_assoc]
  refine Nests.twoTokens [] (fun t u => ?_) fun t u h => ?_
  · split <;> rename_i h1 h2
    · rename_i s m
      cases h1; cases h2
      rw [pure_bind]
      cases hm : assignOp? m with
      | none => exact hn.anywhere
      | some op => exact hs s m op hm
    · exact hn.anywhere
  · split
    · simp at h
    · exact hn

theorem Nests.clause {α : Type} {parse : Parse α} (h : Nests known pre pre parse) (stop : Mark) :
    Nests known pre pre (Template.clause stop parse) := by
  refine .looking (looks_sees_far stop) fun found => ?_
  cases found with
  | true => exact .pure none
  | false => exact h.before fun _ => .pure _

end Parse

/-! ## Statements -/

theorem assignOp_awaited {m : Mark} {op : AssignOp} (h : assignOp? m = some op) :
    m.awaited [] = some [] := by
  cases m <;> first | rfl | cases h

section Forms

variable {expression : Parse Expr} (he : Nests [] [] [] expression)

include he

theorem nests_bindings (fuel : Nat) : Nests [] [] [] (bindings expression fuel) := by
  induction fuel with
  | zero => exact .fail _
  | succ fuel ih =>
    have more (name : String) (value : Option Expr) : Nests [] [] [] (do
        if ← eat .comma then return (name, value) :: (← bindings expression fuel)
        else return [(name, value)]) :=
      .eat rfl (ih.before fun _ => .pure _) (.pure _)
    exact nests_expectName.before fun name =>
      .eat rfl (he.before fun e => more name (some e)) (more name none)

theorem nests_declaration (s : String) (fuel : Nat) :
    Nests [.name s] [] [] (declaration expression fuel) :=
  .skip rfl ((nests_bindings he fuel).before fun _ => .pure _)

theorem nests_simpleStatement : Nests [] [] [] (simpleStatement expression) := by
  refine .assignment (fun s m op hm => ?_)
    (he.before fun e => .looking (looks_tokenAt_far 0) fun o => ?_)
  · exact .skipAll [.name s, .mark m] (.cons rfl (.code (assignOp_awaited hm)))
      (he.before fun _ => .pure _)
  · split
    · exact .ite (.fail _) (.pure _)
    · exact .pure _

end Forms

theorem nests_terminated {known : List Token} {p : Parse Stmt} (h : Nests known [] [] p) :
    Nests known [] [] (terminated p) :=
  h.before fun _ => .eat rfl (.pure _) (.pure _)

theorem leads_dropSemicolons (items : List Item) :
    ∃ taken, items = taken ++ dropSemicolons items ∧ Leads [] [] taken := by
  fun_induction dropSemicolons items with
  | case1 rest ih =>
    obtain ⟨taken, he, hl⟩ := ih
    exact ⟨.code (.mark .semicolon) :: taken, congrArg _ he, .cons rfl hl⟩
  | case2 items => exact ⟨[], rfl, .nil []⟩

/-- A name that is seen stands at the head. -/
theorem seesName_eq_ok {s : String} {items rest : List Item} {found : Bool}
    (h : (seesName s).run items = .ok (found, rest)) :
    rest = items ∧ (found = true → [Token.name s].map Item.code <+: items) := by
  obtain ⟨o, mid, ho, h⟩ := run_bind_eq_ok.1 h
  rw [run_tokenAt_zero] at ho
  cases ho
  split at h <;> cases h
  · rename_i t ht
    refine ⟨rfl, fun hname => ?_⟩
    obtain rfl := beq_iff_eq.1 hname
    unfold headToken? at ht
    split at ht <;> cases ht
    exact List.prefix_append [_] _
  · exact ⟨rfl, nofun⟩

/-- The branch behind `else`, which is looked for behind semicolons. -/
theorem nests_elseBranch {statement : Parse Stmt} (hs : Nests [] [] [] statement) (test : Expr)
    (yes : Stmt) : Nests [] [] [] (do
      let behind ← get
      set (dropSemicolons behind)
      if ← seesName "else" then
        skip 1
        return Stmt.branch test yes (← statement)
      else
        set behind
        return Stmt.branch test yes .empty) := by
  intro items _ s rest hr
  rcases run_elseBranch hr with ⟨hsees, hr⟩ | ⟨rfl, rfl⟩
  · have other : Nests [.name "else"] [] [] (do
        skip 1
        return Stmt.branch test yes (← statement)) :=
      .skip rfl (hs.before fun _ => .pure _)
    obtain ⟨semicolons, hitems, hsemicolons⟩ := leads_dropSemicolons items
    obtain ⟨taken, he, hl⟩ := other _ ((seesName_eq_ok hsees).2 rfl) s rest hr
    exact ⟨semicolons ++ taken, by rw [List.append_assoc, ← he, ← hitems], hsemicolons.append hl⟩
  · exact ⟨[], rfl, .nil []⟩

/-- The header of a loop behind its opening parenthesis, and the body. A declarator in the header is
known already. -/
theorem nests_loop (known : List Token) (hknown : Leads [] [] (known.map .code))
    {expression : Parse Expr}
    (he : Nests [] [] [] expression) {first simple statement : Parse Stmt}
    (hfirst : Nests known [] [] first)
    (hsimple : Nests [] [] [] simple) (hs : Nests [] [] [] statement) :
    Nests known [.closeParen] [] (do
      match ← iteration? known.length with
      | some isOf =>
        skip known.length
        let binding ← expectName
        skip 1
        let source ← expression
        expect .closeParen
        let body ← statement
        return if isOf then Stmt.forOf binding source body else Stmt.forIn binding source body
      | none =>
        let start ← clause .semicolon first
        expect .semicolon
        let test ← clause .semicolon expression
        expect .semicolon
        let step ← clause .closeParen simple
        expect .closeParen
        let body ← statement
        return Stmt.forLoop (start.getD .empty) test (step.getD .empty) body) := by
  have hbody {make : Stmt → Stmt} : Nests [] [.closeParen] [] (do
      expect .closeParen
      return make (← statement)) :=
    (nests_expect rfl).before fun _ => hs.before fun _ => .pure _
  refine .iteration (fun isOf binding word => ?_) ?_
  · exact .skipAll known (fun below => hknown _) <| .knownName fun _ => .skip rfl <|
      (he.within _).before fun _ => hbody
  · exact ((hfirst.clause _).within _).before fun _ => (nests_expect rfl).before fun _ =>
      ((he.clause _).within _).before fun _ => (nests_expect rfl).before fun _ =>
        ((hsimple.clause _).within _).before fun _ => hbody

mutual

theorem nests_statement : ∀ fuel, Nests [] [] [] (statement fuel)
  | 0 => .fail _
  | fuel + 1 => by
    have he := nests_expression fuel
    have hs := nests_statement fuel
    have simple := nests_simpleStatement he
    -- What stands in the parentheses of a header, and behind them.
    have header {α : Type} {p : Parse α} {k : α → Parse Stmt}
        (hp : Nests [] [.closeParen] [.closeParen] p)
        (hk : ∀ a, Nests [] [] [] (k a)) : Nests [] [] [] (do
          expect .openParen
          let a ← p
          expect .closeParen
          k a) :=
      (nests_expect rfl).before fun _ => hp.before fun a => (nests_expect rfl).before fun _ => hk a
    intro items _ s rest hr
    unfold statement at hr
    obtain ⟨got, mid, hg, hr⟩ := run_bind_eq_ok.1 hr
    cases hg
    split at hr
    · cases hr
    · cases hr
      exact ⟨[.text _], rfl, fun _ => rfl⟩
    · cases hr
      exact ⟨[.output _ _], rfl, fun _ => rfl⟩
    · cases hr
      exact ⟨[.code (.mark .semicolon)], rfl, .code rfl⟩
    · exact Nests.setTail rfl ((nests_blockBody fuel).before fun _ => .pure _) hr
    · refine Nests.setTail rfl ?_ hr
      exact header (he.within _) fun test => hs.before fun yes => nests_elseBranch hs test yes
    · refine Nests.setTail rfl ((nests_expect rfl).before fun _ => ?_) hr
      exact .seesDeclarator (fun s => nests_loop [.name s] (.code rfl) he
          (nests_declaration he s fuel) simple hs)
        (nests_loop [] (.nil []) he simple simple hs)
    · exact Nests.setTail rfl (header (he.within _) fun _ => hs.before fun _ => .pure _) hr
    · exact Nests.setTail rfl (nests_terminated (.pure _)) hr
    · exact Nests.setTail rfl (nests_terminated (.pure _)) hr
    · have plain : Nests [] [] [] (do
          if ← seesDeclarator then terminated (declaration (expression fuel) fuel)
          else terminated (simpleStatement (expression fuel))) :=
        .seesDeclarator (fun s => nests_terminated (nests_declaration he s fuel))
          (nests_terminated simple)
      exact plain _ List.nil_prefix s rest hr

theorem nests_blockBody : ∀ fuel, Nests [] [.closeBrace] [] (blockBody fuel)
  | 0 => .fail _
  | fuel + 1 => by
    unfold blockBody
    exact .looking looks_get fun _ => .ite (.fail _) <| .eat rfl (.pure _) <|
      ((nests_statement fuel).within _).before fun _ =>
      (nests_blockBody fuel).before fun _ => .pure _

end

theorem nests_statements {one : Parse Stmt} (h : Nests [] [] [] one) :
    ∀ fuel, Nests [] [] [] (statements one fuel)
  | 0 => .pure _
  | fuel + 1 => by
    unfold statements
    exact .looking looks_get fun _ => .ite (.pure _) <| .looking (looks_sees_far _) fun _ =>
      .ite (.fail _) <| h.before fun _ => (nests_statements h fuel).before fun _ => .pure _

/-! ## Balanced tokens -/

/-- Whether a token is one of the six brackets. Template strings are none, whatever their
substitutions hold. -/
def Token.isBracket : Token → Bool
  | .mark m => m.closer?.isSome || m.isCloser
  | _ => false

/-- Tokens whose brackets are properly nested. -/
inductive Balanced : List Token → Prop
  | nil : Balanced []
  | plain {t : Token} {rest : List Token} (ht : t.isBracket = false) (hr : Balanced rest) :
    Balanced (t :: rest)
  | enclosed {o c : Mark} {inner rest : List Token} (hc : o.closer? = some c) (hi : Balanced inner)
    (hr : Balanced rest) : Balanced (.mark o :: (inner ++ .mark c :: rest))

theorem Balanced.append {xs ys : List Token} (hx : Balanced xs) (hy : Balanced ys) :
    Balanced (xs ++ ys) := by
  induction hx with
  | nil => exact hy
  | plain ht _ ih => exact .plain ht ih
  | enclosed hc hi _ _ ih =>
    rw [List.cons_append, List.append_assoc]
    exact .enclosed hc hi ih

/-- Tokens whose open brackets await the marks of a stack, with balanced tokens between them. -/
def AwaitsBalanced : List Mark → List Token → Prop
  | [], tokens => Balanced tokens
  | c :: stack, tokens =>
    ∃ before o inner, tokens = before ++ .mark o :: inner ∧ o.closer? = some c ∧
    AwaitsBalanced stack before ∧ Balanced inner

theorem AwaitsBalanced.append {stack : List Mark} {xs ys : List Token}
    (hx : AwaitsBalanced stack xs) (hy : Balanced ys) : AwaitsBalanced stack (xs ++ ys) := by
  cases stack with
  | nil => exact Balanced.append hx hy
  | cons c stack =>
    obtain ⟨before, o, inner, rfl, hc, hb, hi⟩ := hx
    exact ⟨before, o, inner ++ ys, by simp, hc, hb, hi.append hy⟩

/-- Tokens that await the marks of a stack keep doing so with one more token. -/
theorem AwaitsBalanced.snoc {stack stack' : List Mark} {tokens : List Token} {t : Token}
    (h : AwaitsBalanced stack tokens) (ht : t.awaited stack = some stack') :
    AwaitsBalanced stack' (tokens ++ [t]) := by
  cases t with
  | mark m =>
    simp only [Token.awaited, Mark.awaited] at ht
    split at ht
    · rename_i c hc
      cases ht
      exact ⟨tokens, m, [], rfl, hc, h, .nil⟩
    · rename_i hopen
      split at ht
      · split at ht
        · cases ht
        · split at ht <;> cases ht
          rename_i hm
          subst hm
          obtain ⟨before, o, inner, rfl, hc, hb, hi⟩ := h
          rw [List.append_assoc]
          exact hb.append (.enclosed hc hi .nil)
      · rename_i hcloser
        cases ht
        exact h.append (.plain (by simp [Token.isBracket, hopen, hcloser]) .nil)
  | template pieces =>
    simp only [Token.awaited] at ht
    split at ht <;> cases ht
    exact h.append (.plain rfl .nil)
  | name s | number x | string s =>
    cases ht
    exact h.append (.plain rfl .nil)

theorem AwaitsBalanced.append_of_awaitedBehind {stack stack' : List Mark}
    {before tokens : List Token}
    (hb : AwaitsBalanced stack before) (h : awaitedBehind tokens stack = some stack') :
    AwaitsBalanced stack' (before ++ tokens) := by
  induction tokens generalizing before stack with
  | nil =>
    cases h
    rwa [List.append_nil]
  | cons t rest ih =>
    obtain ⟨mid, ht, hr⟩ := Option.bind_eq_some_iff.1 h
    rw [List.append_cons]
    exact ih (hb.snoc ht) hr

/-- Tokens that leave nothing awaited are balanced. -/
theorem balanced_of_awaitedBehind {tokens : List Token} (h : awaitedBehind tokens [] = some []) :
    Balanced tokens :=
  (show AwaitsBalanced [] [] from Balanced.nil).append_of_awaitedBehind h

theorem Mark.isCloser_of_closer? {o c : Mark} (h : o.closer? = some c) :
    o.isCloser = false ∧ c.isCloser = true ∧ c.closer? = none := by
  cases o <;> cases h <;> exact ⟨rfl, rfl, rfl⟩

/-- Two places in one list. -/
theorem append_cons_cases {α : Type} {xs ys xs' ys' : List α} {x y : α}
    (h : xs ++ x :: ys = xs' ++ y :: ys') :
    (∃ more, xs' = xs ++ x :: more ∧ ys = more ++ y :: ys') ∨ (xs = xs' ∧ x = y ∧ ys = ys') ∨
      ∃ more, xs = xs' ++ y :: more ∧ ys' = more ++ x :: ys := by
  rcases List.append_eq_append_iff.1 h with ⟨mid, rfl, hm⟩ | ⟨mid, rfl, hm⟩
  · cases mid with
    | nil =>
      cases hm
      exact .inr (.inl ⟨(List.append_nil _).symm, rfl, rfl⟩)
    | cons z more =>
      cases hm
      exact .inl ⟨more, rfl, rfl⟩
  · cases mid with
    | nil =>
      cases hm
      exact .inr (.inl ⟨List.append_nil _, rfl, rfl⟩)
    | cons z more =>
      cases hm
      exact .inr (.inr ⟨more, rfl, rfl⟩)

/-- An opening bracket of balanced tokens has its closing mark behind it. -/
theorem Balanced.closes {tokens before after : List Token} {o c : Mark} (h : Balanced tokens)
    (ht : tokens = before ++ .mark o :: after) (hc : o.closer? = some c) :
    ∃ inner behind, after = inner ++ .mark c :: behind ∧ Balanced inner := by
  induction h generalizing before after with
  | nil => simp at ht
  | @plain t rest hplain _ ih =>
    cases before with
    | nil =>
      cases ht
      simp [Token.isBracket, hc] at hplain
    | cons x before =>
      cases ht
      exact ih rfl
  | @enclosed o' c' inner rest hc' hi _ ihi ihr =>
    cases before with
    | nil =>
      cases ht
      cases hc.symm.trans hc'
      exact ⟨inner, rest, rfl, hi⟩
    | cons x before =>
      obtain ⟨rfl, hrest⟩ := List.cons.inj ht
      obtain ⟨more, rfl, hr⟩ | ⟨-, hm, -⟩ | ⟨more, rfl, rfl⟩ := append_cons_cases hrest
      · exact ihr hr
      · cases hm
        simp [(Mark.isCloser_of_closer? hc').2.2] at hc
      · obtain ⟨inside, behind, rfl, hinside⟩ := ihi rfl
        exact ⟨inside, behind ++ .mark c' :: rest, by simp, hinside⟩

/-- A closing bracket of balanced tokens has its opening mark before it. -/
theorem Balanced.opened {tokens before after : List Token} {c : Mark} (h : Balanced tokens)
    (ht : tokens = before ++ .mark c :: after) (hc : c.isCloser = true) :
    ∃ ahead o inner, before = ahead ++ .mark o :: inner ∧ o.closer? = some c ∧ Balanced inner := by
  induction h generalizing before after with
  | nil => simp at ht
  | @plain t rest hplain _ ih =>
    cases before with
    | nil =>
      cases ht
      simp [Token.isBracket, hc] at hplain
    | cons x before =>
      cases ht
      obtain ⟨ahead, o, inner, rfl, hi⟩ := ih rfl
      exact ⟨t :: ahead, o, inner, rfl, hi⟩
  | @enclosed o' c' inner rest hc' hi _ ihi ihr =>
    cases before with
    | nil =>
      cases ht
      simp [(Mark.isCloser_of_closer? hc').1] at hc
    | cons x before =>
      obtain ⟨rfl, hrest⟩ := List.cons.inj ht
      obtain ⟨more, rfl, hr⟩ | ⟨rfl, hm, -⟩ | ⟨more, rfl, rfl⟩ := append_cons_cases hrest
      · obtain ⟨ahead, o, inside, rfl, hinside⟩ := ihr hr
        exact ⟨.mark o' :: (inner ++ .mark c' :: ahead), o, inside, by simp, hinside⟩
      · cases hm
        exact ⟨[], o', inner, rfl, hc', hi⟩
      · obtain ⟨ahead, o, inside, rfl, hinside⟩ := ihi rfl
        exact ⟨.mark o' :: ahead, o, inside, rfl, hinside⟩

/-- A bracket that has no partner: no balanced tokens stand between it and a mark that it closes or
that closes it. -/
inductive HasUnmatched (tokens : List Token) : Prop
  | opening (before : List Token) {after : List Token} {o c : Mark}
    (ht : tokens = before ++ .mark o :: after)
    (hc : o.closer? = some c)
    (hn : ∀ inner behind, after = inner ++ .mark c :: behind → ¬ Balanced inner)
  | closing {before after : List Token} {c : Mark} (ht : tokens = before ++ .mark c :: after)
    (hc : c.isCloser = true)
    (hn : ∀ ahead o inner, before = ahead ++ .mark o :: inner → o.closer? = some c →
      ¬ Balanced inner)

theorem Balanced.not_hasUnmatched {tokens : List Token} (h : Balanced tokens) :
    ¬ HasUnmatched tokens
  | .opening _ ht hc hn => by
    obtain ⟨inner, behind, he, hi⟩ := h.closes ht hc
    exact hn inner behind he hi
  | .closing ht hc hn => by
    obtain ⟨ahead, o, inner, he, ho, hi⟩ := h.opened ht hc
    exact hn ahead o inner he ho hi

/-! ## Directives -/

/-- Behind an opening bracket, its closing mark stands in the rest `after` of its directive or in
one of the directives `later`, with balanced tokens between the two. -/
inductive ClosedBehind (c : Mark) (after : List Token) (later : List (List Token)) : Prop
  | same {inner behind : List Token} (ha : after = inner ++ .mark c :: behind) (hi : Balanced inner)
  | other (between : List (List Token)) (head : List Token) {tail : List Token}
    {rest : List (List Token)} (hl : later = between ++ (head ++ .mark c :: tail) :: rest)
    (hi : Balanced (after ++ between.flatten ++ head))

theorem closedBehind_of_flatten {c : Mark} {after inner behind : List Token}
    {later : List (List Token)}
    (h : after ++ later.flatten = inner ++ .mark c :: behind) (hi : Balanced inner) :
    ClosedBehind c after later := by
  induction later generalizing after with
  | nil => exact .same (by simpa using h) hi
  | cons d later ih =>
    rw [List.flatten_cons, ← List.append_assoc] at h
    -- The mark stands in the first two directives, or else behind them.
    rcases ih h with ⟨ha, hi⟩ | ⟨between, head, rfl, hi⟩
    · rcases List.append_eq_append_iff.1 ha with ⟨mid, rfl, hd⟩ | ⟨mid, rfl, hm⟩
      · exact .other [] _ (by rw [hd]; rfl) (by simpa using hi)
      · cases mid with
        | nil =>
          cases hm
          exact .other [] [] rfl (by simpa using hi)
        | cons x mid =>
          cases hm
          exact .same rfl hi
    · exact .other (d :: between) head rfl (by simpa using hi)

/-- The code of a segment of statements. -/
def Segment.statementCode? : Segment → Option String
  | .statements code => some code
  | .text _ | .output .. => none

/-- The tokens of the statement directives of a template, for each directive. -/
def directiveTokens (segments : List Segment) : Except Malformed (List (List Token)) :=
  (segments.filterMap Segment.statementCode?).mapM tokenize

/-- Neither texts nor value directives nor the semicolons behind directives are brackets. -/
theorem awaitedBehindItems_of_segments {segments : List Segment} {itemss : List (List Item)}
    (h : segments.mapM Segment.items = .ok itemss) :
    ∃ directives, directiveTokens segments = .ok directives ∧
      ∀ stack, awaitedBehindItems itemss.flatten stack =
        awaitedBehind directives.flatten stack := by
  induction mapM_eq_ok_iff.1 h with
  | nil => exact ⟨[], rfl, fun _ => rfl⟩
  | @cons segment items segments itemss hitems hrest ih =>
    obtain ⟨directives, hd, ih⟩ := ih (mapM_eq_ok_iff.2 hrest)
    cases segment with
    | text s =>
      cases hitems
      exact ⟨directives, hd, ih⟩
    | output how code =>
      obtain ⟨e, -, hreturn⟩ := Except.bind_eq_ok_iff.1 hitems
      cases hreturn
      exact ⟨directives, hd, ih⟩
    | statements code =>
      obtain ⟨tokens, ht, hreturn⟩ := Except.bind_eq_ok_iff.1 hitems
      cases hreturn
      refine ⟨tokens :: directives, ?_, fun stack => ?_⟩
      · exact mapM_eq_ok_iff.2 (.cons ht (mapM_eq_ok_iff.1 hd))
      · rw [List.flatten_cons, List.flatten_cons, ← awaitedBehindItems_map_code, List.map_append,
          List.append_assoc, awaitedBehindItems_append, awaitedBehindItems_append]
        congr 1
        funext mid
        rw [awaitedBehindItems_map_code]
        exact ih mid

/-- The brackets of the statement directives of a compiled template are properly nested, those in
substitutions apart: each bracket that a directive opens is closed by its mark in the same directive
or in a later one. A template with an unmatched bracket does not compile. -/
theorem brackets_match_of_compiled (compiler : Compiler) (source : String) :
    (∀ program, (compiler.compile source).program = .ok program →
      ∃ segments directives, scan source = .ok segments ∧
        directiveTokens segments = .ok directives ∧
        Balanced directives.flatten ∧
        ∀ earlier before o c after later,
          directives = earlier ++ (before ++ .mark o :: after) :: later →
          o.closer? = some c → ClosedBehind c after later) ∧
    ∀ segments directives, scan source = .ok segments → directiveTokens segments = .ok directives →
      HasUnmatched directives.flatten →
      ∃ cause, (compiler.compile source).program = .error cause := by
  have balanced {program : List Stmt} (h : parse source = .ok program) :
      ∃ segments directives, scan source = .ok segments ∧
        directiveTokens segments = .ok directives ∧
        Balanced directives.flatten := by
    obtain ⟨segments, hscan, h⟩ := Except.bind_eq_ok_iff.1 h
    obtain ⟨itemss, hitems, h⟩ := Except.bind_eq_ok_iff.1 h
    obtain ⟨⟨read, rest⟩, hr, he⟩ := Except.map_eq_ok_iff.1 h
    obtain ⟨rfl, -⟩ := statements_reads_all (statement_takes _) _ _ _ _ (Nat.lt_succ_self _) hr
    obtain ⟨directives, hd, hawaited⟩ := awaitedBehindItems_of_segments hitems
    obtain ⟨taken, ht, hl⟩ := nests_statements (nests_statement _) _ _ List.nil_prefix _ _ hr
    rw [List.append_nil] at ht
    refine ⟨segments, directives, hscan, hd, balanced_of_awaitedBehind ?_⟩
    rw [← hawaited, ht]
    exact hl []
  refine ⟨fun program h => ?_, fun segments directives hscan hd hunmatched => ?_⟩
  · obtain ⟨segments, directives, hscan, hd, hb⟩ := balanced h
    refine ⟨segments, directives, hscan, hd, hb, ?_⟩
    rintro earlier before o c after later rfl hc
    have place : (earlier ++ (before ++ .mark o :: after) :: later).flatten =
        (earlier.flatten ++ before) ++ .mark o :: (after ++ later.flatten) := by simp
    obtain ⟨inner, behind, ha, hi⟩ := hb.closes place hc
    exact closedBehind_of_flatten ha hi
  · cases h : (compiler.compile source).program with
    | error cause => exact ⟨cause, rfl⟩
    | ok program =>
      obtain ⟨segments', directives', hscan', hd', hb⟩ := balanced h
      cases hscan.symm.trans hscan'
      cases hd.symm.trans hd'
      exact absurd hunmatched hb.not_hasUnmatched

/-- A branch whose brace is open at the end of the template. -/
def openSource : String :=
  "<% if (a) \x7b %>1<%= x %>"

theorem brackets_match_of_compiled_branch :
    (∃ segments directives, scan branchSource = .ok segments ∧
      directiveTokens segments = .ok directives ∧
      directives.length = 4 ∧ Balanced directives.flatten) ∧
    ∃ cause, (Compiler.compile {} openSource).program = .error cause := by
  constructor
  · have hcompiled : (Compiler.compile {} branchSource).program.toOption.isSome = true := by
      decide +kernel
    have hlength : ((scan branchSource).toOption.bind fun segments =>
        (directiveTokens segments).toOption.map List.length) = some 4 := by
      decide +kernel
    obtain ⟨program, hp⟩ := Option.isSome_iff_exists.1 hcompiled
    obtain ⟨segments, directives, hscan, hd, hb, -⟩ :=
      (brackets_match_of_compiled {} branchSource).1 program (Except.toOption_eq_some_iff.1 hp)
    refine ⟨segments, directives, hscan, hd, ?_, hb⟩
    simpa [hscan, hd, Except.toOption] using hlength
  · have hscan : scan openSource =
        .ok [.statements " if (a) \x7b ", .text "1", .output .escaped " x "] := by
      cbv
    have hd : directiveTokens [.statements " if (a) \x7b ", .text "1", .output .escaped " x "] =
        .ok [[.name "if", .mark .openParen, .name "a", .mark .closeParen, .mark .openBrace]] := by
      cbv
    refine (brackets_match_of_compiled {} openSource).2 _ _ hscan hd ?_
    exact .opening [.name "if", .mark .openParen, .name "a", .mark .closeParen] rfl rfl (by simp)

end StaticSite.Template
