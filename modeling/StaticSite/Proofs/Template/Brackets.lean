import Mathlib.Tactic.SplitIfs
import StaticSite.Proofs.Template.Denotes
import StaticSite.Proofs.Template.Leaves

/-!
# Brackets

Reading tokens one by one, each opening bracket awaits its closing mark, and a closing bracket has
to be the mark that is awaited next (`awaitedBehind`). A template string counts as closed when each
of its substitutions leaves nothing awaited. `Parse.Nests known pre post p` says that the items
which `p` takes, of which `known` come first, lead from the marks `pre` to the marks `post` above
any others. An expression leads from none to none (`nests_expression`), so the tokens of an
expression are properly nested, those in template strings included.
-/

namespace StaticSite.Template

/-! ## Awaited marks -/

/-- The mark that closes an opening bracket. -/
def Mark.closer? : Mark → Option Mark
  | openParen => some closeParen
  | openBracket => some closeBracket
  | openBrace => some closeBrace
  | _ => none

/-- Whether a mark is a closing bracket. -/
def Mark.isCloser : Mark → Bool
  | closeParen | closeBracket | closeBrace => true
  | _ => false

/-- The closing marks that are awaited behind a mark, the innermost first, unless it is a closing
mark that is not awaited next. -/
def Mark.awaited (m : Mark) (stack : List Mark) : Option (List Mark) :=
  match m.closer? with
  | some c => some (c :: stack)
  | none =>
    if m.isCloser then
      match stack with
      | [] => none
      | c :: rest => if c = m then some rest else none
    else some stack

mutual

/-- The closers that are awaited behind a token, if its brackets fit. -/
def Token.awaited : Token → List Mark → Option (List Mark)
  | .mark m, stack => m.awaited stack
  | .template pieces, stack => if piecesClosed pieces then some stack else none
  | .name _, stack | .number _, stack | .string _, stack => some stack

/-- The closing marks that are awaited behind tokens. -/
def awaitedBehind : List Token → List Mark → Option (List Mark)
  | [], stack => some stack
  | t :: rest, stack => (t.awaited stack).bind (awaitedBehind rest)

/-- Whether the tokens of each substitution are properly nested. -/
def piecesClosed : List Piece → Bool
  | [] => true
  | p :: rest => p.isClosed && piecesClosed rest

/-- Whether the brackets of a piece are balanced. -/
def Piece.isClosed : Piece → Bool
  | .text _ => true
  | .substitution code => awaitedBehind code [] == some []

end

theorem Mark.awaited_append {m : Mark} {stack stack' : List Mark}
    (h : m.awaited stack = some stack')
    (below : List Mark) : m.awaited (stack ++ below) = some (stack' ++ below) := by
  unfold Mark.awaited at h ⊢
  cases hc : m.closer? with
  | some c =>
    simp only [hc, Option.some.injEq] at h ⊢
    rw [← h, List.cons_append]
  | none =>
    simp only [hc] at h ⊢
    by_cases hm : m.isCloser
    · cases stack with
      | nil => simp [hm] at h
      | cons c rest =>
        simp only [hm, if_true, List.cons_append] at h ⊢
        split_ifs at h ⊢
        simp_all
    · simp_all

theorem Token.awaited_append {t : Token} {stack stack' : List Mark}
    (h : t.awaited stack = some stack')
    (below : List Mark) : t.awaited (stack ++ below) = some (stack' ++ below) := by
  cases t with
  | mark m => exact Mark.awaited_append h below
  | template pieces =>
    simp only [Token.awaited] at h ⊢
    split_ifs at h ⊢
    simp_all
  | name s | number x | string s => simp_all [Token.awaited]

/-! ## Items -/

/-- The closers that are awaited behind an item, if its brackets fit. -/
def Item.awaited : Item → List Mark → Option (List Mark)
  | .code t, stack => t.awaited stack
  | .text _, stack | .output .., stack => some stack

/-- The closing marks that are awaited behind items. -/
def awaitedBehindItems : List Item → List Mark → Option (List Mark)
  | [], stack => some stack
  | item :: rest, stack => (item.awaited stack).bind (awaitedBehindItems rest)

theorem awaitedBehindItems_append (xs ys : List Item) (stack : List Mark) :
    awaitedBehindItems (xs ++ ys) stack =
      (awaitedBehindItems xs stack).bind (awaitedBehindItems ys) := by
  induction xs generalizing stack with
  | nil => rfl
  | cons x rest ih =>
    simp only [List.cons_append, awaitedBehindItems, Option.bind_assoc]
    congr 1
    funext mid
    exact ih mid

theorem awaitedBehindItems_map_code (tokens : List Token) (stack : List Mark) :
    awaitedBehindItems (tokens.map .code) stack = awaitedBehind tokens stack := by
  induction tokens generalizing stack with
  | nil => rfl
  | cons t rest ih =>
    simp only [List.map_cons, awaitedBehindItems, awaitedBehind, Item.awaited]
    congr 1
    funext mid
    exact ih mid

/-- Items that lead from the marks `pre` to the marks `post`, whatever is awaited below. -/
def Leads (pre post : List Mark) (taken : List Item) : Prop :=
  ∀ below, awaitedBehindItems taken (pre ++ below) = some (post ++ below)

theorem Leads.nil (stack : List Mark) : Leads stack stack [] :=
  fun _ => rfl

theorem Leads.append {pre mid post : List Mark} {xs ys : List Item} (hx : Leads pre mid xs)
    (hy : Leads mid post ys) : Leads pre post (xs ++ ys) := by
  intro below
  rw [awaitedBehindItems_append, hx below]
  exact hy below

theorem Leads.code {pre post : List Mark} {t : Token} (h : t.awaited pre = some post) :
    Leads pre post [.code t] := by
  intro below
  simp [awaitedBehindItems, Item.awaited, Token.awaited_append h]

theorem Leads.cons {pre mid post : List Mark} {t : Token} {rest : List Item}
    (h : t.awaited pre = some mid) (hr : Leads mid post rest) : Leads pre post (.code t :: rest) :=
  (Leads.code h).append hr

/-! ## Rules for readers -/

namespace Parse

variable {α β : Type} {known : List Token} {t : Token} {m : Mark} {pre mid post : List Mark}

/-- A reader that takes items leading from `pre` to `post` where the tokens `known` come first. -/
def Nests (known : List Token) (pre post : List Mark) (p : Parse α) : Prop :=
  ∀ items, known.map Item.code <+: items → ∀ a rest, p.run items = .ok (a, rest) →
    ∃ taken, items = taken ++ rest ∧ Leads pre post taken

theorem Nests.pure (a : α) : Nests known pre pre (Pure.pure a : Parse α) := by
  intro items _ b rest hr
  cases hr
  exact ⟨[], rfl, .nil pre⟩

theorem Nests.fail (cause : Malformed) : Nests known pre post (Parse.fail cause : Parse α) := by
  intro items _ a rest hr
  cases hr

theorem Nests.failFound (cause : String → Malformed) :
    Nests known pre post (Parse.failFound cause : Parse α) := by
  intro items _ a rest hr
  cases hr

theorem Nests.anywhere {p : Parse α} (h : Nests [] pre post p) : Nests known pre post p :=
  fun items _ => h items (List.nil_prefix)

/-- What keeps its place in the brackets keeps it in any brackets. -/
theorem Nests.within {p : Parse α} (h : Nests known [] [] p) (stack : List Mark) :
    Nests known stack stack p := by
  intro items hi a rest hr
  obtain ⟨taken, he, ht⟩ := h items hi a rest hr
  exact ⟨taken, he, fun below => ht (stack ++ below)⟩

theorem Nests.before {p : Parse α} {k : α → Parse β} (hp : Nests known pre mid p)
    (hk : ∀ a, Nests [] mid post (k a)) : Nests known pre post (p >>= k) := by
  intro items hi b rest hr
  obtain ⟨a, behind, ha, hb⟩ := run_bind_eq_ok.1 hr
  obtain ⟨taken, rfl, ht⟩ := hp items hi a behind ha
  obtain ⟨more, rfl, hm⟩ := hk a behind List.nil_prefix b rest hb
  exact ⟨taken ++ more, (List.append_assoc ..).symm, ht.append hm⟩

theorem Nests.ite {c : Prop} [Decidable c] {p q : Parse α} (hp : Nests known pre post p)
    (hq : Nests known pre post q) : Nests known pre post (if c then p else q) := by
  split
  · exact hp
  · exact hq

/-- Looking at the item behind those that are known. -/
theorem Nests.tokenAt (known : List Token) {k : Option Token → Parse β}
    (hk : ∀ o, Nests (known ++ o.toList) pre post (k o)) :
    Nests known pre post (tokenAt known.length >>= k) := by
  intro items hi b rest hr
  obtain ⟨behind, rfl⟩ := hi
  have hhead : (known.map Item.code ++ behind)[known.length]? = behind.head? := by
    rw [List.getElem?_append_right (by simp), List.length_map, Nat.sub_self, List.head?_eq_getElem?]
  obtain ⟨o, mid, ho, hb⟩ := run_bind_eq_ok.1 hr
  have hlook : mid = known.map Item.code ++ behind ∧ (known ++ o.toList).map Item.code <+: mid := by
    obtain ⟨got, same, hg, ho⟩ := run_bind_eq_ok.1 ho
    cases hg
    rw [hhead] at ho
    cases behind with
    | nil =>
      cases ho
      simp
    | cons item more =>
      cases item <;> cases ho <;> simp
  obtain ⟨rfl, hknown⟩ := hlook
  exact hk o _ hknown b rest hb

/-- Looking at an item without learning anything. -/
theorem Nests.looking {n : α → Nat} {p : Parse α} {k : α → Parse β} (hp : Looks 0 n p)
    (hk : ∀ a, Nests known pre post (k a)) : Nests known pre post (p >>= k) := by
  intro items hi b rest hr
  obtain ⟨a, behind, ha, hb⟩ := run_bind_eq_ok.1 hr
  obtain ⟨rfl, -⟩ := hp items (.zero items) a behind ha
  exact hk a _ hi b rest hb

theorem Nests.skipAll {k : Unit → Parse β} (taken : List Token)
    (ht : Leads pre mid (taken.map .code))
    (hk : Nests known mid post (k ())) :
    Nests (taken ++ known) pre post (skip taken.length >>= k) := by
  intro items hi b rest hr
  obtain ⟨behind, rfl⟩ := hi
  rw [List.map_append, List.append_assoc] at hr ⊢
  obtain ⟨u, dropped, hu, hb⟩ := run_bind_eq_ok.1 hr
  cases hu
  have hdropped (items : List Item) : (taken.map Item.code ++ items).drop taken.length = items := by
    simp
  simp only [hdropped] at hb
  obtain ⟨more, he, hl⟩ := hk _ (List.prefix_append _ _) b rest hb
  exact ⟨taken.map .code ++ more, by rw [he, List.append_assoc], ht.append hl⟩

theorem Nests.skip {k : Unit → Parse β} (ht : t.awaited pre = some mid)
    (hk : Nests known mid post (k ())) :
    Nests (t :: known) pre post (skip 1 >>= k) :=
  Nests.skipAll [t] (.code ht) hk

/-- A mark is stepped over if it stands at the head. -/
theorem eat_eq_ok {items rest : List Item} {found : Bool}
    (h : (eat m).run items = .ok (found, rest)) :
    if found then items = .code (.mark m) :: rest else rest = items := by
  by_cases hm : headToken? items = some (.mark m)
  · unfold headToken? at hm
    split at hm
    · rename_i t behind
      cases hm
      rw [run_eat_self] at h
      cases h
      rfl
    · cases hm
  · rw [run_eat_of_ne hm] at h
    cases h
    rfl

theorem Nests.eat {k : Bool → Parse β} (hm : m.awaited pre = some mid)
    (hs : Nests [] mid post (k true))
    (hn : Nests known pre post (k false)) : Nests known pre post (eat m >>= k) := by
  intro items hi b rest hr
  obtain ⟨found, behind, hf, hb⟩ := run_bind_eq_ok.1 hr
  have hfound := eat_eq_ok hf
  cases found with
  | true =>
    obtain rfl : items = .code (.mark m) :: behind := hfound
    obtain ⟨taken, rfl, ht⟩ := hs behind List.nil_prefix b rest hb
    exact ⟨.code (.mark m) :: taken, rfl, .cons hm ht⟩
  | false =>
    obtain rfl : behind = items := hfound
    exact hn behind hi b rest hb

theorem nests_expect (hm : m.awaited pre = some post) : Nests known pre post (expect m) :=
  Nests.eat hm (.pure ()) (.failFound _)

theorem nests_expectName : Nests known pre pre expectName := by
  refine Nests.anywhere (Nests.tokenAt [] fun o => ?_)
  split
  · exact .skip rfl (.pure _)
  · exact .failFound _

/-- A list leads out of the bracket that its mark closes. -/
theorem nests_listTo {close : Mark} {item : Parse α} (hc : close.awaited (close :: pre) = some pre)
    (hi : Nests [] (close :: pre) (close :: pre) item) (fuel : Nat) :
    Nests [] (close :: pre) pre (listTo close item fuel) := by
  induction fuel with
  | zero => exact .fail _
  | succ fuel ih =>
    refine Nests.eat hc (.pure []) (hi.before fun x => ?_)
    have hcomma : Mark.comma.awaited (close :: pre) = some (close :: pre) := rfl
    exact .eat hcomma (ih.before fun _ => .pure _) ((nests_expect hc).before fun _ => .pure _)

end Parse

open Parse

/-! ## Expressions -/

/-- Operators that are no brackets. -/
def Operators.ArePlain (ops : Operators) : Prop :=
  ∀ m make, ops m = some make → m.awaited [] = some []

theorem nests_chain {ops : Operators} (hops : ops.ArePlain) {operand : Parse Expr}
    (ho : Nests [] [] [] operand) (fuel : Nat) (left : Expr) :
    Nests [] [] [] (chain ops operand fuel left) := by
  induction fuel generalizing left with
  | zero => exact .pure _
  | succ fuel ih =>
    refine Nests.tokenAt [] fun o => ?_
    split
    · split
      · rename_i hmake
        exact .skip (hops _ _ hmake) (ho.before fun _ => ih _)
      · exact .pure _
    · exact .pure _

theorem nests_level {ops : Operators} (hops : ops.ArePlain) {operand : Parse Expr}
    (ho : Nests [] [] [] operand) : Nests [] [] [] (level operand ops) :=
  ho.before fun _ => .looking looks_get fun _ => nests_chain hops ho _ _

theorem arePlain_of_mem_levels {ops : Operators} (h : ops ∈ levels) : ops.ArePlain := by
  intro m make hm
  simp only [levels, List.mem_cons, List.not_mem_nil, or_false] at h
  rcases h with rfl | rfl | rfl | rfl | rfl | rfl <;> cases m <;> first | rfl | cases hm

theorem nests_operation {operand : Parse Expr} (ho : Nests [] [] [] operand) :
    Nests [] [] [] (operation operand) := by
  have all (l : List Operators) (hl : ∀ ops ∈ l, ops.ArePlain) {operand : Parse Expr}
      (ho : Nests [] [] [] operand) : Nests [] [] [] (l.foldl level operand) := by
    induction l generalizing operand with
    | nil => exact ho
    | cons ops rest ih =>
      exact ih (fun o h => hl o (List.mem_cons_of_mem ops h))
        (nests_level (hl ops List.mem_cons_self) ho)
  exact all levels (fun ops h => arePlain_of_mem_levels h) ho

theorem nests_field {expression : Parse Expr} (he : Nests [] [] [] expression) :
    Nests [] [] [] (field expression) := by
  have value (key : String) : Nests [] [] [] (do
      if ← eat .colon then return (key, ← expression) else return (key, Expr.name key)) :=
    .eat rfl (he.before fun _ => .pure _) (.pure _)
  refine Nests.tokenAt [] fun o => ?_
  split
  case h_4 =>
    intro items _ a rest hr
    cases hr
  all_goals
    rw [pure_bind]
    exact .skip rfl (value _)

theorem nests_arrowBody {expression : Parse Expr} (he : Nests [] [] [] expression)
    (params : List String) :
    Nests [] [] [] (arrowBody expression params) :=
  .looking (looks_sees .openBrace) fun _ => .ite (.fail _) (he.before fun _ => .pure _)

theorem nests_updateOf {m : Mark} (hm : m.awaited [] = some []) (up : Bool) (e : Expr) :
    Nests [.mark m] [] [] (updateOf up e) := by
  unfold updateOf
  split
  · exact .skip hm (.pure _)
  · exact .fail _

/-- What a reader takes as a whole is properly nested. -/
theorem awaitedBehind_of_whole {p : Parse Expr} (hp : Nests [] [] [] p) {tokens : List Token}
    {e : Expr} (h : p.run (tokens.map .code) = .ok (e, [])) :
    awaitedBehind tokens [] = some [] := by
  obtain ⟨taken, htaken, hl⟩ := hp _ List.nil_prefix e [] h
  rw [List.append_nil] at htaken
  rw [← awaitedBehindItems_map_code, htaken]
  exact hl []

/-- The substitutions of a template string that is read are closed. -/
theorem piecesClosed_of_templateExpr {expression : Parse Expr} (he : Nests [] [] [] expression)
    {pieces : List Piece} {sum e : Expr} (h : templateExpr expression sum pieces = .ok e) :
    piecesClosed pieces = true := by
  induction pieces generalizing sum with
  | nil => rfl
  | cons p rest ih =>
    cases p with
    | text s => exact ih h
    | substitution code =>
      obtain ⟨⟨x, left⟩, hx, h⟩ := Except.bind_eq_ok_iff.1 h
      cases left with
      | cons item left => cases h
      | nil =>
        simp [piecesClosed, Piece.isClosed, awaitedBehind_of_whole he hx, ih h]

theorem leads_of_arrowParams {items rest : List Item} {params : List String}
    (h : arrowParams items = some (params, rest)) :
    ∃ taken, items = taken ++ rest ∧ Leads [.closeParen] [] taken := by
  fun_induction arrowParams items generalizing params with
  | case1 behind =>
    cases h
    exact ⟨[.code (.mark .closeParen), .code (.mark .arrow)], rfl, .cons rfl (.code rfl)⟩
  | case2 s behind =>
    cases h
    exact ⟨[.code (.name s), .code (.mark .closeParen), .code (.mark .arrow)], rfl,
      .cons rfl (.cons rfl (.code rfl))⟩
  | case3 s behind ih =>
    obtain ⟨⟨more, after⟩, hr, he⟩ := Option.map_eq_some_iff.1 h
    cases he
    obtain ⟨taken, rfl, ht⟩ := ih hr
    exact ⟨.code (.name s) :: .code (.mark .comma) :: taken, rfl, .cons rfl (.cons rfl ht)⟩
  | case4 => cases h

mutual

theorem nests_expression : ∀ fuel, Nests [] [] [] (expression fuel)
  | 0 => .failFound _
  | fuel + 1 => by
    unfold expression
    exact (nests_operation (nests_unary fuel)).before fun _ => .eat rfl
      ((nests_expression fuel).before fun _ => (nests_expect rfl).before fun _ =>
        (nests_expression fuel).before fun _ => .pure _) (.pure _)

theorem nests_unary : ∀ fuel, Nests [] [] [] (unary fuel)
  | 0 => .failFound _
  | fuel + 1 => by
    have operand (op : UnaryOp) : Nests [] [] [] (do return Expr.unary op (← unary fuel)) :=
      (nests_unary fuel).before fun _ => .pure _
    have step (up : Bool) : Nests [] [] [] (do return Expr.update (← expectName) up true) :=
      nests_expectName.before fun _ => .pure _
    have plain : Nests [] [] [] (do suffixes fuel (← primary fuel)) :=
      (nests_primary fuel).before fun e => nests_suffixes fuel e
    unfold unary
    refine Nests.tokenAt [] fun o => ?_
    split
    · exact .skip rfl (operand .not)
    · exact .skip rfl (operand .negate)
    · exact .skip rfl (operand .plus)
    · exact .skip rfl (operand .typeOf)
    · exact .skip rfl (step true)
    · exact .skip rfl (step false)
    · exact plain.anywhere

theorem nests_suffixes : ∀ fuel e, Nests [] [] [] (suffixes fuel e)
  | 0, _ => .failFound _
  | fuel + 1, e => by
    have he := nests_expression fuel
    have member (optional : Bool) :
        Nests [] [] [] (do suffixes fuel (.member e (← expectName) optional)) :=
      nests_expectName.before fun _ => nests_suffixes fuel _
    have index (optional : Bool) : Nests [] [.closeBracket] [] (do
        let key ← expression fuel
        expect .closeBracket
        suffixes fuel (.index e key optional)) :=
      (he.within _).before fun _ => (nests_expect rfl).before fun _ => nests_suffixes fuel _
    unfold suffixes
    refine Nests.tokenAt [] fun o => ?_
    split
    · exact .skip rfl (member false)
    · exact .skip rfl (.eat rfl (index true) (member true))
    · exact .skip rfl (index false)
    · exact .skip rfl ((nests_listTo rfl (he.within _) fuel).before fun _ => nests_suffixes fuel _)
    · exact nests_updateOf rfl true e
    · exact nests_updateOf rfl false e
    · exact .pure _

theorem nests_primary : ∀ fuel, Nests [] [] [] (primary fuel)
  | 0 => .failFound _
  | fuel + 1 => by
    have he := nests_expression fuel
    unfold primary
    refine Nests.tokenAt [] fun o => ?_
    split
    · exact .skip rfl (.pure _)
    · exact .skip rfl (.pure _)
    · rename_i pieces
      intro items hi e rest hr
      obtain ⟨behind, rfl⟩ := hi
      obtain ⟨x, hx, hr⟩ := Except.bind_eq_ok_iff.1 hr
      cases hr
      have hclosed := piecesClosed_of_templateExpr he hx
      exact ⟨[.code (.template pieces)], rfl, .code (by simp [Token.awaited, hclosed])⟩
    · rename_i s
      refine Nests.tokenAt [.name s] fun o => ?_
      split
      · exact .skipAll [.name s, .mark .arrow] (.cons rfl (.code rfl)) (nests_arrowBody he _)
      · exact .skip rfl (.pure _)
    · intro items hi e rest hr
      obtain ⟨behind, rfl⟩ := hi
      obtain ⟨got, mid, hg, hr⟩ := run_bind_eq_ok.1 hr
      cases hg
      split at hr
      · rename_i params after hp
        obtain ⟨taken, ht, hl⟩ := leads_of_arrowParams hp
        obtain ⟨more, rfl, hm⟩ := nests_arrowBody he params after List.nil_prefix e rest hr
        refine ⟨.code (.mark .openParen) :: (taken ++ more), ?_, .cons rfl (hl.append hm)⟩
        simpa using ht
      · have group : Nests [.mark .openParen] [] [] (do
            skip 1
            let e ← expression fuel
            expect .closeParen
            return e) :=
          .skip rfl ((he.within _).before fun _ => (nests_expect rfl).before fun _ => .pure _)
        exact group _ (List.prefix_append _ _) e rest hr
    · exact .skip rfl ((nests_listTo rfl (he.within _) fuel).before fun _ => .pure _)
    · exact .skip rfl ((nests_listTo rfl ((nests_field he).within _) fuel).before fun _ => .pure _)
    · exact .failFound _

end

end StaticSite.Template
