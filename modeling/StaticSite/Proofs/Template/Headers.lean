import StaticSite.Proofs.Template.Leaves

/-!
# The headers of loops

A three-part `for` is read with declarations, assignments and expressions in its header and with
nothing else (`Stmt.isPlain`), so no `break` or `continue` stands there. `Parse.Yields P p` says
that what `p` reads satisfies `P`, and `hasPlainHeaders_of_parse` that the loops of a parsed
template have such headers.
-/

namespace StaticSite.Template

/-- Whether a statement is one that the header of a loop can hold. -/
def Stmt.isPlain : Stmt → Bool
  | .declare _ | .assign .. | .expr _ | .empty => true
  | _ => false

mutual

/-- Whether the headers of all loops of a statement are plain. -/
def Stmt.hasPlainHeaders : Stmt → Bool
  | .branch _ yes no => yes.hasPlainHeaders && no.hasPlainHeaders
  | .forOf _ _ body | .forIn _ _ body | .whileLoop _ body => body.hasPlainHeaders
  | .forLoop start _ step body => start.isPlain && step.isPlain && body.hasPlainHeaders
  | .block body => allPlainHeaders body
  | _ => true

/-- Whether the headers of some statements are plain. -/
def allPlainHeaders : List Stmt → Bool
  | [] => true
  | s :: rest => s.hasPlainHeaders && allPlainHeaders rest

end

theorem Stmt.hasPlainHeaders_of_isPlain {s : Stmt} (h : s.isPlain) : s.hasPlainHeaders := by
  cases s <;> first | rfl | cases h

namespace Parse

section Rules

variable {α β : Type} {P : α → Bool} {Q : β → Bool}

/-- What is read satisfies a property. -/
def Yields (P : α → Bool) (p : Parse α) : Prop :=
  ∀ items a rest, p.run items = .ok (a, rest) → P a

theorem Yields.pure {a : α} (h : P a) : Yields P (Pure.pure a : Parse α) := by
  intro items b rest hr
  cases hr
  exact h

theorem Yields.fail (cause : Malformed) : Yields P (Parse.fail cause : Parse α) := by
  intro items a rest hr
  cases hr

theorem Yields.bind {p : Parse α} {k : α → Parse β} (hp : Yields P p)
    (hk : ∀ a, P a → Yields Q (k a)) :
    Yields Q (p >>= k) := by
  intro items b rest hr
  obtain ⟨a, mid, ha, hb⟩ := run_bind_eq_ok.1 hr
  exact hk a (hp items a mid ha) mid b rest hb

theorem Yields.after {p : Parse α} {k : α → Parse β} (hk : ∀ a, Yields Q (k a)) :
    Yields Q (p >>= k) :=
  Yields.bind (P := fun _ => true) (fun _ _ _ _ => rfl) fun a _ => hk a

theorem Yields.ite {c : Prop} [Decidable c] {p q : Parse α} (hp : Yields P p) (hq : Yields P q) :
    Yields P (if c then p else q) := by
  split
  · exact hp
  · exact hq

theorem Yields.clause {parse : Parse α} (h : Yields P parse) (stop : Mark) :
    Yields (Option.all P) (clause stop parse) :=
  .after fun _ => .ite (.pure rfl) <| .bind h fun _ ha => .pure ha

end Rules

end Parse

section Forms

open Parse

variable {expression : Parse Expr}

theorem declaration_isPlain (fuel : Nat) : Yields Stmt.isPlain (declaration expression fuel) :=
  .after fun _ => .after fun _ => .pure rfl

theorem simpleStatement_isPlain : Yields Stmt.isPlain (simpleStatement expression) := by
  refine .after fun target => ?_
  cases target with
  | some target => exact .after fun _ => .after fun _ => .pure rfl
  | none =>
    refine .after fun e => .after fun t => ?_
    split
    · exact .ite (.fail _) (.pure rfl)
    · exact .pure rfl

theorem terminated_yields {P : Stmt → Bool} {p : Parse Stmt} (h : Yields P p) :
    Yields P (terminated p) :=
  .bind h fun _ hs => .after fun _ => .pure hs

theorem plainHeaders_of_isPlain {p : Parse Stmt} (h : Yields Stmt.isPlain p) :
    Yields Stmt.hasPlainHeaders p :=
  fun items s rest hr => s.hasPlainHeaders_of_isPlain (h items s rest hr)

end Forms

open Parse

mutual

theorem statement_hasPlainHeaders : ∀ fuel, Yields Stmt.hasPlainHeaders (statement fuel)
  | 0 => .fail _
  | fuel + 1 => by
    have hs := statement_hasPlainHeaders fuel
    unfold statement
    refine .after fun items => ?_
    split
    · exact .fail _
    · exact .after fun _ => .pure rfl
    · exact .after fun _ => .pure rfl
    · exact .after fun _ => .pure rfl
    · exact .after fun _ => .bind (blockBody_hasPlainHeaders fuel) fun body hb => .pure hb
    · refine .after fun _ => .after fun _ => .after fun test => .after fun _ =>
        .bind hs fun yes hy =>
        .after fun _ => .after fun _ => .after fun _ => .ite ?_ ?_
      · refine .after fun _ => .bind hs fun no hn => .pure ?_
        exact Bool.and_eq_true_iff.2 ⟨hy, hn⟩
      · exact .after fun _ => .pure (Bool.and_eq_true_iff.2 ⟨hy, rfl⟩)
    · refine .after fun _ => .after fun _ => .after fun declared => .after fun found => ?_
      cases found with
      | some isOf =>
        refine .after fun _ => .after fun _ => .after fun _ => .after fun _ => .after fun _ =>
          .bind hs fun body hb => .pure ?_
        cases isOf <;> exact hb
      | none =>
        have first : Yields Stmt.isPlain (if declared then declaration (expression fuel) fuel
            else simpleStatement (expression fuel)) :=
          .ite (declaration_isPlain fuel) simpleStatement_isPlain
        have plain {o : Option Stmt} (h : o.all Stmt.isPlain) : (o.getD .empty).isPlain := by
          cases o with
          | none => rfl
          | some s => exact h
        refine .bind (.clause first _) fun start hstart =>
          .after fun _ => .after fun test => .after fun _ =>
          .bind (.clause simpleStatement_isPlain _) fun step hstep =>
            .after fun _ => .bind hs fun body hb =>
            .pure ?_
        exact Bool.and_eq_true_iff.2 ⟨Bool.and_eq_true_iff.2 ⟨plain hstart, plain hstep⟩, hb⟩
    · exact .after fun _ => .after fun _ => .after fun _ => .after fun _ => .bind hs fun body hb =>
        .pure hb
    · exact .after fun _ => terminated_yields (.pure rfl)
    · exact .after fun _ => terminated_yields (.pure rfl)
    · exact .after fun _ =>
        .ite (terminated_yields (plainHeaders_of_isPlain (declaration_isPlain fuel)))
        (terminated_yields (plainHeaders_of_isPlain simpleStatement_isPlain))

theorem blockBody_hasPlainHeaders : ∀ fuel, Yields allPlainHeaders (blockBody fuel)
  | 0 => .fail _
  | fuel + 1 => by
    unfold blockBody
    exact .after fun _ => .ite (.fail _) <| .after fun _ => .ite (.pure rfl) <|
      .bind (statement_hasPlainHeaders fuel) fun _ hs =>
      .bind (blockBody_hasPlainHeaders fuel) fun _ hr =>
        .pure (Bool.and_eq_true_iff.2 ⟨hs, hr⟩)

end

theorem statements_hasPlainHeaders {one : Parse Stmt} (h : Yields Stmt.hasPlainHeaders one) :
    ∀ fuel, Yields allPlainHeaders (statements one fuel)
  | 0 => .pure rfl
  | fuel + 1 =>
    .after fun _ => .ite (.pure rfl) <| .after fun _ => .ite (.fail _) <| .bind h fun _ hs =>
      .bind (statements_hasPlainHeaders h fuel) fun _ hr => .pure (Bool.and_eq_true_iff.2 ⟨hs, hr⟩)

theorem hasPlainHeaders_of_parse {source : String} {program : List Stmt}
    (h : parse source = .ok program) : allPlainHeaders program := by
  obtain ⟨segments, -, h⟩ := Except.bind_eq_ok_iff.1 h
  obtain ⟨itemss, -, h⟩ := Except.bind_eq_ok_iff.1 h
  obtain ⟨⟨read, rest⟩, hr, he⟩ := Except.map_eq_ok_iff.1 h
  cases he
  exact statements_hasPlainHeaders (statement_hasPlainHeaders _) _ _ _ _ hr

end StaticSite.Template
