import Mathlib.Data.List.Basic
import StaticSite.Json.Printer
import StaticSite.Json.Reader
import StaticSite.Proofs.Decimal.Literals

/-!
# Printed strings and integers are read back

`Takes` says that a reader takes some characters off its cursor and what it makes of them. The
reader of strings takes what stands between quotes when a string is printed (`takes_stringFrom`),
and the reader of numbers the digits of a printed integer of 64 bits (`takes_number`).
-/

namespace StaticSite.Json

/-! ## Cursors -/

namespace Cursor

@[simp]
theorem rest_advance (c : Cursor) : c.advance.rest = c.rest.tail := by
  obtain ⟨_ | ⟨x, r⟩, line, column⟩ := c
  · rfl
  · unfold advance
    dsimp only
    split <;> simp_all

theorem rest_advanceBy (c : Cursor) (n : Nat) : (c.advanceBy n).rest = c.rest.drop n := by
  induction n generalizing c with
  | zero => rfl
  | succ n ih => rw [advanceBy, ih, rest_advance, List.drop_tail]

theorem skipBlanks_of_head {c : Cursor} {x : Char} {r : List Char} (hc : c.rest = x :: r)
    (hx : isJsonBlank x = false) : c.skipBlanks = c := by
  obtain ⟨rest, line, column⟩ := c
  subst hc
  have hne : (x == '\n') = false := by
    simp only [isJsonBlank, Bool.or_eq_false_iff] at hx
    exact hx.1.1.2
  simp [skipBlanks, skip, hx, hne]

theorem skipBlanks_of_nil {c : Cursor} (hc : c.rest = []) : c.skipBlanks = c := by
  obtain ⟨rest, line, column⟩ := c
  subst hc
  rfl

theorem length_le_bytesLeft (c : Cursor) : c.rest.length ≤ c.bytesLeft := by
  unfold bytesLeft
  induction c.rest with
  | nil => exact Nat.le_refl _
  | cons x r ih =>
    have hx := x.utf8Size_pos
    rw [List.foldr_cons, List.length_cons]
    omega

end Cursor

/-- The reader takes the characters off the cursor and yields `a`, where what is left may follow. -/
def Takes {α : Type} (mayFollow : List Char → Prop) (p : Cursor → Except ReadError (α × Cursor))
    (s : List Char) (a : α) : Prop :=
  ∀ c r, c.rest = s ++ r → mayFollow r → ∃ c', p c = .ok (a, c') ∧ c'.rest = r

theorem rest_word {xs r : List Char} {c : Cursor} (hc : c.rest = xs ++ r) :
    ∃ c', word c xs = .ok c' ∧ c'.rest = r := by
  induction xs generalizing c with
  | nil => exact ⟨c, rfl, hc⟩
  | cons x xs ih =>
    obtain ⟨c', hw, hr⟩ := ih (c := c.advance) (by rw [Cursor.rest_advance, hc]; rfl)
    exact ⟨c', by simp [word, hc, hw], hr⟩

/-! ## Strings -/

theorem hexValue?_hexDigit {n : Nat} (h : n < 16) : hexValue? (hexDigit n) = some n := by
  revert n
  decide

/-- The escape of a control character. -/
theorem unicodeEscape_control {x : Char} (hx : x.toNat < 0x20) :
    Takes (fun _ => True) unicodeEscape ['0', '0', hexDigit (x.toNat / 16),
      hexDigit (x.toNat % 16)] x := by
  intro c r hc _
  have bytes : ¬ c.bytesLeft < 4 := by
    have := c.length_le_bytesLeft
    rw [hc] at this
    simp only [List.length_append, List.length_cons] at this
    omega
  have digits : hexFour? '0' '0' (hexDigit (x.toNat / 16)) (hexDigit (x.toNat % 16)) =
      some x.toNat := by
    have hzero : hexValue? '0' = some 0 := by decide
    simp only [hexFour?, hzero, hexValue?_hexDigit (show x.toNat / 16 < 16 by omega),
      hexValue?_hexDigit (show x.toNat % 16 < 16 by omega)]
    simp only [Option.bind_eq_bind, Option.bind_some, Option.pure_def, Option.some.injEq]
    omega
  have escape : hexEscape c = .ok (x.toNat, c.advanceBy 4) := by
    simp only [hexEscape, if_neg bytes, hc, List.cons_append, List.nil_append, digits]
  refine ⟨c.advanceBy 4, ?_, by rw [Cursor.rest_advanceBy, hc]; rfl⟩
  unfold unicodeEscape
  rw [escape]
  have hlow : ¬ (0xdc00 ≤ x.toNat ∧ x.toNat ≤ 0xdfff) := by omega
  have hsurrogate : x.toNat < 0xd800 ∨ 0xdbff < x.toNat := by omega
  show (if 0xdc00 ≤ x.toNat ∧ x.toNat ≤ 0xdfff then _
    else if x.toNat < 0xd800 ∨ 0xdbff < x.toNat then _ else _) = _
  rw [if_neg hlow, if_pos hsurrogate, Char.ofNat_toNat]

/-- A character stands for itself between quotes, or its text is a backslash and what the reader of
escapes takes. -/
theorem escapeChar_cases (x : Char) :
    (escapeChar x = [x] ∧ x ≠ '"' ∧ x ≠ '\\' ∧ ¬ x.toNat < 0x20) ∨
    ∃ tail, escapeChar x = '\\' :: tail ∧ Takes (fun _ => True) escape tail x := by
  have letter (d : Char) (hx : escapeChar x = ['\\', d])
      (h : ∀ r line column, escape ⟨d :: r, line, column⟩ =
        .ok (x, (⟨d :: r, line, column⟩ : Cursor).advance)) :
      ∃ tail, escapeChar x = '\\' :: tail ∧ Takes (fun _ => True) escape tail x := by
    refine ⟨[d], hx, ?_⟩
    rintro ⟨_, line, column⟩ r rfl _
    exact ⟨_, h r line column, Cursor.rest_advance _⟩
  by_cases hletter : x ∈ ['"', '\\', '\x08', '\x0c', '\n', '\r', '\t']
  · simp only [List.mem_cons, List.not_mem_nil, or_false] at hletter
    rcases hletter with rfl | rfl | rfl | rfl | rfl | rfl | rfl
    all_goals exact .inr (letter _ rfl fun _ _ _ => rfl)
  · simp only [List.mem_cons, List.not_mem_nil, or_false, not_or] at hletter
    obtain ⟨hquote, hslash, hb, hf, hn, hr, ht⟩ := hletter
    by_cases hlow : x.toNat < 0x20
    · refine .inr ⟨['u', '0', '0', hexDigit (x.toNat / 16), hexDigit (x.toNat % 16)], ?_, ?_⟩
      · simp [escapeChar, hquote, hslash, hb, hf, hn, hr, ht, hlow]
      · rintro ⟨_, line, column⟩ r rfl _
        exact unicodeEscape_control hlow _ r (Cursor.rest_advance _) trivial
    · exact .inl ⟨by simp [escapeChar, hquote, hslash, hb, hf, hn, hr, ht, hlow], hquote, hslash,
        hlow⟩

theorem length_le_escaped (s : List Char) : s.length ≤ (s.flatMap escapeChar).length := by
  induction s with
  | nil => exact Nat.le_refl _
  | cons x s ih =>
    have hpos : 0 < (escapeChar x).length := by
      rcases escapeChar_cases x with ⟨hx, -⟩ | ⟨tail, hx, -⟩ <;> simp [hx]
    rw [List.flatMap_cons, List.length_append, List.length_cons]
    omega

theorem takes_stringBody (s : List Char) (before : List Char) {fuel : Nat} (hf : s.length < fuel) :
    Takes (fun _ => True) (stringBody fuel · before) (s.flatMap escapeChar ++ ['"'])
      (String.ofList (before.reverse ++ s)) := by
  induction s generalizing before fuel with
  | nil =>
    intro c r hc _
    obtain ⟨fuel, rfl⟩ : ∃ f, fuel = f + 1 := ⟨fuel - 1, by omega⟩
    refine ⟨c.advance, ?_, by rw [Cursor.rest_advance, hc]; rfl⟩
    simp [stringBody, hc]
  | cons x s ih =>
    intro c r hc _
    obtain ⟨fuel, rfl⟩ : ∃ f, fuel = f + 1 := ⟨fuel - 1, by omega⟩
    rw [List.length_cons] at hf
    have next (c' : Cursor) (hc' : c'.rest = s.flatMap escapeChar ++ ['"'] ++ r) :
        ∃ c'', stringBody fuel c' (x :: before) =
          .ok (String.ofList (before.reverse ++ x :: s), c'') ∧
          c''.rest = r := by
      have h := ih (x :: before) (show s.length < fuel by omega) c' r hc' trivial
      rwa [List.reverse_cons, List.append_assoc] at h
    rw [List.flatMap_cons, List.append_assoc, List.append_assoc] at hc
    rcases escapeChar_cases x with ⟨hx, hquote, hslash, hlow⟩ | ⟨tail, hx, takes⟩
    · rw [hx] at hc
      obtain ⟨c'', hb, hr⟩ := next c.advance (by rw [Cursor.rest_advance, hc]; simp)
      refine ⟨c'', ?_, hr⟩
      simp [stringBody, hc, hlow, hb]
    · rw [hx] at hc
      obtain ⟨c', he, hr'⟩ := takes c.advance (s.flatMap escapeChar ++ (['"'] ++ r))
        (by rw [Cursor.rest_advance, hc]; simp) trivial
      obtain ⟨c'', hb, hr⟩ := next c' (by rw [hr']; simp)
      refine ⟨c'', ?_, hr⟩
      simp [stringBody, hc, he, hb, bind, Except.bind]

/-- The text between the quotes and the closing quote. -/
theorem takes_stringFrom (s : String) :
    Takes (fun _ => True) stringFrom (s.toList.flatMap escapeChar ++ ['"']) s := by
  intro c r hc _
  have hlength : s.toList.length < c.rest.length + 1 := by
    have hchars := length_le_escaped s.toList
    rw [hc]
    simp only [List.length_append]
    omega
  have h := takes_stringBody s.toList [] hlength c r hc trivial
  rwa [List.reverse_nil, List.nil_append, String.ofList_toList] at h

/-! ## Integers -/

/-- What may stand behind a document: the end of the text or a mark that ends the document. -/
def Closes (r : List Char) : Prop :=
  ∀ x, r.head? = some x → x = ',' ∨ x = ']' ∨ x = '\x7d'

/-- The value of digits behind others. -/
def digitsAfter (kept : Nat) (ds : List Char) : Nat :=
  ds.foldl (fun n d => 10 * n + Decimal.digitValue d) kept

theorem le_digitsAfter (kept : Nat) (ds : List Char) : kept ≤ digitsAfter kept ds := by
  induction ds generalizing kept with
  | nil => exact Nat.le_refl _
  | cons d ds ih => exact Nat.le_trans (by omega) (ih (10 * kept + Decimal.digitValue d))

/-- All digits are kept if their value is below the bound. -/
theorem keepDigits_of_lt {bound kept : Nat} {ds : List Char} (h : digitsAfter kept ds < bound) :
    keepDigits bound kept ds = (digitsAfter kept ds, []) := by
  induction ds generalizing kept with
  | nil => rfl
  | cons d ds ih =>
    have hnext : kept * 10 + Decimal.digitValue d < bound := by
      have := le_digitsAfter (10 * kept + Decimal.digitValue d) ds
      rw [Nat.mul_comm]
      exact Nat.lt_of_le_of_lt this h
    rw [keepDigits]
    simp only [if_pos hnext]
    rw [Nat.mul_comm]
    exact ih h

theorem digitsAfter_natText (n : Nat) : digitsAfter 0 (Decimal.natText n) = n :=
  Decimal.digitsValue_natText n

/-- Only the text of zero begins with a zero. -/
theorem head?_natText {n : Nat} (hn : 0 < n) : (Decimal.natText n).head? ≠ some '0' := by
  induction n using Nat.strongRecOn with
  | ind n ih =>
    unfold Decimal.natText
    by_cases hsmall : n < 10
    · have digit : ∀ m < 10, 0 < m → [m.digitChar].head? ≠ some '0' := by decide
      rw [Nat.toDigits_of_lt_base hsmall]
      exact digit n hsmall hn
    · have hle : 10 ≤ n := Nat.le_of_not_lt hsmall
      rw [Nat.toDigits_of_base_le (by decide) hle,
        List.head?_append_of_ne_nil _ Nat.toDigits_ne_nil]
      exact ih (n / 10) (Nat.div_lt_self hn (by decide)) (Nat.div_pos hle (by decide))

theorem Closes.not_digit {r : List Char} (h : Closes r) :
    ∀ x, r.head? = some x → x.isDigit = false := by
  intro x hx
  rcases h x hx with rfl | rfl | rfl <;> decide

/-- The digits of a number are read to their end. -/
theorem digitRun_natText {n : Nat} {c : Cursor} {r : List Char}
    (hc : c.rest = Decimal.natText n ++ r)
    (hr : Closes r) : (digitRun c).1 = Decimal.natText n ∧ (digitRun c).2.rest = r := by
  have taken : c.rest.takeWhile Char.isDigit = Decimal.natText n := by
    have stop : r.takeWhile Char.isDigit = [] := by
      cases r with
      | nil => rfl
      | cons x r => exact List.takeWhile_cons_of_neg (by simp [hr.not_digit x rfl])
    rw [hc, List.takeWhile_append_of_pos (Decimal.isDigits_natText n).digits, stop, List.append_nil]
  refine ⟨taken, ?_⟩
  show c.rest.drop (c.rest.takeWhile Char.isDigit).length = r
  rw [taken, hc, List.drop_left]

/-- The digits of a whole number, of which a leading zero is the only one. -/
theorem wholeDigits_natText {n : Nat} {c : Cursor} {r ds : List Char} {x : Char}
    (hx : Decimal.natText n = x :: ds) (hc : c.rest = Decimal.natText n ++ r) (hr : Closes r) :
    ¬ (x = '0' ∧ ((ds ++ r).head?.map Char.isDigit).getD false = true) ∧
    ∃ after : Cursor, (if x = '0' then (['0'], c.advance) else digitRun c) =
      (Decimal.natText n, after) ∧
      after.rest = r := by
  by_cases hzero : x = '0'
  · have hn : n = 0 := Nat.eq_zero_of_not_pos fun hpos =>
      head?_natText hpos (by rw [hx, hzero]; rfl)
    subst hn
    cases hx
    refine ⟨?_, c.advance, rfl, by rw [Cursor.rest_advance, hc]; rfl⟩
    rintro ⟨-, hdigit⟩
    rw [List.nil_append] at hdigit
    cases hhead : r.head? with
    | none => simp [hhead] at hdigit
    | some y => simp [hhead, hr.not_digit y hhead] at hdigit
  · obtain ⟨hdigits, hrest⟩ := digitRun_natText hc hr
    exact ⟨fun h => hzero h.1, (digitRun c).2, by rw [if_neg hzero, ← hdigits], hrest⟩

/-- What the reader takes for an integer, where a minus sign stands before it if it is negative. -/
theorem takes_number {n : Nat} (hn : n < digitsBound) (negative : Bool)
    (hneg : negative = true → 0 < n ∧ n ≤ twoTo 63) :
    Takes Closes (number · negative) (Decimal.natText n) (.int (if negative then -n else n)) := by
  intro c r hc hr
  obtain ⟨x, ds, hx, hdigit⟩ := (Decimal.isDigits_natText n).exists_cons
  obtain ⟨hzero, after, hrun, hrest⟩ := wholeDigits_natText hx hc hr
  have kept : keepDigits digitsBound 0 (Decimal.natText n) = (n, []) := by
    have hvalue := digitsAfter_natText n
    rw [keepDigits_of_lt (hvalue.symm ▸ hn), hvalue]
  have other {y : Char} (hy : y ≠ ',' ∧ y ≠ ']' ∧ y ≠ '\x7d') :
      after.rest.head? ≠ some y := fun h => by
    rcases hr y (hrest ▸ h) with he | he | he
    · exact hy.1 he
    · exact hy.2.1 he
    · exact hy.2.2 he
  have point : after.rest.head? ≠ some '.' := other (by decide)
  have mark : isExponentMark after = false := by
    simp [isExponentMark, other (y := 'e') (by decide), other (y := 'E') (by decide)]
  refine ⟨after, ?_, hrest⟩
  have hc' : c.rest = x :: (ds ++ r) := by rw [hc, hx]; rfl
  unfold number
  simp only [hc', hdigit, Bool.not_true, Bool.false_eq_true, if_false, if_neg hzero, hrun, kept,
    if_neg point, mark, ne_eq, not_true_eq_false]
  cases negative with
  | false => rfl
  | true =>
    obtain ⟨hpos, hle⟩ := hneg rfl
    simp only [Bool.not_true, Bool.false_eq_true, if_false, if_true]
    exact if_neg (by omega)

end StaticSite.Json
