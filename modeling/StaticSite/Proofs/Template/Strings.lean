import Mathlib.Data.Nat.Digits.Defs
import StaticSite.Proofs.Except
import StaticSite.Template.Tokenizer

/-!
# The grammar of strings

A string stands between two quotes of one kind. `Spells` says which texts may stand there and what
they stand for: characters for themselves, and escapes for the characters that they name. The reader
of strings accepts just these texts and stops behind the closing quote (`readString_grammar`), save
that it takes a plus sign for the first of the four digits of a code point (`SignedEscape`).
-/

namespace StaticSite.Template

/-! ## Escapes -/

/-- Hexadecimal digits and the number that they spell. -/
def SpellsHex (digits : List Char) (n : Nat) : Prop :=
  ∃ values, digits.mapM Json.hexValue? = some values ∧ n = Nat.ofDigits 16 values.reverse

/-- The letters behind a backslash that do not stand for themselves. -/
def escapeLetters : List Char :=
  ['n', 't', 'r', '0', 'u']

/-- What stands behind a backslash, and the character that it names. -/
inductive Escape : List Char → Char → Prop
  | newline : Escape ['n'] '\n'
  | tab : Escape ['t'] '\t'
  | carriageReturn : Escape ['r'] '\r'
  | zero : Escape ['0'] '\x00'
  | codePoint {digits : List Char} {c : Char} :
    digits.length = 4 → SpellsHex digits c.toNat → Escape ('u' :: digits) c
  | itself {c : Char} : c ∉ escapeLetters → Escape [c] c

/-- A code point with a plus sign for its first digit. -/
inductive SignedEscape : List Char → Char → Prop
  | codePoint {digits : List Char} {c : Char} :
    digits.length = 3 → SpellsHex digits c.toNat → SignedEscape ('u' :: '+' :: digits) c

/-- The escapes that are read. -/
def ReadEscape (e : List Char) (c : Char) : Prop :=
  Escape e c ∨ SignedEscape e c

theorem foldlM_hexValue (digits : List Char) (a : Nat) :
    digits.foldlM (fun n c => (Json.hexValue? c).map (16 * n + ·)) a =
      (digits.mapM Json.hexValue?).map (List.foldl (fun n v => 16 * n + v) a) := by
  induction digits generalizing a with
  | nil => rfl
  | cons d rest ih =>
    rw [List.foldlM_cons, List.mapM_cons]
    cases Json.hexValue? d with
    | none => rfl
    | some v =>
      show rest.foldlM _ (16 * a + v) = _
      rw [ih]
      cases rest.mapM Json.hexValue? <;> rfl

theorem foldl_eq_ofDigits (values : List Nat) :
    values.foldl (fun n v => 16 * n + v) 0 = Nat.ofDigits 16 values.reverse := by
  rw [Nat.ofDigits_eq_foldr, List.foldr_reverse]
  simp only [Nat.cast_id, Nat.add_comm]

/-- A sign is no digit. -/
theorem not_spellsHex_sign (digits : List Char) (n : Nat) : ¬ SpellsHex ('+' :: digits) n := by
  rintro ⟨values, hv, -⟩
  rw [List.mapM_cons, show Json.hexValue? '+' = none by decide] at hv
  cases hv

/-- A sign counts only where digits follow it. -/
theorem hexCode?_eq_some_iff {s : List Char} {n : Nat} : hexCode? s = some n ↔
    ∃ digits, (s = digits ∨ s = '+' :: digits) ∧ digits ≠ [] ∧ SpellsHex digits n := by
  have value {digits : List Char} :
      digits.foldlM (fun n c => (Json.hexValue? c).map (16 * n + ·)) 0 =
      some n ↔ SpellsHex digits n := by
    rw [foldlM_hexValue, Option.map_eq_some_iff]
    simp only [foldl_eq_ofDigits, SpellsHex, eq_comm]
  unfold hexCode?
  extract_lets ds
  rw [Option.ite_none_left_eq_some, value]
  constructor
  · rintro ⟨hne, hs⟩
    refine ⟨ds, ?_, hne, hs⟩
    unfold ds
    split
    · exact .inr rfl
    · exact .inl rfl
  · rintro ⟨digits, hs, hne, hd⟩
    have hds : ds = digits := by
      unfold ds
      split
      · rename_i r
        rcases hs with rfl | hs
        · exact absurd hd (not_spellsHex_sign r n)
        · exact List.tail_eq_of_cons_eq hs
      · rename_i hplus
        exact hs.resolve_right (hplus digits)
    rw [hds]
    exact ⟨hne, hd⟩

theorem unicodeChar?_eq_some_iff {digits : List Char} {c : Char} :
    unicodeChar? digits = some c ↔ hexCode? digits = some c.toNat := by
  unfold unicodeChar?
  rw [Option.bind_eq_some_iff]
  constructor
  · rintro ⟨n, hn, hc⟩
    obtain ⟨hv, ⟨⟩⟩ := Option.dite_none_right_eq_some.1 hc
    exact hn
  · intro h
    exact ⟨c.toNat, h, Option.dite_none_right_eq_some.2 ⟨c.valid, rfl⟩⟩

theorem readEscape_of_readEscape {e : List Char} {c : Char} (h : ReadEscape e c)
    (rest : List Char) :
    readEscape (e ++ rest) = .ok (c, rest) := by
  have codePoint {digits : List Char} (hlen : digits.length = 4)
      (hd : hexCode? digits = some c.toNat) :
      readEscape ('u' :: digits ++ rest) = .ok (c, rest) := by
    have htake : (digits ++ rest).take 4 = digits := by rw [← hlen, List.take_left]
    have hdrop : (digits ++ rest).drop 4 = rest := by rw [← hlen, List.drop_left]
    rw [List.cons_append, readEscape]
    simp only [htake, hdrop, unicodeChar?_eq_some_iff.2 hd]
  rcases h with h | h
  · cases h with
    | newline | tab | carriageReturn | zero => rfl
    | codePoint hlen hd =>
      refine codePoint hlen (hexCode?_eq_some_iff.2 ⟨_, .inl rfl, ?_, hd⟩)
      rintro rfl
      cases hlen
    | itself hc =>
      simp only [escapeLetters, List.mem_cons, List.not_mem_nil, or_false, not_or] at hc
      obtain ⟨hn, ht, hr, h0, hu⟩ := hc
      rw [List.singleton_append, readEscape] <;> assumption
  · obtain ⟨hlen, hd⟩ := h
    refine codePoint (by simp [hlen]) (hexCode?_eq_some_iff.2 ⟨_, .inr rfl, ?_, hd⟩)
    rintro rfl
    cases hlen

/-- Where something stands behind an escape, the escape is one of those that are read. -/
theorem exists_of_readEscape_ok {s rest : List Char} {c : Char} (h : readEscape s = .ok (c, rest))
    (hr : rest ≠ []) : ∃ e, s = e ++ rest ∧ ReadEscape e c := by
  unfold readEscape at h
  split at h
  · cases h
  · cases h
    exact ⟨['n'], rfl, .inl .newline⟩
  · cases h
    exact ⟨['t'], rfl, .inl .tab⟩
  · cases h
    exact ⟨['r'], rfl, .inl .carriageReturn⟩
  · cases h
    exact ⟨['0'], rfl, .inl .zero⟩
  · rename_i r
    split at h
    · rename_i x hx
      cases h
      have hlen : (r.take 4).length = 4 := by
        have := List.length_pos_iff.2 hr
        rw [List.length_drop] at this
        rw [List.length_take]
        omega
      refine ⟨'u' :: r.take 4, by simp, ?_⟩
      obtain ⟨digits, hd, -, hs⟩ := hexCode?_eq_some_iff.1 (unicodeChar?_eq_some_iff.1 hx)
      rcases hd with hd | hd
      · exact .inl (.codePoint hlen (hd ▸ hs))
      · rw [hd] at hlen ⊢
        exact .inr (.codePoint (Nat.succ.inj hlen) hs)
    · cases h
  · rename_i hn ht hr' h0 hu
    cases h
    refine ⟨[c], rfl, .inl (.itself ?_)⟩
    simp only [escapeLetters, List.mem_cons, List.not_mem_nil, or_false, not_or]
    exact ⟨hn, ht, hr', h0, hu⟩

/-- No escape of the grammar begins with a sign for a digit. -/
theorem Escape.append_ne_sign {e rest tail : List Char} {c : Char} (h : Escape e c) :
    e ++ rest ≠ 'u' :: '+' :: tail := by
  intro he
  cases h with
  | newline | tab | carriageReturn | zero => cases he
  | codePoint hlen hd =>
    rename_i digits
    cases digits with
    | nil => cases hlen
    | cons d ds =>
      cases he
      exact not_spellsHex_sign ds _ hd
  | itself hc =>
    cases he
    exact hc (by decide)

/-! ## Strings -/

/-- What stands between the quotes `q`, with the given escapes, and the text that it stands for. -/
inductive Spells (escape : List Char → Char → Prop) (q : Char) : List Char → List Char → Prop
  | nil : Spells escape q [] []
  | plain {c : Char} {body text : List Char} :
    c ≠ q → c ≠ '\\' → Spells escape q body text → Spells escape q (c :: body) (c :: text)
  | escaped {e body text : List Char} {c : Char} :
    escape e c → Spells escape q body text → Spells escape q ('\\' :: (e ++ body)) (c :: text)

section Reading

variable {q : Char} {s text after : List Char}

theorem readString_quote (q : Char) (after : List Char) :
    readString q (q :: after) = .ok ([], after) := by
  rw [readString, if_pos rfl]

theorem readString_plain {c : Char} (hq : c ≠ q) (hb : c ≠ '\\') (s : List Char) :
    readString q (c :: s) = (readString q s).map fun (text, after) => (c :: text, after) := by
  rw [readString, if_neg hq, if_neg hb]

theorem readString_escape {c : Char} {rest : List Char} (hq : q ≠ '\\')
    (h : readEscape s = .ok (c, rest)) :
    readString q ('\\' :: s) = (readString q rest).map fun (text, after) => (c :: text, after) := by
  rw [readString, if_neg hq.symm, if_pos rfl]
  split
  · rename_i he
    cases h.symm.trans he
  · rename_i he
    cases h.symm.trans he
    rfl

/-- What the grammar allows is read. -/
theorem readString_of_spells {body : List Char} (hq : q ≠ '\\') (h : Spells ReadEscape q body text)
    (after : List Char) : readString q (body ++ q :: after) = .ok (text, after) := by
  induction h with
  | nil => exact readString_quote q after
  | plain hc hb _ ih =>
    rw [List.cons_append, readString_plain hc hb, ih]
    rfl
  | escaped he _ ih =>
    rw [List.cons_append, List.append_assoc, readString_escape hq (readEscape_of_readEscape he _),
      ih]
    rfl

/-- What is read is what the grammar allows, up to the closing quote. -/
theorem spells_of_readString (h : readString q s = .ok (text, after)) :
    ∃ body, s = body ++ q :: after ∧ Spells ReadEscape q body text := by
  fun_induction readString q s generalizing text after with
  | case1 => cases h
  | case2 r =>
    cases h
    exact ⟨[], rfl, .nil⟩
  | case3 r hq e he => cases h
  | case4 r x rest he hq ih =>
    obtain ⟨⟨more, behind⟩, hread, hpair⟩ := Except.map_eq_ok_iff.1 h
    cases hpair
    obtain ⟨body, rfl, hbody⟩ := ih hread
    obtain ⟨e, rfl, hescape⟩ := exists_of_readEscape_ok he (by simp)
    exact ⟨'\\' :: (e ++ body), by simp, .escaped hescape hbody⟩
  | case5 c r hq hb ih =>
    obtain ⟨⟨more, behind⟩, hread, hpair⟩ := Except.map_eq_ok_iff.1 h
    cases hpair
    obtain ⟨body, rfl, hbody⟩ := ih hread
    exact ⟨c :: body, rfl, .plain hq hb hbody⟩

end Reading

/-! ## Signs and quoting -/

namespace Spells

variable {q : Char} {body text : List Char}

theorem mono {escape escape' : List Char → Char → Prop} (he : ∀ e c, escape e c → escape' e c)
    (h : Spells escape q body text) : Spells escape' q body text := by
  induction h with
  | nil => exact .nil
  | plain hq hb _ ih => exact .plain hq hb ih
  | escaped hc _ ih => exact .escaped (he _ _ hc) ih

/-- Without a plus sign behind `\u` all escapes are of the grammar. -/
theorem withoutSigns (h : Spells ReadEscape q body text) (hs : ¬ ['\\', 'u', '+'] <:+: body) :
    Spells Escape q body text := by
  induction h with
  | nil => exact .nil
  | plain hq hb _ ih =>
    exact .plain hq hb (ih fun hi => hs (hi.trans (List.suffix_cons _ _).isInfix))
  | escaped hc _ ih =>
    rename_i e rest text c h
    have hrest : ¬ ['\\', 'u', '+'] <:+: rest :=
      fun hi => hs (hi.trans ((List.suffix_append e rest).trans (List.suffix_cons _ _)).isInfix)
    refine .escaped (hc.resolve_right ?_) (ih hrest)
    rintro ⟨-, -⟩
    exact hs ⟨[], _, rfl⟩

end Spells

/-- A text with a backslash before each marked character. -/
def backslashed (marked : Char → Bool) (text : List Char) : List Char :=
  text.flatMap fun c => if marked c then ['\\', c] else [c]

theorem spells_backslashed {q : Char} {marked : Char → Bool} (hq : marked q = true)
    (hb : marked '\\' = true) (hm : ∀ c, marked c = true → c ∉ escapeLetters) (text : List Char) :
    Spells Escape q (backslashed marked text) text := by
  induction text with
  | nil => exact .nil
  | cons c rest ih =>
    rw [backslashed, List.flatMap_cons]
    split
    · rename_i hc
      exact .escaped (.itself (hm c hc)) ih
    · rename_i hc
      refine .plain ?_ ?_ ih
      · rintro rfl
        exact hc hq
      · rintro rfl
        exact hc hb

/-- A text that begins with a quote is a string exactly when the grammar allows what stands before
some other such quote, and is read up to behind that quote; only signs go beyond the grammar. So a
text in which quotes and backslashes have a backslash is read back. -/
theorem readString_grammar {q : Char} (hq : isQuote q = true) :
    (∀ s text after, readString q s = .ok (text, after) ↔
      ∃ body, s = body ++ q :: after ∧ Spells ReadEscape q body text) ∧
    (∀ body text, ¬ ['\\', 'u', '+'] <:+: body →
      (Spells ReadEscape q body text ↔ Spells Escape q body text)) ∧
    ∀ marked : Char → Bool, marked q = true → marked '\\' = true →
      (∀ c, marked c = true → isQuote c = true ∨ c = '\\') →
      ∀ text after, readString q (backslashed marked text ++ q :: after) = .ok (text, after) := by
  have hne : q ≠ '\\' := by
    rintro rfl
    cases hq
  have ofGrammar {body text : List Char} (h : Spells Escape q body text) :
      Spells ReadEscape q body text :=
    h.mono fun _ _ => .inl
  refine ⟨fun s text after => ⟨spells_of_readString, ?_⟩,
    fun body text hs => ⟨fun h => h.withoutSigns hs,
    ofGrammar⟩, fun marked hmq hmb hm text after => ?_⟩
  · rintro ⟨body, rfl, h⟩
    exact readString_of_spells hne h after
  · have letters (c : Char) (hc : marked c = true) : c ∉ escapeLetters := by
      intro hl
      have hp : isQuote c = true ∨ c = '\\' := hm c hc
      revert hp
      simp only [escapeLetters, List.mem_cons, List.not_mem_nil, or_false] at hl
      rcases hl with rfl | rfl | rfl | rfl | rfl <;> decide
    exact readString_of_spells hne (ofGrammar (spells_backslashed hmq hmb letters text)) after

/-- Escapes of each kind, a quote of another kind, and a quote that is quoted. -/
theorem readString_grammar_sample :
    isQuote '\'' = true ∧
      readString '\'' ['\\', 'n', '"', '\\', 'u', '0', '6', 'F', 'f', '\\', '\'', '\'', '+'] =
        .ok (['\n', '"', '\u06ff', '\''], ['+']) ∧
      readString '\'' (backslashed (fun c => isQuote c || c == '\\') ['a', '\'', '\\', 'n'] ++
        ['\'', ';']) =
        .ok (['a', '\'', '\\', 'n'], [';']) := by
  obtain ⟨reads, signs, quoting⟩ := readString_grammar (q := '\'') (by decide)
  have hex : SpellsHex ['0', '6', 'F', 'f'] '\u06ff'.toNat := ⟨[0, 6, 15, 15], by decide, by decide⟩
  have quote : Spells Escape '\'' ['\\', '\''] ['\''] :=
    .escaped (show Escape ['\''] '\'' from .itself (by decide)) .nil
  have codePoint :
      Spells Escape '\'' ['\\', 'u', '0', '6', 'F', 'f', '\\', '\''] ['\u06ff', '\''] :=
    .escaped (show Escape ['u', '0', '6', 'F', 'f'] '\u06ff' from .codePoint rfl hex) quote
  have body : Spells Escape '\'' ['\\', 'n', '"', '\\', 'u', '0', '6', 'F', 'f', '\\', '\'']
      ['\n', '"', '\u06ff', '\''] :=
    .escaped Escape.newline (.plain (by decide) (by decide) codePoint)
  refine ⟨by decide, (reads _ _ _).2 ⟨_, rfl, (signs _ _ (by decide)).2 body⟩,
    quoting _ (by decide) (by decide) (fun c hc => ?_) _ _⟩
  simpa using hc

/-- A plus sign and three digits are read as a code point, which the grammar does not allow. -/
theorem readString_beyond_grammar :
    readString '\'' ['\\', 'u', '+', '0', '4', '1', '\''] = .ok (['A'], []) ∧
      ¬ ∃ body text after, ['\\', 'u', '+', '0', '4', '1', '\''] = body ++ '\'' :: after ∧
        Spells Escape '\'' body text := by
  have hex : SpellsHex ['0', '4', '1'] 'A'.toNat := ⟨[0, 4, 1], by decide, by decide⟩
  have signed : Spells ReadEscape '\'' ['\\', 'u', '+', '0', '4', '1'] ['A'] :=
    .escaped (show ReadEscape ['u', '+', '0', '4', '1'] 'A' from .inr (.codePoint rfl hex)) .nil
  refine ⟨readString_of_spells (by decide) signed [], ?_⟩
  rintro ⟨body, text, after, he, h⟩
  cases h with
  | nil => cases he
  | plain hq hb _ =>
    exact hb (List.head_eq_of_cons_eq he).symm
  | escaped hc _ =>
    rw [List.cons_append, List.append_assoc] at he
    exact hc.append_ne_sign (List.tail_eq_of_cons_eq he.symm)

end StaticSite.Template
