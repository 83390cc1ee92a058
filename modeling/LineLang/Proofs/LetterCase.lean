import LineLang.Symbol
import LineLang.Proofs.Line
import LineLang.Proofs.Lowercase
import LineLang.Proofs.Scan

/-!
# Reading is blind to letter case

No pattern of the catalog names an ASCII letter, and each of their classes has a letter in both
cases or in none. So nothing that is read depends on case: a source with its letters in lower case
is cut at the same places, into tokens of the same categories, and these make lines at the same
places.

About `Lexeme.matches`, `lexer`, `Lines` and `normalize`.

* `Text.foldCase`: a text with its ASCII letters in lower case.
* `CharClass.Caseless`, `Pattern.Caseless`: what does not tell the cases of a letter apart.

Results:
* `accepts_foldCase_iff`, `accepts_foldCase`: patterns and categories.
* `normalize_of_identifier`: the lower case of an identifier.
* `munchFirst?_foldCase`: what is taken at a place.
* `scan_foldCase`: the tokens of a source.
* `ofTokens_foldCase`: the lines of a row of tokens.
-/

namespace LineLang

/-! ## Characters -/

namespace CharClass

/-- A class that has a letter in both cases or in none. -/
def Caseless (s : CharClass) : Prop := ∀ c : Char, s.contains c.toLower = s.contains c

/-- Only letters are changed, and only into letters. -/
theorem toLower_eq_iff {c d : Char} (hd : letter.contains d = false) : c.toLower = d ↔ c = d := by
  rw [← Char.toNat_inj, ← Char.toNat_inj, Text.toNat_toLower]
  have hnot : ¬ ((97 ≤ d.toNat ∧ d.toNat ≤ 122) ∨ (65 ≤ d.toNat ∧ d.toNat ≤ 90)) := by
    rw [← letter_iff, hd]
    exact Bool.false_ne_true
  split <;> omega

theorem letter_caseless : letter.Caseless := by
  intro c
  rw [Bool.eq_iff_iff, letter_iff, letter_iff, Text.toNat_toLower]
  split <;> omega

theorem digit_caseless : digit.Caseless := by
  intro c
  rw [Bool.eq_iff_iff, digit_iff, digit_iff, Text.toNat_toLower]
  split <;> omega

theorem identifierStart_caseless : identifierStart.Caseless := by
  intro c
  rw [Bool.eq_iff_iff, identifierStart_iff, identifierStart_iff, toLower_eq_iff (by decide),
    toLower_eq_iff (by decide), letter_caseless c]

theorem identifierRest_caseless : identifierRest.Caseless := by
  intro c
  rw [Bool.eq_iff_iff, identifierRest_iff, identifierRest_iff, identifierStart_caseless c,
    digit_caseless c]

theorem inLine_caseless : inLine.Caseless := by
  intro c
  rw [Bool.eq_iff_iff, inLine_iff, inLine_iff, Ne, toLower_eq_iff (by decide)]

end CharClass

/-! ## Texts -/

namespace Text

theorem toLower_of_not_capital {c : Char} (h : ¬ (65 ≤ c.toNat ∧ c.toNat ≤ 90)) : c.toLower = c :=
  Char.toNat_inj.1 ((toNat_toLower c).trans (if_neg h))

theorem toLower_toLower (c : Char) : c.toLower.toLower = c.toLower := by
  refine toLower_of_not_capital ?_
  rw [toNat_toLower]
  split <;> omega

theorem utf8Size_toLower (c : Char) : c.toLower.utf8Size = c.utf8Size := by
  by_cases h : 65 ≤ c.toNat ∧ c.toNat ≤ 90
  · have hone : ∀ {d : Char}, d.toNat ≤ 127 → d.utf8Size = 1 := fun hd =>
      Char.utf8Size_eq_one_iff.2 (UInt32.le_iff_toNat_le.2 hd)
    have hlower : c.toLower.toNat ≤ 127 := by
      rw [toNat_toLower, if_pos h]
      omega
    rw [hone hlower, hone (by omega)]
  · rw [toLower_of_not_capital h]

/-- A text with its ASCII letters in lower case. -/
def foldCase (t : Text) : Text := t.map Char.toLower

@[simp] theorem foldCase_cons (c : Char) (t : Text) :
    foldCase (c :: t) = c.toLower :: t.foldCase := rfl

@[simp] theorem foldCase_append (t u : Text) : foldCase (t ++ u) = t.foldCase ++ u.foldCase :=
  List.map_append

@[simp] theorem length_foldCase (t : Text) : t.foldCase.length = t.length := List.length_map ..

@[simp] theorem foldCase_foldCase (t : Text) : t.foldCase.foldCase = t.foldCase := by
  rw [foldCase, foldCase, List.map_map]
  exact List.map_congr_left fun c _ => toLower_toLower c

@[simp] theorem byteLength_foldCase (t : Text) : t.foldCase.byteLength = t.byteLength := by
  induction t with
  | nil => rfl
  | cons c t ih => rw [foldCase_cons, byteLength_cons, byteLength_cons, utf8Size_toLower, ih]

/-- A text that is one character in some case is one character. -/
theorem exists_of_foldCase_eq_singleton {t : Text} {c : Char} (h : t.foldCase = foldCase [c]) :
    ∃ d, t = [d] ∧ d.toLower = c.toLower := by
  obtain ⟨d, rest, rfl, hd, hrest⟩ := List.map_eq_cons_iff.1 h
  rw [List.map_eq_nil_iff.1 hrest]
  exact ⟨d, rfl, hd⟩

/-- A text that is two texts in some case is made of these two. -/
theorem exists_of_foldCase_eq_append {t u v : Text} (h : t.foldCase = foldCase (u ++ v)) :
    ∃ u' v', t = u' ++ v' ∧ foldCase u' = u.foldCase ∧ foldCase v' = v.foldCase := by
  rw [foldCase_append] at h
  exact List.map_eq_append_iff.1 h

end Text

/-! ## Patterns -/

namespace Pattern

/-- A pattern that names no letter and has classes only that do not tell the cases of one apart. -/
def Caseless : Pattern → Prop
  | .char c => CharClass.letter.contains c = false
  | .oneOf s => s.Caseless
  | .seq p q => p.Caseless ∧ q.Caseless
  | .either p q => p.Caseless ∧ q.Caseless
  | .many p => p.Caseless
  | .many1 p => p.Caseless

/-- What a pattern accepts, it accepts in any other case as well: the letters of the parts are
those of the whole. -/
theorem Accepts.recased {p : Pattern} {t u : Text} (h : Accepts p t) (hp : p.Caseless)
    (hu : u.foldCase = t.foldCase) : Accepts p u := by
  induction h generalizing u with
  | char c =>
    obtain ⟨d, rfl, hd⟩ := Text.exists_of_foldCase_eq_singleton hu
    have hc : c.toLower = c := (CharClass.toLower_eq_iff hp).2 rfl
    rw [hc, CharClass.toLower_eq_iff hp] at hd
    rw [hd]
    exact .char c
  | oneOf hc =>
    obtain ⟨d, rfl, hd⟩ := Text.exists_of_foldCase_eq_singleton hu
    exact .oneOf (by rw [← hp d, hd, hp, hc])
  | seq _ _ iht ihu =>
    obtain ⟨u₁, u₂, rfl, h₁, h₂⟩ := Text.exists_of_foldCase_eq_append hu
    exact .seq (iht hp.1 h₁) (ihu hp.2 h₂)
  | left _ ih => exact .left (ih hp.1 hu)
  | right _ ih => exact .right (ih hp.2 hu)
  | manyNil =>
    rw [List.map_eq_nil_iff.1 hu]
    exact .manyNil
  | manyCons _ _ iht ihu =>
    obtain ⟨u₁, u₂, rfl, h₁, h₂⟩ := Text.exists_of_foldCase_eq_append hu
    exact .manyCons (iht hp h₁) (ihu hp h₂)
  | many1 _ _ iht ihu =>
    obtain ⟨u₁, u₂, rfl, h₁, h₂⟩ := Text.exists_of_foldCase_eq_append hu
    exact .many1 (iht hp h₁) (ihu hp h₂)

theorem accepts_foldCase_iff {p : Pattern} (hp : p.Caseless) {t : Text} :
    Accepts p t.foldCase ↔ Accepts p t :=
  ⟨fun h => h.recased hp (Text.foldCase_foldCase t).symm,
    fun h => h.recased hp (Text.foldCase_foldCase t)⟩

end Pattern

namespace Category

open Pattern (Accepts)
open CharClass

/-- No pattern of the catalog tells the cases of a letter apart: the characters that they name are
no letters. -/
theorem pattern_caseless (c : Category) : c.pattern.Caseless := by
  have hidentifier : pattern.identifierPattern.Caseless :=
    ⟨identifierStart_caseless, identifierRest_caseless⟩
  cases c with
  | word => exact letter_caseless
  | comment => exact ⟨⟨⟨rfl, rfl⟩, ⟨rfl, rfl⟩, rfl⟩, inLine_caseless⟩
  | identifier => exact hidentifier
  | sizeSuffix => exact ⟨rfl, digit_caseless, rfl⟩
  | operand => exact ⟨hidentifier, digit_caseless⟩
  | newline => rfl

/-- **Categories are blind to letter case.** -/
theorem accepts_foldCase (c : Category) (t : Text) : c.accepts t.foldCase = c.accepts t := by
  rw [Bool.eq_iff_iff, accepts_iff, accepts_iff, Pattern.accepts_foldCase_iff c.pattern_caseless]

/-- The characters of an identifier are ASCII, so its lower case is that of its letters. -/
theorem normalize_of_identifier {name : Text} (h : Accepts identifier.pattern name) :
    Symbol.normalize name = name.foldCase := by
  obtain ⟨c, u, rfl, hc, hu⟩ := accepts_row.1 h
  refine Text.lower_of_ascii (List.forall_mem_cons.2 ⟨?_, fun d hd => ?_⟩)
  · exact (graphic_of_identifierRest (identifierRest_iff.2 (Or.inl hc))).2
  · exact (graphic_of_identifierRest (hu d hd)).2

/-- Names that differ by the case of letters are stored as one. -/
theorem normalize_foldCase {name : Text} (h : Accepts identifier.pattern name) :
    Symbol.normalize name.foldCase = Symbol.normalize name := by
  have hfold := (Pattern.accepts_foldCase_iff identifier.pattern_caseless).2 h
  rw [normalize_of_identifier hfold, normalize_of_identifier h, Text.foldCase_foldCase]

/-- There are no letters in a size suffix. -/
theorem foldCase_of_sizeSuffix {suffix : Text} (h : Accepts sizeSuffix.pattern suffix) :
    suffix.foldCase = suffix := by
  obtain ⟨digits, hdigits, rfl⟩ := accepts_sizeSuffix.1 h
  have hsame : ∀ d ∈ digits, d.toLower = d := fun d hd => by
    have := digit_iff.1 ((row_self_iff.1 hdigits).2 d hd)
    exact Text.toLower_of_not_capital (by omega)
  rw [Text.foldCase, List.map_append, List.map_cons, List.map_congr_left hsame, List.map_id']
  rfl

/-- First parts of a text with its letters in lower case. -/
theorem exists_of_prefix_foldCase {t w : Text} (h : w <+: t.foldCase) :
    ∃ v : Text, v <+: t ∧ v.foldCase = w := by
  obtain ⟨x, hx⟩ := h
  obtain ⟨v, r, rfl, rfl, -⟩ := List.map_eq_append_iff.1 hx.symm
  exact ⟨v, List.prefix_append v r, rfl⟩

/-- **As much is taken in any case.** -/
theorem munchFirst?_foldCase (t : Text) :
    munchFirst? t.foldCase = (munchFirst? t).map (Prod.map Text.foldCase Text.foldCase) := by
  cases h : munchFirst? t with
  | none =>
    rw [Option.map_none, munchFirst?_eq_none_iff]
    intro c w hw hacc
    obtain ⟨v, hv, rfl⟩ := exists_of_prefix_foldCase hw
    exact munchFirst?_eq_none_iff.1 h c v hv
      ((Pattern.accepts_foldCase_iff c.pattern_caseless).1 hacc)
  | some way =>
    obtain ⟨u, r⟩ := way
    obtain ⟨rfl, ⟨c, hc⟩, hlongest⟩ := munchFirst?_eq_some_iff.1 h
    refine munchFirst?_eq_some_iff.2 ⟨(Text.foldCase_append u r).symm,
      ⟨c, (Pattern.accepts_foldCase_iff c.pattern_caseless).2 hc⟩, fun d w hw hacc => ?_⟩
    obtain ⟨v, hv, rfl⟩ := exists_of_prefix_foldCase hw
    rw [Text.length_foldCase, Text.length_foldCase]
    exact hlongest d v hv ((Pattern.accepts_foldCase_iff d.pattern_caseless).1 hacc)

end Category

/-! ## Tokens and lines -/

namespace Token

/-- A token with its letters in lower case. -/
def foldCase (k : Token) : Token := ⟨k.text.foldCase, k.offset⟩

theorem is_foldCase (k : Token) (c : Category) : k.foldCase.is c = k.is c :=
  c.accepts_foldCase k.text

end Token

namespace Cursor

theorem Scanned.foldCase {o : Nat} {t : Text} {ts : List Token} (h : Scanned o t ts) :
    Scanned o t.foldCase (ts.map Token.foldCase) := by
  induction h with
  | done o => exact .done o
  | @skip o c t ts h _ ih =>
    have hmunch := Category.munchFirst?_foldCase (c :: t)
    rw [h] at hmunch
    exact .skip hmunch ((Text.utf8Size_toLower c).symm ▸ ih)
  | @take o u r ts h _ ih =>
    have hmunch := Category.munchFirst?_foldCase (u ++ r)
    rw [h, Text.foldCase_append] at hmunch
    rw [Text.foldCase_append]
    exact .take hmunch ((Text.byteLength_foldCase u).symm ▸ ih)

end Cursor

/-- **Sources are cut at the same places in any case.** -/
theorem Token.scan_foldCase (source : Text) :
    Token.scan source.foldCase = (Token.scan source).map Token.foldCase :=
  (Cursor.scanned_iff.1 (Cursor.scanned_tokens 0 source).foldCase).symm

/-- A line with the letters of all its tokens in lower case. -/
def Line.foldCase : Line → Line := Line.mapTokens Token.foldCase 0

/-- **Tokens make the same lines in any case.** -/
theorem Line.ofTokens_foldCase (ts : List Token) :
    Line.ofTokens (ts.map Token.foldCase) = (Line.ofTokens ts).map Line.foldCase :=
  LineReader.lines_map Token.is_foldCase 0 0 ts

end LineLang
