import Mathlib.Tactic.TFAE
import LineLang.Proofs.LineEnd
import LineLang.Proofs.Linking

/-!
# Scanning parts of a source

A part of a source may be cut out and scanned by itself. The pieces between newlines have the tokens
that they have in the source, whatever stands at their ends. A token has no other token in it: the
texts that are one token are those that belong to a category as a whole.

About `lexer`, `Lexeme.matches` and `Lexeme.classify`.

* `Token.scanPieces`: the tokens of a row of pieces, each piece scanned by itself.

Results:
* `tokens_join`: the tokens of pieces with newlines between them.
* `scan_pieces`: scanning a source is scanning its pieces.
* `munchFirst?_whole_iff`: the texts that are taken as a whole.
* `scan_eq_singleton_tfae`: the texts that are one token.
* `scan_classified`: scanning agrees with the categories of whole texts.
-/

namespace LineLang

/-! ## Pieces between newlines -/

namespace Token

/-- The tokens of a row of pieces with newlines between them, the first of which begins at an
offset. Each piece is scanned by itself. -/
def scanPieces (offset : Nat) : List Text → List Token
  | [] => []
  | [p] => (scan p).map (moved offset)
  | p :: q :: ps =>
    (scan p).map (moved offset) ++
      ⟨['\n'], offset + p.byteLength⟩ :: scanPieces (offset + p.byteLength + 1) (q :: ps)

theorem tokens_eq_map_scan (o : Nat) (t : Text) :
    Cursor.tokens ⟨o, t⟩ = (scan t).map (moved o) := by
  have hmoved := Cursor.tokens_add 0 o t
  rwa [Nat.zero_add] at hmoved

/-- **The tokens of pieces with newlines between them**, by induction on the pieces. -/
theorem tokens_join (o : Nat) (ps : List Text) :
    Cursor.tokens ⟨o, Text.join ['\n'] ps⟩ = scanPieces o ps := by
  induction ps generalizing o with
  | nil => exact Cursor.tokens_nil o
  | cons p ps ih =>
    cases ps with
    | nil => rw [Text.join_singleton, scanPieces, tokens_eq_map_scan]
    | cons q ps =>
      rw [Text.join_cons_cons, List.singleton_append, Cursor.tokens_append_newline, ih, scanPieces,
        tokens_eq_map_scan]

/-- **Scanning is piece by piece.** With a newline between them two texts have the tokens of the
first, the newline, and the tokens of the second, further on by what is before them. So it is for
any number of pieces, and every source is made of the pieces between its newlines. -/
theorem scan_pieces :
    (∀ a b : Text, scan (a ++ '\n' :: b) =
      scan a ++ ⟨['\n'], a.byteLength⟩ :: (scan b).map (moved (a.byteLength + 1))) ∧
    (∀ ps, scan (Text.join ['\n'] ps) = scanPieces 0 ps) ∧
    ∀ source : Text, scan source = scanPieces 0 (source.splitOn '\n') := by
  have hjoin : ∀ ps, scan (Text.join ['\n'] ps) = scanPieces 0 ps := tokens_join 0
  refine ⟨scan_append_newline, hjoin, fun source => ?_⟩
  rw [← hjoin, Text.join, List.intercalate_splitOn]

/-- A lone `/` at the end of the first piece makes no marker with the one below it, the bracket is
not closed by the one on the next line, and a comment ends with its line. -/
example : scanPieces 0 ["a/".toList, "/[12".toList, "]#é".toList, "3".toList] =
    [⟨"a".toList, 0⟩, ⟨"\n".toList, 2⟩, ⟨"12".toList, 5⟩, ⟨"\n".toList, 7⟩, ⟨"#é".toList, 9⟩,
      ⟨"\n".toList, 12⟩, ⟨"3".toList, 13⟩] := by
  decide +kernel

end Token

/-! ## Texts that are one token -/

namespace Category

open Pattern

variable {t : Text}

/-- The texts that have a category at all. -/
theorem exists_classify?_iff :
    (∃ c, classify? t = some c) ↔ ∃ c : Category, Accepts c.pattern t := by
  have hcatalog : ∀ c : Category, c ∈ catalog := fun c => by cases c <;> decide
  rw [classify?, ← Option.isSome_iff_exists, List.find?_isSome]
  constructor
  · rintro ⟨c, -, hc⟩
    exact ⟨c, accepts_iff.1 hc⟩
  · rintro ⟨c, hc⟩
    exact ⟨c, hcatalog c, accepts_iff.2 hc⟩

/-- **The texts that are taken as a whole** are those that belong to a category. -/
theorem munchFirst?_whole_iff : munchFirst? t = some (t, []) ↔ ∃ c : Category, Accepts c.pattern t :=
  ⟨accepts_of_munchFirst?, fun ⟨_, h⟩ => munchFirst?_of_accepts h⟩

end Category

/-- A text is one token where scanning takes all of it at once. -/
theorem Cursor.tokens_eq_singleton_iff {o : Nat} {t : Text} :
    tokens ⟨o, t⟩ = [⟨t, o⟩] ↔ Category.munchFirst? t = some (t, []) := by
  refine ⟨fun h => ?_, tokens_all⟩
  have hmem : (⟨t, o⟩ : Token) ∈ tokens ⟨o, t⟩ := by
    rw [h]
    exact List.mem_singleton_self _
  obtain ⟨before, after, ht, -, hmunch⟩ := (scanned_tokens o t).taken hmem
  -- the token is as long as the text, so there is nothing before it and after it
  have hlength := congrArg List.length ht
  simp only [List.length_append] at hlength
  obtain rfl : after = [] := List.length_eq_zero_iff.1 (by omega)
  simpa using hmunch

namespace Token

/-- **The texts that are one token**: for the scanner, for the catalog, by the patterns, and for a
matcher that tries all patterns in scanning order. -/
theorem scan_eq_singleton_tfae (t : Text) :
    [scan t = [⟨t, 0⟩], ∃ c, Category.classify? t = some c,
      ∃ c : Category, c.pattern.Accepts t,
      Category.scanPattern.first? t = some (t, [])].TFAE := by
  tfae_have 1 ↔ 3 := Cursor.tokens_eq_singleton_iff.trans Category.munchFirst?_whole_iff
  tfae_have 2 ↔ 3 := Category.exists_classify?_iff
  tfae_have 4 ↔ 3 := by
    rw [← Category.munchFirst?_eq_first?]
    exact Category.munchFirst?_whole_iff
  tfae_finish

/-- **Scanning agrees with the categories of whole texts.** A text is one token exactly if it has a
category, and every token of a source has one and is the only token of its text. -/
theorem scan_classified :
    (∀ t, scan t = [⟨t, 0⟩] ↔ ∃ c, Category.classify? t = some c) ∧
      ∀ source, ∀ k ∈ scan source,
        (∃ c, k.is c = true) ∧ scan k.text = [⟨k.text, 0⟩] := by
  refine ⟨fun t => (scan_eq_singleton_tfae t).out 0 1, fun source k hk => ?_⟩
  obtain ⟨_, _, _, _, hmunch⟩ := (Cursor.scanned_tokens 0 source).taken hk
  obtain ⟨c, hc⟩ := Category.accepts_of_munchFirst? hmunch
  have hwhole : scan k.text = [⟨k.text, 0⟩] ↔ ∃ c : Category, c.pattern.Accepts k.text :=
    (scan_eq_singleton_tfae k.text).out 0 2
  exact ⟨⟨c, Category.accepts_iff.2 hc⟩, hwhole.2 ⟨c, hc⟩⟩

/-- A comment with markers in it, after a lone half of one, is one token of its source and of its
own text. With its newline it is two, and so are a number and the name after it. -/
theorem scan_classified_comment :
    ⟨"#é--//".toList, 5⟩ ∈ scan "12ab/#é--//\n".toList ∧
      scan "#é--//".toList = [⟨"#é--//".toList, 0⟩] ∧
      scan "#é--//\n".toList ≠ [⟨"#é--//\n".toList, 0⟩] ∧
      scan "12ab".toList ≠ [⟨"12ab".toList, 0⟩] := by
  obtain ⟨hwhole, htokens⟩ := scan_classified
  have hmem : ⟨"#é--//".toList, 5⟩ ∈ scan "12ab/#é--//\n".toList := by decide +kernel
  have hnone : ∀ {t}, Category.classify? t = none → scan t ≠ [⟨t, 0⟩] := fun hnone h => by
    obtain ⟨c, hc⟩ := (hwhole _).1 h
    rw [hnone] at hc
    cases hc
  exact ⟨hmem, (htokens _ _ hmem).2, hnone (by decide +kernel), hnone (by decide +kernel)⟩

end Token

end LineLang
