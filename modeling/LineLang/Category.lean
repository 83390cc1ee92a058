import LineLang.Pattern

/-!
# Categories of text

The closed set of lexical categories. Each has a label, a pattern, and a recogniser that takes the
longest first part of a text that belongs to it. Categories overlap: `inc` is a word, an identifier
and an operand.

Models `Lexeme`, with `name`, `pattern`, `matches` and `classify`.

* `Category.munch?`: the longest first part of a text in a category, and what follows it.
* `Category.accepts`: whether a whole text belongs to a category.
* `Category.classify?`: the first category, in the order of the catalog, of a whole text.

Results:
* `munch?_append_and_ne_nil`: what is taken is a first part of the text, and not empty.
-/

namespace LineLang

/-- A lexical category. -/
inductive Category where
  /-- A row of letters. -/
  | word
  /-- A marker and the rest of its line. -/
  | comment
  /-- A name: letters, digits, `$` and `_`, with no digit in front. -/
  | identifier
  /-- A number in brackets. -/
  | sizeSuffix
  /-- A name or a number. -/
  | operand
  /-- The end of a line. -/
  | newline
  deriving DecidableEq, Repr

namespace Category

/-! ## The catalog -/

/-- All categories, in the order of the catalog. -/
def catalog : List Category := [word, comment, identifier, sizeSuffix, operand, newline]

/-- The label of a category. -/
def label : Category → Text
  | word => "instruction".toList
  | comment => "comment".toList
  | identifier => "varName".toList
  | sizeSuffix => "arraySymbol".toList
  | operand => "varNameOrNumber".toList
  | newline => "EOL".toList

/-- A text that is no category's label was looked up. -/
structure UnknownLabel where
  label : Text

/-- What is said of an unknown label. -/
def UnknownLabel.message (_ : UnknownLabel) : Text := "Matching variant not found".toList

/-- The category with a given label. -/
def ofLabel (t : Text) : Except UnknownLabel Category :=
  match catalog.find? (·.label == t) with
  | some c => .ok c
  | none => .error ⟨t⟩

/-- The texts of a category, as a pattern. -/
def pattern : Category → Pattern
  | word => .many1 (.oneOf .letter)
  | comment =>
    .seq
      (.either (.seq (.char '/') (.char '/'))
        (.either (.seq (.char '-') (.char '-')) (.char '#')))
      (.many (.oneOf .inLine))
  | identifier => identifierPattern
  | sizeSuffix => .seq (.char '[') (.seq numberPattern (.char ']'))
  | operand => .either identifierPattern numberPattern
  | newline => .char '\n'
where
  /-- A first character and any number of others. -/
  identifierPattern : Pattern := .seq (.oneOf .identifierStart) (.many (.oneOf .identifierRest))
  /-- One digit or more. -/
  numberPattern : Pattern := .many1 (.oneOf .digit)

/-! ## Recognition -/

/-- Splits a text after the longest first part whose characters belong to `rest`, provided that
its first character belongs to `first`. -/
def run? (first rest : CharClass) : Text → Option (Text × Text)
  | [] => none
  | c :: t =>
    if first.contains c then
      some (c :: t.takeWhile rest.contains, t.dropWhile rest.contains)
    else
      none

/-- A comment marker with the rest of its line, and what follows that line. -/
def lineAfter (marker t : Text) : Text × Text :=
  (marker ++ t.takeWhile CharClass.inLine.contains, t.dropWhile CharClass.inLine.contains)

/-- Splits a text after the comment it begins with. -/
def munchComment? : Text → Option (Text × Text)
  | '/' :: '/' :: t => some (lineAfter ['/', '/'] t)
  | '-' :: '-' :: t => some (lineAfter ['-', '-'] t)
  | '#' :: t => some (lineAfter ['#'] t)
  | _ => none

/-- Splits a text after the number in brackets it begins with. -/
def munchSuffix? : Text → Option (Text × Text)
  | '[' :: t =>
    match run? .digit .digit t with
    | some (digits, ']' :: rest) => some ('[' :: digits ++ [']'], rest)
    | _ => none
  | _ => none

/-- Splits a text after the longest first part that belongs to a category. -/
def munch? : Category → Text → Option (Text × Text)
  | word, t => run? .letter .letter t
  | comment, t => munchComment? t
  | identifier, t => run? .identifierStart .identifierRest t
  | sizeSuffix, t => munchSuffix? t
  | operand, t => (run? .identifierStart .identifierRest t).or (run? .digit .digit t)
  | newline, '\n' :: t => some (['\n'], t)
  | newline, _ => none

/-- Whether the whole of a text belongs to a category. -/
def accepts (c : Category) (t : Text) : Bool :=
  match c.munch? t with
  | some (_, []) => true
  | _ => false

/-- The categories a whole text belongs to, in the order of the catalog. -/
def accepting (t : Text) : List Category := catalog.filter (·.accepts t)

/-- The first category, in the order of the catalog, that a whole text belongs to. -/
def classify? (t : Text) : Option Category := catalog.find? (·.accepts t)

/-! ## What is taken -/

theorem run?_append {first rest : CharClass} {t taken after : Text}
    (h : run? first rest t = some (taken, after)) : taken ++ after = t ∧ taken ≠ [] := by
  cases t with
  | nil => simp [run?] at h
  | cons c t =>
    rw [run?] at h
    split at h
    · obtain ⟨rfl, rfl⟩ : _ ∧ _ := by simpa using h
      simp [List.takeWhile_append_dropWhile]
    · simp at h

theorem lineAfter_append (marker t : Text) :
    (lineAfter marker t).1 ++ (lineAfter marker t).2 = marker ++ t := by
  simp [lineAfter, List.takeWhile_append_dropWhile]

theorem munchComment?_append {t taken after : Text}
    (h : munchComment? t = some (taken, after)) : taken ++ after = t ∧ taken ≠ [] := by
  unfold munchComment? at h
  split at h
  · cases h; exact ⟨lineAfter_append _ _, by simp⟩
  · cases h; exact ⟨lineAfter_append _ _, by simp⟩
  · cases h; exact ⟨lineAfter_append _ _, by simp⟩
  · cases h

theorem munchSuffix?_append {t taken after : Text}
    (h : munchSuffix? t = some (taken, after)) : taken ++ after = t ∧ taken ≠ [] := by
  unfold munchSuffix? at h
  split at h
  · split at h
    · rename_i digits rest hrun
      obtain ⟨rfl, rfl⟩ : _ ∧ _ := by simpa using h
      simp [← (run?_append hrun).1]
    · simp at h
  · simp at h

theorem munch?_append_and_ne_nil {c : Category} {t taken after : Text}
    (h : c.munch? t = some (taken, after)) : taken ++ after = t ∧ taken ≠ [] := by
  unfold munch? at h
  split at h
  · exact run?_append h
  · exact munchComment?_append h
  · exact run?_append h
  · exact munchSuffix?_append h
  · rcases Option.or_eq_some_iff.1 h with h | ⟨_, h⟩
    · exact run?_append h
    · exact run?_append h
  · obtain ⟨rfl, rfl⟩ : _ ∧ _ := by simpa using h
    simp
  · simp at h

/-- What a category takes and what follows it make up the text. -/
theorem munch?_append {c : Category} {t taken after : Text}
    (h : c.munch? t = some (taken, after)) : taken ++ after = t :=
  (munch?_append_and_ne_nil h).1

end Category

end LineLang
