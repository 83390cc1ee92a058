import LineLang.Text.Decimal

/-!
# Settings

What may be set before programs are parsed: whether all declarations go to the global scope, and the
sizes an array may have. Settings that exist are usable: their range of sizes is not empty and holds
no size of zero.

Models `ParserConfig`, `ParserBuilder.build` and `BuildParserError`.
-/

namespace LineLang

/-- How programs are parsed. -/
structure Settings where
  collapses : Bool
  least : UInt64
  most : UInt64
  least_pos : 0 < least
  least_le_most : least ≤ most

/-- Why a choice of settings is of no use. -/
inductive SettingsFault where
  | noSize (least most : UInt64)
  | zeroCells
  deriving DecidableEq, Repr

/-- What is said of a useless choice of settings. -/
def SettingsFault.message : SettingsFault → Text
  | .noSize least most =>
    "no array size is allowed by ".toList ++ Text.Decimal.ofNat least.toNat ++ "..=".toList ++
      Text.Decimal.ofNat most.toNat
  | .zeroCells => "arrays must have at least one cell".toList

namespace Settings

/-- The smallest size of an array unless another is chosen. -/
def defaultLeast : UInt64 := 1

/-- The largest size of an array unless another is chosen. -/
def defaultMost : UInt64 := 256

/-- The settings with the given choices. An empty range of sizes is refused before one that holds
zero. -/
def build (collapses : Bool) (least most : UInt64) : Except SettingsFault Settings :=
  if le : least ≤ most then
    if pos : 0 < least then
      .ok ⟨collapses, least, most, pos, le⟩
    else
      .error .zeroCells
  else
    .error (.noSize least most)

/-- Whether an array may have this size. -/
def allows (s : Settings) (size : UInt64) : Bool :=
  decide (s.least ≤ size) && decide (size ≤ s.most)

/-- The settings without any choice. -/
def default : Settings :=
  ⟨true, defaultLeast, defaultMost, by decide, by decide⟩

end Settings

end LineLang
