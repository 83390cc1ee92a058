import Mathlib.Data.Nat.Digits.Defs
import LineLang.Proofs.Overlap
import LineLang.Proofs.Printing

/-!
# Sizes of arrays, digit by digit

A size is read by a loop over the digits between the brackets of a suffix. The loop works with words
of 64 bits, and every multiplication and every addition in it may fail; so may the search for either
bracket. Read in this way, a suffix denotes the number that its digits denote, however many there
are and whatever zeros they begin with: a step fails only where the number itself is too large.

Here the bounds that a size has to be within are any two words. Settings have such bounds, with less
freedom.

About `array_size` and `declare`, with each step that they take.

* `Text.Decimal.readChecked?`: a number of 64 bits, by steps that may fail.
* `Declaration.sizeChecked?`: the number of a suffix, by steps that may fail.
* `Declaration.declareTokens`: the declarations of a row of tokens, one token after another.

Results:
* `foldlM_pushDigit?`: the loop fails only for large numbers.
* `readChecked?_eq`: all numbers are read as they are without overflow.
* `sizeChecked?_eq`: the brackets of a suffix are found.
* `apply_var_eq_declareTokens`: to apply `var` is to go over its parameters.
* `declareTokens_suffix`: a suffix on the way.
* `apply_var_size`: what becomes of an array of any size.
-/

namespace LineLang

open Category (sizeSuffix)

namespace Text

/-! ## Numbers by steps that may fail -/

namespace Decimal

/-- A number as a word of 64 bits, if it fits. -/
def word? (n : Nat) : Option UInt64 := if n < UInt64.size then some (UInt64.ofNat n) else none

/-- The product of two words, if it is a word. -/
def mulWord? (a b : UInt64) : Option UInt64 :=
  if a.toNat * b.toNat < UInt64.size then some (a * b) else none

/-- The sum of two words, if it is a word. -/
def addWord? (a b : UInt64) : Option UInt64 :=
  if a.toNat + b.toNat < UInt64.size then some (a + b) else none

/-- The value of the character of a digit. -/
def digitValue (c : Char) : Nat := c.toNat - '0'.toNat

/-- The word of a digit, if the character is one. -/
def digitWord? (c : Char) : Option UInt64 :=
  if c.isDigit then some (UInt64.ofNat (digitValue c)) else none

/-- The word of a number that is followed by one more digit. -/
def pushDigit? (n : UInt64) (c : Char) : Option UInt64 := do
  let tens ← mulWord? n 10
  let d ← digitWord? c
  addWord? tens d

/-- A number of 64 bits after at most one `+`, by steps that may fail. -/
def readChecked? (t : Text) : Option UInt64 :=
  match dropSign t with
  | [] => none
  | digits => digits.foldlM pushDigit? 0

theorem mulWord?_eq (a b : UInt64) : mulWord? a b = word? (a.toNat * b.toNat) := by
  rw [mulWord?, word?, UInt64.ofNat_mul, UInt64.ofNat_toNat, UInt64.ofNat_toNat]

theorem addWord?_eq (a b : UInt64) : addWord? a b = word? (a.toNat + b.toNat) := by
  rw [addWord?, word?, UInt64.ofNat_add, UInt64.ofNat_toNat, UInt64.ofNat_toNat]

theorem word?_of_lt {n : Nat} (h : n < UInt64.size) : word? n = some (UInt64.ofNat n) := if_pos h

theorem word?_of_le {n : Nat} (h : UInt64.size ≤ n) : word? n = none := if_neg (Nat.not_lt.2 h)

theorem digitValue_lt {c : Char} (h : c.isDigit = true) : digitValue c < 10 := by
  obtain ⟨-, hmost⟩ := Char.isDigit_iff_toNat.1 h
  have hzero : '0'.toNat = 48 := rfl
  have hnine : '9'.toNat = 57 := rfl
  rw [digitValue]
  omega

/-- **One more digit** fails if it is none, and if the longer number is too large: it does not
matter whether the multiplication fails or the addition. -/
theorem pushDigit?_eq (n : UInt64) (c : Char) :
    pushDigit? n c = if c.isDigit then word? (10 * n.toNat + digitValue c) else none := by
  have hten : n.toNat * (10 : UInt64).toNat = 10 * n.toNat := Nat.mul_comm _ _
  rw [pushDigit?, mulWord?_eq, hten, digitWord?]
  cases hc : c.isDigit with
  | false => cases word? (10 * n.toNat) <;> rfl
  | true =>
    rw [if_pos rfl, if_pos rfl]
    rcases Nat.lt_or_ge (10 * n.toNat) UInt64.size with hlt | hge
    · have hd : digitValue c < UInt64.size := Nat.lt_trans (digitValue_lt hc) (by decide)
      rw [word?_of_lt hlt, Option.bind_eq_bind, Option.bind_some, Option.bind_some, addWord?_eq,
        UInt64.toNat_ofNat_of_lt' hlt, UInt64.toNat_ofNat_of_lt' hd]
    · rw [word?_of_le hge, word?_of_le (Nat.le_add_right_of_le hge)]
      rfl

/-- The number that is denoted by a number and a row of digits after it. -/
def extended (n : Nat) (digits : Text) : Nat :=
  digits.foldl (fun n c => 10 * n + digitValue c) n

theorem extended_cons (n : Nat) (c : Char) (digits : Text) :
    extended n (c :: digits) = extended (10 * n + digitValue c) digits := by
  rw [extended, List.foldl_cons, extended]

/-- More digits do not make a number smaller. -/
theorem le_extended (n : Nat) (digits : Text) : n ≤ extended n digits := by
  induction digits generalizing n with
  | nil => exact Nat.le_refl n
  | cons c digits ih =>
    have := ih (10 * n + digitValue c)
    rw [extended_cons]
    omega

/-- **The loop over the digits fails only where the number does not fit**, by induction on the
digits: a number that is too large stays so with more digits. -/
theorem foldlM_pushDigit? (n : UInt64) (digits : Text) :
    digits.foldlM pushDigit? n =
      if digits.all Char.isDigit then word? (extended n.toNat digits) else none := by
  induction digits generalizing n with
  | nil => exact (word?_of_lt n.toNat_lt_size).symm ▸ by rw [UInt64.ofNat_toNat]; rfl
  | cons c digits ih =>
    rw [List.foldlM_cons, pushDigit?_eq, List.all_cons, extended_cons]
    cases hc : c.isDigit with
    | false => rfl
    | true =>
      rw [if_pos rfl, Bool.true_and]
      rcases Nat.lt_or_ge (10 * n.toNat + digitValue c) UInt64.size with hlt | hge
      · rw [word?_of_lt hlt, Option.bind_eq_bind, Option.bind_some, ih,
          UInt64.toNat_ofNat_of_lt' hlt]
      · rw [word?_of_le hge, word?_of_le (Nat.le_trans hge (le_extended _ digits)), ite_self]
        rfl

/-- **Numbers are read as they are**: no step overflows unless the number does. -/
theorem readChecked?_eq (t : Text) : readChecked? t = readWord? t := by
  rw [readChecked?, readWord?]
  cases dropSign t with
  | nil => rfl
  | cons c digits =>
    have hvalue : extended (0 : UInt64).toNat (c :: digits) = value (c :: digits) := rfl
    have hloop := foldlM_pushDigit? 0 (c :: digits)
    rw [hvalue] at hloop
    refine hloop.trans ?_
    simp only [word?, List.isEmpty_cons, Bool.not_false, Bool.true_and, Bool.and_eq_true,
      decide_eq_true_eq, ite_and]

/-- The number of a row of digits, by the values of its places. -/
theorem value_eq_ofDigits (digits : Text) :
    value digits = Nat.ofDigits 10 (digits.reverse.map digitValue) := by
  induction digits using List.reverseRecOn with
  | nil => rfl
  | append_singleton digits c ih =>
    rw [List.reverse_append, List.reverse_singleton, List.singleton_append, List.map_cons,
      Nat.ofDigits_cons, ← ih, value, List.foldl_append, Nat.add_comm]
    rfl

end Decimal

/-! ## Brackets -/

/-- A text without its first character, if that is the given one. -/
def stripFirst? (c : Char) : Text → Option Text
  | [] => none
  | d :: t => if d = c then some t else none

/-- A text without its last character, if that is the given one. -/
def stripLast? (c : Char) (t : Text) : Option Text := (stripFirst? c t.reverse).map List.reverse

theorem stripFirst?_cons (c : Char) (t : Text) : stripFirst? c (c :: t) = some t := if_pos rfl

theorem stripLast?_append_singleton (c : Char) (t : Text) : stripLast? c (t ++ [c]) = some t := by
  rw [stripLast?, List.reverse_append, List.reverse_singleton, List.singleton_append,
    stripFirst?_cons, Option.map_some, List.reverse_reverse]

end Text

namespace Declaration

open Text.Decimal

variable {least most : UInt64} {s : Nat} {t u : SymbolTable}

/-! ## Suffixes -/

/-- The number between the brackets of a suffix, by steps that may fail. -/
def sizeChecked? (suffix : Text) : Option UInt64 := do
  let rest ← Text.stripFirst? '[' suffix
  let digits ← Text.stripLast? ']' rest
  readChecked? digits

/-- The size of a suffix, if it is within two bounds. -/
def readWithin (least most : UInt64) (suffix : Text) : Except ValueFault UInt64 :=
  match sizeChecked? suffix with
  | none => .error (.notASize suffix)
  | some size =>
    if least ≤ size ∧ size ≤ most then .ok size else .error (.sizeOutOfRange size least most)

/-- **The brackets of a suffix are found**, and its number is read as it is. -/
theorem sizeChecked?_eq {suffix : Text} (h : sizeSuffix.pattern.Accepts suffix) :
    sizeChecked? suffix = sizeOfSuffix? suffix := by
  obtain ⟨digits, -, rfl⟩ := Category.accepts_sizeSuffix.1 h
  rw [sizeChecked?, sizeOfSuffix?, dropLast_drop_bracketed, List.cons_append, Text.stripFirst?_cons,
    Option.bind_eq_bind, Option.bind_some, Text.stripLast?_append_singleton, Option.bind_some,
    readChecked?_eq]

theorem readWithin_eq_readSize (settings : Settings) {suffix : Text}
    (h : sizeSuffix.pattern.Accepts suffix) :
    readWithin settings.least settings.most suffix = readSize settings suffix := by
  rw [readWithin, readSize, sizeChecked?_eq h]
  cases sizeOfSuffix? suffix with
  | none => rfl
  | some size => simp only [Settings.allows, Bool.and_eq_true, decide_eq_true_eq]

theorem readWithin_of_le {suffix : Text} (h : sizeSuffix.pattern.Accepts suffix)
    (hbig : UInt64.size ≤ cells suffix) :
    readWithin least most suffix = .error (.notASize suffix) := by
  rw [readWithin, sizeChecked?_eq h, sizeOfSuffix?_eq h, if_neg (Nat.not_lt.2 hbig)]

theorem readWithin_of_lt {suffix : Text} (h : sizeSuffix.pattern.Accepts suffix)
    (hlt : cells suffix < UInt64.size) :
    readWithin least most suffix =
      if least.toNat ≤ cells suffix ∧ cells suffix ≤ most.toNat then
        .ok (UInt64.ofNat (cells suffix))
      else
        .error (.sizeOutOfRange (UInt64.ofNat (cells suffix)) least most) := by
  rw [readWithin, sizeChecked?_eq h, sizeOfSuffix?_eq h, if_pos hlt]
  simp only [UInt64.le_iff_toNat_le, UInt64.toNat_ofNat_of_lt' hlt]

/-- **A size that is out of bounds** is named as a number without leading zeros. -/
theorem reason_sizeOutOfRange {n : Nat} (h : n < UInt64.size) (least most : UInt64) :
    (ValueFault.sizeOutOfRange (UInt64.ofNat n) least most).reason =
      "array size ".toList ++ Nat.toDigits 10 n ++ " must be between ".toList ++
        Nat.toDigits 10 least.toNat ++ " and ".toList ++ Nat.toDigits 10 most.toNat := by
  have hn := UInt64.toNat_ofNat_of_lt' h
  unfold ValueFault.reason
  simp only [hn]
  rw [ofNat_eq_toDigits, ofNat_eq_toDigits, ofNat_eq_toDigits]

/-! ## Parameters one after another -/

/-- The symbol of a name with the suffix after it, if there is one. -/
def symbolWithin (least most : UInt64) (name : Text) : Option Text → Except ValueFault Symbol
  | none => .ok (.ofName name)
  | some suffix =>
    match readWithin least most suffix with
    | .ok size => .ok ((Symbol.ofName name).withArraySize size)
    | .error fault => .error fault

/-- One parameter, with those after it: an identifier declares its name, with the suffix that
directly follows it; nothing else declares anything. -/
def declareToken (least most : UInt64) (s : Nat) (t : SymbolTable) (k : Token) (ks : List Token) :
    Except DeclarationFault SymbolTable :=
  if k.is .identifier then
    match symbolWithin least most k.text (leadingSuffix? ks) with
    | .error fault => .error (.value fault)
    | .ok symbol =>
      match t.add s symbol with
      | .error symbol => .error (.duplicate symbol)
      | .ok (t, _) => .ok t
  else
    .ok t

/-- All parameters in order, up to the first that fails. -/
def declareTokens (least most : UInt64) (s : Nat) (t : SymbolTable) :
    List Token → SymbolTable × Except DeclarationFault Nat
  | [] => (t, .ok s)
  | k :: ks =>
    match declareToken least most s t k ks with
    | .ok t => declareTokens least most s t ks
    | .error fault => (t, .error fault)

theorem symbolWithin_eq_symbol (settings : Settings) {d : Declaration} (h : d.Proper) :
    symbolWithin settings.least settings.most d.name d.suffix = d.symbol settings := by
  unfold symbolWithin symbol
  cases hsuffix : d.suffix with
  | none => rfl
  | some suffix =>
    have hread := readWithin_eq_readSize settings (h suffix hsuffix)
    cases hsize : readSize settings suffix <;> simp only [hread, hsize]

/-- One parameter makes the declaration that is read off it. -/
theorem declareToken_eq_declare (settings : Settings) (s : Nat) (t : SymbolTable) {k : Token}
    (hk : k.is .identifier = true) (ks : List Token) :
    declareToken settings.least settings.most s t k ks =
      declare settings s t ⟨k.text, leadingSuffix? ks⟩ := by
  have hmem : ⟨k.text, leadingSuffix? ks⟩ ∈ ofTokens (k :: ks) := by
    rw [ofTokens, if_pos hk]
    exact List.mem_cons_self
  have hsymbol : symbolWithin settings.least settings.most k.text (leadingSuffix? ks) =
      symbol settings ⟨k.text, leadingSuffix? ks⟩ :=
    symbolWithin_eq_symbol settings (proper_of_mem_ofTokens hmem)
  rw [declareToken, if_pos hk]
  cases hresult : symbol settings ⟨k.text, leadingSuffix? ks⟩ with
  | error fault => simp only [declare, hsymbol, hresult]
  | ok symbol => cases hadd : t.add s symbol <;> simp only [declare, hsymbol, hresult, hadd]

theorem declareToken_of_not_identifier {k : Token} (hk : k.is .identifier = false)
    (ks : List Token) : declareToken least most s t k ks = .ok t := by
  rw [declareToken, hk]
  rfl

/-- **Parameters that can all be declared** are followed by the others, unless these begin with a
suffix, which would belong to what is before it. -/
theorem declareTokens_append {before rest : List Token}
    (h : declareTokens least most s t before = (u, .ok s)) (hrest : leadingSuffix? rest = none) :
    declareTokens least most s t (before ++ rest) = declareTokens least most s u rest := by
  induction before generalizing t with
  | nil =>
    obtain ⟨rfl, -⟩ := Prod.mk.inj h
    rfl
  | cons k ks ih =>
    have hsuffix : leadingSuffix? (ks ++ rest) = leadingSuffix? ks := by
      cases ks with
      | nil => exact hrest
      | cons z ks => rfl
    have hstep : declareToken least most s t k (ks ++ rest) = declareToken least most s t k ks := by
      rw [declareToken, declareToken, hsuffix]
    rw [declareTokens] at h
    rw [List.cons_append, declareTokens, hstep]
    cases hdeclare : declareToken least most s t k ks with
    | error fault =>
      rw [hdeclare] at h
      cases h
    | ok v =>
      rw [hdeclare] at h
      exact ih h

/-- **A suffix on the way** decides what becomes of the identifier before it; the suffix itself
declares nothing. -/
theorem declareTokens_suffix {before after : List Token} {k z : Token}
    (h : declareTokens least most s t before = (u, .ok s)) (hk : k.is .identifier = true)
    (hz : z.is .sizeSuffix = true) :
    declareTokens least most s t (before ++ k :: z :: after) =
      match readWithin least most z.text with
      | .error fault => (u, .error (.value fault))
      | .ok size =>
        match u.add s ((Symbol.ofName k.text).withArraySize size) with
        | .error symbol => (u, .error (.duplicate symbol))
        | .ok (v, _) => declareTokens least most s v after := by
  have hkz : leadingSuffix? (k :: z :: after) = none := by
    have hnot : k.is .sizeSuffix = false :=
      Category.accepts_eq_false (Category.accepts_iff.1 hk) (by decide)
    rw [leadingSuffix?, hnot]
    rfl
  have hzk : z.is .identifier = false :=
    Category.accepts_eq_false (Category.accepts_iff.1 hz) (by decide)
  rw [declareTokens_append h hkz, declareTokens, declareToken, if_pos hk, leadingSuffix?, if_pos hz,
    symbolWithin]
  cases readWithin least most z.text with
  | error fault => rfl
  | ok size =>
    simp only
    cases u.add s ((Symbol.ofName k.text).withArraySize size) with
    | error symbol => rfl
    | ok added => simp only [declareTokens, declareToken_of_not_identifier hzk]

end Declaration

namespace Instruction

open Declaration

/-- **To apply `var` is to go over its parameters**, by induction on them. -/
theorem apply_var_eq_declareTokens (settings : Settings) (ps : List Token) (s : Nat)
    (t : SymbolTable) :
    var.apply settings ps s t = declareTokens settings.least settings.most s t ps := by
  induction ps generalizing t with
  | nil => rfl
  | cons k ks ih =>
    have hdeclarations : ∀ ps, var.declarations ps = ofTokens ps := fun _ => rfl
    simp only [apply_eq, hdeclarations] at ih ⊢
    rw [declareTokens, ofTokens]
    cases hk : k.is .identifier with
    | true =>
      rw [if_pos rfl, declareAll, declareToken_eq_declare settings s t hk]
      cases declare settings s t ⟨k.text, leadingSuffix? ks⟩ with
      | error fault => rfl
      | ok u => exact ih u
    | false =>
      rw [if_neg Bool.false_ne_true, declareToken_of_not_identifier hk]
      exact ih t

/-- **Sizes of arrays are read exactly.** To apply `var` is to go over its parameters, with every
step of reading a size checked, and this can be done for any bounds. A suffix `z` that follows an
identifier `k`, after parameters that could all be declared, is a row of digits in brackets. The
number that the digits denote becomes the size of the array if it is within the bounds; then the
array is declared, and the parameters after it come next. If it has more than 64 bits, the fault is
that the suffix is not a size; all other numbers are named in the fault, with the bounds. -/
theorem apply_var_size (least most : UInt64) (s : Nat) {t u : SymbolTable} {before : List Token}
    (hbefore : declareTokens least most s t before = (u, .ok s)) {k z : Token}
    (hk : k.is .identifier = true) (hz : z.is .sizeSuffix = true) (after : List Token) :
    (∀ settings ps s t,
      var.apply settings ps s t = declareTokens settings.least settings.most s t ps) ∧
    ∃ digits : Text, z.text = '[' :: digits ++ [']'] ∧ digits ≠ [] ∧
      (∀ c ∈ digits, c.isDigit = true) ∧
      let n := Nat.ofDigits 10 (digits.reverse.map Text.Decimal.digitValue)
      let result := declareTokens least most s t (before ++ k :: z :: after)
      (least.toNat ≤ n ∧ n ≤ most.toNat → ∃ size : UInt64, size.toNat = n ∧
        result = match u.add s ((Symbol.ofName k.text).withArraySize size) with
          | .error symbol => (u, .error (.duplicate symbol))
          | .ok (v, _) => declareTokens least most s v after) ∧
      (2 ^ 64 ≤ n → ∃ fault, result = (u, .error (.value fault)) ∧
        fault.reason = z.text ++ " is not a valid array size".toList) ∧
      (n < 2 ^ 64 ∧ ¬ (least.toNat ≤ n ∧ n ≤ most.toNat) →
        ∃ fault, result = (u, .error (.value fault)) ∧
          fault.reason = "array size ".toList ++ Nat.toDigits 10 n ++ " must be between ".toList ++
            Nat.toDigits 10 least.toNat ++ " and ".toList ++ Nat.toDigits 10 most.toNat) := by
  have hsuffix := Category.accepts_iff.1 hz
  obtain ⟨digits, hdigits, htext⟩ := Category.accepts_sizeSuffix.1 hsuffix
  have hcells : cells z.text = Nat.ofDigits 10 (digits.reverse.map Text.Decimal.digitValue) := by
    rw [htext, cells_bracketed, Text.Decimal.value_eq_ofDigits]
  have hsize : 2 ^ 64 = UInt64.size := rfl
  obtain ⟨hne, hall⟩ := Category.row_self_iff.1 hdigits
  refine ⟨apply_var_eq_declareTokens, digits, htext, hne,
    fun c hc => CharClass.contains_digit c ▸ hall c hc, ?_⟩
  rw [← hcells, hsize, declareTokens_suffix hbefore hk hz]
  refine ⟨fun hrange => ?_, fun hbig => ?_, fun ⟨hlt, hrange⟩ => ?_⟩
  · have hlt := Nat.lt_of_le_of_lt hrange.2 most.toNat_lt_size
    rw [readWithin_of_lt hsuffix hlt, if_pos hrange]
    exact ⟨_, UInt64.toNat_ofNat_of_lt' hlt, rfl⟩
  · rw [readWithin_of_le hsuffix hbig]
    exact ⟨_, rfl, rfl⟩
  · rw [readWithin_of_lt hsuffix hlt, if_neg hrange]
    exact ⟨_, rfl, reason_sizeOutOfRange hlt least most⟩

/-- The largest word after zeros that alone are more digits than a word has, and the number after
it. -/
theorem apply_var_size_largest :
    let t := SymbolTable.new true
    let k : Token := ⟨"Foo".toList, 0⟩
    let largest : Token := ⟨"[000000000000000000000018446744073709551615]".toList, 3⟩
    let larger : Token := ⟨"[18446744073709551616]".toList, 3⟩
    k.is .identifier = true ∧ largest.is .sizeSuffix = true ∧ larger.is .sizeSuffix = true ∧
      declareTokens 0 18446744073709551615 0 t [k, largest] =
        (t.extend 0 [⟨"foo".toList, some 18446744073709551615, none, some 0⟩], .ok 0) ∧
      ∃ fault, declareTokens 0 18446744073709551615 0 t [k, larger] = (t, .error (.value fault)) ∧
        fault.reason = "[18446744073709551616] is not a valid array size".toList := by
  intro t k largest larger
  have hk : k.is .identifier = true := by decide +kernel
  have hlargest : largest.is .sizeSuffix = true := by decide +kernel
  have hlarger : larger.is .sizeSuffix = true := by decide +kernel
  have hbefore : declareTokens 0 18446744073709551615 0 t [] = (t, .ok 0) := rfl
  have hdigits : ∀ {u v : Text}, '[' :: u ++ [']'] = '[' :: v ++ [']'] → u = v := fun h =>
    List.append_cancel_right (List.cons.inj h).2
  refine ⟨hk, hlargest, hlarger, ?_, ?_⟩
  · obtain ⟨-, digits, htext, -, -, hwithin, -, -⟩ :=
      apply_var_size 0 18446744073709551615 0 hbefore hk hlargest []
    obtain rfl : "000000000000000000000018446744073709551615".toList = digits :=
      hdigits (Eq.trans (by decide +kernel) htext)
    obtain ⟨size, hvalue, hresult⟩ := hwithin (by decide +kernel)
    obtain rfl : size = 18446744073709551615 :=
      UInt64.toNat_inj.1 (hvalue.trans (by decide +kernel))
    exact hresult.trans (by decide +kernel)
  · obtain ⟨-, digits, htext, -, -, -, hbig, -⟩ :=
      apply_var_size 0 18446744073709551615 0 hbefore hk hlarger []
    obtain rfl : "18446744073709551616".toList = digits :=
      hdigits (Eq.trans (by decide +kernel) htext)
    obtain ⟨fault, hresult, hreason⟩ := hbig (by decide +kernel)
    exact ⟨fault, hresult, hreason.trans (by decide +kernel)⟩

end Instruction

end LineLang
