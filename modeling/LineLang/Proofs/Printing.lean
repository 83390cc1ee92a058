import LineLang.Proofs.LetterCase
import LineLang.Proofs.Overlap
import LineLang.Proofs.Program

/-!
# Printed tables

A table is printed as the row of its symbols, each as it would be declared. Put after the word that
declares, this row is a program, and parsing it gives the table that was printed: names are
identifiers still when they are in lower case, numbers are read as what they were, and neither a
comma nor a blank is part of a token.

About the printed form of `SymbolTable`, and `Parser.parse`.

* `Declaration.texts`: what a declaration is spelled with, token by token.
* `Declaration.ofSymbol`: the declaration that a symbol is printed as.
* `Declaration.printed`: the declaration that is printed of what another one leaves.
* `Program.declaring`: the program that makes declarations on one line.

Results:
* `value_ofNat`: reading a printed number.
* `accepts_normalize`: the lower case of an identifier.
* `linesOf_declaring`: reading declarations that were written down.
* `parse_declaring`: parsing them.
* `parse_render`: parsing a printed table.
-/

namespace LineLang

open Category (identifier sizeSuffix munchFirst?)

/-! ## Numbers -/

namespace Text.Decimal

theorem digit_eq_digitChar : ∀ d < 10, digit d = d.digitChar := by decide

theorem ofNat_eq_toDigits (n : Nat) : ofNat n = Nat.toDigits 10 n := by
  induction n using Nat.strongRecOn with
  | ind n ih =>
    rw [ofNat, Nat.toDigits_eq_if (by decide)]
    split
    · rename_i hlt
      rw [digit_eq_digitChar n hlt]
    · rw [ih (n / 10) (by omega), digit_eq_digitChar (n % 10) (Nat.mod_lt n (by decide))]

/-- **A printed number is read as what it was.** -/
theorem value_ofNat (n : Nat) : value (ofNat n) = n := by
  rw [ofNat_eq_toDigits]
  exact Nat.ofDigitChars_toDigits (by decide) (by decide)

theorem row_ofNat (n : Nat) : Category.Row .digit .digit (ofNat n) := by
  rw [ofNat_eq_toDigits]
  have hdigit : ∀ c ∈ Nat.toDigits 10 n, CharClass.digit.contains c = true := fun c hc =>
    CharClass.digit_iff.2
      (Char.isDigit_iff_toNat.1 (Nat.isDigit_of_mem_toDigits (by decide) (by decide) hc))
  obtain ⟨c, u, h⟩ := List.exists_cons_of_ne_nil (Nat.toDigits_ne_nil (n := n) (b := 10))
  rw [h, List.forall_mem_cons] at hdigit
  exact ⟨c, u, h, hdigit.1, hdigit.2⟩

end Text.Decimal

/-! ## Names -/

namespace Category

/-- **The lower case of an identifier is an identifier.** -/
theorem accepts_normalize {name : Text} (h : identifier.pattern.Accepts name) :
    identifier.pattern.Accepts (Symbol.normalize name) := by
  rw [normalize_of_identifier h, Pattern.accepts_foldCase_iff identifier.pattern_caseless]
  exact h

end Category

/-! ## Joined texts -/

namespace Text

theorem not_mem_join {c : Char} {separator : Text} {parts : List Text} (hs : c ∉ separator)
    (h : ∀ p ∈ parts, c ∉ p) : c ∉ join separator parts := by
  induction parts with
  | nil => exact List.not_mem_nil
  | cons p parts ih =>
    rw [List.forall_mem_cons] at h
    cases parts with
    | nil =>
      rw [join_singleton]
      exact h.1
    | cons q parts =>
      rw [join_cons_cons, List.mem_append, List.mem_append, not_or, not_or]
      exact ⟨h.1, hs, ih h.2⟩

end Text

/-! ## Declarations as they are written -/

namespace Declaration

/-- What a declaration is spelled with. -/
def texts (d : Declaration) : List Text := d.name :: d.suffix.toList

/-- The written form of a declaration. -/
def written (d : Declaration) : Text := d.texts.flatten

/-- A declaration is spelled with an identifier and size suffixes. -/
structure WellSpelled (d : Declaration) : Prop where
  name : identifier.pattern.Accepts d.name
  suffix : d.Proper

theorem WellSpelled.accepts_of_mem_texts {d : Declaration} (h : d.WellSpelled) {p : Text}
    (hp : p ∈ d.texts) : identifier.pattern.Accepts p ∨ sizeSuffix.pattern.Accepts p := by
  rcases List.mem_cons.1 hp with rfl | hp
  · exact Or.inl h.name
  · exact Or.inr (h.suffix p (Option.mem_toList.1 hp))

theorem WellSpelled.newline_not_mem {d : Declaration} (h : d.WellSpelled) : '\n' ∉ d.written := by
  rw [written, List.mem_flatten]
  rintro ⟨p, hp, hmem⟩
  rcases h.accepts_of_mem_texts hp with hacc | hacc
  · exact Category.newline_not_mem (by decide) hacc hmem
  · exact Category.newline_not_mem (by decide) hacc hmem

end Declaration

/-! ## Reading what is written -/

namespace Program

variable {settings : Settings} {d : Declaration} {ds : List Declaration} {u r : Text}

theorem lineOf_skip {c : Char} {t : Text} (h : munchFirst? (c :: t) = none) :
    lineOf (c :: t) = lineOf t := by
  rw [lineOf, Token.scan, Cursor.start, Cursor.tokens_skip h, keptTexts_tokens]

theorem lineOf_take (h : munchFirst? (u ++ r) = some (u, r))
    (hu : Category.comment.accepts u = false) : lineOf (u ++ r) = u :: lineOf r := by
  have hkept : ∀ ts, keptTexts (⟨u, 0⟩ :: ts) = u :: keptTexts ts := fun ts => by
    simp [keptTexts, Line.withoutComments, Token.is, hu]
  rw [lineOf, Token.scan, Cursor.start, Cursor.tokens_take h, hkept, keptTexts_tokens]

/-- A text does not continue an identifier before it. -/
def Apart (r : Text) : Prop := ∀ c ∈ r.head?, CharClass.identifierRest.contains c = false

theorem apart_nil : Apart [] := fun c hc => absurd hc (Option.not_mem_none c)

theorem apart_cons {c : Char} (h : CharClass.identifierRest.contains c = false) (t : Text) :
    Apart (c :: t) := by
  rintro d ⟨⟩
  exact h

/-- An identifier is read as far as it goes. -/
theorem lineOf_identifier (hu : identifier.pattern.Accepts u) (hr : Apart r) :
    lineOf (u ++ r) = u :: lineOf r := by
  have hrow := Category.accepts_row.1 hu
  have hrun := Category.run?_eq_some_iff.2 ⟨rfl, hrow, hr⟩
  obtain ⟨c, v, rfl, hc, -⟩ := hrow
  have hcomment : Category.munchComment? (c :: v) = none :=
    Category.munchComment?_cons_eq_none (by decide) hc
  refine lineOf_take ((Category.munchFirst?_of_identifierStart hc (v ++ r)).trans hrun) ?_
  rw [Category.accepts, Category.munch?, hcomment]

/-- A size suffix is read whatever follows it. -/
theorem lineOf_sizeSuffix (hu : sizeSuffix.pattern.Accepts u) :
    lineOf (u ++ r) = u :: lineOf r := by
  have hmunch : Category.munchSuffix? (u ++ r) = some (u, r) :=
    Category.munchSuffix?_eq_some_iff.2 ⟨rfl, hu⟩
  obtain ⟨digits, -, rfl⟩ := Category.accepts_sizeSuffix.1 hu
  exact lineOf_take ((Category.munchFirst?_bracket _).trans hmunch) rfl

theorem lineOf_written (hd : d.WellSpelled) (hr : Apart r) :
    lineOf (d.written ++ r) = d.texts ++ lineOf r := by
  obtain ⟨name, suffix⟩ := d
  cases suffix with
  | none =>
    have hname := lineOf_identifier hd.name hr
    simpa [Declaration.written, Declaration.texts] using hname
  | some suffix =>
    have hsuffix := hd.suffix suffix rfl
    have hbracket : Apart (suffix ++ r) := by
      obtain ⟨digits, -, rfl⟩ := Category.accepts_sizeSuffix.1 hsuffix
      exact apart_cons (by decide) _
    have hname := lineOf_identifier hd.name hbracket
    rw [lineOf_sizeSuffix hsuffix] at hname
    simpa [Declaration.written, Declaration.texts] using hname

/-- No category takes anything at a comma or at a blank. -/
theorem lineOf_separator (t : Text) : lineOf (", ".toList ++ t) = lineOf t :=
  (lineOf_skip rfl).trans (lineOf_skip rfl)

/-- **Separators are skipped**, and keep apart what they separate. -/
theorem lineOf_join (hds : ∀ d ∈ ds, d.WellSpelled) :
    lineOf (Text.join ", ".toList (ds.map Declaration.written)) =
      ds.flatMap Declaration.texts := by
  have hnil : lineOf [] = [] := by
    rw [lineOf, Token.scan, Cursor.start, Cursor.tokens_nil]
    rfl
  induction ds with
  | nil => exact hnil
  | cons d ds ih =>
    rw [List.forall_mem_cons] at hds
    cases ds with
    | nil =>
      have hlast := lineOf_written hds.1 apart_nil
      rw [hnil, List.append_nil] at hlast
      rw [List.map_singleton, Text.join_singleton, hlast, List.flatMap_singleton, List.append_nil]
    | cons e ds =>
      have hcomma : ∀ t, Apart (", ".toList ++ t) := fun t => apart_cons (by decide) _
      rw [List.map_cons, List.map_cons, Text.join_cons_cons, lineOf_written hds.1 (hcomma _),
        lineOf_separator, ← List.map_cons, ih hds.2]
      exact List.flatMap_cons.symm

/-! ## Programs that declare -/

/-- The program that makes declarations, all on one line. -/
def declaring (ds : List Declaration) : Text :=
  "var ".toList ++ Text.join ", ".toList (ds.map Declaration.written)

theorem newline_not_mem_declaring (hds : ∀ d ∈ ds, d.WellSpelled) : '\n' ∉ declaring ds := by
  rw [declaring, List.mem_append, not_or]
  refine ⟨by decide, Text.not_mem_join (by decide) ?_⟩
  exact List.forall_mem_map.2 fun d hd => (hds d hd).newline_not_mem

/-- **Declarations that were written down** are read token by token, on one line. -/
theorem linesOf_declaring (hds : ∀ d ∈ ds, d.WellSpelled) :
    linesOf (declaring ds) = ["var".toList :: ds.flatMap Declaration.texts] := by
  have hkeyword : identifier.pattern.Accepts "var".toList := Category.accepts_iff.1 (by decide)
  have hline : lineOf (declaring ds) = "var".toList :: ds.flatMap Declaration.texts := by
    rw [← lineOf_join hds]
    exact (lineOf_identifier hkeyword (apart_cons (by decide) _)).trans
      (congrArg _ (lineOf_skip rfl))
  rw [linesOf, List.splitOn_eq_singleton (newline_not_mem_declaring hds), List.map_singleton, hline]
  rfl

theorem declarationsIn_texts_append (hd : d.WellSpelled) {ps : List Text}
    (hps : ps.head?.filter sizeSuffix.accepts = none) :
    declarationsIn (d.texts ++ ps) = d :: declarationsIn ps := by
  obtain ⟨name, suffix⟩ := d
  have hname : identifier.accepts name = true := Category.accepts_iff.2 hd.name
  cases suffix with
  | none =>
    have htexts : Declaration.texts ⟨name, none⟩ ++ ps = name :: ps := rfl
    rw [htexts, declarationsIn, if_pos hname, hps]
  | some suffix =>
    have hsuffix := hd.suffix suffix rfl
    have hfollows : (suffix :: ps).head?.filter sizeSuffix.accepts = some suffix := by
      rw [List.head?_cons, Option.filter_some, if_pos (Category.accepts_iff.2 hsuffix)]
    have htexts : Declaration.texts ⟨name, some suffix⟩ ++ ps = name :: suffix :: ps := rfl
    have hnot : identifier.accepts suffix = false := Category.accepts_eq_false hsuffix (by decide)
    rw [htexts, declarationsIn, if_pos hname, hfollows, declarationsIn, hnot]
    rfl

/-- Each declaration is recovered from its texts: what follows these is a name again. -/
theorem declarationsIn_flatMap_texts (hds : ∀ d ∈ ds, d.WellSpelled) :
    declarationsIn (ds.flatMap Declaration.texts) = ds := by
  induction ds with
  | nil => rfl
  | cons d ds ih =>
    rw [List.forall_mem_cons] at hds
    have hnext : (ds.flatMap Declaration.texts).head?.filter sizeSuffix.accepts = none := by
      cases ds with
      | nil => rfl
      | cons e ds =>
        have hname : sizeSuffix.accepts e.name = false :=
          Category.accepts_eq_false (hds.2 e List.mem_cons_self).name (by decide)
        have hhead : ((e :: ds).flatMap Declaration.texts).head? = some e.name := rfl
        rw [hhead, Option.filter_some, hname]
        rfl
    rw [List.flatMap_cons, declarationsIn_texts_append hds.1 hnext, ih hds.2]

/-- **Declarations that were written down are made**, if they can all be made. -/
theorem parse_declaring (hds : ∀ d ∈ ds, d.WellSpelled)
    (h : Declaration.Declarable settings (fun _ => False) ds) :
    parse settings (declaring ds) = .ok (tableOf settings.collapses ds) := by
  have hlines := linesOf_declaring hds
  have hdeclarations : declarationsOf (linesOf (declaring ds)) = ds := by
    rw [hlines, declarationsOf, List.flatMap_singleton]
    exact declarationsIn_flatMap_texts hds
  have hwellFormed : ∀ l ∈ linesOf (declaring ds), WellFormed l := by
    rw [hlines, List.forall_mem_singleton]
    refine .declare fun p hp => ?_
    obtain ⟨d, hd, hp⟩ := List.mem_flatMap.1 hp
    exact (hds d hd).accepts_of_mem_texts hp
  rw [← hdeclarations] at h
  rw [parse_of_acceptable (acceptable_iff.2 ⟨hwellFormed, h⟩), hdeclarations]

theorem wellSpelled_of_mem_declarationsIn {ps : List Text} (h : d ∈ declarationsIn ps) :
    d.WellSpelled := by
  induction ps with
  | nil => exact absurd h List.not_mem_nil
  | cons p ps ih =>
    rw [declarationsIn] at h
    split at h
    · rename_i hp
      rcases List.mem_cons.1 h with rfl | h
      · refine ⟨Category.accepts_iff.1 hp, fun suffix hsuffix => ?_⟩
        exact Category.accepts_iff.1 (Option.filter_eq_some_iff.1 hsuffix).2
      · exact ih h
    · exact ih h

/-- Whatever a line declares is well-spelled. -/
theorem wellSpelled_of_mem_declarationsOf {lines : List (List Text)}
    (h : d ∈ declarationsOf lines) : d.WellSpelled := by
  obtain ⟨l, -, hd⟩ := List.mem_flatMap.1 h
  unfold declarations at hd
  split at hd
  · exact absurd hd List.not_mem_nil
  · split at hd
    · exact wellSpelled_of_mem_declarationsIn hd
    · exact absurd hd List.not_mem_nil

end Program

/-! ## Printed symbols -/

namespace Declaration

variable {settings : Settings} {known : Text → Prop} {d : Declaration} {ds : List Declaration}

/-- The declaration that a symbol is printed as. -/
def ofSymbol (x : Symbol) : Declaration :=
  ⟨x.id, x.arraySize.map fun size => Symbol.render.renderSize (some size)⟩

theorem accepts_renderSize (size : UInt64) :
    sizeSuffix.pattern.Accepts (Symbol.render.renderSize (some size)) :=
  Category.accepts_sizeSuffix.2 ⟨_, Text.Decimal.row_ofNat _, rfl⟩

theorem cells_renderSize (size : UInt64) :
    cells (Symbol.render.renderSize (some size)) = size.toNat := by
  rw [Symbol.render.renderSize, cells_bracketed, Text.Decimal.value_ofNat]

theorem written_ofSymbol {x : Symbol} (h : x.value = none) : (ofSymbol x).written = x.render := by
  obtain ⟨id, arraySize, value, scope⟩ := x
  obtain rfl : value = none := h
  cases arraySize <;>
    simp [written, texts, ofSymbol, Symbol.render, Symbol.render.renderSize,
      Symbol.render.renderValue]

/-- The declaration that is printed of what a declaration leaves in the root. -/
def printed (d : Declaration) : Declaration := ofSymbol (d.entry SymbolTable.root)

theorem key_printed (d : Declaration) : d.printed.key = d.key := normalize_key d

/-- What is printed of a declaration declares the same. -/
theorem entry_printed (d : Declaration) :
    d.printed.entry SymbolTable.root = d.entry SymbolTable.root := by
  have hsize : ∀ size : UInt64,
      UInt64.ofNat (cells (Symbol.render.renderSize (some size))) = size := fun size => by
    rw [cells_renderSize, UInt64.ofNat_toNat]
  rw [entry, key_printed, printed, ofSymbol, Option.map_map]
  simp only [entry, Option.map_map, Function.comp_def, hsize]

theorem map_entry_printed (ds : List Declaration) :
    (ds.map printed).map (entry SymbolTable.root) = ds.map (entry SymbolTable.root) := by
  rw [List.map_map]
  exact List.map_congr_left fun d _ => entry_printed d

theorem WellSpelled.printed (h : d.WellSpelled) : d.printed.WellSpelled := by
  refine ⟨Category.accepts_normalize h.name, fun suffix hsuffix => ?_⟩
  obtain ⟨size, -, rfl⟩ := Option.map_eq_some_iff.1 hsuffix
  exact accepts_renderSize size

/-- A size within the settings is printed as a number of 64 bits that is within them. -/
theorem allowed_printed (h : d.Allowed settings) : d.printed.Allowed settings := by
  intro suffix hsuffix
  obtain ⟨size, hsize, rfl⟩ := Option.map_eq_some_iff.1 hsuffix
  obtain ⟨suffix, hd, rfl⟩ := Option.map_eq_some_iff.1 hsize
  have hrange := h suffix hd
  have hlt : cells suffix < UInt64.size := Nat.lt_of_le_of_lt hrange.2 settings.most.toNat_lt_size
  rwa [cells_renderSize, UInt64.toNat_ofNat_of_lt' hlt]

/-- **Where declarations can be made, so can what is printed of them.** -/
theorem Declarable.printed (h : Declarable settings known ds) :
    Declarable settings known (ds.map printed) := by
  refine ⟨List.forall_mem_map.2 fun d hd => allowed_printed (h.sizes d hd),
    List.forall_mem_map.2 fun d hd => ?_, ?_⟩
  · rw [key_printed]
    exact h.fresh d hd
  · rw [← map_id_entry SymbolTable.root, map_entry_printed, map_id_entry]
    exact h.distinct

end Declaration

/-! ## Printed tables -/

namespace Program

open Declaration (entry printed)

variable {settings : Settings} {source : Text}

theorem tableOf_congr {ds es : List Declaration}
    (h : es.map (entry SymbolTable.root) = ds.map (entry SymbolTable.root)) (collapses : Bool) :
    tableOf collapses es = tableOf collapses ds := by
  rw [← extend_new, ← extend_new, h]

theorem append_render_tableOf (collapses : Bool) (ds : List Declaration) :
    "var ".toList ++ (tableOf collapses ds).render = declaring (ds.map printed) := by
  rw [declaring, SymbolTable.render, symbols_tableOf, List.map_map, List.map_map]
  refine congrArg (fun parts => "var ".toList ++ Text.join ", ".toList parts) ?_
  exact List.map_congr_left fun d _ => (Declaration.written_ofSymbol rfl).symm

/-- **A printed table is a program that builds it again**: the same table results, with the same
symbols in the same order, and printing it gives the same text. -/
theorem parse_render {t : SymbolTable} (h : parse settings source = .ok t) :
    parse settings ("var ".toList ++ t.render) = .ok t := by
  obtain ⟨hacceptable, rfl⟩ := acceptable_of_parse h
  obtain ⟨-, hdeclarable⟩ := acceptable_iff.1 hacceptable
  have hspelled : ∀ e ∈ (declarationsOf (linesOf source)).map printed, e.WellSpelled :=
    List.forall_mem_map.2 fun d hd => (wellSpelled_of_mem_declarationsOf hd).printed
  rw [append_render_tableOf, parse_declaring hspelled hdeclarable.printed,
    tableOf_congr (Declaration.map_entry_printed _)]

/-- The largest size, written with a zero in front, and a name in upper case, among lines that
declare nothing; and the empty table. -/
theorem parse_render_largest :
    parse ⟨true, 1, 18446744073709551615, by decide, by decide⟩
        "var big[18446744073709551615], _x$1".toList =
      .ok (tableOf true [⟨"Big".toList, some "[018446744073709551615]".toList⟩,
        ⟨"_X$1".toList, none⟩]) ∧
    parse .default "var ".toList = .ok (.new true) := by
  constructor
  · have hparse : parse ⟨true, 1, 18446744073709551615, by decide, by decide⟩
        "inc q 1\nvar Big[018446744073709551615] // all\nvar _X$1".toList =
          .ok (tableOf true [⟨"Big".toList, some "[018446744073709551615]".toList⟩,
            ⟨"_X$1".toList, none⟩]) := by decide +kernel
    have hrender : "big[18446744073709551615], _x$1".toList =
        (tableOf true [⟨"Big".toList, some "[018446744073709551615]".toList⟩,
          ⟨"_X$1".toList, none⟩]).render := by decide +kernel
    have hprinted := parse_render hparse
    rwa [← hrender] at hprinted
  · have hparse : parse .default [] = .ok (.new true) := by decide +kernel
    exact parse_render hparse

end Program

end LineLang
