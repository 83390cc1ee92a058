import LineLang.Proofs.Position
import LineLang.Proofs.Program

/-!
# The order of lines

Whether lines make up a program does not depend on their order: no line is to blame for where it
stands, and no two lines declare one name wherever they stand. The order only shows in the order of
the symbols, and names stand for the same in the end.

About `Parser.parse` and `find_global`.

Results:
* `linesOf_join`: the lines of a source that is put together of pieces.
* `Acceptable.perm`: lines that make up a program make it up in any order.
* `lookup_perm`, `findGlobal?_tableOf`: looking a name up in a table of declarations.
* `parse_of_perm`: sources with the same lines in another order.
-/

namespace LineLang

namespace SymbolTable

/-- The order of entries with different keys does not matter to a lookup. -/
theorem lookup_perm {es fs : List (Text × Symbol)} (h : es.Perm fs) (hn : (es.map Prod.fst).Nodup)
    (key : Text) : es.lookup key = fs.lookup key := by
  cases hfind : fs.lookup key with
  | none =>
    rw [List.lookup_eq_none_iff] at hfind ⊢
    exact fun e he => hfind e (h.mem_iff.1 he)
  | some x =>
    obtain ⟨before, after, rfl, -⟩ := List.lookup_eq_some_iff.1 hfind
    exact lookup_of_mem hn (h.mem_iff.2 (List.mem_append_right before List.mem_cons_self))

end SymbolTable

namespace Program

open Declaration (entry)
open SymbolTable (root)

variable {settings : Settings} {source : Text} {pieces : List Text} {xs ys : List (List Text)}

/-! ## Lines -/

/-- **The lines of a source that is put together of pieces** are those of its pieces. -/
theorem linesOf_join (hne : pieces ≠ []) (hpieces : ∀ p ∈ pieces, '\n' ∉ p) :
    linesOf (Text.join ['\n'] pieces) = (pieces.map lineOf).filter (· ≠ []) := by
  rw [linesOf, Text.join, List.splitOn_intercalate '\n' hpieces hne]

/-- Lines with nothing in them declare nothing. -/
theorem declarationsOf_filter (lines : List (List Text)) :
    declarationsOf (lines.filter (· ≠ [])) = declarationsOf lines := by
  induction lines with
  | nil => rfl
  | cons l lines ih =>
    cases l with
    | nil => exact ih
    | cons word ps => exact congrArg (declarations (word :: ps) ++ ·) ih

theorem declarationsOf_perm (h : xs.Perm ys) : (declarationsOf xs).Perm (declarationsOf ys) :=
  h.flatMap_right declarations

/-- **Lines that make up a program** make it up in any order. -/
theorem Acceptable.perm (hx : Acceptable settings xs) (h : xs.Perm ys) :
    Acceptable settings ys where
  wellFormed := fun l hl => hx.wellFormed l (h.mem_iff.2 hl)
  sizes := fun d hd => hx.sizes d ((declarationsOf_perm h).mem_iff.2 hd)
  distinct := ((declarationsOf_perm h).map Declaration.key).nodup_iff.1 hx.distinct

/-! ## Tables -/

/-- Looking a name up in a table of declarations. -/
theorem findGlobal?_tableOf (collapses : Bool) (ds : List Declaration) (name : Text) :
    (tableOf collapses ds).findGlobal? name =
      (ds.map fun d => (d.key, d.entry root)).lookup (Symbol.normalize name) := by
  have hchain : (tableOf collapses ds).chain root = [root] := SymbolTable.chain_of_no_parent rfl
  rw [SymbolTable.findGlobal?, SymbolTable.find?_of_chain_singleton hchain]
  rfl

/-- Declarations of different names may be made in any order: names stand for the same. -/
theorem findGlobal?_tableOf_perm {ds es : List Declaration} (h : ds.Perm es)
    (hn : (ds.map Declaration.key).Nodup) (collapses : Bool) (name : Text) :
    (tableOf collapses ds).findGlobal? name = (tableOf collapses es).findGlobal? name := by
  have hkeys : ((ds.map fun d => (d.key, d.entry root)).map Prod.fst).Nodup := by
    rwa [List.map_map]
  rw [findGlobal?_tableOf, findGlobal?_tableOf]
  exact SymbolTable.lookup_perm (h.map _) hkeys _

/-! ## Sources -/

/-- **The order of lines does not matter.** If a source is parsed, so is every source made of the
same lines, as they stand between newlines, in any order. Its root has what these lines declare,
line by line in the new order: the same symbols, for which the same names stand. -/
theorem parse_of_perm {t : SymbolTable} (h : parse settings source = .ok t)
    (hpieces : pieces.Perm (source.splitOn '\n')) :
    ∃ u, parse settings (Text.join ['\n'] pieces) = .ok u ∧
      u.symbols root = pieces.flatMap (fun p => (declarations (lineOf p)).map (entry root)) ∧
      (u.symbols root).Perm (t.symbols root) ∧
      ∀ name, u.findGlobal? name = t.findGlobal? name := by
  obtain ⟨hacceptable, rfl⟩ := parse_eq_ok_iff.1 h
  have hne : pieces ≠ [] := fun hnil => by
    rw [hnil, List.nil_perm] at hpieces
    exact List.splitOn_ne_nil _ _ hpieces
  have hnewline : ∀ p ∈ pieces, '\n' ∉ p := fun p hp =>
    Text.newline_not_mem_of_mem_splitOn (hpieces.mem_iff.1 hp)
  have hlines : (linesOf (Text.join ['\n'] pieces)).Perm (linesOf source) := by
    rw [linesOf_join hne hnewline]
    exact (hpieces.map lineOf).filter _
  have hparse := parse_of_acceptable (hacceptable.perm hlines.symm)
  have hperm := declarationsOf_perm hlines
  refine ⟨_, hparse, ?_, ?_, fun name => ?_⟩
  · rw [symbols_tableOf, linesOf_join hne hnewline, declarationsOf_filter, declarationsOf,
      List.flatMap_map, List.map_flatMap]
  · rw [symbols_tableOf, symbols_tableOf]
    exact hperm.map _
  · exact (findGlobal?_tableOf_perm hperm.symm hacceptable.distinct _ name).symm

/-- An array with a comment, a blank line and two other lines, from the last to the first. -/
theorem parse_of_perm_reversed :
    let source := "var a[4] // x\n\ninc b 1\nvar B c".toList
    let pieces := ["var B c", "inc b 1", "", "var a[4] // x"].map String.toList
    let t := tableOf true [⟨"a".toList, some "[4]".toList⟩, ⟨"B".toList, none⟩, ⟨"c".toList, none⟩]
    parse .default source = .ok t ∧ pieces.Perm (source.splitOn '\n') ∧
      ∃ u, parse .default "var B c\ninc b 1\n\nvar a[4] // x".toList = .ok u ∧
        u.symbols root = [⟨"b".toList, none, none, some 0⟩, ⟨"c".toList, none, none, some 0⟩,
          ⟨"a".toList, some 4, none, some 0⟩] ∧
        u.findGlobal? "A".toList = t.findGlobal? "A".toList := by
  intro source pieces t
  have h : parse .default source = .ok t := by decide +kernel
  have hpieces : pieces.Perm (source.splitOn '\n') := by decide
  obtain ⟨u, hu, hsymbols, -, hfind⟩ := parse_of_perm h hpieces
  exact ⟨h, hpieces, u, hu, hsymbols.trans (by decide +kernel), hfind _⟩

end Program

end LineLang
