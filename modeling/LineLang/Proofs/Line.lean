import LineLang.Line

/-!
# Lines as groups of tokens

Reading line by line is cutting the row of tokens at its newline tokens, leaving out the comments of
every group, and dropping the groups with nothing left. Each token carries its place in the whole
row, and a line is at the place of its first token.

About `Lines`.

Results:
* `lines_eq_groups`: the lines of a row of tokens, group by group.
* `lines_append_newline`: the lines of two rows of tokens with a newline token between them.
* `lines_map`: the lines of other tokens of the same categories.
* `getElem?_start`: the place of a line.
* `map_tokens_ofTokens`: their tokens, without the places.
-/

namespace LineLang

namespace Line

/-- The tokens of a line. -/
def tokens (l : Line) : List Token := l.keyword :: l.parameters

/-- A token and its place, kept in a line unless it is a comment. -/
def kept (k : Token × Nat) : Bool := !k.1.is .comment

/-- The line that a group of tokens between newlines makes, if anything but comments is in it. -/
def ofGroup (group : List (Token × Nat)) : Option Line :=
  match group.filter kept with
  | [] => none
  | (keyword, start) :: parameters => some ⟨start, keyword, parameters.map Prod.fst⟩

/-- The groups of a row of tokens, with the places counted from an index on. -/
def groups (index : Nat) (ts : List Token) : List (List (Token × Nat)) :=
  (ts.zipIdx index).splitOnP (·.1.is .newline)

theorem groups_cons (index : Nat) (t : Token) (ts : List Token) :
    groups index (t :: ts) =
      if t.is .newline then [] :: groups (index + 1) ts
      else (groups (index + 1) ts).modifyHead (List.cons (t, index)) := by
  rw [groups, List.zipIdx_cons, List.splitOnP_cons_eq_if_modifyHead]
  rfl

theorem ofGroup_cons_comment {t : Token} (ht : t.is .comment = true) (index : Nat)
    (g : List (Token × Nat)) : ofGroup ((t, index) :: g) = ofGroup g := by
  have hkept : ¬ kept (t, index) = true := by simp [kept, ht]
  rw [ofGroup, ofGroup, List.filter_cons_of_neg hkept]

theorem ofGroup_cons {t : Token} (ht : t.is .comment = false) (index : Nat)
    (g : List (Token × Nat)) :
    ofGroup ((t, index) :: g) = some ⟨index, t, (g.filter kept).map Prod.fst⟩ := by
  have hkept : kept (t, index) = true := by simp [kept, ht]
  rw [ofGroup, List.filter_cons_of_pos hkept]

/-- A line with other tokens, as many tokens further on. -/
def mapTokens (f : Token → Token) (n : Nat) (l : Line) : Line :=
  ⟨l.start + n, f l.keyword, l.parameters.map f⟩

theorem groups_map {f : Token → Token} (hf : ∀ k c, (f k).is c = k.is c) (index n : Nat)
    (ts : List Token) :
    groups (index + n) (ts.map f) = (groups index ts).map (List.map (Prod.map f (· + n))) := by
  induction ts generalizing index with
  | nil => rfl
  | cons t ts ih =>
    have hrest := ih (index + 1)
    rw [Nat.add_right_comm] at hrest
    rw [List.map_cons, groups_cons, groups_cons, hf, hrest]
    cases t.is .newline with
    | true => rfl
    | false =>
      cases groups (index + 1) ts with
      | nil => rfl
      | cons g gs => rfl

theorem ofGroup_map {f : Token → Token} (hf : ∀ k c, (f k).is c = k.is c) (n : Nat)
    (g : List (Token × Nat)) :
    ofGroup (g.map (Prod.map f (· + n))) = (ofGroup g).map (mapTokens f n) := by
  have hkept : kept ∘ Prod.map f (· + n) = kept := funext fun k => by simp [kept, hf]
  rw [ofGroup, ofGroup, List.filter_map, hkept]
  cases g.filter kept with
  | nil => rfl
  | cons k ks => simp [mapTokens, Function.comp_def]

end Line

namespace LineReader

open Line

theorem lines_nil (index : Nat) : lines ⟨index, []⟩ = [] := by
  rw [lines_eq]
  rfl

theorem lines_skip {t : Token} (ht : t.is .newline = true ∨ t.is .comment = true) (index : Nat)
    (ts : List Token) : lines ⟨index, t :: ts⟩ = lines ⟨index + 1, ts⟩ := by
  have hskip : (t.is .newline || t.is .comment) = true := by rwa [Bool.or_eq_true]
  rw [lines_eq, lines_eq ⟨index + 1, ts⟩, next, next, nextAt, if_pos hskip]

theorem lines_cons {t : Token} (hn : t.is .newline = false) (hc : t.is .comment = false)
    (index : Nat) (ts : List Token) :
    lines ⟨index, t :: ts⟩ =
      ⟨index, t, (finishLine (index + 1) ts).1⟩ :: (finishLine (index + 1) ts).2.lines := by
  rw [lines_eq, next, nextAt, hn, hc]
  rfl

/-- Reading on to the end of a line uses up the rest of the first group, and reading afterwards
begins with the second. Both are shown at once: a reader changes between the two at newlines. -/
theorem groups_read (ts : List Token) (index : Nat) :
    ∃ g gs, groups index ts = g :: gs ∧
      lines ⟨index, ts⟩ = (g :: gs).filterMap ofGroup ∧
      (finishLine index ts).1 = (g.filter kept).map Prod.fst ∧
      (finishLine index ts).2.lines = gs.filterMap ofGroup := by
  induction ts generalizing index with
  | nil => exact ⟨[], [], rfl, lines_nil index, rfl, lines_nil index⟩
  | cons t ts ih =>
    obtain ⟨g, gs, hgroups, hlines, hfirst, hrest⟩ := ih (index + 1)
    rw [groups_cons, finishLine, hgroups]
    cases hn : t.is .newline with
    | true =>
      rw [lines_skip (Or.inl hn)]
      exact ⟨[], g :: gs, rfl, hlines, rfl, hlines⟩
    | false =>
      refine ⟨(t, index) :: g, gs, rfl, ?_⟩
      cases hc : t.is .comment with
      | true =>
        have hkept : ¬ kept (t, index) = true := by simp [kept, hc]
        rw [lines_skip (Or.inr hc), hlines, List.filterMap_cons, List.filterMap_cons,
          ofGroup_cons_comment hc, List.filter_cons_of_neg hkept]
        exact ⟨rfl, hfirst, hrest⟩
      | false =>
        have hkept : kept (t, index) = true := by simp [kept, hc]
        rw [lines_cons hn hc, hfirst, hrest, List.filterMap_cons, ofGroup_cons hc,
          List.filter_cons_of_pos hkept]
        exact ⟨rfl, congrArg (t :: ·) hfirst, hrest⟩

/-- **Lines are groups of tokens**: the row of tokens is cut at its newline tokens, comments are
left out, and groups with nothing left are no lines. -/
theorem lines_eq_groups (index : Nat) (ts : List Token) :
    lines ⟨index, ts⟩ = (groups index ts).filterMap ofGroup := by
  obtain ⟨g, gs, hgroups, hlines, -⟩ := groups_read ts index
  rw [hgroups, hlines]

/-- **Reading starts afresh after each newline token.** -/
theorem lines_append_newline (index : Nat) (xs ys : List Token) {k : Token}
    (hk : k.is .newline = true) :
    lines ⟨index, xs ++ k :: ys⟩ = lines ⟨index, xs⟩ ++ lines ⟨index + xs.length + 1, ys⟩ := by
  have hgroups : groups index (xs ++ k :: ys) =
      groups index xs ++ groups (index + xs.length + 1) ys := by
    unfold groups
    rw [List.zipIdx_append, List.zipIdx_cons]
    exact List.splitOnP_append_cons _ _ hk
  rw [lines_eq_groups, lines_eq_groups, lines_eq_groups, hgroups, List.filterMap_append]

/-- **Lines depend on the categories of tokens alone**: other tokens of the same categories make the
same lines. -/
theorem lines_map {f : Token → Token} (hf : ∀ k c, (f k).is c = k.is c) (index n : Nat)
    (ts : List Token) :
    lines ⟨index + n, ts.map f⟩ = (lines ⟨index, ts⟩).map (mapTokens f n) := by
  rw [lines_eq_groups, lines_eq_groups, groups_map hf, List.filterMap_map, List.map_filterMap]
  exact congrArg (List.filterMap · _) (funext fun g => ofGroup_map hf n g)

end LineReader

namespace Line

/-! ## The place of a line -/

theorem mem_zipIdx_of_mem_groups {index : Nat} {ts : List Token} {g : List (Token × Nat)}
    (hg : g ∈ groups index ts) {k : Token × Nat} (hk : k ∈ g) : k ∈ ts.zipIdx index := by
  induction ts generalizing index g with
  | nil =>
    obtain rfl : g = [] := by simpa [groups] using hg
    exact absurd hk List.not_mem_nil
  | cons t ts ih =>
    rw [groups_cons] at hg
    rw [List.zipIdx_cons]
    split at hg
    · rcases List.mem_cons.1 hg with rfl | hg
      · exact absurd hk List.not_mem_nil
      · exact List.mem_cons_of_mem _ (ih hg hk)
    · cases hgroups : groups (index + 1) ts with
      | nil =>
        rw [hgroups] at hg
        exact absurd hg List.not_mem_nil
      | cons g' gs =>
        rw [hgroups, List.modifyHead_cons] at hg
        rcases List.mem_cons.1 hg with rfl | hg
        · rcases List.mem_cons.1 hk with rfl | hk
          · exact List.mem_cons_self
          · exact List.mem_cons_of_mem _ (ih (hgroups ▸ List.mem_cons_self) hk)
        · exact List.mem_cons_of_mem _ (ih (hgroups ▸ List.mem_cons_of_mem _ hg) hk)

/-- A line begins with a token of the row, at the place that it says. -/
theorem getElem?_start {ts : List Token} {l : Line} (h : l ∈ ofTokens ts) :
    ts[l.start]? = some l.keyword := by
  rw [ofTokens, LineReader.lines_eq_groups] at h
  obtain ⟨g, hg, hl⟩ := List.mem_filterMap.1 h
  have hmem : (l.keyword, l.start) ∈ g := by
    unfold ofGroup at hl
    split at hl
    · cases hl
    · rename_i keyword start parameters hfilter
      obtain rfl := Option.some.inj hl
      exact (List.mem_filter.1 (hfilter ▸ List.mem_cons_self)).1
  exact List.mk_mem_zipIdx_iff_getElem?.1 (mem_zipIdx_of_mem_groups hg hmem)

/-! ## Lines without places -/

/-- A row of tokens without its comments. -/
def withoutComments (ts : List Token) : List Token := ts.filter fun t => !t.is .comment

theorem map_fst_filter_kept (g : List (Token × Nat)) :
    (g.filter kept).map Prod.fst = withoutComments (g.map Prod.fst) := by
  rw [withoutComments, List.filter_map]
  rfl

theorem map_fst_groups (index : Nat) (ts : List Token) :
    (groups index ts).map (List.map Prod.fst) = ts.splitOnP (·.is .newline) := by
  induction ts generalizing index with
  | nil => rfl
  | cons t ts ih =>
    rw [groups_cons, List.splitOnP_cons_eq_if_modifyHead, ← ih (index + 1)]
    split
    · rfl
    · cases groups (index + 1) ts with
      | nil => rfl
      | cons g gs => rfl

/-- The tokens of the line that a group makes are those of the group that are kept. -/
theorem map_tokens_ofGroup (g : List (Token × Nat)) :
    (ofGroup g).map tokens =
      if withoutComments (g.map Prod.fst) = [] then none
      else some (withoutComments (g.map Prod.fst)) := by
  rw [← map_fst_filter_kept, ofGroup]
  cases g.filter kept with
  | nil => rfl
  | cons k ks => rfl

/-- **Lines, without their places**: the rows of tokens between newline tokens, without comments and
without the rows that are empty then. -/
theorem map_tokens_ofTokens (ts : List Token) :
    (ofTokens ts).map tokens =
      ((ts.splitOnP (·.is .newline)).map withoutComments).filter (· ≠ []) := by
  rw [ofTokens, LineReader.lines_eq_groups, ← map_fst_groups 0, List.map_filterMap]
  induction groups 0 ts with
  | nil => rfl
  | cons g gs ih =>
    rw [List.filterMap_cons, map_tokens_ofGroup, List.map_cons, List.map_cons, List.filter_cons,
      ← ih]
    by_cases h : withoutComments (g.map Prod.fst) = []
    · rw [if_pos h, if_neg (by simpa using h)]
    · rw [if_neg h, if_pos (by simpa using h)]

end Line

end LineLang
