import LineLang.Proofs.Line

/-!
# Lines as a grouping of tokens

A reader may be asked for lines as often as one likes: it gives every line once, in order, and then
nothing any more. Its lines group the row of tokens: each token but newlines and comments is in
exactly one of them, and each line knows the place of its first token.

About `Lines` and its `next`.

* `LineReader.advanced`: a reader after a number of attempts to read.
* `Line.StandsIn`: a line at its place in a row of tokens.
* `Line.Grouping`: what it is to group a row of tokens into lines.

Results:
* `exists_of_mem_splitOnP`, `flatten_splitOnP`: rows cut at separators.
* `next_advanced`: what each attempt to read gives.
* `standsIn_of_mem_ofTokens`: every line stands at its place.
* `grouping_ofTokens`: reading line by line is grouping.
-/

namespace LineLang

/-! ## Rows cut at separators -/

section Separators

variable {α : Type} {p : α → Bool}

/-- A part of a row that was cut at separators has none in it, and separators or the ends of the row
on both sides. -/
theorem exists_of_mem_splitOnP {xs g : List α} (h : g ∈ xs.splitOnP p) :
    ∃ before after, xs = before ++ (g ++ after) ∧ (∀ x ∈ before.getLast?, p x = true) ∧
      (∀ x ∈ after.head?, p x = true) ∧ ∀ x ∈ g, p x = false := by
  induction hn : xs.length using Nat.strongRecOn generalizing xs with
  | ind n ih =>
    subst hn
    cases hfind : xs.find? p with
    | none =>
      have hnone : ∀ x ∈ xs, p x = false := fun x hx =>
        Bool.eq_false_iff.2 (List.find?_eq_none.1 hfind x hx)
      rw [List.splitOnP_eq_singleton hnone, List.mem_singleton] at h
      subst h
      exact ⟨[], [], (List.append_nil g).symm, by simp, by simp, hnone⟩
    | some y =>
      obtain ⟨hy, first, rest, rfl, hfirst⟩ := List.find?_eq_some_iff_append.1 hfind
      have hnone : ∀ x ∈ first, p x = false := fun x hx => by simpa using hfirst x hx
      rw [List.splitOnP_append_cons_of_forall_mem hnone y hy, List.mem_cons] at h
      rcases h with rfl | h
      · exact ⟨[], y :: rest, rfl, by simp, by simpa using hy, hnone⟩
      · obtain ⟨before, after, rfl, hbefore, hafter, hg⟩ := ih rest.length (by simp; omega) h rfl
        refine ⟨first ++ y :: before, after, by simp, ?_, hafter, hg⟩
        rcases List.eq_nil_or_concat before with rfl | ⟨before, z, rfl⟩
        · simpa using hy
        · simpa [List.getLast?_cons] using hbefore

/-- The parts of a row that was cut at separators are what is left without them. -/
theorem flatten_splitOnP (p : α → Bool) (xs : List α) :
    (xs.splitOnP p).flatten = xs.filter (!p ·) := by
  induction xs with
  | nil => rfl
  | cons x xs ih =>
    rw [List.splitOnP_cons_eq_if_modifyHead]
    cases hx : p x with
    | true => simpa [hx] using ih
    | false =>
      obtain ⟨g, gs, hg⟩ := List.exists_cons_of_ne_nil (List.splitOnP_ne_nil p xs)
      rw [hg] at ih
      simpa [hx, hg] using ih

end Separators

/-! ## One attempt after another -/

namespace LineReader

/-- A reader after a number of attempts to read a line. -/
def advanced : Nat → LineReader → LineReader
  | 0, r => r
  | n + 1, r => advanced n r.next.2

/-- A reader that finds no line has come to the end. -/
theorem rest_of_nextAt_eq_none {index : Nat} {ts : List Token} {r : LineReader}
    (h : nextAt index ts = (none, r)) : r.rest = [] := by
  induction ts generalizing index with
  | nil =>
    obtain rfl := (Prod.mk.inj h).2
    rfl
  | cons t ts ih =>
    rw [nextAt] at h
    split at h
    · exact ih h
    · cases h

/-- **What each attempt to read gives**: the lines, one after another, and then nothing. -/
theorem next_advanced (n : Nat) (r : LineReader) : (r.advanced n).next.1 = r.lines[n]? := by
  induction n generalizing r with
  | zero =>
    rw [advanced, lines_eq]
    split <;> simp_all
  | succ n ih =>
    rw [advanced, ih, lines_eq r]
    split
    · rename_i hnext
      rw [hnext, List.getElem?_cons_succ]
    · rename_i s hnext
      have hend : s = ⟨s.index, []⟩ := by rw [← rest_of_nextAt_eq_none hnext]
      rw [hnext, hend, lines_nil]
      rfl

/-- There are no more lines than tokens. -/
theorem length_lines_le (r : LineReader) : r.lines.length ≤ r.rest.length := by
  induction hn : r.rest.length using Nat.strongRecOn generalizing r with
  | ind n ih =>
    subst hn
    rw [lines_eq]
    split
    · rename_i l s hnext
      have hlt := next_length_lt hnext
      have hle := ih _ hlt s rfl
      rw [List.length_cons]
      omega
    · exact Nat.zero_le _

end LineReader

/-! ## Lines in their rows -/

namespace Line

open LineReader (advanced)

/-- **A line at its place in a row of tokens.** Above it the row begins or a newline ends, and below
it a newline begins or the row ends. Up to its first token that is not a comment there are only
comments, which count for the place of this token and for nothing else. -/
inductive StandsIn : Line → List Token → Prop
  | intro {above comments rest below : List Token} {keyword : Token}
      (habove : ∀ k ∈ above.getLast?, k.is .newline = true)
      (hbelow : ∀ k ∈ below.head?, k.is .newline = true)
      (hline : ∀ k ∈ comments ++ keyword :: rest, k.is .newline = false)
      (hcomments : ∀ k ∈ comments, k.is .comment = true)
      (hkeyword : keyword.is .comment = false) :
      StandsIn ⟨above.length + comments.length, keyword, withoutComments rest⟩
        (above ++ ((comments ++ keyword :: rest) ++ below))

/-- **What it is to group a row of tokens into lines.** -/
structure Grouping (ts : List Token) (ls : List Line) : Prop where
  /-- The row is cut at its newline tokens, comments are left out of each group, and the groups with
  something left are the lines. -/
  groups : ls.map tokens = ((ts.splitOnP (·.is .newline)).map withoutComments).filter (· ≠ [])
  /-- Every line stands at its place. -/
  standsIn : ∀ l ∈ ls, l.StandsIn ts
  /-- The token at the place of a line is the first of the line. -/
  keyword : ∀ l ∈ ls, ts[l.start]? = some l.keyword
  /-- Later lines stand further on. -/
  increasing : (ls.map start).Pairwise (· < ·)
  /-- All tokens but newlines and comments are in the lines, once and in order. -/
  flatten : ls.flatMap tokens = ts.filter fun k => !k.is .newline && !k.is .comment
  /-- A reader gives these lines, one with each attempt to read, and then nothing any more. -/
  attempts : ∀ n, ((LineReader.mk 0 ts).advanced n).next.1 = ls[n]?
  /-- After as many attempts as there are tokens there is nothing more to read. -/
  ended : ∀ n, ts.length ≤ n → ((LineReader.mk 0 ts).advanced n).next.1 = none
  /-- Where one attempt gives nothing, no later one gives anything. -/
  stays : ∀ m n, m ≤ n → ((LineReader.mk 0 ts).advanced m).next.1 = none →
    ((LineReader.mk 0 ts).advanced n).next.1 = none

variable {ts : List Token} {l : Line}

/-- The first token of a line is neither a comment nor a newline. -/
theorem StandsIn.keyword (h : l.StandsIn ts) :
    l.keyword.is .comment = false ∧ l.keyword.is .newline = false := by
  cases h with
  | intro _ _ hline _ hkeyword => exact ⟨hkeyword, hline _ (by simp)⟩

/-- The line that a group makes: comments and then its first token. -/
theorem ofGroup_eq_some {g : List (Token × Nat)} (h : ofGroup g = some l) :
    ∃ comments rest, g = comments ++ (l.keyword, l.start) :: rest ∧
      (∀ k ∈ comments.map Prod.fst, k.is .comment = true) ∧ l.keyword.is .comment = false ∧
      l.parameters = withoutComments (rest.map Prod.fst) := by
  unfold ofGroup at h
  split at h
  · cases h
  · rename_i keyword start parameters hfilter
    obtain rfl := Option.some.inj h
    obtain ⟨comments, rest, rfl, hcomments, hkeyword, rfl⟩ := List.filter_eq_cons_iff.1 hfilter
    refine ⟨comments, rest, rfl, ?_, by simpa [kept] using hkeyword, map_fst_filter_kept rest⟩
    exact List.forall_mem_map.2 fun k hk => by simpa [kept] using hcomments k hk

/-- **Every line stands at its place.** -/
theorem standsIn_of_mem_ofTokens (h : l ∈ ofTokens ts) : l.StandsIn ts := by
  rw [ofTokens, LineReader.lines_eq_groups] at h
  obtain ⟨g, hg, hl⟩ := List.mem_filterMap.1 h
  obtain ⟨above, below, hts, habove, hbelow, hline⟩ := exists_of_mem_splitOnP hg
  obtain ⟨comments, rest, rfl, hcomments, hkeyword, hparameters⟩ := ofGroup_eq_some hl
  have htokens : ts = above.map Prod.fst ++
      ((comments.map Prod.fst ++ l.keyword :: rest.map Prod.fst) ++ below.map Prod.fst) := by
    have hmap := congrArg (List.map Prod.fst) hts
    simpa using hmap
  have hstart : l.start = (above.map Prod.fst).length + (comments.map Prod.fst).length := by
    have hplace : (ts.zipIdx 0)[above.length + comments.length]? = some (l.keyword, l.start) := by
      simp [hts]
    rw [List.getElem?_zipIdx, Option.map_eq_some_iff] at hplace
    obtain ⟨_, -, heq⟩ := hplace
    simpa using (Prod.mk.inj heq).2.symm
  obtain ⟨start, keyword, parameters⟩ := l
  subst hstart hparameters htokens
  refine .intro ?_ ?_ ?_ hcomments hkeyword
  · simpa [List.getLast?_map] using habove
  · simpa [List.head?_map] using hbelow
  · rw [← List.map_cons (f := Prod.fst) (a := (keyword, _)), ← List.map_append]
    exact List.forall_mem_map.2 hline

/-- Lines stand further on than the lines before them. -/
theorem map_start_sublist (gs : List (List (Token × Nat))) :
    ((gs.filterMap ofGroup).map start).Sublist (gs.flatten.map Prod.snd) := by
  induction gs with
  | nil => exact .slnil
  | cons g gs ih =>
    rw [List.filterMap_cons, List.flatten_cons, List.map_append]
    cases hl : ofGroup g with
    | none => exact ih.trans (List.sublist_append_right _ _)
    | some l =>
      obtain ⟨comments, rest, rfl, -⟩ := ofGroup_eq_some hl
      have hmem : l.start ∈ (comments ++ (l.keyword, l.start) :: rest).map Prod.snd := by simp
      exact (List.singleton_sublist.2 hmem).append ih

/-- The places of lines are in order. -/
theorem pairwise_start (ts : List Token) : ((ofTokens ts).map start).Pairwise (· < ·) := by
  have hplaces : ((ofTokens ts).map start).Sublist ((ts.zipIdx 0).map Prod.snd) := by
    rw [ofTokens, LineReader.lines_eq_groups]
    refine (map_start_sublist _).trans (List.Sublist.map Prod.snd ?_)
    rw [groups, flatten_splitOnP]
    exact List.filter_sublist
  rw [List.zipIdx_map_snd] at hplaces
  exact List.Pairwise.sublist hplaces List.pairwise_lt_range'

/-- The tokens of all lines are those that are neither newlines nor comments. -/
theorem flatMap_tokens (ts : List Token) :
    (ofTokens ts).flatMap tokens = ts.filter fun k => !k.is .newline && !k.is .comment := by
  have hcomments : ∀ gs : List (List Token),
      (gs.map withoutComments).flatten = withoutComments gs.flatten :=
    fun _ => List.filter_flatten.symm
  rw [List.flatMap_def, map_tokens_ofTokens, List.flatten_filter_ne_nil, hcomments,
    flatten_splitOnP, withoutComments, List.filter_filter]
  exact List.filter_congr fun k _ => Bool.and_comm _ _

/-- **Reading line by line is grouping.** -/
theorem grouping_ofTokens (ts : List Token) : Grouping ts (ofTokens ts) where
  groups := map_tokens_ofTokens ts
  standsIn := fun _ => standsIn_of_mem_ofTokens
  keyword := fun _ => getElem?_start
  increasing := pairwise_start ts
  flatten := flatMap_tokens ts
  attempts := fun n => LineReader.next_advanced n _
  ended := fun n hn => by
    have hle : (ofTokens ts).length ≤ ts.length := LineReader.length_lines_le _
    rw [LineReader.next_advanced]
    exact List.getElem?_eq_none (Nat.le_trans hle hn)
  stays := fun m n hmn hm => by
    rw [LineReader.next_advanced] at hm ⊢
    exact List.getElem?_eq_none (Nat.le_trans (List.getElem?_eq_none_iff.1 hm) hmn)

/-- Comments before a line and inside of it, as no source has them. -/
example :
    ofTokens (Token.placed 0 (["#", "a", "--", "b", "\n", "\n", "#", "\n", "c"].map String.toList)) =
      [⟨1, ⟨"a".toList, 1⟩, [⟨"b".toList, 4⟩]⟩, ⟨8, ⟨"c".toList, 9⟩, []⟩] := by
  decide +kernel

end Line

end LineLang
