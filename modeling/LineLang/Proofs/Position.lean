import Mathlib.Data.List.TakeWhile
import LineLang.Proofs.Line
import LineLang.Proofs.Scan

/-!
# Positions in texts that were put together

Where an offset is in a text made of two: in the first one, or further on in the second. What is
before a place is all that its position depends on, and of this only the number of newlines and what
stands after the last one.

About `Position.locate` and `line_at`.

* `Position.lowered`: a position as many lines further down.

Results:
* `takeBytes_append_of_le`, `takeBytes_append_add`: the first bytes of two texts.
* `lastPiece_append_newline`, `firstPiece_append`: pieces next to a place.
* `getElem?_splitOn_count`: the piece of a text that a place is in.
* `locate_append_of_le`, `locate_append_newline`: positions in the first of two texts, and on the
  lines after it.
* `line_locate_append_add`: lines of the second of two texts.
* `position_append`: positions of the lines of a source.
-/

namespace LineLang

namespace Text

/-! ## First bytes -/

@[simp] theorem takeBytes_zero (t : Text) : takeBytes 0 t = [] := by
  cases t with
  | nil => rfl
  | cons c t => exact if_neg (Nat.not_le.2 c.utf8Size_pos)

theorem takeBytes_cons_add (c : Char) (t : Text) (n : Nat) :
    takeBytes (c.utf8Size + n) (c :: t) = c :: takeBytes n t := by
  rw [takeBytes, if_pos (Nat.le_add_right _ _), Nat.add_sub_cancel_left]

theorem takeBytes_cons_of_lt {c : Char} {n : Nat} (h : n < c.utf8Size) (t : Text) :
    takeBytes n (c :: t) = [] :=
  if_neg (Nat.not_le.2 h)

/-- The first bytes of two texts, as many as the first one has or fewer. -/
theorem takeBytes_append_of_le {n : Nat} {t : Text} (h : n ≤ t.byteLength) (u : Text) :
    takeBytes n (t ++ u) = takeBytes n t := by
  induction t generalizing n with
  | nil =>
    obtain rfl := Nat.le_zero.1 h
    rw [takeBytes_zero, takeBytes_zero]
  | cons c t ih =>
    rw [byteLength_cons] at h
    rw [List.cons_append, takeBytes, takeBytes, ih (Nat.sub_le_iff_le_add'.2 h)]

/-- The first bytes of two texts, as many as the first one has and some more. -/
theorem takeBytes_append_add (t u : Text) (n : Nat) :
    takeBytes (t.byteLength + n) (t ++ u) = t ++ takeBytes n u := by
  induction t with
  | nil => rw [byteLength_nil, Nat.zero_add, List.nil_append, List.nil_append]
  | cons c t ih =>
    rw [byteLength_cons, Nat.add_assoc, List.cons_append, takeBytes_cons_add, ih, List.cons_append]

/-- The first of two texts is as many bytes as it has. -/
theorem takeBytes_append (t u : Text) : takeBytes t.byteLength (t ++ u) = t := by
  have h := takeBytes_append_add t u 0
  rwa [takeBytes_zero, List.append_nil] at h

theorem takeBytes_prefix (n : Nat) (t : Text) : takeBytes n t <+: t :=
  ⟨_, takeBytes_append_drop n t⟩

/-! ## Last and first pieces -/

/-- Only what follows the last newline is in the last piece. -/
theorem lastPiece_append_newline (t u : Text) : lastPiece (t ++ '\n' :: u) = lastPiece u := by
  have hstop : ('\n' :: t.reverse).takeWhile (· != '\n') = [] := rfl
  rw [lastPiece, lastPiece, List.reverse_append, List.reverse_cons, List.append_assoc,
    List.singleton_append, List.takeWhile_append, hstop, List.append_nil]
  split
  · rename_i hall
    rw [(List.takeWhile_prefix _).eq_of_length hall]
  · rfl

theorem firstPiece_cons {c : Char} (hc : c ≠ '\n') (t : Text) :
    firstPiece (c :: t) = c :: firstPiece t :=
  List.takeWhile_cons_of_pos (bne_iff_ne.2 hc)

theorem lastPiece_of_not_mem {t : Text} (h : '\n' ∉ t) : lastPiece t = t := by
  have hall : ∀ c ∈ t.reverse, (c != '\n') = true := fun c hc =>
    bne_iff_ne.2 fun heq => h (heq ▸ List.mem_reverse.1 hc)
  rw [lastPiece, List.takeWhile_eq_self_iff.2 hall, List.reverse_reverse]

theorem newline_not_mem_lastPiece (t : Text) : '\n' ∉ lastPiece t := by
  intro h
  have hne := List.mem_takeWhile_imp (p := (· != '\n')) (List.mem_reverse.1 h)
  exact bne_iff_ne.1 hne rfl

/-- A text without newlines is before the first newline of what it begins. -/
theorem firstPiece_append {t : Text} (h : '\n' ∉ t) (u : Text) :
    firstPiece (t ++ u) = t ++ firstPiece u :=
  List.takeWhile_append_of_pos fun _ hc => bne_iff_ne.2 fun heq => h (heq ▸ hc)

theorem newline_not_mem_firstPiece (t : Text) : '\n' ∉ firstPiece t := by
  intro h
  have hne := List.mem_takeWhile_imp (p := (· != '\n')) h
  exact bne_iff_ne.1 hne rfl

/-- The pieces of a text between newlines have no newline in them. -/
theorem newline_not_mem_of_mem_splitOn {t piece : Text} (h : piece ∈ t.splitOn '\n') :
    '\n' ∉ piece := by
  induction t using newline_induction with
  | line t ht =>
    rw [List.splitOn_eq_singleton ht, List.mem_singleton] at h
    rwa [h]
  | newline a b _ iha ihb =>
    rw [List.splitOn_append_cons_self] at h
    exact (List.mem_append.1 h).elim iha ihb

/-- The first piece of a text is the first of all its pieces. -/
theorem exists_splitOn_eq_cons (t : Text) : ∃ ps, t.splitOn '\n' = firstPiece t :: ps := by
  induction t with
  | nil => exact ⟨[], rfl⟩
  | cons c t ih =>
    obtain ⟨ps, hps⟩ := ih
    by_cases hc : c = '\n'
    · subst hc
      exact ⟨_, List.splitOn_cons_eq_if_modifyHead _ _⟩
    · refine ⟨ps, ?_⟩
      rw [List.splitOn_cons_eq_if_modifyHead, if_neg (by simpa using hc), hps, firstPiece_cons hc]
      rfl

/-- **The piece of a text that a place is in**: there are as many pieces before it as newlines
before the place. It is made up of what is before the place after the last newline and of what
follows up to the next one. -/
theorem getElem?_splitOn_count (t u : Text) :
    ((t ++ u).splitOn '\n')[t.count '\n']? = some (lastPiece t ++ firstPiece u) := by
  induction t using newline_induction with
  | line t h =>
    obtain ⟨ps, hps⟩ := exists_splitOn_eq_cons (t ++ u)
    rw [hps, List.count_eq_zero_of_not_mem h, firstPiece_append h, lastPiece_of_not_mem h]
    rfl
  | newline a b ha _ ihb =>
    rw [List.append_assoc, List.cons_append, List.splitOn_append_cons_self_of_not_mem ha,
      List.count_append, List.count_eq_zero_of_not_mem ha, Nat.zero_add, List.count_cons_self,
      List.getElem?_cons_succ, ihb, lastPiece_append_newline]

/-! ## Ends of texts -/

theorem dropEndWhile_append {p : Char → Bool} {rs : Text} (h : ∀ c ∈ rs, p c = true) (t : Text) :
    dropEndWhile p (t ++ rs) = dropEndWhile p t := by
  have hrs : ∀ c ∈ rs.reverse, p c = true := fun c hc => h c (List.mem_reverse.1 hc)
  rw [dropEndWhile, dropEndWhile, List.reverse_append, List.dropWhile_append_of_pos hrs]

/-- Nothing is dropped up to a character that is not to be dropped. -/
theorem dropEndWhile_append_cons {p : Char → Bool} {c : Char} (hc : p c = false) (t u : Text) :
    dropEndWhile p (t ++ c :: u) = t ++ c :: dropEndWhile p u := by
  have hstop : (c :: t.reverse).dropWhile p = c :: t.reverse :=
    List.dropWhile_cons_of_neg (Bool.eq_false_iff.1 hc)
  rw [dropEndWhile, List.reverse_append, List.reverse_cons, List.append_assoc,
    List.singleton_append, List.dropWhile_append, hstop, dropEndWhile]
  split
  · rename_i hempty
    rw [List.isEmpty_iff.1 hempty]
    simp
  · simp

theorem exists_append_of_dropEndWhile (p : Char → Bool) (t : Text) :
    ∃ rs : Text, t = dropEndWhile p t ++ rs ∧ ∀ c ∈ rs, p c = true := by
  refine ⟨(t.reverse.takeWhile p).reverse, ?_, fun c hc => ?_⟩
  · rw [dropEndWhile, ← List.reverse_append, List.takeWhile_append_dropWhile, List.reverse_reverse]
  · exact List.mem_takeWhile_imp (List.mem_reverse.1 hc)

/-- What is dropped first makes no difference if it would be dropped anyway. -/
theorem dropEndWhile_dropEndWhile {p q : Char → Bool} (h : ∀ c, p c = true → q c = true) (t : Text) :
    dropEndWhile q (dropEndWhile p t) = dropEndWhile q t := by
  obtain ⟨rs, ht, hrs⟩ := exists_append_of_dropEndWhile p t
  have hdrop := dropEndWhile_append (fun c hc => h c (hrs c hc)) (dropEndWhile p t)
  rw [← ht] at hdrop
  exact hdrop.symm

theorem dropEndWhile_subset (p : Char → Bool) (t : Text) : dropEndWhile p t ⊆ t := by
  obtain ⟨rs, ht, -⟩ := exists_append_of_dropEndWhile p t
  intro c hc
  rw [ht]
  exact List.mem_append_left rs hc

end Text

namespace Position

/-! ## Positions -/

/-- The position as many lines further down. -/
def lowered (lines : Nat) (p : Position) : Position := ⟨p.line + lines, p.column⟩

/-- The position after a text that has a newline in it. -/
theorem after_append_newline (t u : Text) :
    after (t ++ '\n' :: u) = (after u).lowered (t.count '\n' + 1) := by
  have hcount : (t ++ '\n' :: u).count '\n' + 1 = u.count '\n' + 1 + (t.count '\n' + 1) := by
    rw [List.count_append, List.count_cons_self]
    omega
  rw [after, Text.lastPiece_append_newline, hcount, after, lowered]

/-- Positions in the first of two texts. -/
theorem locate_append_of_le {n : Nat} {t : Text} (h : n ≤ t.byteLength) (u : Text) :
    locate (t ++ u) n = locate t n := by
  rw [locate, locate, Text.takeBytes_append_of_le h]

/-- **Positions after a newline**: further down by the lines of the text before it. -/
theorem locate_append_newline (t u : Text) (n : Nat) :
    locate (t ++ '\n' :: u) (n + (t.byteLength + 1)) =
      (locate u n).lowered (t.count '\n' + 1) := by
  have hbefore : (t ++ ['\n']).byteLength = t.byteLength + 1 := Text.byteLength_append t ['\n']
  have htext : t ++ '\n' :: u = (t ++ ['\n']) ++ u := by
    rw [List.append_assoc, List.singleton_append]
  rw [locate, htext, ← hbefore, Nat.add_comm, Text.takeBytes_append_add, List.append_assoc,
    List.singleton_append, after_append_newline, locate]

/-- In the second of two texts everything is further down by the lines of the first. -/
theorem line_locate_append_add (t u : Text) (n : Nat) :
    (locate (t ++ u) (t.byteLength + n)).line = t.count '\n' + (locate u n).line := by
  rw [locate, Text.takeBytes_append_add, after, List.count_append, Nat.add_assoc]
  rfl

/-- In a text without newlines everything is on the first line. -/
theorem line_locate_of_not_mem {t : Text} (h : '\n' ∉ t) (n : Nat) : (locate t n).line = 1 := by
  have hbefore : '\n' ∉ t.takeBytes n := fun hmem => h ((Text.takeBytes_prefix n t).subset hmem)
  rw [locate, after, List.count_eq_zero_of_not_mem hbefore]

end Position

/-- A token begins within its source. -/
theorem Token.offset_le_byteLength {a : Text} {k : Token} (hk : k ∈ Token.scan a) :
    k.offset ≤ a.byteLength := by
  have hstop := (Cursor.scanned_tokens 0 a).stop_le hk
  rw [Nat.zero_add] at hstop
  exact Nat.le_trans (Nat.le_add_right _ _) hstop

/-- What follows a source does not change the positions of its lines. -/
theorem Line.position_append {a : Text} {l : Line} (hl : l ∈ Line.ofTokens (Token.scan a))
    (u : Text) : l.keyword.position (a ++ u) = l.keyword.position a :=
  Position.locate_append_of_le
    (Token.offset_le_byteLength (List.mem_of_getElem? (Line.getElem?_start hl))) u

end LineLang
