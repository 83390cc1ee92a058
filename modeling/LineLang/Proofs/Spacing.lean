import Mathlib.Data.List.Chain
import LineLang.Proofs.LineEnd

/-!
# Tokens written with spaces between them

Texts may be written one after another so that scanning gives them back: with a space between two
neighbours, and with nothing on either side of a newline. A space ends every token but a comment, so
a comment must be the last text or have a newline after it. The tokens of a source are like this.

About `lexer`.

* `Token.spaced`: texts written one after another.
* `Token.layout`: the tokens of such texts, at the offsets at which they are written.
* `Token.Readable`: texts that are tokens, with a newline after each comment.

Results:
* `munchFirst?_append_space`: what is taken in front of a space.
* `tokens_spaced`: the tokens of texts that were written.
* `Scanned.readable`: tokens can be written and read again.
* `scan_spaced`: scanning undoes writing.
-/

namespace LineLang

namespace Category

open Pattern

/-! ## What is taken in front of a space -/

/-- A text that is no comment does not become one with a space after it: a marker that it begins
with is all in the text. -/
theorem munchComment?_append_space {c : Category} {t : Text} (h : Accepts c.pattern t)
    (hcomment : comment.accepts t = false) (ht : t ≠ ['\n']) (x : Text) :
    munchComment? (t ++ ' ' :: x) = none := by
  have hline : '\n' ∉ t := fun hmem => ht (eq_newline_of_mem h hmem)
  rw [Option.eq_none_iff_forall_ne_some]
  intro way hway
  rcases munchComment?_append_cases (ne_nil_of_accepts h) hway with ⟨way', hway'⟩ | ⟨d, hd, -, hx⟩
  · rw [eq_of_munchComment? hway' hline] at hway'
    rw [accepts_comment_of_munchComment? hway'] at hcomment
    cases hcomment
  · obtain rfl : ' ' = d := Option.some.inj hx
    exact absurd hd (by decide)

/-- **In front of a space a token is taken as it is**, unless it is a comment. -/
theorem munchFirst?_append_space {c : Category} {t : Text} (h : Accepts c.pattern t)
    (hcomment : comment.accepts t = false) (ht : t ≠ ['\n']) (x : Text) :
    munchFirst? (t ++ ' ' :: x) = some (t, ' ' :: x) := by
  have hspace : Parts (' ' :: x) := parts_cons (by decide) (by decide) x
  rw [munchFirst?_append_of_no_comment hspace (ne_nil_of_accepts h)
    (munchComment?_append_space h hcomment ht x), munchFirst?_of_accepts h]
  rfl

/-- After a comment the source ends, or the line does. -/
theorem eq_nil_or_newline_of_comment {u r : Text} (h : munchFirst? (u ++ r) = some (u, r))
    (hu : comment.accepts u = true) : r = [] ∨ ∃ b, r = '\n' :: b := by
  cases r with
  | nil => exact Or.inl rfl
  | cons d r =>
    right
    by_contra hnot
    have hd : d ≠ '\n' := fun heq => hnot ⟨r, by rw [heq]⟩
    obtain ⟨marker, hm, rest, rfl, hrest⟩ := accepts_comment.1 (accepts_iff.1 hu)
    -- otherwise the comment would go on
    have hlonger : Accepts comment.pattern (marker ++ (rest ++ [d])) :=
      accepts_comment.2 ⟨marker, hm, _, rfl, List.forall_mem_append.2
        ⟨hrest, List.forall_mem_singleton.2 (CharClass.inLine_iff.2 hd)⟩⟩
    have hle := length_le_of_munchFirst? h ⟨r, by simp⟩ hlonger
    simp only [List.length_append, List.length_singleton] at hle
    omega

end Category

namespace Token

open Category (munchFirst?)

/-! ## Writing -/

/-- What is written between a text and the next one, if there is one: a space, but nothing next to
a newline. -/
def gap (t : Text) : Option Text → Text
  | none => []
  | some u => if t = ['\n'] ∨ u = ['\n'] then [] else [' ']

/-- Texts written one after another. -/
def spaced : List Text → Text
  | [] => []
  | t :: ts => t ++ (gap t ts.head? ++ spaced ts)

/-- The tokens of texts that are written from an offset on: each at the offset where it begins. -/
def layout (offset : Nat) : List Text → List Token
  | [] => []
  | t :: ts => ⟨t, offset⟩ :: layout (offset + t.byteLength + (gap t ts.head?).byteLength) ts

/-- **Texts that can be read again when they are written**: each is a token, and each comment is the
last text or has a newline after it. -/
structure Readable (ts : List Text) : Prop where
  token : ∀ t ∈ ts, ∃ c : Category, c.accepts t = true
  comment : ts.IsChain fun t u => Category.comment.accepts t = true → u = ['\n']

theorem map_text_layout (o : Nat) (ts : List Text) : (layout o ts).map text = ts := by
  induction ts generalizing o with
  | nil => rfl
  | cons t ts ih => rw [layout, List.map_cons, ih]

theorem Readable.tail {t : Text} {ts : List Text} (h : Readable (t :: ts)) : Readable ts :=
  ⟨fun u hu => h.token u (List.mem_cons_of_mem t hu), h.comment.tail⟩

/-! ## Reading what is written -/

/-- Nothing is read between two texts. -/
theorem tokens_gap (o : Nat) (t : Text) (next : Option Text) (x : Text) :
    Cursor.tokens ⟨o, gap t next ++ x⟩ = Cursor.tokens ⟨o + (gap t next).byteLength, x⟩ := by
  cases next with
  | none => rfl
  | some u =>
    rw [gap]
    split
    · rfl
    · exact Cursor.tokens_skip rfl

/-- The first of the texts that are written is taken as it is. -/
theorem munchFirst?_spaced {t : Text} {ts : List Text} (h : Readable (t :: ts)) :
    munchFirst? (spaced (t :: ts)) = some (t, gap t ts.head? ++ spaced ts) := by
  obtain ⟨c, hc⟩ := h.token t List.mem_cons_self
  have hacc := Category.accepts_iff.1 hc
  have hwhole := Category.munchFirst?_of_accepts hacc
  cases ts with
  | nil =>
    have hend : spaced [t] = t := List.append_nil t
    rw [hend]
    exact hwhole
  | cons u ts =>
    rw [spaced, List.head?_cons, gap]
    by_cases ht : t = ['\n']
    · rw [if_pos (Or.inl ht), ht]
      rfl
    by_cases hu : u = ['\n']
    · subst hu
      rw [if_pos (Or.inr rfl), spaced, List.nil_append]
      have hline := Category.munchFirst?_append_newline (Category.ne_nil_of_accepts hacc)
        (gap ['\n'] ts.head? ++ spaced ts)
      rw [hwhole] at hline
      exact hline
    · have hcomment : Category.comment.accepts t = false := by
        rw [Bool.eq_false_iff]
        exact fun hcomment => hu ((List.isChain_cons_cons.1 h.comment).1 hcomment)
      rw [if_neg (not_or.2 ⟨ht, hu⟩)]
      exact Category.munchFirst?_append_space hacc hcomment ht _

/-- **The tokens of texts that were written**, one text after another. -/
theorem tokens_spaced {ts : List Text} (h : Readable ts) (o : Nat) :
    Cursor.tokens ⟨o, spaced ts⟩ = layout o ts := by
  induction ts generalizing o with
  | nil => exact Cursor.tokens_nil o
  | cons t ts ih =>
    rw [spaced, Cursor.tokens_take (munchFirst?_spaced h), tokens_gap, ih h.tail, layout]

end Token

/-! ## Writing what was read -/

open Token (Readable)

/-- **The tokens of a source can be written and read again.** -/
theorem Cursor.Scanned.readable {o : Nat} {t : Text} {ts : List Token} (h : Scanned o t ts) :
    Readable (ts.map Token.text) := by
  induction h with
  | done => exact ⟨List.forall_mem_nil _, .nil⟩
  | skip _ _ ih => exact ih
  | @take o u r ts h hrest ih =>
    obtain ⟨c, hacc⟩ := Category.accepts_of_munchFirst? h
    refine ⟨List.forall_mem_cons.2 ⟨⟨c, Category.accepts_iff.2 hacc⟩, ih.token⟩, ?_⟩
    refine List.isChain_cons.2 ⟨fun v hv hu => ?_, ih.comment⟩
    rw [scanned_iff.1 hrest] at hv
    rcases Category.eq_nil_or_newline_of_comment h hu with rfl | ⟨b, rfl⟩
    · rw [tokens_nil] at hv
      cases hv
    · have hnext : tokens ⟨o + u.byteLength, '\n' :: b⟩ = _ :=
        tokens_take (u := ['\n']) (Category.munchFirst?_newline b)
      rw [hnext] at hv
      exact (Option.some.inj hv).symm

namespace Token

/-- **Scanning undoes writing**: texts that can be read again are the texts of the tokens of what is
written, each at the offset at which it was written. The tokens of every source are such texts. -/
theorem scan_spaced :
    (∀ ts, Readable ts → scan (spaced ts) = layout 0 ts ∧ (layout 0 ts).map text = ts) ∧
      ∀ source, (scan (spaced ((scan source).map text))).map text = (scan source).map text := by
  have hwritten : ∀ ts, Readable ts → scan (spaced ts) = layout 0 ts := fun _ h => tokens_spaced h 0
  refine ⟨fun ts h => ⟨hwritten ts h, map_text_layout 0 ts⟩, fun source => ?_⟩
  have hread := (Cursor.scanned_tokens 0 source).readable
  exact (congrArg (List.map text) (hwritten _ hread)).trans (map_text_layout 0 _)

/-- A size with a space before it, a comment with a letter of two bytes in it and a marker at its
end, a newline with nothing on either side, and a comment of one character at the end. -/
theorem scan_spaced_comments :
    let ts := ["var", "x", "[2]", "//é--", "\n", "8", "#"].map String.toList
    Readable ts ∧ spaced ts = "var x [2] //é--\n8 #".toList ∧
      scan (spaced ts) = [⟨"var".toList, 0⟩, ⟨"x".toList, 4⟩, ⟨"[2]".toList, 6⟩,
        ⟨"//é--".toList, 10⟩, ⟨"\n".toList, 16⟩, ⟨"8".toList, 17⟩, ⟨"#".toList, 19⟩] := by
  intro ts
  have htoken : ∀ t ∈ ts, ∃ c ∈ Category.scanOrder, c.accepts t = true := by decide +kernel
  have hread : Readable ts :=
    ⟨fun t ht => (htoken t ht).imp fun _ hc => hc.2, by decide +kernel⟩
  exact ⟨hread, by decide +kernel, (scan_spaced.1 ts hread).1⟩

end Token

end LineLang
