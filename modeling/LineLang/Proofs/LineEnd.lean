import Mathlib.Data.List.TakeWhile
import LineLang.Proofs.Line
import LineLang.Proofs.Scan

/-!
# Text at the end of a line

What becomes of the tokens of a line when text is put after it, with nothing in between. If the text
does not go on with a name or a number, the tokens before it stay as they are, with two exceptions:
a comment takes in what follows it, and a lone `/` or `-` may become the first half of a comment's
marker. Neither matters to the line that is read off the tokens.

About `lexer`.

* `Category.Parts`: a text whose beginning is part of no name, number or size before it.
* `Cursor.Continued`: how the tokens of a line and those of the line with text after it are related.

Results:
* `munchFirst?_append`: what is taken at the beginning of a line with text after it.
* `continued_tokens`: the tokens of a line with text after it.
* `lines_tokens_append`: text in which nothing but comments is read does not change the line.
-/

namespace LineLang

namespace Category

open Pattern

/-! ## The end of what is taken -/

/-- A text does not go on with a name, a number or a size that ends before it. -/
def Parts (x : Text) : Prop :=
  ∀ c ∈ x.head?, CharClass.identifierRest.contains c = false ∧ c ≠ ']'

theorem parts_cons {c : Char} (h : CharClass.identifierRest.contains c = false) (hc : c ≠ ']')
    (x : Text) : Parts (c :: x) := by
  rintro d ⟨⟩
  exact ⟨h, hc⟩

/-- But for comments, whatever belongs to a category goes on with few characters. -/
theorem goes_on_of_accepts {c : Category} (hc : c ≠ comment) {b d : Char} {v : Text}
    (h : Accepts c.pattern (b :: v)) (hd : d ∈ v) :
    CharClass.identifierRest.contains d = true ∨ d = ']' := by
  have hrow : ∀ {first rest : CharClass}, Row first rest (b :: v) → rest.contains d = true := by
    rintro first rest ⟨e, w, heq, -, hw⟩
    obtain ⟨-, rfl⟩ := List.cons.inj heq
    exact hw d hd
  cases c with
  | word => exact Or.inl (identifierRest_of_letter (hrow (accepts_many1OneOf.1 h)))
  | comment => exact absurd rfl hc
  | identifier => exact Or.inl (hrow (accepts_row.1 h))
  | sizeSuffix =>
    obtain ⟨_, ⟨e, w, rfl, he, hw⟩, heq⟩ := accepts_sizeSuffix.1 h
    obtain ⟨-, rfl⟩ := List.cons.inj heq
    rcases List.mem_append.1 hd with hd | hd
    · rcases List.mem_cons.1 hd with rfl | hd
      · exact Or.inl (identifierRest_of_digit he)
      · exact Or.inl (identifierRest_of_digit (hw d hd))
    · exact Or.inr (List.mem_singleton.1 hd)
  | operand =>
    rcases accepts_either.1 h with h | h
    · exact Or.inl (hrow (accepts_row.1 h))
    · exact Or.inl (identifierRest_of_digit (hrow (accepts_many1OneOf.1 h)))
  | newline =>
    obtain ⟨-, rfl⟩ := List.cons.inj (accepts_char.1 h)
    exact absurd hd List.not_mem_nil

/-- But for comments, what begins before such a text ends before it. -/
theorem prefix_of_prefix_append {c : Category} {t x w : Text} (hx : Parts x) (ht : t ≠ [])
    (hc : c ≠ comment) (hw : w <+: t ++ x) (h : Accepts c.pattern w) : w <+: t := by
  obtain ⟨y, hy⟩ := hw
  rcases List.append_eq_append_iff.1 hy with ⟨z, rfl, -⟩ | ⟨z, rfl, rfl⟩
  · exact List.prefix_append w z
  · cases z with
    | nil => simp
    | cons d z =>
      obtain ⟨b, v, rfl⟩ := List.exists_cons_of_ne_nil ht
      obtain ⟨hrest, hbracket⟩ := hx d rfl
      rcases goes_on_of_accepts hc h (d := d) (by simp) with hd | hd
      · rw [hrest] at hd
        exact absurd hd Bool.false_ne_true
      · exact absurd hd hbracket

/-! ## Comments -/

theorem munchFirst?_of_munchComment? {t : Text} {way : Text × Text}
    (h : munchComment? t = some way) : munchFirst? t = some way := by
  simp only [munchFirst?, scanOrder, List.findSome?_cons, munch?, h]

/-- A comment takes the whole rest of its line. -/
theorem eq_of_munchComment? {t : Text} {way : Text × Text} (h : munchComment? t = some way)
    (ht : '\n' ∉ t) : way = (t, []) := by
  obtain ⟨marker, -, rest, rfl, rfl⟩ := munchComment?_eq_some_iff.1 h
  have hrest : ∀ c ∈ rest, CharClass.inLine.contains c = true := fun c hc =>
    CharClass.inLine_iff.2 fun heq => ht (heq ▸ List.mem_append_right marker hc)
  rw [lineAfter, List.takeWhile_eq_self_iff.2 hrest, List.dropWhile_eq_nil_iff.2 hrest]

theorem accepts_comment_of_munchComment? {t : Text} (h : munchComment? t = some (t, [])) :
    comment.accepts t = true := by
  rw [accepts, munch?, h]

/-- A marker of two characters is one of them twice. -/
theorem eq_of_mem_markers {b d : Char} {v z : Text} (h : b :: (v ++ d :: z) ∈ markers) :
    v = [] ∧ d = b ∧ b ∈ ['/', '-'] := by
  have htwo : ∀ {e : Char}, v ++ d :: z = [e] → v = [] ∧ d = e := fun heq => by
    rcases List.append_eq_singleton_iff.1 heq with ⟨hv, hd⟩ | ⟨-, hd⟩
    · exact ⟨hv, (List.cons.inj hd).1⟩
    · cases hd
  simp only [markers, List.mem_cons, List.not_mem_nil, or_false] at h
  rcases h with h | h | h
  all_goals obtain ⟨rfl, hrest⟩ := List.cons.inj h
  · exact ⟨(htwo hrest).1, (htwo hrest).2, by decide⟩
  · exact ⟨(htwo hrest).1, (htwo hrest).2, by decide⟩
  · exact absurd hrest (by simp)

/-- The marker of a comment is in the first of two texts, or half of it is in each. -/
theorem munchComment?_append_cases {t x : Text} {way : Text × Text} (ht : t ≠ [])
    (h : munchComment? (t ++ x) = some way) :
    (∃ way', munchComment? t = some way') ∨
      ∃ d ∈ ['/', '-'], t = [d] ∧ x.head? = some d := by
  obtain ⟨marker, hm, rest, heq, -⟩ := munchComment?_eq_some_iff.1 h
  rcases List.append_eq_append_iff.1 heq with ⟨z, hz, rfl⟩ | ⟨z, rfl, -⟩
  · cases z with
    | nil =>
      rw [List.append_nil] at hz
      exact Or.inl ⟨_, munchComment?_eq_some_iff.2 ⟨marker, hm, [], by simp [hz], rfl⟩⟩
    | cons d z =>
      obtain ⟨b, v, rfl⟩ := List.exists_cons_of_ne_nil ht
      obtain ⟨rfl, rfl, hd⟩ := eq_of_mem_markers (hz ▸ hm)
      exact Or.inr ⟨d, hd, rfl, rfl⟩
  · exact Or.inl ⟨_, munchComment?_eq_some_iff.2 ⟨marker, hm, z, rfl, rfl⟩⟩

/-! ## What is taken at the beginning of a line -/

/-- Where no comment begins, text at the end of the line is left for later. -/
theorem munchFirst?_append_of_no_comment {t x : Text} (hx : Parts x) (ht : t ≠ [])
    (h : munchComment? (t ++ x) = none) :
    munchFirst? (t ++ x) = (munchFirst? t).map fun way => (way.1, way.2 ++ x) := by
  refine munchFirst?_append_of_before fun c w hw hacc => ?_
  by_cases hc : c = comment
  -- a comment is ruled out by `h`, and what is none ends before `x`
  · subst hc
    exact absurd hacc ((munch?_eq_none_iff (c := comment)).1 h w hw)
  · exact prefix_of_prefix_append hx ht hc hw hacc

/-- **What is taken at the beginning of a line with text after it**: the same as without this text;
or the line is a comment, and all of it is taken; or it is the first half of a marker. -/
theorem munchFirst?_append {t x : Text} (hx : Parts x) (ht : t ≠ []) (hline : '\n' ∉ t ++ x) :
    munchFirst? (t ++ x) = (munchFirst? t).map (fun way => (way.1, way.2 ++ x)) ∨
      (munchFirst? (t ++ x) = some (t ++ x, []) ∧ comment.accepts (t ++ x) = true ∧
        ((munchFirst? t = some (t, []) ∧ comment.accepts t = true) ∨
          (munchFirst? t = none ∧ ∃ d ∈ ['/', '-'], t = [d] ∧ x.head? = some d))) := by
  cases h : munchComment? (t ++ x) with
  | none => exact Or.inl (munchFirst?_append_of_no_comment hx ht h)
  | some way =>
    rw [eq_of_munchComment? h hline] at h
    refine Or.inr ⟨munchFirst?_of_munchComment? h, accepts_comment_of_munchComment? h, ?_⟩
    rcases munchComment?_append_cases ht h with ⟨way', h'⟩ | ⟨d, hd, rfl, hhead⟩
    · rw [eq_of_munchComment? h' fun hmem => hline (List.mem_append_left x hmem)] at h'
      exact Or.inl ⟨munchFirst?_of_munchComment? h', accepts_comment_of_munchComment? h'⟩
    · refine Or.inr ⟨?_, d, hd, rfl, hhead⟩
      simp only [List.mem_cons, List.not_mem_nil, or_false] at hd
      rcases hd with rfl | rfl <;> rfl

end Category

namespace Cursor

open Category

/-! ## The tokens of a line -/

/-- The tokens of a line `t`, and those of the same line with the text `x` after it. -/
inductive Continued (x : Text) (o : Nat) (t : Text) : List Token → List Token → Prop
  /-- The text is read by itself. -/
  | apart (ts : List Token) : Continued x o t ts (ts ++ tokens ⟨o + t.byteLength, x⟩)
  /-- The line ends in a comment, which goes on. -/
  | comment (ts : List Token) {k : Token} (hk : k.is .comment = true)
      (hmore : comment.accepts (k.text ++ x) = true) :
      Continued x o t (ts ++ [k]) (ts ++ [⟨k.text ++ x, k.offset⟩])
  /-- A comment begins with the last character of the line. -/
  | marker (ts : List Token) {k : Token} (hk : k.is .comment = true)
      (hx : ∃ d ∈ ['/', '-'], x.head? = some d) : Continued x o t ts (ts ++ [k])

variable {x t u : Text} {o : Nat} {ks ts ts' : List Token}

/-- What is before a line that goes on changes nothing. -/
theorem Continued.prepend (h : Continued x (o + u.byteLength) t ts ts') (ks : List Token) :
    Continued x o (u ++ t) (ks ++ ts) (ks ++ ts') := by
  cases h with
  | apart =>
    rw [Nat.add_assoc, ← Text.byteLength_append, ← List.append_assoc]
    exact .apart _
  | comment ts hk hmore =>
    rw [← List.append_assoc, ← List.append_assoc]
    exact .comment _ hk hmore
  | marker _ hk hx =>
    rw [← List.append_assoc]
    exact .marker _ hk hx

theorem tokens_all (h : munchFirst? t = some (t, [])) : tokens ⟨o, t⟩ = [⟨t, o⟩] := by
  have htake := tokens_take (o := o) (u := t) (r := []) (by rwa [List.append_nil])
  rwa [List.append_nil, tokens_nil] at htake

/-- **The tokens of a line with text after it.** -/
theorem continued_tokens (hx : Parts x) (o : Nat) (hline : '\n' ∉ t ++ x) :
    Continued x o t (tokens ⟨o, t⟩) (tokens ⟨o, t ++ x⟩) := by
  generalize hts : tokens ⟨o, t⟩ = ts
  have h := scanned_iff.2 hts.symm
  clear hts
  induction h with
  | done o => exact .apart []
  | @skip o c t ts h hrest ih =>
    have hline' : '\n' ∉ t ++ x := fun hmem => hline (List.mem_cons_of_mem c hmem)
    rcases munchFirst?_append hx (List.cons_ne_nil c t) hline with
      hsame | ⟨hall, hcomment, ⟨hsome, -⟩ | ⟨-, d, hd, ht, hhead⟩⟩
    · rw [h, Option.map_none, List.cons_append] at hsame
      rw [List.cons_append, tokens_skip hsame]
      exact (ih hline').prepend (u := [c]) []
    · rw [h] at hsome
      cases hsome
    -- the character that was passed over is the last of the line
    · obtain ⟨rfl, rfl⟩ := List.cons.inj ht
      rw [scanned_iff.1 hrest, tokens_nil, tokens_all hall]
      exact .marker [] hcomment ⟨c, hd, hhead⟩
  | @take o u r ts h hrest ih =>
    have hne : u ++ r ≠ [] := fun hnil =>
      (munchFirst?_append_and_ne_nil h).2 (List.append_eq_nil_iff.1 hnil).1
    rcases munchFirst?_append hx hne hline with
      hsame | ⟨hall, hcomment, ⟨hsome, hcomment'⟩ | ⟨hnone, -⟩⟩
    · rw [h, Option.map_some, List.append_assoc] at hsame
      rw [List.append_assoc, tokens_take hsame]
      rw [List.append_assoc] at hline
      exact (ih fun hmem => hline (List.mem_append_right u hmem)).prepend [⟨u, o⟩]
    · rw [h] at hsome
      obtain rfl : r = [] := (Prod.mk.inj (Option.some.inj hsome)).2
      rw [List.append_nil] at hall hcomment hcomment' ⊢
      rw [scanned_iff.1 hrest, tokens_nil, tokens_all hall]
      exact .comment [] hcomment' hcomment
    · rw [h] at hnone
      cases hnone

end Cursor

/-! ## The line -/

namespace Line

/-- Comments after the tokens of a line are not kept. -/
theorem filter_kept_append {ts cs : List Token} (hcs : ∀ k ∈ cs, k.is .comment = true)
    (index : Nat) : ((ts ++ cs).zipIdx index).filter kept = (ts.zipIdx index).filter kept := by
  have hnone : (cs.zipIdx (index + ts.length)).filter kept = [] := by
    rw [List.filter_eq_nil_iff]
    intro k hk
    simp [kept, hcs k.1 (List.fst_mem_of_mem_zipIdx hk)]
  rw [List.zipIdx_append, List.filter_append, hnone, List.append_nil]

end Line

namespace LineReader

open Line (kept ofGroup)
open Cursor (Continued tokens)

variable {x t : Text}

/-- A text without newlines makes up one line or none. -/
theorem lines_of_line (h : '\n' ∉ t) (index o : Nat) :
    lines ⟨index, tokens ⟨o, t⟩⟩ = (ofGroup ((tokens ⟨o, t⟩).zipIdx index)).toList := by
  have hgroups : Line.groups index (tokens ⟨o, t⟩) = [(tokens ⟨o, t⟩).zipIdx index] :=
    List.splitOnP_eq_singleton fun _ hk =>
      Cursor.newline_eq_false_of_mem_tokens h (List.fst_mem_of_mem_zipIdx hk)
  rw [lines_eq_groups, hgroups, List.filterMap_cons, List.filterMap_nil]
  cases ofGroup ((tokens ⟨o, t⟩).zipIdx index) <;> rfl

theorem filter_kept_of_continued {o : Nat} {ts ts' : List Token} (h : Continued x o t ts ts')
    (hx : ∀ k ∈ tokens ⟨o + t.byteLength, x⟩, k.is .comment = true) (index : Nat) :
    (ts'.zipIdx index).filter kept = (ts.zipIdx index).filter kept := by
  cases h with
  | apart => exact Line.filter_kept_append hx index
  | @comment us k hk hmore =>
    have hmore' : (Token.mk (k.text ++ x) k.offset).is .comment = true := hmore
    rw [Line.filter_kept_append (List.forall_mem_singleton.2 hmore'),
      Line.filter_kept_append (List.forall_mem_singleton.2 hk)]
  | marker _ hk => exact Line.filter_kept_append (List.forall_mem_singleton.2 hk) index

/-- **Text in which nothing but comments is read** does not change the line before it. -/
theorem lines_tokens_append (hx : Category.Parts x) (hline : '\n' ∉ t ++ x)
    (hcomments : ∀ o, ∀ k ∈ tokens ⟨o, x⟩, k.is .comment = true) (index o : Nat) :
    lines ⟨index, tokens ⟨o, t ++ x⟩⟩ = lines ⟨index, tokens ⟨o, t⟩⟩ := by
  have ht : '\n' ∉ t := fun hmem => hline (List.mem_append_left x hmem)
  have hkept := filter_kept_of_continued (Cursor.continued_tokens hx o hline) (hcomments _) index
  rw [lines_of_line hline, lines_of_line ht, ofGroup, ofGroup, hkept]

end LineReader

end LineLang
