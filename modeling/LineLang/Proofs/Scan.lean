import Mathlib.Data.List.Nodup
import LineLang.Proofs.Category

/-!
# Maximal munch

The tokens of a source are read off it from left to right: at each place the longest text that
belongs to a category, and where there is none the next character is passed over.

About `lexer`.

* `Scanned`: a derivation of the tokens of a text, with a rule for each thing a place can bring.
* `MaximalMunch`: what the tokens of a source are, said of the source and the tokens alone.

Results:
* `scanned_iff`: the derivations are exactly the runs of the scanner.
* `scan_maximalMunch`: the scanner cuts every source by maximal munch.
* `tokens_append_newline`: scanning starts afresh after each newline.
-/

namespace LineLang

/-- A token covers the byte at an offset. -/
def Token.Covers (k : Token) (b : Nat) : Prop := k.offset ≤ b ∧ b < k.stop

/-- A token as many bytes further on. -/
def Token.moved (bytes : Nat) (k : Token) : Token := ⟨k.text, k.offset + bytes⟩

namespace Cursor

open Category

/-! ## Derivations -/

/-- The tokens of a text that begins at an offset. -/
inductive Scanned : Nat → Text → List Token → Prop
  /-- Nothing is left. -/
  | done (o : Nat) : Scanned o [] []
  /-- No category takes anything, and a character is passed over. -/
  | skip {o : Nat} {c : Char} {t : Text} {ts : List Token} (h : munchFirst? (c :: t) = none)
      (rest : Scanned (o + c.utf8Size) t ts) : Scanned o (c :: t) ts
  /-- A token is taken. -/
  | take {o : Nat} {u r : Text} {ts : List Token} (h : munchFirst? (u ++ r) = some (u, r))
      (rest : Scanned (o + u.byteLength) r ts) : Scanned o (u ++ r) (⟨u, o⟩ :: ts)

theorem tokens_skip {o : Nat} {c : Char} {t : Text} (h : munchFirst? (c :: t) = none) :
    tokens ⟨o, c :: t⟩ = tokens ⟨o + c.utf8Size, t⟩ := by
  rw [tokens_cons, h]

theorem tokens_take {o : Nat} {u r : Text} (h : munchFirst? (u ++ r) = some (u, r)) :
    tokens ⟨o, u ++ r⟩ = ⟨u, o⟩ :: tokens ⟨o + u.byteLength, r⟩ := by
  obtain ⟨c, v, rfl⟩ := List.exists_cons_of_ne_nil (munchFirst?_append_and_ne_nil h).2
  rw [List.cons_append] at h ⊢
  rw [tokens_cons, h]

theorem scanned_tokens (o : Nat) (t : Text) : Scanned o t (tokens ⟨o, t⟩) := by
  induction hn : t.length using Nat.strongRecOn generalizing o t with
  | ind n ih =>
    subst hn
    cases t with
    | nil =>
      rw [tokens_nil]
      exact .done o
    | cons c t =>
      cases h : munchFirst? (c :: t) with
      | none =>
        rw [tokens_skip h]
        exact .skip h (ih t.length (Nat.lt_succ_self _) _ t rfl)
      | some way =>
        obtain ⟨u, r⟩ := way
        have hlt := munchFirst?_length_lt h
        have happ := (munchFirst?_append_and_ne_nil h).1
        rw [← happ] at h ⊢
        rw [tokens_take h]
        exact .take h (ih r.length hlt _ r rfl)

/-- **The derivations are exactly the runs of the scanner.** -/
theorem scanned_iff {o : Nat} {t : Text} {ts : List Token} :
    Scanned o t ts ↔ ts = tokens ⟨o, t⟩ := by
  constructor
  · intro h
    induction h with
    | done o => exact (tokens_nil o).symm
    | skip h _ ih => rw [tokens_skip h, ih]
    | take h _ ih => rw [tokens_take h, ih]
  · rintro rfl
    exact scanned_tokens o t

theorem Scanned.moved {o : Nat} {t : Text} {ts : List Token} (h : Scanned o t ts) (bytes : Nat) :
    Scanned (o + bytes) t (ts.map (Token.moved bytes)) := by
  induction h with
  | done o => exact .done _
  | skip h _ ih =>
    rw [Nat.add_right_comm] at ih
    exact .skip h ih
  | take h _ ih =>
    rw [Nat.add_right_comm] at ih
    exact .take h ih

/-- The tokens of a text are the same wherever it begins, up to where they are. -/
theorem tokens_add (o bytes : Nat) (t : Text) :
    tokens ⟨o + bytes, t⟩ = (tokens ⟨o, t⟩).map (Token.moved bytes) :=
  (scanned_iff.1 ((scanned_tokens o t).moved bytes)).symm

/-! ## Tokens in their source -/

variable {o : Nat} {t : Text} {ts : List Token}

/-- Every token stands where its offset says, and was taken there. -/
theorem Scanned.taken (h : Scanned o t ts) {k : Token} (hk : k ∈ ts) :
    ∃ before after, t = before ++ (k.text ++ after) ∧ k.offset = o + before.byteLength ∧
      munchFirst? (k.text ++ after) = some (k.text, after) := by
  induction h with
  | done => exact absurd hk List.not_mem_nil
  | @skip o c t ts _ _ ih =>
    obtain ⟨before, after, rfl, hoffset, hmunch⟩ := ih hk
    refine ⟨c :: before, after, rfl, ?_, hmunch⟩
    rw [hoffset, Text.byteLength_cons, Nat.add_assoc]
  | @take o u r ts h _ ih =>
    rcases List.mem_cons.1 hk with rfl | hk
    · exact ⟨[], r, rfl, rfl, h⟩
    · obtain ⟨before, after, rfl, hoffset, hmunch⟩ := ih hk
      refine ⟨u ++ before, after, (List.append_assoc u before _).symm, ?_, hmunch⟩
      rw [hoffset, Text.byteLength_append, Nat.add_assoc]

theorem Scanned.offset_le (h : Scanned o t ts) {k : Token} (hk : k ∈ ts) : o ≤ k.offset := by
  obtain ⟨before, after, -, hoffset, -⟩ := h.taken hk
  omega

theorem Scanned.stop_le (h : Scanned o t ts) {k : Token} (hk : k ∈ ts) :
    k.stop ≤ o + t.byteLength := by
  obtain ⟨before, after, rfl, hoffset, -⟩ := h.taken hk
  simp only [Token.stop, Token.length, hoffset, Text.byteLength_append]
  omega

/-- Tokens follow one another and do not overlap. -/
theorem Scanned.pairwise (h : Scanned o t ts) : ts.Pairwise fun k l => k.stop ≤ l.offset := by
  induction h with
  | done => exact .nil
  | skip _ _ ih => exact ih
  | take _ hrest ih => exact .cons (fun l hl => hrest.offset_le hl) ih

/-- Every place is covered by a token, or no category takes anything there. -/
theorem Scanned.covered (h : Scanned o t ts) {before after : Text} (ht : t = before ++ after) :
    (∃ k ∈ ts, k.Covers (o + before.byteLength)) ∨ munchFirst? after = none := by
  induction h generalizing before after with
  | done o =>
    obtain ⟨-, rfl⟩ := List.append_eq_nil_iff.1 ht.symm
    exact Or.inr rfl
  | @skip o c t ts h _ ih =>
    cases before with
    | nil =>
      rw [List.nil_append] at ht
      exact Or.inr (ht ▸ h)
    | cons d before =>
      obtain ⟨rfl, rfl⟩ := List.cons.inj ht
      rw [Text.byteLength_cons, ← Nat.add_assoc]
      exact ih rfl
  | @take o u r ts h _ ih =>
    rcases List.append_eq_append_iff.1 ht with ⟨x, rfl, rfl⟩ | ⟨x, rfl, rfl⟩
    · rw [Text.byteLength_append, ← Nat.add_assoc]
      rcases ih rfl with ⟨k, hk, hcover⟩ | hnone
      · exact Or.inl ⟨k, List.mem_cons_of_mem _ hk, hcover⟩
      · exact Or.inr hnone
    · cases x with
      | nil =>
        rw [List.append_nil, ← Nat.add_zero (o + _)]
        have hr : r = [] ++ r := rfl
        rcases ih hr with ⟨k, hk, hcover⟩ | hnone
        · exact Or.inl ⟨k, List.mem_cons_of_mem _ hk, by simpa using hcover⟩
        · exact Or.inr hnone
      | cons c x =>
        refine Or.inl ⟨_, List.mem_cons_self, Nat.le_add_right _ _, ?_⟩
        have := c.utf8Size_pos
        simp only [Token.stop, Token.length, Text.byteLength_append, Text.byteLength_cons]
        omega

theorem Scanned.text_ne_nil (h : Scanned o t ts) {k : Token} (hk : k ∈ ts) : k.text ≠ [] := by
  obtain ⟨_, _, _, _, hmunch⟩ := h.taken hk
  exact (munchFirst?_append_and_ne_nil hmunch).2

/-- Tokens are all different, since each begins after the ones before it. -/
theorem Scanned.nodup (h : Scanned o t ts) : ts.Nodup := by
  refine h.pairwise.imp_of_mem fun {k l} hk _ hle heq => ?_
  have hpos := Text.byteLength_pos (h.text_ne_nil hk)
  rw [← heq, Token.stop, Token.length] at hle
  omega

/-! ## Newlines -/

/-- A newline is in no token but the newline token. -/
theorem Scanned.newline_mem_iff (h : Scanned o t ts) {k : Token} (hk : k ∈ ts) :
    '\n' ∈ k.text ↔ k.is .newline = true := by
  rw [Token.is, accepts_iff]
  constructor
  · intro hmem
    obtain ⟨_, _, _, _, hmunch⟩ := h.taken hk
    obtain ⟨c, hacc⟩ := accepts_of_munchFirst? hmunch
    rw [eq_newline_of_mem hacc hmem]
    exact Pattern.Accepts.char _
  · intro hacc
    rw [Pattern.accepts_char.1 hacc]
    exact List.mem_cons_self

/-- A text without newlines has no newline tokens. -/
theorem newline_eq_false_of_mem_tokens (ht : '\n' ∉ t) {k : Token} (hk : k ∈ tokens ⟨o, t⟩) :
    k.is .newline = false := by
  have h := scanned_tokens o t
  rw [Bool.eq_false_iff]
  intro hnewline
  have hmem := (h.newline_mem_iff hk).2 hnewline
  obtain ⟨before, after, rfl, -⟩ := h.taken hk
  exact ht (List.mem_append_right _ (List.mem_append_left _ hmem))

/-- Every newline is a token. -/
theorem Scanned.newline_mem (h : Scanned o t ts) {before after : Text}
    (ht : t = before ++ '\n' :: after) : ⟨['\n'], o + before.byteLength⟩ ∈ ts := by
  induction h generalizing before with
  | done => exact absurd ht.symm (by simp)
  | @skip o c t ts h _ ih =>
    cases before with
    | nil =>
      rw [ht, List.nil_append, munchFirst?_newline] at h
      cases h
    | cons d before =>
      obtain ⟨rfl, rfl⟩ := List.cons.inj ht
      rw [Text.byteLength_cons, ← Nat.add_assoc]
      exact ih rfl
  | @take o u r ts h _ ih =>
    have hlater : ∀ {x}, r = x ++ '\n' :: after →
        (⟨['\n'], o + (u ++ x).byteLength⟩ : Token) ∈ (⟨u, o⟩ : Token) :: ts := fun hr => by
      rw [Text.byteLength_append, ← Nat.add_assoc]
      exact List.mem_cons_of_mem _ (ih hr)
    rcases List.append_eq_append_iff.1 ht with ⟨x, rfl, hr⟩ | ⟨x, rfl, hx⟩
    · exact hlater hr
    · cases x with
      | nil => simpa using hlater (x := []) hx.symm
      | cons d x =>
        -- the newline lies in the token, which is then the newline alone
        obtain ⟨rfl, rfl⟩ := List.cons.inj hx
        obtain ⟨c, hacc⟩ := accepts_of_munchFirst? h
        have hu := eq_newline_of_mem hacc (List.mem_append_right before List.mem_cons_self)
        cases before with
        | nil =>
          rw [hu]
          exact List.mem_cons_self
        | cons e before =>
          have hlen := congrArg List.length hu
          simp at hlen

/-- Scanning a text with a newline in it: the tokens before the newline, the newline, and the tokens
of what follows. -/
theorem Scanned.append_newline (h : Scanned o t ts) {b : Text} {us : List Token}
    (hb : Scanned (o + t.byteLength + 1) b us) :
    Scanned o (t ++ '\n' :: b) (ts ++ ⟨['\n'], o + t.byteLength⟩ :: us) := by
  induction h with
  | done o => exact .take (u := ['\n']) (munchFirst?_newline b) hb
  | @skip o c t ts h _ ih =>
    refine .skip ?_ ?_
    · have := munchFirst?_append_newline (List.cons_ne_nil c t) b
      rwa [h] at this
    · rw [Text.byteLength_cons, ← Nat.add_assoc] at hb ⊢
      exact ih hb
  | @take o u r ts h _ ih =>
    have hne : u ++ r ≠ [] := fun hnil =>
      (munchFirst?_append_and_ne_nil h).2 (List.append_eq_nil_iff.1 hnil).1
    have hmunch := munchFirst?_append_newline hne b
    rw [h, List.append_assoc] at hmunch
    rw [Text.byteLength_append, ← Nat.add_assoc] at hb ⊢
    rw [List.append_assoc]
    exact .take hmunch (ih hb)

/-- **Scanning starts afresh after each newline.** -/
theorem tokens_append_newline (o : Nat) (a b : Text) :
    tokens ⟨o, a ++ '\n' :: b⟩ =
      tokens ⟨o, a⟩ ++ ⟨['\n'], o + a.byteLength⟩ :: tokens ⟨o + a.byteLength + 1, b⟩ :=
  (scanned_iff.1 ((scanned_tokens o a).append_newline (scanned_tokens _ b))).symm

end Cursor

/-! ## Maximal munch -/

/-- **What it is to cut a source into tokens by maximal munch.** -/
structure MaximalMunch (source : Text) (tokens : List Token) : Prop where
  /-- No token is empty. -/
  nonempty : ∀ k ∈ tokens, k.text ≠ []
  /-- A token is the text at its offset, which is the boundary of a character. What a matcher takes
  there that tries the categories in scanning order is the token; it belongs to a category, and no
  longer first part of what follows belongs to any. -/
  longest : ∀ k ∈ tokens, ∃ before after : Text,
    source = before ++ (k.text ++ after) ∧ before.byteLength = k.offset ∧
      Category.scanPattern.first? (k.text ++ after) = some (k.text, after) ∧
      (∃ c : Category, c.pattern.Accepts k.text) ∧
      ∀ (c : Category) (w : Text), w <+: k.text ++ after → c.pattern.Accepts w →
        w.length ≤ k.text.length
  /-- No token begins before the end of one before it. -/
  ordered : tokens.Pairwise fun k l => k.stop ≤ l.offset
  /-- No token reaches past the end of the source. -/
  within : ∀ k ∈ tokens, k.stop ≤ source.byteLength
  /-- At a place in no token, no first part of what follows belongs to a category. -/
  skipped : ∀ before after : Text, source = before ++ after →
    (∀ k ∈ tokens, ¬ k.Covers before.byteLength) →
      ∀ (c : Category) (w : Text), w <+: after → ¬ c.pattern.Accepts w
  /-- Every newline is a token, and only once. -/
  newline_once : ∀ before after : Text, source = before ++ '\n' :: after →
    tokens.count ⟨['\n'], before.byteLength⟩ = 1
  /-- The tokens with a newline in them are the newline tokens. -/
  newline_mem_iff : ∀ k ∈ tokens, '\n' ∈ k.text ↔ k.is .newline = true
  /-- No newline is passed over. -/
  newline_not_skipped : ∀ (before : Text) (c : Char) (after : Text), source = before ++ c :: after →
    (∀ k ∈ tokens, ¬ k.Covers before.byteLength) → c ≠ '\n'

/-- **The scanner cuts every source by maximal munch.** -/
theorem scan_maximalMunch (source : Text) : MaximalMunch source (Token.scan source) := by
  have h := Cursor.scanned_tokens 0 source
  have hskipped : ∀ before after : Text, source = before ++ after →
      (∀ k ∈ Token.scan source, ¬ k.Covers before.byteLength) →
        Category.munchFirst? after = none := fun before after ht hnot => by
    rcases h.covered ht with ⟨k, hk, hcover⟩ | hnone
    · rw [Nat.zero_add] at hcover
      exact absurd hcover (hnot k hk)
    · exact hnone
  constructor
  · exact fun k hk => h.text_ne_nil hk
  · intro k hk
    obtain ⟨before, after, ht, hoffset, hmunch⟩ := h.taken hk
    refine ⟨before, after, ht, by omega, ?_, Category.accepts_of_munchFirst? hmunch,
      fun c w hw hacc => Category.length_le_of_munchFirst? hmunch hw hacc⟩
    rw [← Category.munchFirst?_eq_first?, hmunch]
  · exact h.pairwise
  · intro k hk
    obtain ⟨before, after, ht, hoffset, -⟩ := h.taken hk
    simp only [ht, Token.stop, Token.length, hoffset, Text.byteLength_append]
    omega
  · intro before after ht hnot c w hw
    exact Category.munchFirst?_eq_none_iff.1 (hskipped before after ht hnot) c w hw
  · intro before after ht
    have hmem := h.newline_mem ht
    rw [Nat.zero_add] at hmem
    exact List.count_eq_one_of_mem h.nodup hmem
  · exact fun k hk => h.newline_mem_iff hk
  · rintro before c after ht hnot rfl
    have hnone := hskipped before _ ht hnot
    rw [Category.munchFirst?_newline] at hnone
    cases hnone

end LineLang
