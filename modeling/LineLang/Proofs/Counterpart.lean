import LineLang.Proofs.Program

/-!
# Sources with the same lines

Parsing decides by the texts of the lines alone; where a line stands is only reported. So two
sources whose lines correspond, one for one and with the same texts, are parsed to one table, or are
refused for one fault in lines that correspond.

About `Parser.parse`.

* `Line.Counterparts`: rows of lines that correspond.

Results:
* `parse_of_counterparts`: parsing two sources whose lines correspond.
-/

namespace LineLang

/-- Lines correspond one for one: they have the same texts, and are related in some other way. -/
def Line.Counterparts (R : Line → Line → Prop) : List Line → List Line → Prop :=
  List.Forall₂ fun l l' => l'.texts = l.texts ∧ R l l'

namespace Line

variable {R : Line → Line → Prop} {ls ls' : List Line}

theorem Counterparts.map_texts (h : Counterparts R ls ls') : ls'.map texts = ls.map texts := by
  induction h with
  | nil => rfl
  | cons hl _ ih => rw [List.map_cons, List.map_cons, hl.1, ih]

/-- The counterpart of a line is at the same place in its row. -/
theorem Counterparts.of_append_cons {before after : List Line} {l : Line}
    (h : Counterparts R (before ++ l :: after) ls') :
    ∃ before' l' after', ls' = before' ++ l' :: after' ∧ Counterparts R before before' ∧
      l'.texts = l.texts ∧ R l l' := by
  induction before generalizing ls' with
  | nil =>
    obtain ⟨l', after', ⟨htexts, hR⟩, -, rfl⟩ := List.forall₂_cons_left_iff.1 h
    exact ⟨[], l', after', rfl, .nil, htexts, hR⟩
  | cons k before ih =>
    obtain ⟨k', rest, hk, hrest, rfl⟩ := List.forall₂_cons_left_iff.1 h
    obtain ⟨before', l', after', rfl, hbefore, hl⟩ := ih hrest
    exact ⟨k' :: before', l', after', rfl, .cons hk hbefore, hl⟩

end Line

namespace Program

variable {a b : Text} {R : Line → Line → Prop}

/-- **Parsing two sources whose lines correspond** gives one table, or one fault in two lines that
correspond. -/
theorem parse_of_counterparts (settings : Settings)
    (h : Line.Counterparts R (Line.ofTokens (Token.scan a)) (Line.ofTokens (Token.scan b))) :
    (∃ t, parse settings a = .ok t ∧ parse settings b = .ok t) ∨
      ∃ f l l', R l l' ∧ parse settings a = .error ⟨f, l.start, l.keyword.offset⟩ ∧
        parse settings b = .error ⟨f, l'.start, l'.keyword.offset⟩ := by
  rcases source_acceptable_or_faulty settings a with
    hacceptable | ⟨before, l, after, f, ha, hbefore, hf⟩
  · have hlines : linesOf b = linesOf a := by
      rw [← map_texts_lines, ← map_texts_lines, h.map_texts]
    have hacceptable' : Acceptable settings (linesOf b) := hlines ▸ hacceptable
    refine Or.inl ⟨_, parse_of_acceptable hacceptable, ?_⟩
    rw [parse_of_acceptable hacceptable', hlines]
  · rw [ha] at h
    obtain ⟨before', l', after', hb, hcounterparts, htexts, hR⟩ := h.of_append_cons
    have herror := parse_of_faulty ha hbefore hf
    rw [← hcounterparts.map_texts, ← htexts] at hf
    rw [← hcounterparts.map_texts] at hbefore
    exact Or.inr ⟨f, l, l', hR, herror, parse_of_faulty hb hbefore hf⟩

end Program

end LineLang
