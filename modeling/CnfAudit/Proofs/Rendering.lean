import CnfAudit.Proofs.FormulaText

/-!
# Writing formulas

Reading the lines of a formula gives the formula back.
-/

namespace CnfAudit

open Text

theorem Literal.spells_render (l : Literal) : Spells l.render l.toInt := by
  apply spells_toString
  rw [Literal.natAbs_toInt]
  exact Nat.lt_of_le_of_lt l.var_le maxVariable_lt

theorem spells_zero : Spells "0" 0 := by
  have hspells : Spells (toString (0 : Int)) 0 := spells_toString (Nat.pow_pos (by decide))
  exact hspells

theorem spells_renderAll (ls : List Literal) :
    List.Forall₂ Spells (ls.map Literal.render) (ls.map Literal.toInt) := by
  rw [List.forall₂_map_left_iff, List.forall₂_map_right_iff]
  exact List.forall₂_same.2 fun l _ => l.spells_render

theorem flatMap_fields_of_spells {tokens : List String} {values : List Int}
    (h : List.Forall₂ Spells tokens values) : tokens.flatMap fields = tokens := by
  induction h with
  | nil => rfl
  | cons hv _ ih => rw [List.flatMap_cons, hv.fields_eq, ih, List.singleton_append]

theorem Clause.spells_render (c : Clause) :
    List.Forall₂ Spells (fields (Clause.render c)) (c.map Literal.toInt ++ [0]) := by
  have hspells : List.Forall₂ Spells (c.map Literal.render ++ ["0"])
      (c.map Literal.toInt ++ [0]) :=
    List.rel_append (spells_renderAll c) (.cons spells_zero .nil)
  rw [Clause.render, fields_intercalate, flatMap_fields_of_spells hspells]
  exact hspells

theorem not_isSkipped_of_spells {line : String} {values : List Int}
    (h : List.Forall₂ Spells (fields line) values) (hne : values ≠ []) : ¬IsSkipped line := by
  cases hfields : fields line with
  | nil =>
      rw [hfields, List.forall₂_nil_left_iff] at h
      exact absurd h hne
  | cons token tokens =>
      rw [hfields] at h
      cases h with
      | cons hv _ =>
          obtain ⟨c, hc, hkind⟩ := hv.tag
          have htag : tag? (strip line) = some c := by
            rw [tag?_strip, hfields]
            exact hc
          intro hskip
          rw [IsSkipped, htag] at hskip
          obtain rfl : c = 'c' := by simpa using hskip
          revert hkind
          decide

private theorem fields_toString (n : Nat) (h : n < 10 ^ maxDigits) :
    fields (toString n) = [toString n] := by
  have hspells : Spells (toString (n : Int)) n := spells_toString h
  exact hspells.fields_eq

theorem Header.headerLine_render (header : Header) (h : header.numClauses < 10 ^ maxDigits) :
    HeaderLine header.render header.numVars header.numClauses := by
  have hvars : header.numVars < 10 ^ maxDigits :=
    Nat.lt_of_le_of_lt header.numVars_le maxVariable_lt
  have hrender : header.render =
      "p cnf" ++ " " ++ toString header.numVars ++ " " ++ toString header.numClauses := rfl
  have hword : fields "p cnf" = ["p", "cnf"] := by decide +kernel
  refine ⟨toString header.numVars, toString header.numClauses, ?_, ?_, ?_, ?_, ?_⟩
  · rw [hrender, fields_append_space, fields_append_space, hword, fields_toString _ hvars,
      fields_toString _ h]
    rfl
  all_goals rw [Nat.toString_eq_ofList_toDigits, String.toList_ofList]
  · exact isCount_toDigits hvars
  · exact isCount_toDigits h
  · exact numeralValue_toDigits _
  · exact numeralValue_toDigits _

/-- The formula can be the meaning of a text: it has as many clauses as its header declares, that
number can be written, and its literals are in range. -/
structure Formula.Denotable (f : Formula) : Prop where
  counted : f.clauses.length = f.header.numClauses
  numClauses_lt : f.header.numClauses < 10 ^ maxDigits
  inRange : ∀ c ∈ f.clauses, ∀ l ∈ c, l.var ≤ f.header.numVars

section Written

variable {n : Nat} {cs : List Clause}

theorem natAbs_le_of_mem_written (h : ∀ c ∈ cs, ∀ l ∈ c, l.var ≤ n) :
    ∀ v ∈ written cs, v.natAbs ≤ n := by
  intro v hv
  obtain ⟨c, hc, hmem⟩ := List.mem_flatMap.1 hv
  rcases List.mem_append.1 hmem with hliteral | hzero
  · obtain ⟨l, hl, rfl⟩ := List.mem_map.1 hliteral
    rw [Literal.natAbs_toInt]
    exact h c hc l hl
  · rw [List.mem_singleton.1 hzero]
    exact Nat.zero_le n

theorem var_le_of_written (h : ∀ v ∈ written cs, v.natAbs ≤ n) :
    ∀ c ∈ cs, ∀ l ∈ c, l.var ≤ n := by
  intro c hc l hl
  have hmem : l.toInt ∈ written cs := List.mem_flatMap.2 ⟨c, hc, by simp [hl]⟩
  have hle := h _ hmem
  rwa [Literal.natAbs_toInt] at hle

theorem spells_clauseLines (cs : List Clause) :
    List.Forall₂ Spells ((cs.map fun c => strip (Clause.render c)).flatMap fields)
      (written cs) := by
  induction cs with
  | nil => exact .nil
  | cons c cs ih =>
      rw [written_cons, List.append_cons, List.map_cons, List.flatMap_cons, fields_strip]
      exact List.rel_append (Clause.spells_render c) ih

end Written

namespace Formula

/-- The lines of a formula that can be denoted are a text of it. -/
theorem Denotable.formulaText {f : Formula} (h : f.Denotable) :
    FormulaText f.render f.header.numVars f.header.numClauses (written f.clauses) := by
  have hheader := f.header.headerLine_render h.numClauses_lt
  have hcontent : contentLines f.render =
      strip f.header.render :: f.clauses.map fun c => strip (Clause.render c) := by
    rw [contentLines_eq_map, Formula.render, List.map_cons, List.map_map]
    · rfl
    · intro line hline
      rcases List.mem_cons.1 hline with rfl | hclause
      · obtain ⟨vars, clauses, hfields, -⟩ := hheader
        rw [IsSkipped, tag?_strip, hfields]
        simp [tag?]
      · obtain ⟨c, -, rfl⟩ := List.mem_map.1 hclause
        exact not_isSkipped_of_spells (Clause.spells_render c) (by simp)
  have htags : ∀ text ∈ f.clauses.map fun c => strip (Clause.render c),
      tag? text ≠ some 'p' := by
    intro text htext
    obtain ⟨c, -, rfl⟩ := List.mem_map.1 htext
    apply tag?_strip_ne_of_spells
    intro token htoken
    obtain ⟨v, -, hv⟩ := exists_spells_of_mem (Clause.spells_render c) htoken
    exact ⟨v, hv⟩
  exact {
    layout := ⟨_, _, hcontent, hheader.congr (fields_strip _).symm, htags,
      spells_clauseLines f.clauses⟩
    numVars_le := f.header.numVars_le
    inRange := natAbs_le_of_mem_written h.inRange
    terminated := written_terminated f.clauses
    counted := (count_written f.clauses).trans h.counted }

theorem Denotable.read {f : Formula} (h : f.Denotable) (source : Option String) :
    Formula.read source ⟨f.render, .complete⟩ = .ok f :=
  read_eq_ok_iff.2 ⟨written f.clauses, h.formulaText, runs_written f.clauses⟩

/-- Whatever is read can be denoted. -/
theorem denotable_of_read {source : Option String} {lines : List String} {f : Formula}
    (h : Formula.read source ⟨lines, .complete⟩ = .ok f) : f.Denotable := by
  obtain ⟨values, htext, hruns⟩ := read_eq_ok_iff.1 h
  have hwritten : values = written f.clauses := by
    apply eq_written_of_runs _ htext.terminated hruns
    intro v hv
    exact Nat.le_trans (htext.inRange v hv) htext.numVars_le
  subst hwritten
  obtain ⟨first, body, -, hheader, -, -⟩ := htext.layout
  obtain ⟨vars, clauses, -, -, hcount, -, hclauses⟩ := hheader
  exact {
    counted := (count_written f.clauses).symm.trans htext.counted
    numClauses_lt := hclauses ▸ hcount.numeralValue_lt
    inRange := var_le_of_written htext.inRange }

/-- Writing a formula and reading the lines gives the formula back: the counts of the header and the
clauses in their order, with empty clauses and repeated literals. What has been read from any text
can be written and is read again as it is. -/
theorem read_render (source : Option String) :
    (∀ (numVars : Nat) (hle : numVars ≤ maxVariable) (clauses : List Clause),
      clauses.length < 10 ^ maxDigits → (∀ c ∈ clauses, ∀ l ∈ c, l.var ≤ numVars) →
        let f : Formula := ⟨⟨numVars, clauses.length, hle⟩, clauses⟩
        Formula.read source ⟨f.render, .complete⟩ = .ok f) ∧
    ∀ source' lines f, Formula.read source' ⟨lines, .complete⟩ = .ok f →
      Formula.read source ⟨f.render, .complete⟩ = .ok f := by
  refine ⟨?_, ?_⟩
  · intro numVars hle clauses hcount hrange f
    have hdenotable : f.Denotable := ⟨rfl, hcount, hrange⟩
    exact hdenotable.read source
  · intro source' lines f h
    exact (denotable_of_read h).read source

/-- An empty clause, and one that repeats the last variable that there can be. -/
theorem read_render_last_variable :
    let last : Literal := .ofVar 2147483647 false (by decide)
    let f : Formula := ⟨⟨2147483647, 2, by decide⟩, [[], [last, last]]⟩
    f.render = ["p cnf 2147483647 2", "0", "-2147483647 -2147483647 0"] ∧
      Formula.read none ⟨f.render, .complete⟩ = .ok f := by
  intro last f
  refine ⟨by decide +kernel, ?_⟩
  apply (read_render none).1 2147483647 (by decide) [[], [last, last]]
  · exact Nat.lt_of_lt_of_le (by decide : 2 < 10) (Nat.le_self_pow (by decide) 10)
  · intro c _ l _
    exact l.var_le

end Formula

end CnfAudit
