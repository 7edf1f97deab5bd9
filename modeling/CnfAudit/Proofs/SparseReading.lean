import CnfAudit.Proofs.FaultOrigins
import CnfAudit.Proofs.ReaderSteps
import CnfAudit.Proofs.SparseForm
import Mathlib.Order.Bounds.Basic

/-!
# Two ways to read a certificate

Only recording stops at a contradiction, so that which fault is found first is a matter of place.
-/

namespace CnfAudit

open Text

/-- The literal at this place has the opposite polarity of one before it. -/
def ContradictsAt (ls : List Literal) (i : Nat) : Prop :=
  ∃ l ∈ ls[i]?, ∃ k ∈ ls.take i, k.toInt = -l.toInt

instance (ls : List Literal) (i : Nat) : Decidable (ContradictsAt ls i) :=
  inferInstanceAs (Decidable (∃ l ∈ ls[i]?, _))

section Contradictions

variable {ls : List Literal}

theorem ContradictsAt.lt_length {i : Nat} (h : ContradictsAt ls i) : i < ls.length := by
  obtain ⟨l, hl, -⟩ := h
  exact (List.getElem?_eq_some_iff.1 hl).1

theorem ContradictsAt.of_take {n i : Nat} (h : ContradictsAt (ls.take n) i) :
    i < n ∧ ContradictsAt ls i := by
  have hlt : i < n := Nat.lt_of_lt_of_le h.lt_length (List.length_take_le n ls)
  obtain ⟨l, hl, k, hk, hopposite⟩ := h
  rw [List.getElem?_take_of_lt hlt] at hl
  rw [List.take_take, Nat.min_eq_left (Nat.le_of_lt hlt)] at hk
  exact ⟨hlt, l, hl, k, hk, hopposite⟩

theorem pairwise_iff_not_contradictsAt :
    (ls.Pairwise fun k l => k.toInt ≠ -l.toInt) ↔ ∀ i, ¬ContradictsAt ls i := by
  rw [List.pairwise_iff_getElem]
  constructor
  · intro hpairwise j h
    obtain ⟨l, hl, k, hk, hopposite⟩ := h
    obtain ⟨hj, rfl⟩ := List.getElem?_eq_some_iff.1 hl
    obtain ⟨i, hi, rfl⟩ := List.mem_take_iff_getElem.1 hk
    exact hpairwise i j _ hj (by omega) hopposite
  · intro h i j hi hj hlt hopposite
    refine h j ⟨ls[j], List.getElem?_eq_getElem hj, ls[i], ?_, hopposite⟩
    exact List.mem_take_iff_getElem.2 ⟨i, by omega, rfl⟩

/-- Literals can be recorded if none contradicts one before it. -/
theorem exists_assignAll_of_not_contradictsAt (h : ∀ i, ¬ContradictsAt ls i) :
    ∃ a, Assignment.assignAll none .empty ls = .ok a := by
  apply Assignment.assignAll_ok_iff_pairwise.2
  exact ⟨by simp, pairwise_iff_not_contradictsAt.2 h⟩

end Contradictions

/-- Literals that can be recorded are also recorded on a table for a number of variables that none
of them exceeds, as long as there is such a table, and what they lead to answers alike. -/
theorem Assignment.ofLiterals_agrees {a : Assignment} {ls : List Literal} {numVars : Option Int}
    (h : assignAll none empty ls = .ok a)
    (hbound : ∀ n ∈ numVars, (a.maxVar : Int) ≤ n ∧ n + 1 < tableLengths) :
    ∃ b, ofLiterals ls numVars = .ok b ∧ a.Agrees b := by
  have hnonneg : 0 ≤ numVars.getD 0 := by
    cases numVars with
    | none => exact Int.le_refl 0
    | some n => exact Int.le_trans (Int.natCast_nonneg _) (hbound n rfl).1
  have hlt : numVars.getD 0 + 1 < tableLengths := by
    cases numVars with
    | none => decide
    | some n => exact (hbound n rfl).2
  have hexceeded : ∀ l ∈ ls, exceeded numVars l.var = none := by
    intro l hl
    have hvalue := (get_recorded h l.var l.isPositive).2 ⟨l, hl, rfl, rfl⟩
    have hle : l.var ≤ a.maxVar := ((Reachable.blank 1).assignAll h).le_maxVar (by simp [hvalue])
    apply Option.filter_eq_none_iff.2
    intro n hn
    have hmax := (hbound n hn).1
    simp only [decide_eq_true_eq]
    omega
  have hslots : 0 < (numVars.getD 0 + 1).toNat := by omega
  obtain ⟨b, hb, hagrees⟩ := assignAll_perm_agrees Nat.one_pos hslots (.refl ls) h
  exact ⟨b, ofLiterals_eq_ok_iff.2 ⟨_, sized_eq_ok hnonneg hlt, hexceeded, hb⟩, hagrees⟩

namespace Certificate

section Recording

variable {source : Option String} {fault : Option Fault}

theorem feed_record_append {first rest : List (Nat × Literal)} {a b : Assignment}
    (h : Assignment.assignAll none a (first.map Prod.snd) = .ok b) :
    feed (record source) fault (first ++ rest) a = feed (record source) fault rest b := by
  rw [feed_append, feed_record_eq_none_iff.2 ⟨rfl, h⟩]

theorem feed_record_contradiction {a : Assignment} {l : Literal}
    (h : a.get l.var = some !l.isPositive) (line : Nat) (rest : List (Nat × Literal)) :
    (feed (record source) fault ((line, l) :: rest) a).2 =
      some (.rejected ⟨.contradiction l.toInt, ⟨source, some (line : Int)⟩⟩) := by
  have hrefused : (a.assign l).1 = .error (.contradiction l.toInt) :=
    Assignment.assign_eq_error_iff.2 ⟨rfl, h⟩
  rw [feed, record]
  rcases hassign : a.assign l with ⟨result, b⟩
  obtain rfl : result = .error (.contradiction l.toInt) := by rw [← hrefused, hassign]
  rfl

variable {values : List (Nat × Literal)}

/-- Recording stops at the first value that contradicts one before it, and blames its line. -/
theorem feed_first_contradiction {i : Nat}
    (h : IsLeast {i | ContradictsAt (values.map Prod.snd) i} i) :
    ∃ line l, values[i]? = some (line, l) ∧
      (feed (record source) fault values .empty).2 =
        some (.rejected ⟨.contradiction l.toInt, ⟨source, some (line : Int)⟩⟩) := by
  obtain ⟨l, hl, k, hk, hopposite⟩ := h.1
  rw [Option.mem_def, List.getElem?_map, Option.map_eq_some_iff] at hl
  obtain ⟨⟨line, l⟩, hvalue, rfl⟩ := hl
  refine ⟨line, l, hvalue, ?_⟩
  -- the values before can be recorded, since a contradiction among them would come first
  have hbefore : ∀ j, ¬ContradictsAt ((values.take i).map Prod.snd) j := by
    intro j hj
    rw [List.map_take] at hj
    exact absurd hj.of_take.1 (Nat.not_lt.2 (h.2 hj.of_take.2))
  obtain ⟨b, hb⟩ := exists_assignAll_of_not_contradictsAt hbefore
  rw [← List.map_take] at hk
  have hother : b.get l.var = some !l.isPositive :=
    (Assignment.get_recorded hb l.var _).2 ⟨k, hk, Literal.toInt_eq_neg_toInt.1 hopposite⟩
  obtain ⟨hi, hget⟩ := List.getElem?_eq_some_iff.1 hvalue
  have hsplit : values = values.take i ++ (line, l) :: values.drop (i + 1) := by
    rw [← hget, List.getElem_cons_drop, List.take_append_drop]
  rw [hsplit, feed_record_append hb]
  exact feed_record_contradiction hother line _

theorem feed_of_not_contradictsAt (h : ∀ i, ¬ContradictsAt (values.map Prod.snd) i) :
    (feed (record source) fault values .empty).2 = fault := by
  obtain ⟨b, hb⟩ := exists_assignAll_of_not_contradictsAt h
  rw [← List.append_nil values, feed_record_append hb, feed]

end Recording

/-- The tokens on the value lines apart from the zeros, with the numbers of their lines. -/
def valueTokensOf (content : List (String × Nat)) : List (Nat × String) :=
  content.flatMap fun line =>
    ((valueTokens line.1).filter fun token => !isZero token).map (line.2, ·)

/-- The token is on the line of the value and spells it. -/
structure SpelledAt (token : Nat × String) (value : Nat × Literal) : Prop where
  line : token.1 = value.1
  spells : Spells token.2 value.2.toInt

/-- The first of the tokens spell the values, and these are all tokens unless there is a fault. -/
def SpelledBy (tokens : List (Nat × String)) (outcome : List (Nat × Literal) × Option Fault) :
    Prop :=
  ∃ front rest, tokens = front ++ rest ∧ List.Forall₂ SpelledAt front outcome.1 ∧
    (outcome.2 = none → rest = [])

namespace SpelledBy

theorem nil (fault : Option Fault) : SpelledBy [] ([], fault) := ⟨[], [], rfl, .nil, fun _ => rfl⟩

theorem of_fault (tokens : List (Nat × String)) (fault : Fault) :
    SpelledBy tokens ([], some fault) :=
  ⟨[], tokens, rfl, .nil, by simp⟩

theorem cons {token : Nat × String} {value : Nat × Literal} {tokens : List (Nat × String)}
    {outcome : List (Nat × Literal) × Option Fault} (hvalue : SpelledAt token value)
    (h : SpelledBy tokens outcome) :
    SpelledBy (token :: tokens) (value :: outcome.1, outcome.2) := by
  obtain ⟨front, rest, rfl, hfront, hrest⟩ := h
  exact ⟨token :: front, rest, rfl, .cons hvalue hfront, hrest⟩

theorem continued {tokens more : List (Nat × String)}
    {outcome rest : List (Nat × Literal) × Option Fault} (h : SpelledBy tokens outcome)
    (hmore : SpelledBy more rest) : SpelledBy (tokens ++ more) (continued outcome rest) := by
  obtain ⟨front, behind, rfl, hfront, hbehind⟩ := h
  rcases outcome with ⟨values, _ | fault⟩
  · obtain ⟨front', behind', rfl, hfront', hbehind'⟩ := hmore
    rw [hbehind rfl, List.append_nil, ← List.append_assoc]
    exact ⟨front ++ front', behind', rfl, List.rel_append hfront hfront', hbehind'⟩
  · exact ⟨front, behind ++ more, List.append_assoc .., hfront, by simp [Certificate.continued]⟩

variable (source : Option String) (numVars : Option Int)

theorem numberedValues (line : Nat) (tokens : List String) :
    SpelledBy ((tokens.filter fun token => !isZero token).map (line, ·))
      (numberedValues source numVars line tokens) := by
  induction tokens with
  | nil => exact .nil none
  | cons token tokens ih =>
      rw [Certificate.numberedValues, lineValues]
      rcases scanValue_cases numVars ⟨source, some line⟩ token tokens with
        ⟨l, hscan, hl, -⟩ | ⟨hscan, hzero, rfl⟩ | ⟨fault, hscan, -⟩
      · -- no token of a value is a zero, so that the filter keeps this one
        have hnonzero : isZero token = false := by
          apply Bool.eq_false_iff.2
          intro hzero
          exact l.toInt_ne_zero (hl.unique (isZero_iff.1 hzero))
        simp only [hscan, hnonzero, List.filter_cons, Bool.not_false, if_true, List.map_cons]
        exact .cons ⟨rfl, hl⟩ ih
      · simp only [hscan, isZero_iff.2 hzero, List.filter_cons]
        exact .nil none
      · simp only [hscan]
        exact .of_fault _ fault

theorem readLines (ending : Ending) (status : Option Nat) (taken : Nat) (lines : List String) :
    SpelledBy (valueTokensOf (numberedContent taken lines))
      (readLines source numVars ending status taken lines) := by
  induction lines generalizing status taken with
  | nil => exact .nil _
  | cons raw lines ih =>
      have hnot {c : Char} (htag : tag? (strip raw) = some c) (hc : c ≠ 'c') :
          valueTokensOf (numberedContent taken (raw :: lines)) =
            ((valueTokens raw).filter fun token => !isZero token).map (taken + 1, ·) ++
              valueTokensOf (numberedContent (taken + 1) lines) := by
        rw [numberedContent_cons_of_not _ _ (not_isSkipped_of_tag htag hc), valueTokensOf,
          List.flatMap_cons, valueTokensOf]
      rcases line_cases raw with hskip | htag | htag | ⟨c, htag, hc, hs, hv⟩
      · rw [readLines_skipped _ _ _ hskip, numberedContent_cons_skipped _ _ hskip]
        exact ih status (taken + 1)
      · have hnone : valueTokens raw = [] := by
          rw [valueTokens, if_neg (by simp [htag])]
        cases status with
        | some first =>
            rw [readLines_second_status _ _ _ htag]
            exact .of_fault _ _
        | none =>
            rw [readLines_first_status _ _ _ htag]
            split
            · rw [hnot htag (by decide), hnone]
              exact ih _ (taken + 1)
            · exact .of_fault _ _
      · rw [hnot htag (by decide), readLines_values _ _ _ htag, valueTokens, if_pos htag]
        exact .continued (numberedValues source numVars _ _) (ih status (taken + 1))
      · rw [readLines_other _ _ _ htag hc hs hv]
        exact .of_fault _ _

end SpelledBy

section Reading

variable {source : Option String} {numVars : Option Int} {input : LineSource}
  {values : List (Nat × Literal)}

theorem read_of_contradictsAt {fault : Option Fault}
    (hlines : readLines source numVars input.ending none 0 input.lines = (values, fault))
    (h : ∃ i, ContradictsAt (values.map Prod.snd) i) :
    ∃ i line l, IsLeast {j | ContradictsAt (values.map Prod.snd) j} i ∧
      values[i]? = some (line, l) ∧
      read source numVars input =
        .error (.rejected ⟨.contradiction l.toInt, ⟨source, some (line : Int)⟩⟩) := by
  have hleast : IsLeast {j | ContradictsAt (values.map Prod.snd) j} (Nat.find h) :=
    ⟨Nat.find_spec h, fun j hj => Nat.find_min' h hj⟩
  obtain ⟨line, l, hvalue, hfeed⟩ := feed_first_contradiction hleast
  refine ⟨_, line, l, hleast, hvalue, ?_⟩
  rw [read_eq_error_iff, hlines]
  exact hfeed

theorem read_of_fault {fault : Fault}
    (hlines : readLines source numVars input.ending none 0 input.lines = (values, some fault))
    (h : ∀ i, ¬ContradictsAt (values.map Prod.snd) i) :
    read source numVars input = .error fault := by
  rw [read_eq_error_iff, hlines]
  exact feed_of_not_contradictsAt h

theorem read_of_no_fault
    (hlines : readLines source numVars input.ending none 0 input.lines = (values, none))
    (h : ∀ i, ¬ContradictsAt (values.map Prod.snd) i) :
    ∃ a, read source numVars input = .ok a ∧
      Assignment.assignAll none .empty (values.map Prod.snd) = .ok a := by
  obtain ⟨a, ha⟩ := exists_assignAll_of_not_contradictsAt h
  refine ⟨a, ?_, ha⟩
  rw [read_eq_ok_iff, hlines]
  exact ⟨rfl, ha⟩

/-- The reader has compared each literal with the bound, so that the literals it recorded are also
recorded on a table for the bound. -/
theorem ofLiterals_of_read {a : Assignment} (hread : read source numVars input = .ok a)
    {ls : List Literal} (ha : Assignment.assignAll none .empty ls = .ok a)
    (hbound : ∀ n ∈ numVars, 0 ≤ n ∧ n + 1 < tableLengths) :
    ∃ b, Assignment.ofLiterals ls numVars = .ok b ∧ a.Agrees b := by
  apply Assignment.ofLiterals_agrees ha
  intro n hn
  obtain ⟨hnonneg, hlt⟩ := hbound n hn
  obtain ⟨m, rfl⟩ := Int.eq_ofNat_of_zero_le hnonneg
  obtain rfl := Option.mem_def.1 hn
  exact ⟨Int.ofNat_le.2 (maxVar_le_of_read hread), hlt⟩

end Reading

/-- Listing the literals of a certificate and recording them agree, faults included. The literals
are those that the tokens on the value lines spell, with the numbers of these lines. If one of them
contradicts an earlier one, the certificate is rejected for the first that does so, at its line;
otherwise a fault that ends the list is the fault of the certificate; otherwise what is read is the
assignment that is built from the literals, and the assignment that is built from them for the given
number of variables, if a table can be that long, answers alike. -/
theorem sparse_and_dense_agree (source : Option String) (numVars : Option Int)
    (input : LineSource) :
    let drained := Reader.drain { source, numVars, input } .fresh
    let literals := drained.state.map Prod.snd
    SpelledBy (valueTokensOf (numberedContent 0 input.lines)) (drained.state, drained.fault) ∧
    ((∃ i, ContradictsAt literals i) →
      ∃ i line l, IsLeast {j | ContradictsAt literals j} i ∧ drained.state[i]? = some (line, l) ∧
        read source numVars input =
          .error (.rejected ⟨.contradiction l.toInt, ⟨source, some (line : Int)⟩⟩)) ∧
    ((∀ i, ¬ContradictsAt literals i) →
      (∀ fault, drained.fault = some fault → read source numVars input = .error fault) ∧
      (drained.fault = none →
        ∃ a, read source numVars input = .ok a ∧ Assignment.ofLiterals literals none = .ok a ∧
          ((∀ n ∈ numVars, 0 ≤ n ∧ n + 1 < tableLengths) →
            ∃ b, Assignment.ofLiterals literals numVars = .ok b ∧ a.Agrees b))) := by
  intro drained literals
  have hlines : readLines source numVars input.ending none 0 input.lines =
      (drained.state, drained.fault) :=
    (Reader.drain_eq_outcome { source, numVars, input } .fresh).symm
  refine ⟨?_, read_of_contradictsAt hlines, ?_⟩
  · rw [← hlines]
    exact .readLines source numVars input.ending none 0 input.lines
  · intro hnone
    refine ⟨?_, ?_⟩
    · intro fault hfault
      rw [hfault] at hlines
      exact read_of_fault hlines hnone
    · intro hend
      rw [hend] at hlines
      obtain ⟨a, hread, ha⟩ := read_of_no_fault hlines hnone
      exact ⟨a, hread, Assignment.ofLiterals_none.2 ha, ofLiterals_of_read hread ha⟩

/-- The contradiction on the second line is found before the stray token on the third, at which the
list of the literals ends. -/
theorem sparse_and_dense_agree_before_stray_token :
    let input : LineSource := ⟨["v 1 -2", "v 2", "v y", "s SATISFIABLE"], .complete⟩
    (Reader.drain { source := none, numVars := some 2, input } .fresh).fault =
        some (.rejected ⟨.nonInteger "y", ⟨none, some 3⟩⟩) ∧
      read none (some 2) input = .error (.rejected ⟨.contradiction 2, ⟨none, some 2⟩⟩) := by
  intro input
  refine ⟨by decide +kernel, ?_⟩
  let drained := Reader.drain { source := none, numVars := some 2, input } .fresh
  have hthird : ContradictsAt (drained.state.map Prod.snd) 2 := by decide +kernel
  obtain ⟨i, line, l, hleast, hvalue, hread⟩ :=
    (sparse_and_dense_agree none (some 2) input).2.1 ⟨2, hthird⟩
  have hbefore : ∀ j < 2, ¬ContradictsAt (drained.state.map Prod.snd) j := by decide +kernel
  obtain rfl : i = 2 :=
    Nat.le_antisymm (hleast.2 hthird) (Nat.not_lt.1 fun hlt => hbefore i hlt hleast.1)
  have hlisted : drained.state[2]? = some (2, .ofVar 2 true (by decide)) := by decide +kernel
  obtain ⟨rfl, rfl⟩ := Prod.mk.inj (Option.some.inj (hvalue.symm.trans hlisted))
  exact hread

/-- With the greatest word as the bound, the literals of a certificate are listed to the end and do
not contradict each other, and still no assignment is built for the bound: the length of its table
would be no word. -/
theorem unaddressable_bound_not_built :
    let input : LineSource := ⟨["s SATISFIABLE", "v 1 0"], .complete⟩
    let bound : Option Int := some 9223372036854775807
    let drained := Reader.drain { source := none, numVars := bound, input } .fresh
    let literals := drained.state.map Prod.snd
    drained.fault = none ∧ (∀ i, ¬ContradictsAt literals i) ∧
      Assignment.ofLiterals literals bound = .error .unaddressable := by
  intro input bound drained literals
  have hliterals : literals = [.ofVar 1 true (by decide)] := by decide +kernel
  refine ⟨by decide +kernel, ?_, rfl⟩
  rw [hliterals]
  exact pairwise_iff_not_contradictsAt.1 (List.pairwise_singleton ..)

end Certificate

end CnfAudit
