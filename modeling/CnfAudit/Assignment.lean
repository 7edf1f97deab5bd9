import CnfAudit.Literal

/-!
# Assignments

Truth values of variables, in a table that grows as variables are recorded. The first literal
recorded on a variable decides its value.
-/

namespace CnfAudit

structure Assignment where
  table : Array (Option Bool)
  /-- The greatest variable recorded, zero if there is none. -/
  maxVar : Nat
  isVariable : ∀ i b, table[i]? = some (some b) → 0 < i ∧ i ≤ maxVariable

namespace Assignment

private theorem replicate_isVariable (slots : Nat) (i : Nat) (b : Bool)
    (h : (Array.replicate slots (none : Option Bool))[i]? = some (some b)) :
    0 < i ∧ i ≤ maxVariable := by
  simp [Array.getElem?_replicate] at h

/-- No values, and a table of the given number of slots. -/
def blank (slots : Nat) : Assignment := ⟨.replicate slots none, 0, replicate_isVariable slots⟩

/-- Why an assignment cannot be built. -/
inductive Failure
  | negativeSize
  /-- The length of the table is no signed 64-bit word. -/
  | unaddressable
  | rejected (cause : Cause)
deriving DecidableEq, Repr

def Failure.text : Failure → String
  | .negativeSize => "negative dimensions are not allowed"
  | .unaddressable => "Maximum allowed dimension exceeded"
  | .rejected cause => cause.text

/-- No values, and a table for the variables up to `numVars`. A length that is no word is refused
before one that is negative. -/
def sized (numVars : Int) : Except Failure Assignment :=
  let slots := numVars + 1
  if slots < -tableLengths || tableLengths ≤ slots then .error .unaddressable
  else if slots < 0 then .error .negativeSize
  else .ok (blank slots.toNat)

def empty : Assignment := blank 1

/-- The value of a variable; numbers that are no variable have none. -/
def get (a : Assignment) (var : Int) : Option Bool :=
  if var < 0 then none else a.table[var.toNat]?.join

def contains (a : Assignment) (var : Int) : Bool := (a.get var).isSome

def size (a : Assignment) : Nat := a.table.countP Option.isSome

def satisfies (a : Assignment) (l : Literal) : Bool := a.get l.var == some l.isPositive

/-- How long a table must be to hold `var`: it at least doubles when it grows. -/
def grownSize (length var : Nat) : Nat :=
  if var < length then length else max (var + 1) (2 * length)

private theorem grow_isVariable (a : Assignment) (n i : Nat) (b : Bool)
    (h : (a.table ++ Array.replicate n none)[i]? = some (some b)) : 0 < i ∧ i ≤ maxVariable := by
  rw [Array.getElem?_append] at h
  split at h
  · exact a.isVariable i b h
  · simp [Array.getElem?_replicate] at h

def grow (a : Assignment) (var : Nat) : Assignment :=
  let extra := grownSize a.table.size var - a.table.size
  ⟨a.table ++ .replicate extra none, a.maxVar, grow_isVariable a extra⟩

private theorem set_isVariable (a : Assignment) (l : Literal) (i : Nat) (b : Bool)
    (h : (a.table.setIfInBounds l.var (some l.isPositive))[i]? = some (some b)) :
    0 < i ∧ i ≤ maxVariable := by
  rw [Array.getElem?_setIfInBounds] at h
  split at h
  · rename_i heq
    exact heq ▸ ⟨l.var_pos, l.var_le⟩
  · exact a.isVariable i b h

def set (a : Assignment) (l : Literal) : Assignment :=
  ⟨a.table.setIfInBounds l.var (some l.isPositive), max a.maxVar l.var, set_isVariable a l⟩

/-- Records a literal, and gives the assignment that is left whether that succeeds or not. -/
def assign (a : Assignment) (l : Literal) : Except Cause Unit × Assignment :=
  let grown := a.grow l.var
  match grown.table[l.var]?.join with
  | none => (.ok (), grown.set l)
  | some value =>
      if value = l.isPositive then (.ok (), grown)
      else (.error (.contradiction l.toInt), grown)

/-- The bound, if there is one and the integer lies above it. -/
def exceeded (bound : Option Int) (n : Int) : Option Int := bound.filter (· < n)

/-- Records literals in order and stops at the first that is above the bound or contradicts. -/
def assignAll (bound : Option Int) (a : Assignment) : List Literal → Except Cause Assignment
  | [] => .ok a
  | l :: ls =>
      match exceeded bound l.var with
      | some numVars => .error (.exceedsDeclared l.toInt numVars)
      | none =>
          match a.assign l with
          | (.error cause, _) => .error cause
          | (.ok (), b) => assignAll bound b ls

def ofLiterals (ls : List Literal) (numVars : Option Int) : Except Failure Assignment :=
  match sized (numVars.getD 0) with
  | .error failure => .error failure
  | .ok a => (assignAll numVars a ls).mapError .rejected

/-- Rejects an assignment that has a variable above `numVars`. -/
def checkRange (a : Assignment) (numVars : Int) : Except Fault Unit :=
  if numVars < a.maxVar then .error (.mentioning numVars (.assignsBeyond a.maxVar numVars) {})
  else .ok ()

def literalAt (a : Assignment) (i : Nat) : Option Literal :=
  match h : a.table[i]? with
  | some (some b) => some (.ofVar i b (a.isVariable i b h))
  | _ => none

/-- One literal for each variable that has a value, by ascending variable. -/
def literals (a : Assignment) : List Literal := (List.range a.table.size).filterMap a.literalAt

end Assignment

end CnfAudit
