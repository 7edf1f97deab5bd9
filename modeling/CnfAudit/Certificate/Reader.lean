import CnfAudit.Assignment
import CnfAudit.Input

/-!
# Certificate readers

A reader is read in passes that share its phase, and a pass may begin only while the phase is the
preamble.
-/

namespace CnfAudit.Certificate

open Text

structure Reader where
  source : Option String
  /-- Values above it are rejected before they become literals. -/
  numVars : Option Int
  /-- The lines that a pass begins with. -/
  input : LineSource
  /-- Whether a line taken by one pass is gone for all of them. -/
  oneShot : Bool := false
  phase : Phase := .preamble
  statusLine : Option Nat := none
  /-- The lines taken by all passes together. -/
  linesTaken : Nat := 0

/-- One way through the lines of a reader. -/
inductive Pass
  | fresh
  /-- The number of the current line, its tokens that are not read yet, and the lines behind it. -/
  | reading (line : Nat) (tokens : List String) (rest : List String)
  | finished

/-- What a step of a pass gives: a value with the number of its line, the end or a fault. -/
structure Step where
  result : Except Fault (Option (Nat × Literal))
  reader : Reader
  pass : Pass

/-- What the tokens of a value line come to. -/
inductive ValueScan
  | value (literal : Literal) (rest : List String)
  | lineEnd
  | fault (fault : Fault)

def scanValue (numVars : Option Int) (place : Place) : List String → ValueScan
  | [] => .lineEnd
  | token :: rest =>
      match readInteger token place with
      | .error fault => .fault fault
      | .ok value =>
          if value = 0 then
            if rest.isEmpty then .lineEnd else .fault (.rejected ⟨.valuesAfterZero rest, place⟩)
          else
            match Assignment.exceeded numVars value.natAbs with
            | some numVars => .fault (.mentioning numVars (.valueOutOfRange value numVars) place)
            | none =>
                match Literal.parse token place with
                | .error fault => .fault fault
                | .ok l => .value l rest

namespace Reader

def place (r : Reader) (line : Nat) : Place := ⟨r.source, some line⟩

/-- Counts a line as taken; `rest` are the lines behind it. -/
def take (r : Reader) (rest : List String) : Reader :=
  { r with
    linesTaken := r.linesTaken + 1
    input := if r.oneShot then ⟨rest, r.input.ending⟩ else r.input }

def readStatus (r : Reader) (text : String) (line : Nat) : Except Fault Reader :=
  match r.statusLine with
  | some first => reject (.repeatedStatus first text) (r.place line)
  | none =>
      if fields (payload text) = ["SATISFIABLE"] then
        .ok { r with
          statusLine := some line
          phase := if r.phase = .preamble then .header else r.phase }
      else reject (.otherStatus text) (r.place line)

def fail (r : Reader) (fault : Fault) : Step := ⟨.error fault, r, .finished⟩

def atEnd (r : Reader) : Step :=
  match r.input.ending with
  | .undecodable refusal => r.fail (.undecodable refusal)
  | .complete =>
      let r := { r with phase := .done }
      if r.statusLine.isNone then r.fail (.rejected ⟨.statusMissing, ⟨r.source, none⟩⟩)
      else ⟨.ok none, r, .finished⟩

/-- Takes lines until there is a value; `line` is the number of the last line taken. -/
def pullLines (r : Reader) (line : Nat) : List String → Step
  | [] => r.atEnd
  | raw :: rest =>
      let r := r.take rest
      let line := line + 1
      let text := strip raw
      match tag? text with
      | none => pullLines r line rest
      | some 'c' => pullLines r line rest
      | some 's' =>
          match r.readStatus text line with
          | .error fault => r.fail fault
          | .ok r => pullLines r line rest
      | some 'v' =>
          let r := { r with phase := .body }
          match scanValue r.numVars (r.place line) (fields (payload text)) with
          | .value l tokens => ⟨.ok (some (line, l)), r, .reading line tokens rest⟩
          | .lineEnd => pullLines r line rest
          | .fault fault => r.fail fault
      | some tag => r.fail (.rejected ⟨.unknownTag tag text, r.place line⟩)

/-- The lines in front of a pass. -/
def linesFor (r : Reader) : Pass → List String
  | .fresh => r.input.lines
  | .reading _ _ rest => if r.oneShot then r.input.lines else rest
  | .finished => []

def next (r : Reader) (p : Pass) : Step :=
  match p with
  | .finished => ⟨.ok none, r, .finished⟩
  | .fresh => if r.phase = .preamble then r.pullLines 0 (r.linesFor p) else r.fail .consumed
  | .reading line tokens rest =>
      match scanValue r.numVars (r.place line) tokens with
      | .value l tokens => ⟨.ok (some (line, l)), r, .reading line tokens rest⟩
      | .lineEnd => r.pullLines line (r.linesFor p)
      | .fault fault => r.fail fault

def tokensFor : Pass → List String
  | .reading _ tokens _ => tokens
  | _ => []

/-- A bound on the values that some lines can hold. -/
def linesWeight : List String → Nat
  | [] => 0
  | line :: lines => line.toList.length + 1 + linesWeight lines

/-- A bound on the values that a pass has left to read. -/
def remaining (r : Reader) (p : Pass) : Nat := linesWeight (r.linesFor p) + (tokensFor p).length

theorem linesFor_reading_take (r : Reader) (line : Nat) (tokens rest : List String)
    (phase : Phase) :
    ({ r.take rest with phase := phase } : Reader).linesFor (.reading line tokens rest) = rest := by
  unfold linesFor take
  cases r.oneShot <;> rfl

private theorem fields_payload_length_le (raw : String) :
    (fields (payload (strip raw))).length ≤ raw.toList.length := by
  have hfields := fields_length_le (payload (strip raw))
  have hstrip := strip_length_le raw
  simp only [payload, String.toList_ofList, List.length_tail] at hfields ⊢
  omega

private theorem scanValue_rest {numVars : Option Int} {place : Place} {tokens rest : List String}
    {l : Literal} (h : scanValue numVars place tokens = .value l rest) :
    rest.length < tokens.length := by
  cases tokens with
  | nil => simp [scanValue] at h
  | cons token tokens =>
      rw [scanValue] at h
      split at h
      · simp at h
      · split at h
        · split at h <;> simp at h
        · split at h
          · simp at h
          · split at h
            · simp at h
            · simp only [ValueScan.value.injEq] at h
              simp [h.2]

private theorem atEnd_ne_value {r : Reader} {v : Nat × Literal} :
    r.atEnd.result ≠ .ok (some v) := by
  unfold atEnd fail
  split
  · simp
  · simp only
    split <;> simp

private theorem pullLines_remaining {r : Reader} {line : Nat} {lines : List String}
    {v : Nat × Literal} (h : (r.pullLines line lines).result = .ok (some v)) :
    (r.pullLines line lines).reader.remaining (r.pullLines line lines).pass <
      linesWeight lines := by
  induction lines generalizing r line with
  | nil => exact absurd h atEnd_ne_value
  | cons raw rest ih =>
      have hcons : linesWeight (raw :: rest) = raw.toList.length + 1 + linesWeight rest := rfl
      unfold pullLines at h ⊢
      simp only at h ⊢
      split at h
      · have := ih h
        omega
      · have := ih h
        omega
      · split at h
        · simp [fail] at h
        · have := ih h
          omega
      · split at h
        · rename_i hscan
          have hlt := scanValue_rest hscan
          have hle := fields_payload_length_le raw
          simp only [remaining, linesFor_reading_take, tokensFor]
          omega
        · have := ih h
          omega
        · simp [fail] at h
      · simp [fail] at h

private theorem next_remaining_of_result {r : Reader} {p : Pass} {v : Nat × Literal}
    (h : (r.next p).result = .ok (some v)) :
    (r.next p).reader.remaining (r.next p).pass < r.remaining p := by
  cases p with
  | finished => simp [next] at h
  | fresh =>
      unfold next at h ⊢
      simp only at h ⊢
      split at h
      · rename_i hphase
        simp only [hphase, if_true]
        exact Nat.lt_add_right _ (pullLines_remaining h)
      · simp [fail] at h
  | reading line tokens rest =>
      cases hscan : scanValue r.numVars (r.place line) tokens with
      | value l tokens' =>
          have hlt := scanValue_rest hscan
          simp only [next, hscan, remaining, linesFor, tokensFor]
          omega
      | lineEnd =>
          simp only [next, hscan] at h ⊢
          exact Nat.lt_add_right _ (pullLines_remaining h)
      | fault fault => simp [next, hscan, fail] at h

theorem next_remaining {r t : Reader} {p q : Pass} {v : Nat × Literal}
    (h : r.next p = ⟨.ok (some v), t, q⟩) : t.remaining q < r.remaining p := by
  have hlt := next_remaining_of_result (r := r) (p := p) (v := v) (by rw [h])
  rwa [h] at hlt

end Reader

/-- What came of a fold over a pass. -/
structure Folded (σ : Type) where
  state : σ
  fault : Option Fault
  reader : Reader
  pass : Pass

/-- Reads a pass to its end and hands each value to `step`. The first fault, of the reader or of
`step`, ends it. -/
def Reader.fold {σ : Type} (step : σ → Nat → Literal → Except Fault Unit × σ) (r : Reader)
    (p : Pass) (s : σ) : Folded σ :=
  match h : r.next p with
  | ⟨.error fault, t, q⟩ => ⟨s, some fault, t, q⟩
  | ⟨.ok none, t, q⟩ => ⟨s, none, t, q⟩
  | ⟨.ok (some (line, l)), t, q⟩ =>
      have := Reader.next_remaining h
      match step s line l with
      | (.error fault, s) => ⟨s, some fault, t, q⟩
      | (.ok (), s) => Reader.fold step t q s
termination_by r.remaining p

end CnfAudit.Certificate
