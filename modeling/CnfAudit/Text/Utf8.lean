import CnfAudit.Text.Hexadecimal

/-!
# Decoding UTF-8

An octet machine that carries an unfinished character from one block of octets to the next. A byte
order mark is a character like any other.
-/

namespace CnfAudit.Text.Utf8

inductive Reason
  | start
  | continuation
  | unfinished
deriving DecidableEq, Repr

def Reason.text : Reason → String
  | .start => "invalid start byte"
  | .continuation => "invalid continuation byte"
  | .unfinished => "unexpected end of data"

/-- Octets that are refused, and the position of the first one among the octets at hand: those that
were carried over and those of the block. -/
structure Refusal where
  octets : List Nat
  position : Nat
  reason : Reason
deriving DecidableEq, Repr

/-- The octets as a message names them: one of them by its value, several by their positions. -/
def Refusal.shown (r : Refusal) : String :=
  match r.octets with
  | [b] => "byte 0x" ++ String.ofList (hexPadded 2 b) ++ " in position " ++ toString r.position
  | _ =>
      "bytes in position " ++ toString r.position ++ "-" ++
        toString (r.position + r.octets.length - 1)

def Refusal.message (r : Refusal) : String :=
  "'utf-8' codec can't decode " ++ r.shown ++ ": " ++ r.reason.text

/-- Between two octets: how many octets the character still needs, the least and the greatest that
may come next, the bits read so far and the octets they came from. -/
structure State where
  owed : Nat := 0
  low : Nat := 0x80
  high : Nat := 0xbf
  bits : Nat := 0
  held : List Nat := []
deriving DecidableEq, Repr

/-- Between two characters. -/
def State.start : State := {}

/-- The first octet of a character: the character, or the state behind the octet. -/
def lead (b : Nat) : Option (Option Char × State) :=
  let held := [b]
  if b < 0x80 then some (some (Char.ofNat b), .start)
  else if b < 0xc2 then none
  else if b < 0xe0 then some (none, { owed := 1, bits := b - 0xc0, held })
  else if b = 0xe0 then some (none, { owed := 2, low := 0xa0, held })
  else if b < 0xf0 then some (none, { owed := 2, bits := b - 0xe0, held })
  else if b = 0xf0 then some (none, { owed := 3, low := 0x90, held })
  else if b < 0xf4 then some (none, { owed := 3, bits := b - 0xf0, held })
  else if b = 0xf4 then some (none, { owed := 3, high := 0x8f, bits := 4, held })
  else none

def isSurrogate (n : Nat) : Bool := 0xd800 ≤ n && n < 0xe000

/-- One octet: the character that it finishes, if it does, and the state behind it. A surrogate is
refused at its last octet, so that octets which break off inside one are carried over like any
others. -/
def step (s : State) (b : Nat) : Option (Option Char × State) :=
  if s.owed = 0 then lead b
  else if b < s.low || s.high < b then none
  else
    let bits := s.bits * 0x40 + (b - 0x80)
    if 1 < s.owed then some (none, { owed := s.owed - 1, bits, held := s.held ++ [b] })
    else if isSurrogate bits then none
    else some (some (Char.ofNat bits), .start)

namespace State

/-- The octets held are the first two of a surrogate. -/
def inSurrogate (s : State) : Bool := s.owed == 1 && isSurrogate (s.bits * 0x40)

/-- What is refused of an unfinished character; of a surrogate it is the first octet only. -/
def refusedOctets (s : State) : List Nat := if s.inSurrogate then s.held.take 1 else s.held

/-- The refusal of an octet at a position. An octet that cannot go on with a character is not
refused itself, but the octets of the character before it. -/
def refuse (s : State) (b position : Nat) : Refusal :=
  if s.owed = 0 then ⟨[b], position, .start⟩
  else ⟨s.refusedOctets, position - s.held.length, .continuation⟩

/-- The refusal of a character that is unfinished when there are no more octets. -/
def breakOff (s : State) : Refusal :=
  ⟨s.refusedOctets, 0, if s.inSurrogate then .continuation else .unfinished⟩

end State

/-- The characters that a block finishes, and the state behind it. -/
def decodeFrom (s : State) (position : Nat) : List UInt8 → Except Refusal (List Char × State)
  | [] => .ok ([], s)
  | b :: bs =>
      match step s b.toNat with
      | none => .error (s.refuse b.toNat position)
      | some (c, t) =>
          match decodeFrom t (position + 1) bs with
          | .error refusal => .error refusal
          | .ok (cs, u) => .ok (c.toList ++ cs, u)

/-- The octets held from the block before are the first ones at hand. -/
def decode (s : State) (block : List UInt8) : Except Refusal (List Char × State) :=
  decodeFrom s s.held.length block

end CnfAudit.Text.Utf8
