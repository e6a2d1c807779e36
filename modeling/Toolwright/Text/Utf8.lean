/-!
# Bytes read as characters

Reads bytes as UTF-8. Where a character breaks off, the bytes of it that were read stand as one
break, and reading goes on with the byte that broke it off. A byte that starts no character stands
as one too.
-/

namespace Toolwright.Text

set_option autoImplicit false

inductive Reading where
  | char (c : Char)
  | broken (bytes : List UInt8)

def replacement : Char := Char.ofNat 0xFFFD

def Reading.shown : Reading → Char
  | .char c => c
  | .broken _ => replacement

namespace Utf8

/-- A character of which some bytes are read: those bytes, how many are owed, the bounds of the next
one, and the bits that were read. -/
structure Pending where
  bytes : List UInt8
  owed : Nat
  low : UInt8 := 0x80
  high : UInt8 := 0xBF
  bits : Nat

/-- What a first byte starts: a whole character, one of several bytes, or none. -/
inductive Start where
  | whole (c : Char)
  | several (p : Pending)
  | none

def start (b : UInt8) : Start :=
  let n := b.toNat
  if n < 0x80 then .whole (Char.ofNat n)
  else if n < 0xC2 then .none
  else if n < 0xE0 then .several { bytes := [b], owed := 1, bits := n - 0xC0 }
  else if n == 0xE0 then .several { bytes := [b], owed := 2, low := 0xA0, bits := 0 }
  else if n == 0xED then .several { bytes := [b], owed := 2, high := 0x9F, bits := n - 0xE0 }
  else if n < 0xF0 then .several { bytes := [b], owed := 2, bits := n - 0xE0 }
  else if n == 0xF0 then .several { bytes := [b], owed := 3, low := 0x90, bits := 0 }
  else if n < 0xF4 then .several { bytes := [b], owed := 3, bits := n - 0xF0 }
  else if n == 0xF4 then .several { bytes := [b], owed := 3, high := 0x8F, bits := n - 0xF0 }
  else .none

def Pending.add (p : Pending) (b : UInt8) : Nat := p.bits * 64 + (b.toNat - 0x80)

mutual

def read : List UInt8 → List Reading
  | [] => []
  | b :: bs =>
    match start b with
    | .whole c => .char c :: read bs
    | .several p => resume p bs
    | .none => .broken [b] :: read bs

def resume (p : Pending) : List UInt8 → List Reading
  | [] => [.broken p.bytes]
  | b :: bs =>
    if p.low ≤ b && b ≤ p.high then
      if p.owed ≤ 1 then .char (Char.ofNat (p.add b)) :: read bs
      else resume { bytes := p.bytes ++ [b], owed := p.owed - 1, bits := p.add b } bs
    else
      .broken p.bytes ::
        match start b with
        | .whole c => .char c :: read bs
        | .several p => resume p bs
        | .none => .broken [b] :: read bs

end

def decode (bs : List UInt8) : List Char := (read bs).map Reading.shown

end Utf8

end Toolwright.Text
