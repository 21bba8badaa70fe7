import Mathlib.Algebra.Field.Rat
import EdgeFlow.Lib.CText
import EdgeFlow.Lib.Run

/-!
# JSON texts

A reader of JSON over bytes: UTF-8, then the grammar of RFC 8259, with numbers as exact rationals
and strings decoded to bytes. Where the grammar leaves the reader a choice it takes the strict
one: a lone surrogate and a text that is not UTF-8 have no value. A key that occurs twice is found
at its first occurrence.

The recursion is on fuel, one unit a nesting level or a member, so the reader runs inside
`decide`; a text never needs more than its length.
-/

set_option autoImplicit false

namespace EdgeFlow
namespace Lib

/-- A JSON value; `N` are the numbers. -/
inductive Json (N : Type) where
  | null
  | bool (b : Bool)
  | number (n : N)
  | string (s : Bytes)
  | array (items : List (Json N))
  | object (members : List (Bytes × Json N))

namespace Json

section
variable {N : Type}

/-- The first member with the key. -/
def member (key : Bytes) : Json N → Option (Json N)
  | .object members => (members.find? fun m => decide (m.1 = key)).map Prod.snd
  | _ => none

def bool? : Json N → Option Bool
  | .bool b => some b
  | _ => none

def string? : Json N → Option Bytes
  | .string s => some s
  | _ => none

def number? : Json N → Option N
  | .number n => some n
  | _ => none

end

/-! ## UTF-8 -/

/-- How many bytes of a character are still to come, and the range of the next one. -/
structure Utf8 where
  owed : Nat
  low : UInt8
  high : UInt8
  deriving DecidableEq

/-- Between two characters. -/
def utf8Start : Utf8 := ⟨0, 0, 0x7F⟩

/-- The rows of the table of well-formed sequences, by their first byte. -/
def utf8Step (s : Utf8) (b : UInt8) : Option Utf8 :=
  if s.owed = 0 then
    if b ≤ 0x7F then some utf8Start
    else if 0xC2 ≤ b ∧ b ≤ 0xDF then some ⟨1, 0x80, 0xBF⟩
    else if b = 0xE0 then some ⟨2, 0xA0, 0xBF⟩
    else if b = 0xED then some ⟨2, 0x80, 0x9F⟩
    else if 0xE1 ≤ b ∧ b ≤ 0xEF then some ⟨2, 0x80, 0xBF⟩
    else if b = 0xF0 then some ⟨3, 0x90, 0xBF⟩
    else if 0xF1 ≤ b ∧ b ≤ 0xF3 then some ⟨3, 0x80, 0xBF⟩
    else if b = 0xF4 then some ⟨3, 0x80, 0x8F⟩
    else none
  else if s.low ≤ b ∧ b ≤ s.high then
    if s.owed = 1 then some utf8Start else some ⟨s.owed - 1, 0x80, 0xBF⟩
  else none

def isUtf8 (bs : Bytes) : Bool := decide (run utf8Step utf8Start bs = some utf8Start)

/-- The encoding of a code point. -/
def utf8Encode (c : Nat) : Bytes :=
  if c < 0x80 then [.ofNat c]
  else if c < 0x800 then [.ofNat (0xC0 + c / 64), .ofNat (0x80 + c % 64)]
  else if c < 0x10000 then
    [.ofNat (0xE0 + c / 4096), .ofNat (0x80 + c / 64 % 64), .ofNat (0x80 + c % 64)]
  else
    [.ofNat (0xF0 + c / 262144), .ofNat (0x80 + c / 4096 % 64), .ofNat (0x80 + c / 64 % 64),
      .ofNat (0x80 + c % 64)]

/-! ## Strings -/

def hexValue (b : UInt8) : Option Nat :=
  if 0x30 ≤ b ∧ b ≤ 0x39 then some (b.toNat - 0x30)
  else if 0x41 ≤ b ∧ b ≤ 0x46 then some (b.toNat - 0x41 + 10)
  else if 0x61 ≤ b ∧ b ≤ 0x66 then some (b.toNat - 0x61 + 10)
  else none

/-- Four hexadecimal digits. -/
def hex4 : Bytes → Option (Nat × Bytes)
  | a :: b :: c :: d :: bs =>
    (hexValue a).bind fun a => (hexValue b).bind fun b => (hexValue c).bind fun c =>
      (hexValue d).map fun d => (((a * 16 + b) * 16 + c) * 16 + d, bs)
  | _ => none

/-- The low half of a surrogate pair, with its `\u`. -/
def lowSurrogate : Bytes → Option (Nat × Bytes)
  | x :: y :: bs =>
    if x = 0x5C ∧ y = 0x75 then
      (hex4 bs).bind fun v => if 0xDC00 ≤ v.1 ∧ v.1 < 0xE000 then some (v.1 - 0xDC00, v.2) else none
    else none
  | _ => none

/-- The escapes of one character. -/
def shortEscape (c : UInt8) : Option UInt8 :=
  if c = 0x22 ∨ c = 0x5C ∨ c = 0x2F then some c
  else if c = 0x62 then some 0x08
  else if c = 0x66 then some 0x0C
  else if c = 0x6E then some 0x0A
  else if c = 0x72 then some 0x0D
  else if c = 0x74 then some 0x09
  else none

/-- What stands after a backslash: the bytes it means, and the rest. -/
def escape : Bytes → Option (Bytes × Bytes)
  | [] => none
  | c :: bs =>
    if c = 0x75 then
      (hex4 bs).bind fun u =>
        if 0xD800 ≤ u.1 ∧ u.1 < 0xDC00 then
          (lowSurrogate u.2).map fun v =>
            (utf8Encode (0x10000 + (u.1 - 0xD800) * 0x400 + v.1), v.2)
        else if 0xDC00 ≤ u.1 ∧ u.1 < 0xE000 then none
        else some (utf8Encode u.1, u.2)
    else (shortEscape c).map fun e => ([e], bs)

def unescapeFrom : Nat → Bytes → Option Bytes
  | _, [] => some []
  | 0, _ :: _ => none
  | fuel + 1, b :: bs =>
    if b = 0x5C then (escape bs).bind fun e => (unescapeFrom fuel e.2).map (e.1 ++ ·)
    else (unescapeFrom fuel bs).map (b :: ·)

def unescape (bs : Bytes) : Option Bytes := unescapeFrom bs.length bs

/-- The inside of a string, up to its closing quote, with its escapes still in it; `escaped` is
    whether a backslash stands before. -/
def rawStringFrom : Bool → Bytes → Option (Bytes × Bytes)
  | _, [] => none
  | true, b :: bs => (rawStringFrom false bs).map fun r => (b :: r.1, r.2)
  | false, b :: bs =>
    if b = 0x22 then some ([], bs)
    else if b < 0x20 then none
    else (rawStringFrom (decide (b = 0x5C)) bs).map fun r => (b :: r.1, r.2)

def rawString (bs : Bytes) : Option (Bytes × Bytes) := rawStringFrom false bs

/-- A string, from behind its opening quote. -/
def parseString (bs : Bytes) : Option (Bytes × Bytes) :=
  (rawString bs).bind fun r => (unescape r.1).map fun s => (s, r.2)

/-! ## Numbers -/

def isDigit (b : UInt8) : Bool := decide (0x30 ≤ b ∧ b ≤ 0x39)

def digitsValue (ds : Bytes) : Nat := ds.foldl (fun n b => 10 * n + (b.toNat - 0x30)) 0

def parseFraction : Bytes → Option (ℚ × Bytes)
  | [] => some (0, [])
  | b :: bs =>
    if b = 0x2E then
      let ds := bs.takeWhile isDigit
      if ds = [] then none
      else some ((digitsValue ds : ℚ) / 10 ^ ds.length, bs.dropWhile isDigit)
    else some (0, b :: bs)

/-- The power of ten a number is scaled by. -/
def parseExponent : Bytes → Option (ℚ × Bytes)
  | [] => some (1, [])
  | b :: bs =>
    if b = 0x65 ∨ b = 0x45 then
      let neg := decide (bs.head? = some 0x2D)
      let bs := if bs.head? = some 0x2D ∨ bs.head? = some 0x2B then bs.tail else bs
      let ds := bs.takeWhile isDigit
      if ds = [] then none
      else
        some (if neg then 1 / 10 ^ digitsValue ds else 10 ^ digitsValue ds, bs.dropWhile isDigit)
    else some (1, b :: bs)

/-- A number; an integer part of several digits does not start with a zero. -/
def parseNumber (bs : Bytes) : Option (ℚ × Bytes) :=
  let neg := decide (bs.head? = some 0x2D)
  let bs := if neg then bs.tail else bs
  let ds := bs.takeWhile isDigit
  if ds = [] ∨ (ds.head? = some 0x30 ∧ 1 < ds.length) then none
  else
    (parseFraction (bs.dropWhile isDigit)).bind fun f =>
      (parseExponent f.2).map fun e =>
        ((if neg then -1 else 1) * ((digitsValue ds : ℚ) + f.1) * e.1, e.2)

/-! ## Values -/

def isWs (b : UInt8) : Bool := decide (b = 0x20 ∨ b = 0x09 ∨ b = 0x0A ∨ b = 0x0D)

def skipWs (bs : Bytes) : Bytes := bs.dropWhile isWs

/-- Behind the byte `c`, whatever white space stands before it. -/
def expect (c : UInt8) (bs : Bytes) : Option Bytes :=
  match skipWs bs with
  | [] => none
  | b :: rest => if b = c then some rest else none

def parseLiteral (bs : Bytes) : Option (Json ℚ × Bytes) :=
  if bs.take 4 = ascii "null" then some (.null, bs.drop 4)
  else if bs.take 4 = ascii "true" then some (.bool true, bs.drop 4)
  else if bs.take 5 = ascii "false" then some (.bool false, bs.drop 5)
  else none

mutual

def parseValue : Nat → Bytes → Option (Json ℚ × Bytes)
  | 0, _ => none
  | fuel + 1, bs =>
    match skipWs bs with
    | [] => none
    | b :: rest =>
      if b = 0x7B then
        match expect 0x7D rest with
        | some rest => some (.object [], rest)
        | none => (parseMembers fuel rest).map fun r => (.object r.1, r.2)
      else if b = 0x5B then
        match expect 0x5D rest with
        | some rest => some (.array [], rest)
        | none => (parseItems fuel rest).map fun r => (.array r.1, r.2)
      else if b = 0x22 then (parseString rest).map fun r => (.string r.1, r.2)
      else if b = 0x2D ∨ isDigit b then
        (parseNumber (b :: rest)).map fun r => (.number r.1, r.2)
      else parseLiteral (b :: rest)

/-- The members of an object that has one, up to its closing brace. -/
def parseMembers : Nat → Bytes → Option (List (Bytes × Json ℚ) × Bytes)
  | 0, _ => none
  | fuel + 1, bs =>
    (expect 0x22 bs).bind fun r1 => (parseString r1).bind fun key =>
      (expect 0x3A key.2).bind fun r2 => (parseValue fuel r2).bind fun value =>
        match expect 0x2C value.2 with
        | some rest =>
          (parseMembers fuel rest).map fun ms => ((key.1, value.1) :: ms.1, ms.2)
        | none => (expect 0x7D value.2).map fun rest => ([(key.1, value.1)], rest)

def parseItems : Nat → Bytes → Option (List (Json ℚ) × Bytes)
  | 0, _ => none
  | fuel + 1, bs =>
    (parseValue fuel bs).bind fun value =>
      match expect 0x2C value.2 with
      | some rest => (parseItems fuel rest).map fun vs => (value.1 :: vs.1, vs.2)
      | none => (expect 0x5D value.2).map fun rest => ([value.1], rest)

end

/-- A whole text: UTF-8, one value, and white space. -/
def parse (text : Bytes) : Option (Json ℚ) :=
  if isUtf8 text then
    (parseValue (text.length + 1) text).bind fun r => if skipWs r.2 = [] then some r.1 else none
  else none

end Json
end Lib
end EdgeFlow
