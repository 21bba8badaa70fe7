import EdgeFlow.Lib.Json
import EdgeFlow.Lib.Prog

/-!
# cJSON's parser (`third_party/cJSON/cJSON.c`)

`cJSON_Parse` and what it calls, over the bytes of a text and its NUL. A read outside the text, a
store outside a block and a `free` of more than there is have no result (`Fault`), and neither has
a loop or a recursion that outlives its bound; so "the parser is safe and ends" is the statement
that it never stops with one. `malloc` may refuse any request.

An item is a `Json`, its children a list in the order of their `next` pointers. `live` counts the
blocks: one for an item, one for each of its strings. `valueint` and the error position, which the
gateway does not read, are left out.
-/

set_option autoImplicit false

namespace EdgeFlow
namespace CJson

open Lib

/-- `parse_buffer` without its `content` and `length`, and the allocator behind its hooks. -/
structure ParseBuffer where
  offset : Nat
  depth : Nat
  /-- How often `allocate` has been called. -/
  requests : Nat
  /-- The blocks that have been allocated and not freed. -/
  live : Nat
  deriving DecidableEq, Repr

inductive Fault where
  | read | write | free
  /-- The bound of a loop or of the recursion is used up. -/
  | bound
  deriving DecidableEq, Repr

abbrev Parse := Prog ParseBuffer Fault

/-- `CJSON_NESTING_LIMIT`. -/
def nestingLimit : Nat := 1000

def parseStart : ParseBuffer := ⟨0, 0, 0, 0⟩

/-! ## Memory -/

mutual

/-- The blocks `cJSON_Delete` frees for an item. -/
def blocks {V : Type} : Json V → Nat
  | .null | .bool _ | .number _ => 1
  | .string _ => 2
  | .array items => 1 + itemBlocks items
  | .object members => 1 + memberBlocks members

def itemBlocks {V : Type} : List (Json V) → Nat
  | [] => 0
  | v :: vs => blocks v + itemBlocks vs

def memberBlocks {V : Type} : List (Bytes × Json V) → Nat
  | [] => 0
  | m :: ms => 1 + blocks m.2 + memberBlocks ms

end

/-- `free`, of so many blocks. -/
def release (n : Nat) : Parse Unit := do
  let s ← Prog.get
  if n ≤ s.live then Prog.modify fun s => { s with live := s.live - n } else Prog.stop .free

def moveTo (offset : Nat) : Parse Unit := Prog.modify fun s => { s with offset := offset }

/-- `goto fail` with nothing to free, leaving the buffer at an offset. -/
def failAt {α : Type} (offset : Nat) : Parse (Option α) := do
  moveTo offset
  pure none

section
variable (grants : Nat → Bool)

/-- `hooks.allocate`: whether there was memory. -/
def allocate : Parse Bool := do
  let s ← Prog.get
  if grants s.requests then
    Prog.modify fun s => { s with requests := s.requests + 1, live := s.live + 1 }
    pure true
  else
    Prog.modify fun s => { s with requests := s.requests + 1 }
    pure false

end

/-- A store behind what the block holds already. -/
def store (capacity : Nat) (output bytes : Bytes) : Parse Bytes :=
  if output.length + bytes.length ≤ capacity then pure (output ++ bytes) else Prog.stop .write

/-! ## Strings -/

/-- The continuation bytes of `utf16_literal_to_utf8`, from the last to the first, and what is
    left of the code point. -/
def utf8Tail : Nat → Nat → Bytes × Nat
  | 0, codepoint => ([], codepoint)
  | k + 1, codepoint =>
    let front := utf8Tail k (codepoint >>> 6)
    (front.1 ++ [.ofNat ((codepoint ||| 0x80) &&& 0xBF)], front.2)

def utf8Bytes (utf8_length first_byte_mark codepoint : Nat) : Bytes :=
  let tail := utf8Tail (utf8_length - 1) codepoint
  .ofNat ((tail.2 ||| first_byte_mark) &&& 0xFF) :: tail.1

/-- The second half of `utf16_literal_to_utf8`. -/
def encodeUtf8 (codepoint : Nat) : Option Bytes :=
  if codepoint < 0x80 then some [.ofNat (codepoint &&& 0x7F)]
  else if codepoint < 0x800 then some (utf8Bytes 2 0xC0 codepoint)
  else if codepoint < 0x10000 then some (utf8Bytes 3 0xE0 codepoint)
  else if codepoint ≤ 0x10FFFF then some (utf8Bytes 4 0xF0 codepoint)
  else none

section
variable (content : Bytes)

def readAt (i : Nat) : Parse UInt8 :=
  match content[i]? with
  | some b => pure b
  | none => Prog.stop .read

/-- The digits of `parse_hex4` that are left, the first of them at `input`. -/
def parseHex4From (input : Nat) : Nat → Nat → Parse Nat
  | 0, h => pure h
  | k + 1, h => do
    let b ← readAt content input
    match Json.hexValue b with
    | some d => parseHex4From (input + 1) k (if k = 0 then h + d else (h + d) <<< 4)
    | none => pure 0

/-- `parse_hex4`; `0` also stands for digits that are none. -/
def parseHex4 (input : Nat) : Parse Nat := parseHex4From content input 4 0

/-- The branch of `utf16_literal_to_utf8` for the first half of a pair. -/
def utf16Pair (second_sequence input_end first_code : Nat) : Parse (Option (Bytes × Nat)) :=
  if input_end - second_sequence < 6 then pure none
  else do
    let backslash ← readAt content second_sequence
    if backslash ≠ 0x5C then pure none
    else do
      let u ← readAt content (second_sequence + 1)
      if u ≠ 0x75 then pure none
      else do
        let second_code ← parseHex4 content (second_sequence + 2)
        if second_code < 0xDC00 ∨ 0xDFFF < second_code then pure none
        else
          pure ((encodeUtf8
            (0x10000 + (((first_code &&& 0x3FF) <<< 10) ||| (second_code &&& 0x3FF)))).map
              fun bytes => (bytes, 12))

/-- `utf16_literal_to_utf8`: the bytes it writes and the length of the sequence it has read. -/
def utf16LiteralToUtf8 (input_pointer input_end : Nat) : Parse (Option (Bytes × Nat)) :=
  if input_end - input_pointer < 6 then pure none
  else do
    let first_code ← parseHex4 content (input_pointer + 2)
    if 0xDC00 ≤ first_code ∧ first_code ≤ 0xDFFF then pure none
    else if 0xD800 ≤ first_code ∧ first_code ≤ 0xDBFF then
      utf16Pair content (input_pointer + 6) input_end first_code
    else pure ((encodeUtf8 first_code).map fun bytes => (bytes, 6))

/-- The first loop of `parse_string`: where the closing quote is, and how many backslashes have
    been skipped. -/
def scanString : Nat → Nat → Nat → Parse (Option (Nat × Nat))
  | 0, _, _ => Prog.stop .bound
  | rounds + 1, input_end, skipped_bytes =>
    if input_end < content.length then do
      let b ← readAt content input_end
      if b = 0x22 then pure (some (input_end, skipped_bytes))
      else if b = 0x5C then
        if content.length ≤ input_end + 1 then pure none
        else scanString rounds (input_end + 2) (skipped_bytes + 1)
      else scanString rounds (input_end + 1) skipped_bytes
    else pure none

/-- The second loop of `parse_string`, into a block of `capacity` bytes; an error is a
    `goto fail`, with `input_pointer` where it stands. -/
def unescapeString (input_end capacity : Nat) : Nat → Nat → Bytes → Parse (Except Nat Bytes)
  | 0, _, _ => Prog.stop .bound
  | rounds + 1, input_pointer, output =>
    if input_pointer < input_end then do
      let b ← readAt content input_pointer
      if b ≠ 0x5C then do
        let output ← store capacity output [b]
        unescapeString input_end capacity rounds (input_pointer + 1) output
      else do
        let c ← readAt content (input_pointer + 1)
        match Json.shortEscape c with
        | some e => do
          let output ← store capacity output [e]
          unescapeString input_end capacity rounds (input_pointer + 2) output
        | none =>
          if c = 0x75 then do
            match ← utf16LiteralToUtf8 content input_pointer input_end with
            | some (bytes, sequence_length) => do
              let output ← store capacity output bytes
              unescapeString input_end capacity rounds (input_pointer + sequence_length) output
            | none => pure (.error input_pointer)
          else pure (.error input_pointer)
    else pure (.ok output)

variable (grants : Nat → Bool)

/-- `parse_string`: the string, or `none` for `false`. -/
def parseString : Parse (Option Bytes) := do
  let s ← Prog.get
  let b ← readAt content s.offset
  if b ≠ 0x22 then failAt (s.offset + 1)
  else do
    match ← scanString content (content.length + 1) (s.offset + 1) 0 with
    | none => failAt (s.offset + 1)
    | some (input_end, skipped_bytes) =>
      let allocation_length := input_end - s.offset - skipped_bytes
      if ← allocate grants then
        match ← unescapeString content input_end (allocation_length + 1) (content.length + 1)
            (s.offset + 1) [] with
        | .error input_pointer => do
          release 1
          failAt input_pointer
        | .ok output => do
          let _ ← store (allocation_length + 1) output [0]
          moveTo (input_end + 1)
          pure (some output)
      else failAt (s.offset + 1)

/-! ## White space -/

/-- `buffer_skip_whitespace`, from an offset: everything up to the space counts, the NUL included,
    and the last byte of the text is never left behind. -/
def skipFrom (offset : Nat) : Nat :=
  if offset < content.length then
    let stop := offset + ((content.drop offset).takeWhile (· ≤ 32)).length
    if stop = content.length then stop - 1 else stop
  else offset

def bufferSkipWhitespace : Parse Unit :=
  Prog.modify fun s => { s with offset := skipFrom content s.offset }

/-- `skip_utf8_bom`, at offset zero; the fifth byte has to be there. -/
def skipUtf8Bom : Parse Unit :=
  Prog.modify fun s =>
    if s.offset + 4 < content.length ∧ content.take 3 = [0xEF, 0xBB, 0xBF] then
      { s with offset := s.offset + 3 }
    else s

/-! ## Numbers -/

/-- The characters `parse_number` copies for `strtod`. -/
def isNumberChar (b : UInt8) : Bool :=
  Json.isDigit b || b == 0x2B || b == 0x2D || b == 0x65 || b == 0x45 || b == 0x2E

/-- The exponent `strtod` reads: the scale, and how many characters it takes. Without a digit it
    is none. -/
def strtodExponent : Bytes → ℚ × Nat
  | [] => (1, 0)
  | b :: bs =>
    if b = 0x65 ∨ b = 0x45 then
      let neg := decide (bs.head? = some 0x2D)
      let sign := if bs.head? = some 0x2D ∨ bs.head? = some 0x2B then 1 else 0
      let ds := (bs.drop sign).takeWhile Json.isDigit
      if ds = [] then (1, 0)
      else
        (if neg then 1 / 10 ^ Json.digitsValue ds else 10 ^ Json.digitsValue ds,
          1 + sign + ds.length)
    else (1, 0)

/-- The decimal number at the beginning of a text, before it is rounded, and its length. -/
def strtod (text : Bytes) : Option (ℚ × Nat) :=
  let neg := decide (text.head? = some 0x2D)
  let sign := if text.head? = some 0x2D ∨ text.head? = some 0x2B then 1 else 0
  let int := (text.drop sign).takeWhile Json.isDigit
  let behind := text.drop (sign + int.length)
  let point := if behind.head? = some 0x2E then 1 else 0
  let frac := if point = 1 then (behind.drop 1).takeWhile Json.isDigit else []
  if int = [] ∧ frac = [] then none
  else
    let length := sign + int.length + point + frac.length
    let exponent := strtodExponent (text.drop length)
    some ((if neg then -1 else 1) *
      ((Json.digitsValue int : ℚ) + (Json.digitsValue frac : ℚ) / 10 ^ frac.length) * exponent.1,
      length + exponent.2)

/-! ## Values -/

variable {V : Type} (round : ℚ → V)

/-- `parse_number`; the copy has room for 63 characters, and `round` is what makes a `double` of
    the number. -/
def parseNumber : Parse (Option (Json V)) := do
  let s ← Prog.get
  match strtod (((content.drop s.offset).take 63).takeWhile isNumberChar) with
  | none => pure none
  | some (q, length) => do
    moveTo (s.offset + length)
    pure (some (.number (round q)))

/-- The `do` loop of `parse_array`, with the items it has, up to its closing bracket. -/
def parseItems (value : Parse (Option (Json V))) :
    Nat → List (Json V) → Parse (Option (List (Json V)))
  | 0, _ => Prog.stop .bound
  | rounds + 1, head => do
    if ← allocate grants then
      Prog.modify fun s => { s with offset := s.offset + 1 }
      bufferSkipWhitespace content
      match ← value with
      | none => do
        release (itemBlocks head + 1)
        pure none
      | some v => do
        bufferSkipWhitespace content
        let s ← Prog.get
        if content[s.offset]? = some 0x2C then parseItems value rounds (head ++ [v])
        else if content[s.offset]? = some 0x5D then pure (some (head ++ [v]))
        else do
          release (itemBlocks (head ++ [v]))
          pure none
    else do
      release (itemBlocks head)
      pure none

/-- The `do` loop of `parse_object`. A new member has no name until it has been read. -/
def parseMembers (value : Parse (Option (Json V))) :
    Nat → List (Bytes × Json V) → Parse (Option (List (Bytes × Json V)))
  | 0, _ => Prog.stop .bound
  | rounds + 1, head => do
    if ← allocate grants then
      let s ← Prog.get
      if s.offset + 1 < content.length then
        moveTo (s.offset + 1)
        bufferSkipWhitespace content
        match ← parseString content grants with
        | none => do
          release (memberBlocks head + 1)
          pure none
        | some key => do
          bufferSkipWhitespace content
          let s ← Prog.get
          if content[s.offset]? = some 0x3A then
            moveTo (s.offset + 1)
            bufferSkipWhitespace content
            match ← value with
            | none => do
              release (memberBlocks head + 2)
              pure none
            | some v => do
              bufferSkipWhitespace content
              let s ← Prog.get
              if content[s.offset]? = some 0x2C then
                parseMembers value rounds (head ++ [(key, v)])
              else if content[s.offset]? = some 0x7D then pure (some (head ++ [(key, v)]))
              else do
                release (memberBlocks (head ++ [(key, v)]))
                pure none
          else do
            release (memberBlocks head + 2)
            pure none
      else do
        release (memberBlocks head + 1)
        pure none
    else do
      release (memberBlocks head)
      pure none

/-- What `parse_array` and `parse_object` have in common: the nesting limit, the opening and the
    closing character, and the way back to the character in front of the first child. -/
def parseNested {α : Type} (opening closing : UInt8) (children : Parse (Option (List α)))
    (make : List α → Json V) : Parse (Option (Json V)) := do
  let s ← Prog.get
  if nestingLimit ≤ s.depth then pure none
  else do
    Prog.modify fun s => { s with depth := s.depth + 1 }
    let b ← readAt content s.offset
    if b ≠ opening then pure none
    else do
      moveTo (s.offset + 1)
      bufferSkipWhitespace content
      let s ← Prog.get
      match content[s.offset]? with
      | none => failAt (s.offset - 1)
      | some b =>
        if b = closing then do
          Prog.modify fun s => { s with depth := s.depth - 1, offset := s.offset + 1 }
          pure (some (make []))
        else do
          moveTo (s.offset - 1)
          match ← children with
          | none => pure none
          | some list => do
            Prog.modify fun s => { s with depth := s.depth - 1, offset := s.offset + 1 }
            pure (some (make list))

def parseArray (value : Parse (Option (Json V))) : Parse (Option (Json V)) :=
  parseNested content 0x5B 0x5D (parseItems content grants value content.length []) .array

def parseObject (value : Parse (Option (Json V))) : Parse (Option (Json V)) :=
  parseNested content 0x7B 0x7D (parseMembers content grants value content.length []) .object

/-- A literal of `parse_value`. -/
def parseLiteral (length : Nat) (v : Json V) : Parse (Option (Json V)) := do
  Prog.modify fun s => { s with offset := s.offset + length }
  pure (some v)

/-- `parse_value`, with a stack for so many calls of itself. -/
def parseValue : Nat → Parse (Option (Json V))
  | 0 => Prog.stop .bound
  | levels + 1 => do
    let s ← Prog.get
    let text := content.drop s.offset
    if text.take 4 = ascii "null" then parseLiteral 4 .null
    else if text.take 5 = ascii "false" then parseLiteral 5 (.bool false)
    else if text.take 4 = ascii "true" then parseLiteral 4 (.bool true)
    else
      match content[s.offset]? with
      | none => pure none
      | some b =>
        if b = 0x22 then do
          let string ← parseString content grants
          pure (string.map .string)
        else if b = 0x2D ∨ Json.isDigit b then parseNumber content round
        else if b = 0x5B then parseArray content grants (parseValue levels)
        else if b = 0x7B then parseObject content grants (parseValue levels)
        else pure none

/-- `cJSON_ParseWithLengthOpts`, which accepts what follows the value. -/
def parseWithLength : Parse (Option (Json V)) := do
  if ← allocate grants then
    skipUtf8Bom content
    bufferSkipWhitespace content
    match ← parseValue content grants round (nestingLimit + 1) with
    | none => do
      release 1
      pure none
    | some v => pure (some v)
  else pure none

end

section
variable {V : Type} (grants : Nat → Bool) (round : ℚ → V)

/-- `cJSON_Parse`, of a text without its NUL. -/
def cJsonParse (text : Bytes) : Except Fault (Option (Json V)) × ParseBuffer :=
  parseWithLength (text ++ [0]) grants round parseStart

end

mutual

/-- The item as its reader sees it: a name and a string end at their first NUL. -/
def cStrings {V : Type} : Json V → Json V
  | .string s => .string (upToNul s)
  | .array items => .array (itemCStrings items)
  | .object members => .object (memberCStrings members)
  | v => v

def itemCStrings {V : Type} : List (Json V) → List (Json V)
  | [] => []
  | v :: vs => cStrings v :: itemCStrings vs

def memberCStrings {V : Type} : List (Bytes × Json V) → List (Bytes × Json V)
  | [] => []
  | m :: ms => (upToNul m.1, cStrings m.2) :: memberCStrings ms

end

/-- What `cJSON_Parse` gives the gateway. -/
def cJsonDocument {V : Type} (grants : Nat → Bool) (round : ℚ → V) (text : Bytes) :
    Option (Json V) :=
  match (cJsonParse grants round text).1 with
  | .ok (some v) => some (cStrings v)
  | _ => none

end CJson
end EdgeFlow
