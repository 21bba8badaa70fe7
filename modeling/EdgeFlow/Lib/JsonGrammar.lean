import EdgeFlow.Lib.JsonText

/-!
# The grammar of JSON, as a relation

`Spells number (.value v) t` says that `t` is a spelling of the value `v`, rule by rule as
RFC 8259 has them, with any white space where it allows some; `number` says how numbers are
spelled. A parser is compared with it by induction on the derivation, so nothing here says how a
text is read. Bytes from `0x80` on stand for themselves.

The items of an array and the members of an object are spelled from the first character of the
first one; the white space before it belongs to what stands in front.
-/

set_option autoImplicit false

namespace EdgeFlow
namespace Lib
namespace Json

/-! ## Values -/

mutual

/-- The value with other numbers. -/
def mapNumbers {M N : Type} (f : M → N) : Json M → Json N
  | .null => .null
  | .bool b => .bool b
  | .number n => .number (f n)
  | .string s => .string s
  | .array items => .array (mapItems f items)
  | .object members => .object (mapMembers f members)

def mapItems {M N : Type} (f : M → N) : List (Json M) → List (Json N)
  | [] => []
  | v :: vs => mapNumbers f v :: mapItems f vs

def mapMembers {M N : Type} (f : M → N) : List (Bytes × Json M) → List (Bytes × Json N)
  | [] => []
  | m :: ms => (m.1, mapNumbers f m.2) :: mapMembers f ms

end

mutual

/-- How deeply arrays and objects are nested. -/
def nesting {N : Type} : Json N → Nat
  | .null | .bool _ | .number _ | .string _ => 0
  | .array items => 1 + itemNesting items
  | .object members => 1 + memberNesting members

def itemNesting {N : Type} : List (Json N) → Nat
  | [] => 0
  | v :: vs => max (nesting v) (itemNesting vs)

def memberNesting {N : Type} : List (Bytes × Json N) → Nat
  | [] => 0
  | m :: ms => max (nesting m.2) (memberNesting ms)

end

/-! ## The rules -/

/-- White space. -/
def Blank (w : Bytes) : Prop := ∀ b ∈ w, isWs b = true

instance (w : Bytes) : Decidable (Blank w) := inferInstanceAs (Decidable (∀ b ∈ w, _))

/-- The characters of a string, between its quotes. -/
inductive Chars : Bytes → Bytes → Prop where
  | nil : Chars [] []
  | plain {b : UInt8} {s t : Bytes} (hctl : ¬b < 0x20) (hquote : b ≠ 0x22) (hslash : b ≠ 0x5C)
      (h : Chars s t) : Chars (b :: s) (b :: t)
  | short {c e : UInt8} {s t : Bytes} (hc : shortEscape c = some e) (h : Chars s t) :
      Chars (e :: s) (0x5C :: c :: t)
  | unit {a b c d : UInt8} {code : Nat} {s t : Bytes} (hcode : hex4 [a, b, c, d] = some (code, []))
      (hlow : ¬(0xD800 ≤ code ∧ code ≤ 0xDFFF)) (h : Chars s t) :
      Chars (utf8Encode code ++ s) (0x5C :: 0x75 :: a :: b :: c :: d :: t)
  | pair {a b c d a' b' c' d' : UInt8} {high low : Nat} {s t : Bytes}
      (hhigh : hex4 [a, b, c, d] = some (high, [])) (hh : 0xD800 ≤ high ∧ high ≤ 0xDBFF)
      (hlow : hex4 [a', b', c', d'] = some (low, [])) (hl : 0xDC00 ≤ low ∧ low ≤ 0xDFFF)
      (h : Chars s t) :
      Chars (utf8Encode (0x10000 + (high - 0xD800) * 0x400 + (low - 0xDC00)) ++ s)
        (0x5C :: 0x75 :: a :: b :: c :: d :: 0x5C :: 0x75 :: a' :: b' :: c' :: d' :: t)

/-- A number, spelled in full. -/
def Numeral (q : ℚ) (t : Bytes) : Prop := parseNumber t = some (q, [])

instance (q : ℚ) (t : Bytes) : Decidable (Numeral q t) :=
  inferInstanceAs (Decidable (parseNumber t = some (q, [])))

/-- What is spelled: a value, or what stands between two brackets. -/
inductive Part where
  | value (v : Json ℚ)
  | items (vs : List (Json ℚ))
  | members (ms : List (Bytes × Json ℚ))

inductive Spells (number : ℚ → Bytes → Prop) : Part → Bytes → Prop where
  | null : Spells number (.value .null) (ascii "null")
  | false : Spells number (.value (.bool false)) (ascii "false")
  | true : Spells number (.value (.bool true)) (ascii "true")
  | number {q : ℚ} {t : Bytes} (h : number q t) : Spells number (.value (.number q)) t
  | string {s t : Bytes} (h : Chars s t) :
      Spells number (.value (.string s)) (0x22 :: (t ++ [0x22]))
  | emptyArray {w : Bytes} (hw : Blank w) :
      Spells number (.value (.array [])) (0x5B :: (w ++ [0x5D]))
  | array {w t : Bytes} {vs : List (Json ℚ)} (hw : Blank w) (h : Spells number (.items vs) t) :
      Spells number (.value (.array vs)) (0x5B :: (w ++ (t ++ [0x5D])))
  | emptyObject {w : Bytes} (hw : Blank w) :
      Spells number (.value (.object [])) (0x7B :: (w ++ [0x7D]))
  | object {w t : Bytes} {ms : List (Bytes × Json ℚ)} (hw : Blank w)
      (h : Spells number (.members ms) t) :
      Spells number (.value (.object ms)) (0x7B :: (w ++ (t ++ [0x7D])))
  | item {v : Json ℚ} {t w : Bytes} (h : Spells number (.value v) t) (hw : Blank w) :
      Spells number (.items [v]) (t ++ w)
  | items {v : Json ℚ} {vs : List (Json ℚ)} {t w w' u : Bytes} (h : Spells number (.value v) t)
      (hw : Blank w) (hw' : Blank w') (hu : Spells number (.items vs) u) :
      Spells number (.items (v :: vs)) (t ++ (w ++ 0x2C :: (w' ++ u)))
  | member {k kt t w w' w'' : Bytes} {v : Json ℚ} (hk : Chars k kt) (hw : Blank w)
      (hw' : Blank w') (h : Spells number (.value v) t) (hw'' : Blank w'') :
      Spells number (.members [(k, v)])
        (0x22 :: (kt ++ 0x22 :: (w ++ 0x3A :: (w' ++ (t ++ w'')))))
  | members {k kt t w w' w'' w₃ u : Bytes} {v : Json ℚ} {ms : List (Bytes × Json ℚ)}
      (hk : Chars k kt) (hw : Blank w) (hw' : Blank w') (h : Spells number (.value v) t)
      (hw'' : Blank w'') (hw₃ : Blank w₃) (hu : Spells number (.members ms) u) :
      Spells number (.members ((k, v) :: ms))
        (0x22 :: (kt ++ 0x22 :: (w ++ 0x3A :: (w' ++ (t ++ (w'' ++ 0x2C :: (w₃ ++ u)))))))

end Json
end Lib
end EdgeFlow
