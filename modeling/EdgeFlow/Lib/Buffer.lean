import EdgeFlow.Lib.CText

/-!
# Filling a fixed array

`buf[pos++] = b` and `memcpy(&buf[pos], src, n); pos += n`, over a `uint8_t buf[n]` of which
nothing is known at first. A store that would leave the array has no result, so "the code stays
inside its buffer" is the statement that a fill has one; and the fill rule says that it has one
exactly if the bytes stored fit, and that they then stand in the array in order.
-/

set_option autoImplicit false

namespace EdgeFlow
namespace Lib

/-- A `uint8_t[n]` and the position of the next store. -/
structure Buffer (n : Nat) where
  cells : Bytes
  pos : Nat
  size : cells.length = n
  inside : pos ≤ n

namespace Buffer

variable {n : Nat}

/-- The array before the first store. -/
def start (cells : Bytes) (h : cells.length = n) : Buffer n := ⟨cells, 0, h, Nat.zero_le n⟩

/-- What has been stored so far. -/
def written (b : Buffer n) : Bytes := b.cells.take b.pos

/-- Store `src` at the position and move past it. -/
def store (b : Buffer n) (src : Bytes) : Option (Buffer n) :=
  if h : b.pos + src.length ≤ n then
    some
      { cells := b.cells.take b.pos ++ (src ++ b.cells.drop (b.pos + src.length))
        pos := b.pos + src.length
        size := by
          have hsize := b.size
          simp only [List.length_append, List.length_take, List.length_drop]
          omega
        inside := h }
  else none

end Buffer

end Lib
end EdgeFlow
