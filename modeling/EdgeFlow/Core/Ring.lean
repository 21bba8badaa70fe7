import EdgeFlow.Lib.Fifo
import EdgeFlow.Lib.Run

/-!
# The SPSC ring (`src/core/ring.*`)

`spsc_ring_push` and `spsc_ring_pop` as two threads run them: every atomic load, every buffer
copy and every atomic store is one step, and between any two steps of one thread the other may
take any number of its own. A thread's program counter holds its local variables, which is
where the stale copies of `head` and `tail` live.

Indices are `uint32_t`. They are natural numbers here, with the sums reduced modulo `2 ^ 32`
before the remainder by `size` is taken, as the C expression does.

`RingSys` adds what the proofs need to talk about a run: the queue operations at the instants
they take effect (`trace`), the values of the pushes that have returned `true`, and for every
call that returned `false` how many values the queue held when its second load was made.
-/

set_option autoImplicit false

namespace EdgeFlow

open Lib

variable {α : Type}

/-- `spsc_ring_t`. -/
structure SpscRing (α : Type) where
  buf : List α
  size : Nat
  head : Nat
  tail : Nat
  dropped : Nat

/-- `spsc_ring_init`, when `calloc` succeeds; `zero` is the all-zero element. -/
def spscRingInit (size : Nat) (zero : α) : Option (SpscRing α) :=
  if size < 2 then none
  else some ⟨List.replicate size zero, size, 0, 0, 0⟩

/-- `(i + 1U) % ring->size`. -/
def SpscRing.next (ring : SpscRing α) (i : Nat) : Nat := (i + 1) % 2 ^ 32 % ring.size

/-- What `spsc_ring_count` returns for the two indices it has loaded; the sums are `uint32_t`. -/
def ringCount (size head tail : Nat) : Nat :=
  if tail ≤ head then head - tail
  else ((size + 2 ^ 32 - tail) % 2 ^ 32 + head) % 2 ^ 32

/-- `spsc_ring_count` with both loads at one instant. -/
def spscRingCount (ring : SpscRing α) : Nat := ringCount ring.size ring.head ring.tail

/-- Where a thread is in `spsc_ring_push`. -/
inductive PushPc (α : Type) where
  | idle
  | start (v : α)
  | gotHead (v : α) (head : Nat)
  /-- `held` is the number of values in the queue when `tail` was loaded. -/
  | gotTail (v : α) (head next tail held : Nat)
  | wrote (v : α) (next : Nat)
  | ret (v : α) (ok : Bool)

/-- Where a thread is in `spsc_ring_pop`. -/
inductive PopPc (α : Type) where
  | idle
  | start
  | gotTail (tail : Nat)
  /-- `held` is the number of values in the queue when `head` was loaded. -/
  | gotHead (tail head held : Nat)
  | copied (tail : Nat) (v : α)
  | ret (v : Option α)

structure RingSys (α : Type) where
  ring : SpscRing α
  prod : PushPc α
  cons : PopPc α
  trace : List (FifoOp α)
  accepted : List α
  fulls : List Nat
  empties : List Nat

namespace RingSys

/-- The values whose push has stored the new head. -/
def pushed (s : RingSys α) : List α := enqs s.trace

/-- The values whose pop has stored the new tail. -/
def popped (s : RingSys α) : List α := deqs s.trace

/-- The values in the ring. -/
def queue (s : RingSys α) : List α := s.pushed.drop s.popped.length

end RingSys

def ringStart (ring : SpscRing α) : RingSys α := ⟨ring, .idle, .idle, [], [], [], []⟩

/-- One step of the producer inside `spsc_ring_push`. -/
def pushStep (s : RingSys α) : Option (RingSys α) :=
  match s.prod with
  | .start v => some { s with prod := .gotHead v s.ring.head }
  | .gotHead v head =>
    some { s with prod := .gotTail v head (s.ring.next head) s.ring.tail s.queue.length }
  | .gotTail v head next tail held =>
    if next = tail then
      some { s with
        ring := { s.ring with dropped := (s.ring.dropped + 1) % 2 ^ 32 }
        prod := .ret v false
        fulls := s.fulls ++ [held] }
    else
      some { s with
        ring := { s.ring with buf := s.ring.buf.set head v }
        prod := .wrote v next }
  | .wrote v next =>
    some { s with
      ring := { s.ring with head := next }
      prod := .ret v true
      trace := s.trace ++ [.enq v] }
  | _ => none

/-- One step of the consumer inside `spsc_ring_pop`. -/
def popStep (s : RingSys α) : Option (RingSys α) :=
  match s.cons with
  | .start => some { s with cons := .gotTail s.ring.tail }
  | .gotTail tail => some { s with cons := .gotHead tail s.ring.head s.queue.length }
  | .gotHead tail head held =>
    if tail = head then some { s with cons := .ret none, empties := s.empties ++ [held] }
    else (s.ring.buf[tail]?).map fun v => { s with cons := .copied tail v }
  | .copied tail v =>
    some { s with
      ring := { s.ring with tail := s.ring.next tail }
      cons := .ret (some v)
      trace := s.trace ++ [.deq v] }
  | _ => none

inductive RingAct (α : Type) where
  | callPush (v : α)
  | push
  | retPush
  | callPop
  | pop
  | retPop

/-- One step of the two threads: a call begins, takes a step, or returns. -/
def ringStep (s : RingSys α) : RingAct α → Option (RingSys α)
  | .callPush v =>
    match s.prod with
    | .idle => some { s with prod := .start v }
    | _ => none
  | .push => pushStep s
  | .retPush =>
    match s.prod with
    | .ret v ok =>
      some { s with prod := .idle, accepted := if ok then s.accepted ++ [v] else s.accepted }
    | _ => none
  | .callPop =>
    match s.cons with
    | .idle => some { s with cons := .start }
    | _ => none
  | .pop => popStep s
  | .retPop =>
    match s.cons with
    | .ret _ => some { s with cons := .idle }
    | _ => none

/-! ## Reading the depth

`spsc_ring_count` makes two loads. Each thread calls it between its own pushes or pops, while the
other thread goes on. -/

inductive RingThread where
  | producer | consumer
  deriving DecidableEq, Repr

def RingAct.thread : RingAct α → RingThread
  | .callPush _ | .push | .retPush => .producer
  | .callPop | .pop | .retPop => .consumer

/-- Whether a thread is between its pushes or its pops. -/
def RingSys.idle (s : RingSys α) : RingThread → Bool
  | .producer => match s.prod with
    | .idle => true
    | _ => false
  | .consumer => match s.cons with
    | .idle => true
    | _ => false

/-- Where a thread is in `spsc_ring_count`. -/
inductive CountPc where
  | start
  | gotHead (head : Nat)
  | ret (head tail count : Nat)
  deriving DecidableEq

/-- One step of `spsc_ring_count`: the load of `head`, then the load of `tail` and the result. -/
def countStep (ring : SpscRing α) : CountPc → Option CountPc
  | .start => some (.gotHead ring.head)
  | .gotHead head => some (.ret head ring.tail (ringCount ring.size head ring.tail))
  | .ret _ _ _ => none

/-- A call of `spsc_ring_count`, and how many values the queue held at every instant since it
    began. -/
structure CountCall where
  pc : CountPc
  seen : List Nat

/-- A call that has returned: the two indices it loaded, its value, and the depths there were. -/
structure CountResult where
  head : Nat
  tail : Nat
  count : Nat
  seen : List Nat

/-- The two threads, each in at most one call of `spsc_ring_count`. -/
structure DepthSys (α : Type) where
  sys : RingSys α
  calls : RingThread → Option CountCall
  results : List CountResult

def depthStart (ring : SpscRing α) : DepthSys α := ⟨ringStart ring, fun _ => none, []⟩

inductive DepthAct (α : Type) where
  | ring (a : RingAct α)
  | callCount (t : RingThread)
  | count (t : RingThread)
  | retCount (t : RingThread)

/-- One step of the two threads. A thread inside `spsc_ring_count` neither pushes nor pops. -/
def depthStep (s : DepthSys α) : DepthAct α → Option (DepthSys α)
  | .ring a =>
    match s.calls a.thread with
    | some _ => none
    | none =>
      (ringStep s.sys a).map fun sys =>
        { s with
          sys := sys
          calls := fun t => (s.calls t).map fun c =>
            { c with seen := c.seen ++ [sys.queue.length] } }
  | .callCount t =>
    if s.sys.idle t && (s.calls t).isNone then
      some { s with
        calls := Function.update s.calls t (some ⟨.start, [s.sys.queue.length]⟩) }
    else none
  | .count t =>
    match s.calls t with
    | some c => (countStep s.sys.ring c.pc).map fun pc =>
      { s with calls := Function.update s.calls t (some { c with pc := pc }) }
    | none => none
  | .retCount t =>
    match s.calls t with
    | some ⟨.ret head tail count, seen⟩ =>
      some { s with
        calls := Function.update s.calls t none
        results := s.results ++ [⟨head, tail, count, seen⟩] }
    | _ => none

/-! ## What a run can be asked -/

/-- The slot the producer writes in its next step. -/
def writeSlot (s : RingSys α) : Option Nat :=
  match s.prod with
  | .gotTail _ head next tail _ => if next = tail then none else some head
  | _ => none

/-- The slot the consumer has selected and not yet released. -/
def readSlot (s : RingSys α) : Option Nat :=
  match s.cons with
  | .gotHead tail head _ => if tail = head then none else some tail
  | .copied tail _ => some tail
  | _ => none

/-- Every index in the ring and in the threads' local variables. -/
def ringIndices (s : RingSys α) : List Nat :=
  [s.ring.head, s.ring.tail] ++
    (match s.prod with
      | .gotHead _ head => [head]
      | .gotTail _ head next tail _ => [head, next, tail]
      | .wrote _ next => [next]
      | _ => []) ++
    (match s.cons with
      | .gotTail tail => [tail]
      | .gotHead tail head _ => [tail, head]
      | .copied tail _ => [tail]
      | _ => [])

/-- The value of a push that has taken effect and not returned. -/
def returning (s : RingSys α) : List α :=
  match s.prod with
  | .ret v true => [v]
  | _ => []

end EdgeFlow
