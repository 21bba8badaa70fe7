import EdgeFlow.Core.Ring

/-!
# The ring is a bounded FIFO queue

The invariant counts. With `P` values pushed and `R` popped, the ring's indices are `P` and `R`
modulo its size, the slots between them hold what was pushed there, and there are at most
`size - 1` of them. What makes it hold between any two steps is what it says about the local
variables: a producer that has read `tail` knows *some* earlier count of pops, and a consumer
that has read `head` some earlier count of pushes. Both counts only grow, and growing only ever
makes more room for the one and more values for the other, so **a stale copy is always a safe
one**.
-/

set_option autoImplicit false

namespace EdgeFlow
namespace Proof

open Lib

variable {α : Type}

/-! ## What a step can do -/

/-- The steps of the two threads, one constructor for each. -/
inductive RingMove (s : RingSys α) : RingAct α → RingSys α → Prop
  | callPush {v : α} (hpc : s.prod = .idle) : RingMove s (.callPush v) { s with prod := .start v }
  | loadHead {v : α} (hpc : s.prod = .start v) :
    RingMove s .push { s with prod := .gotHead v s.ring.head }
  | loadTail {v : α} {head : Nat} (hpc : s.prod = .gotHead v head) :
    RingMove s .push
      { s with prod := .gotTail v head (s.ring.next head) s.ring.tail s.queue.length }
  | full {v : α} {head next tail held : Nat} (hpc : s.prod = .gotTail v head next tail held)
      (heq : next = tail) :
    RingMove s .push { s with
      ring := { s.ring with dropped := (s.ring.dropped + 1) % 2 ^ 32 }
      prod := .ret v false
      fulls := s.fulls ++ [held] }
  | write {v : α} {head next tail held : Nat} (hpc : s.prod = .gotTail v head next tail held)
      (hne : next ≠ tail) :
    RingMove s .push { s with
      ring := { s.ring with buf := s.ring.buf.set head v }
      prod := .wrote v next }
  | storeHead {v : α} {next : Nat} (hpc : s.prod = .wrote v next) :
    RingMove s .push { s with
      ring := { s.ring with head := next }
      prod := .ret v true
      trace := s.trace ++ [.enq v] }
  | retPush {v : α} {ok : Bool} (hpc : s.prod = .ret v ok) :
    RingMove s .retPush { s with
      prod := .idle
      accepted := if ok then s.accepted ++ [v] else s.accepted }
  | callPop (hpc : s.cons = .idle) : RingMove s .callPop { s with cons := .start }
  | popTail (hpc : s.cons = .start) : RingMove s .pop { s with cons := .gotTail s.ring.tail }
  | popHead {tail : Nat} (hpc : s.cons = .gotTail tail) :
    RingMove s .pop { s with cons := .gotHead tail s.ring.head s.queue.length }
  | empty {tail head held : Nat} (hpc : s.cons = .gotHead tail head held) (heq : tail = head) :
    RingMove s .pop { s with cons := .ret none, empties := s.empties ++ [held] }
  | copy {tail head held : Nat} {v : α} (hpc : s.cons = .gotHead tail head held)
      (hne : tail ≠ head) (hv : s.ring.buf[tail]? = some v) :
    RingMove s .pop { s with cons := .copied tail v }
  | storeTail {tail : Nat} {v : α} (hpc : s.cons = .copied tail v) :
    RingMove s .pop { s with
      ring := { s.ring with tail := s.ring.next tail }
      cons := .ret (some v)
      trace := s.trace ++ [.deq v] }
  | retPop {v : Option α} (hpc : s.cons = .ret v) : RingMove s .retPop { s with cons := .idle }

theorem pushStep_move {s s' : RingSys α} (h : pushStep s = some s') : RingMove s .push s' := by
  unfold pushStep at h
  cases hpc : s.prod with
  | start v =>
    simp only [hpc, Option.some.injEq] at h
    exact h ▸ .loadHead hpc
  | gotHead v head =>
    simp only [hpc, Option.some.injEq] at h
    exact h ▸ .loadTail hpc
  | gotTail v head next tail held =>
    simp only [hpc] at h
    split at h
    · rename_i heq
      exact Option.some.inj h ▸ .full hpc heq
    · rename_i hne
      exact Option.some.inj h ▸ .write hpc hne
  | wrote v next =>
    simp only [hpc, Option.some.injEq] at h
    exact h ▸ .storeHead hpc
  | idle => simp [hpc] at h
  | ret v ok => simp [hpc] at h

theorem popStep_move {s s' : RingSys α} (h : popStep s = some s') : RingMove s .pop s' := by
  unfold popStep at h
  cases hpc : s.cons with
  | start =>
    simp only [hpc, Option.some.injEq] at h
    exact h ▸ .popTail hpc
  | gotTail tail =>
    simp only [hpc, Option.some.injEq] at h
    exact h ▸ .popHead hpc
  | gotHead tail head held =>
    simp only [hpc] at h
    split at h
    · rename_i heq
      exact Option.some.inj h ▸ .empty hpc heq
    · rename_i hne
      obtain ⟨v, hv, rfl⟩ := Option.map_eq_some_iff.mp h
      exact .copy hpc hne hv
  | copied tail v =>
    simp only [hpc, Option.some.injEq] at h
    exact h ▸ .storeTail hpc
  | idle => simp [hpc] at h
  | ret v => simp [hpc] at h

/-- **A step is one of these.** -/
theorem ringStep_move {s s' : RingSys α} {a : RingAct α} (h : ringStep s a = some s') :
    RingMove s a s' := by
  cases a with
  | push => exact pushStep_move h
  | pop => exact popStep_move h
  | callPush v =>
    cases hpc : s.prod with
    | idle =>
      simp only [ringStep, hpc, Option.some.injEq] at h
      exact h ▸ .callPush hpc
    | _ => simp [ringStep, hpc] at h
  | retPush =>
    cases hpc : s.prod with
    | ret v ok =>
      simp only [ringStep, hpc, Option.some.injEq] at h
      exact h ▸ .retPush hpc
    | _ => simp [ringStep, hpc] at h
  | callPop =>
    cases hpc : s.cons with
    | idle =>
      simp only [ringStep, hpc, Option.some.injEq] at h
      exact h ▸ .callPop hpc
    | _ => simp [ringStep, hpc] at h
  | retPop =>
    cases hpc : s.cons with
    | ret v =>
      simp only [ringStep, hpc, Option.some.injEq] at h
      exact h ▸ .retPop hpc
    | _ => simp [ringStep, hpc] at h

/-! ## The invariant -/

/-- What the producer's local variables know, with `P` pushes and at least `R` pops done. -/
def ProdOk (size P R : Nat) (buf : List α) : PushPc α → Prop
  | .gotHead _ head => head = P % size
  | .gotTail _ head next tail held =>
    head = P % size ∧ next = (P + 1) % size ∧
      ∃ k, k ≤ R ∧ k ≤ P ∧ P < k + size ∧ tail = k % size ∧ held = P - k
  | .wrote v next => next = (P + 1) % size ∧ P + 1 < R + size ∧ buf[P % size]? = some v
  | _ => True

/-- What the consumer's local variables know, with `R` pops and at least `xs` pushed. -/
def ConsOk (size R : Nat) (xs : List α) : PopPc α → Prop
  | .gotTail tail => tail = R % size
  | .gotHead tail head held =>
    tail = R % size ∧
      ∃ k, R ≤ k ∧ k ≤ xs.length ∧ k < R + size ∧ head = k % size ∧ held = k - R
  | .copied tail v => tail = R % size ∧ xs[R]? = some v
  | _ => True

structure RingInv (size : Nat) (s : RingSys α) : Prop where
  size_eq : s.ring.size = size
  length : s.ring.buf.length = size
  fifo : FifoRun (size - 1) s.trace s.queue
  head : s.ring.head = s.pushed.length % size
  tail : s.ring.tail = s.popped.length % size
  slots : ∀ k, s.popped.length ≤ k → k < s.pushed.length →
    s.ring.buf[k % size]? = s.pushed[k]?
  prod : ProdOk size s.pushed.length s.popped.length s.ring.buf s.prod
  cons : ConsOk size s.popped.length s.pushed s.cons
  accepted : s.pushed = s.accepted ++ returning s
  fulls : ∀ held ∈ s.fulls, held = size - 1
  empties : ∀ held ∈ s.empties, held = 0

section
variable {size : Nat}

theorem queue_eq_nil_iff {s : RingSys α} : s.queue = [] ↔ s.pushed.length ≤ s.popped.length :=
  List.drop_eq_nil_iff

/-- The counts, read off the queue. -/
theorem RingInv.counts {s : RingSys α} (hi : RingInv size s) :
    s.pushed = s.popped ++ s.queue ∧ s.pushed.length = s.popped.length + s.queue.length ∧
      s.queue.length ≤ size - 1 := by
  have hc : s.pushed = s.popped ++ s.queue := hi.fifo.conserve
  refine ⟨hc, ?_, hi.fifo.length_le⟩
  have := congrArg List.length hc
  rwa [List.length_append] at this

/-- A stale `tail` stays safe while the consumer pops. -/
theorem ProdOk.mono {P R R' : Nat} {buf : List α} {pc : PushPc α} (h : ProdOk size P R buf pc)
    (hR : R ≤ R') : ProdOk size P R' buf pc := by
  cases pc with
  | gotTail v head next tail held =>
    obtain ⟨h₁, h₂, k, hk, hrest⟩ := h
    exact ⟨h₁, h₂, k, hk.trans hR, hrest⟩
  | wrote v next =>
    obtain ⟨h₁, h₂, h₃⟩ := h
    exact ⟨h₁, by omega, h₃⟩
  | _ => exact h

/-- A stale `head` stays safe while the producer pushes. -/
theorem ConsOk.mono {R : Nat} {xs : List α} {pc : PopPc α} (h : ConsOk size R xs pc) (v : α) :
    ConsOk size R (xs ++ [v]) pc := by
  cases pc with
  | gotHead tail head held =>
    obtain ⟨h₁, k, hk, hle, hrest⟩ := h
    refine ⟨h₁, k, hk, ?_, hrest⟩
    rw [List.length_append]
    omega
  | copied tail w =>
    obtain ⟨h₁, h₂⟩ := h
    refine ⟨h₁, ?_⟩
    rw [List.getElem?_append_left (List.getElem?_eq_some_iff.mp h₂).1]
    exact h₂
  | _ => exact h

/-! ## The start -/

theorem ringInv_start (size : Nat) (zero : α) :
    RingInv size (ringStart ⟨List.replicate size zero, size, 0, 0, 0⟩) where
  size_eq := rfl
  length := by simp [ringStart]
  fifo := FifoRun.nil
  head := by simp [ringStart, RingSys.pushed, enqs]
  tail := by simp [ringStart, RingSys.popped, deqs]
  slots := by simp [ringStart, RingSys.pushed, enqs]
  prod := trivial
  cons := trivial
  accepted := rfl
  fulls := by simp [ringStart]
  empties := by simp [ringStart]

/-! ## The producer -/

/-- The next index, with no wrap-around of the sum. -/
theorem next_eq {ring : SpscRing α} {i : Nat} (hsize : 0 < size) (hlt : size < 2 ^ 32)
    (heq : ring.size = size) : ring.next (i % size) = (i + 1) % size := by
  unfold SpscRing.next
  have : i % size < size := Nat.mod_lt _ hsize
  rw [heq, Nat.mod_eq_of_lt (by omega : i % size + 1 < 2 ^ 32), succ_mod_mod]

/-- `next == tail` is found exactly if the queue was full when `tail` was read. -/
theorem full_iff {P k : Nat} (hk : k ≤ P) (hlt : P < k + size) :
    (P + 1) % size = k % size ↔ P + 1 = k + size := by
  constructor
  · intro h
    by_contra hne
    have := (mod_eq_iff_of_window (show k ≤ P + 1 by omega) (by omega)).mp h.symm
    omega
  · intro h
    rw [h, Nat.add_mod_right]

/-- The store of `head`: the queue has one more value. -/
theorem RingInv.storeHead {s : RingSys α} {v : α} {next : Nat} (hi : RingInv size s)
    (hpc : s.prod = .wrote v next) :
    RingInv size { s with
      ring := { s.ring with head := next }
      prod := .ret v true
      trace := s.trace ++ [.enq v] } := by
  obtain ⟨hcat, hlen, hcap⟩ := hi.counts
  have hp := hi.prod
  rw [hpc] at hp
  obtain ⟨hnext, hroom, hslot⟩ := hp
  have hacc := hi.accepted
  simp only [returning, hpc, List.append_nil] at hacc
  generalize hs' : ({ s with
      ring := { s.ring with head := next }
      prod := .ret v true
      trace := s.trace ++ [.enq v] } : RingSys α) = s'
  have hP : s'.pushed = s.pushed ++ [v] := by
    rw [← hs']
    exact enqs_snoc_enq s.trace v
  have hR : s'.popped = s.popped := by
    rw [← hs']
    exact deqs_snoc_enq s.trace v
  have hQ : s'.queue = s.queue ++ [v] := by
    unfold RingSys.queue
    rw [hP, hR, List.drop_append_of_le_length (by omega)]
  have hbuf : s'.ring.buf = s.ring.buf := by rw [← hs']
  refine ⟨?_, ?_, ?_, ?_, ?_, fun k hk hkP => ?_, ?_, ?_, ?_, ?_, ?_⟩
  · rw [← hs']
    exact hi.size_eq
  · rw [hbuf]
    exact hi.length
  · rw [hQ, ← hs']
    exact hi.fifo.snoc (FifoStep.enq (by omega))
  · rw [hP, List.length_append, ← hs']
    exact hnext
  · rw [hR, ← hs']
    exact hi.tail
  · rw [hR] at hk
    rw [hP, List.length_append, List.length_singleton] at hkP
    rw [hbuf, hP]
    -- the new slot is the one the producer has just written
    by_cases hlast : k = s.pushed.length
    · rw [hlast, hslot, List.getElem?_concat_length]
    · rw [List.getElem?_append_left (by omega)]
      exact hi.slots k hk (by omega)
  · rw [← hs']
    trivial
  · -- one push more leaves what a consumer has read in its place
    rw [hR, hP, ← hs']
    exact hi.cons.mono v
  · rw [hP, hacc, ← hs']
    rfl
  · rw [← hs']
    exact hi.fulls
  · rw [← hs']
    exact hi.empties

/-- **Every step of a push keeps the invariant.** -/
theorem RingInv.pushStep {s s' : RingSys α} (hsize : 2 ≤ size) (hlt : size < 2 ^ 32)
    (hi : RingInv size s) (h : pushStep s = some s') : RingInv size s' := by
  obtain ⟨hcat, hlen, hcap⟩ := hi.counts
  have hp := hi.prod
  have hacc := hi.accepted
  cases pushStep_move h with
  | loadHead hpc =>
    simp only [returning, hpc] at hacc
    exact { hi with prod := hi.head, accepted := hacc }
  | @loadTail v head hpc =>
    simp only [returning, hpc] at hacc
    rw [hpc] at hp
    have hp : head = s.pushed.length % size := hp
    refine { hi with prod := ⟨hp, ?_, s.popped.length, le_rfl, ?_, ?_, hi.tail, ?_⟩
                     accepted := hacc }
    · rw [hp]
      exact next_eq (by omega) hlt hi.size_eq
    · show s.popped.length ≤ s.pushed.length
      omega
    · show s.pushed.length < s.popped.length + size
      omega
    · show s.queue.length = s.pushed.length - s.popped.length
      omega
  | full hpc heq =>
    rw [hpc] at hp
    simp only [returning, hpc] at hacc
    obtain ⟨hhead, hnext, k, hkR, hkP, hwin, htail, hheld⟩ := hp
    have hPk := (full_iff hkP hwin).mp (hnext.symm.trans (heq.trans htail))
    refine { hi with prod := trivial, fulls := ?_, accepted := hacc }
    intro n hn
    rcases List.mem_append.mp hn with hn | hn
    · exact hi.fulls n hn
    · rw [List.mem_singleton.mp hn]
      omega
  | @write v head next tail held hpc hne =>
    rw [hpc] at hp
    simp only [returning, hpc] at hacc
    obtain ⟨hhead, hnext, k, hkR, hkP, hwin, htail, hheld⟩ := hp
    have hne' : s.pushed.length + 1 ≠ k + size := fun he =>
      hne (hnext.trans (((full_iff hkP hwin).mpr he).trans htail.symm))
    have hroom : s.pushed.length + 1 < s.popped.length + size := by omega
    refine { hi with length := ?_, slots := ?_, prod := ⟨hnext, hroom, ?_⟩, accepted := hacc }
    · rw [List.length_set]
      exact hi.length
    · intro j (hj : s.popped.length ≤ j) (hjP : j < s.pushed.length)
      -- the slot written is not one of the window
      have hmod : s.pushed.length % size ≠ j % size := fun he => by
        have := (mod_eq_iff_of_window (Nat.le_of_lt hjP) (by omega)).mp he.symm
        omega
      show (s.ring.buf.set head v)[j % size]? = s.pushed[j]?
      rw [hhead, List.getElem?_set_ne hmod]
      exact hi.slots j hj hjP
    · show (s.ring.buf.set head v)[s.pushed.length % size]? = some v
      rw [hhead, List.getElem?_set_self]
      rw [hi.length]
      exact Nat.mod_lt _ (by omega)
  | storeHead hpc => exact hi.storeHead hpc

/-! ## The consumer -/

/-- The store of `tail`: the queue has lost its first value. -/
theorem RingInv.storeTail {s : RingSys α} {v : α} {tail : Nat} (hsize : 2 ≤ size)
    (hlt : size < 2 ^ 32) (hi : RingInv size s) (hpc : s.cons = .copied tail v) :
    RingInv size { s with
      ring := { s.ring with tail := s.ring.next tail }
      cons := .ret (some v)
      trace := s.trace ++ [.deq v] } := by
  obtain ⟨hcat, hlen, hcap⟩ := hi.counts
  have hc := hi.cons
  rw [hpc] at hc
  obtain ⟨htail, hget⟩ := hc
  have hlt' : s.popped.length < s.pushed.length := (List.getElem?_eq_some_iff.mp hget).1
  generalize hs' : ({ s with
      ring := { s.ring with tail := s.ring.next tail }
      cons := .ret (some v)
      trace := s.trace ++ [.deq v] } : RingSys α) = s'
  have hP : s'.pushed = s.pushed := by
    rw [← hs']
    exact enqs_snoc_deq s.trace v
  have hR : s'.popped = s.popped ++ [v] := by
    rw [← hs']
    exact deqs_snoc_deq s.trace v
  have hlenR : s'.popped.length = s.popped.length + 1 := by simp [hR]
  have hQ : s.queue = v :: s'.queue := by
    unfold RingSys.queue
    rw [hP, hlenR, List.drop_eq_getElem_cons hlt']
    rw [List.getElem?_eq_getElem hlt', Option.some.injEq] at hget
    rw [hget]
  refine ⟨?_, ?_, ?_, ?_, ?_, fun k hk hkP => ?_, ?_, ?_, ?_, ?_, ?_⟩
  · rw [← hs']
    exact hi.size_eq
  · rw [← hs']
    exact hi.length
  · have hf := hi.fifo
    rw [hQ] at hf
    have htr : s'.trace = s.trace ++ [.deq v] := by rw [← hs']
    rw [htr]
    exact hf.snoc FifoStep.deq
  · rw [hP, ← hs']
    exact hi.head
  · rw [hlenR, ← hs']
    show s.ring.next tail = _
    rw [htail]
    exact next_eq (by omega) hlt hi.size_eq
  · rw [hlenR] at hk
    rw [hP] at hkP ⊢
    rw [← hs']
    exact hi.slots k (by omega) hkP
  · -- one pop more makes more room for a producer that has read an older `tail`
    rw [hP, hlenR, ← hs']
    exact hi.prod.mono (Nat.le_succ _)
  · rw [← hs']
    trivial
  · rw [hP, ← hs']
    exact hi.accepted
  · rw [← hs']
    exact hi.fulls
  · rw [← hs']
    exact hi.empties

/-- **Every step of a pop keeps the invariant.** -/
theorem RingInv.popStep {s s' : RingSys α} (hsize : 2 ≤ size) (hlt : size < 2 ^ 32)
    (hi : RingInv size s) (h : popStep s = some s') : RingInv size s' := by
  obtain ⟨hcat, hlen, hcap⟩ := hi.counts
  have hc := hi.cons
  cases popStep_move h with
  | popTail hpc => exact { hi with cons := hi.tail }
  | popHead hpc =>
    rw [hpc] at hc
    refine { hi with cons := ⟨hc, s.pushed.length, ?_, le_rfl, ?_, hi.head, ?_⟩ }
    · show s.popped.length ≤ s.pushed.length
      omega
    · show s.pushed.length < s.popped.length + size
      omega
    · show s.queue.length = s.pushed.length - s.popped.length
      omega
  | empty hpc heq =>
    rw [hpc] at hc
    obtain ⟨htail, k, hRk, hkP, hwin, hhead, hheld⟩ := hc
    have hk := (mod_eq_iff_of_window hRk hwin).mp (htail.symm.trans (heq.trans hhead))
    refine { hi with cons := trivial, empties := ?_ }
    intro n hn
    rcases List.mem_append.mp hn with hn | hn
    · exact hi.empties n hn
    · rw [List.mem_singleton.mp hn]
      omega
  | @copy tail head held v hpc hne hv =>
    rw [hpc] at hc
    obtain ⟨htail, k, hRk, hkP, hwin, hhead, hheld⟩ := hc
    have hne' : s.popped.length ≠ k := fun he =>
      hne (htail.trans (((mod_eq_iff_of_window hRk hwin).mpr he).trans hhead.symm))
    refine { hi with cons := ⟨htail, ?_⟩ }
    show s.pushed[s.popped.length]? = some v
    rw [← hi.slots s.popped.length le_rfl (by omega), ← htail]
    exact hv
  | storeTail hpc => exact hi.storeTail hsize hlt hpc

/-! ## Every step, every run -/

theorem RingInv.step (hsize : 2 ≤ size) (hlt : size < 2 ^ 32) (s : RingSys α) (a : RingAct α)
    (s' : RingSys α) (hi : RingInv size s) (h : ringStep s a = some s') : RingInv size s' := by
  have hacc := hi.accepted
  cases a with
  | push => exact hi.pushStep hsize hlt h
  | pop => exact hi.popStep hsize hlt h
  | callPush v =>
    cases ringStep_move h with
    | callPush hpc =>
      simp only [returning, hpc] at hacc
      exact { hi with prod := trivial, accepted := hacc }
  | retPush =>
    cases ringStep_move h with
    | @retPush v ok hpc =>
      simp only [returning, hpc] at hacc
      refine { hi with prod := trivial, accepted := ?_ }
      cases ok with
      | true => exact hacc.trans (List.append_nil _).symm
      | false => exact hacc
  | callPop =>
    cases ringStep_move h with
    | callPop hpc => exact { hi with cons := trivial }
  | retPop =>
    cases ringStep_move h with
    | retPop hpc => exact { hi with cons := trivial }

theorem ringInv_init {ring : SpscRing α} {zero : α} (h : spscRingInit size zero = some ring) :
    RingInv size (ringStart ring) := by
  unfold spscRingInit at h
  split at h
  · cases h
  · cases h
    exact ringInv_start size zero

theorem ringInv_run {ring : SpscRing α} {zero : α} {acts : List (RingAct α)} {s : RingSys α}
    (hsize : 2 ≤ size) (hlt : size < 2 ^ 32) (hinit : spscRingInit size zero = some ring)
    (h : run ringStep (ringStart ring) acts = some s) : RingInv size s :=
  run_inv (RingInv.step hsize hlt) (ringInv_init hinit) h

/-! ## The occupancy -/

/-- Two counts less than a window apart, read back from their remainders. -/
theorem ringCount_window {P R : Nat} (hsize : 0 < size) (hlt : size < 2 ^ 32) (hle : R ≤ P)
    (hwin : P < R + size) : ringCount size (P % size) (R % size) = P - R := by
  have hP := Nat.mod_add_div P size
  have hR := Nat.mod_add_div R size
  have hPlt := Nat.mod_lt P hsize
  have hRlt := Nat.mod_lt R hsize
  have hquot : P / size = R / size ∨ P / size = R / size + 1 := by
    have h1 : R / size ≤ P / size := Nat.div_le_div_right hle
    have h2 : P / size < R / size + 2 := by
      rw [Nat.div_lt_iff_lt_mul hsize, Nat.add_mul, Nat.mul_comm (R / size)]
      omega
    omega
  unfold ringCount
  rcases hquot with hq | hq
  · rw [hq] at hP
    rw [if_pos (by omega)]
    omega
  · rw [hq, Nat.mul_add, Nat.mul_one] at hP
    rw [if_neg (by omega)]
    have hinner : (size + 2 ^ 32 - R % size) % 2 ^ 32 = size - R % size := by omega
    rw [hinner, Nat.mod_eq_of_lt (by omega)]
    omega

/-- **The ring's own count is the length of its queue.** -/
theorem RingInv.count {s : RingSys α} (hsize : 2 ≤ size) (hlt : size < 2 ^ 32)
    (hi : RingInv size s) : spscRingCount s.ring = s.queue.length := by
  obtain ⟨_, hlength, hle⟩ := hi.counts
  unfold spscRingCount
  rw [hi.size_eq, hi.head, hi.tail, ringCount_window (by omega) hlt (by omega) (by omega)]
  omega

/-! ## What each thread leaves to the other -/

theorem pushStep_frame {s s' : RingSys α} (h : pushStep s = some s') :
    s'.cons = s.cons ∧ s'.popped = s.popped ∧
      (s'.pushed = s.pushed ∨ ∃ v next, s.prod = .wrote v next ∧ s'.pushed = s.pushed ++ [v]) := by
  cases pushStep_move h with
  | loadHead hpc => exact ⟨rfl, rfl, Or.inl rfl⟩
  | loadTail hpc => exact ⟨rfl, rfl, Or.inl rfl⟩
  | full hpc heq => exact ⟨rfl, rfl, Or.inl rfl⟩
  | write hpc hne => exact ⟨rfl, rfl, Or.inl rfl⟩
  | @storeHead v next hpc =>
    exact ⟨rfl, deqs_snoc_enq s.trace v, Or.inr ⟨v, next, hpc, enqs_snoc_enq s.trace v⟩⟩

/-- The actions of the producer's thread. -/
def isProducer : RingAct α → Bool
  | .callPush _ => true
  | .push => true
  | .retPush => true
  | _ => false

/-- **The producer takes nothing out**, and puts a value in only at its store of `head`. -/
theorem producer_frame {s s' : RingSys α} {a : RingAct α} (ha : isProducer a = true)
    (h : ringStep s a = some s') :
    s'.cons = s.cons ∧ s'.popped = s.popped ∧
      (s'.pushed = s.pushed ∨
        a = .push ∧ ∃ v next, s.prod = .wrote v next ∧ s'.pushed = s.pushed ++ [v]) := by
  cases a with
  | push =>
    obtain ⟨hc, hp, hw⟩ := pushStep_frame h
    exact ⟨hc, hp, hw.imp_right fun hw => ⟨rfl, hw⟩⟩
  | callPush v =>
    cases ringStep_move h with
    | callPush hpc => exact ⟨rfl, rfl, Or.inl rfl⟩
  | retPush =>
    cases ringStep_move h with
    | retPush hpc => exact ⟨rfl, rfl, Or.inl rfl⟩
  | _ => cases ha

/-- The value a pop has taken out and not yet returned. -/
def returned (s : RingSys α) : List α :=
  match s.cons with
  | .ret (some v) => [v]
  | _ => []

theorem popStep_frame {s s' : RingSys α} (h : popStep s = some s') :
    s'.prod = s.prod ∧ s'.pushed = s.pushed ∧ s'.popped = s.popped ++ returned s' := by
  cases popStep_move h with
  | popTail hpc => exact ⟨rfl, rfl, (List.append_nil _).symm⟩
  | popHead hpc => exact ⟨rfl, rfl, (List.append_nil _).symm⟩
  | empty hpc heq => exact ⟨rfl, rfl, (List.append_nil _).symm⟩
  | copy hpc hne hv => exact ⟨rfl, rfl, (List.append_nil _).symm⟩
  | @storeTail tail v hpc =>
    exact ⟨rfl, enqs_snoc_deq s.trace v, deqs_snoc_deq s.trace v⟩

/-- A pop in progress has nothing to return yet. -/
theorem returned_of_popStep {s s' : RingSys α} (h : popStep s = some s') : returned s = [] := by
  unfold EdgeFlow.popStep at h
  unfold returned
  cases hpc : s.cons with
  | ret v => simp [hpc] at h
  | _ => rfl

/-! ## What the invariant says to a client -/

theorem RingInv.index_lt {s : RingSys α} (hi : RingInv size s) (hsize : 0 < size) :
    ∀ i ∈ ringIndices s, i < size := by
  have hp := hi.prod
  have hc := hi.cons
  have hmod : ∀ n, n % size < size := fun n => Nat.mod_lt n hsize
  intro i hm
  simp only [ringIndices, List.mem_append, List.mem_cons, List.not_mem_nil, or_false] at hm
  rcases hm with ((rfl | rfl) | hm) | hm
  · exact hi.head ▸ hmod _
  · exact hi.tail ▸ hmod _
  · cases hpc : s.prod with
    | gotHead v head =>
      rw [hpc] at hm hp
      obtain rfl : i = head := by simpa using hm
      exact hp ▸ hmod _
    | gotTail v head next tail held =>
      rw [hpc] at hm hp
      obtain ⟨h₁, h₂, k, -, -, -, h₃, -⟩ := hp
      have hm : i = head ∨ i = next ∨ i = tail := by simpa using hm
      rcases hm with rfl | rfl | rfl
      · exact h₁ ▸ hmod _
      · exact h₂ ▸ hmod _
      · exact h₃ ▸ hmod _
    | wrote v next =>
      rw [hpc] at hm hp
      obtain rfl : i = next := by simpa using hm
      exact hp.1 ▸ hmod _
    | _ => simp [hpc] at hm
  · cases hpc : s.cons with
    | gotTail tail =>
      rw [hpc] at hm hc
      obtain rfl : i = tail := by simpa using hm
      exact hc ▸ hmod _
    | gotHead tail head held =>
      rw [hpc] at hm hc
      obtain ⟨h₁, k, -, -, -, h₂, -⟩ := hc
      have hm : i = tail ∨ i = head := by simpa using hm
      rcases hm with rfl | rfl
      · exact h₁ ▸ hmod _
      · exact h₂ ▸ hmod _
    | copied tail v =>
      rw [hpc] at hm hc
      obtain rfl : i = tail := by simpa using hm
      exact hc.1 ▸ hmod _
    | _ => simp [hpc] at hm

/-- The slot about to be written is the one after the window, with room left in the ring. -/
theorem RingInv.writeSlot_eq {s : RingSys α} {i : Nat} (hi : RingInv size s)
    (h : writeSlot s = some i) :
    i = s.pushed.length % size ∧ s.pushed.length + 1 < s.popped.length + size := by
  have hp := hi.prod
  cases hpc : s.prod with
  | gotTail v head next tail held =>
    rw [hpc] at hp
    obtain ⟨hhead, hnext, k, hkR, hkP, hwin, htail, -⟩ := hp
    simp only [writeSlot, hpc] at h
    by_cases heq : next = tail
    · simp [heq] at h
    · rw [if_neg heq, Option.some.injEq] at h
      have hne : s.pushed.length + 1 ≠ k + size := fun he =>
        heq (hnext.trans (((full_iff hkP hwin).mpr he).trans htail.symm))
      exact ⟨h ▸ hhead, by omega⟩
  | _ => simp [writeSlot, hpc] at h

/-- The slot being read is the first of the window, which is not empty. -/
theorem RingInv.readSlot_eq {s : RingSys α} {j : Nat} (hi : RingInv size s)
    (h : readSlot s = some j) :
    j = s.popped.length % size ∧ s.popped.length < s.pushed.length := by
  have hc := hi.cons
  cases hpc : s.cons with
  | gotHead tail head held =>
    rw [hpc] at hc
    obtain ⟨htail, k, hRk, hkP, hwin, hhead, -⟩ := hc
    simp only [readSlot, hpc] at h
    by_cases heq : tail = head
    · simp [heq] at h
    · rw [if_neg heq, Option.some.injEq] at h
      have hne : s.popped.length ≠ k := fun he =>
        heq (htail.trans (((mod_eq_iff_of_window hRk hwin).mpr he).trans hhead.symm))
      exact ⟨h ▸ htail, by omega⟩
  | copied tail v =>
    rw [hpc] at hc
    simp only [readSlot, hpc, Option.some.injEq] at h
    exact ⟨h ▸ hc.1, (List.getElem?_eq_some_iff.mp hc.2).1⟩
  | _ => simp [readSlot, hpc] at h

/-- **The ring refines a bounded FIFO queue.** In every state of every run of one producer and
    one consumer: the operations that have taken effect are a run of a queue of capacity
    `size - 1`, so what was popped is a prefix of what was pushed, and what was pushed is what
    the pushes that returned `true` pushed; every index is below `size`, so the buffer is not
    left and no sum wraps; the producer is never about to write the slot the consumer holds; and
    a call that returned `false` found the queue full, or empty, at its second load. -/
theorem ring_refines_fifo (size : Nat) (hsize : 2 ≤ size) (hlt : size < 2 ^ 32) (zero : α)
    (ring : SpscRing α) (hinit : spscRingInit size zero = some ring) (acts : List (RingAct α))
    (s : RingSys α) (h : run ringStep (ringStart ring) acts = some s) :
    FifoRun (size - 1) s.trace s.queue ∧
    s.popped <+: s.pushed ∧
    s.pushed = s.accepted ++ returning s ∧
    s.queue.length ≤ size - 1 ∧
    s.ring.buf.length = size ∧
    (∀ i ∈ ringIndices s, i < size ∧ i + 1 < 2 ^ 32) ∧
    (∀ i j, writeSlot s = some i → readSlot s = some j → i ≠ j) ∧
    (∀ held ∈ s.fulls, held = size - 1) ∧
    (∀ held ∈ s.empties, held = 0) := by
  have hi : RingInv size s := ringInv_run hsize hlt hinit h
  obtain ⟨hcat, hlen, hcap⟩ := hi.counts
  refine ⟨hi.fifo, ⟨_, hcat.symm⟩, hi.accepted, hcap, hi.length, fun i hm => ?_,
    fun i j hw hr heq => ?_, hi.fulls, hi.empties⟩
  · have := hi.index_lt (by omega) i hm
    exact ⟨this, by omega⟩
  · obtain ⟨hi₁, hroom⟩ := hi.writeSlot_eq hw
    obtain ⟨hj₁, hne⟩ := hi.readSlot_eq hr
    have := (mod_eq_iff_of_window (Nat.le_of_lt hne) (by omega)).mp
      (hj₁.symm.trans (heq.symm.trans hi₁))
    omega

end

/-- Two pushes into a ring of two slots: the second finds it full. -/
def fullRun : List (RingAct Nat) :=
  [.callPush 7, .push, .push, .push, .push, .retPush, .callPush 8, .push, .push, .push]

def fullState : RingSys Nat :=
  ⟨⟨[7, 0], 2, 1, 0, 1⟩, .ret 8 false, .idle, [.enq 7], [7], [1], []⟩

theorem ring_refines_fifo_full :
    run ringStep (ringStart ⟨[0, 0], 2, 0, 0, 0⟩) fullRun = some fullState ∧
      fullState.popped <+: fullState.pushed ∧ (∀ held ∈ fullState.fulls, held = 2 - 1) := by
  have hrun : run ringStep (ringStart ⟨[0, 0], 2, 0, 0, 0⟩) fullRun = some fullState := by
    rfl
  obtain ⟨-, hpre, -, -, -, -, -, hf, -⟩ :=
    ring_refines_fifo 2 le_rfl (by decide) 0 ⟨[0, 0], 2, 0, 0, 0⟩ rfl fullRun fullState hrun
  exact ⟨hrun, hpre, hf⟩

end Proof
end EdgeFlow
