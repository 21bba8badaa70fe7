import Mathlib.Logic.Basic

/-!
# Programs over a state that may stop early, and their triples

`Prog σ ε α` is sequential code over a state `σ`: it returns an `α`, or it stops for a reason
`ε` — and either way it leaves a state behind. The last part is the point. A process killed
in the middle of a call, or a call that has not returned yet, has already changed the world,
and a statement about *every* state the world can be in has to cover those two.

`Triple P x Q E` is the corresponding assertion: from a state satisfying `P`, a return
satisfies `Q` and a stop satisfies `E`. Code is verified by composing the rules below along
its `do` block; a function's own triple is cited at its call sites and the function is not
unfolded again.
-/

set_option autoImplicit false

namespace EdgeFlow
namespace Lib

variable {σ ε α β : Type}

def Prog (σ ε α : Type) : Type := σ → Except ε α × σ

namespace Prog

def ret (a : α) : Prog σ ε α := fun s => (.ok a, s)

def andThen (x : Prog σ ε α) (f : α → Prog σ ε β) : Prog σ ε β := fun s =>
  match x s with
  | (.ok a, s') => f a s'
  | (.error e, s') => (.error e, s')

instance : Monad (Prog σ ε) where
  pure := ret
  bind := andThen

def get : Prog σ ε σ := fun s => (.ok s, s)

def modify (f : σ → σ) : Prog σ ε Unit := fun s => (.ok (), f s)

def stop (e : ε) : Prog σ ε α := fun s => (.error e, s)

/-- A program over one part of a larger state; the rest stays as it is. -/
def focus {τ : Type} (get : σ → τ) (set : τ → σ → σ) (x : Prog τ ε α) : Prog σ ε α := fun s =>
  match x (get s) with
  | (.ok a, t) => (.ok a, set t s)
  | (.error e, t) => (.error e, set t s)

/-- What a program that returned returned, with the state; `none` if it stopped. -/
def result (x : Prog σ ε α) (s : σ) : Option (α × σ) :=
  match x s with
  | (.ok a, s') => some (a, s')
  | (.error _, _) => none

/-! A primitive is verified by running it: these unfold a `do` block on a given state. -/

@[simp] theorem pure_apply (a : α) (s : σ) : (pure a : Prog σ ε α) s = (.ok a, s) := rfl

@[simp] theorem get_apply (s : σ) : (get : Prog σ ε σ) s = (.ok s, s) := rfl

@[simp] theorem modify_apply (f : σ → σ) (s : σ) :
    (modify f : Prog σ ε Unit) s = (.ok (), f s) := rfl

@[simp] theorem stop_apply (e : ε) (s : σ) : (stop e : Prog σ ε α) s = (.error e, s) := rfl

theorem bind_apply (x : Prog σ ε α) (f : α → Prog σ ε β) (s : σ) :
    (x >>= f) s = match x s with
      | (.ok a, s') => f a s'
      | (.error e, s') => (.error e, s') := rfl

theorem bind_apply_ok {x : Prog σ ε α} {a : α} {s s' : σ} (h : x s = (.ok a, s'))
    (f : α → Prog σ ε β) : (x >>= f) s = f a s' := by
  rw [bind_apply, h]

theorem bind_apply_error {x : Prog σ ε α} {e : ε} {s s' : σ} (h : x s = (.error e, s'))
    (f : α → Prog σ ε β) : (x >>= f) s = (.error e, s') := by
  rw [bind_apply, h]

theorem apply_of_result {x : Prog σ ε α} {s s' : σ} {a : α} (h : x.result s = some (a, s')) :
    x s = (.ok a, s') := by
  unfold result at h
  rcases hx : x s with ⟨_ | b, t⟩ <;> rw [hx] at h
  · cases h
  · cases h
    rfl

end Prog

/-! ## Triples -/

def Triple (P : σ → Prop) (x : Prog σ ε α) (Q : α → σ → Prop) (E : ε → σ → Prop) : Prop :=
  ∀ s, P s → match x s with
    | (.ok a, s') => Q a s'
    | (.error e, s') => E e s'

namespace Triple

variable {P P' : σ → Prop} {Q Q' : α → σ → Prop} {E E' : ε → σ → Prop}

theorem pure {a : α} (h : ∀ s, P s → Q a s) : Triple P (Pure.pure a : Prog σ ε α) Q E :=
  fun s hs => h s hs

theorem stop {e : ε} (h : ∀ s, P s → E e s) : Triple P (Prog.stop e : Prog σ ε α) Q E :=
  fun s hs => h s hs

theorem modify {f : σ → σ} {Q : Unit → σ → Prop} (h : ∀ s, P s → Q () (f s)) :
    Triple P (Prog.modify f : Prog σ ε Unit) Q E :=
  fun s hs => h s hs

theorem bind {x : Prog σ ε α} {f : α → Prog σ ε β} {R : β → σ → Prop}
    (hx : Triple P x Q E) (hf : ∀ a, Triple (Q a) (f a) R E) : Triple P (x >>= f) R E := by
  intro s hs
  have h := hx s hs
  show match Prog.andThen x f s with
    | (.ok b, s') => R b s'
    | (.error e, s') => E e s'
  unfold Prog.andThen
  rcases hxs : x s with ⟨_ | a, s'⟩
  · simpa [hxs] using h
  · rw [hxs] at h
    exact hf a s' h

/-- Read the state, then go on knowing it. -/
theorem get_bind {f : σ → Prog σ ε β} {R : β → σ → Prop}
    (h : ∀ s₀, P s₀ → Triple (fun s => s = s₀) (f s₀) R E) :
    Triple P (Prog.get >>= f) R E := by
  intro s hs
  exact h s hs s rfl

theorem conseq {x : Prog σ ε α} (h : Triple P' x Q' E') (hP : ∀ s, P s → P' s)
    (hQ : ∀ a s, Q' a s → Q a s) (hE : ∀ e s, E' e s → E e s) : Triple P x Q E := by
  intro s hs
  have := h s (hP s hs)
  rcases hx : x s with ⟨_ | a, s'⟩ <;> rw [hx] at this
  · exact hE _ _ this
  · exact hQ _ _ this

theorem post {x : Prog σ ε α} (h : Triple P x Q' E) (hQ : ∀ a s, Q' a s → Q a s) :
    Triple P x Q E :=
  h.conseq (fun _ h => h) hQ fun _ _ h => h

theorem pre {x : Prog σ ε α} (h : Triple P' x Q E) (hP : ∀ s, P s → P' s) : Triple P x Q E :=
  h.conseq hP (fun _ _ h => h) fun _ _ h => h

theorem halts {x : Prog σ ε α} (h : Triple P x Q E') (hE : ∀ e s, E' e s → E e s) :
    Triple P x Q E :=
  h.conseq (fun _ h => h) (fun _ _ h => h) hE

/-- Two triples of one program. -/
theorem and {x : Prog σ ε α} (h : Triple P x Q E) (h' : Triple P x Q' E') :
    Triple P x (fun a s => Q a s ∧ Q' a s) (fun e s => E e s ∧ E' e s) := by
  intro s hs
  have hx := h s hs
  have hx' := h' s hs
  rcases hr : x s with ⟨_ | a, s'⟩ <;> rw [hr] at hx hx'
  · exact ⟨hx, hx'⟩
  · exact ⟨hx, hx'⟩

/-- From one state that satisfies the precondition. -/
theorem starting {x : Prog σ ε α} (h : Triple P x Q E) {s₀ : σ} (hs : P s₀) :
    Triple (fun s => s = s₀) x Q E :=
  h.pre fun _ he => he ▸ hs

/-- Name the state a program starts in. -/
theorem at_state {x : Prog σ ε α} (h : ∀ s₀, P s₀ → Triple (fun s => s = s₀) x Q E) :
    Triple P x Q E :=
  fun s hs => h s hs s rfl

/-- Sequencing for specifications that relate the last state to the first. -/
theorem bind_at {x : Prog σ ε α} {f : α → Prog σ ε β} {R : β → σ → Prop}
    (hx : Triple P x Q E) (hf : ∀ a s₁, Q a s₁ → Triple (fun s => s = s₁) (f a) R E) :
    Triple P (x >>= f) R E :=
  bind hx fun a => at_state (hf a)

/-- A part's program changes the part as its own triple says, and nothing else. -/
theorem focus {τ : Type} {get : σ → τ} {set : τ → σ → σ} {x : Prog τ ε α} {s₀ : σ}
    {Q : α → τ → Prop} {E : ε → τ → Prop} (h : Triple (fun t => t = get s₀) x Q E) :
    Triple (fun s => s = s₀) (Prog.focus get set x) (fun a s => ∃ t, Q a t ∧ s = set t s₀)
      (fun e s => ∃ t, E e t ∧ s = set t s₀) := by
  intro s hs
  subst hs
  have hx := h (get s) rfl
  unfold Prog.focus
  rcases hr : x (get s) with ⟨e | a, t⟩ <;> rw [hr] at hx
  · exact ⟨t, hx, rfl⟩
  · exact ⟨t, hx, rfl⟩

/-- What a triple says about a run that returned. -/
theorem of_result {x : Prog σ ε α} (h : Triple P x Q E) {s s' : σ} {a : α} (hs : P s)
    (hx : x.result s = some (a, s')) : Q a s' := by
  have := h s hs
  rwa [Prog.apply_of_result hx] at this

/-- A program that cannot stop early returns. -/
theorem exists_result {x : Prog σ ε α} (h : Triple P x Q fun _ _ => False) {s : σ} (hs : P s) :
    ∃ a s', x.result s = some (a, s') ∧ Q a s' := by
  have hx := h s hs
  unfold Prog.result
  rcases hr : x s with ⟨e | a, s'⟩ <;> rw [hr] at hx
  · exact absurd hx id
  · exact ⟨a, s', rfl, hx⟩

end Triple

/-! ## Invariants

The same assertion before and after; `E` is what a stop leaves. -/

def Keeps (I : σ → Prop) (E : ε → σ → Prop) (x : Prog σ ε α) : Prop := Triple I x (fun _ => I) E

namespace Keeps

variable {I : σ → Prop} {E : ε → σ → Prop}

theorem pure (a : α) : Keeps I E (Pure.pure a : Prog σ ε α) := Triple.pure fun _ h => h

theorem modify {f : σ → σ} (h : ∀ s, I s → I (f s)) :
    Keeps I E (Prog.modify f : Prog σ ε Unit) :=
  Triple.modify h

theorem bind {x : Prog σ ε α} {f : α → Prog σ ε β} (hx : Keeps I E x)
    (hf : ∀ a, Keeps I E (f a)) : Keeps I E (x >>= f) :=
  Triple.bind hx hf

/-- Read the state, then go on knowing that the assertion holds of it. -/
theorem get_bind {f : σ → Prog σ ε β} (hf : ∀ s, I s → Keeps I E (f s)) :
    Keeps I E (Prog.get >>= f) :=
  fun s hs => hf s hs s hs

theorem ite {x y : Prog σ ε α} {b : Bool} (hx : Keeps I E x) (hy : Keeps I E y) :
    Keeps I E (if b = true then x else y) := by
  split
  · exact hx
  · exact hy

end Keeps

/-! ## Simulation

A program over a larger state does to one part of it what a program over that part alone does.
The values may differ, as long as they are related. -/

def Mirrors {τ : Type} (part : σ → τ) (R : α → β → Prop) (y : Prog σ ε α) (x : Prog τ ε β) : Prop :=
  ∀ s, match y s, x (part s) with
    | (.ok a, s'), (.ok b, t) => R a b ∧ part s' = t
    | (.error e, s'), (.error e', t) => e = e' ∧ part s' = t
    | _, _ => False

namespace Mirrors

variable {τ γ δ : Type} {part : σ → τ} {R : α → β → Prop} {S : γ → δ → Prop}

theorem pure {a : α} {b : β} (h : R a b) :
    Mirrors part R (Pure.pure a : Prog σ ε α) (Pure.pure b : Prog τ ε β) :=
  fun _ => ⟨h, rfl⟩

theorem bind {y : Prog σ ε α} {x : Prog τ ε β} {g : α → Prog σ ε γ} {f : β → Prog τ ε δ}
    (h : Mirrors part R y x) (hgf : ∀ a b, R a b → Mirrors part S (g a) (f b)) :
    Mirrors part S (y >>= g) (x >>= f) := by
  intro s
  have hs := h s
  rw [Prog.bind_apply, Prog.bind_apply]
  rcases hy : y s with ⟨e | a, s'⟩ <;> rcases hx : x (part s) with ⟨e' | b, t⟩ <;>
    rw [hy, hx] at hs
  · exact hs
  · exact absurd hs id
  · exact absurd hs id
  · obtain ⟨hab, rfl⟩ := hs
    exact hgf a b hab s'

/-- What the part's program does alone, it does inside. -/
theorem focus {set : τ → σ → σ} (hset : ∀ t s, part (set t s) = t) (x : Prog τ ε α) :
    Mirrors part Eq (Prog.focus part set x) x := by
  intro s
  unfold Prog.focus
  rcases x (part s) with ⟨e | a, t⟩
  · exact ⟨rfl, hset t s⟩
  · exact ⟨rfl, hset t s⟩

/-- Steps on the rest of the state only. -/
theorem then_rest {y : Prog σ ε α} {x : Prog τ ε β} {g : α → Prog σ ε γ} {T : γ → β → Prop}
    (h : Mirrors part R y x)
    (hg : ∀ a b, R a b → ∀ s, ∃ c s', g a s = (.ok c, s') ∧ T c b ∧ part s' = part s) :
    Mirrors part T (y >>= g) x := by
  intro s
  have hs := h s
  rw [Prog.bind_apply]
  rcases hy : y s with ⟨e | a, s'⟩ <;> rcases hx : x (part s) with ⟨e' | b, t⟩ <;>
    rw [hy, hx] at hs
  · exact hs
  · exact absurd hs id
  · exact absurd hs id
  · obtain ⟨hab, rfl⟩ := hs
    obtain ⟨c, s'', hgs, hT, hpart⟩ := hg a b hab s'
    simp only [hgs]
    exact ⟨hT, hpart⟩

/-- When the whole returns, so does the part. -/
theorem returns {y : Prog σ ε α} {x : Prog τ ε β} (h : Mirrors part R y x) {s s' : σ} {a : α}
    (hy : y s = (.ok a, s')) : ∃ b, R a b ∧ x (part s) = (.ok b, part s') := by
  have hm := h s
  rcases hx : x (part s) with ⟨e | b, t⟩ <;> rw [hy, hx] at hm
  · exact absurd hm id
  · obtain ⟨hab, rfl⟩ := hm
    exact ⟨b, hab, rfl⟩

end Mirrors

end Lib
end EdgeFlow
