import Mathlib.Data.List.Basic

/-!
# Runs of a labelled transition function

A concurrent program is a function `step : σ → ℓ → Option σ`: a label says which thread
moves and what its environment answered, and `none` says that the thread cannot make that
move now (a lock is taken, or the program counter is elsewhere). A *run* is a list of
labels, so "for every interleaving" is a quantifier over lists, and a counterexample is
one list that evaluates.

`run_inv` is the induction every safety proof uses. `Along` restricts the induction to the
runs whose every step meets a condition on the state before it — the form a property takes
when it holds of a program only under a restriction on the schedule.
-/

set_option autoImplicit false

namespace EdgeFlow
namespace Lib

variable {σ ℓ : Type*}

/-- The state a run ends in, or `none` if some label was not enabled. -/
def run (step : σ → ℓ → Option σ) : σ → List ℓ → Option σ
  | s, [] => some s
  | s, l :: ls => (step s l).bind fun s' => run step s' ls

/-- Every step of the run meets `ok` in the state it is taken from. -/
def Along (step : σ → ℓ → Option σ) (ok : σ → ℓ → Prop) : σ → List ℓ → Prop
  | _, [] => True
  | s, l :: ls => ok s l ∧ ∀ s', step s l = some s' → Along step ok s' ls

variable {step : σ → ℓ → Option σ}

theorem run_cons_eq_some {s s'' : σ} {l : ℓ} {ls : List ℓ} :
    run step s (l :: ls) = some s'' ↔ ∃ s', step s l = some s' ∧ run step s' ls = some s'' := by
  simp only [run, Option.bind_eq_some_iff]

theorem run_append (s : σ) (ls ls' : List ℓ) :
    run step s (ls ++ ls') = (run step s ls).bind fun t => run step t ls' := by
  induction ls generalizing s with
  | nil => rfl
  | cons l ls ih =>
    simp only [List.cons_append, run, Option.bind_assoc]
    congr 1
    funext t
    exact ih t

/-- A step that is always enabled runs as a fold. -/
theorem run_some (f : σ → ℓ → σ) :
    ∀ (ls : List ℓ) (s : σ), run (fun s l => some (f s l)) s ls = some (ls.foldl f s) := by
  intro ls
  induction ls with
  | nil =>
    intro s
    rfl
  | cons l ls ih =>
    intro s
    exact ih (f s l)

/-- A condition that the labels alone meet. -/
theorem along_of_forall {ok : σ → ℓ → Prop} :
    ∀ {ls : List ℓ} {s : σ}, (∀ l ∈ ls, ∀ s, ok s l) → Along step ok s ls := by
  intro ls
  induction ls with
  | nil =>
    intro s _
    trivial
  | cons l ls ih =>
    intro s h
    exact ⟨h l (List.mem_cons_self ..) s,
      fun s' _ => ih fun l' hl' => h l' (List.mem_cons_of_mem _ hl')⟩

/-- `Along` for a condition that can be evaluated. -/
def alongB (step : σ → ℓ → Option σ) (ok : σ → ℓ → Bool) : σ → List ℓ → Bool
  | _, [] => true
  | s, l :: ls => ok s l && (step s l).all fun s' => alongB step ok s' ls

theorem along_of_alongB {ok : σ → ℓ → Bool} :
    ∀ {ls : List ℓ} {s : σ}, alongB step ok s ls = true →
      Along step (fun s l => ok s l = true) s ls := by
  intro ls
  induction ls with
  | nil =>
    intro s _
    trivial
  | cons l ls ih =>
    intro s h
    obtain ⟨hok, hrest⟩ := Bool.and_eq_true_iff.mp h
    refine ⟨hok, fun s' hs => ih ?_⟩
    rw [hs] at hrest
    exact hrest

theorem Along.and {ok ok' : σ → ℓ → Prop} :
    ∀ {ls : List ℓ} {s : σ}, Along step ok s ls → Along step ok' s ls →
      Along step (fun s l => ok s l ∧ ok' s l) s ls := by
  intro ls
  induction ls with
  | nil =>
    intro s _ _
    trivial
  | cons l ls ih =>
    intro s h h'
    exact ⟨⟨h.1, h'.1⟩, fun s' hs => ih (h.2 s' hs) (h'.2 s' hs)⟩

theorem Along.imp {ok ok' : σ → ℓ → Prop} (himp : ∀ s l, ok s l → ok' s l) :
    ∀ {ls : List ℓ} {s : σ}, Along step ok s ls → Along step ok' s ls := by
  intro ls
  induction ls with
  | nil =>
    intro s _
    trivial
  | cons l ls ih =>
    intro s h
    exact ⟨himp s l h.1, fun s' hs => ih (h.2 s' hs)⟩

theorem Along.append {ok : σ → ℓ → Prop} {ls' : List ℓ} :
    ∀ {ls : List ℓ} {s t : σ}, Along step ok s ls → run step s ls = some t →
      Along step ok t ls' → Along step ok s (ls ++ ls') := by
  intro ls
  induction ls with
  | nil =>
    intro s t _ hr h'
    obtain rfl := Option.some.inj hr
    exact h'
  | cons l ls ih =>
    intro s t h hr h'
    obtain ⟨u, hu, hr⟩ := run_cons_eq_some.mp hr
    refine ⟨h.1, fun s' hs => ?_⟩
    rw [hu, Option.some.injEq] at hs
    subst hs
    exact ih (h.2 u hu) hr h'

/-- **What every step preserves, every run preserves.** -/
theorem run_inv {I : σ → Prop} (hstep : ∀ s l s', I s → step s l = some s' → I s') :
    ∀ {ls : List ℓ} {s s' : σ}, I s → run step s ls = some s' → I s' := by
  intro ls
  induction ls with
  | nil =>
    intro s s' hs hr
    simp only [run, Option.some.injEq] at hr
    exact hr ▸ hs
  | cons l ls ih =>
    intro s s'' hs hr
    obtain ⟨s', h1, h2⟩ := run_cons_eq_some.mp hr
    exact ih (hstep s l s' hs h1) h2

/-- The same, over the runs whose steps all meet a condition. -/
theorem run_inv_along {I : σ → Prop} {ok : σ → ℓ → Prop}
    (hstep : ∀ s l s', I s → ok s l → step s l = some s' → I s') :
    ∀ {ls : List ℓ} {s s' : σ}, I s → Along step ok s ls → run step s ls = some s' → I s' := by
  intro ls
  induction ls with
  | nil =>
    intro s s' hs _ hr
    simp only [run, Option.some.injEq] at hr
    exact hr ▸ hs
  | cons l ls ih =>
    intro s s'' hs ha hr
    obtain ⟨s', h1, h2⟩ := run_cons_eq_some.mp hr
    exact ih (hstep s l s' hs ha.1 h1) (ha.2 s' h1) h2

/-- A run that avoids the lasting effect of every step outside a condition has only steps inside
    it. -/
theorem along_of_run {I Bad : σ → Prop} {ok : σ → ℓ → Prop}
    (hinv : ∀ s l s', I s → step s l = some s' → I s')
    (hbad : ∀ s l s', I s → ¬ok s l → step s l = some s' → Bad s')
    (hkeep : ∀ s l s', Bad s → step s l = some s' → Bad s') :
    ∀ {ls : List ℓ} {s s' : σ}, I s → run step s ls = some s' → ¬Bad s' → Along step ok s ls := by
  intro ls
  induction ls with
  | nil =>
    intro s s' _ _ _
    trivial
  | cons l ls ih =>
    intro s s'' hs hr hnb
    obtain ⟨s', h1, h2⟩ := run_cons_eq_some.mp hr
    refine ⟨?_, fun t ht => ?_⟩
    · by_contra hok
      exact hnb (run_inv hkeep (hbad s l s' hs hok h1) h2)
    · rw [h1, Option.some.injEq] at ht
      subst ht
      exact ih (hinv s l s' hs h1) h2 hnb

/-- A relation between states that every step respects relates the two ends of a run. -/
theorem run_rel {R : σ → σ → Prop} (hrefl : ∀ s, R s s)
    (htrans : ∀ a b c, R a b → R b c → R a c)
    (hstep : ∀ s l s', step s l = some s' → R s s') :
    ∀ {ls : List ℓ} {s s' : σ}, run step s ls = some s' → R s s' := by
  intro ls s s' hr
  exact run_inv (I := R s) (fun t l t' ht h => htrans s t t' ht (hstep t l t' h)) (hrefl s) hr

/-- A measure that no step of a run raises, and every step of a kind lowers, bounds how many of
    that kind there are. -/
theorem run_countP_le (I : σ → Prop) (kind : ℓ → Bool) (m : σ → Nat)
    (hinv : ∀ s l s', I s → step s l = some s' → I s')
    (hle : ∀ s l s', I s → step s l = some s' → m s' ≤ m s)
    (hlt : ∀ s l s', I s → step s l = some s' → kind l = true → m s' < m s) :
    ∀ {ls : List ℓ} {s s' : σ}, I s → run step s ls = some s' →
      ls.countP kind + m s' ≤ m s := by
  intro ls
  induction ls with
  | nil =>
    intro s s' _ hr
    simp only [run, Option.some.injEq] at hr
    simp [hr]
  | cons l ls ih =>
    intro s s'' hs hr
    obtain ⟨s', h1, h2⟩ := run_cons_eq_some.mp hr
    have hrest := ih (hinv s l s' hs h1) h2
    have hdown := hle s l s' hs h1
    rw [List.countP_cons]
    split
    case isTrue hkind =>
      have := hlt s l s' hs h1 hkind
      omega
    case isFalse => omega

/-! ## The states on the way -/

/-- The run leads from `s` to the last state, no label is refused, and every state on the way,
    both ends included, meets `P`. -/
def Through (step : σ → ℓ → Option σ) (P : σ → Prop) : σ → List ℓ → σ → Prop
  | s, [], s' => P s ∧ s = s'
  | s, l :: ls, s' => P s ∧ ∃ t, step s l = some t ∧ Through step P t ls s'

theorem Through.append {P : σ → Prop} :
    ∀ {ls ls' : List ℓ} {s t s' : σ}, Through step P s ls t → Through step P t ls' s' →
      Through step P s (ls ++ ls') s' := by
  intro ls
  induction ls with
  | nil =>
    intro ls' s t s' h h'
    obtain ⟨_, rfl⟩ := h
    exact h'
  | cons l ls ih =>
    intro ls' s t s' h h'
    obtain ⟨hp, u, hu, hr⟩ := h
    exact ⟨hp, u, hu, ih hr h'⟩

theorem Through.run {P : σ → Prop} :
    ∀ {ls : List ℓ} {s s' : σ}, Through step P s ls s' → Lib.run step s ls = some s' := by
  intro ls
  induction ls with
  | nil =>
    intro s s' h
    exact congrArg some h.2
  | cons l ls ih =>
    intro s s' h
    obtain ⟨_, t, ht, hr⟩ := h
    exact run_cons_eq_some.mpr ⟨t, ht, ih hr⟩

/-- What holds on the way holds after every beginning of the run. -/
theorem Through.of_isPrefix {P : σ → Prop} :
    ∀ {ls : List ℓ} {s s' : σ}, Through step P s ls s' → ∀ pre, pre <+: ls →
      ∃ t, Lib.run step s pre = some t ∧ P t := by
  intro ls
  induction ls with
  | nil =>
    intro s s' h pre hpre
    rw [List.prefix_nil.mp hpre]
    exact ⟨s, rfl, h.1⟩
  | cons l ls ih =>
    intro s s' h pre hpre
    obtain ⟨hp, u, hu, hr⟩ := h
    rcases List.prefix_cons_iff.mp hpre with rfl | ⟨pre', rfl, hpre'⟩
    · exact ⟨s, rfl, hp⟩
    · obtain ⟨t, ht, hPt⟩ := ih hr pre' hpre'
      exact ⟨t, run_cons_eq_some.mpr ⟨u, hu, ht⟩, hPt⟩

end Lib
end EdgeFlow
