import EdgeFlow.Lib.Run

/-!
# Custody of resources in a program with threads

A program opens resources, lets its threads use them, closes them, and joins its threads. What it
does is a list of events, and `check` runs the list through a book that says what is open and
where each thread is; a list that breaks a rule does not go through. The rules: a resource is
opened when it is closed and closed when it is open; only a thread that is alive uses one, and
only one that is open; a shared resource is closed, and the program returns, only when every
thread there was has been joined; a thread is joined once, after it has finished.

`disciplined_of_check` says what going through means in terms of the list alone.
-/

set_option autoImplicit false

namespace EdgeFlow
namespace Lib
namespace Custody

/-- `R` are the resources and `T` the threads; a use by `none` is one by the main program. -/
inductive Event (R T : Type) where
  | opened (r : R)
  | closed (r : R)
  | used (t : Option T) (r : R)
  | created (t : T)
  | finished (t : T)
  | joined (t : T)
  | returned (code : Int)
  deriving DecidableEq

inductive Status where
  | absent | alive | finished | joined
  deriving DecidableEq, Repr

/-- What is open, where the threads are, and the code the program has returned. -/
structure Book (R T : Type) where
  held : R → Bool
  status : T → Status
  code : Option Int

/-- Nothing is open and no thread is there. -/
def bookStart (R T : Type) : Book R T where
  held _ := false
  status _ := .absent
  code := none

section
variable {R T : Type} [DecidableEq R] [DecidableEq T]

/-- No thread is alive or waits to be joined. -/
def Book.alone (threads : List T) (b : Book R T) : Bool :=
  threads.all fun t => b.status t == .absent || b.status t == .joined

variable (threads : List T) (shared : R → Bool)

/-- One event; `none` is one that breaks a rule. -/
def check (b : Book R T) (e : Event R T) : Option (Book R T) :=
  if b.code.isSome then none
  else
    match e with
    | .opened r =>
      if b.held r then none else some { b with held := Function.update b.held r true }
    | .closed r =>
      if b.held r && (!shared r || b.alone threads) then
        some { b with held := Function.update b.held r false }
      else none
    | .used t r =>
      if b.held r && (t.map b.status).all (· == .alive) then some b else none
    | .created t =>
      if b.status t = .absent then some { b with status := Function.update b.status t .alive }
      else none
    | .finished t =>
      if b.status t = .alive then some { b with status := Function.update b.status t .finished }
      else none
    | .joined t =>
      if b.status t = .finished then some { b with status := Function.update b.status t .joined }
      else none
    | .returned code => if b.alone threads then some { b with code := some code } else none

/-! ## What the book says about the list -/

/-- How often each thing has happened, as the book has it. -/
structure Agrees (b : Book R T) (log : List (Event R T)) : Prop where
  held : ∀ r, log.count (.opened r) = log.count (.closed r) + if b.held r then 1 else 0
  created : ∀ t, log.count (.created t) = if b.status t = .absent then 0 else 1
  finished : ∀ t, log.count (.finished t) =
    if b.status t = .finished ∨ b.status t = .joined then 1 else 0
  joined : ∀ t, log.count (.joined t) = if b.status t = .joined then 1 else 0

theorem agrees_start : Agrees (bookStart R T) [] where
  held _ := rfl
  created _ := rfl
  finished _ := rfl
  joined _ := rfl

theorem check_code {b b' : Book R T} {e : Event R T} (h : check threads shared b e = some b') :
    b.code = none := by
  cases hcode : b.code with
  | none => rfl
  | some code => simp [check, hcode] at h

/-- What an event needs of the book, and what it makes of it. -/
theorem check_cases {b b' : Book R T} {e : Event R T} (h : check threads shared b e = some b') :
    (∃ r, e = .opened r ∧ b.held r = false ∧
      b' = { b with held := Function.update b.held r true }) ∨
    (∃ r, e = .closed r ∧ b.held r = true ∧ (shared r = true → b.alone threads = true) ∧
      b' = { b with held := Function.update b.held r false }) ∨
    (∃ t r, e = .used t r ∧ b.held r = true ∧ (∀ u, t = some u → b.status u = .alive) ∧ b' = b) ∨
    (∃ t, e = .created t ∧ b.status t = .absent ∧
      b' = { b with status := Function.update b.status t .alive }) ∨
    (∃ t, e = .finished t ∧ b.status t = .alive ∧
      b' = { b with status := Function.update b.status t .finished }) ∨
    (∃ t, e = .joined t ∧ b.status t = .finished ∧
      b' = { b with status := Function.update b.status t .joined }) ∨
    (∃ code, e = .returned code ∧ b.alone threads = true ∧ b' = { b with code := some code }) := by
  have hcode := check_code threads shared h
  cases e with
  | opened r => simp_all [check]
  | closed r => simp_all [check]; grind
  | used t r => simp_all [check]; grind
  | created t => simp_all [check]
  | finished t => simp_all [check]
  | joined t => simp_all [check]
  | returned code => simp_all [check]

/-- A resource changes hands: the event is counted, and nothing else. -/
theorem Agrees.turn {b : Book R T} {log : List (Event R T)} (ha : Agrees b log) (r : R)
    (now : Bool) (hr : b.held r = !now) :
    Agrees { b with held := Function.update b.held r now }
      (log ++ [if now then .opened r else .closed r]) where
  held r' := by
    have hold := ha.held r'
    by_cases hrr : r = r'
    · subst hrr
      cases now with
      | false =>
        simp [hr] at hold ⊢
        omega
      | true =>
        simp [hr] at hold ⊢
        omega
    · cases now with
      | false => simp [Function.update_of_ne (Ne.symm hrr), hold, hrr]
      | true => simp [Function.update_of_ne (Ne.symm hrr), hold, hrr]
  created t := by cases now <;> simpa using ha.created t
  finished t := by cases now <;> simpa using ha.finished t
  joined t := by cases now <;> simpa using ha.joined t

/-- A thread moves on: its own counts follow its status, the others stay. -/
theorem Agrees.move {b : Book R T} {log : List (Event R T)} (ha : Agrees b log) {t : T}
    {e : Event R T} {now : Status}
    (h : (e = .created t ∧ b.status t = .absent ∧ now = .alive) ∨
      (e = .finished t ∧ b.status t = .alive ∧ now = .finished) ∨
      (e = .joined t ∧ b.status t = .finished ∧ now = .joined)) :
    Agrees { b with status := Function.update b.status t now } (log ++ [e]) := by
  obtain ⟨hheld, hcreated, hfinished, hjoined⟩ := ha
  rcases h with ⟨rfl, ht, rfl⟩ | ⟨rfl, ht, rfl⟩ | ⟨rfl, ht, rfl⟩
  all_goals
    refine ⟨by simpa using hheld, ?_, ?_, ?_⟩
    all_goals
      intro u
      by_cases htu : t = u
      · subst htu
        simp [hcreated, hfinished, hjoined, ht]
      · simp [Function.update_of_ne (Ne.symm htu), hcreated, hfinished, hjoined, htu]

/-- One event keeps the book right. -/
theorem Agrees.step {b b' : Book R T} {e : Event R T} {log : List (Event R T)}
    (ha : Agrees b log) (h : check threads shared b e = some b') : Agrees b' (log ++ [e]) := by
  rcases check_cases threads shared h with ⟨r, rfl, hr, rfl⟩ | ⟨r, rfl, hr, -, rfl⟩ |
    ⟨t, r, rfl, -, -, rfl⟩ | ⟨t, rfl, ht, rfl⟩ | ⟨t, rfl, ht, rfl⟩ | ⟨t, rfl, ht, rfl⟩ |
    ⟨code, rfl, -, rfl⟩
  · exact ha.turn r true hr
  · exact ha.turn r false hr
  · exact ⟨by simpa using ha.held, by simpa using ha.created, by simpa using ha.finished,
      by simpa using ha.joined⟩
  · exact ha.move (Or.inl ⟨rfl, ht, rfl⟩)
  · exact ha.move (Or.inr (Or.inl ⟨rfl, ht, rfl⟩))
  · exact ha.move (Or.inr (Or.inr ⟨rfl, ht, rfl⟩))
  · exact ⟨by simpa using ha.held, by simpa using ha.created, by simpa using ha.finished,
      by simpa using ha.joined⟩

theorem Agrees.run {log : List (Event R T)} : ∀ {past : List (Event R T)} {b b' : Book R T},
    Agrees b past → run (check threads shared) b log = some b' → Agrees b' (past ++ log) := by
  induction log with
  | nil =>
    intro past b b' ha h
    cases h
    rwa [List.append_nil]
  | cons e log ih =>
    intro past b b' ha h
    obtain ⟨b₁, hcheck, hrest⟩ := run_cons_eq_some.mp h
    have hlog := ih (ha.step threads shared hcheck) hrest
    rwa [List.append_assoc] at hlog

/-- The book of a list that goes through counts its events. -/
theorem agrees_of_run {log : List (Event R T)} {b : Book R T}
    (h : Lib.run (check threads shared) (bookStart R T) log = some b) : Agrees b log :=
  agrees_start.run threads shared h

/-! ## The rules, read off the list -/

/-- What the rules mean for a list of events, at every point of it. -/
structure Disciplined (log : List (Event R T)) : Prop where
  /-- What is opened is not open. -/
  opens : ∀ past r rest, log = past ++ .opened r :: rest →
    past.count (.opened r) = past.count (.closed r)
  /-- What is closed is open, and if it is shared every thread there was has been joined. -/
  closes : ∀ past r rest, log = past ++ .closed r :: rest →
    past.count (.opened r) = past.count (.closed r) + 1 ∧
      (shared r = true → ∀ t ∈ threads, past.count (.created t) = past.count (.joined t))
  /-- What is used is open, and the thread that uses it is there and has not finished. -/
  uses : ∀ past t r rest, log = past ++ .used t r :: rest →
    past.count (.opened r) = past.count (.closed r) + 1 ∧
      ∀ u, t = some u → past.count (.created u) = 1 ∧ past.count (.finished u) = 0
  /-- A thread is created once, and joined once, after it has finished. -/
  threads_once : ∀ t, log.count (.created t) ≤ 1 ∧ log.count (.joined t) ≤ log.count (.finished t) ∧
    log.count (.finished t) ≤ log.count (.created t)
  /-- The program returns last, with no thread left. -/
  returns : ∀ past code rest, log = past ++ .returned code :: rest →
    rest = [] ∧ ∀ t ∈ threads, past.count (.created t) = past.count (.joined t)

/-- A list that goes through does so up to each of its events. -/
theorem run_at {past rest : List (Event R T)} {e : Event R T} {b : Book R T}
    (h : Lib.run (check threads shared) (bookStart R T) (past ++ e :: rest) = some b) :
    ∃ b₁ b₂, Agrees b₁ past ∧ check threads shared b₁ e = some b₂ ∧
      Lib.run (check threads shared) b₂ rest = some b := by
  rw [run_append, Option.bind_eq_some_iff] at h
  obtain ⟨b₁, hpast, hrest⟩ := h
  obtain ⟨b₂, hcheck, hlast⟩ := run_cons_eq_some.mp hrest
  exact ⟨b₁, b₂, agrees_of_run threads shared hpast, hcheck, hlast⟩

/-- With no thread about, every thread created has been joined. -/
theorem Agrees.alone {b : Book R T} {log : List (Event R T)} (ha : Agrees b log)
    (h : b.alone threads = true) :
    ∀ t ∈ threads, log.count (.created t) = log.count (.joined t) := by
  intro t ht
  have hstatus : b.status t = .absent ∨ b.status t = .joined := by
    simpa using List.all_eq_true.mp h t ht
  rw [ha.created, ha.joined]
  rcases hstatus with hs | hs
  · simp [hs]
  · simp [hs]

/-- **A list that goes through keeps the rules at every point.** -/
theorem disciplined_of_check {log : List (Event R T)} {b : Book R T}
    (h : Lib.run (check threads shared) (bookStart R T) log = some b) :
    Disciplined threads shared log where
  opens := by
    intro past r rest hlog
    subst hlog
    obtain ⟨b₁, b₂, ha, hcheck, -⟩ := run_at threads shared h
    have hr := ha.held r
    rcases check_cases threads shared hcheck with ⟨r', he, hfree, -⟩ | ⟨r', he, -⟩ |
      ⟨t, r', he, -⟩ | ⟨t, he, -⟩ | ⟨t, he, -⟩ | ⟨t, he, -⟩ | ⟨code, he, -⟩ <;> cases he
    simpa [hfree] using hr
  closes := by
    intro past r rest hlog
    subst hlog
    obtain ⟨b₁, b₂, ha, hcheck, -⟩ := run_at threads shared h
    have hr := ha.held r
    rcases check_cases threads shared hcheck with ⟨r', he, -⟩ | ⟨r', he, hopen, halone, -⟩ |
      ⟨t, r', he, -⟩ | ⟨t, he, -⟩ | ⟨t, he, -⟩ | ⟨t, he, -⟩ | ⟨code, he, -⟩ <;> cases he
    refine ⟨by simpa [hopen] using hr, ?_⟩
    intro hshared
    exact ha.alone threads (halone hshared)
  uses := by
    intro past t r rest hlog
    subst hlog
    obtain ⟨b₁, b₂, ha, hcheck, -⟩ := run_at threads shared h
    have hr := ha.held r
    rcases check_cases threads shared hcheck with ⟨r', he, -⟩ | ⟨r', he, -⟩ |
      ⟨t', r', he, hopen, halive, -⟩ | ⟨t, he, -⟩ | ⟨t, he, -⟩ | ⟨t, he, -⟩ | ⟨code, he, -⟩ <;>
      cases he
    refine ⟨by simpa [hopen] using hr, ?_⟩
    intro u hu
    rw [ha.created, ha.finished, halive u hu]
    exact ⟨rfl, rfl⟩
  threads_once := by
    intro t
    have ha := agrees_of_run threads shared h
    rw [ha.created, ha.finished, ha.joined]
    cases b.status t <;> decide
  returns := by
    intro past code rest hlog
    subst hlog
    obtain ⟨b₁, b₂, ha, hcheck, hrest⟩ := run_at threads shared h
    rcases check_cases threads shared hcheck with ⟨r', he, -⟩ | ⟨r', he, -⟩ | ⟨t, r', he, -⟩ |
      ⟨t, he, -⟩ | ⟨t, he, -⟩ | ⟨t, he, -⟩ | ⟨code', he, halone, rfl⟩ <;> cases he
    refine ⟨?_, ha.alone threads halone⟩
    cases rest with
    | nil => rfl
    | cons e rest =>
      obtain ⟨b₃, hnext, -⟩ := run_cons_eq_some.mp hrest
      cases check_code threads shared hnext

end

end Custody
end Lib
end EdgeFlow
