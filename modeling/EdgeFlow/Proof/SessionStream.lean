import EdgeFlow.Proof.MqttFrames

/-!
# What a session call does to the byte streams

The session's invariant, and one triple per function of `mqtt_session.c`.

Between calls (`Rest`) every connection but the session's own is closed, and the session's own
carries whole packets only. Inside a call two weaker states occur: a connection whose last
packet is cut (`Core` without `Healthy`), which the caller must close before it returns, and a
connection just opened, on which nothing has been sent. `Core s cur` is what all of them share;
`cur` is the connection that may still be open.

`After s₀ s xs` relates the state a call started in to any later one: closed connections keep
their bytes, the messages `xs` were sent, the configuration stays. The postconditions for a
call that does not return (`Stuck`) are as strong as that and `Core` allow, so the stream
results hold in the middle of a call too.
-/

set_option autoImplicit false

namespace EdgeFlow

open Lib

variable {V : Type}

/-- The bytes of a connection and whether this end has closed it. -/
def Net.view (s : Net V) (i : Nat) : Option (Bytes × Bool) :=
  s.conns[i]?.map fun c => (c.sent, c.closed)

/-- The sends that succeeded on one connection, in order. -/
def Net.sendsOn (s : Net V) (i : Nat) : List Sent :=
  s.sends.filterMap fun p => if p.1 = i then some p.2 else none

def Sent.isConnect : Sent → Bool
  | .connect _ _ => true
  | _ => false

/-- The successful sends but the CONNECTs, over all connections. -/
def Net.messages (s : Net V) : List Sent :=
  (s.sends.map Prod.snd).filter fun x => !x.isConnect

namespace Proof

/-- One CONNECT first, and none after it. -/
def Ordered : List Sent → Prop
  | [] => True
  | x :: xs => x.isConnect = true ∧ ∀ y ∈ xs, y.isConnect = false

/-- `bytes` are the packets of `xs`, each within its size limit, followed by `tail`: nothing,
    or a part of one more packet. -/
structure Stream (xs : List Sent) (bytes tail : Bytes) : Prop where
  split : bytes = (xs.map Sent.bytes).flatten ++ tail
  fits : ∀ x ∈ xs, x.fits = true
  ordered : Ordered xs
  cut : tail = [] ∨ ∃ x : Sent, x.fits = true ∧ Ordered (xs ++ [x]) ∧ tail <+: x.bytes ∧
    tail ≠ x.bytes

/-- What holds at every point: all streams are streams, and only `cur` may be open. -/
structure Core (s : Net V) (cur : Option Nat) : Prop where
  streams : ∀ i b cl, s.view i = some (b, cl) → ∃ tail, Stream (s.sendsOn i) b tail
  fresh : ∀ p ∈ s.sends, (s.view p.1).isSome
  others : ∀ i b cl, s.view i = some (b, cl) → cur ≠ some i → cl = true

/-- An open connection that carries whole packets only. -/
def Healthy (s : Net V) (i : Nat) : Prop :=
  ∃ b, s.view i = some (b, false) ∧ Stream (s.sendsOn i) b []

/-- The session between two calls. -/
structure Rest (s : Net V) : Prop where
  core : Core s s.fd
  live : ∀ i, s.fd = some i → Healthy s i ∧ s.sendsOn i ≠ []
  connected : s.connected = s.fd.isSome

/-- What no step undoes; `xs` are the messages sent meanwhile. -/
structure After (s₀ s : Net V) (xs : List Sent) : Prop where
  cfg : s.cfg = s₀.cfg
  frozen : ∀ i b, s₀.view i = some (b, true) → s.view i = some (b, true)
  messages : s.messages = s₀.messages ++ xs

/-- A call that has not returned: some connection may be open, everything else stands. -/
def Stuck (s₀ s : Net V) (xs : List Sent) : Prop := (∃ cur, Core s cur) ∧ After s₀ s xs

/-! ## Streams -/

theorem Ordered.snoc_of_not_connect {xs : List Sent} {x : Sent} (h : Ordered xs) (hne : xs ≠ [])
    (hx : x.isConnect = false) : Ordered (xs ++ [x]) := by
  cases xs with
  | nil => exact absurd rfl hne
  | cons y ys =>
    refine ⟨h.1, fun z hz => ?_⟩
    rcases List.mem_append.mp hz with hz | hz
    · exact h.2 z hz
    · rw [List.mem_singleton.mp hz]
      exact hx

theorem Stream.snoc {xs : List Sent} {b : Bytes} {x : Sent} (h : Stream xs b [])
    (hx : x.fits = true) (ho : Ordered (xs ++ [x])) : Stream (xs ++ [x]) (b ++ x.bytes) [] where
  split := by simp [h.split]
  fits := by
    intro y hy
    rcases List.mem_append.mp hy with hy | hy
    · exact h.fits y hy
    · rw [List.mem_singleton.mp hy]
      exact hx
  ordered := ho
  cut := Or.inl rfl

theorem Stream.cutOff {xs : List Sent} {b t : Bytes} {x : Sent} (h : Stream xs b [])
    (hx : x.fits = true) (ho : Ordered (xs ++ [x])) (ht : t <+: x.bytes) (hne : t ≠ x.bytes) :
    Stream xs (b ++ t) t where
  split := by simp [h.split]
  fits := h.fits
  ordered := h.ordered
  cut := Or.inr ⟨x, hx, ho, ht, hne⟩

theorem After.refl (s : Net V) : After s s [] := ⟨rfl, fun _ _ h => h, by simp⟩

theorem After.trans {a b c : Net V} {xs ys : List Sent} (h₁ : After a b xs) (h₂ : After b c ys) :
    After a c (xs ++ ys) :=
  ⟨h₂.cfg.trans h₁.cfg, fun i x h => h₂.frozen i x (h₁.frozen i x h), by
    rw [h₂.messages, h₁.messages, List.append_assoc]⟩

theorem After.then_quiet {a b c : Net V} {xs : List Sent} (h₁ : After a b xs) (h₂ : After b c []) :
    After a c xs := by
  have := h₁.trans h₂
  rwa [List.append_nil] at this

/-! ## Views -/

theorem view_modConn (s : Net V) (fd : Nat) (f : Conn → Conn) (i : Nat) :
    (s.modConn fd f).view i =
      if i = fd then s.conns[i]?.map (fun c => ((f c).sent, (f c).closed)) else s.view i := by
  unfold Net.modConn Net.view
  rw [List.getElem?_modify]
  by_cases h : i = fd
  · subst h
    simp only [if_true, Option.map_eq_map, Option.map_map]
    rfl
  · rw [if_neg h]
    simp [Ne.symm h]

theorem view_brokerMove (s : Net V) (fd : Nat) (resets : Bool) (i : Nat) :
    (brokerMove fd resets s).view i = s.view i := by
  unfold brokerMove
  split
  · rw [view_modConn]
    split <;> rfl
  · rfl

/-- Nothing but the event list, the broker's end and the records of calls has changed. -/
structure Same (s₀ s : Net V) : Prop where
  cfg : s.cfg = s₀.cfg
  fd_eq : s.fd = s₀.fd
  connected : s.connected = s₀.connected
  sends : s.sends = s₀.sends
  view : ∀ i, s.view i = s₀.view i

theorem Same.refl (s : Net V) : Same s s := ⟨rfl, rfl, rfl, rfl, fun _ => rfl⟩

theorem Same.logOp {s₀ s : Net V} (h : Same s₀ s) (op : SocketOp) (fd : Nat) :
    Same s₀ (s.logOp op fd) :=
  ⟨h.cfg, h.fd_eq, h.connected, h.sends, h.view⟩

/-! `Core`, `Healthy` and `After` read the connections and the log of sends, so they go over to
any state that agrees on those two. -/

section
variable {s₀ s : Net V} {cur : Option Nat} {i : Nat}

theorem sendsOn_congr (hs : s.sends = s₀.sends) (i : Nat) : s.sendsOn i = s₀.sendsOn i := by
  unfold Net.sendsOn
  rw [hs]

theorem Core.congr (hc : Core s₀ cur) (hs : s.sends = s₀.sends) (hv : ∀ i, s.view i = s₀.view i) :
    Core s cur := by
  refine ⟨fun i b cl h => ?_, fun p hp => ?_, fun i b cl h hi => ?_⟩
  · rw [sendsOn_congr hs]
    exact hc.streams i b cl (hv i ▸ h)
  · rw [hv]
    exact hc.fresh p (hs ▸ hp)
  · exact hc.others i b cl (hv i ▸ h) hi

theorem Healthy.congr (hh : Healthy s₀ i) (hs : s.sends = s₀.sends)
    (hv : ∀ i, s.view i = s₀.view i) : Healthy s i := by
  obtain ⟨b, hb, hst⟩ := hh
  exact ⟨b, (hv i).trans hb, sendsOn_congr hs i ▸ hst⟩

theorem After.of_congr (hcfg : s.cfg = s₀.cfg) (hs : s.sends = s₀.sends)
    (hv : ∀ i, s.view i = s₀.view i) : After s₀ s [] := by
  refine ⟨hcfg, fun i b h => (hv i).trans h, ?_⟩
  unfold Net.messages
  rw [hs, List.append_nil]

theorem Same.after (h : Same s₀ s) : After s₀ s [] := After.of_congr h.cfg h.sends h.view

end

/-- As `Same`, but `t` has been written on `fd`. -/
structure Wrote (s₀ s : Net V) (fd : Nat) (t : Bytes) : Prop where
  cfg : s.cfg = s₀.cfg
  fd_eq : s.fd = s₀.fd
  connected : s.connected = s₀.connected
  sends : s.sends = s₀.sends
  view : ∀ i, s.view i =
    if i = fd then (s₀.view i).map (fun v => (v.1 ++ t, v.2)) else s₀.view i

theorem Same.wrote {s₀ s : Net V} (h : Same s₀ s) (fd : Nat) : Wrote s₀ s fd [] := by
  refine ⟨h.cfg, h.fd_eq, h.connected, h.sends, fun i => ?_⟩
  rw [h.view]
  split
  · cases s₀.view i <;> simp
  · rfl

theorem Wrote.trans {a b c : Net V} {fd : Nat} {t u : Bytes} (h₁ : Wrote a b fd t)
    (h₂ : Wrote b c fd u) : Wrote a c fd (t ++ u) := by
  refine ⟨h₂.cfg.trans h₁.cfg, h₂.fd_eq.trans h₁.fd_eq, h₂.connected.trans h₁.connected,
    h₂.sends.trans h₁.sends, fun i => ?_⟩
  rw [h₂.view, h₁.view]
  split
  · cases a.view i <;> simp
  · rfl

theorem brokerMove_same (fd : Nat) (resets : Bool) (s : Net V) (evs : List Event) :
    Same s (brokerMove fd resets { s with events := evs }) := by
  refine ⟨?_, ?_, ?_, ?_, fun i => view_brokerMove _ _ _ _⟩
  all_goals unfold brokerMove Net.modConn; split <;> rfl

/-! ## System calls -/

theorem nextEvent_nil {s : Net V} (h : s.events = []) :
    (nextEvent : Sys V Event) s = (.error .blocked, s) := by
  simp [nextEvent, h]

theorem nextEvent_cons {s : Net V} {ev : Event} {evs : List Event} (h : s.events = ev :: evs) :
    (nextEvent : Sys V Event) s = (.ok ev, { s with events := evs }) := by
  simp [nextEvent, h]

/-- A call that only succeeds or fails uses up its answer. -/
theorem sysOk_events (s₀ : Net V) :
    Triple (fun s => s = s₀) sysOk (fun _ s => s = { s₀ with events := s.events })
      (fun _ s => s = s₀) := by
  rintro s rfl
  unfold sysOk
  rcases hev : s.events with _ | ⟨ev, evs⟩
  · rw [Prog.bind_apply_error (nextEvent_nil hev)]
  · rw [Prog.bind_apply_ok (nextEvent_cons hev)]
    rfl

theorem sysOk_spec (s₀ : Net V) :
    Triple (fun s => s = s₀) sysOk (fun _ s => Same s₀ s) (fun _ s => Same s₀ s) := by
  refine (sysOk_events s₀).conseq (fun _ h => h) (fun _ s h => ?_) fun _ s h => ?_
  · rw [h]
    exact ⟨rfl, rfl, rfl, rfl, fun _ => rfl⟩
  · rw [h]
    exact Same.refl s₀

theorem sysRead_spec (fd size : Nat) (s₀ : Net V) :
    Triple (fun s => s = s₀) (sysRead fd size) (fun _ s => Same s₀ s) (fun _ s => Same s₀ s) := by
  rintro s rfl
  unfold sysRead
  rcases hev : s.events with _ | ⟨ev, evs⟩
  · rw [Prog.bind_apply_error (nextEvent_nil hev)]
    exact Same.refl s
  · rw [Prog.bind_apply_ok (nextEvent_cons hev)]
    exact (brokerMove_same fd ev.resets s evs).logOp .read fd

theorem sysWrite_spec (fd : Nat) (buf : Bytes) (s₀ : Net V) :
    Triple (fun s => s = s₀) (sysWrite fd buf)
      (fun r s => match r with
        | .took n => Wrote s₀ s fd (buf.take n)
        | _ => Wrote s₀ s fd [])
      (fun _ s => Wrote s₀ s fd []) := by
  rintro s rfl
  unfold sysWrite
  rcases hev : s.events with _ | ⟨ev, evs⟩
  · rw [Prog.bind_apply_error (nextEvent_nil hev)]
    exact (Same.refl s).wrote fd
  rw [Prog.bind_apply_ok (nextEvent_cons hev)]
  have hb := (brokerMove_same fd ev.resets s evs).wrote fd
  simp only [Prog.bind_apply, Prog.modify_apply, Prog.get_apply]
  generalize brokerMove fd ev.resets { s with events := evs } = s₁ at hb ⊢
  have hw : Wrote s (s₁.logOp .wrote fd)
      fd [] := ⟨hb.cfg, hb.fd_eq, hb.connected, hb.sends, hb.view⟩
  split_ifs
  · exact hw
  · exact hw
  · cases ev.answer with
    | ok n data =>
      -- the bytes taken are appended on `fd` and nowhere else
      refine hw.trans (t := []) ⟨rfl, rfl, rfl, rfl, fun i => ?_⟩
      rw [view_modConn]
      split
      · unfold Net.view
        simp only [Option.map_map]
        rfl
      · rfl
    | eintr => exact hw
    | fail => exact hw

/-! ## The write loop -/

theorem prefix_take_append {l t : Bytes} {n : Nat} (h : t <+: l.drop n) : l.take n ++ t <+: l := by
  obtain ⟨u, hu⟩ := h
  exact ⟨u, by rw [List.append_assoc, hu, List.take_append_drop]⟩

theorem take_append_eq_iff (n : Nat) (l t : Bytes) : l.take n ++ t = l ↔ t = l.drop n := by
  constructor
  · intro h
    exact List.append_cancel_left (h.trans (List.take_append_drop n l).symm)
  · rintro rfl
    exact List.take_append_drop n l

/-- Some of `buf` has been written, and all of it exactly if the loop returned `0`. -/
theorem writeLoop_spec (fd : Nat) : ∀ (fuel : Nat) (buf : Bytes) (s₀ : Net V),
    Triple (fun s => s = s₀) (writeLoop fd fuel buf)
      (fun r s => ∃ t, t <+: buf ∧ (r = true ↔ t = buf) ∧ Wrote s₀ s fd t)
      (fun _ s => ∃ t, t <+: buf ∧ t ≠ buf ∧ Wrote s₀ s fd t) := by
  intro fuel
  induction fuel with
  | zero =>
    intro buf s₀
    cases buf with
    | nil =>
      rintro s rfl
      exact ⟨[], List.prefix_rfl, by simp, (Same.refl s).wrote fd⟩
    | cons b bs =>
      rintro s rfl
      exact ⟨[], List.nil_prefix, by simp, (Same.refl s).wrote fd⟩
  | succ fuel ih =>
    intro buf s₀
    cases buf with
    | nil =>
      rintro s rfl
      exact ⟨[], List.prefix_rfl, by simp, (Same.refl s).wrote fd⟩
    | cons b bs =>
      have hw := sysWrite_spec fd (b :: bs) s₀
      refine Triple.bind (hw.halts fun _ s h =>
        ⟨[], List.nil_prefix, by simp, h⟩) fun r => ?_
      cases r with
      | took n =>
        -- the rest of the buffer goes through the same loop
        refine Triple.at_state fun s₁ h₁ => (ih ((b :: bs).drop n) s₁).conseq (fun _ h => h) ?_ ?_
        · rintro r s ⟨t, ht, hr, hwr⟩
          exact ⟨_, prefix_take_append ht, hr.trans (take_append_eq_iff n _ t).symm, h₁.trans hwr⟩
        · rintro e s ⟨t, ht, hne, hwr⟩
          exact ⟨_, prefix_take_append ht, fun h => hne ((take_append_eq_iff n _ t).mp h),
            h₁.trans hwr⟩
      | eintr =>
        refine Triple.at_state fun s₁ h₁ => (ih (b :: bs) s₁).conseq (fun _ h => h) ?_ ?_
        · rintro r s ⟨t, ht, hr, hwr⟩
          exact ⟨t, ht, hr, h₁.trans hwr⟩
        · rintro e s ⟨t, ht, hne, hwr⟩
          exact ⟨t, ht, hne, h₁.trans hwr⟩
      | error => exact Triple.pure fun s h => ⟨[], List.nil_prefix, by simp, h⟩

theorem mqttWriteAll_spec (fd : Nat) (buf : Bytes) (s₀ : Net V) :
    Triple (fun s => s = s₀) (mqttWriteAll fd buf)
      (fun r s => ∃ t, t <+: buf ∧ (r = true ↔ t = buf) ∧ Wrote s₀ s fd t)
      (fun _ s => ∃ t, t <+: buf ∧ t ≠ buf ∧ Wrote s₀ s fd t) :=
  Triple.get_bind fun s h => h ▸ writeLoop_spec fd _ buf s

/-! ## Sending -/

/-- `x` has gone out whole on `fd`. -/
structure SentOn (s₀ s : Net V) (fd : Nat) (x : Sent) : Prop where
  cfg : s.cfg = s₀.cfg
  fd_eq : s.fd = s₀.fd
  connected : s.connected = s₀.connected
  fits : x.fits = true
  sends : s.sends = s₀.sends ++ [(fd, x)]
  view : ∀ i, s.view i =
    if i = fd then (s₀.view i).map (fun v => (v.1 ++ x.bytes, v.2)) else s₀.view i

/-- A send of `x` on `fd` has failed, or has not finished. -/
def CutOn (s₀ s : Net V) (fd : Nat) (x : Sent) : Prop :=
  ∃ t, Wrote s₀ s fd t ∧ (t = [] ∨ x.fits = true ∧ t <+: x.bytes ∧ t ≠ x.bytes)

theorem mqttSend_spec (fd : Nat) (x : Sent) (s₀ : Net V) :
    Triple (fun s => s = s₀) (mqttSend fd x)
      (fun r s => if r then SentOn s₀ s fd x else CutOn s₀ s fd x)
      (fun _ s => CutOn s₀ s fd x) := by
  unfold mqttSend
  by_cases hf : x.fits = true
  · rw [if_pos hf]
    refine Triple.bind ((mqttWriteAll_spec fd x.bytes s₀).halts ?_)
      fun r => ?_
    · rintro e s ⟨t, ht, hne, hw⟩
      exact ⟨t, hw, Or.inr ⟨hf, ht, hne⟩⟩
    cases r with
    | true =>
      refine Triple.bind (Q := fun _ s => SentOn s₀ s fd x) (Triple.modify ?_) fun _ =>
        Triple.pure fun s h => h
      rintro s ⟨t, ht, hr, hw⟩
      have htx : t = x.bytes := hr.mp rfl
      subst htx
      exact ⟨hw.cfg, hw.fd_eq, hw.connected, hf, by simp [hw.sends], hw.view⟩
    | false =>
      refine Triple.pure ?_
      rintro s ⟨t, ht, hr, hw⟩
      exact ⟨t, hw, Or.inr ⟨hf, ht, fun h => Bool.noConfusion (hr.mpr h)⟩⟩
  · rw [if_neg hf]
    refine Triple.pure ?_
    rintro s rfl
    exact ⟨[], (Same.refl s).wrote fd, Or.inl rfl⟩

/-! ## What the connections look like after a send -/

theorem sendsOn_append (s₀ s : Net V) (fd : Nat) (x : Sent) (h : s.sends = s₀.sends ++ [(fd, x)])
    (i : Nat) : s.sendsOn i = if i = fd then s₀.sendsOn i ++ [x] else s₀.sendsOn i := by
  unfold Net.sendsOn
  rw [h, List.filterMap_append]
  by_cases hi : i = fd
  · simp [hi]
  · simp [hi, Ne.symm hi]

theorem view_isSome_of_append {v : Option (Bytes × Bool)} (t : Bytes) (c : Prop) [Decidable c]
    (h : v.isSome) : (if c then v.map (fun v => (v.1 ++ t, v.2)) else v).isSome := by
  split
  · simpa using h
  · exact h

/-- Appending to an open connection leaves every closed one as it was. -/
theorem view_frozen {s₀ : Net V} {fd : Nat} {b₀ t : Bytes} (ho : s₀.view fd = some (b₀, false))
    {i : Nat} {b : Bytes} (h : s₀.view i = some (b, true)) :
    (if i = fd then (s₀.view i).map (fun v => (v.1 ++ t, v.2)) else s₀.view i)
      = some (b, true) := by
  rw [if_neg, h]
  rintro rfl
  rw [ho] at h
  simp at h

section
variable {s₀ s : Net V} {fd : Nat} {x : Sent}

theorem SentOn.healthy (h : SentOn s₀ s fd x) (hh : Healthy s₀ fd)
    (ho : Ordered (s₀.sendsOn fd ++ [x])) : Healthy s fd := by
  obtain ⟨b, hb, hs⟩ := hh
  refine ⟨b ++ x.bytes, ?_, ?_⟩
  · rw [h.view, if_pos rfl, hb]
    rfl
  · rw [sendsOn_append s₀ s fd x h.sends, if_pos rfl]
    exact hs.snoc h.fits ho

theorem SentOn.core (h : SentOn s₀ s fd x) (hc : Core s₀ (some fd)) (hh : Healthy s₀ fd)
    (ho : Ordered (s₀.sendsOn fd ++ [x])) : Core s (some fd) := by
  refine ⟨fun i b cl hv => ?_, fun p hp => ?_, fun i b cl hv hi => ?_⟩
  · by_cases hi : i = fd
    · subst hi
      obtain ⟨b', hb', hs⟩ := h.healthy hh ho
      rw [hb'] at hv
      cases hv
      exact ⟨[], hs⟩
    · rw [h.view, if_neg hi] at hv
      rw [sendsOn_append s₀ s fd x h.sends, if_neg hi]
      exact hc.streams i b cl hv
  · rw [h.view]
    refine view_isSome_of_append _ _ ?_
    rw [h.sends] at hp
    rcases List.mem_append.mp hp with hp | hp
    · exact hc.fresh p hp
    · rw [List.mem_singleton.mp hp]
      obtain ⟨b, hb, -⟩ := hh
      simp [hb]
  · have hne : i ≠ fd := fun he => hi (by rw [he])
    rw [h.view, if_neg hne] at hv
    exact hc.others i b cl hv hi

theorem SentOn.after (h : SentOn s₀ s fd x) (hh : Healthy s₀ fd) :
    After s₀ s ([x].filter fun x => !x.isConnect) := by
  obtain ⟨b, hb, -⟩ := hh
  refine ⟨h.cfg, fun i b' hv => ?_, ?_⟩
  · rw [h.view]
    exact view_frozen hb hv
  · unfold Net.messages
    rw [h.sends]
    simp

theorem CutOn.core (h : CutOn s₀ s fd x) (hc : Core s₀ (some fd)) (hh : Healthy s₀ fd)
    (ho : Ordered (s₀.sendsOn fd ++ [x])) : Core s (some fd) := by
  obtain ⟨t, hw, ht⟩ := h
  have hso : ∀ i, s.sendsOn i = s₀.sendsOn i := fun i => by
    unfold Net.sendsOn
    rw [hw.sends]
  refine ⟨fun i b cl hv => ?_, fun p hp => ?_, fun i b cl hv hi => ?_⟩
  · rw [hw.view] at hv
    rw [hso]
    by_cases hi : i = fd
    · subst hi
      obtain ⟨b₀, hb₀, hs⟩ := hh
      rw [if_pos rfl, hb₀] at hv
      cases hv
      rcases ht with rfl | ⟨hf, hpre, hne⟩
      · exact ⟨[], by simpa using hs⟩
      · exact ⟨t, hs.cutOff hf ho hpre hne⟩
    · rw [if_neg hi] at hv
      exact hc.streams i b cl hv
  · rw [hw.view]
    rw [hw.sends] at hp
    exact view_isSome_of_append _ _ (hc.fresh p hp)
  · have hne : i ≠ fd := fun he => hi (by rw [he])
    rw [hw.view, if_neg hne] at hv
    exact hc.others i b cl hv hi

theorem CutOn.after (h : CutOn s₀ s fd x) (hh : Healthy s₀ fd) : After s₀ s [] := by
  obtain ⟨t, hw, -⟩ := h
  obtain ⟨b, hb, -⟩ := hh
  refine ⟨hw.cfg, fun i b' hv => ?_, ?_⟩
  · rw [hw.view]
    exact view_frozen hb hv
  · unfold Net.messages
    rw [hw.sends]
    simp

end

end Proof
end EdgeFlow
