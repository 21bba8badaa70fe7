import EdgeFlow.Ingress.ModbusAdapter

/-!
# Aggregated polling

`adapter_registry_poll_all` hands every plug-in the rest of one buffer, and a plug-in that fails
has had the chance to write there. `reported` says what the buffer is for: the entries of the
plug-ins that succeeded, one after the other, each plug-in being given the slots the ones before
it left free. The loop computes exactly that, with an offset in place of the shrinking list
(`SweepSpec`). What it returns is the count through a cast to `int`.
-/

set_option autoImplicit false

namespace EdgeFlow

open Lib

variable {V : Type}

/-- The registry after `adapter_registry_register` calls, refused ones included. -/
def registryOf (adapters : List (DevicePlugin V)) : PluginRegistry V :=
  adapters.foldl (fun reg adapter => (adapterRegistryRegister reg adapter).2) adapterRegistryInit

/-- A registry that `adapter_registry_register` calls have built. -/
def Registered (reg : PluginRegistry V) : Prop := ∃ adapters, reg = registryOf adapters

/-- The `poll` interface: whatever a poll writes, it writes in the slots it is given, and it
    returns an `int` that is negative or counts no more than these. -/
def HonoursPoll (slot : DevicePlugin V) : Prop :=
  ∀ poll, slot.poll = some poll → ∀ self given,
    (poll self given).2.length = given.length ∧
      ((poll self given).1 < 0 ∨ (poll self given).1 ≤ given.length) ∧
      -2 ^ 31 ≤ (poll self given).1 ∧ (poll self given).1 < 2 ^ 31

/-- The entries a poll reported: none when it failed. -/
def Polled.entries (p : Polled V) : List (Telemetry V) :=
  if 0 ≤ p.ret then p.left.take p.ret.toNat else []

/-- The entries the plug-ins report when each is given what those before it left free. -/
def reported : List (DevicePlugin V) → List (Telemetry V) → List (Telemetry V)
  | [], _ => []
  | slot :: slots, free =>
    match slot.poll, free with
    | none, _ => []
    | _, [] => []
    | some poll, free =>
      let (n, left) := poll slot.toAdapterSelf free
      left.take n.toNat ++ reported slots (left.drop n.toNat)

/-- A plug-in with nothing but its poll. -/
def pollPlugin (poll : AdapterSelf → List (Telemetry V) → Int × List (Telemetry V)) :
    DevicePlugin V where
  protocol := .tcp
  write_command := none
  name := CStr.copy 64 (ascii "test")
  source_id := 1
  ctx := false
  init := some fun self _ => (0, self)
  shutdown := some fun self => self
  poll := some poll

/-- Every slot it is given and can count. -/
def fillingPlugin : DevicePlugin V :=
  pollPlugin fun _ given => ((min given.length 2147483647 : Nat), given)

/-- A plug-in that fails after it has overwritten the slots it was given. -/
def scribblingPlugin (junk : Telemetry V) : DevicePlugin V :=
  pollPlugin fun _ given => (-1, given.map fun _ => junk)

namespace Proof

/-! ## The Modbus plug-in -/

section
variable [CDoubleArith V] (cfg : Option (GatewayConfig V)) (o : ModbusOutcome) (seq : UInt32)
  (s : ModbusState)

/-- A poll that writes nothing and fails, or fills its first three slots. -/
def FillsThree (given : List (Telemetry V)) (ret : Int) (left : List (Telemetry V)) : Prop :=
  (ret = -1 ∧ left = given) ∨
    (3 ≤ given.length ∧ ret = 3 ∧ ∃ a b c, left = [a, b, c] ++ given.drop 3)

theorem modbusLibmodbusPoll_fills {V : Type} (tenth : UInt16 → V) (cfg : GatewayConfig V)
    (o : ModbusOutcome) (out : List (Telemetry V)) (s : ModbusState) :
    FillsThree out (modbusLibmodbusPoll tenth cfg o out s).1
      (modbusLibmodbusPoll tenth cfg o out s).2.1 := by
  unfold modbusLibmodbusPoll
  split
  · exact Or.inl ⟨rfl, rfl⟩
  · rename_i hlen
    dsimp only
    split
    · exact Or.inl ⟨rfl, rfl⟩
    · split
      · exact Or.inl ⟨rfl, rfl⟩
      · split
        · exact Or.inl ⟨rfl, rfl⟩
        · rw [mapRegistersToTelemetry, if_neg hlen]
          exact Or.inr ⟨by omega, rfl, _, _, _, rfl⟩

theorem modbusPoll_fills (self : AdapterSelf) (out : List (Telemetry V)) :
    FillsThree out (modbusPoll cfg o seq s self out).1 (modbusPoll cfg o seq s self out).2.1 := by
  unfold modbusPoll
  split
  · exact Or.inl ⟨rfl, rfl⟩
  · cases cfg with
    | none => exact Or.inl ⟨rfl, rfl⟩
    | some cfg =>
      simp only [modbusRtuPoll]
      split
      · exact Or.inl ⟨rfl, rfl⟩
      · rename_i hlen
        split
        · rw [modbusPollSimulate, if_neg hlen]
          exact Or.inr ⟨by omega, rfl, _, _, _, rfl⟩
        · exact modbusLibmodbusPoll_fills _ cfg o out s

/-- **The plug-in the gateway registers keeps to the interface**, simulated or not, whatever
    libmodbus answers and whether or not it has been initialised. -/
theorem modbusAdapterFill_honoursPoll :
    HonoursPoll (modbusAdapterFill fun self out =>
      ((modbusPoll cfg o seq s self out).1, (modbusPoll cfg o seq s self out).2.1)) := by
  intro poll hpoll self given
  obtain rfl := Option.some.inj hpoll
  rcases modbusPoll_fills cfg o seq s self given with
    ⟨hret, hleft⟩ | ⟨hlen, hret, a, b, c, hleft⟩
  · dsimp only
    rw [hret, hleft]
    exact ⟨rfl, Or.inl (by decide), by decide, by decide⟩
  · have hlength : ([a, b, c] ++ given.drop 3).length = given.length := by
      rw [List.length_append, List.length_drop]
      exact Nat.add_sub_of_le hlen
    dsimp only
    rw [hret, hleft]
    exact ⟨hlength, Or.inr (by omega), by decide, by decide⟩

end

/-! ## Registration -/

theorem register_polls {reg : PluginRegistry V} {adapter : DevicePlugin V}
    (h : ∀ slot ∈ reg.slots, slot.poll.isSome) :
    ∀ slot ∈ (adapterRegistryRegister reg adapter).2.slots, slot.poll.isSome := by
  unfold adapterRegistryRegister
  split
  · exact h
  · split
    · exact h
    · rename_i hcb
      intro slot hslot
      rcases List.mem_append.mp hslot with hold | hnew
      · exact h slot hold
      · rw [List.mem_singleton.mp hnew]
        cases hp : adapter.poll with
        | none => simp [hp] at hcb
        | some _ => rfl

/-- **Every slot of a registered plug-in has a `poll`.** -/
theorem Registered.polls {reg : PluginRegistry V} (h : Registered reg) :
    ∀ slot ∈ reg.slots, slot.poll.isSome := by
  obtain ⟨adapters, rfl⟩ := h
  have hall : ∀ (adapters : List (DevicePlugin V)) (reg : PluginRegistry V),
      (∀ slot ∈ reg.slots, slot.poll.isSome) →
      ∀ slot ∈ (adapters.foldl (fun reg adapter => (adapterRegistryRegister reg adapter).2)
        reg).slots, slot.poll.isSome := by
    intro adapters
    induction adapters with
    | nil =>
      intro reg hreg
      exact hreg
    | cons adapter adapters ih =>
      intro reg hreg
      exact ih _ (register_polls hreg)
  refine hall adapters adapterRegistryInit ?_
  intro slot hslot
  cases hslot

/-! ## The loop -/

/-- What the loop has done when it stops, from `total` entries in `out` on. -/
structure SweepSpec (slots : List (DevicePlugin V)) (i total : Nat) (out : List (Telemetry V))
    (r : PollSweep V) : Prop where
  length : r.out.length = out.length
  bound : r.total ≤ out.length
  kept : r.out.take r.total = out.take total ++ r.polled.flatMap Polled.entries
  count : r.total = total + (r.polled.flatMap Polled.entries).length
  order : r.polled.map Polled.slot = List.range' i r.polled.length
  at_most : r.polled.length ≤ slots.length
  full : r.polled.length < slots.length → r.total = out.length
  space : ∀ before p after, r.polled = before ++ p :: after →
    p.space = out.length - (total + (before.flatMap Polled.entries).length)
  reports : r.polled.flatMap Polled.entries = reported slots (out.drop total)

/-- The loop stops where it stands: no slot is left, or no room. -/
theorem sweepSpec_stop {slots : List (DevicePlugin V)} {i total : Nat} {out : List (Telemetry V)}
    (hle : total ≤ out.length) (hfull : 0 < slots.length → total = out.length)
    (hreports : reported slots (out.drop total) = []) :
    SweepSpec slots i total out { total := total, out := out, polled := [] } where
  length := rfl
  bound := hle
  kept := by simp
  count := by simp
  order := rfl
  at_most := Nat.zero_le _
  full := hfull
  space := by
    intro before p after h
    cases before <;> cases h
  reports := by simp [hreports]

theorem reported_nil (slots : List (DevicePlugin V)) : reported slots [] = [] := by
  cases slots with
  | nil => rfl
  | cons slot slots =>
    unfold reported
    cases slot.poll <;> rfl

theorem reported_cons {slot : DevicePlugin V} (slots : List (DevicePlugin V))
    {free : List (Telemetry V)} {poll : AdapterSelf → List (Telemetry V) → Int × List (Telemetry V)}
    (hpoll : slot.poll = some poll) (hfree : free ≠ []) :
    reported (slot :: slots) free =
      (poll slot.toAdapterSelf free).2.take (poll slot.toAdapterSelf free).1.toNat ++
        reported slots ((poll slot.toAdapterSelf free).2.drop
          (poll slot.toAdapterSelf free).1.toNat) := by
  cases free with
  | nil => exact absurd rfl hfree
  | cons t free => simp only [reported, hpoll]

/-- A negative count reports nothing. -/
theorem Polled.entries_eq (p : Polled V) : p.entries = p.left.take p.ret.toNat := by
  unfold Polled.entries
  split
  · rfl
  · rename_i hneg
    rw [Int.toNat_of_nonpos (by omega)]
    rfl

/-- One turn before the turns that are left: the poll has had the slots from `total` on, and the
    next one starts behind what it reported. -/
theorem sweepSpec_poll {slot : DevicePlugin V} {slots : List (DevicePlugin V)} {i total : Nat}
    {out left : List (Telemetry V)} {n : Int} {rest : PollSweep V} (hle : total ≤ out.length)
    (hlen : left.length = out.length - total) (hcount : n.toNat ≤ left.length)
    (hreports : reported (slot :: slots) (out.drop total) =
      left.take n.toNat ++ reported slots (left.drop n.toNat))
    (hrest : SweepSpec slots (i + 1) (total + n.toNat) (out.take total ++ left) rest) :
    SweepSpec (slot :: slots) i total out
      { rest with
        polled := { slot := i, space := out.length - total, ret := n, left := left } ::
          rest.polled } := by
  have hout : (out.take total ++ left).length = out.length := by
    simp only [List.length_append, List.length_take]
    omega
  have htake : (out.take total ++ left).take (total + n.toNat) =
      out.take total ++ left.take n.toNat := by
    rw [List.take_append, List.take_of_length_le (by simp), List.length_take]
    congr 2
    omega
  have hdrop : (out.take total ++ left).drop (total + n.toNat) = left.drop n.toNat := by
    rw [List.drop_append, List.drop_of_length_le (by simp), List.length_take, List.nil_append]
    congr 1
    omega
  have hentries : (left.take n.toNat).length = n.toNat := by
    rw [List.length_take]
    omega
  exact
    { length := hrest.length.trans hout
      bound := hout ▸ hrest.bound
      kept := by
        rw [hrest.kept, htake, List.flatMap_cons, Polled.entries_eq, List.append_assoc]
      count := by
        rw [hrest.count, List.flatMap_cons, Polled.entries_eq, List.length_append, hentries]
        omega
      order := by
        rw [List.map_cons, hrest.order, List.length_cons, List.range'_succ]
      at_most := Nat.succ_le_succ hrest.at_most
      full := fun hlt => (hrest.full (Nat.lt_of_succ_lt_succ hlt)).trans hout
      space := by
        intro before p after hq
        cases before with
        | nil =>
          obtain ⟨rfl, _⟩ := List.cons.inj hq
          simp
        | cons p' before =>
          obtain ⟨rfl, hq'⟩ := List.cons.inj hq
          rw [hrest.space before p after hq', hout, List.flatMap_cons, Polled.entries_eq,
            List.length_append, hentries]
          omega
      reports := by
        rw [List.flatMap_cons, Polled.entries_eq, hrest.reports, hdrop, hreports] }

/-- **The loop concatenates what is reported**, by induction over the slots that are left: the
    entries before `total` are not touched any more, and a poll writes behind them only. -/
theorem pollSweep_spec :
    ∀ (slots : List (DevicePlugin V)) (i total : Nat) (out : List (Telemetry V)),
      (∀ slot ∈ slots, slot.poll.isSome) → (∀ slot ∈ slots, HonoursPoll slot) →
      total ≤ out.length → SweepSpec slots i total out (pollSweep slots i total out) := by
  intro slots
  induction slots with
  | nil =>
    intro i total out _ _ hle
    exact sweepSpec_stop hle (fun h => absurd h (by simp)) rfl
  | cons slot slots ih =>
    intro i total out hpolls hhonour hle
    obtain ⟨poll, hpoll⟩ := Option.isSome_iff_exists.mp (hpolls slot (List.mem_cons_self ..))
    unfold pollSweep
    simp only [hpoll]
    split
    · -- `out` is full: the plug-ins from here on are not polled
      rename_i hfull
      have heq : total = out.length := by omega
      refine sweepSpec_stop hle (fun _ => heq) ?_
      rw [heq, List.drop_length]
      exact reported_nil _
    · rename_i hroom
      have hgiven : (out.drop total).length = out.length - total := List.length_drop ..
      obtain ⟨hlen, hcount, _⟩ :=
        hhonour slot (List.mem_cons_self ..) poll hpoll slot.toAdapterSelf (out.drop total)
      have hfree : out.drop total ≠ [] := by
        intro hnil
        rw [hnil] at hgiven
        simp at hgiven
        omega
      have hreports := reported_cons slots hpoll hfree
      generalize poll slot.toAdapterSelf (out.drop total) = r at hlen hcount hreports
      obtain ⟨n, left⟩ := r
      simp only at hlen hcount hreports ⊢
      have hadv : (if 0 < n then total + n.toNat else total) = total + n.toNat := by
        split <;> omega
      have hfit : total + n.toNat ≤ (out.take total ++ left).length := by
        simp only [List.length_append, List.length_take]
        omega
      rw [hadv]
      exact sweepSpec_poll hle (hlen.trans hgiven) (by omega) hreports
        (ih (i + 1) (total + n.toNat) (out.take total ++ left)
          (fun s hs => hpolls s (List.mem_cons_of_mem _ hs))
          (fun s hs => hhonour s (List.mem_cons_of_mem _ hs)) hfit)

/-! ## The call -/

/-- What `adapter_registry_poll_all` promises: its return value counts the entries at the start of
    `out`, which are those of the successful polls in registration order; every plug-in is polled
    at most once, with the room that is left; and one that is not polled found `out` full. -/
def PollAllConcatenates (reg : PluginRegistry V) (out : List (Telemetry V)) : Prop :=
  ∃ total : Nat, (adapterRegistryPollAll reg out).1 = total ∧ total ≤ out.length ∧
    (adapterRegistryPollAll reg out).2.out.take total =
      (adapterRegistryPollAll reg out).2.polled.flatMap Polled.entries ∧
    (adapterRegistryPollAll reg out).2.out.take total = reported reg.slots out ∧
    (adapterRegistryPollAll reg out).2.polled.map Polled.slot =
      List.range (adapterRegistryPollAll reg out).2.polled.length ∧
    (adapterRegistryPollAll reg out).2.polled.length ≤ reg.slots.length ∧
    (∀ before p after, (adapterRegistryPollAll reg out).2.polled = before ++ p :: after →
      p.space = out.length - (before.flatMap Polled.entries).length) ∧
    ((adapterRegistryPollAll reg out).2.polled.length < reg.slots.length → total = out.length)

theorem pollAll_sweep {reg : PluginRegistry V} (out : List (Telemetry V))
    (hreg : Registered reg) (hpoll : ∀ slot ∈ reg.slots, HonoursPoll slot) :
    SweepSpec reg.slots 0 0 out (adapterRegistryPollAll reg out).2 ∧
      (adapterRegistryPollAll reg out).1 =
        ((adapterRegistryPollAll reg out).2.total : Int).bmod (2 ^ 32) := by
  unfold adapterRegistryPollAll
  split
  · rename_i hempty
    have hnil : out = [] := List.length_eq_zero_iff.mp hempty
    refine ⟨sweepSpec_stop (Nat.zero_le _) (fun _ => hempty.symm) ?_, by simp⟩
    rw [hnil]
    exact reported_nil _
  · exact ⟨pollSweep_spec reg.slots 0 0 out (Registered.polls hreg) hpoll (Nat.zero_le _), by simp⟩

/-- The count the loop ends with is the number of entries reported. -/
theorem pollAll_total {reg : PluginRegistry V} (out : List (Telemetry V))
    (hreg : Registered reg) (hpoll : ∀ slot ∈ reg.slots, HonoursPoll slot) :
    (adapterRegistryPollAll reg out).2.total = (reported reg.slots out).length := by
  obtain ⟨h, _⟩ := pollAll_sweep out hreg hpoll
  rw [h.count, h.reports, List.drop_zero, Nat.zero_add]

/-- Above `INT_MAX` the returned `int` is some other number. -/
theorem not_concatenates_of_lt {reg : PluginRegistry V} {out : List (Telemetry V)}
    (hreg : Registered reg) (hpoll : ∀ slot ∈ reg.slots, HonoursPoll slot)
    (hmany : 2147483647 < (reported reg.slots out).length) : ¬PollAllConcatenates reg out := by
  rintro ⟨total, hret, hle, _, htake, _⟩
  obtain ⟨h, hcast⟩ := pollAll_sweep out hreg hpoll
  have hlen := congrArg List.length htake
  rw [List.length_take, h.length, Nat.min_eq_left hle] at hlen
  have hlt : ((adapterRegistryPollAll reg out).2.total : Int).bmod (2 ^ 32) < 2 ^ 31 :=
    Int.bmod_lt (by decide)
  rw [← hcast, hret] at hlt
  omega

/-- The room there is bounds what can be reported. -/
theorem length_reported_le {reg : PluginRegistry V} {out : List (Telemetry V)}
    (hreg : Registered reg) (hpoll : ∀ slot ∈ reg.slots, HonoursPoll slot) :
    (reported reg.slots out).length ≤ out.length := by
  obtain ⟨h, _⟩ := pollAll_sweep out hreg hpoll
  rw [← pollAll_total out hreg hpoll]
  exact h.bound

/-! ## Two plug-ins -/

theorem filling_honours : HonoursPoll (fillingPlugin (V := V)) := by
  intro poll hpoll self given
  obtain rfl := Option.some.inj hpoll
  refine ⟨rfl, .inr ?_, ?_, ?_⟩
  · exact Int.ofNat_le.mpr (Nat.min_le_left _ _)
  · exact Int.le_trans (by decide) (Int.natCast_nonneg _)
  · exact Int.lt_of_le_of_lt (Int.ofNat_le.mpr (Nat.min_le_right _ _)) (by decide)

theorem scribbling_honours (junk : Telemetry V) : HonoursPoll (scribblingPlugin junk) := by
  intro poll hpoll self given
  obtain rfl := Option.some.inj hpoll
  simp

theorem reported_filling (slots : List (DevicePlugin V)) (out : List (Telemetry V)) :
    reported (fillingPlugin :: slots) out =
      out.take 2147483647 ++ reported slots (out.drop 2147483647) := by
  by_cases hne : out = []
  · subst hne
    rw [reported_nil, List.take_nil, List.drop_nil, reported_nil]
    rfl
  · rw [reported_cons slots rfl hne]
    simp only [Int.toNat_natCast]
    by_cases hle : out.length ≤ 2147483647
    · rw [Nat.min_eq_left hle, List.take_length, List.drop_length, List.take_of_length_le hle,
        List.drop_of_length_le hle]
    · rw [Nat.min_eq_right (by omega)]

/-! ## The promise -/

/-- **The concatenation is what `poll_all` returns exactly while its length is an `int`.** -/
theorem poll_all_concatenates_iff (reg : PluginRegistry V) (out : List (Telemetry V))
    (hreg : Registered reg) (hpoll : ∀ slot ∈ reg.slots, HonoursPoll slot) :
    PollAllConcatenates reg out ↔ (reported reg.slots out).length ≤ 2147483647 := by
  constructor
  · intro h
    by_contra hmany
    exact not_concatenates_of_lt hreg hpoll (by omega) h
  · intro hfew
    obtain ⟨h, hcast⟩ := pollAll_sweep out hreg hpoll
    have htotal := pollAll_total out hreg hpoll
    have hkept := h.kept
    rw [List.take_zero, List.nil_append] at hkept
    refine ⟨(adapterRegistryPollAll reg out).2.total, ?_, h.bound, hkept, ?_, ?_, h.at_most, ?_,
      h.full⟩
    · rw [hcast, Int.bmod_eq_of_le] <;> omega
    · rw [hkept, h.reports, List.drop_zero]
    · rw [h.order, List.range_eq_range']
    · intro before p after hq
      rw [h.space before p after hq, Nat.zero_add]

theorem poll_all_concatenates_iff_scribbled :
    let out := List.replicate 3 (telemetryInit 0 [] [] (0 : ℚ) [] 0)
    let reg := registryOf [scribblingPlugin (telemetryInit 1 [] [] (1 : ℚ) [] 1), fillingPlugin]
    Registered reg ∧ (∀ slot ∈ reg.slots, HonoursPoll slot) ∧ PollAllConcatenates reg out := by
  intro out reg
  have hreg : Registered reg := ⟨_, rfl⟩
  have hslots : ∀ slot ∈ reg.slots, HonoursPoll slot := by
    intro slot hslot
    rcases List.mem_cons.mp hslot with rfl | hslot
    · exact scribbling_honours _
    · rw [List.mem_singleton.mp hslot]
      exact filling_honours
  refine ⟨hreg, hslots, (poll_all_concatenates_iff reg out hreg hslots).mpr ?_⟩
  exact Nat.le_trans (length_reported_le hreg hslots) (by decide)

/-- A buffer of `2^31` slots, and two plug-ins that fill all they can count: `poll_all` returns a
    negative number. -/
theorem full_count_is_no_int :
    let out := List.replicate 2147483648 (telemetryInit 0 [] [] (0 : ℚ) [] 0)
    let reg := registryOf [fillingPlugin, fillingPlugin]
    Registered reg ∧ (∀ slot ∈ reg.slots, HonoursPoll slot) ∧ ¬PollAllConcatenates reg out := by
  intro out reg
  have hreg : Registered reg := ⟨_, rfl⟩
  have hslots : ∀ slot ∈ reg.slots, HonoursPoll slot := by
    intro slot hslot
    rcases List.mem_cons.mp hslot with rfl | hslot
    · exact filling_honours
    · rw [List.mem_singleton.mp hslot]
      exact filling_honours
  refine ⟨hreg, hslots, not_concatenates_of_lt hreg hslots ?_⟩
  have hlen : out.length = 2147483648 := List.length_replicate
  have hrep : reported reg.slots out =
      out.take 2147483647 ++ ((out.drop 2147483647).take 2147483647 ++ []) := by
    change reported [fillingPlugin, fillingPlugin] out = _
    rw [reported_filling, reported_filling]
    rfl
  rw [hrep, List.append_nil, List.length_append, List.length_take, List.length_take,
    List.length_drop, hlen]
  decide

end Proof
end EdgeFlow
