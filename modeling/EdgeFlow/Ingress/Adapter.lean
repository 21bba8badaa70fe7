import EdgeFlow.Model.DeviceModel
import EdgeFlow.Platform.Config

/-!
# The adapter registry (`src/ingress/adapter.*`)

A registry is its filled slots in order. What a plug-in does behind its function pointers is
outside this code: `write_command` is the return values of its successive calls, and `none` is
a `NULL` pointer, which the registry accepts.
-/

set_option autoImplicit false

namespace EdgeFlow

open Lib

/-- `device_adapter_t`, as far as commands go down. -/
structure DeviceAdapter where
  protocol : DeviceProtocol
  /-- The return value of the `k`-th call. -/
  write_command : Option (Nat → Int)

abbrev AdapterRegistry := List DeviceAdapter

/-- `adapter_registry_find`. -/
def adapterRegistryFind (reg : AdapterRegistry) (protocol : DeviceProtocol) :
    Option DeviceAdapter :=
  reg.find? fun slot => decide (slot.protocol = protocol)

/-! ## Plug-ins and their registration

`device_adapter_t` whole. A callback gets the structure itself as `self` and may write to its
data, so the data part is a type of its own and the callbacks stand beside it. -/

/-- The data of `device_adapter_t`; `ctx` is whether the private context is there. -/
structure AdapterSelf extends DeviceAdapter where
  name : CStr 64
  source_id : UInt16
  ctx : Bool

/-- `device_adapter_t`. A callback's return value and what it leaves in `self` or in the slots
    of `out` it is given are its own; `none` is a `NULL` pointer. -/
structure DevicePlugin (V : Type) extends AdapterSelf where
  init : Option (AdapterSelf → GatewayConfig V → Int × AdapterSelf)
  shutdown : Option (AdapterSelf → AdapterSelf)
  poll : Option (AdapterSelf → List (Telemetry V) → Int × List (Telemetry V))

/-- `ADAPTER_REGISTRY_MAX`. -/
def adapterRegistryMax : Nat := 8

/-- `adapter_registry_t`: the filled part of `slots`. -/
structure PluginRegistry (V : Type) where
  slots : List (DevicePlugin V)
  fits : slots.length ≤ adapterRegistryMax

inductive AdapterStatus where
  | ok | err | errFull | errNotFound
  deriving DecidableEq, Repr

section
variable {V : Type}

/-- The registry as the command path reads it. -/
def PluginRegistry.adapters (reg : PluginRegistry V) : AdapterRegistry :=
  reg.slots.map fun slot => slot.toDeviceAdapter

/-- `adapter_registry_init`. -/
def adapterRegistryInit : PluginRegistry V := ⟨[], Nat.zero_le _⟩

/-- `adapter_registry_register`. -/
def adapterRegistryRegister (reg : PluginRegistry V) (adapter : DevicePlugin V) :
    AdapterStatus × PluginRegistry V :=
  if h : adapterRegistryMax ≤ reg.slots.length then (.errFull, reg)
  else if adapter.poll.isNone || adapter.init.isNone || adapter.shutdown.isNone then (.err, reg)
  else
    (.ok,
      { slots := reg.slots ++ [adapter]
        fits := by
          rw [List.length_append, List.length_singleton]
          exact Nat.lt_of_not_le h })

/-- One turn of `adapter_registry_init_all`: whether the plug-in failed, and its slot. -/
def initSlot (cfg : GatewayConfig V) (slot : DevicePlugin V) : Bool × DevicePlugin V :=
  match slot.init with
  | some init =>
    let (ret, self) := init slot.toAdapterSelf cfg
    (decide (ret ≠ 0), { slot with toAdapterSelf := self })
  | none => (false, slot)

/-- `adapter_registry_init_all`. -/
def adapterRegistryInitAll (reg : PluginRegistry V) (cfg : GatewayConfig V) :
    Int × PluginRegistry V :=
  let slots := reg.slots.map (initSlot cfg)
  (if 0 < (slots.filter fun s => s.1).length then -1 else 0,
    { slots := slots.map fun s => s.2
      fits := by
        rw [List.length_map, List.length_map]
        exact reg.fits })

/-! ## Polling -/

/-- A `poll` made by `adapter_registry_poll_all`: the slot's index, the space it was given, its
    return value, and what it left in the slots of `out` it was given. -/
structure Polled (V : Type) where
  slot : Nat
  space : Nat
  ret : Int
  left : List (Telemetry V)

/-- What the loop of `adapter_registry_poll_all` ends with. -/
structure PollSweep (V : Type) where
  total : Nat
  out : List (Telemetry V)
  polled : List (Polled V)

/-- The loop of `adapter_registry_poll_all`, from slot `i` on. A poll writes in `out` from
    `total` on, whatever it returns. -/
def pollSweep : List (DevicePlugin V) → Nat → Nat → List (Telemetry V) → PollSweep V
  | [], _, total, out => { total := total, out := out, polled := [] }
  | slot :: slots, i, total, out =>
    match slot.poll with
    | none => { total := total, out := out, polled := [] }
    | some poll =>
      if out.length ≤ total then { total := total, out := out, polled := [] }
      else
        let (n, left) := poll slot.toAdapterSelf (out.drop total)
        let rest :=
          pollSweep slots (i + 1) (if 0 < n then total + n.toNat else total)
            (out.take total ++ left)
        { rest with
          polled := { slot := i, space := out.length - total, ret := n, left := left } ::
            rest.polled }

/-- `adapter_registry_poll_all` on the slots `out`, as many as `max_out`. The `size_t` count is
    returned through a cast to `int`. -/
def adapterRegistryPollAll (reg : PluginRegistry V) (out : List (Telemetry V)) :
    Int × PollSweep V :=
  if out.length = 0 then (0, { total := 0, out := out, polled := [] })
  else
    let sweep := pollSweep reg.slots 0 0 out
    ((sweep.total : Int).bmod (2 ^ 32), sweep)

end

end EdgeFlow
