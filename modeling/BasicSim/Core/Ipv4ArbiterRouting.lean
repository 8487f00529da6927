import BasicSim.Core.ArbiterPtop

/-!
# `Core.Ipv4ArbiterRouting` — forwarding at a node (`model/core/ipv4-arbiter-routing.cc`)

The calls that the routing makes (to the arbiter and to the call-backs of the IPv4 stack) are recorded,
together with the result; a call made before a throw stays recorded.

The IPv4 stack of ns-3 is not part of the sources: what the routing asks it is `Ipv4Stack`.
-/

namespace BasicSim

open Fallible

/-! ## The IPv4 stack -/

namespace Ipv4Address

/-- 224.0.0.0 to 239.255.255.255. -/
def isMulticast (ip : Ipv4Address) : Bool := decide (3758096384 ≤ ip.val ∧ ip.val ≤ 4026531839)

/-- 224.0.0.0/24. -/
def isLocalMulticast (ip : Ipv4Address) : Bool := decide (ip.val / 2 ^ 8 = 3758096384 / 2 ^ 8)

/-- `loopbackMask.IsMatch(ip, loopbackIp)`: 127.0.0.0/8. -/
def isLoopback (ip : Ipv4Address) : Bool := decide (ip.val / 2 ^ 24 = loopbackAddress.val / 2 ^ 24)

end Ipv4Address

/-- What the routing of a node asks its IPv4 stack, besides its interfaces. -/
structure Ipv4Stack where
  isDestinationAddress : Node → Ipv4Address → Nat → Bool
  isForwarding : Node → Nat → Bool
  sourceAddressSelection : Node → Nat → Ipv4Address → Ipv4Address

/-- `GetInterfaceForDevice`; -1 if the device has none. -/
def Node.getInterfaceForDevice (node : Node) (device : DeviceRef) : Int :=
  match node.interfaces.findIdx? (fun interface => interface.device = device) with
  | some i => i
  | none => -1

def Node.getNetDevice (node : Node) (ifIdx : Nat) : Except Exc DeviceRef :=
  match node.interfaces[ifIdx]? with
  | some interface => .ok interface.device
  | none => .error (.undefined "no such interface")

/-! ## Routing -/

structure Ipv4Route where
  destination : Ipv4Address
  source : Ipv4Address
  gateway : Nat
  outputDevice : DeviceRef
deriving DecidableEq

/-- A call that the routing makes. -/
inductive Call where
  | baseDecide
  | localDeliver (iif : Nat)
  | unicastForward (route : Ipv4Route)
deriving DecidableEq

namespace Ipv4ArbiterRouting

section Routing

variable (stack : Ipv4Stack) (node : Node) (baseDecide : Ipv4Header → Except Exc ArbiterResult)

/-- The routing entry for a result of the arbiter; none if the arbiter failed. -/
def routeOf (dest : Ipv4Address) (result : ArbiterResult) : Except Exc (Option Ipv4Route) :=
  if result.failed = true then .ok none
  else do
    let ifIdx ← result.getOutIfIdx
    let gatewayIpAddress ← result.getGatewayIpAddress
    let outputDevice ← node.getNetDevice ifIdx
    .ok (some ⟨dest, stack.sourceAddressSelection node ifIdx dest, gatewayIpAddress, outputDevice⟩)

/-- `LookupArbiter`; `oif` tells whether an output interface was requested. -/
def lookupArbiter (dest : Ipv4Address) (header : Ipv4Header) (oif : Bool) :
    List Call × Except Exc (Option Ipv4Route) :=
  if dest.isLocalMulticast = true then ([], .error (.abort "Multi-cast is not supported"))
  else if oif = true then ([], .error (.abort "Requested output interfaces are not supported"))
  else if dest.isLoopback = true then
    ([], .error (.abort "Loop-back as destination is typically not desired"))
  else ([.baseDecide], do routeOf stack node dest (← baseDecide header))

/-- `RouteOutput`: the route, or none when the socket gets the error `ERROR_NOROUTETOHOST`. -/
def routeOutput (header : Ipv4Header) (oif : Bool) : List Call × Except Exc (Option Ipv4Route) :=
  if header.destination.isMulticast = true then ([], .error (.abort "Multi-cast not supported"))
  else lookupArbiter stack node baseDecide header.destination header oif

/-- What `RouteInput` does with the result of the lookup. -/
def afterLookup : List Call × Except Exc (Option Ipv4Route) → List Call × Except Exc Bool
  | (calls, .error e) => (calls, .error e)
  | (calls, .ok none) => (calls, .ok false)
  | (calls, .ok (some route)) => (calls ++ [.unicastForward route], .ok true)

/-- `RouteInput` for a packet that came in over a device; the result is whether the packet was
    handled. -/
def routeInput (ipHeader : Ipv4Header) (idev : DeviceRef) : List Call × Except Exc Bool :=
  if node.getInterfaceForDevice idev < 0 then
    ([], .error (.assertion "m_ipv4->GetInterfaceForDevice(idev) >= 0"))
  else
    let iif := (node.getInterfaceForDevice idev).toNat
    if ipHeader.destination.isMulticast = true then
      ([], .error (.abort "Multi-cast not supported."))
    -- local delivery
    else if stack.isDestinationAddress node ipHeader.destination iif = true then
      ([.localDeliver iif], .ok true)
    else if stack.isForwarding node iif = false then
      ([], .error (.abort "Forwarding must be enabled for every interface"))
    -- uni-cast delivery
    else afterLookup (lookupArbiter stack node baseDecide ipHeader.destination ipHeader false)

end Routing

end Ipv4ArbiterRouting

end BasicSim
