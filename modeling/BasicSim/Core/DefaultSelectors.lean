import BasicSim.Core.LinkProperties

/-!
# `Core.DefaultSelectors` — the default selectors of a topology
(`model/core/topology-ptop-…-selector-default.cc`)

The three selectors parse the value of a link property into the object that ns-3 then installs. What ns-3 makes of the
attributes that it is given is a parameter (`Ns3Factories`); it may abort on a value that it does not accept.

## Contents
- **ns-3.** `AttributeValue`, `Ns3Factories`, `RateErrorModel`.
- **Parsing.** `parseQueueValue`, `parseReceiveErrorModelValue`, `parseTcQdiscValue` with `parseSimpleRed`, and
  `defaultSelectors`.
- **The topology.** `readTopology`.
-/

namespace BasicSim

open Fallible

/-! ## ns-3 -/

/-- The value of an attribute. -/
inductive AttributeValue (QueueSize : Type) where
  | string (value : Str)
  | queueSize (value : QueueSize)
  | boolean (value : Bool)
  | uinteger (value : BitVec 64)
  | double (value : Double)

/-- What the selectors use of ns-3. -/
structure Ns3Factories where
  QueueSize : Type
  ObjectFactory : Type
  TrafficControlHelper : Type
  -- the constructor of a `QueueSize` from a string
  queueSize : Str → Except Exc QueueSize
  -- an `ObjectFactory` with a type and attributes
  queueFactory : String → List (String × AttributeValue QueueSize) → Except Exc ObjectFactory
  -- the constructor of a `TrafficControlHelper`
  trafficControlHelper : TrafficControlHelper
  -- a new helper on which `SetRootQueueDisc` was called
  setRootQueueDisc : String → List (String × AttributeValue QueueSize) → Except Exc TrafficControlHelper

inductive ErrorUnit where
  | bit | byte | packet
deriving DecidableEq

structure RateErrorModel where
  unit : ErrorUnit
  rate : Double
deriving DecidableEq

/-! ## Parsing -/

/-- The value is `opening…)`. -/
def isEncased (opening : String) (value : Str) : Bool :=
  startsWith value opening.toList && endsWith value ")".toList

/-- Get rid of the `opening` and `)` part. -/
def innerPart (opening : String) (value : Str) : Str :=
  (value.drop opening.length).take (value.length - (opening.length + 1))

/-- Make sure it is like `100p` or `100000B`; the number comes back. -/
def parseMaxQueueSize (units : List String) (invalidText : String) (value : Str) : Except Exc Int := do
  throwIf (∀ unit ∈ units, endsWith value unit.toList = false) <|
    .runtimeError (invalidText ++ String.ofList value)
  parseGeqOneInt64 (value.take (value.length - 1))

section Parsing

-- `std::stod`: the value and the number of characters read
variable (ns3 : Ns3Factories) (stod : Str → Except Exc (Double × Nat))

def parseQueueValue (value : Str) : Except Exc ns3.ObjectFactory :=
  if isEncased "drop_tail(" value = true then do
    let maxQueueSizeValue := innerPart "drop_tail(" value
    let _ ← parseMaxQueueSize ["p", "B"] "Invalid maximum drop-tail queue size value: " maxQueueSizeValue
    ns3.queueFactory "ns3::DropTailQueue<Packet>" [("MaxSize", .queueSize (← ns3.queueSize maxQueueSizeValue))]
  else .error (.runtimeError ("Invalid queue value: " ++ String.ofList value))

/-- The text of the error about the range does not show the value (the source prints it with `%f`). -/
def parseReceiveErrorModelValue (value : Str) : Except Exc (Bool × Option RateErrorModel) :=
  if value = "none".toList then .ok (false, none)
  else if isEncased "iid_uniform_random_pkt(" value = true then do
    let errorRate ← parseDouble stod (innerPart "iid_uniform_random_pkt(" value)
    throwIf ((errorRate.ltRat 0 || errorRate.gtRat 1) = true) <| .invalidArgument
      "I.i.d. uniform random error probability must be in range [0.0, 1.0]"
    .ok (true, some ⟨.packet, errorRate⟩)
  else .error (.runtimeError ("Invalid receive error model value: " ++ String.ofList value))

/-- The number of nanoseconds in front of its unit. -/
def nanoseconds (x : Int) : Str := toStr x ++ "ns".toList

/-- `fq_codel(interval_ns; target_ns; max_queue_size)`. -/
def parseFqCodel (innerPart : Str) : Except Exc ns3.TrafficControlHelper := do
  let spl ← splitStringExpected innerPart ";".toList 3
  let interval ← parseGeqOneInt64 (← vectorAt spl 0)
  let target ← parseGeqOneInt64 (← vectorAt spl 1)
  let maxQueueSizeValue := trim (← vectorAt spl 2)
  let _ ← parseMaxQueueSize ["p"] "Invalid maximum fq_codel queue size value: " maxQueueSizeValue
  ns3.setRootQueueDisc "ns3::FqCoDelQueueDisc" [("Interval", .string (nanoseconds interval)),
    ("Target", .string (nanoseconds target)), ("MaxSize", .queueSize (← ns3.queueSize maxQueueSizeValue))]

/-- What `fifo(…)` and `pfifo_fast(…)` share. -/
def parseFifoLike (queueDisc invalidText : String) (innerPart : Str) : Except Exc ns3.TrafficControlHelper := do
  let maxQueueSizeValue := trim innerPart
  let _ ← parseMaxQueueSize ["p", "B"] invalidText maxQueueSizeValue
  ns3.setRootQueueDisc queueDisc [("MaxSize", .queueSize (← ns3.queueSize maxQueueSizeValue))]

def parseFifo : Str → Except Exc ns3.TrafficControlHelper :=
  parseFifoLike ns3 "ns3::FifoQueueDisc" "Invalid maximum FIFO queue size value: "

def parsePfifoFast : Str → Except Exc ns3.TrafficControlHelper :=
  parseFifoLike ns3 "ns3::PfifoFastQueueDisc" "Invalid maximum pfifo_fast queue size value: "

/-- The values of `simple_red(…)`. -/
structure SimpleRed where
  actionIsEcn : Bool
  meanPktSizeByte : Int
  queueWeight : Double
  minThPkt : Int
  maxThPkt : Int
  maxSizeStr : Str
  maxP : Double
  wait : Bool
  gentle : Bool

/-- One of two words. -/
def parseEither (yes no : String) (invalidText : String) (field : Str) : Except Exc Bool := do
  let word := trim field
  throwIf (word ≠ yes.toList ∧ word ≠ no.toList) <| .invalidArgument (invalidText ++ String.ofList word)
  .ok (decide (word = yes.toList))

/-- A number in the range (0, 1]. -/
def parseAboveZeroUpToOne (rangeText : String) (field : Str) : Except Exc Double := do
  let val ← parseDouble stod field
  throwIf ((val.leRat 0 || val.gtRat 1) = true) <| .invalidArgument
    (rangeText ++ " must be in range (0, 1.0]: " ++ String.ofList (trim field))
  .ok val

/-- The maximum size in packets. -/
def maxSizePkt (maxSizeIsInPkt : Bool) (maxSize meanPktSizeByte : Int) : Except Exc Int :=
  if maxSizeIsInPkt = true then .ok maxSize
  else ((Double.ofRat maxSize).div (Double.ofRat meanPktSizeByte)).ceil.toInt64

/-- The text shows as much of a 64-bit value as `%d` prints. -/
def checkRedThresholds (minThPkt maxThPkt maxSizePkt : Int) : Except Exc Unit := do
  throwIf (minThPkt > maxThPkt) <| .invalidArgument ("RED minimum threshold (" ++ toString (toInt32 minThPkt)
    ++ ") cannot exceed maximum threshold (" ++ toString (toInt32 maxThPkt) ++ ")")
  throwIf (maxThPkt > maxSizePkt) <| .invalidArgument ("RED maximum threshold (" ++ toString (toInt32 maxThPkt)
    ++ ") cannot exceed maximum queue size (" ++ toString (toInt32 maxSizePkt) ++ ")")

/-- `simple_red(ecn/drop; mean_pkt_size_byte; queue_weight; min_th_pkt; max_th_pkt; max_size; max_p; wait/no_wait;
    gentle/not_gentle)`, up to the helper. -/
def parseSimpleRed (innerPart : Str) : Except Exc SimpleRed := do
  let spl ← splitStringExpected innerPart ";".toList 9
  let actionIsEcn ← parseEither "ecn" "drop" "Invalid RED action: " (← vectorAt spl 0)
  let meanPktSizeByte ← parseGeqOneInt64 (← vectorAt spl 1)
  let queueWeight ← parseAboveZeroUpToOne stod "Queue weight" (← vectorAt spl 2)
  let minThPkt ← parsePositiveInt64 (← vectorAt spl 3)
  let maxThPkt ← parsePositiveInt64 (← vectorAt spl 4)
  let maxSizeStr := trim (← vectorAt spl 5)
  let maxSize ← parseMaxQueueSize ["p", "B"] "Invalid maximum RED queue size value: " maxSizeStr
  let maxSizePkt ← maxSizePkt (endsWith maxSizeStr "p".toList) maxSize meanPktSizeByte
  checkRedThresholds minThPkt maxThPkt maxSizePkt
  let maxP ← parseAboveZeroUpToOne stod "Maximum probability" (← vectorAt spl 6)
  let wait ← parseEither "wait" "no_wait" "Invalid RED wait: " (← vectorAt spl 7)
  let gentle ← parseEither "gentle" "not_gentle" "Invalid RED gentle: " (← vectorAt spl 8)
  .ok ⟨actionIsEcn, meanPktSizeByte, queueWeight, minThPkt, maxThPkt, maxSizeStr, maxP, wait, gentle⟩

/-- The attributes of the RED queueing discipline. -/
def SimpleRed.attributes {QueueSize : Type} (red : SimpleRed) (maxSize : QueueSize) :
    List (String × AttributeValue QueueSize) :=
  [("UseEcn", .boolean red.actionIsEcn), ("UseHardDrop", .boolean !red.actionIsEcn),
    ("MeanPktSize", .uinteger (toUInt64 red.meanPktSizeByte)), ("QW", .double red.queueWeight),
    ("MinTh", .double (.ofRat red.minThPkt)), ("MaxTh", .double (.ofRat red.maxThPkt)),
    ("MaxSize", .queueSize maxSize), ("LInterm", .double ((Double.finite 1).div red.maxP)),
    ("Wait", .boolean red.wait), ("Gentle", .boolean red.gentle)]

def SimpleRed.helper (red : SimpleRed) : Except Exc ns3.TrafficControlHelper := do
  ns3.setRootQueueDisc "ns3::RedQueueDisc" (red.attributes (← ns3.queueSize red.maxSizeStr))

def parseTcQdiscValue (value : Str) : Except Exc (Bool × ns3.TrafficControlHelper) :=
  -- some instance has to be created, but it is not used
  if value = "disabled".toList then .ok (false, ns3.trafficControlHelper)
  else if value = "default".toList then .ok (true, ns3.trafficControlHelper)
  else if isEncased "fq_codel(" value = true then do
    .ok (true, ← parseFqCodel ns3 (innerPart "fq_codel(" value))
  else if isEncased "fifo(" value = true then do
    .ok (true, ← parseFifo ns3 (innerPart "fifo(" value))
  else if isEncased "pfifo_fast(" value = true then do
    .ok (true, ← parsePfifoFast ns3 (innerPart "pfifo_fast(" value))
  else if isEncased "simple_red(" value = true then do
    let red ← parseSimpleRed stod (innerPart "simple_red(" value)
    .ok (true, ← red.helper ns3)
  else .error (.runtimeError ("Invalid traffic control qdisc value: " ++ String.ofList value))

/-- The default selectors. -/
def defaultSelectors : Selectors where
  ObjectFactory := ns3.ObjectFactory
  ErrorModel := Option RateErrorModel
  TrafficControlHelper := ns3.TrafficControlHelper
  parseQueueValue := parseQueueValue ns3
  parseReceiveErrorModelValue := parseReceiveErrorModelValue stod
  parseTcQdiscValue := parseTcQdiscValue ns3 stod

/-! ## The topology -/

/-- The constructor of `TopologyPtop` with the default selectors, up to the objects of ns-3. -/
def readTopology (filename : Str) (file : File) (assignment : Option (List Int)) :
    Except Exc (TopologyPtop × LinkProperties (defaultSelectors ns3 stod)) := do
  let (topologyConfig, allNodesAreEndpoints) ← readTopologyConfig filename file
  let topology ← parseTopologyGraph topologyConfig allNodesAreEndpoints assignment
  let linkProperties ← parseTopologyLinkProperties topology stod (defaultSelectors ns3 stod) topologyConfig
  .ok (topology, linkProperties)

end Parsing

end BasicSim
