import NodeScrape.Batch.Basic
import NodeScrape.Summary.Basic

/-!
# Points from a summary

A node whose own usage is unusable fails as a whole, because a zero would be misleading. A pod that
is unusable is dropped with a warning and costs the node nothing else.
-/

namespace NodeScrape

/-- What a usage lacks. -/
inductive UsageDefect where
  | noCpu
  | noMemory
  | noCpuUsage
  | noMemoryUsage
  deriving DecidableEq, Repr

/-- The sentence for a lack. -/
def UsageDefect.message : UsageDefect → String
  | noCpu => "missing cpu stats"
  | noMemory => "missing memory stats"
  | noCpuUsage => "missing cpu usage metric"
  | noMemoryUsage => "missing memory usage metric"

/-- Why a summary is unusable. -/
inductive SummaryDefect where
  /-- It is another node's. -/
  | otherNode (reported : String)
  /-- It lacks the node's usage. -/
  | usage (defect : UsageDefect)
  deriving DecidableEq, Repr

/-- The sentence for an unusable summary. -/
def SummaryDefect.message : SummaryDefect → String
  | otherNode reported => "summary reports node " ++ reported
  | usage defect => defect.message

/-- Why a pod is dropped. -/
inductive PodDefect where
  /-- It lacks its name or namespace. -/
  | unnamed
  /-- One of its containers has no name. -/
  | unnamedContainer
  /-- One of its containers lacks its usage. -/
  | container (name : String) (defect : UsageDefect)
  deriving DecidableEq, Repr

/-- The sentence for a dropped pod. -/
def PodDefect.message : PodDefect → String
  | unnamed => "pod reference without name or namespace"
  | unnamedContainer => "container without name"
  | container name defect => "container " ++ name ++ ": " ++ defect.message

/-- A pod that was dropped from a node's report. -/
structure DroppedPod where
  pod : PodReference
  /-- The listed name of the node. -/
  node : String
  defect : PodDefect
  deriving DecidableEq

/-- The warning about a dropped pod. -/
def DroppedPod.message (d : DroppedPod) : String :=
  "skip pod " ++ d.pod.space ++ "/" ++ d.pod.name ++ " on node " ++ d.node ++ ": " ++
    d.defect.message

/-- The usage that statistics hold, or the first thing that they lack. -/
def usageOf (cpu : Option CpuStats) (memory : Option MemoryStats) : Except UsageDefect Usage := do
  let some cpu := cpu | throw .noCpu
  let some memory := memory | throw .noMemory
  let some cores := cpu.usageNanoCores | throw .noCpuUsage
  let some bytes := memory.workingSetBytes | throw .noMemoryUsage
  return ⟨⟨cores, cpu.time⟩, ⟨bytes, memory.time⟩⟩

/-- The point of a container. -/
def ContainerStats.point (c : ContainerStats) : Except PodDefect ContainerPoint :=
  if c.name.isEmpty then .error .unnamedContainer
  else match usageOf c.cpu c.memory with
    | .ok usage => .ok ⟨c.name, usage⟩
    | .error defect => .error (.container c.name defect)

/-- The point of a pod, or its first defect. -/
def PodStats.point (p : PodStats) : Except PodDefect PodPoint :=
  if p.podRef.name.isEmpty || p.podRef.space.isEmpty then .error .unnamed
  else match p.containers.mapM ContainerStats.point with
    | .ok containers => .ok ⟨p.podRef.space, p.podRef.name, containers⟩
    | .error defect => .error defect

namespace Summary

/-- The points of the usable pods, in their order. -/
def podPoints (s : Summary) : List PodPoint :=
  s.pods.filterMap fun p => p.point.toOption

/-- The pods that are dropped, in their order. -/
def droppedPods (s : Summary) (node : String) : List DroppedPod :=
  s.pods.filterMap fun p => match p.point with
    | .ok _ => none
    | .error defect => some ⟨p.podRef, node, defect⟩

/-- The points of a summary fetched from a listed node. A summary may leave the node's name out but
not give another one. -/
def points (s : Summary) (node : String) : Except SummaryDefect NodePoints :=
  if !s.node.nodeName.isEmpty && s.node.nodeName != node then .error (.otherNode s.node.nodeName)
  else match usageOf s.node.cpu s.node.memory with
    | .ok usage => .ok ⟨⟨node, usage⟩, s.podPoints⟩
    | .error defect => .error (.usage defect)

/-- The warnings that go with the points; none if the summary is unusable. -/
def warnings (s : Summary) (node : String) : List DroppedPod :=
  match s.points node with
  | .ok _ => s.droppedPods node
  | .error _ => []

end Summary

end NodeScrape
