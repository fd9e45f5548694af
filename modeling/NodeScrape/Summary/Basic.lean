import NodeScrape.Time.Timestamp

/-!
# Node summaries

What a kubelet reports about one node, its pods and their containers, reduced to processor and
memory usage. Every measurement carries the time when it was taken.
-/

namespace NodeScrape

/-- Processor usage. -/
structure CpuStats where
  /-- When it was measured. -/
  time : Timestamp
  /-- Current usage. -/
  usageNanoCores : Option UInt64
  /-- Usage since the start. -/
  usageCoreNanoSeconds : Option UInt64
  deriving DecidableEq

/-- Memory usage. -/
structure MemoryStats where
  /-- When it was measured. -/
  time : Timestamp
  /-- Memory that cannot be reclaimed at once. -/
  workingSetBytes : Option UInt64
  /-- Resident memory. -/
  rssBytes : Option UInt64
  deriving DecidableEq

/-- What is reported about a node itself. -/
structure NodeStats where
  /-- The name by which the node calls itself. -/
  nodeName : String
  cpu : Option CpuStats
  memory : Option MemoryStats
  deriving DecidableEq

/-- What is reported about a container. -/
structure ContainerStats where
  /-- Its name. -/
  name : String
  cpu : Option CpuStats
  memory : Option MemoryStats
  deriving DecidableEq

/-- The identity of a pod. -/
structure PodReference where
  name : String
  /-- The namespace that its name is unique in. -/
  space : String
  uid : String
  deriving DecidableEq

/-- What is reported about a pod. -/
structure PodStats where
  podRef : PodReference
  containers : List ContainerStats
  deriving DecidableEq

/-- What a node reports. -/
structure Summary where
  node : NodeStats
  pods : List PodStats
  deriving DecidableEq

end NodeScrape
