import NodeScrape.Time.Timestamp

/-!
# Batches of measurements

The result of one scrape cycle: a point for every node that answered, and one for each of its pods.
-/

namespace NodeScrape

/-- A value and the time when it was measured. -/
structure Measurement where
  value : UInt64
  time : Timestamp
  deriving DecidableEq

/-- The usage of a node or container: nanocores and bytes. -/
structure Usage where
  cpu : Measurement
  memory : Measurement
  deriving DecidableEq

/-- The usage of a node. -/
structure NodePoint where
  /-- The listed name of the node. -/
  name : String
  usage : Usage
  deriving DecidableEq

/-- The usage of a container. -/
structure ContainerPoint where
  name : String
  usage : Usage
  deriving DecidableEq

/-- The usage of a pod's containers. -/
structure PodPoint where
  /-- The namespace of the pod. -/
  space : String
  name : String
  containers : List ContainerPoint
  deriving DecidableEq

/-- What one node contributes to a batch. -/
structure NodePoints where
  node : NodePoint
  pods : List PodPoint
  deriving DecidableEq

/-- The measurements of one cycle; their order carries no meaning. -/
structure Batch where
  nodes : List NodePoint := []
  pods : List PodPoint := []
  deriving DecidableEq

/-- Adds what one node contributes. -/
def Batch.add (batch : Batch) (points : NodePoints) : Batch :=
  ⟨batch.nodes ++ [points.node], batch.pods ++ points.pods⟩

end NodeScrape
