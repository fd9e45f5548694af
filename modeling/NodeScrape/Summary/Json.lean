import NodeScrape.Json.Data
import NodeScrape.Json.Read
import NodeScrape.Summary.Basic
import NodeScrape.Time.Rfc3339

/-!
# Summaries in JSON

Reading asks only for names, times and the identity of pods, and skips every member that it does
not know. Writing gives every member, with nothing in the place of what is absent.
-/

namespace NodeScrape

open Json

/-- Reads a point in time. -/
def Timestamp.read : Reader Timestamp := fun v => do
  let text ← readText "an RFC 3339 formatted date and time string" v
  match Rfc3339.parse? text with
  | some t => return t
  | none => throw .timestamp

/-- Processor usage of which only some members have been read. -/
structure CpuStatsDraft where
  time : Option Timestamp := none
  usageNanoCores : Option (Option UInt64) := none
  usageCoreNanoSeconds : Option (Option UInt64) := none

/-- How processor usage is read. -/
def CpuStats.record : RecordType CpuStatsDraft CpuStats where
  name := "CpuStats"
  fields := [
    ⟨"time", (·.time.isSome), false, fun v d => do
      return { d with time := some (← Timestamp.read v) }⟩,
    ⟨"usageNanoCores", (·.usageNanoCores.isSome), true, fun v d => do
      return { d with usageNanoCores := some (← readOption readUInt64 v) }⟩,
    ⟨"usageCoreNanoSeconds", (·.usageCoreNanoSeconds.isSome), true, fun v d => do
      return { d with usageCoreNanoSeconds := some (← readOption readUInt64 v) }⟩]
  empty := {}
  finish d := do
    let some time := d.time | throw "time"
    return ⟨time, d.usageNanoCores.getD none, d.usageCoreNanoSeconds.getD none⟩

/-- Memory usage of which only some members have been read. -/
structure MemoryStatsDraft where
  time : Option Timestamp := none
  workingSetBytes : Option (Option UInt64) := none
  rssBytes : Option (Option UInt64) := none

/-- How memory usage is read. -/
def MemoryStats.record : RecordType MemoryStatsDraft MemoryStats where
  name := "MemoryStats"
  fields := [
    ⟨"time", (·.time.isSome), false, fun v d => do
      return { d with time := some (← Timestamp.read v) }⟩,
    ⟨"workingSetBytes", (·.workingSetBytes.isSome), true, fun v d => do
      return { d with workingSetBytes := some (← readOption readUInt64 v) }⟩,
    ⟨"rssBytes", (·.rssBytes.isSome), true, fun v d => do
      return { d with rssBytes := some (← readOption readUInt64 v) }⟩]
  empty := {}
  finish d := do
    let some time := d.time | throw "time"
    return ⟨time, d.workingSetBytes.getD none, d.rssBytes.getD none⟩

/-- A name with usage of which only some members have been read. -/
structure UsageDraft where
  name : Option String := none
  cpu : Option (Option CpuStats) := none
  memory : Option (Option MemoryStats) := none

/-- The members of a named usage. -/
def usageFields (name : String) : List (Json.Field UsageDraft) := [
  ⟨name, (·.name.isSome), false, fun v d => do
    return { d with name := some (← readText "a string" v) }⟩,
  ⟨"cpu", (·.cpu.isSome), true, fun v d => do
    return { d with cpu := some (← readOption CpuStats.record.read v) }⟩,
  ⟨"memory", (·.memory.isSome), true, fun v d => do
    return { d with memory := some (← readOption MemoryStats.record.read v) }⟩]

/-- How a node's own usage is read. -/
def NodeStats.record : RecordType UsageDraft NodeStats where
  name := "NodeStats"
  fields := usageFields "nodeName"
  empty := {}
  finish d := do
    let some name := d.name | throw "nodeName"
    return ⟨name, d.cpu.getD none, d.memory.getD none⟩

/-- How a container is read. -/
def ContainerStats.record : RecordType UsageDraft ContainerStats where
  name := "ContainerStats"
  fields := usageFields "name"
  empty := {}
  finish d := do
    let some name := d.name | throw "name"
    return ⟨name, d.cpu.getD none, d.memory.getD none⟩

/-- An identity of which only some members have been read. -/
structure PodReferenceDraft where
  name : Option String := none
  space : Option String := none
  uid : Option String := none

/-- How the identity of a pod is read. -/
def PodReference.record : RecordType PodReferenceDraft PodReference where
  name := "PodReference"
  fields := [
    ⟨"name", (·.name.isSome), false, fun v d => do
      return { d with name := some (← readText "a string" v) }⟩,
    ⟨"namespace", (·.space.isSome), false, fun v d => do
      return { d with space := some (← readText "a string" v) }⟩,
    ⟨"uid", (·.uid.isSome), true, fun v d => do
      return { d with uid := some (← readText "a string" v) }⟩]
  empty := {}
  finish d := do
    let some name := d.name | throw "name"
    let some space := d.space | throw "namespace"
    return ⟨name, space, d.uid.getD ""⟩

/-- A pod of which only some members have been read. -/
structure PodStatsDraft where
  podRef : Option PodReference := none
  containers : Option (List ContainerStats) := none

/-- How a pod is read. -/
def PodStats.record : RecordType PodStatsDraft PodStats where
  name := "PodStats"
  fields := [
    ⟨"podRef", (·.podRef.isSome), false, fun v d => do
      return { d with podRef := some (← PodReference.record.read v) }⟩,
    ⟨"containers", (·.containers.isSome), true, fun v d => do
      return { d with containers := some (← readList ContainerStats.record.read v) }⟩]
  empty := {}
  finish d := do
    let some podRef := d.podRef | throw "podRef"
    return ⟨podRef, d.containers.getD []⟩

/-- A summary of which only some members have been read. -/
structure SummaryDraft where
  node : Option NodeStats := none
  pods : Option (List PodStats) := none

namespace Summary

/-- How a summary is read. -/
def record : RecordType SummaryDraft Summary where
  name := "Summary"
  fields := [
    ⟨"node", (·.node.isSome), false, fun v d => do
      return { d with node := some (← NodeStats.record.read v) }⟩,
    ⟨"pods", (·.pods.isSome), true, fun v d => do
      return { d with pods := some (← readList PodStats.record.read v) }⟩]
  empty := {}
  finish d := do
    let some node := d.node | throw "node"
    return ⟨node, d.pods.getD []⟩

/-- Decodes a summary from JSON. -/
def decode (bytes : List UInt8) : Except Json.Error Summary := Json.decode record.read bytes

end Summary

/-- A point in time as JSON. -/
def Timestamp.toData (t : Timestamp) : Data := .text t.text

/-- A word of 64 bits as JSON. -/
def wordData (n : UInt64) : Data := .number n.toNat

/-- Processor usage as JSON. -/
def CpuStats.toData (s : CpuStats) : Data := .object [
  ("time", s.time.toData),
  ("usageNanoCores", .ofOption wordData s.usageNanoCores),
  ("usageCoreNanoSeconds", .ofOption wordData s.usageCoreNanoSeconds)]

/-- Memory usage as JSON. -/
def MemoryStats.toData (s : MemoryStats) : Data := .object [
  ("time", s.time.toData),
  ("workingSetBytes", .ofOption wordData s.workingSetBytes),
  ("rssBytes", .ofOption wordData s.rssBytes)]

/-- A node's own usage as JSON. -/
def NodeStats.toData (s : NodeStats) : Data := .object [
  ("nodeName", .text s.nodeName),
  ("cpu", .ofOption CpuStats.toData s.cpu),
  ("memory", .ofOption MemoryStats.toData s.memory)]

/-- A container as JSON. -/
def ContainerStats.toData (s : ContainerStats) : Data := .object [
  ("name", .text s.name),
  ("cpu", .ofOption CpuStats.toData s.cpu),
  ("memory", .ofOption MemoryStats.toData s.memory)]

/-- The identity of a pod as JSON. -/
def PodReference.toData (s : PodReference) : Data := .object [
  ("name", .text s.name), ("namespace", .text s.space), ("uid", .text s.uid)]

/-- A pod as JSON. -/
def PodStats.toData (s : PodStats) : Data := .object [
  ("podRef", s.podRef.toData),
  ("containers", .array (s.containers.map ContainerStats.toData))]

/-- A summary as JSON. -/
def Summary.toData (s : Summary) : Data := .object [
  ("node", s.node.toData), ("pods", .array (s.pods.map PodStats.toData))]

/-- The JSON text of a summary. -/
def Summary.encode (s : Summary) : List UInt8 := s.toData.render

end NodeScrape
