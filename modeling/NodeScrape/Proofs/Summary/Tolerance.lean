import NodeScrape.Proofs.Json.Layout
import NodeScrape.Summary.Json

/-!
# Summaries beyond what is known of them

A summary decodes to the same whatever the order of its members at any level, and whatever stands in
members that are not known there.
-/

namespace NodeScrape

open Json

/-! ## Values that are read as a whole -/

/-- A text is closed. -/
theorem readText_fits (expected : String) : Fits .leaf (readText expected) := by
  refine .of_leaf fun {v text} h => ?_
  cases v with
  | text token =>
    rw [readText, readToken] at h
    rw [Value.skip]
    cases htext : token.read with
    | error e =>
      rw [htext] at h
      cases h
    | ok text => exact TextToken.fault_of_read htext
  | _ => exact absurd h (Value.refuse_ne_ok _ _ text)

/-- A point in time is a text. -/
theorem Timestamp.read_fits : Fits .leaf Timestamp.read := by
  refine .of_leaf fun {v t} h => ?_
  rw [Timestamp.read] at h
  cases htext : readText "an RFC 3339 formatted date and time string" v with
  | error e =>
    rw [htext] at h
    cases h
  | ok text => exact (readText_fits _).skip htext

/-- A word is a number. -/
theorem readUInt64_fits : Fits .leaf readUInt64 := by
  refine .of_leaf fun {v n} h => ?_
  obtain ⟨m, hm, -⟩ := map_eq_ok_iff.mp h
  cases v with
  | number token => rfl
  | _ => exact absurd hm (Value.refuse_ne_ok _ _ m)

/-! ## The records of a summary -/

/-- What is looked at in processor usage. -/
def CpuStats.layout : Layout := .record [
  ("time", .leaf), ("usageNanoCores", .leaf), ("usageCoreNanoSeconds", .leaf)]

theorem CpuStats.read_fits : Fits CpuStats.layout CpuStats.record.read := by
  have htime : Keeps CpuStats.record.fields[0] Timestamp.read
      (fun t d => { d with time := some t }) := ⟨fun _ _ => rfl, fun _ _ => rfl⟩
  have hnow : Keeps CpuStats.record.fields[1] (readOption readUInt64)
      (fun n d => { d with usageNanoCores := some n }) := ⟨fun _ _ => rfl, fun _ _ => rfl⟩
  have hsince : Keeps CpuStats.record.fields[2] (readOption readUInt64)
      (fun n d => { d with usageCoreNanoSeconds := some n }) := ⟨fun _ _ => rfl, fun _ _ => rfl⟩
  refine .record (.triple htime hnow hsince Timestamp.read_fits readUInt64_fits.option
    readUInt64_fits.option ?_ ?_ ?_)
  · exact htime.apart hnow (fun _ _ => rfl) (fun _ _ => rfl) fun _ _ _ => rfl
  · exact htime.apart hsince (fun _ _ => rfl) (fun _ _ => rfl) fun _ _ _ => rfl
  · exact hnow.apart hsince (fun _ _ => rfl) (fun _ _ => rfl) fun _ _ _ => rfl

/-- What is looked at in memory usage. -/
def MemoryStats.layout : Layout := .record [
  ("time", .leaf), ("workingSetBytes", .leaf), ("rssBytes", .leaf)]

theorem MemoryStats.read_fits : Fits MemoryStats.layout MemoryStats.record.read := by
  have htime : Keeps MemoryStats.record.fields[0] Timestamp.read
      (fun t d => { d with time := some t }) := ⟨fun _ _ => rfl, fun _ _ => rfl⟩
  have hworking : Keeps MemoryStats.record.fields[1] (readOption readUInt64)
      (fun n d => { d with workingSetBytes := some n }) := ⟨fun _ _ => rfl, fun _ _ => rfl⟩
  have hresident : Keeps MemoryStats.record.fields[2] (readOption readUInt64)
      (fun n d => { d with rssBytes := some n }) := ⟨fun _ _ => rfl, fun _ _ => rfl⟩
  refine .record (.triple htime hworking hresident Timestamp.read_fits readUInt64_fits.option
    readUInt64_fits.option ?_ ?_ ?_)
  · exact htime.apart hworking (fun _ _ => rfl) (fun _ _ => rfl) fun _ _ _ => rfl
  · exact htime.apart hresident (fun _ _ => rfl) (fun _ _ => rfl) fun _ _ _ => rfl
  · exact hworking.apart hresident (fun _ _ => rfl) (fun _ _ => rfl) fun _ _ _ => rfl

/-- What is looked at in a named usage. -/
def usageLayout (name : String) : Layout := .record [
  (name, .leaf), ("cpu", CpuStats.layout), ("memory", MemoryStats.layout)]

theorem usageFields_fits {α : Type} {r : RecordType UsageDraft α} {name : String}
    (hfields : r.fields = usageFields name) : Fits (usageLayout name) r.read := by
  have hlength : (usageFields name).length = 3 := rfl
  have hname : Keeps (usageFields name)[0] (readText "a string")
      (fun t d => { d with name := some t }) := ⟨fun _ _ => rfl, fun _ _ => rfl⟩
  have hcpu : Keeps (usageFields name)[1] (readOption CpuStats.record.read)
      (fun c d => { d with cpu := some c }) := ⟨fun _ _ => rfl, fun _ _ => rfl⟩
  have hmemory : Keeps (usageFields name)[2] (readOption MemoryStats.record.read)
      (fun m d => { d with memory := some m }) := ⟨fun _ _ => rfl, fun _ _ => rfl⟩
  refine .record (hfields ▸ .triple hname hcpu hmemory (readText_fits _) CpuStats.read_fits.option
    MemoryStats.read_fits.option ?_ ?_ ?_)
  · exact hname.apart hcpu (fun _ _ => rfl) (fun _ _ => rfl) fun _ _ _ => rfl
  · exact hname.apart hmemory (fun _ _ => rfl) (fun _ _ => rfl) fun _ _ _ => rfl
  · exact hcpu.apart hmemory (fun _ _ => rfl) (fun _ _ => rfl) fun _ _ _ => rfl

/-- What is looked at in the identity of a pod. -/
def PodReference.layout : Layout := .record [
  ("name", .leaf), ("namespace", .leaf), ("uid", .leaf)]

theorem PodReference.read_fits : Fits PodReference.layout PodReference.record.read := by
  have hname : Keeps PodReference.record.fields[0] (readText "a string")
      (fun t d => { d with name := some t }) := ⟨fun _ _ => rfl, fun _ _ => rfl⟩
  have hspace : Keeps PodReference.record.fields[1] (readText "a string")
      (fun t d => { d with space := some t }) := ⟨fun _ _ => rfl, fun _ _ => rfl⟩
  have huid : Keeps PodReference.record.fields[2] (readText "a string")
      (fun t d => { d with uid := some t }) := ⟨fun _ _ => rfl, fun _ _ => rfl⟩
  refine .record (.triple hname hspace huid (readText_fits _) (readText_fits _) (readText_fits _)
    ?_ ?_ ?_)
  · exact hname.apart hspace (fun _ _ => rfl) (fun _ _ => rfl) fun _ _ _ => rfl
  · exact hname.apart huid (fun _ _ => rfl) (fun _ _ => rfl) fun _ _ _ => rfl
  · exact hspace.apart huid (fun _ _ => rfl) (fun _ _ => rfl) fun _ _ _ => rfl

/-- What is looked at in a pod. -/
def PodStats.layout : Layout := .record [
  ("podRef", PodReference.layout), ("containers", .list (usageLayout "name"))]

theorem PodStats.read_fits : Fits PodStats.layout PodStats.record.read := by
  have hpodRef : Keeps PodStats.record.fields[0] PodReference.record.read
      (fun p d => { d with podRef := some p }) := ⟨fun _ _ => rfl, fun _ _ => rfl⟩
  have hcontainers : Keeps PodStats.record.fields[1] (readList ContainerStats.record.read)
      (fun cs d => { d with containers := some cs }) := ⟨fun _ _ => rfl, fun _ _ => rfl⟩
  refine .record (.cons rfl hpodRef PodReference.read_fits ?_
    (.cons rfl hcontainers (usageFields_fits rfl).list nofun .nil))
  exact List.forall_mem_singleton.mpr
    (hpodRef.apart hcontainers (fun _ _ => rfl) (fun _ _ => rfl) fun _ _ _ => rfl)

namespace Summary

/-- What is known of the members of a summary. -/
def known : List (String × Layout) := [
  ("node", usageLayout "nodeName"), ("pods", .list PodStats.layout)]

/-- What is looked at in a summary. -/
def layout : Layout := .record known

theorem keeps_pods : Keeps record.fields[1] (readList PodStats.record.read)
    (fun ps d => { d with pods := some ps }) := ⟨fun _ _ => rfl, fun _ _ => rfl⟩

theorem fields_agree : Agree known record.fields := by
  have hnode : Keeps record.fields[0] NodeStats.record.read
      (fun n d => { d with node := some n }) := ⟨fun _ _ => rfl, fun _ _ => rfl⟩
  refine .cons rfl hnode (usageFields_fits rfl) ?_
    (.cons rfl keeps_pods PodStats.read_fits.list nofun .nil)
  exact List.forall_mem_singleton.mpr
    (hnode.apart keeps_pods (fun _ _ => rfl) (fun _ _ => rfl) fun _ _ _ => rfl)

theorem read_fits : Fits layout record.read := .record fields_agree

/-- Every body that decodes is a JSON text. Members in another order at any level of it, and
further members under names that are not known at their level, leave it decoding to the same
summary. -/
theorem decode_edited {bytes : List UInt8} {s : Summary} (hdecode : decode bytes = .ok s) :
    (∃ text : Script, text.bytes = bytes) ∧
      ∀ text text' : Script, text.bytes = bytes →
        Relation.ReflTransGen (Edit layout) text.phrase text'.phrase →
        decode text'.bytes = .ok s := by
  refine ⟨exists_script_of_decode (fun v a => read_fits.skip) hdecode, ?_⟩
  rintro text text' rfl hedits
  rw [decode, decode_script] at hdecode ⊢
  exact read_fits.edits hedits hdecode

/-- The pods before the node, and a list under an unknown name in the node. -/
theorem decode_edited_with_unknown :
    let nodeName : Label × Phrase := (.ofString "nodeName", .text (.ofString "a"))
    let unknown : Label × Phrase := (.ofString "x", .array .none [(.none, .null)])
    let node (more : List (Label × Phrase)) : Label × Phrase :=
      (.ofString "node", .object .none (nodeName :: more))
    let pods : Label × Phrase := (.ofString "pods", .array .none [])
    let text : Script := ⟨.none, .object .none [node [], pods]⟩
    let text' : Script := ⟨.none, .object .none [pods, node [unknown]]⟩
    decode text.bytes = .ok ⟨⟨"a", none, none⟩, []⟩ ∧
      decode text'.bytes = .ok ⟨⟨"a", none, none⟩, []⟩ := by
  intro nodeName unknown node pods text text'
  have hdecode : decode text.bytes = .ok ⟨⟨"a", none, none⟩, []⟩ := by
    rw [decode, decode_script]
    decide +kernel
  have hinsert : Edit (usageLayout "nodeName") (node []).2 (node [unknown]).2 :=
    @Edit.insert _ .none [nodeName] [] unknown.1 "x" unknown.2 (StringText.read_ofString "x")
      (by decide +kernel)
  have hmember : Edit layout text.phrase (.object .none [node [unknown], pods]) :=
    @Edit.member known .none [] [pods] (node []).1 "node" _ _ _
      (StringText.read_ofString "node") rfl hinsert
  have hreorder : Edit layout (.object .none [node [unknown], pods]) text'.phrase :=
    .reorder (.swap _ _ _)
  exact ⟨hdecode, (decode_edited hdecode).2 text text' rfl (.tail (.single hmember) hreorder)⟩

end Summary

end NodeScrape
