import NodeScrape.Proofs.Json.Written
import NodeScrape.Proofs.Time.Rfc3339
import NodeScrape.Summary.Json

/-!
# Summaries read back from their JSON

Every reader finds what the writer of the same kind has written: a record by its members in their
order, a list item by item, an absent value as nothing. So a summary is the summary that its own
JSON text decodes to.
-/

namespace NodeScrape

open Json

section Readers

variable {α σ : Type} {read : Reader α} {write : α → Data}

theorem readToken_ofString (s : String) : readToken (.ofString s) = .ok s := by
  rw [readToken, TextToken.read_ofString]
  rfl

@[simp] theorem readText_text (expected : String) (s : String) :
    readText expected (Data.text s).toValue = .ok s := by
  rw [Data.toValue, readText, readToken_ofString]

/-- A word of 64 bits is read back. -/
@[simp] theorem readUInt64_wordData (n : UInt64) : readUInt64 (wordData n).toValue = .ok n := by
  have hn : n.toNat < UInt64.size := n.toNat_lt
  rw [wordData, Data.toValue, readUInt64, readNat, NumberToken.value?_ofNat hn]
  simp only [if_pos hn]
  exact congrArg Except.ok (UInt64.ofNat_toNat)

/-- A point in time is read back. -/
@[simp] theorem Timestamp.read_toData (t : Timestamp) :
    Timestamp.read t.toData.toValue = .ok t := by
  rw [Timestamp.toData, Timestamp.read, readText_text]
  simp only [bind, Except.bind, Rfc3339.parse?_text]
  rfl

/-- A value that may be absent is read back, unless it is itself written as nothing. -/
theorem readOption_ofOption (hread : ∀ a, read (write a).toValue = .ok a)
    (hnull : ∀ a, (write a).toValue ≠ .null) (o : Option α) :
    readOption read (Data.ofOption write o).toValue = .ok o := by
  cases o with
  | none => rfl
  | some a =>
    have hsome : ∀ v : Value, v ≠ .null → readOption read v = some <$> read v := by
      intro v hv
      cases v <;> first | rfl | exact absurd rfl hv
    rw [Data.ofOption, hsome _ (hnull a), hread]
    rfl

theorem toValue_object_ne_null (members : List (String × Data)) :
    (Data.object members).toValue ≠ .null := nofun

/-- A list is read back item by item. -/
theorem readList_array (hread : ∀ a, read (write a).toValue = .ok a) (as : List α) :
    readList read (Data.array (as.map write)).toValue = .ok as := by
  have hitems : (valuesOf (as.map write)).mapM read = .ok as := by
    induction as with
    | nil => rfl
    | cons a as ih =>
      rw [List.map_cons, valuesOf, List.mapM_cons, hread, ih]
      rfl
  rw [Data.toValue, readList, hitems]
  rfl

/-- A member is read into the draft by the field of its name. -/
theorem readMembers_cons {β : Type} {fields : List (Json.Field σ)} {field : Json.Field σ}
    {name : String} {v : Value} {rest : List (Value × Value)} {draft : σ} {get : Reader β}
    {set : β → σ} {b : β}
    (hget : get v = .ok b) (hfield : fields.find? (·.name = name) = some field)
    (hset : field.isSet draft = false)
    (hread : field.read v draft = do return set (← get v)) :
    readMembers fields ((.text (.ofString name), v) :: rest) draft =
      readMembers fields rest (set b) := by
  rw [hget] at hread
  rw [readMembers]
  simp only [readToken_ofString, bind, Except.bind, hfield, hset, hread]
  rfl

/-- A record is read from its members once they have filled the draft. -/
theorem RecordType.read_object {r : RecordType σ α} {members : List (String × Data)} {d : σ}
    {a : α} (hmembers : readMembers r.fields (membersOf members) r.empty = .ok d)
    (hfinish : r.finish d = .ok a) : r.read (Data.object members).toValue = .ok a := by
  rw [Data.toValue, RecordType.read]
  simp only [hmembers, atEnd, bind, Except.bind, hfinish]
  rfl

end Readers

/-! ## The records of a summary -/

/-- Processor usage is read back. -/
theorem CpuStats.read_toData (s : CpuStats) : CpuStats.record.read s.toData.toValue = .ok s := by
  have htime := Timestamp.read_toData s.time
  have hnow := readOption_ofOption readUInt64_wordData nofun s.usageNanoCores
  have hsince := readOption_ofOption readUInt64_wordData nofun s.usageCoreNanoSeconds
  refine RecordType.read_object
    (d := ⟨some s.time, some s.usageNanoCores, some s.usageCoreNanoSeconds⟩) ?_ rfl
  refine (readMembers_cons htime rfl rfl rfl).trans ?_
  refine (readMembers_cons hnow rfl rfl rfl).trans ?_
  refine (readMembers_cons hsince rfl rfl rfl).trans ?_
  rfl

/-- Memory usage is read back. -/
theorem MemoryStats.read_toData (s : MemoryStats) :
    MemoryStats.record.read s.toData.toValue = .ok s := by
  have htime := Timestamp.read_toData s.time
  have hworking := readOption_ofOption readUInt64_wordData nofun s.workingSetBytes
  have hresident := readOption_ofOption readUInt64_wordData nofun s.rssBytes
  refine RecordType.read_object
    (d := ⟨some s.time, some s.workingSetBytes, some s.rssBytes⟩) ?_ rfl
  refine (readMembers_cons htime rfl rfl rfl).trans ?_
  refine (readMembers_cons hworking rfl rfl rfl).trans ?_
  refine (readMembers_cons hresident rfl rfl rfl).trans ?_
  rfl

/-- The members of a named usage fill their draft, whatever the name is called. -/
theorem readMembers_usageFields {member : String} (hnotCpu : member ≠ "cpu")
    (hnotMemory : member ≠ "memory") (name : String) (cpu : Option CpuStats)
    (memory : Option MemoryStats) :
    readMembers (usageFields member)
      (membersOf [(member, .text name), ("cpu", .ofOption CpuStats.toData cpu),
        ("memory", .ofOption MemoryStats.toData memory)]) {} =
      .ok ⟨some name, some cpu, some memory⟩ := by
  have hname := readText_text "a string" name
  have hcpu := readOption_ofOption CpuStats.read_toData (fun s => toValue_object_ne_null _) cpu
  have hmemory := readOption_ofOption MemoryStats.read_toData
    (fun s => toValue_object_ne_null _) memory
  have hfirst : (usageFields member).find? (·.name = member) = (usageFields member)[0]? :=
    List.find?_cons_of_pos (by simp)
  have hsecond : (usageFields member).find? (·.name = "cpu") = (usageFields member)[1]? :=
    List.find?_cons_of_neg (by simpa using hnotCpu)
  have hthird : (usageFields member).find? (·.name = "memory") = (usageFields member)[2]? :=
    List.find?_cons_of_neg (by simpa using hnotMemory)
  refine (readMembers_cons hname hfirst rfl rfl).trans ?_
  refine (readMembers_cons hcpu hsecond rfl rfl).trans ?_
  refine (readMembers_cons hmemory hthird rfl rfl).trans ?_
  rfl

/-- A node's own usage is read back. -/
theorem NodeStats.read_toData (s : NodeStats) : NodeStats.record.read s.toData.toValue = .ok s :=
  RecordType.read_object
    (readMembers_usageFields (by decide) (by decide) s.nodeName s.cpu s.memory) rfl

/-- A container is read back. -/
theorem ContainerStats.read_toData (s : ContainerStats) :
    ContainerStats.record.read s.toData.toValue = .ok s :=
  RecordType.read_object
    (readMembers_usageFields (by decide) (by decide) s.name s.cpu s.memory) rfl

/-- The identity of a pod is read back. -/
theorem PodReference.read_toData (s : PodReference) :
    PodReference.record.read s.toData.toValue = .ok s := by
  have hname := readText_text "a string" s.name
  have hspace := readText_text "a string" s.space
  have huid := readText_text "a string" s.uid
  refine RecordType.read_object (d := ⟨some s.name, some s.space, some s.uid⟩) ?_ rfl
  refine (readMembers_cons hname rfl rfl rfl).trans ?_
  refine (readMembers_cons hspace rfl rfl rfl).trans ?_
  refine (readMembers_cons huid rfl rfl rfl).trans ?_
  rfl

/-- A pod is read back. -/
theorem PodStats.read_toData (s : PodStats) : PodStats.record.read s.toData.toValue = .ok s := by
  have hpodRef := PodReference.read_toData s.podRef
  have hcontainers := readList_array ContainerStats.read_toData s.containers
  refine RecordType.read_object (d := ⟨some s.podRef, some s.containers⟩) ?_ rfl
  refine (readMembers_cons hpodRef rfl rfl rfl).trans ?_
  refine (readMembers_cons hcontainers rfl rfl rfl).trans ?_
  rfl

/-- A summary is read back. -/
theorem Summary.read_toData (s : Summary) : Summary.record.read s.toData.toValue = .ok s := by
  have hnode := NodeStats.read_toData s.node
  have hpods := readList_array PodStats.read_toData s.pods
  refine RecordType.read_object (d := ⟨some s.node, some s.pods⟩) ?_ rfl
  refine (readMembers_cons hnode rfl rfl rfl).trans ?_
  refine (readMembers_cons hpods rfl rfl rfl).trans ?_
  rfl

/-- The text of a summary decodes to that summary. -/
theorem Summary.decode_render (s : Summary) : Summary.decode s.encode = .ok s := by
  have hdocument : document s.encode = ⟨s.toData.toValue, false⟩ := document_render s.toData
  rw [Summary.decode, Json.decode, hdocument]
  simp only [Summary.read_toData, bind, Except.bind]
  rfl

/-- A summary survives its own JSON, whatever it holds, and so does every text that decodes: written
back it decodes to the same summary, and a text with a fault keeps its error. -/
theorem Summary.survives_own_json :
    (∀ s : Summary, Summary.decode s.encode = .ok s) ∧
      (∀ bytes : List UInt8,
        (Summary.decode bytes >>= fun s => Summary.decode s.encode) = Summary.decode bytes) := by
  refine ⟨Summary.decode_render, ?_⟩
  intro bytes
  cases hread : Summary.decode bytes with
  | error e => rfl
  | ok s => exact Summary.decode_render s

end NodeScrape
