import NodeScrape.Proofs.Batch.Points
import NodeScrape.Proofs.Summary.Tolerance

/-!
# A further pod

What a further pod in a body does to the summary that the body decodes to, and to its points. One
that is read costs the others nothing, whatever its own defects; the error of one that is not read is
the error of the body.
-/

namespace NodeScrape

open Json

/-- A list with a further item is read with what that item is read as in its place. -/
theorem readList_insert {α : Type} {read : Reader α} {gap : Blanks}
    {front back : List (Margin × Phrase)} {as : List α}
    (hread : readList read (Phrase.array gap (front ++ back)).tree = .ok as)
    (item : Margin × Phrase) :
    readList read (Phrase.array gap (front ++ item :: back)).tree =
      (fun a => as.take front.length ++ a :: as.drop front.length) <$> read item.2.tree := by
  obtain ⟨items, hitems, has⟩ := readList_eq_ok_iff.mp hread
  rw [Phrase.tree, itemTrees_eq_map, List.map_append, Value.array.injEq] at hitems
  obtain ⟨rfl, -⟩ := hitems
  have hinsert := mapM_insert has item.2.tree
  rw [List.length_map] at hinsert
  rw [Phrase.tree, itemTrees_eq_map, List.map_append, List.map_cons, readList, hinsert]
  cases read item.2.tree <;> rfl

namespace Summary

/-- A summary with a further pod. -/
def insertPod (s : Summary) (n : Nat) (p : PodStats) : Summary :=
  ⟨s.node, s.pods.take n ++ p :: s.pods.drop n⟩

/-- One phrase of a summary has a further pod in its list of pods, behind so many others. The list is
that of a member, or the second item where the summary itself is a list. -/
inductive HasFurther (pod : Script) : Nat → Phrase → Phrase → Prop where
  | named {gap inner : Blanks} {front back : List (Label × Phrase)} {label : Label}
      {before after : List (Margin × Phrase)} (hname : label.name.token.read = .ok "pods") :
      HasFurther pod before.length
        (.object gap (front ++ (label, .array inner (before ++ after)) :: back))
        (.object gap
          (front ++ (label, .array inner (before ++ (pod.margin, pod.phrase) :: after)) :: back))
  | listed {gap inner : Blanks} {node : Margin × Phrase} {margin : Margin}
      {before after : List (Margin × Phrase)} :
      HasFurther pod before.length
        (.array gap [node, (margin, .array inner (before ++ after))])
        (.array gap [node, (margin, .array inner (before ++ (pod.margin, pod.phrase) :: after))])

variable {pod : Script} {n : Nat} {p q : Phrase} {s : Summary}

/-- Under a list of pods, a summary is read as its node with these pods. -/
private theorem finish_pods {e : SummaryDraft} {pods : List PodStats}
    (h : record.finish { e with pods := some pods } = .ok s) :
    s.pods = pods ∧ ∀ pods', record.finish { e with pods := some pods' } = .ok ⟨s.node, pods'⟩ := by
  obtain ⟨node, _⟩ := e
  cases node with
  | none => cases h
  | some node =>
    obtain rfl := Except.ok.inj h
    exact ⟨rfl, fun _ => rfl⟩

/-- A summary as a list of its node and its pods. -/
private theorem read_list (node pods : Value) :
    record.read (.array [node, pods] none) = do
      return ⟨← NodeStats.record.read node, ← readList PodStats.record.read pods⟩ := by
  rw [RecordType.read]
  simp only [record, readItems, bind, Except.bind]
  cases NodeStats.record.read node with
  | error e => rfl
  | ok a => cases readList PodStats.record.read pods <;> rfl

/-- A summary with a further pod is read with it if that pod is read, and fails with its error if it
is not. -/
theorem read_insertPod (h : HasFurther pod n p q) (hread : record.read p.tree = .ok s) :
    record.read q.tree = s.insertPod n <$> PodStats.record.read pod.phrase.tree := by
  cases h with
  | @named gap inner front back label before after hname =>
    obtain ⟨d, hmembers, -, hfinish⟩ := RecordType.read_members_eq_ok_iff.mp hread
    rw [memberTrees_eq_map, List.map_append, List.map_cons] at hmembers
    obtain ⟨pods, e, hpods, rfl, hreplace⟩ :=
      fields_agree.orderly.readMembers_replace keeps_pods hname rfl hmembers
    obtain ⟨rfl, hothers⟩ := finish_pods hfinish
    rw [Phrase.tree, RecordType.read_members, memberTrees_eq_map, List.map_append, List.map_cons,
      hreplace, readList_insert hpods]
    cases PodStats.record.read pod.phrase.tree with
    | error x => rfl
    | ok a => exact congrArg (Except.mapError _) (hothers _)
  | @listed gap inner node margin before after =>
    have hlist : ∀ pods : Phrase, (Phrase.array gap [node, (margin, pods)]).tree =
        .array [node.2.tree, pods.tree] none := fun _ => rfl
    rw [hlist, read_list] at hread ⊢
    cases hnode : NodeStats.record.read node.2.tree with
    | error e =>
      rw [hnode] at hread
      cases hread
    | ok a =>
      rw [hnode] at hread
      cases hpods : readList PodStats.record.read (Phrase.array inner (before ++ after)).tree with
      | error e =>
        rw [hpods] at hread
        cases hread
      | ok as =>
        rw [hpods] at hread
        obtain rfl := Except.ok.inj hread
        rw [readList_insert hpods]
        cases PodStats.record.read pod.phrase.tree <;> rfl

/-- A further pod adds its own point, if it comes to one, and nothing else. -/
theorem podPoints_insertPod (s : Summary) (n : Nat) (p : PodStats) :
    ∃ front back, s.podPoints = front ++ back ∧
      (s.insertPod n p).podPoints = front ++ p.point.toOption.toList ++ back := by
  refine ⟨(s.pods.take n).filterMap (·.point.toOption), (s.pods.drop n).filterMap (·.point.toOption),
    ?_, ?_⟩
  · rw [← List.filterMap_append, List.take_append_drop, podPoints]
  · rw [podPoints, insertPod, List.filterMap_append, List.append_assoc]
    cases hpoint : p.point with
    | error d => rw [List.filterMap_cons_none (by rw [hpoint]; rfl)]; rfl
    | ok q => rw [List.filterMap_cons_some (b := q) (by rw [hpoint]; rfl)]; rfl

theorem points_insertPod {node : String} {points : NodePoints} (n : Nat) (p : PodStats)
    (h : s.points node = .ok points) :
    ∃ front back, points.pods = front ++ back ∧
      (s.insertPod n p).points node =
        .ok ⟨points.node, front ++ p.point.toOption.toList ++ back⟩ := by
  obtain ⟨front, back, hpods, hinserted⟩ := s.podPoints_insertPod n p
  obtain ⟨hfits, hname, hcopy, hpoints⟩ := points_eq_ok_iff.mp h
  exact ⟨front, back, hpoints.trans hpods,
    points_eq_ok_iff.mpr ⟨hfits, hname, hcopy, hinserted.symm⟩⟩

/-- A body whose pods have a further one among them decodes to the summary with that pod in its
place, if the pod decodes as one. The point of the node is then the same, and so are those of the
other pods in their order; the further pod adds its own point at most. If the further pod does not
decode, its error is that of the body. -/
theorem decode_with_further_pod {text text' pod : Script} {n : Nat} {s : Summary} {node : String}
    {points : NodePoints} (hdecode : decode text.bytes = .ok s)
    (hpoints : s.points node = .ok points)
    (hfurther : HasFurther pod n text.phrase text'.phrase) :
    (∀ p, Json.decode PodStats.record.read pod.bytes = .ok p →
      decode text'.bytes = .ok (s.insertPod n p) ∧
        ∃ front back, points.pods = front ++ back ∧
          (s.insertPod n p).points node =
            .ok ⟨points.node, front ++ p.point.toOption.toList ++ back⟩) ∧
    (∀ e, Json.decode PodStats.record.read pod.bytes = .error e →
      decode text'.bytes = .error e) := by
  rw [decode, decode_script] at hdecode
  have hread := read_insertPod hfurther hdecode
  rw [decode, decode_script, decode_script, hread]
  refine ⟨fun p hp => ?_, fun e he => ?_⟩
  · rw [hp]
    exact ⟨rfl, points_insertPod n p hpoints⟩
  · rw [he]
    rfl

/-- A body with the usage of a node and some pods. -/
def sampleBody (pods : List (Margin × Phrase)) : Script :=
  let time : Label × Phrase := (.ofString "time", .text (.ofString "2021-03-04T10:00:00Z"))
  let word : Phrase := .number ⟨false, [7], [], none, .inr ⟨7, [], rfl, by decide⟩⟩
  let cpu : Phrase := .object .none [time, (.ofString "usageNanoCores", word)]
  let memory : Phrase := .object .none [time, (.ofString "workingSetBytes", word)]
  let node : Phrase := .object .none [
    (.ofString "nodeName", .text (.ofString "a")),
    (.ofString "cpu", cpu), (.ofString "memory", memory)]
  ⟨.none, .object .none [(.ofString "node", node), (.ofString "pods", .array .none pods)]⟩

/-- A pod with some members of its identity. -/
def samplePod (identity : List (Label × Phrase)) : Script :=
  ⟨.none, .object .none [(.ofString "podRef", .object .none identity)]⟩

/-- The summary of the body without pods. -/
private def sampleSummary : Summary :=
  let now : Timestamp := ⟨⟨2021, 3, 4, by decide⟩, 36000, 0, by decide, by decide⟩
  ⟨⟨"a", some ⟨now, some 7, none⟩, some ⟨now, some 7, none⟩⟩, []⟩

private theorem sampleBody_hasFurther (pod : Script) :
    HasFurther pod 0 (sampleBody []).phrase (sampleBody [(pod.margin, pod.phrase)]).phrase :=
  @HasFurther.named pod .none .none [_] [] _ [] [] (StringText.read_ofString "pods")

private theorem decode_sampleBody : decode (sampleBody []).bytes = .ok sampleSummary := by
  rw [decode, decode_script]
  decide +kernel

/-- A further pod with an empty namespace leaves the points as they are. -/
theorem decode_with_further_pod_unnamed :
    let name : Label × Phrase := (.ofString "name", .text (.ofString "p"))
    let space : Label × Phrase := (.ofString "namespace", .text (.ofString ""))
    let pod := samplePod [name, space]
    ∃ s points, decode (sampleBody []).bytes = .ok s ∧ s.points "a" = .ok points ∧
      ∃ s', decode (sampleBody [(pod.margin, pod.phrase)]).bytes = .ok s' ∧
        s'.points "a" = .ok points := by
  intro name space pod
  obtain ⟨points, hpoints⟩ : ∃ points, sampleSummary.points "a" = .ok points := ⟨_, rfl⟩
  have hpod : Json.decode PodStats.record.read pod.bytes = .ok ⟨⟨"p", "", ""⟩, []⟩ := by
    rw [decode_script]
    decide +kernel
  obtain ⟨hdecode, front, back, hpods, hpoints'⟩ :=
    (decode_with_further_pod decode_sampleBody hpoints (sampleBody_hasFurther pod)).1 _ hpod
  refine ⟨_, points, decode_sampleBody, hpoints, _, hdecode, hpoints'.trans ?_⟩
  simp [PodStats.point, Except.toOption, ← hpods]

/-- A further pod without a name, which would have been dropped had its name been empty, fails the
whole body. -/
theorem exists_pod_that_fails_its_body :
    let space : Label × Phrase := (.ofString "namespace", .text (.ofString "s"))
    let pod := samplePod [space]
    ∃ s points, decode (sampleBody []).bytes = .ok s ∧ s.points "a" = .ok points ∧
      HasFurther pod 0 (sampleBody []).phrase (sampleBody [(pod.margin, pod.phrase)]).phrase ∧
      decode (sampleBody [(pod.margin, pod.phrase)]).bytes =
        .error (.mismatch (.missingField "name")) := by
  intro space pod
  refine ⟨sampleSummary, _, decode_sampleBody, rfl, sampleBody_hasFurther pod, ?_⟩
  rw [decode, decode_script]
  decide +kernel

end Summary

end NodeScrape
