import NodeScrape.Config.Validate
import NodeScrape.Proofs.Cycle.Account
import NodeScrape.Proofs.Kubelet.Exchange

/-!
# Which configurations are used

A configuration is used exactly if its lengths of time are positive and its nodes have names of
their own, and else its first violation is reported. Nodes that have names of their own come to one
outcome each in every cycle, and none of them fails for want of a name.
-/

namespace NodeScrape

namespace Config

/-- A node has no name or the name of an earlier one. -/
def OffendsAt (nodes : List Node) (i : Nat) : Prop :=
  ∃ name, (nodes.map Node.name)[i]? = some name ∧
    (name = "" ∨ name ∈ (nodes.map Node.name).take i)

/-- A node offends and none before it does. -/
structure OffendsFirst (nodes : List Node) (i : Nat) : Prop where
  offends : OffendsAt nodes i
  first : ∀ j < i, ¬ OffendsAt nodes j

/-- What is reported of a node that offends. -/
inductive ReportsAt (nodes : List Node) (i : Nat) : ConfigError → Prop where
  | empty (h : (nodes.map Node.name)[i]? = some "") : ReportsAt nodes i (.emptyNodeName i)
  | duplicate {name : String} (h : (nodes.map Node.name)[i]? = some name) (hne : name ≠ "") :
    ReportsAt nodes i (.duplicateNode name)

/-- The first violation of a configuration. -/
inductive FirstViolation (c : Config) : ConfigError → Prop where
  | resolution (h : c.metricResolutionMs = 0) :
    FirstViolation c (.zeroDuration "metric_resolution_ms")
  | timeout (hres : c.metricResolutionMs ≠ 0) (h : c.scrapeTimeoutMs = 0) :
    FirstViolation c (.zeroDuration "scrape_timeout_ms")
  | node {i : Nat} {e : ConfigError} (hres : c.metricResolutionMs ≠ 0)
    (htimeout : c.scrapeTimeoutMs ≠ 0) (hfirst : OffendsFirst c.nodes i)
    (hreport : ReportsAt c.nodes i e) : FirstViolation c e

/-- A configuration that may be used. -/
structure Valid (c : Config) : Prop where
  resolution : c.metricResolutionMs ≠ 0
  timeout : c.scrapeTimeoutMs ≠ 0
  named : ∀ n ∈ c.nodes, n.name ≠ ""
  distinct : (c.nodes.map Node.name).Nodup

variable {nodes : List Node} {i j : Nat} {e e' : ConfigError}
  {c : Config}

/-- The node after some others offends if it has no name or one of theirs. -/
theorem offendsAt_length_iff (before rest : List Node) (n : Node) :
    OffendsAt (before ++ n :: rest) before.length ↔
      n.name = "" ∨ n.name ∈ before.map Node.name := by
  have hlength : before.length = (before.map Node.name).length := (List.length_map _).symm
  have hget : ((before ++ n :: rest).map Node.name)[before.length]? = some n.name := by
    rw [List.map_append, hlength, List.getElem?_append_right (Nat.le_refl _), Nat.sub_self]
    rfl
  have htake : ((before ++ n :: rest).map Node.name).take before.length = before.map Node.name := by
    rw [List.map_append, hlength, List.take_left]
  rw [OffendsAt, hget, htake]
  simp

/-- The nodes are gone through in their order, and the first that offends is reported. -/
theorem nodeViolation_cases (seen : List String) (before rest : List Node)
    (hseen : ∀ name, name ∈ seen ↔ name ∈ before.map Node.name)
    (hclean : ∀ j < before.length, ¬ OffendsAt (before ++ rest) j) :
    (nodeViolation seen before.length rest = none ∧ ∀ i, ¬ OffendsAt (before ++ rest) i) ∨
      ∃ i e, nodeViolation seen before.length rest = some e ∧ OffendsFirst (before ++ rest) i ∧
        ReportsAt (before ++ rest) i e := by
  induction rest generalizing before seen with
  | nil =>
    refine .inl ⟨rfl, fun i hi => ?_⟩
    rcases Nat.lt_or_ge i before.length with hlt | hge
    · exact hclean i hlt hi
    · obtain ⟨name, hname, -⟩ := hi
      rw [List.append_nil, List.getElem?_eq_none (by simpa using hge)] at hname
      cases hname
  | cons n rest ih =>
    have hget : ((before ++ n :: rest).map Node.name)[before.length]? = some n.name := by simp
    have hoffends := offendsAt_length_iff before rest n
    rw [nodeViolation]
    by_cases hempty : n.name = ""
    · rw [if_pos (by rw [hempty]; rfl)]
      exact .inr ⟨before.length, _, rfl, ⟨hoffends.mpr (.inl hempty), hclean⟩,
        .empty (hempty ▸ hget)⟩
    rw [if_neg (by rwa [String.isEmpty_iff])]
    by_cases hmem : n.name ∈ seen
    · rw [if_pos hmem]
      exact .inr ⟨before.length, _, rfl, ⟨hoffends.mpr (.inr ((hseen _).mp hmem)), hclean⟩,
        .duplicate hget hempty⟩
    · rw [if_neg hmem]
      have hnext := ih (n.name :: seen) (before ++ [n]) (fun name => ?_) (fun j hj => ?_)
      · simpa using hnext
      · simp [hseen, or_comm]
      · rw [List.append_assoc, List.singleton_append]
        rw [List.length_append, List.length_singleton] at hj
        rcases Nat.lt_or_eq_of_le (Nat.le_of_lt_succ hj) with hlt | rfl
        · exact hclean j hlt
        · exact fun h => (hoffends.mp h).elim hempty fun h => hmem ((hseen _).mpr h)

/-- No node offends exactly if all have names of their own. -/
theorem not_offendsAt_iff :
    (∀ i, ¬ OffendsAt nodes i) ↔ (∀ n ∈ nodes, n.name ≠ "") ∧ (nodes.map Node.name).Nodup := by
  constructor
  · intro hall
    constructor
    · intro n hn hempty
      obtain ⟨i, hi⟩ := List.getElem?_of_mem (List.mem_map_of_mem (f := Node.name) hn)
      exact hall i ⟨n.name, hi, .inl hempty⟩
    · refine List.pairwise_iff_getElem.mpr fun i j hi hj hlt heq => ?_
      refine hall j ⟨_, List.getElem?_eq_getElem hj, .inr ?_⟩
      rw [← heq]
      exact List.mem_take_iff_getElem.mpr ⟨i, by omega, rfl⟩
  · rintro ⟨hnamed, hdistinct⟩ i ⟨name, hname, hempty | hearlier⟩
    · obtain ⟨n, hn, rfl⟩ := List.mem_map.mp (List.mem_of_getElem? hname)
      exact hnamed n hn hempty
    · obtain ⟨hi, hname⟩ := List.getElem?_eq_some_iff.mp hname
      obtain ⟨j, hj, heq⟩ := List.mem_take_iff_getElem.mp hearlier
      exact List.pairwise_iff_getElem.mp hdistinct j i (by omega) hi (by omega)
        (heq.trans hname.symm)

theorem OffendsFirst.unique (h : OffendsFirst nodes i) (h' : OffendsFirst nodes j) : i = j := by
  rcases Nat.lt_trichotomy i j with hlt | heq | hgt
  · exact absurd h.offends (h'.first i hlt)
  · exact heq
  · exact absurd h'.offends (h.first j hgt)

theorem ReportsAt.unique (h : ReportsAt nodes i e) (h' : ReportsAt nodes i e') : e = e' := by
  cases h with
  | empty h =>
    cases h' with
    | empty => rfl
    | duplicate h' hne => exact absurd (Option.some.inj (h'.symm.trans h)) hne
  | duplicate h hne =>
    cases h' with
    | empty h' => exact absurd (Option.some.inj (h.symm.trans h')) hne
    | duplicate h' => rw [Option.some.inj (h.symm.trans h')]

/-- The lengths of time are looked at first, then the nodes. -/
theorem violation_cases (c : Config) :
    (c.violation = none ∧ c.Valid) ∨ ∃ e, c.violation = some e ∧ c.FirstViolation e := by
  rw [violation]
  by_cases hres : c.metricResolutionMs = 0
  · rw [if_pos hres]
    exact .inr ⟨_, rfl, .resolution hres⟩
  rw [if_neg hres]
  by_cases htimeout : c.scrapeTimeoutMs = 0
  · rw [if_pos htimeout]
    exact .inr ⟨_, rfl, .timeout hres htimeout⟩
  rw [if_neg htimeout]
  rcases nodeViolation_cases [] [] c.nodes (by simp) (by simp) with
    ⟨hnone, hclean⟩ | ⟨i, e, hsome, hfirst, hreport⟩
  · obtain ⟨hnamed, hdistinct⟩ := not_offendsAt_iff.mp hclean
    exact .inl ⟨hnone, hres, htimeout, hnamed, hdistinct⟩
  · exact .inr ⟨e, hsome, .node hres htimeout hfirst hreport⟩

/-- A configuration with a violation may not be used. -/
theorem FirstViolation.not_valid (h : c.FirstViolation e) : ¬ c.Valid := by
  intro hvalid
  cases h with
  | resolution h => exact hvalid.resolution h
  | timeout _ h => exact hvalid.timeout h
  | node _ _ hfirst _ =>
    exact not_offendsAt_iff.mpr ⟨hvalid.named, hvalid.distinct⟩ _ hfirst.offends

theorem FirstViolation.unique (h : c.FirstViolation e) (h' : c.FirstViolation e') : e = e' := by
  cases h with
  | resolution h =>
    cases h' with
    | resolution => rfl
    | timeout hres => exact absurd h hres
    | node hres => exact absurd h hres
  | timeout hres h =>
    cases h' with
    | resolution h' => exact absurd h' hres
    | timeout => rfl
    | node _ htimeout => exact absurd h htimeout
  | node hres htimeout hfirst hreport =>
    cases h' with
    | resolution h' => exact absurd h' hres
    | timeout _ h' => exact absurd h' htimeout
    | node _ _ hfirst' hreport' =>
      obtain rfl := hfirst.unique hfirst'
      exact hreport.unique hreport'

/-- A configuration may be used exactly if it has no violation. -/
theorem violation_eq_none_iff : c.violation = none ↔ c.Valid := by
  rcases violation_cases c with ⟨hnone, hvalid⟩ | ⟨e, hsome, hfirst⟩
  · exact iff_of_true hnone hvalid
  · exact iff_of_false (by rw [hsome]; nofun) hfirst.not_valid

/-- What is reported of a configuration is its first violation. -/
theorem violation_eq_some_iff : c.violation = some e ↔ c.FirstViolation e := by
  rcases violation_cases c with ⟨hnone, hvalid⟩ | ⟨e', hsome, hfirst⟩
  · exact iff_of_false (by rw [hnone]; nofun) fun h => h.not_valid hvalid
  · rw [hsome, Option.some.injEq]
    constructor
    · rintro rfl
      exact hfirst
    · exact hfirst.unique

/-- A decoded configuration is accepted as it is, but for the directory of its file. -/
theorem checked_eq_ok_iff {path : Path} {accepted : Config} :
    c.checked path = .ok accepted ↔ c.Valid ∧ accepted = { c with fileDir := path.parent } := by
  have hdir : ({ c with fileDir := path.parent } : Config).violation = c.violation := rfl
  rw [checked, hdir, ← violation_eq_none_iff]
  cases c.violation with
  | none => simp [eq_comm]
  | some e => simp

theorem checked_eq_error_iff {path : Path} :
    c.checked path = .error e ↔ c.FirstViolation e := by
  have hdir : ({ c with fileDir := path.parent } : Config).violation = c.violation := rfl
  rw [checked, hdir, ← violation_eq_some_iff]
  cases c.violation <;> simp

end Config

/-! ## Nodes with names of their own -/

section Named

variable {nodes : List Node}

theorem listedNames_of_named (hnamed : ∀ n ∈ nodes, n.name ≠ "") :
    listedNames nodes = nodes.map Node.name := by
  refine List.ext_getElem? fun i => ?_
  rw [listedNames, List.getElem?_mapIdx, List.getElem?_map]
  cases hn : nodes[i]? with
  | none => rfl
  | some n =>
    have hne := hnamed n (List.mem_of_getElem? hn)
    rw [Option.map_some, Option.map_some, Node.accountName, if_neg (by rwa [String.isEmpty_iff])]

theorem namelessFailures_of_named (hnamed : ∀ n ∈ nodes, n.name ≠ "") :
    namelessFailures nodes = [] := by
  rw [namelessFailures, List.filterMap_eq_nil_iff]
  intro f hf
  obtain ⟨i, hi, rfl⟩ := List.mem_mapIdx.mp hf
  have hne := hnamed _ (List.getElem_mem hi)
  rw [id, Node.nameless?, if_neg (by rwa [String.isEmpty_iff])]

end Named

namespace Cycle

variable {nodes : List Node} {instruments : Instruments} {steps : List Step} {c : Cycle}
  {batch : Batch} {failure : Option AggregateFailure}

/-- Every node that has a name of its own comes to one outcome under that name. -/
theorem names_perm_of_distinct (hnamed : ∀ n ∈ nodes, n.name ≠ "")
    (hdistinct : (nodes.map Node.name).Nodup) (hs : (begin nodes instruments).steps? steps = some c)
    (hr : c.result? = some (batch, failure)) :
    (batch.nodes.map NodePoint.name ++
        (failure.elim [] AggregateFailure.causes).map NodeFailure.node).Perm
      (nodes.map Node.name) ∧
      (batch.nodes.map NodePoint.name ++
        (failure.elim [] AggregateFailure.causes).map NodeFailure.node).Nodup := by
  obtain ⟨R, hacc, hawaited, -⟩ := exists_accounts hs hr
  have hperm := hacc.names_perm hawaited
  rw [listedNames_of_named hnamed] at hperm
  exact ⟨hperm, hperm.nodup_iff.mpr hdistinct⟩

/-- Where all nodes have names, one fails for want of a name only if its client says so. -/
theorem settle_of_missingIdentity (hnamed : ∀ n ∈ nodes, n.name ≠ "")
    (hs : (begin nodes instruments).steps? steps = some c) (hr : c.result? = some (batch, failure))
    {f : NodeFailure} (hf : f ∈ failure.elim [] AggregateFailure.causes)
    (hcause : f.cause = .missingIdentity) :
    ∃ slot took clock, .settle slot (.failed .missingIdentity) took clock ∈ steps := by
  obtain ⟨R, hacc, -, hends⟩ := exists_accounts hs hr
  have hmem := hacc.failures.mem_iff.mp hf
  rw [namelessFailures_of_named hnamed, List.nil_append] at hmem
  obtain ⟨e, he, hfailure⟩ := List.mem_filterMap.mp hmem
  obtain ⟨slot, hslot⟩ := List.getElem?_of_mem he
  have houtcome := (Entry.failure?_eq_some.mp hfailure).1
  rw [hcause] at houtcome
  obtain ⟨o, ho, hend⟩ := hends slot e hslot
  obtain rfl : o = .error .missingIdentity := Option.some.inj (ho.symm.trans houtcome)
  rcases hend with hverdict | ⟨-, late, hlate, -⟩
  · obtain ⟨before, s, after, mid, p, rfl, -, -, -, hstep⟩ := step_of_verdict? hs hverdict
    rcases hstep with ⟨attempt, took, clock, rfl, ho⟩ | ⟨reason, clock, -, ho⟩
    · obtain rfl := Attempt.eq_failed_of_outcome ho.symm nofun nofun
      exact ⟨slot, took, clock, by simp⟩
    · cases reason <;> cases ho
  · cases late <;> cases hlate

end Cycle

namespace Kubelet

/-- What a client may come to that asks a kubelet. -/
def Fetch.attempts (f : Fetch) : List Attempt :=
  match f.result with
  | none => []
  | some (_, outcomes) => outcomes.map fun
    | .ok summary => .answered summary
    | .error failure => .failed failure

/-- Asking a kubelet never fails for want of a name. -/
theorem Client.not_missingIdentity (c : Client) (node : Node) (err : Option DoneReason)
    (start : Nat) (e : Ending) (network : Request → Exchange) :
    .failed .missingIdentity ∉ (c.fetch node err start e network).attempts := by
  intro hmem
  unfold Fetch.attempts at hmem
  cases hresult : (c.fetch node err start e network).result with
  | none => simp [hresult] at hmem
  | some result =>
    rw [hresult] at hmem
    obtain ⟨outcome, houtcome, heq⟩ := List.mem_map.mp hmem
    cases outcome with
    | ok summary => cases heq
    | error failure =>
      cases heq
      exact not_foundByScrape hresult houtcome .missingIdentity

end Kubelet

namespace Config

variable {text : String} {c : Config}

theorem decode_of_toOption (h : (decode text).toOption = some c) : decode text = .ok c := by
  cases hdecode : decode text with
  | ok decoded =>
    rw [hdecode] at h
    exact congrArg Except.ok (Option.some.inj h)
  | error error =>
    rw [hdecode] at h
    cases h

/-- A decoded configuration is accepted exactly if it is valid, and then as it is, but for the
directory of its file; else its first violation is reported. There is a warning exactly if both
lengths of time are positive and the timeout is the longer one, whatever the nodes. The nodes of an
accepted configuration are listed in their order, each name once. Whatever happens in a cycle over
them, the points and failures that it returns name each of them once, and none of them fails for
want of a name unless its client says so, which no client does that asks kubelets. -/
theorem validation_exact (hc : decode text = .ok c) (path : Path) :
    (∀ accepted, parse text path = .ok accepted ↔
      c.Valid ∧ accepted = { c with fileDir := path.parent }) ∧
    (∀ e, parse text path = .error e ↔ c.FirstViolation e) ∧
    (parseWarnings text =
      if c.metricResolutionMs ≠ 0 ∧ c.scrapeTimeoutMs ≠ 0 ∧
        c.metricResolutionMs < c.scrapeTimeoutMs
      then [.longTimeout c.scrapeTimeoutMs c.metricResolutionMs] else []) ∧
    ∀ accepted, parse text path = .ok accepted →
      accepted.listing = .ok c.nodes ∧ (c.nodes.map Node.name).Nodup ∧
      ∀ nodes, accepted.listing = .ok nodes → ∀ instruments steps cycle batch failure causes,
        (Cycle.begin nodes instruments).steps? steps = some cycle →
        cycle.result? = some (batch, failure) →
        causes = failure.elim [] AggregateFailure.causes →
        (batch.nodes.map NodePoint.name ++ causes.map NodeFailure.node).Perm
          (nodes.map Node.name) ∧
        (batch.nodes.map NodePoint.name ++ causes.map NodeFailure.node).Nodup ∧
        ((∃ f ∈ causes, f.cause = .missingIdentity) →
          ∃ slot took clock, .settle slot (.failed .missingIdentity) took clock ∈ steps) ∧
        ((∀ slot attempt took clock, .settle slot attempt took clock ∈ steps →
            (∃ payload, attempt = .panicked payload) ∨
            ∃ (client : Kubelet.Client) (node : Node) (err : Option DoneReason) (start : Nat)
              (e : Ending) (network : Kubelet.Request → Kubelet.Exchange),
              attempt ∈ (client.fetch node err start e network).attempts) →
          ∀ f ∈ causes, f.cause ≠ .missingIdentity) := by
  -- The equations of `parse` and `parseWarnings` would have the decoder unfolded.
  have hparse : parse text path = c.checked path := by
    delta parse
    rw [hc]
  refine ⟨fun accepted => ?_, fun e => ?_, ?_, fun accepted haccepted => ?_⟩
  · rw [hparse]
    exact checked_eq_ok_iff
  · rw [hparse]
    exact checked_eq_error_iff
  · delta parseWarnings
    rw [hc]
    rfl
  rw [hparse] at haccepted
  obtain ⟨hvalid, rfl⟩ := checked_eq_ok_iff.mp haccepted
  refine ⟨rfl, hvalid.distinct, ?_⟩
  rintro _ ⟨⟩ instruments steps cycle batch failure _ hs hr rfl
  obtain ⟨hperm, hnodup⟩ := Cycle.names_perm_of_distinct hvalid.named hvalid.distinct hs hr
  refine ⟨hperm, hnodup, ?_, fun hclient f hf hcause => ?_⟩
  · rintro ⟨f, hf, hcause⟩
    exact Cycle.settle_of_missingIdentity hvalid.named hs hr hf hcause
  · obtain ⟨slot, took, clock, hmem⟩ :=
      Cycle.settle_of_missingIdentity hvalid.named hs hr hf hcause
    rcases hclient slot _ took clock hmem with ⟨payload, hpanic⟩ | ⟨client, node, err, start, e,
      network, hattempt⟩
    · cases hpanic
    · exact client.not_missingIdentity node err start e network hattempt

/-- One text names a node twice and has a timeout that no cycle can use up; another one is accepted,
and every cycle over its nodes comes to one outcome for each of them. -/
theorem validation_exact_listed_twice :
    let twice := "scrape_timeout_ms: 70000\nnodes:\n- name: a\n- name: b\n- name: a\n"
    let once := "nodes:\n- name: a\n- name: b\n"
    let path : Path := ⟨"/etc/scraper.yaml"⟩
    parse twice path = .error (.duplicateNode "a") ∧
    parseWarnings twice = [.longTimeout 70000 60000] ∧
    ∃ accepted, parse once path = .ok accepted ∧ accepted.fileDir = path.parent ∧
      ∀ steps cycle batch failure, (Cycle.begin accepted.nodes {}).steps? steps = some cycle →
        cycle.result? = some (batch, failure) →
        (batch.nodes.map NodePoint.name ++
          (failure.elim [] AggregateFailure.causes).map NodeFailure.node).Perm ["a", "b"] := by
  intro twice once path
  let c : Config := { scrapeTimeoutMs := 70000, nodes := [⟨"a", [], true, none⟩,
    ⟨"b", [], true, none⟩, ⟨"a", [], true, none⟩] }
  let d : Config := { nodes := [⟨"a", [], true, none⟩, ⟨"b", [], true, none⟩] }
  have hc : decode twice = .ok c := decode_of_toOption (by decide +kernel)
  have hd : decode once = .ok d := decode_of_toOption (by decide +kernel)
  have hfirst : c.FirstViolation (.duplicateNode "a") := by
    refine .node (i := 2) (by decide) (by decide) ⟨⟨"a", rfl, .inr (by decide)⟩, ?_⟩
      (.duplicate rfl (by decide))
    rintro j hj ⟨name, hname, hoffends⟩
    rcases j with _ | _ | j
    · cases hname
      simp at hoffends
    · cases hname
      simp [c] at hoffends
    · omega
  have hvalid : d.Valid := ⟨by decide, by decide, by simp [d], by decide⟩
  obtain ⟨-, herror, hwarnings, -⟩ := validation_exact hc path
  obtain ⟨hok, -, -, haccepted⟩ := validation_exact hd path
  have hparse := (hok _).mpr ⟨hvalid, rfl⟩
  refine ⟨(herror _).mpr hfirst, hwarnings, _, hparse, rfl, ?_⟩
  intro steps cycle batch failure hs hr
  exact ((haccepted _ hparse).2.2 _ rfl _ steps cycle batch failure _ hs hr rfl).1

end Config

end NodeScrape
