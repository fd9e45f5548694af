import Mathlib.Data.List.Induction
import NodeScrape.Cycle.Basic
import NodeScrape.Proofs.List.Places

/-!
# Registers of listed nodes

A register has one entry for every named node that a cycle has put on its board, in the order of
the slots, and says what the node came to. It accounts for a batch and for failures when these are,
up to their order, what its entries contribute beside the nodes without a name.
-/

namespace NodeScrape

/-- The listed nodes that have a name; each has the slot of its place in this list. -/
def namedNodes (nodes : List Node) : List Node := nodes.filter fun n => !n.name.isEmpty

/-- The name under which the listed node number `index` is accounted for. -/
def Node.accountName (index : Nat) (node : Node) : String :=
  if node.name.isEmpty then Ledger.unnamed index else node.name

/-- The failure of the listed node number `index` if it has no name. -/
def Node.nameless? (index : Nat) (node : Node) : Option NodeFailure :=
  if node.name.isEmpty then some ⟨Ledger.unnamed index, .missingIdentity⟩ else none

/-- The failures of the listed nodes without a name. -/
def namelessFailures (nodes : List Node) : List NodeFailure :=
  (nodes.mapIdx Node.nameless?).filterMap id

/-- The names under which listed nodes are accounted for. -/
def listedNames (nodes : List Node) : List String := nodes.mapIdx Node.accountName

theorem namelessFailures_concat (nodes : List Node) (n : Node) :
    namelessFailures (nodes ++ [n]) =
      namelessFailures nodes ++ (n.nameless? nodes.length).toList := by
  unfold namelessFailures
  rw [List.mapIdx_concat, List.filterMap_append]
  cases n.nameless? nodes.length <;> rfl

/-- A node without a name fails for no other reason. -/
theorem cause_of_mem_namelessFailures {nodes : List Node} {f : NodeFailure}
    (h : f ∈ namelessFailures nodes) : f.cause = .missingIdentity := by
  obtain ⟨_, hmem, rfl⟩ := List.mem_filterMap.mp h
  obtain ⟨i, hi, hn⟩ := List.mem_mapIdx.mp hmem
  obtain ⟨-, hf⟩ := Option.ite_none_right_eq_some.mp hn
  cases hf
  rfl

/-- The entry of a slot: the name of its node, and what the node came to. -/
structure Entry where
  name : String
  outcome : Option NodeOutcome := none

namespace Entry

/-- The entry of a node that has been put on the board. -/
def await (n : Node) : Entry := ⟨n.name, none⟩

/-- The name of a node that has not come to an end. -/
def awaited? (e : Entry) : Option String := if e.outcome.isNone then some e.name else none

/-- The points of a node that was successful. -/
def points? (e : Entry) : Option NodePoints := match e.outcome with
  | some (.ok points) => some points
  | _ => none

/-- The failure of a node that failed. -/
def failure? (e : Entry) : Option NodeFailure := match e.outcome with
  | some (.error cause) => some ⟨e.name, cause⟩
  | _ => none

/-- The entry of a node that is left out unless it has come to an end. -/
def leftOut (cause : FetchFailure) (e : Entry) : Entry :=
  ⟨e.name, some (e.outcome.getD (.error cause))⟩

@[simp] theorem awaited?_none (name : String) : awaited? ⟨name, none⟩ = some name := rfl

@[simp] theorem awaited?_some (name : String) (o : NodeOutcome) :
    awaited? ⟨name, some o⟩ = none := rfl

@[simp] theorem points?_none (name : String) : points? ⟨name, none⟩ = none := rfl

@[simp] theorem points?_ok (name : String) (p : NodePoints) :
    points? ⟨name, some (.ok p)⟩ = some p := rfl

@[simp] theorem points?_error (name : String) (cause : FetchFailure) :
    points? ⟨name, some (.error cause)⟩ = none := rfl

@[simp] theorem failure?_none (name : String) : failure? ⟨name, none⟩ = none := rfl

@[simp] theorem failure?_ok (name : String) (p : NodePoints) :
    failure? ⟨name, some (.ok p)⟩ = none := rfl

@[simp] theorem failure?_error (name : String) (cause : FetchFailure) :
    failure? ⟨name, some (.error cause)⟩ = some ⟨name, cause⟩ := rfl

/-- The failure of an entry says what its node came to. -/
theorem failure?_eq_some {e : Entry} {f : NodeFailure} :
    e.failure? = some f ↔ e.outcome = some (.error f.cause) ∧ f.node = e.name := by
  obtain ⟨name, outcome⟩ := e
  obtain ⟨node, cause⟩ := f
  cases outcome with
  | none => simp
  | some o =>
    cases o with
    | ok p => simp
    | error cause' => simp [and_comm, eq_comm (a := node)]

end Entry

/-- The entries of the slots of a cycle, in their order. -/
abbrev Register := List Entry

namespace Register

/-- The names of the nodes that have not come to an end. -/
def awaited (R : Register) : List String := R.filterMap Entry.awaited?

/-- The points of the nodes that were successful. -/
def points (R : Register) : List NodePoints := R.filterMap Entry.points?

/-- The failures of the nodes that failed. -/
def failures (R : Register) : List NodeFailure := R.filterMap Entry.failure?

/-- What the node of a slot came to. -/
def outcome? (R : Register) (slot : Nat) : Option NodeOutcome := R[slot]?.bind Entry.outcome

/-- Enters what the node of a slot came to. -/
def enter (R : Register) (slot : Nat) (name : String) (o : NodeOutcome) : Register :=
  R.set slot ⟨name, some o⟩

/-- A node whose end is entered stops being awaited, and the others keep their order. -/
theorem enter_split {R : Register} {slot : Nat} {name : String}
    (h : R[slot]? = some ⟨name, none⟩) (o : NodeOutcome) :
    ∃ before after, R = before ++ ⟨name, none⟩ :: after ∧ before.length = slot ∧
      R.enter slot name o = before ++ ⟨name, some o⟩ :: after :=
  exists_append_set h ⟨name, some o⟩

theorem map_name_enter {R : Register} {slot : Nat} {name : String}
    (h : R[slot]? = some ⟨name, none⟩) (o : NodeOutcome) :
    (R.enter slot name o).map Entry.name = R.map Entry.name := by
  obtain ⟨before, after, rfl, _, hset⟩ := enter_split h o
  simp [hset]

private theorem filterMap_enter {α : Type} {R : Register} {slot : Nat} {name : String}
    (h : R[slot]? = some ⟨name, none⟩) (o : NodeOutcome) (f : Entry → Option α)
    (hf : f ⟨name, none⟩ = none) :
    ((R.enter slot name o).filterMap f).Perm
      (R.filterMap f ++ (f ⟨name, some o⟩).toList) := by
  obtain ⟨before, after, rfl, _, hset⟩ := enter_split h o
  rw [hset, List.filterMap_append, List.filterMap_append, List.filterMap_cons_none hf,
    List.append_assoc]
  cases ho : f ⟨name, some o⟩ with
  | none => simp [List.filterMap_cons_none ho]
  | some a =>
    rw [List.filterMap_cons_some ho]
    exact (List.perm_append_singleton a _).symm.append_left _

/-- The points grow by those of the end that is entered, if it is a success. -/
theorem points_enter {R : Register} {slot : Nat} {name : String}
    (h : R[slot]? = some ⟨name, none⟩) (o : NodeOutcome) :
    (R.enter slot name o).points.Perm (R.points ++ (Entry.points? ⟨name, some o⟩).toList) :=
  filterMap_enter h o Entry.points? rfl

/-- The failures grow by that of the end that is entered, if it is none. -/
theorem failures_enter {R : Register} {slot : Nat} {name : String}
    (h : R[slot]? = some ⟨name, none⟩) (o : NodeOutcome) :
    (R.enter slot name o).failures.Perm
      (R.failures ++ (Entry.failure? ⟨name, some o⟩).toList) :=
  filterMap_enter h o Entry.failure? rfl

@[simp] theorem points_concat_none (R : Register) (name : String) :
    points (R ++ [⟨name, none⟩]) = R.points := by
  simp only [points, List.filterMap_append, List.filterMap_cons_none (Entry.points?_none name),
    List.filterMap_nil, List.append_nil]

@[simp] theorem failures_concat_none (R : Register) (name : String) :
    failures (R ++ [⟨name, none⟩]) = R.failures := by
  simp only [failures, List.filterMap_append, List.filterMap_cons_none (Entry.failure?_none name),
    List.filterMap_nil, List.append_nil]

/-- Entering an end shows in the slot of the node and nowhere else. -/
theorem outcome?_enter {R : Register} {slot : Nat} {name : String}
    (h : R[slot]? = some ⟨name, none⟩) (o : NodeOutcome) (k : Nat) :
    (R.enter slot name o).outcome? k = if k = slot then some o else R.outcome? k := by
  obtain ⟨hlt, _⟩ := List.getElem?_eq_some_iff.mp h
  unfold outcome? enter
  rw [List.getElem?_set]
  by_cases hk : k = slot
  · subst hk
    simp [hlt]
  · simp [hk, Ne.symm hk]

/-- The first awaited node has a slot, and entering its end leaves the other awaited nodes. -/
theorem exists_first_awaited {R : Register} {name : String} {rest : List String}
    (h : R.awaited = name :: rest) :
    ∃ slot, R[slot]? = some ⟨name, none⟩ ∧ ∀ o, (R.enter slot name o).awaited = rest := by
  induction R with
  | nil => simp [awaited] at h
  | cons e R ih =>
    obtain ⟨n, outcome⟩ := e
    cases outcome with
    | none =>
      simp only [awaited, List.filterMap_cons, Entry.awaited?_none, List.cons.injEq] at h
      obtain ⟨rfl, h⟩ := h
      exact ⟨0, rfl, fun o => h⟩
    | some o' =>
      simp only [awaited, List.filterMap_cons, Entry.awaited?_some] at h
      obtain ⟨slot, hslot, hrest⟩ := ih h
      exact ⟨slot + 1, hslot, fun o => hrest o⟩

/-- Where no node is awaited every entry says what its node came to. -/
theorem exists_outcome_of_awaited_nil {R : Register} (h : R.awaited = []) {e : Entry}
    (he : e ∈ R) : ∃ o, e.outcome = some o := by
  have hnone := List.filterMap_eq_nil_iff.mp h e he
  cases ho : e.outcome with
  | none => simp [Entry.awaited?, ho] at hnone
  | some o => exact ⟨o, rfl⟩

/-- Where no node is awaited none is left out. -/
theorem map_leftOut_of_awaited_nil {R : Register} (h : R.awaited = []) (cause : FetchFailure) :
    R.map (Entry.leftOut cause) = R := by
  refine (List.map_congr_left fun e he => ?_).trans R.map_id
  obtain ⟨o, ho⟩ := exists_outcome_of_awaited_nil h he
  obtain ⟨name, outcome⟩ := e
  cases ho
  rfl

/-- Leaving out one node first makes no difference to leaving out all. -/
theorem map_leftOut_enter {R : Register} {slot : Nat} {name : String}
    (h : R[slot]? = some ⟨name, none⟩) (cause : FetchFailure) :
    (R.enter slot name (.error cause)).map (Entry.leftOut cause) =
      R.map (Entry.leftOut cause) := by
  obtain ⟨before, after, rfl, _, hset⟩ := enter_split h (.error cause)
  rw [hset, List.map_append, List.map_append, List.map_cons, List.map_cons]
  rfl

end Register

/-- A register of listed nodes accounts for a batch and failures. -/
structure Accounts (nodes : List Node) (R : Register) (batch : Batch)
    (causes : List NodeFailure) : Prop where
  /-- Every named node has one entry, in the order of the listing. -/
  names : R.map Entry.name = (namedNodes nodes).map Node.name
  /-- Points bear the listed name of their node. -/
  faithful : ∀ e ∈ R, ∀ p, e.outcome = some (.ok p) → p.node.name = e.name
  /-- The batch has the points of the nodes that were successful and no others. -/
  points : batch.nodes.Perm (R.points.map NodePoints.node)
  pods : batch.pods.Perm (R.points.flatMap NodePoints.pods)
  /-- The failures are those of the nodes without a name and of the nodes that failed. -/
  failures : causes.Perm (namelessFailures nodes ++ R.failures)

namespace Accounts

variable {nodes : List Node} {R : Register} {batch : Batch} {causes : List NodeFailure}

/-- An entry bears the name of the named node of its number. -/
theorem name_of_entry (h : Accounts nodes R batch causes) {slot : Nat} {e : Entry}
    (he : R[slot]? = some e) : ((namedNodes nodes).map Node.name)[slot]? = some e.name := by
  rw [← h.names, List.getElem?_map, he]
  rfl

/-- Before any node is listed there is nothing to account for. -/
theorem nil : Accounts [] [] {} [] :=
  ⟨rfl, fun _ he => absurd he List.not_mem_nil, .refl _, .refl _, .refl _⟩

/-- A named node that is put on the board gets an entry of its own. -/
theorem append_named (h : Accounts nodes R batch causes) {n : Node}
    (hn : n.name.isEmpty = false) : Accounts (nodes ++ [n]) (R ++ [⟨n.name, none⟩]) batch causes where
  names := by simp [namedNodes, hn, h.names]
  faithful := by
    intro e he p ho
    rcases List.mem_append.mp he with he | he
    · exact h.faithful e he p ho
    · obtain rfl := List.mem_singleton.mp he
      cases ho
  points := by simpa using h.points
  pods := by simpa using h.pods
  failures := by
    rw [namelessFailures_concat]
    simpa [Node.nameless?, hn] using h.failures

/-- A node without a name gets no entry but a failure under its number. -/
theorem append_nameless (h : Accounts nodes R batch causes) {n : Node}
    (hn : n.name.isEmpty = true) :
    Accounts (nodes ++ [n]) R batch
      (causes ++ [⟨Ledger.unnamed nodes.length, .missingIdentity⟩]) where
  names := by simp [namedNodes, hn, h.names]
  faithful := h.faithful
  points := h.points
  pods := h.pods
  failures := by
    have hnew : n.nameless? nodes.length =
        some ⟨Ledger.unnamed nodes.length, .missingIdentity⟩ := by simp [Node.nameless?, hn]
    rw [namelessFailures_concat, hnew, List.append_assoc]
    refine (h.failures.append_right _).trans ?_
    rw [List.append_assoc]
    exact List.perm_append_comm.append_left _

/-- A node that ends with points is accounted for by them. -/
theorem enter_ok (h : Accounts nodes R batch causes) {slot : Nat} {name : String}
    (hs : R[slot]? = some ⟨name, none⟩) {p : NodePoints} (hp : p.node.name = name) :
    Accounts nodes (R.enter slot name (.ok p)) (batch.add p) causes where
  names := (Register.map_name_enter hs _).trans h.names
  faithful := by
    intro e he q ho
    rcases List.mem_or_eq_of_mem_set he with he | rfl
    · exact h.faithful e he q ho
    · cases ho
      exact hp
  points := by
    have hR := (Register.points_enter hs (.ok p)).map NodePoints.node
    rw [List.map_append] at hR
    exact (h.points.append_right [p.node]).trans hR.symm
  pods := by
    have hR := (Register.points_enter hs (.ok p)).flatMap_right NodePoints.pods
    rw [List.flatMap_append] at hR
    refine (h.pods.append_right p.pods).trans ?_
    simpa using hR.symm
  failures := by
    have hR := Register.failures_enter hs (.ok p)
    refine h.failures.trans (List.Perm.append_left _ ?_)
    simpa using hR.symm

/-- A node that ends with a failure is accounted for by it. -/
theorem enter_error (h : Accounts nodes R batch causes) {slot : Nat} {name : String}
    (hs : R[slot]? = some ⟨name, none⟩) (cause : FetchFailure) :
    Accounts nodes (R.enter slot name (.error cause)) batch (causes ++ [⟨name, cause⟩]) where
  names := (Register.map_name_enter hs _).trans h.names
  faithful := by
    intro e he q ho
    rcases List.mem_or_eq_of_mem_set he with he | rfl
    · exact h.faithful e he q ho
    · cases ho
  points := by
    have hR := (Register.points_enter hs (.error cause)).map NodePoints.node
    exact h.points.trans (by simpa using hR.symm)
  pods := by
    have hR := (Register.points_enter hs (.error cause)).flatMap_right NodePoints.pods
    exact h.pods.trans (by simpa using hR.symm)
  failures := by
    have hR := Register.failures_enter hs (.error cause)
    refine (h.failures.append_right _).trans ?_
    rw [List.append_assoc]
    exact List.Perm.append_left _ hR.symm

/-- The nodes that ran out of time are named ones. -/
theorem timedOut_perm (h : Accounts nodes R batch causes) :
    ((causes.filter fun f => f.cause.isTimeout).map NodeFailure.node).Perm
      ((R.failures.filter fun f => f.cause.isTimeout).map NodeFailure.node) := by
  have hnone : (namelessFailures nodes).filter (fun f => f.cause.isTimeout) = [] := by
    rw [List.filter_eq_nil_iff]
    intro f hf
    rw [cause_of_mem_namelessFailures hf]
    nofun
  have hperm := (h.failures.filter fun f => f.cause.isTimeout).map NodeFailure.node
  rwa [List.filter_append, hnone, List.nil_append] at hperm

private theorem names_points_failures {R : Register} (ha : R.awaited = [])
    (hf : ∀ e ∈ R, ∀ p, e.outcome = some (.ok p) → p.node.name = e.name) :
    (R.points.map (·.node.name) ++ R.failures.map NodeFailure.node).Perm (R.map Entry.name) := by
  induction R with
  | nil => exact .refl _
  | cons e R ih =>
    obtain ⟨o, ho⟩ := Register.exists_outcome_of_awaited_nil ha List.mem_cons_self
    have ha' : Register.awaited R = [] := by
      simpa [Register.awaited, Entry.awaited?, ho, List.filterMap_cons] using ha
    have ih := ih ha' fun e he => hf e (List.mem_cons_of_mem _ he)
    obtain ⟨name, outcome⟩ := e
    obtain rfl : outcome = some o := ho
    cases o with
    | ok p =>
      have hp : p.node.name = name := hf _ List.mem_cons_self p rfl
      simpa [Register.points, Register.failures, List.filterMap_cons, hp] using ih
    | error cause =>
      have hcons := List.perm_middle.trans (ih.cons name)
      simpa [Register.points, Register.failures, List.filterMap_cons] using hcons

private theorem listedNames_perm (nodes : List Node) :
    ((namelessFailures nodes).map NodeFailure.node ++ (namedNodes nodes).map Node.name).Perm
      (listedNames nodes) := by
  induction nodes using List.reverseRecOn with
  | nil => exact .refl _
  | append_singleton nodes n ih =>
    rw [namelessFailures_concat, listedNames, List.mapIdx_concat, ← listedNames]
    cases hn : n.name.isEmpty with
    | false =>
      simpa [Node.nameless?, Node.accountName, namedNodes, hn] using ih.append_right [n.name]
    | true =>
      have hswap : ([Ledger.unnamed nodes.length] ++ (namedNodes nodes).map Node.name).Perm
          ((namedNodes nodes).map Node.name ++ [Ledger.unnamed nodes.length]) :=
        List.perm_append_comm
      have hall := (hswap.append_left ((namelessFailures nodes).map NodeFailure.node)).trans
        (by simpa using ih.append_right [Ledger.unnamed nodes.length])
      simpa [Node.nameless?, Node.accountName, namedNodes, hn] using hall

/-- Once no node is awaited, the batch and the failures together name every listed node exactly as
often as it is listed. -/
theorem names_perm (h : Accounts nodes R batch causes) (ha : R.awaited = []) :
    (batch.nodes.map NodePoint.name ++ causes.map NodeFailure.node).Perm (listedNames nodes) := by
  have hpoints : (batch.nodes.map NodePoint.name).Perm (R.points.map (·.node.name)) := by
    simpa [Function.comp_def] using h.points.map NodePoint.name
  have hcauses : (causes.map NodeFailure.node).Perm
      ((namelessFailures nodes).map NodeFailure.node ++ R.failures.map NodeFailure.node) := by
    simpa using h.failures.map NodeFailure.node
  have hnamed := names_points_failures ha h.faithful
  rw [h.names] at hnamed
  refine (hpoints.append hcauses).trans (List.Perm.trans ?_ (listedNames_perm nodes))
  refine List.Perm.trans ?_ (hnamed.append_left _)
  rw [← List.append_assoc, ← List.append_assoc]
  exact List.perm_append_comm.append_right _

/-- There are no failures exactly where every listed node has a name and none failed. -/
theorem failures_eq_nil_iff (h : Accounts nodes R batch causes) (ha : R.awaited = []) :
    causes = [] ↔ (∀ n ∈ nodes, n.name.isEmpty = false) ∧
      ∀ e ∈ R, ∃ p, e.outcome = some (.ok p) := by
  have hnil : causes = [] ↔ namelessFailures nodes = [] ∧ R.failures = [] := by
    rw [← List.append_eq_nil_iff]
    exact ⟨fun hc => (hc ▸ h.failures).nil_eq.symm, fun hc => (hc ▸ h.failures).eq_nil⟩
  rw [hnil]
  refine and_congr ?_ ?_
  · simp only [namelessFailures, List.filterMap_eq_nil_iff, List.mem_mapIdx, id]
    constructor
    · intro hall n hn
      obtain ⟨i, hi, rfl⟩ := List.getElem_of_mem hn
      simpa [Node.nameless?] using hall _ ⟨i, hi, rfl⟩
    · rintro hall _ ⟨i, hi, rfl⟩
      simp [Node.nameless?, hall _ (List.getElem_mem hi)]
  · simp only [Register.failures, List.filterMap_eq_nil_iff]
    refine forall₂_congr fun e he => ?_
    obtain ⟨o, ho⟩ := Register.exists_outcome_of_awaited_nil ha he
    cases o <;> simp [Entry.failure?, ho]

end Accounts

end NodeScrape
