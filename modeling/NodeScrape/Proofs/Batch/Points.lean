import NodeScrape.Cycle.Attempt
import NodeScrape.Proofs.Schema.Items

/-!
# What points say of a summary

What a summary is looked at for is a list of checks, in the order in which they count. A summary
fails with the first of its own checks that finds a defect, and a pod is dropped with the first of
its. Where none does, every point is a copy: each value with the time of its own entry, each
container in its place, each pod in the order of the summary.
-/

namespace NodeScrape

/-! ## The checks -/

section Checks

variable {δ η : Type}

/-- The first of some checks, each with whether it finds its defect, that finds one. -/
def firstFound? (checks : List (δ × Bool)) : Option δ := (checks.find? (·.2)).map (·.1)

@[simp] theorem firstFound?_nil : firstFound? ([] : List (δ × Bool)) = none := rfl

@[simp] theorem firstFound?_cons (d : δ) (found : Bool) (rest : List (δ × Bool)) :
    firstFound? ((d, found) :: rest) = if found then some d else firstFound? rest := by
  cases found <;> rfl

theorem firstFound?_append (front back : List (δ × Bool)) :
    firstFound? (front ++ back) = (firstFound? front).or (firstFound? back) := by
  rw [firstFound?, firstFound?, firstFound?, List.find?_append, Option.map_or]

theorem firstFound?_map (f : δ → η) (checks : List (δ × Bool)) :
    firstFound? (checks.map fun c => (f c.1, c.2)) = (firstFound? checks).map f := by
  rw [firstFound?, List.find?_map, firstFound?, Option.map_map, Option.map_map]
  rfl

end Checks

/-- What statistics are looked at for. -/
def usageChecks (cpu : Option CpuStats) (memory : Option MemoryStats) :
    List (UsageDefect × Bool) := [
  (.noCpu, cpu.isNone),
  (.noMemory, memory.isNone),
  (.noCpuUsage, (cpu.bind (·.usageNanoCores)).isNone),
  (.noMemoryUsage, (memory.bind (·.workingSetBytes)).isNone)]

/-- What a container is looked at for. -/
def ContainerStats.checks (c : ContainerStats) : List (PodDefect × Bool) :=
  (.unnamedContainer, c.name = "") ::
    (usageChecks c.cpu c.memory).map fun check => (.container c.name check.1, check.2)

/-- What a pod is looked at for: its own identity, then its containers one after another. -/
def PodStats.checks (p : PodStats) : List (PodDefect × Bool) :=
  (.unnamed, p.podRef.name = "" ∨ p.podRef.space = "") :: p.containers.flatMap ContainerStats.checks

/-- What a summary is looked at for as that of a listed node; no pod is among it. -/
def Summary.checks (s : Summary) (node : String) : List (SummaryDefect × Bool) :=
  (.otherNode s.node.nodeName, s.node.nodeName ≠ "" ∧ s.node.nodeName ≠ node) ::
    (usageChecks s.node.cpu s.node.memory).map fun check => (.usage check.1, check.2)

/-! ## What is reported, and its copies -/

/-- Both values of a usage are reported. -/
def HasUsage (cpu : Option CpuStats) (memory : Option MemoryStats) : Prop :=
  cpu.bind (·.usageNanoCores) ≠ none ∧ memory.bind (·.workingSetBytes) ≠ none

instance (cpu : Option CpuStats) (memory : Option MemoryStats) :
    Decidable (HasUsage cpu memory) := by
  unfold HasUsage
  infer_instance

/-- A usage has both values as they are reported, each with the time of its own entry. -/
structure Usage.IsCopy (u : Usage) (cpu : Option CpuStats) (memory : Option MemoryStats) :
    Prop where
  cpu : ∃ c, cpu = some c ∧ c.usageNanoCores = some u.cpu.value ∧ c.time = u.cpu.time
  memory : ∃ m, memory = some m ∧ m.workingSetBytes = some u.memory.value ∧ m.time = u.memory.time

/-- A point has the name and the usage of a container. -/
structure ContainerPoint.IsCopy (q : ContainerPoint) (c : ContainerStats) : Prop where
  name : q.name = c.name
  usage : q.usage.IsCopy c.cpu c.memory

/-- A point has the identity of a pod and all its containers in their order. -/
structure PodPoint.IsCopy (q : PodPoint) (p : PodStats) : Prop where
  space : q.space = p.podRef.space
  name : q.name = p.podRef.name
  containers : List.Forall₂ (fun c point => ContainerPoint.IsCopy point c) p.containers q.containers

/-- A pod has a name and a namespace, and so have all its containers a name and their usage. -/
structure PodStats.IsUsable (p : PodStats) : Prop where
  name : p.podRef.name ≠ ""
  space : p.podRef.space ≠ ""
  containers : ∀ c ∈ p.containers, c.name ≠ "" ∧ HasUsage c.cpu c.memory

instance (p : PodStats) : Decidable p.IsUsable :=
  decidable_of_iff
    (p.podRef.name ≠ "" ∧ p.podRef.space ≠ "" ∧
      ∀ c ∈ p.containers, c.name ≠ "" ∧ HasUsage c.cpu c.memory)
    ⟨fun ⟨hname, hspace, hcontainers⟩ => ⟨hname, hspace, hcontainers⟩,
      fun ⟨hname, hspace, hcontainers⟩ => ⟨hname, hspace, hcontainers⟩⟩

/-! ## Usages and containers -/

section Containers

variable {cpu : Option CpuStats} {memory : Option MemoryStats} {u : Usage} {c : ContainerStats}

/-- A usage comes of statistics exactly if it is a copy of what they report. -/
theorem usageOf_eq_ok_iff : usageOf cpu memory = .ok u ↔ u.IsCopy cpu memory := by
  constructor
  · intro h
    unfold usageOf at h
    cases cpu with
    | none => cases h
    | some c =>
      cases memory with
      | none => cases h
      | some m =>
        obtain ⟨cpuTime, cores, since⟩ := c
        obtain ⟨memoryTime, bytes, resident⟩ := m
        cases cores with
        | none => cases h
        | some cores =>
          cases bytes with
          | none => cases h
          | some bytes =>
            cases h
            exact ⟨⟨_, rfl, rfl, rfl⟩, ⟨_, rfl, rfl, rfl⟩⟩
  · rintro ⟨⟨c, rfl, hcores, hcpuTime⟩, ⟨m, rfl, hbytes, hmemoryTime⟩⟩
    simp only [usageOf, hcores, hbytes, hcpuTime, hmemoryTime]
    rfl

/-- Statistics from which no usage comes fail with the first thing that they lack. -/
theorem usageOf_eq_error_iff {d : UsageDefect} :
    usageOf cpu memory = .error d ↔ firstFound? (usageChecks cpu memory) = some d := by
  cases cpu with
  | none => simp [usageOf, usageChecks, throw, throwThe, MonadExceptOf.throw]
  | some c =>
    cases memory with
    | none => simp [usageOf, usageChecks, throw, throwThe, MonadExceptOf.throw]
    | some m =>
      obtain ⟨cpuTime, cores, since⟩ := c
      obtain ⟨memoryTime, bytes, resident⟩ := m
      cases cores with
      | none => simp [usageOf, usageChecks, throw, throwThe, MonadExceptOf.throw]
      | some cores =>
        cases bytes with
        | none => simp [usageOf, usageChecks, throw, throwThe, MonadExceptOf.throw]
        | some bytes => simp [usageOf, usageChecks, pure, Except.pure]

/-- There is a copy exactly where both values are reported. -/
theorem hasUsage_iff : HasUsage cpu memory ↔ ∃ u : Usage, u.IsCopy cpu memory := by
  constructor
  · rintro ⟨hcpu, hmemory⟩
    obtain ⟨cores, hcores⟩ := Option.ne_none_iff_exists'.mp hcpu
    obtain ⟨c, hc, hcores⟩ := Option.bind_eq_some_iff.mp hcores
    obtain ⟨bytes, hbytes⟩ := Option.ne_none_iff_exists'.mp hmemory
    obtain ⟨m, hm, hbytes⟩ := Option.bind_eq_some_iff.mp hbytes
    exact ⟨⟨⟨cores, c.time⟩, ⟨bytes, m.time⟩⟩, ⟨c, hc, hcores, rfl⟩, ⟨m, hm, hbytes, rfl⟩⟩
  · rintro ⟨u, ⟨c, hc, hcores, -⟩, ⟨m, hm, hbytes, -⟩⟩
    have hcpu : cpu.bind (·.usageNanoCores) = some u.cpu.value :=
      Option.bind_eq_some_iff.mpr ⟨c, hc, hcores⟩
    have hmemory : memory.bind (·.workingSetBytes) = some u.memory.value :=
      Option.bind_eq_some_iff.mpr ⟨m, hm, hbytes⟩
    exact ⟨Option.ne_none_iff_exists'.mpr ⟨_, hcpu⟩, Option.ne_none_iff_exists'.mpr ⟨_, hmemory⟩⟩

/-- A container comes to a point exactly if it has a name and the point is a copy of it. -/
theorem ContainerStats.point_eq_ok_iff {q : ContainerPoint} :
    c.point = .ok q ↔ c.name ≠ "" ∧ q.IsCopy c := by
  unfold ContainerStats.point
  split
  next hname =>
    rw [String.isEmpty_iff] at hname
    simp [hname]
  next hname =>
    rw [String.isEmpty_iff] at hname
    cases husage : usageOf c.cpu c.memory with
    | error d =>
      constructor
      · intro h
        cases h
      · rintro ⟨-, -, hcopy⟩
        rw [usageOf_eq_ok_iff.mpr hcopy] at husage
        cases husage
    | ok u =>
      constructor
      · rintro ⟨⟩
        exact ⟨hname, rfl, usageOf_eq_ok_iff.mp husage⟩
      · rintro ⟨-, hq, hcopy⟩
        obtain rfl : u = q.usage := Except.ok.inj (husage.symm.trans (usageOf_eq_ok_iff.mpr hcopy))
        exact congrArg (fun name => Except.ok (ContainerPoint.mk name q.usage)) hq.symm

/-- A container that comes to no point has the first defect that it is looked at for. -/
theorem ContainerStats.point_eq_error_iff {d : PodDefect} :
    c.point = .error d ↔ firstFound? c.checks = some d := by
  unfold ContainerStats.point ContainerStats.checks
  rw [firstFound?_cons, firstFound?_map]
  split
  next hname =>
    rw [String.isEmpty_iff] at hname
    simp [hname]
  next hname =>
    rw [String.isEmpty_iff] at hname
    rw [if_neg (by simpa using hname), Option.map_eq_some_iff]
    simp only [← usageOf_eq_error_iff]
    cases husage : usageOf c.cpu c.memory with
    | error e => simp
    | ok u => simp

theorem ContainerStats.exists_point_iff :
    (∃ q, c.point = .ok q) ↔ c.name ≠ "" ∧ HasUsage c.cpu c.memory := by
  constructor
  · rintro ⟨q, hq⟩
    obtain ⟨hname, hcopy⟩ := point_eq_ok_iff.mp hq
    exact ⟨hname, hasUsage_iff.mpr ⟨_, hcopy.usage⟩⟩
  · rintro ⟨hname, husage⟩
    obtain ⟨u, hu⟩ := hasUsage_iff.mp husage
    exact ⟨⟨c.name, u⟩, point_eq_ok_iff.mpr ⟨hname, rfl, hu⟩⟩

/-- Containers are looked at one after another, and the first defect is that of all. -/
theorem mapM_point_eq_error_iff {cs : List ContainerStats} {d : PodDefect} :
    cs.mapM ContainerStats.point = .error d ↔
      firstFound? (cs.flatMap ContainerStats.checks) = some d := by
  induction cs with
  | nil => simp [pure, Except.pure]
  | cons c cs ih =>
    rw [List.mapM_cons, List.flatMap_cons, firstFound?_append]
    cases hpoint : c.point with
    | error e =>
      rw [ContainerStats.point_eq_error_iff.mp hpoint]
      simp [bind, Except.bind]
    | ok q =>
      have hnone : firstFound? c.checks = none := by
        refine Option.eq_none_iff_forall_ne_some.mpr fun e he => ?_
        rw [ContainerStats.point_eq_error_iff.mpr he] at hpoint
        cases hpoint
      rw [hnone, Option.none_or, ← ih]
      cases cs.mapM ContainerStats.point <;> simp [bind, Except.bind, pure, Except.pure]

end Containers

/-! ## Pods -/

section Pods

variable {p : PodStats}

/-- A pod comes to a point exactly if all its names are there and the point is a copy of it. -/
theorem PodStats.point_eq_ok_iff {q : PodPoint} :
    p.point = .ok q ↔ p.podRef.name ≠ "" ∧ p.podRef.space ≠ "" ∧
      (∀ c ∈ p.containers, c.name ≠ "") ∧ q.IsCopy p := by
  have hcontainers : ∀ qs, p.containers.mapM ContainerStats.point = .ok qs ↔
      (∀ c ∈ p.containers, c.name ≠ "") ∧
        List.Forall₂ (fun c point => ContainerPoint.IsCopy point c) p.containers qs := by
    intro qs
    rw [mapM_eq_ok_iff, ← List.forall₂_and_left]
    simp only [ContainerStats.point_eq_ok_iff]
  unfold PodStats.point
  split
  next hnames =>
    rw [Bool.or_eq_true, String.isEmpty_iff, String.isEmpty_iff] at hnames
    constructor
    · intro h
      cases h
    · rintro ⟨hname, hspace, -⟩
      exact absurd hnames (not_or.mpr ⟨hname, hspace⟩)
  next hnames =>
    rw [Bool.or_eq_true, String.isEmpty_iff, String.isEmpty_iff, not_or] at hnames
    cases hqs : p.containers.mapM ContainerStats.point with
    | error d =>
      constructor
      · intro h
        cases h
      · rintro ⟨-, -, hnamed, hcopy⟩
        rw [(hcontainers _).mpr ⟨hnamed, hcopy.containers⟩] at hqs
        cases hqs
    | ok qs =>
      obtain ⟨hnamed, hcopies⟩ := (hcontainers qs).mp hqs
      constructor
      · rintro ⟨⟩
        exact ⟨hnames.1, hnames.2, hnamed, rfl, rfl, hcopies⟩
      · rintro ⟨-, -, -, hspace, hname, hcopy⟩
        have heq := hqs.symm.trans ((hcontainers _).mpr ⟨hnamed, hcopy⟩)
        obtain rfl : qs = q.containers := Except.ok.inj heq
        rw [← hspace, ← hname]

/-- A pod that comes to no point has the first defect that it is looked at for. -/
theorem PodStats.point_eq_error_iff {d : PodDefect} :
    p.point = .error d ↔ firstFound? p.checks = some d := by
  unfold PodStats.point PodStats.checks
  rw [firstFound?_cons]
  split
  next hnames =>
    rw [Bool.or_eq_true, String.isEmpty_iff, String.isEmpty_iff] at hnames
    simp [hnames]
  next hnames =>
    rw [Bool.or_eq_true, String.isEmpty_iff, String.isEmpty_iff] at hnames
    rw [if_neg (by simpa using hnames), ← mapM_point_eq_error_iff]
    cases p.containers.mapM ContainerStats.point <;> simp

/-- The usable pods are those that come to a point. -/
theorem PodStats.isUsable_iff : p.IsUsable ↔ ∃ q, p.point = .ok q := by
  constructor
  · rintro ⟨hname, hspace, hcontainers⟩
    obtain ⟨qs, hqs⟩ := exists_mapM_eq_ok_iff.mpr fun c hc =>
      ContainerStats.exists_point_iff.mpr (hcontainers c hc)
    have hnot : ¬ (p.podRef.name.isEmpty || p.podRef.space.isEmpty) = true := by
      simp [hname, hspace]
    exact ⟨⟨p.podRef.space, p.podRef.name, qs⟩, by rw [PodStats.point, if_neg hnot, hqs]⟩
  · rintro ⟨q, hq⟩
    obtain ⟨hname, hspace, hnamed, hcopy⟩ := point_eq_ok_iff.mp hq
    refine ⟨hname, hspace, fun c hc => ⟨hnamed c hc, hasUsage_iff.mpr ?_⟩⟩
    obtain ⟨point, -, hpoint⟩ := exists_partner_of_mem_left hcopy.containers hc
    exact ⟨point.usage, hpoint.usage⟩

end Pods

/-! ## Summaries -/

namespace Summary

variable {s : Summary} {node : String}

/-- The points of the usable pods, in the order of the summary. -/
theorem podPoints_copy (s : Summary) :
    List.Forall₂ (fun p q => PodPoint.IsCopy q p) (s.pods.filter (·.IsUsable)) s.podPoints := by
  have hread := forall₂_filterMap_ok (f := PodStats.point) (p := (·.IsUsable))
    (fun p => decide_eq_true_iff.trans PodStats.isUsable_iff) s.pods
  exact hread.imp fun p q hq => (PodStats.point_eq_ok_iff.mp hq).2.2.2

/-- The pods that are dropped are the others, each with its first defect. -/
theorem droppedPods_defects (s : Summary) (node : String) :
    List.Forall₂
      (fun p w => w.pod = p.podRef ∧ w.node = node ∧ firstFound? p.checks = some w.defect)
      (s.pods.filter (¬ ·.IsUsable)) (s.droppedPods node) := by
  have hread : List.Forall₂ (fun p w => ∃ d, p.point = .error d ∧ w = DroppedPod.mk p.podRef node d)
      (s.pods.filter (!decide ·.IsUsable)) (s.droppedPods node) := by
    refine forall₂_filterMap_error (f := PodStats.point) (p := (·.IsUsable))
      (fun p => decide_eq_true_iff.trans PodStats.isUsable_iff) _
      (fun p d => DroppedPod.mk p.podRef node d) (fun p q hq => ?_) (fun p d hd => ?_) s.pods
    · rw [hq]
    · rw [hd]
  simp only [← decide_not] at hread
  refine hread.imp fun p w => ?_
  rintro ⟨d, hd, rfl⟩
  exact ⟨rfl, rfl, PodStats.point_eq_error_iff.mp hd⟩

/-- No point of a pod lacks a name. -/
theorem podPoints_named {q : PodPoint} (hq : q ∈ s.podPoints) :
    q.space ≠ "" ∧ q.name ≠ "" ∧ ∀ c ∈ q.containers, c.name ≠ "" := by
  obtain ⟨p, -, hp⟩ := List.mem_filterMap.mp hq
  have hpoint : p.point = .ok q := by
    cases hp' : p.point with
    | error d => simp [hp', Except.toOption] at hp
    | ok q' => simpa [hp', Except.toOption] using hp
  obtain ⟨hname, hspace, hnamed, hcopy⟩ := PodStats.point_eq_ok_iff.mp hpoint
  refine ⟨hcopy.space ▸ hspace, hcopy.name ▸ hname, fun point hpoint => ?_⟩
  obtain ⟨c, hc, hcopied⟩ := exists_partner_of_mem_right hcopy.containers hpoint
  exact hcopied.name ▸ hnamed c hc

/-- A summary may leave its node's name out, but not give another one. -/
private theorem nodeName_fits :
    ¬ (!s.node.nodeName.isEmpty && s.node.nodeName != node) = true ↔
      s.node.nodeName = "" ∨ s.node.nodeName = node := by
  rw [Bool.and_eq_true, Bool.not_eq_true', bne_iff_ne, ← Bool.not_eq_true, String.isEmpty_iff,
    ← not_or, not_not]

/-- The points that a summary comes to. -/
theorem points_eq_ok_iff {q : NodePoints} :
    s.points node = .ok q ↔ (s.node.nodeName = "" ∨ s.node.nodeName = node) ∧
      q.node.name = node ∧ q.node.usage.IsCopy s.node.cpu s.node.memory ∧
        q.pods = s.podPoints := by
  rw [← nodeName_fits]
  unfold points
  split
  next hother => simp [hother]
  next hfits =>
    cases husage : usageOf s.node.cpu s.node.memory with
    | error d =>
      constructor
      · intro h
        cases h
      · rintro ⟨-, -, hcopy, -⟩
        rw [usageOf_eq_ok_iff.mpr hcopy] at husage
        cases husage
    | ok u =>
      constructor
      · rintro ⟨⟩
        exact ⟨hfits, rfl, usageOf_eq_ok_iff.mp husage, rfl⟩
      · rintro ⟨-, hname, hcopy, hpods⟩
        obtain rfl : u = q.node.usage :=
          Except.ok.inj (husage.symm.trans (usageOf_eq_ok_iff.mpr hcopy))
        rw [← hname, ← hpods]

/-- A summary that comes to no points has the first defect that it is looked at for. -/
theorem points_eq_error_iff {d : SummaryDefect} :
    s.points node = .error d ↔ firstFound? (s.checks node) = some d := by
  have hfound : (!s.node.nodeName.isEmpty && s.node.nodeName != node) =
      decide (s.node.nodeName ≠ "" ∧ s.node.nodeName ≠ node) := by
    rw [Bool.eq_iff_iff, decide_eq_true_iff, ← not_iff_not, nodeName_fits, not_and_or, not_not,
      not_not]
  unfold points checks
  rw [firstFound?_cons, firstFound?_map, ← hfound]
  split
  next => simp
  next =>
    rw [Option.map_eq_some_iff]
    simp only [← usageOf_eq_error_iff]
    cases usageOf s.node.cpu s.node.memory <;> simp

/-- A summary is usable as that of a listed node exactly if it reports no other node and both values
of the node's own usage. -/
theorem exists_points_iff :
    (∃ q, s.points node = .ok q) ↔
      (s.node.nodeName = "" ∨ s.node.nodeName = node) ∧ HasUsage s.node.cpu s.node.memory := by
  simp only [points_eq_ok_iff, hasUsage_iff]
  constructor
  · rintro ⟨q, hfits, -, hcopy, -⟩
    exact ⟨hfits, _, hcopy⟩
  · rintro ⟨hfits, u, hcopy⟩
    exact ⟨⟨⟨node, u⟩, s.podPoints⟩, hfits, rfl, hcopy, rfl⟩

/-- An answer with a summary comes to points exactly if the summary reports no other node than the
listed one and both values of the node's own usage. The node's point then has the listed name and a
copy of that usage; the pods' points are copies of the usable pods, in the order of the summary; and
there is one warning for each other pod, with the first defect of that pod. No point of a pod or
container lacks a name, and that of the node lacks it only if the listed name is empty. Otherwise
the failure is the first defect of the summary itself, and no pod is looked at. -/
theorem outcome_of_answered (node : String) (s : Summary) (took : Duration) :
    ((∃ q, (Attempt.answered s).outcome node took = .ok q) ↔
      (s.node.nodeName = "" ∨ s.node.nodeName = node) ∧ HasUsage s.node.cpu s.node.memory) ∧
    (∀ q, (Attempt.answered s).outcome node took = .ok q →
      q.node.name = node ∧ q.node.usage.IsCopy s.node.cpu s.node.memory ∧
      List.Forall₂ (fun p q => PodPoint.IsCopy q p) (s.pods.filter (·.IsUsable)) q.pods ∧
      List.Forall₂
        (fun p w => w.pod = p.podRef ∧ w.node = node ∧ firstFound? p.checks = some w.defect)
        (s.pods.filter (¬ ·.IsUsable)) (s.warnings node) ∧
      (∀ p ∈ q.pods, p.space ≠ "" ∧ p.name ≠ "" ∧ ∀ c ∈ p.containers, c.name ≠ "") ∧
      (q.node.name = "" → node = "")) ∧
    (∀ f, (Attempt.answered s).outcome node took = .error f →
      (∃ d, firstFound? (s.checks node) = some d ∧ f = .invalidSummary d.message) ∧
        s.warnings node = []) := by
  have houtcome : (Attempt.answered s).outcome node took = (s.points node).mapError .ofDefect := rfl
  rw [houtcome, warnings]
  cases hpoints : s.points node with
  | ok q =>
    obtain ⟨hfits, hname, hcopy, hpods⟩ := points_eq_ok_iff.mp hpoints
    refine ⟨iff_of_true ⟨q, rfl⟩ (exists_points_iff.mp ⟨q, hpoints⟩), ?_, nofun⟩
    rintro _ ⟨⟩
    refine ⟨hname, hcopy, hpods ▸ s.podPoints_copy, s.droppedPods_defects node, ?_, ?_⟩
    · intro p hp
      rw [hpods] at hp
      exact podPoints_named hp
    · intro hempty
      exact hname.symm.trans hempty
  | error d =>
    have hnone : ¬ ∃ q, s.points node = .ok q := by simp [hpoints]
    refine ⟨iff_of_false ?_ fun h => hnone (exists_points_iff.mpr h), ?_, ?_⟩
    · rintro ⟨q, hq⟩
      cases hq
    · intro q hq
      cases hq
    · intro f hf
      cases hf
      exact ⟨⟨d, points_eq_error_iff.mp hpoints, rfl⟩, rfl⟩

/-- A pod that is usable and one whose container has no memory usage. -/
theorem outcome_of_answered_with_dropped :
    let now : Timestamp := ⟨⟨2021, 3, 4, by decide⟩, 36000, 0, by decide, by decide⟩
    let cpu : CpuStats := ⟨now, some 100, none⟩
    let memory : MemoryStats := ⟨now, some 200, none⟩
    let kept : PodStats := ⟨⟨"a", "ns", ""⟩, [⟨"c", some cpu, some memory⟩]⟩
    let dropped : PodStats := ⟨⟨"b", "ns", ""⟩, [⟨"c", some cpu, none⟩]⟩
    let s : Summary := ⟨⟨"", some cpu, some memory⟩, [dropped, kept]⟩
    ∃ q, (Attempt.answered s).outcome "node" 0 = .ok q ∧ q.node.name = "node" ∧
      (∃ point, q.pods = [point] ∧ point.IsCopy kept) ∧
      ∃ w, s.warnings "node" = [w] ∧ w.pod = dropped.podRef ∧
        w.defect = .container "c" .noMemory := by
  intro now cpu memory kept dropped s
  obtain ⟨q, hq⟩ := (outcome_of_answered "node" s 0).1.mpr ⟨.inl rfl, by decide, by decide⟩
  obtain ⟨hname, -, hpods, hwarnings, -⟩ := (outcome_of_answered "node" s 0).2.1 q hq
  have hkept : s.pods.filter (·.IsUsable) = [kept] := by decide
  have hdropped : s.pods.filter (¬ ·.IsUsable) = [dropped] := by decide
  have hdefect : firstFound? dropped.checks = some (.container "c" .noMemory) := by decide
  rw [hkept] at hpods
  rw [hdropped] at hwarnings
  obtain ⟨point, _, hpoint, hnil, hq'⟩ := List.forall₂_cons_left_iff.mp hpods
  obtain ⟨w, _, ⟨hw, -, hfirst⟩, hnil', hs⟩ := List.forall₂_cons_left_iff.mp hwarnings
  rw [List.forall₂_nil_left_iff] at hnil hnil'
  subst hnil hnil'
  exact ⟨q, hq, hname, ⟨point, hq', hpoint⟩, w, hs, hw, Option.some.inj (hfirst.symm.trans hdefect)⟩

/-- Under an empty listed name, a summary with its usage comes to a point of a node without a
name. -/
theorem exists_point_of_nameless_node :
    let now : Timestamp := ⟨⟨2021, 3, 4, by decide⟩, 36000, 0, by decide, by decide⟩
    let s : Summary := ⟨⟨"", some ⟨now, some 100, none⟩, some ⟨now, some 200, none⟩⟩, []⟩
    ∃ q, (Attempt.answered s).outcome "" 0 = .ok q ∧ q.node.name = "" := by
  intro now s
  let q : NodePoints := ⟨⟨"", ⟨⟨100, now⟩, ⟨200, now⟩⟩⟩, []⟩
  have hpoints : s.points "" = .ok q :=
    points_eq_ok_iff.mpr ⟨.inl rfl, rfl, ⟨⟨_, rfl, rfl, rfl⟩, ⟨_, rfl, rfl, rfl⟩⟩, rfl⟩
  exact ⟨q, congrArg (Except.mapError .ofDefect) hpoints, rfl⟩

end Summary

end NodeScrape
