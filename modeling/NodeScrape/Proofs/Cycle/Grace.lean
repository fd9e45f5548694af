import NodeScrape.Proofs.Cycle.Reference
import NodeScrape.Proofs.List.Places

/-!
# How long a cycle waits for its tasks

A client that holds its thread settles only with its own result, however late, and every other one
at the latest when the scope is done. The cycle waits for the last of its tasks, but no longer than
until the grace period after the end of its scope is over.
-/

namespace NodeScrape

/-- The last of some moments; none if one of them never comes. -/
def latest? : List (Option Nat) → Option Nat
  | [] => some 0
  | m :: rest => m.bind fun k => (latest? rest).map (max k)

theorem latest?_cons_some (k : Nat) (rest : List (Option Nat)) :
    latest? (some k :: rest) = (latest? rest).map (max k) := rfl

/-- The last moment has come exactly when all have. -/
theorem reached_latest?_iff {moments : List (Option Nat)} {t : Nat} :
    Ending.reached (latest? moments) t = true ↔ ∀ m ∈ moments, Ending.reached m t = true := by
  induction moments with
  | nil => simp [latest?]
  | cons m rest ih =>
    rw [List.forall_mem_cons, ← ih]
    cases m with
    | none => simp [latest?]
    | some k =>
      rw [latest?_cons_some]
      cases latest? rest with
      | none => simp
      | some l =>
        simp only [Option.map_some, Ending.reached_some, decide_eq_true_iff]
        exact Nat.max_le

/-- The last moment is one of them unless it is zero. -/
theorem latest?_mem {moments : List (Option Nat)} {k : Nat} (h : latest? moments = some k) :
    k = 0 ∨ some k ∈ moments := by
  induction moments generalizing k with
  | nil => exact .inl (Option.some.inj h).symm
  | cons m rest ih =>
    cases m with
    | none => cases h
    | some l =>
      obtain ⟨r, hr, rfl⟩ := Option.map_eq_some_iff.mp h
      rcases Nat.le_total r l with hle | hle
      · rw [Nat.max_eq_left hle]
        exact .inr List.mem_cons_self
      · rw [Nat.max_eq_right hle]
        exact (ih hr).imp_right (List.mem_cons_of_mem _)

namespace Span

/-- The ticks after which the task of a client settles, if it ever does. -/
def settles (s : Span) (b : Behavior) : Option Nat :=
  if b.holdsThread then b.delay else some (s.ends b.delay)

/-- What a node comes to when its task settles, if its client's own result alone makes it come to
`own`. -/
def settlesTo (s : Span) (b : Behavior) (own : NodeOutcome) : NodeOutcome :=
  if b.holdsThread then own else s.outcome b.delay own

/-- The ticks after which a cycle closes its board whose tasks settle after the given ones, if they
ever do. -/
def seals (s : Span) (settles : List (Option Nat)) : Nat :=
  (latest? settles).elim (s.length + CyclePlan.grace) (min · (s.length + CyclePlan.grace))

/-- A cycle closes its board once all tasks have settled or the grace period is over. -/
theorem seals_le_iff (s : Span) (settles : List (Option Nat)) (k : Nat) :
    s.seals settles ≤ k ↔
      (∀ m ∈ settles, Ending.reached m k = true) ∨ s.length + CyclePlan.grace ≤ k := by
  rw [← reached_latest?_iff, seals]
  cases latest? settles with
  | none => simp
  | some l =>
    simp only [Option.elim_some, Ending.reached_some, decide_eq_true_iff]
    omega

/-- A cycle closes its board at once, when one of its tasks settles, or when the grace period is
over. -/
theorem seals_cases (s : Span) (settles : List (Option Nat)) :
    s.seals settles = 0 ∨ some (s.seals settles) ∈ settles ∨
      s.seals settles = s.length + CyclePlan.grace := by
  rw [seals]
  cases hl : latest? settles with
  | none => exact .inr (.inr rfl)
  | some l =>
    rw [Option.elim_some]
    rcases Nat.le_total l (s.length + CyclePlan.grace) with hle | hle
    · rw [Nat.min_eq_left hle]
      exact (latest?_mem hl).imp_right .inl
    · rw [Nat.min_eq_right hle]
      exact .inr (.inr rfl)

theorem ends_le_length (s : Span) (delay : Option Nat) : s.ends delay ≤ s.length := by
  cases delay with
  | none => exact Nat.le_refl _
  | some d => exact Nat.min_le_right _ _

end Span

namespace CyclePlan

/-- The tick at which the task of a node settles, if it ever does. -/
def settleTick? (p : CyclePlan) (deadline : Nat) (n : Node) : Option Nat :=
  ((p.span deadline).settles (p.client n)).map (p.begins + ·)

/-- What a node comes to when its task settles. -/
def settlesTo (p : CyclePlan) (deadline : Nat) (n : Node) : NodeOutcome :=
  (p.span deadline).settlesTo (p.client n) ((p.client n).result.outcome n.name p.took)

/-- The tick at which the cycle closes its board. -/
def sealTick (p : CyclePlan) (deadline : Nat) : Nat :=
  p.begins + (p.span deadline).seals (p.named.map fun n => (p.span deadline).settles (p.client n))

variable {p : CyclePlan} {deadline t : Nat} {n : Node}

/-- The task of a client that holds its thread settles when the client has its own result. -/
theorem settleTick?_of_holdsThread (hn : (p.client n).holdsThread = true) :
    p.settleTick? deadline n = (p.client n).moment p.begins := by
  rw [settleTick?, Span.settles, if_pos hn, Behavior.moment]

theorem settleTick?_of_not_holdsThread (hn : (p.client n).holdsThread = false) :
    p.settleTick? deadline n = some (p.endTick deadline n) := by
  rw [settleTick?, Span.settles, if_neg (by rw [hn]; nofun), endTick, Option.map_some]

theorem settlesTo_of_not_holdsThread (hn : (p.client n).holdsThread = false) :
    p.settlesTo deadline n = p.comesTo deadline n := by
  rw [settlesTo, Span.settlesTo, if_neg (by rw [hn]; nofun), comesTo]

theorem reached_settleTick?_iff (hb : p.begins ≤ t) :
    Ending.reached (p.settleTick? deadline n) t = true ↔
      Ending.reached ((p.span deadline).settles (p.client n)) (t - p.begins) = true := by
  rw [settleTick?]
  cases (p.span deadline).settles (p.client n) with
  | none => simp
  | some k =>
    simp only [Option.map_some, Ending.reached_some, decide_eq_true_iff]
    omega

/-- The board is closed once all tasks have settled or the grace period is over. -/
theorem sealTick_le_iff (hb : p.begins ≤ t) :
    p.sealTick deadline ≤ t ↔
      (∀ n ∈ p.named, Ending.reached (p.settleTick? deadline n) t = true) ∨
        p.begins + (p.span deadline).length + grace ≤ t := by
  have hsub : p.sealTick deadline ≤ t ↔ (p.span deadline).seals
      (p.named.map fun n => (p.span deadline).settles (p.client n)) ≤ t - p.begins := by
    unfold sealTick
    omega
  rw [hsub, Span.seals_le_iff, List.forall_mem_map]
  refine or_congr (forall₂_congr fun n _ => (reached_settleTick?_iff hb).symm) ?_
  omega

/-- The cycle stops waiting when the grace period after the end of its scope is over. -/
theorem cutOff?_eq (hd : p.ending.deadline = some deadline) :
    p.cutOff? = some (p.begins + (p.span deadline).length + grace) := by
  unfold cutOff? Ending.first? Span.length span
  rw [hd]
  cases p.ending.canceled with
  | none =>
    simp only [Option.map_some, Option.map_none, Option.elim_none, Option.some.injEq]
    omega
  | some k =>
    simp only [Option.map_some, Option.elim_some, Option.some.injEq]
    omega

/-- A task that is asked before it settles comes to nothing. -/
theorem poll_of_unsettled (hd : p.ending.deadline = some deadline) (hb : p.begins ≤ t)
    (ht : Ending.reached (p.settleTick? deadline n) t = false) :
    (p.client n).poll p.begins t (p.ending.reasonsAt t) = [] := by
  cases hn : (p.client n).holdsThread with
  | true =>
    rw [settleTick?_of_holdsThread hn] at ht
    simp [Behavior.poll, Behavior.ready, ht, hn, Race.poll]
  | false =>
    rw [settleTick?_of_not_holdsThread hn] at ht
    refine poll_of_lt hd hb ?_
    simpa using ht

/-- A task that is asked when it settles comes to what its node comes to. -/
theorem poll_of_settling (hd : p.ending.deadline = some deadline)
    (ht : p.settleTick? deadline n = some t) :
    ∃ o rest, (p.client n).poll p.begins t (p.ending.reasonsAt t) = o :: rest ∧
      match o with
      | .ok attempt => attempt.outcome n.name p.took = p.settlesTo deadline n
      | .error reason => reason ∈ p.ending.reasonsAt t ∧
          .error (.ofReason reason) = p.settlesTo deadline n := by
  cases hn : (p.client n).holdsThread with
  | true =>
    rw [settleTick?_of_holdsThread hn] at ht
    refine ⟨.ok (p.client n).result, [], ?_, ?_⟩
    · simp [Behavior.poll, Behavior.ready, ht, Race.poll]
    · rw [settlesTo, Span.settlesTo, if_pos hn]
  | false =>
    rw [settleTick?_of_not_holdsThread hn] at ht
    rw [settlesTo_of_not_holdsThread hn]
    exact poll_of_eq hd hn (Option.some.inj ht).symm

/-- Every end is a tick at which the cycle is woken. -/
theorem endTick_mem_wakeups (hd : p.ending.deadline = some deadline) (hn : n ∈ p.named) :
    p.endTick deadline n ∈ Race.wakeups p.begins p.moments := by
  rw [Race.mem_wakeups]
  by_cases hlt : p.begins < p.endTick deadline n
  · refine .inr ⟨?_, hlt⟩
    unfold endTick at hlt ⊢
    simp only [moments, List.mem_append]
    rcases (p.span deadline).ends_own_or_with (p.client n).delay with
      ⟨d, hdelay, -, hend, -⟩ | ⟨-, hend, -⟩
    · left; left
      rw [hend]
      exact List.mem_filterMap.mpr ⟨n, hn, by simp [Behavior.moment, hdelay]⟩
    · left; right
      rw [hend] at hlt ⊢
      simp only [Ending.moments, List.mem_append, Option.mem_toList, hd]
      simp only [Span.length, span] at hlt ⊢
      cases hc : p.ending.canceled with
      | none =>
        simp only [hc, Option.map_none, Option.elim_none] at hlt ⊢
        right
        rw [Option.some.injEq]
        omega
      | some k =>
        simp only [hc, Option.map_some, Option.elim_some, Option.some.injEq] at hlt ⊢
        omega
  · left
    unfold endTick at hlt ⊢
    omega

/-- The tick at which a task settles is one at which the cycle is woken. -/
theorem settleTick?_mem_wakeups (hd : p.ending.deadline = some deadline) (hnamed : n ∈ p.named)
    (ht : p.settleTick? deadline n = some t) : t ∈ Race.wakeups p.begins p.moments := by
  cases hn : (p.client n).holdsThread with
  | true =>
    rw [settleTick?_of_holdsThread hn] at ht
    have hmoment : t ∈ p.moments :=
      List.mem_append_left _ (List.mem_append_left _ (List.mem_filterMap.mpr ⟨n, hnamed, ht⟩))
    obtain ⟨d, -, rfl⟩ := Option.map_eq_some_iff.mp ht
    rw [Race.mem_wakeups]
    rcases Nat.eq_zero_or_pos d with rfl | hpos
    · exact .inl rfl
    · exact .inr ⟨hmoment, Nat.lt_add_of_pos_right hpos⟩
  | false =>
    rw [settleTick?_of_not_holdsThread hn] at ht
    exact Option.some.inj ht ▸ endTick_mem_wakeups hd hnamed

/-- The tick at which the board is closed is one at which the cycle is woken. -/
theorem sealTick_mem_wakeups (hd : p.ending.deadline = some deadline) :
    p.sealTick deadline ∈ Race.wakeups p.begins p.moments := by
  rcases (p.span deadline).seals_cases
    (p.named.map fun n => (p.span deadline).settles (p.client n)) with hzero | hmem | hcut
  · exact Race.mem_wakeups.mpr (.inl (by rw [sealTick, hzero, Nat.add_zero]))
  · obtain ⟨n, hnamed, hsettles⟩ := List.mem_map.mp hmem
    refine settleTick?_mem_wakeups hd hnamed ?_
    rw [settleTick?, hsettles, sealTick, Option.map_some]
  · have hcut' : p.cutOff? = some (p.sealTick deadline) := by
      rw [cutOff?_eq hd, sealTick, hcut, Nat.add_assoc]
    refine Race.mem_wakeups.mpr (.inr ⟨?_, ?_⟩)
    · exact List.mem_append_right _ (by rw [hcut']; exact List.mem_singleton_self _)
    · rw [sealTick, hcut, grace]
      omega

end CyclePlan

end NodeScrape
