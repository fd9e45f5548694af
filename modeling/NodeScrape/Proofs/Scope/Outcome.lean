import NodeScrape.Proofs.Scope.Race
import NodeScrape.Scope.Timeline

/-!
# What a race comes to

The three events of a race are the readiness of the work, the cancellation of its scope and the
deadline of that scope; each may never come. A race is decided by the first of them that comes, or
at its start, and work that is ready counts before a scope that is done.
-/

namespace NodeScrape

/-! ## The first tick that decides -/

namespace Race

variable {α : Type} {ready : Nat → Option α} {e : Ending} {ticks : List Nat}

/-- A race that comes to nothing at any of its ticks comes to nothing. -/
theorem firstOf_eq_none (h : ∀ u ∈ ticks, poll (ready u) (e.reasonsAt u) = []) :
    firstOf ready e ticks = none := by
  induction ticks with
  | nil => rfl
  | cons u rest ih =>
    rw [firstOf, h u List.mem_cons_self]
    exact ih fun v hv => h v (List.mem_cons_of_mem u hv)

/-- A race comes to what is there at the first of its ticks at which something is. -/
theorem firstOf_eq_some (hsorted : ticks.Pairwise (· ≤ ·)) {t : Nat} (ht : t ∈ ticks)
    (hbefore : ∀ u ∈ ticks, u < t → poll (ready u) (e.reasonsAt u) = [])
    {outcome : Except DoneReason α} (hat : poll (ready t) (e.reasonsAt t) = [outcome]) :
    firstOf ready e ticks = some (t, [outcome]) := by
  induction ticks with
  | nil => cases ht
  | cons u rest ih =>
    obtain ⟨hle, hrest⟩ := List.pairwise_cons.mp hsorted
    rcases List.mem_cons.mp ht with rfl | htail
    · rw [firstOf, hat]
    · rcases Nat.eq_or_lt_of_le (hle t htail) with rfl | hlt
      · rw [firstOf, hat]
      · rw [firstOf, hbefore u List.mem_cons_self hlt]
        exact ih hrest htail fun v hv => hbefore v (List.mem_cons_of_mem u hv)

/-- A race comes to what is there at its start or when something happens, if nothing is before. -/
theorem run_eq_some {start t : Nat} (hmem : t = start ∨ t ∈ ticks ++ e.moments ∧ start < t)
    (hbefore : ∀ u, start ≤ u → u < t → ready u = none ∧ e.reasonsAt u = [])
    {outcome : Except DoneReason α} (hat : poll (ready t) (e.reasonsAt t) = [outcome]) :
    run start ticks ready e = some (t, [outcome]) := by
  refine firstOf_eq_some (pairwise_wakeups _ _) (mem_wakeups.mpr hmem) (fun u hu hlt => ?_) hat
  obtain ⟨hready, hreasons⟩ := hbefore u (start_le_of_mem_wakeups hu) hlt
  rw [hready, hreasons]
  rfl

/-- A race comes to nothing if nothing is ever there. -/
theorem run_eq_none {start : Nat} (h : ∀ u, start ≤ u → ready u = none ∧ e.reasonsAt u = []) :
    run start ticks ready e = none := by
  refine firstOf_eq_none fun u hu => ?_
  obtain ⟨hready, hreasons⟩ := h u (start_le_of_mem_wakeups hu)
  rw [hready, hreasons]
  rfl

/-- When work becomes ready: not before the race begins, and it is asked at that tick. -/
structure Becomes (start : Nat) (ticks : List Nat) (ready : Nat → Option α) (F : Option Nat) :
    Prop where
  pending : ∀ t, start ≤ t → Ending.reached F t = false → ready t = none
  ready : ∀ t, F = some t → start ≤ t ∧ (t = start ∨ t ∈ ticks) ∧ (ready t).isSome

end Race

/-! ## The end of a scope -/

namespace Ending

/-- From a tick on, a scope is canceled and its time is up from these ticks on. -/
structure Tells (e : Ending) (start : Nat) (C D : Option Nat) : Prop where
  canceled : ∀ t, start ≤ t → reached e.canceled t = reached C t
  deadline : ∀ t, start ≤ t → reached e.deadline t = reached D t

/-- Something that has come from a tick on, and not before, comes at that tick. -/
theorem eq_some_of_reached {m : Option Nat} {start t : Nat}
    (h : ∀ u, start ≤ u → reached m u = reached (some t) u) (hlt : start < t) : m = some t := by
  have hat := h t (Nat.le_of_lt hlt)
  have hbefore := h (t - 1) (by omega)
  cases m with
  | none => simp at hat
  | some k =>
    rw [reached_some, reached_some, decide_eq_decide] at hat hbefore
    congr 1
    omega

/-- When a scope is seen to be done by one who looks from a tick on. -/
def seen? (e : Ending) (start : Nat) : Option Nat := e.first?.map (max start)

/-- Why a scope is done whose cancellation and deadline come at different ticks. -/
def reason (e : Ending) : DoneReason :=
  match e.canceled, e.deadline with
  | some c, some d => if c < d then .canceled else .deadlineExceeded
  | some _, none => .canceled
  | none, _ => .deadlineExceeded

variable {e : Ending} {start t : Nat} {C D : Option Nat}

theorem start_le_of_seen (h : e.seen? start = some t) : start ≤ t := by
  obtain ⟨k, -, rfl⟩ := Option.map_eq_some_iff.mp h
  exact Nat.le_max_left start k

namespace Tells

/-- No reason holds before the scope is seen to be done. -/
theorem reasonsAt_eq_nil (h : e.Tells start C D) (ht : start ≤ t)
    (hlt : ∀ k, (Ending.mk C D).seen? start = some k → t < k) : e.reasonsAt t = [] := by
  rw [reasonsAt_eq_nil_iff, h.canceled t ht, h.deadline t ht]
  cases C with
  | none =>
    cases D with
    | none => exact ⟨rfl, rfl⟩
    | some d =>
      have hd := hlt _ rfl
      simp only [reached_none, reached_some, decide_eq_false_iff_not, true_and]
      omega
  | some c =>
    cases D with
    | none =>
      have hc := hlt _ rfl
      simp only [reached_none, reached_some, decide_eq_false_iff_not, and_true]
      omega
    | some d =>
      have hcd := hlt _ rfl
      simp only [reached_some, decide_eq_false_iff_not]
      omega

/-- One reason holds when the scope is seen to be done, unless both did at the start or came at
once. -/
theorem reasonsAt_seen (h : e.Tells start C D) (hne : ∀ k, ¬ (C = some k ∧ D = some k))
    (hboth : ¬ (reached C start = true ∧ reached D start = true))
    (ht : (Ending.mk C D).seen? start = some t) :
    e.reasonsAt t = [(Ending.mk C D).reason] := by
  have hstart := start_le_of_seen ht
  rw [reasonsAt, h.canceled t hstart, h.deadline t hstart]
  cases C with
  | none =>
    cases D with
    | none => cases ht
    | some d =>
      obtain rfl : max start d = t := Option.some.inj ht
      have hd : reached (some d) (max start d) = true := decide_eq_true (Nat.le_max_right start d)
      rw [hd]
      rfl
  | some c =>
    cases D with
    | none =>
      obtain rfl : max start c = t := Option.some.inj ht
      have hc : reached (some c) (max start c) = true := decide_eq_true (Nat.le_max_right start c)
      rw [hc]
      rfl
    | some d =>
      have hcd : c ≠ d := fun heq => hne c ⟨rfl, congrArg some heq.symm⟩
      have hmax : max start (min c d) = t := Option.some.inj ht
      have hreason : (Ending.mk (some c) (some d)).reason =
          if c < d then .canceled else .deadlineExceeded := rfl
      simp only [reached_some, decide_eq_true_iff] at hboth ⊢
      rcases Nat.lt_or_gt_of_ne hcd with hlt | hgt
      · rw [if_pos (by omega), if_neg (by omega), hreason, if_pos hlt]
        rfl
      · rw [if_neg (by omega), if_pos (by omega), hreason, if_neg (by omega)]
        rfl

/-- A race is asked when its scope is seen to be done. -/
theorem mem_wakeups (h : e.Tells start C D) (ht : (Ending.mk C D).seen? start = some t)
    (ticks : List Nat) : t ∈ Race.wakeups start (ticks ++ e.moments) := by
  rw [Race.mem_wakeups]
  rcases Nat.eq_or_lt_of_le (start_le_of_seen ht) with rfl | hlt
  · exact .inl rfl
  refine .inr ⟨List.mem_append_right _ ?_, hlt⟩
  have hfirst : C = some t ∨ D = some t := by
    obtain ⟨k, hk, hmax⟩ := Option.map_eq_some_iff.mp ht
    obtain rfl : k = t := by omega
    cases C with
    | none => exact .inr hk
    | some c =>
      cases D with
      | none => exact .inl hk
      | some d =>
        have hmin : min c d = k := Option.some.inj hk
        rcases Nat.le_total c d with hle | hle
        · exact .inl (by rw [← hmin, Nat.min_eq_left hle])
        · exact .inr (by rw [← hmin, Nat.min_eq_right hle])
  rcases hfirst with rfl | rfl
  · simp [moments, eq_some_of_reached h.canceled hlt]
  · simp [moments, eq_some_of_reached h.deadline hlt]

end Tells

end Ending

/-! ## Races -/

namespace Race

variable {α : Type} {e : Ending} {start t : Nat} {C D F : Option Nat} {ticks : List Nat}
  {ready : Nat → Option α}

/-- Nothing is there before the work is ready and before its scope is seen to be done. -/
private theorem nothing_before (h : e.Tells start C D) (hwork : Becomes start ticks ready F)
    {u : Nat} (hstart : start ≤ u) (hF : Ending.reached F u = false)
    (hseen : ∀ k, (Ending.mk C D).seen? start = some k → u < k) :
    ready u = none ∧ e.reasonsAt u = [] :=
  ⟨hwork.pending u hstart hF, h.reasonsAt_eq_nil hstart hseen⟩

/-- Work that is ready when its scope is seen to be done, or before, is what the race comes to. -/
theorem run_of_ready (h : e.Tells start C D) (hwork : Becomes start ticks ready F)
    (hF : F = some t) (hle : ∀ k, (Ending.mk C D).seen? start = some k → t ≤ k) :
    ∃ value, ready t = some value ∧ run start ticks ready e = some (t, [.ok value]) := by
  obtain ⟨hstart, hmem, hready⟩ := hwork.ready t hF
  obtain ⟨value, hvalue⟩ := Option.isSome_iff_exists.mp hready
  refine ⟨value, hvalue, run_eq_some ?_ (fun u hu hlt => ?_) ?_⟩
  · rcases Nat.eq_or_lt_of_le hstart with rfl | hlt
    · exact .inl rfl
    · have hticks := hmem.resolve_left (Nat.ne_of_gt hlt)
      exact .inr ⟨List.mem_append_left _ hticks, hlt⟩
  · refine nothing_before h hwork hu ?_ fun k hk => Nat.lt_of_lt_of_le hlt (hle k hk)
    simpa [hF] using hlt
  · rw [hvalue]
    rfl

/-- A scope that is seen to be done before the work is ready ends the race, with the reason for
which it is. -/
theorem run_of_done (h : e.Tells start C D) (hwork : Becomes start ticks ready F)
    (hne : ∀ k, ¬ (C = some k ∧ D = some k))
    (hboth : ¬ (Ending.reached C start = true ∧ Ending.reached D start = true))
    (ht : (Ending.mk C D).seen? start = some t) (hF : Ending.reached F t = false) :
    run start ticks ready e = some (t, [.error (Ending.mk C D).reason]) := by
  refine run_eq_some (mem_wakeups.mp (h.mem_wakeups ht ticks)) (fun u hu hlt => ?_) ?_
  · refine nothing_before h hwork hu ?_ fun k hk => ?_
    · cases F with
      | none => rfl
      | some f =>
        simp only [Ending.reached_some, decide_eq_false_iff_not] at hF ⊢
        omega
    · rw [ht] at hk
      exact Option.some.inj hk ▸ hlt
  · rw [hwork.pending t (Ending.start_le_of_seen ht) hF, h.reasonsAt_seen hne hboth ht]
    rfl

/-- A race comes to nothing if the work is never ready and its scope never done. -/
theorem run_of_never (h : e.Tells start C D) (hwork : Becomes start ticks ready none)
    (hseen : (Ending.mk C D).seen? start = none) : run start ticks ready e = none :=
  run_eq_none fun u hu => nothing_before h hwork hu rfl fun k hk => by
    rw [hseen] at hk
    cases hk

/-- Work that is never ready. -/
private theorem becomes_never : Becomes start [] (fun _ => (none : Option α)) none where
  pending _ _ _ := rfl
  ready _ h := nomatch h

/-- Work that is ready with a value from a tick on. -/
theorem becomes_readyFrom {k : Nat} (hk : start ≤ k) (value : α) :
    Becomes start [k] (readyFrom (some k) value) (some k) where
  pending t _ hlt := by
    rw [readyFrom, if_neg (by simp [hlt])]
  ready t h := by
    obtain rfl := Option.some.inj h
    refine ⟨hk, .inr List.mem_cons_self, ?_⟩
    simp [readyFrom]

/-- Waiting for a scope ends when it is seen to be done, with the reason for which it is. -/
theorem done_of_seen (h : e.Tells start C D) (hne : ∀ k, ¬ (C = some k ∧ D = some k))
    (hboth : ¬ (Ending.reached C start = true ∧ Ending.reached D start = true))
    (ht : (Ending.mk C D).seen? start = some t) :
    done start e = some (t, [(Ending.mk C D).reason]) := by
  rw [done, run_of_done h becomes_never hne hboth ht rfl]
  rfl

theorem done_of_never (h : e.Tells start C D) (hseen : (Ending.mk C D).seen? start = none) :
    done start e = none := by
  rw [done, run_of_never h becomes_never hseen]
  rfl

end Race

/-! ## Scopes on a timeline -/

namespace Timeline

/-- A jump passes the ticks up to its end. -/
theorem tick_jump (l : Timeline) {t : Nat} (ht : l.tick ≤ t) :
    Timer.passed (l.forest.now + Duration.ofMillis (t - l.tick)) = t := by
  have hpassed := Timer.passed_after l.forest.now (t - l.tick)
  rw [Timer.after, ← Duration.ofMillis] at hpassed
  rw [hpassed]
  unfold tick at ht ⊢
  omega

/-- Whether canceling a scope cancels another one. -/
def hits (canceled s : Scope) : Bool := canceled.lineage.take 1 |>.any (· ∈ s.lineage)

/-- Canceling scopes cancels what they hit. -/
theorem isCanceled_foldl_cancel (due : List (Nat × Scope)) (f : Forest) (s : Scope) :
    (due.foldl (fun f c => f.cancel c.2) f).isCanceled s =
      (f.isCanceled s || due.any fun c => hits c.2 s) := by
  induction due generalizing f with
  | nil => simp
  | cons c due ih =>
    have hstep : (f.cancel c.2).isCanceled s = (f.isCanceled s || hits c.2 s) := by
      rw [Bool.eq_iff_iff]
      simp only [Forest.isCanceled, Forest.cancel, hits, List.any_eq_true, Bool.or_eq_true,
        List.mem_append, decide_eq_true_iff]
      constructor
      · rintro ⟨token, hmem, hhit | hcanceled⟩
        · exact .inr ⟨token, hhit, hmem⟩
        · exact .inl ⟨token, hmem, hcanceled⟩
      · rintro (⟨token, hmem, hcanceled⟩ | ⟨token, hhit, hmem⟩)
        · exact ⟨token, hmem, .inr hcanceled⟩
        · exact ⟨token, hmem, .inl hhit⟩
    rw [List.foldl_cons, ih, hstep, List.any_cons, Bool.or_assoc]

/-- The least of some ticks has come exactly if one of them has. -/
theorem reached_min? (ticks : List Nat) (t : Nat) :
    Ending.reached ticks.min? t = ticks.any (· ≤ t) := by
  cases hmin : ticks.min? with
  | none =>
    rw [List.min?_eq_none_iff.mp hmin]
    rfl
  | some m =>
    obtain ⟨hmem, hle⟩ := List.min?_eq_some_iff.mp hmin
    rw [Bool.eq_iff_iff, Ending.reached_some, decide_eq_true_iff, List.any_eq_true]
    constructor
    · exact fun h => ⟨m, hmem, decide_eq_true h⟩
    · rintro ⟨k, hk, hkt⟩
      exact Nat.le_trans (hle k hk) (of_decide_eq_true hkt)

/-- Time that passes cancels nothing. -/
theorem isCanceled_pass (f : Forest) (length : Duration) (s : Scope) :
    (f.apply (.pass length)).isCanceled s = f.isCanceled s := rfl

/-- From now on, a scope is canceled at the ticks that its ending tells. -/
theorem isCanceled_jump (l : Timeline) (s : Scope) {t : Nat} (ht : l.tick ≤ t) :
    (l.jump t).forest.isCanceled s = Ending.reached (l.ending s).canceled t := by
  have htick : ∀ agenda,
      tick ⟨l.forest.apply (.pass (Duration.ofMillis (t - l.tick))), agenda⟩ = t :=
    fun _ => tick_jump l ht
  have hjump : (l.jump t).forest.isCanceled s =
      (l.forest.isCanceled s || (l.agenda.filter (·.1 ≤ t)).any fun c => hits c.2 s) := by
    rw [jump, pass, settle]
    simp only [List.partition_eq_filter_filter, htick]
    rw [← isCanceled_pass l.forest (Duration.ofMillis (t - l.tick)) s]
    exact isCanceled_foldl_cancel _ _ s
  have hcanceled : (l.ending s).canceled =
      ((if l.forest.isCanceled s then some l.tick else none) <|>
        (l.agenda.filterMap fun c => if hits c.2 s then some c.1 else none).min?) := rfl
  rw [hjump, hcanceled]
  cases l.forest.isCanceled s with
  | true => simpa using ht
  | false =>
    show _ = Ending.reached (List.min? _) t
    rw [Bool.false_or, reached_min?, Bool.eq_iff_iff]
    simp only [List.any_eq_true, List.mem_filter, List.mem_filterMap, decide_eq_true_iff,
      Option.ite_none_right_eq_some, Option.some.injEq]
    constructor
    · rintro ⟨c, ⟨hc, hct⟩, hhit⟩
      exact ⟨c.1, ⟨c, hc, hhit, rfl⟩, hct⟩
    · rintro ⟨_, ⟨c, hc, hhit, rfl⟩, hct⟩
      exact ⟨c, ⟨hc, hct⟩, hhit⟩

/-- What is known of when a scope is canceled, and its deadline, tell when it ends. -/
theorem ending_tells (l : Timeline) (s : Scope) {start : Nat} {C D : Option Nat}
    (hnow : l.forest.now = Timer.after 0 start)
    (hC : ∀ t, start ≤ t → (l.jump t).forest.isCanceled s = Ending.reached C t)
    (hD : s.deadline = D.map (Timer.after 0)) : (l.ending s).Tells start C D where
  canceled t ht := by
    have htick : l.tick = start := by
      rw [tick, hnow, Timer.passed_after]
      exact Nat.zero_add start
    rw [← isCanceled_jump l s (htick ▸ ht), hC t ht]
  deadline t ht := by
    have hdeadline : (l.ending s).deadline = s.deadline.map Timer.tick := rfl
    rw [hdeadline, hD]
    cases D with
    | none => rfl
    | some d =>
      show Ending.reached (some (Timer.tick (Timer.after 0 d))) t = _
      rw [Bool.eq_iff_iff, Ending.reached_some, Ending.reached_some, decide_eq_true_iff,
        decide_eq_true_iff, Timer.tick_le_iff]
      simp only [Timer.after, Duration.perMilli]
      omega

/-- A race on a grid of ticks. Where the work becomes ready by the time the scope is done, the race
comes to its value at the tick at which it does; else to the reason for which the scope is done, at
the tick at which it is: the first of its cancellation and its deadline, or the start if that has
come before. If neither ever comes, so does the race to nothing. Waiting for the scope ends at the
same tick with the same reason. -/
theorem outcome_of_race {α : Type} (l : Timeline) (s : Scope) {start : Nat} {C D F : Option Nat}
    {ticks : List Nat} {ready : Nat → Option α} (hnow : l.forest.now = Timer.after 0 start)
    (hC : ∀ t, start ≤ t → (l.jump t).forest.isCanceled s = Ending.reached C t)
    (hD : s.deadline = D.map (Timer.after 0)) (hF : Race.Becomes start ticks ready F)
    (hne : ∀ t, ¬ (C = some t ∧ D = some t))
    (hboth : ¬ (Ending.reached C start = true ∧ Ending.reached D start = true)) :
    let T : Option Nat := (Ending.mk C D).first?.map (max start)
    let reason : DoneReason := (Ending.mk C D).reason
    (∀ f, F = some f → (∀ t, T = some t → f ≤ t) → ∃ value, ready f = some value ∧
      Race.run start ticks ready (l.ending s) = some (f, [.ok value])) ∧
    (∀ t, T = some t → (∀ f, F = some f → t < f) →
      Race.run start ticks ready (l.ending s) = some (t, [.error reason])) ∧
    (F = none → T = none → Race.run start ticks ready (l.ending s) = none) ∧
    (∀ t, T = some t → Race.done start (l.ending s) = some (t, [reason])) ∧
    (T = none → Race.done start (l.ending s) = none) := by
  intro T reason
  have htells := ending_tells l s hnow hC hD
  refine ⟨fun f hf hle => ?_, fun t ht hlt => ?_, fun hf ht => ?_, fun t ht => ?_, fun ht => ?_⟩
  · exact Race.run_of_ready htells hF hf hle
  · refine Race.run_of_done htells hF hne hboth ht ?_
    cases F with
    | none => rfl
    | some f => simpa using hlt f rfl
  · exact Race.run_of_never htells (hf ▸ hF) ht
  · exact Race.done_of_seen htells hne hboth ht
  · exact Race.done_of_never htells ht

/-- A scope whose parent is canceled at tick 2, before its own deadline: work that is ready at that
tick counts, work that is ready later does not. -/
theorem outcome_of_race_at_once :
    let parent : Scope := ⟨[0], none⟩
    let child : Scope := ⟨[1, 0], some (Timer.after 0 4)⟩
    let l : Timeline := ⟨⟨Timer.after 0 1, 2, [], [parent, child]⟩, [(2, parent)]⟩
    Race.ofMoment 1 (some 2) "value" (l.ending child) = some (2, [.ok "value"]) ∧
      Race.ofMoment 1 (some 3) "value" (l.ending child) = some (2, [.error .canceled]) := by
  intro parent child l
  have hC : ∀ t, 1 ≤ t → (l.jump t).forest.isCanceled child = Ending.reached (some 2) t := by
    intro t ht
    have htick : l.tick = 1 := by decide
    have hcanceled : (l.ending child).canceled = some 2 := rfl
    rw [isCanceled_jump l child (htick ▸ ht), hcanceled]
  have hD : child.deadline = (some 4).map (Timer.after 0) := rfl
  have hne : ∀ t, ¬ (some 2 = some t ∧ some 4 = some t) := by
    rintro t ⟨h2, h4⟩
    cases h2.trans h4.symm
  have hrace := fun k (hk : 1 ≤ k) =>
    outcome_of_race l child rfl hC hD (Race.becomes_readyFrom hk "value") hne (by decide)
  constructor
  · obtain ⟨value, hvalue, hrun⟩ := (hrace 2 (by omega)).1 2 rfl (by
      rintro t ⟨⟩
      decide)
    cases hvalue
    exact hrun
  · exact (hrace 3 (by omega)).2.1 2 rfl (by
      rintro f ⟨⟩
      decide)

end Timeline

end NodeScrape
