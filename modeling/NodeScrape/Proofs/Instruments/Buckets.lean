import NodeScrape.Proofs.Binary64.Order
import NodeScrape.Proofs.Instruments.Faithful

/-!
# What a histogram tells of its latencies

A histogram counts every latency in one bucket only, and tells for each bound how many latencies fit
it or a bound before it. A latency is never undefined, so all of them fit the infinite bound.
-/

namespace NodeScrape

/-! ## Latencies in seconds -/

namespace Duration

/-- A latency in seconds fits the infinite bound. -/
theorem toSeconds_le_infinity (d : Duration) : (toSeconds d).le (.infinity false) = true :=
  Binary64.add_le_infinity ..

variable {d d' : Duration}

/-- With no more whole seconds and no more nanoseconds beyond them, it is no more in seconds. -/
theorem toSeconds_le (hseconds : seconds d ≤ seconds d') (hsubsecond : subsecond d ≤ subsecond d') :
    (toSeconds d).le (toSeconds d') = true :=
  Binary64.add_le_add (Nat.mul_le_mul_right _ hseconds) (Nat.mul_le_mul_right _ hsubsecond)

/-- Within one second the order is kept. -/
theorem toSeconds_le_of_le (h : d ≤ d') (hseconds : seconds d' ≤ seconds d) :
    (toSeconds d).le (toSeconds d') = true := by
  have hsame : seconds d = seconds d' := Nat.le_antisymm (Nat.div_le_div_right h) hseconds
  refine toSeconds_le hsame.le ?_
  have hd : perSecond * seconds d + subsecond d = d := Nat.div_add_mod d perSecond
  have hd' : perSecond * seconds d' + subsecond d' = d' := Nat.div_add_mod d' perSecond
  rw [hsame] at hd
  exact Nat.le_of_add_le_add_left (hd.trans_le (h.trans hd'.ge))

theorem seconds_ofParts {s n : Nat} (hn : n < perSecond) : seconds (ofParts s n) = s := by
  simp only [seconds, ofParts, perSecond] at hn ⊢
  omega

theorem subsecond_ofParts {s n : Nat} (hn : n < perSecond) : subsecond (ofParts s n) = n := by
  simp only [subsecond, ofParts, perSecond] at hn ⊢
  omega

/-- The start of a later second is no less. -/
theorem toSeconds_ofParts_le {s : Nat} (hs : s ≤ seconds d) :
    (toSeconds (ofParts s 0)).le (toSeconds d) = true := by
  refine toSeconds_le ?_ ?_
  · rwa [seconds_ofParts (by decide)]
  · rw [subsecond_ofParts (by decide)]
    exact Nat.zero_le _

/-- The end of an earlier second is no more. -/
theorem le_toSeconds_ofParts {s : Nat} (hs : seconds d ≤ s) :
    (toSeconds d).le (toSeconds (ofParts s (perSecond - 1))) = true := by
  refine toSeconds_le ?_ ?_
  · rwa [seconds_ofParts (by decide)]
  · rw [subsecond_ofParts (by decide)]
    exact Nat.le_pred_of_lt (Nat.mod_lt d (by decide))

end Duration

namespace LatencyHistogram

/-- The bound of so many thousandths of a second. -/
def boundOf (millis : Nat) : Binary64 := .ofDecimal false millis (-3)

/-- A bound is decided at four latencies: the last one that fits it and the next one, the end of the
second before and the start of the second after. -/
theorem bound_ends : ∀ millis ∈ boundMillis,
    (Duration.toSeconds (.ofMillis millis)).le (boundOf millis) = true ∧
    (Duration.toSeconds (.ofMillis millis + 1)).le (boundOf millis) = false ∧
    (Duration.seconds (.ofMillis millis) = 0 ∨
      (Duration.toSeconds (.ofParts (Duration.seconds (.ofMillis millis) - 1)
        (Duration.perSecond - 1))).le (boundOf millis) = true) ∧
    (Duration.toSeconds (.ofParts (Duration.seconds (.ofMillis millis) + 1) 0)).le
      (boundOf millis) = false := by
  decide +kernel

/-- No rounding moves a latency across a bound. -/
theorem toSeconds_le_boundOf {millis : Nat} (hmillis : millis ∈ boundMillis) (d : Duration) :
    (Duration.toSeconds d).le (boundOf millis) = true ↔ d ≤ Duration.ofMillis millis := by
  obtain ⟨hlast, hnext, hbefore, hafter⟩ := bound_ends millis hmillis
  generalize Duration.ofMillis millis = e at hlast hnext hbefore hafter ⊢
  constructor
  · intro hle
    by_contra hnot
    have hlater : e + 1 ≤ d := Nat.lt_of_not_le hnot
    rcases Nat.lt_or_ge (Duration.seconds e) (Duration.seconds d) with hseconds | hseconds
    · rw [Binary64.le_trans (Duration.toSeconds_ofParts_le hseconds) hle] at hafter
      cases hafter
    · have hsame : Duration.seconds d ≤ Duration.seconds (e + 1) :=
        hseconds.trans (Nat.div_le_div_right (Nat.le_succ e))
      rw [Binary64.le_trans (Duration.toSeconds_le_of_le hlater hsame) hle] at hnext
      cases hnext
  · intro hle
    rcases Nat.lt_or_ge (Duration.seconds d) (Duration.seconds e) with hseconds | hseconds
    · exact Binary64.le_trans (Duration.le_toSeconds_ofParts (Nat.le_pred_of_lt hseconds))
        (hbefore.resolve_left (Nat.ne_zero_of_lt hseconds))
    · exact Binary64.le_trans (Duration.toSeconds_le_of_le hle hseconds) hlast

/-- How many latencies fit one of the first bounds. -/
def fitting (latencies : List Duration) (k : Nat) : Nat :=
  latencies.countP fun d => (bounds.take k).any fun b => (Duration.toSeconds d).le b

/-- The histogram that has observed latencies, in their order. -/
def ofLatencies (latencies : List Duration) : LatencyHistogram :=
  latencies.foldl (fun h d => h.observe (Duration.toSeconds d)) empty

variable {latencies latencies' : List Duration} {j k : Nat}

/-- A bucket is told with all that the buckets up to it have counted. -/
theorem cumulate_eq (before : Nat) (buckets : List Bucket) :
    cumulate before buckets = buckets.mapIdx fun k b =>
      (b.bound, before + ((buckets.take (k + 1)).map (·.count)).sum) := by
  induction buckets generalizing before with
  | nil => rfl
  | cons b rest ih =>
    rw [cumulate, ih, List.mapIdx_cons]
    simp [Nat.add_assoc]

/-- A value counts once among the buckets up to one if it fits one of them. -/
theorem sum_take_place (value : Binary64) (buckets : List Bucket) (k : Nat) :
    (((place value buckets).take k).map (·.count)).sum =
      ((buckets.take k).map (·.count)).sum +
        if (buckets.take k).any fun b => value.le b.bound then 1 else 0 := by
  induction buckets generalizing k with
  | nil => simp [place]
  | cons b rest ih =>
    cases k with
    | zero => simp
    | succ k =>
      rw [place]
      by_cases hfits : value.le b.bound = true
      · rw [if_pos hfits]
        simp [hfits, Nat.add_right_comm]
      · rw [if_neg hfits]
        have hrest := ih k
        simp only [List.take_succ_cons, List.map_cons, List.sum_cons, List.any_cons, hfits,
          Bool.false_or, hrest, Nat.add_assoc]

theorem ofLatencies_concat (latencies : List Duration) (d : Duration) :
    ofLatencies (latencies ++ [d]) = (ofLatencies latencies).observe (Duration.toSeconds d) :=
  List.foldl_concat ..

theorem hasBounds_ofLatencies (latencies : List Duration) : (ofLatencies latencies).HasBounds := by
  induction latencies using List.reverseRecOn with
  | nil => exact hasBounds_empty
  | append_singleton latencies d ih =>
    rw [ofLatencies_concat]
    exact ih.observe _

/-- Every latency counts. -/
theorem count_ofLatencies (latencies : List Duration) :
    (ofLatencies latencies).count = latencies.length := by
  induction latencies using List.reverseRecOn with
  | nil => rfl
  | append_singleton latencies d ih =>
    rw [ofLatencies_concat, List.length_append, ← ih]
    rfl

theorem sum_ofLatencies (latencies : List Duration) :
    (ofLatencies latencies).sum =
      latencies.foldl (fun sum d => sum.add (Duration.toSeconds d)) Binary64.zero := by
  induction latencies using List.reverseRecOn with
  | nil => rfl
  | append_singleton latencies d ih =>
    rw [ofLatencies_concat, List.foldl_concat, ← ih]
    rfl

/-- The buckets up to one have counted the latencies that fit a bound of theirs. -/
theorem sum_take_ofLatencies (latencies : List Duration) (k : Nat) :
    (((ofLatencies latencies).buckets.take k).map (·.count)).sum = fitting latencies k := by
  induction latencies using List.reverseRecOn with
  | nil =>
    have hzero : (bounds.map fun b => ({ bound := b } : Bucket)).map (·.count) =
        bounds.map fun _ => 0 := by
      rw [List.map_map]
      rfl
    have hbuckets : (ofLatencies []).buckets = bounds.map fun b => { bound := b } := rfl
    rw [List.map_take, hbuckets, hzero, ← List.map_take]
    simp [fitting]
  | append_singleton latencies d ih =>
    have hany : (((ofLatencies latencies).buckets.take k).any fun b =>
        (Duration.toSeconds d).le b.bound) =
          (bounds.take k).any fun b => (Duration.toSeconds d).le b := by
      rw [← hasBounds_ofLatencies latencies, ← List.map_take, List.any_map]
      rfl
    rw [ofLatencies_concat, observe, sum_take_place, ih, hany, fitting, fitting,
      List.countP_append]
    simp [List.countP_cons]

/-- For each bound, the histogram tells how many latencies fit it or a bound before it. -/
theorem cumulative_ofLatencies (latencies : List Duration) :
    (ofLatencies latencies).cumulative =
      bounds.mapIdx fun k b => (b, fitting latencies (k + 1)) := by
  rw [cumulative, cumulate_eq, ← hasBounds_ofLatencies latencies]
  refine List.ext_getElem? fun k => ?_
  rw [List.getElem?_mapIdx, List.getElem?_mapIdx, List.getElem?_map, Option.map_map, Nat.zero_add,
    sum_take_ofLatencies]
  rfl

/-- The counts never decrease along the bounds. -/
theorem fitting_mono (latencies : List Duration) (hjk : j ≤ k) :
    fitting latencies j ≤ fitting latencies k := by
  refine List.countP_mono_left fun d _ hfits => ?_
  obtain ⟨b, hb, hle⟩ := List.any_eq_true.mp hfits
  exact List.any_eq_true.mpr ⟨b, List.take_subset_take_left _ hjk hb, hle⟩

/-- All latencies fit the last bound, which is infinite. -/
theorem fitting_length (latencies : List Duration) :
    fitting latencies bounds.length = latencies.length := by
  rw [fitting, List.countP_eq_length]
  intro d _
  rw [List.take_length, List.any_eq_true]
  exact ⟨.infinity false, List.mem_append_right _ List.mem_cons_self,
    Duration.toSeconds_le_infinity d⟩

/-- For a finite bound, the latencies that fit it or a bound before it are those of at most that
many thousandths of a second. -/
theorem fitting_eq {millis : Nat} (hk : boundMillis[k]? = some millis) (latencies : List Duration) :
    fitting latencies (k + 1) = latencies.countP fun d => d ≤ Duration.ofMillis millis := by
  have hlt : k < boundMillis.length := (List.getElem?_eq_some_iff.mp hk).1
  have hbounds : bounds.take (k + 1) = (boundMillis.take (k + 1)).map boundOf := by
    have hlength : k + 1 ≤ (boundMillis.map boundOf).length := by rwa [List.length_map]
    rw [List.map_take]
    exact List.take_append_of_le_length hlength
  have hrising : ∀ j < boundMillis.length, ∀ m ∈ boundMillis.take (j + 1),
      ∀ last ∈ boundMillis[j]?, m ≤ last := by decide
  refine List.countP_congr fun d _ => ?_
  rw [hbounds, List.any_eq_true, decide_eq_true_iff]
  constructor
  · rintro ⟨_, hbound, hle⟩
    obtain ⟨m, hm, rfl⟩ := List.mem_map.mp hbound
    have hfits := (toSeconds_le_boundOf (List.mem_of_mem_take hm) d).mp hle
    have hlast : Duration.ofMillis m ≤ Duration.ofMillis millis :=
      Nat.mul_le_mul_right Duration.perMilli (hrising k hlt m hm millis hk)
    exact Nat.le_trans hfits hlast
  · intro hfits
    have hmem : millis ∈ boundMillis.take (k + 1) :=
      List.mem_iff_getElem?.mpr ⟨k, by rwa [List.getElem?_take_of_lt (Nat.lt_succ_self k)]⟩
    exact ⟨_, List.mem_map.mpr ⟨millis, hmem, rfl⟩,
      (toSeconds_le_boundOf (List.mem_of_mem_take hmem) d).mpr hfits⟩

/-- In which order the latencies came does not matter to the counts. -/
theorem fitting_perm (h : latencies.Perm latencies') (k : Nat) :
    fitting latencies k = fitting latencies' k :=
  h.countP_eq _

end LatencyHistogram

end NodeScrape
