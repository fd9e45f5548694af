import Mathlib.Data.List.DropRight
import Mathlib.Data.List.Dedup
import NodeScrape.Proofs.Instruments.Buckets
import NodeScrape.Proofs.Instruments.History
import NodeScrape.Service.Response

/-!
# Instruments and their history

What the instruments tell is what was noted since the last reset: of every node that was observed
its latencies, of every outcome of cycles how often it was counted, of every node that was marked
its last mark, and nothing else. Nodes do not disturb each other, so but for the marks of one node
the order of updates between two resets shows in no line, if the sums are left aside.
-/

namespace NodeScrape

/-! ## Series after changes -/

namespace Series

variable {κ α β : Type} [DecidableEq κ]

/-- What a list of keyed changes has for a key, in its order. -/
def under (changes : List (κ × β)) (key : κ) : List β :=
  (changes.filter (·.1 = key)).map (·.2)

/-- The series that is left by keyed changes, from none. -/
def ofChanges (new : α) (f : β → α → α) (changes : List (κ × β)) : Series κ α :=
  changes.foldl (fun s change => s.update change.1 new (f change.2)) {}

variable {keys : List κ} {key : κ} {new : α} {f : β → α → α} {changes changes' : List (κ × β)}

theorem under_concat (changes : List (κ × β)) (change : κ × β) (key : κ) :
    under (changes ++ [change]) key =
      under changes key ++ if key = change.1 then [change.2] else [] := by
  by_cases hkey : key = change.1
  · simp [under, List.filter_append, hkey]
  · simp [under, List.filter_append, hkey, Ne.symm hkey]

theorem under_eq_nil (h : key ∉ changes.map (·.1)) : under changes key = [] := by
  rw [under, List.map_eq_nil_iff, List.filter_eq_nil_iff]
  intro change hchange heq
  exact h (List.mem_map.mpr ⟨change, hchange, of_decide_eq_true heq⟩)

theorem under_perm (h : changes.Perm changes') (key : κ) :
    (under changes key).Perm (under changes' key) :=
  (h.filter _).map _

/-- A change among entries without repeated keys is one at its own key, which stands last if it is
new. -/
theorem updateEntries_map (hkeys : keys.Nodup) (v : κ → α) (hnew : key ∉ keys → v key = new)
    (g : α → α) :
    updateEntries key new g (keys.map fun k => (k, v k)) =
      (if key ∈ keys then keys else keys ++ [key]).map fun k =>
        (k, if k = key then g (v k) else v k) := by
  induction keys with
  | nil => simp [updateEntries, hnew]
  | cons first rest ih =>
    obtain ⟨hfirst, hrest⟩ := List.nodup_cons.mp hkeys
    rw [List.map_cons, updateEntries]
    by_cases heq : first = key
    · subst heq
      have hsame : (rest.map fun k => (k, v k)) =
          rest.map fun k => (k, if k = first then g (v k) else v k) := by
        refine List.map_congr_left fun k hk => ?_
        rw [if_neg (ne_of_mem_of_not_mem hk hfirst)]
      rw [if_pos rfl, if_pos List.mem_cons_self, List.map_cons, if_pos rfl, hsame]
    · have hmem : key ∈ first :: rest ↔ key ∈ rest := by simp [Ne.symm heq]
      rw [if_neg heq, ih hrest fun hkey => hnew (mt hmem.mp hkey)]
      by_cases hkey : key ∈ rest
      · rw [if_pos hkey, if_pos (hmem.mpr hkey), List.map_cons, if_neg heq]
      · rw [if_neg hkey, if_neg (mt hmem.mp hkey), List.cons_append, List.map_cons, if_neg heq]

/-- After changes every changed key has one entry, with all that its own changes make of `new`. -/
theorem exists_entries_ofChanges (new : α) (f : β → α → α) (changes : List (κ × β)) :
    ∃ keys : List κ, keys.Nodup ∧ (∀ key, key ∈ keys ↔ key ∈ changes.map (·.1)) ∧
      (ofChanges new f changes).entries =
        keys.map fun key => (key, (under changes key).foldl (fun a b => f b a) new) := by
  induction changes using List.reverseRecOn with
  | nil => exact ⟨[], List.nodup_nil, by simp, rfl⟩
  | append_singleton changes change ih =>
    obtain ⟨keys, hnodup, hmem, hentries⟩ := ih
    have hnew : change.1 ∉ keys →
        (under changes change.1).foldl (fun a b => f b a) new = new := by
      intro hkey
      rw [under_eq_nil (mt (hmem _).mpr hkey), List.foldl_nil]
    have hvalue (key : κ) : (under (changes ++ [change]) key).foldl (fun a b => f b a) new =
        if key = change.1 then f change.2 ((under changes key).foldl (fun a b => f b a) new)
        else (under changes key).foldl (fun a b => f b a) new := by
      rw [under_concat]
      split
      · rw [List.foldl_concat]
      · rw [List.append_nil]
    refine ⟨if change.1 ∈ keys then keys else keys ++ [change.1], ?_, ?_, ?_⟩
    · split
      · exact hnodup
      next hkey => exact List.nodup_append.mpr ⟨hnodup, List.nodup_singleton _, by
          rintro key hk _ hlast rfl
          exact hkey (List.mem_singleton.mp hlast ▸ hk)⟩
    · intro key
      rw [List.map_append, List.mem_append, List.map_singleton, List.mem_singleton, ← hmem]
      split
      next hkey => exact ⟨.inl, fun h => h.elim id fun heq => heq ▸ hkey⟩
      next => rw [List.mem_append, List.mem_singleton]
    · rw [ofChanges, List.foldl_concat, ← ofChanges, update, hentries,
        updateEntries_map hnodup _ hnew]
      simp only [hvalue]

/-- In whichever order the entries after changes stand, there is one for each changed key. -/
theorem exists_keys_of_perm {s : Series κ α}
    (h : s.entries.Perm (ofChanges new f changes).entries) :
    ∃ keys : List κ, keys.Perm (changes.map (·.1)).dedup ∧
      s.entries = keys.map fun key => (key, (under changes key).foldl (fun a b => f b a) new) := by
  obtain ⟨keys, hnodup, hmem, hentries⟩ := exists_entries_ofChanges new f changes
  rw [hentries] at h
  have hkeys : (s.entries.map (·.1)).Perm keys := by
    have hmap := h.map (·.1)
    rwa [List.map_map, List.map_id''] at hmap
    exact fun _ => rfl
  have hdedup : keys.Perm (changes.map (·.1)).dedup :=
    (List.perm_ext_iff_of_nodup hnodup (List.nodup_dedup _)).mpr fun key => by
      rw [hmem, List.mem_dedup]
  have hentry : ∀ e ∈ s.entries,
      (e.1, (under changes e.1).foldl (fun a b => f b a) new) = e := by
    intro e he
    obtain ⟨key, -, rfl⟩ := List.mem_map.mp (h.mem_iff.mp he)
    rfl
  refine ⟨s.entries.map (·.1), hkeys.trans hdedup, ?_⟩
  rw [List.map_map]
  exact ((List.map_congr_left hentry).trans (List.map_id _)).symm

end Series

namespace Instruments

open Exposition

/-! ## Histories -/

/-- The node that an update observes, and the latency. -/
def Update.observation? : Update → Option (String × Duration)
  | .observe node latency => some (node, latency)
  | _ => none

/-- What came after the last reset. -/
def sinceReset (updates : List Update) : List Update := updates.rtakeWhile (· ≠ .reset)

/-- The latencies of a node, in their order. -/
def latenciesOf (updates : List Update) (node : String) : List Duration :=
  Series.under (updates.filterMap Update.observation?) node

/-- How many cycles ended so. -/
def cyclesOf (updates : List Update) (success : Bool) : Nat :=
  (updates.filterMap Update.counted?).count success

/-- The marks of a node, in their order. -/
def marksOf (updates : List Update) (node : String) : List WallTime :=
  Series.under (updates.filterMap Update.marked?) node

variable {updates updates' part part' rest : List Update} {i j : Instruments}

theorem sinceReset_concat_reset (updates : List Update) :
    sinceReset (updates ++ [.reset]) = [] :=
  List.rtakeWhile_concat_neg _ _ _ (by decide)

theorem sinceReset_concat {u : Update} (hu : u ≠ .reset) (updates : List Update) :
    sinceReset (updates ++ [u]) = sinceReset updates ++ [u] :=
  List.rtakeWhile_concat_pos _ _ _ (decide_eq_true hu)

theorem reset_not_mem_sinceReset (updates : List Update) : .reset ∉ sinceReset updates := by
  intro h
  have hne := List.mem_rtakeWhile_imp h
  exact of_decide_eq_true hne rfl

theorem sinceReset_of_not_mem (h : .reset ∉ updates) : sinceReset updates = updates := by
  refine List.rtakeWhile_eq_self_iff.mpr fun u hu => decide_eq_true ?_
  rintro rfl
  exact h hu

/-- What came before a reset has no part in what comes after it. -/
theorem sinceReset_append_reset (part rest : List Update) :
    sinceReset (part ++ .reset :: rest) = sinceReset rest := by
  induction rest using List.reverseRecOn with
  | nil => exact sinceReset_concat_reset part
  | append_singleton rest u ih =>
    have hsplit : part ++ .reset :: (rest ++ [u]) = (part ++ .reset :: rest) ++ [u] := by simp
    by_cases hu : u = .reset
    · rw [hsplit, hu, sinceReset_concat_reset, sinceReset_concat_reset]
    · rw [hsplit, sinceReset_concat hu, sinceReset_concat hu, ih]

/-- Updates leave no more of new instruments than what came after the last reset does. -/
theorem foldl_sinceReset (updates : List Update) :
    (sinceReset updates).foldl apply ({} : Instruments) = updates.foldl apply {} := by
  induction updates using List.reverseRecOn with
  | nil => rfl
  | append_singleton updates u ih =>
    rw [List.foldl_concat]
    by_cases hu : u = .reset
    · rw [hu, sinceReset_concat_reset]
      rfl
    · rw [sinceReset_concat hu, List.foldl_concat, ih]

/-- Without a reset, each series is changed by the updates that name it and by no other. -/
theorem foldl_apply_eq (h : .reset ∉ updates) :
    updates.foldl apply ({} : Instruments) =
      { latencies := Series.ofChanges LatencyHistogram.empty
          (fun d h => h.observe (Duration.toSeconds d)) (updates.filterMap Update.observation?)
        scrapes := Series.ofChanges 0 (fun _ n => n + 1)
          ((updates.filterMap Update.counted?).map fun success => (success, ()))
        lastScrape := Series.ofChanges Binary64.zero (fun time _ => WallTime.unixSeconds time)
          (updates.filterMap Update.marked?) } := by
  induction updates using List.reverseRecOn with
  | nil => rfl
  | append_singleton updates u ih =>
    obtain ⟨hupdates, hu⟩ := not_or.mp (mt List.mem_append.mpr h)
    rw [List.foldl_concat, ih hupdates]
    simp only [List.filterMap_append, List.map_append, Series.ofChanges, List.foldl_append]
    cases u with
    | reset => exact absurd List.mem_cons_self hu
    | _ => rfl

theorem length_under_counted (updates : List Update) (success : Bool) :
    (Series.under ((updates.filterMap Update.counted?).map fun s => (s, ())) success).length =
      cyclesOf updates success := by
  rw [Series.under, cyclesOf, List.length_map, List.filter_map, List.length_map,
    ← List.countP_eq_length_filter, List.count_eq_countP]
  exact List.countP_congr fun s _ => by simp

/-! ## What a history tells -/

/-- What is told of a node's latencies: their sum, how many there are, and for each bound how many
fit it or a bound before it. -/
def latencyHistory (updates : List Update) (node : String) : List Sample :=
  [⟨latencyName ++ "_sum", [("node", node)],
      .value ((latenciesOf updates node).foldl (fun sum d => sum.add (Duration.toSeconds d))
        Binary64.zero)⟩,
    ⟨latencyName ++ "_count", [("node", node)], .count (latenciesOf updates node).length⟩] ++
  LatencyHistogram.bounds.mapIdx fun k bound =>
    ⟨latencyName ++ "_bucket", [("le", boundText bound), ("node", node)],
      .count (LatencyHistogram.fitting (latenciesOf updates node) (k + 1))⟩

/-- What is told of the cycles that ended so. -/
def cycleHistory (updates : List Update) (success : Bool) : Sample :=
  ⟨scrapesName ++ "_total", [("success", if success then "true" else "false")],
    .count (cyclesOf updates success)⟩

/-- What is told of a node's marks: the last one. -/
def markHistory (updates : List Update) (node : String) : Sample :=
  ⟨lastScrapeName, [("source", node)],
    .value ((marksOf updates node).getLast?.elim Binary64.zero WallTime.unixSeconds)⟩

/-- The three families, with what a history tells of nodes, of outcomes of cycles and of sources. -/
def familiesOf (updates : List Update) (nodes : List String) (successes : List Bool)
    (sources : List String) : List Family := [
  ⟨"metrics_server_kubelet_summary_request_duration_seconds",
    "The Kubelet summary request latencies in seconds.", .histogram,
    nodes.flatMap (latencyHistory updates)⟩,
  ⟨"metrics_server_kubelet_summary_scrapes",
    "Total number of attempted Summary API scrapes done by Metrics Server", .counter,
    successes.map (cycleHistory updates)⟩,
  ⟨"metrics_server_scraper_last_time_seconds",
    "Last time metrics-server performed a scrape since unix epoch in seconds.", .gauge,
    sources.map (markHistory updates)⟩]

theorem latencySamples_ofLatencies (updates : List Update) (node : String) :
    latencySamples node (.ofLatencies (latenciesOf updates node)) =
      latencyHistory updates node := by
  rw [latencySamples, LatencyHistogram.cumulative_ofLatencies, LatencyHistogram.sum_ofLatencies,
    LatencyHistogram.count_ofLatencies]
  refine congrArg (List.append _) (List.ext_getElem? fun k => ?_)
  rw [List.getElem?_map, List.getElem?_mapIdx, List.getElem?_mapIdx, Option.map_map]
  rfl

theorem foldl_last (marks : List WallTime) :
    marks.foldl (fun _ time => WallTime.unixSeconds time) Binary64.zero =
      marks.getLast?.elim Binary64.zero WallTime.unixSeconds := by
  cases marks using List.reverseRecOn with
  | nil => rfl
  | append_singleton marks time => rw [List.foldl_concat, List.getLast?_concat, Option.elim_some]

/-- In whichever order the series stand, they tell what came after the last reset. -/
theorem exists_families_eq (hi : i.Rearranges (updates.foldl apply {})) :
    ∃ (nodes : List String) (successes : List Bool) (sources : List String),
      nodes.Perm ((sinceReset updates).filterMap Update.observed?).dedup ∧
      successes.Perm ((sinceReset updates).filterMap Update.counted?).dedup ∧
      sources.Perm (((sinceReset updates).filterMap Update.marked?).map (·.1)).dedup ∧
      i.families = familiesOf (sinceReset updates) nodes successes sources := by
  rw [← foldl_sinceReset, foldl_apply_eq (reset_not_mem_sinceReset updates)] at hi
  generalize sinceReset updates = history at hi ⊢
  obtain ⟨nodes, hnodes, hlatencies⟩ := Series.exists_keys_of_perm hi.latencies
  obtain ⟨successes, hsuccesses, hscrapes⟩ := Series.exists_keys_of_perm hi.scrapes
  obtain ⟨sources, hsources, hlastScrape⟩ := Series.exists_keys_of_perm hi.lastScrape
  refine ⟨nodes, successes, sources, ?_, ?_, hsources, ?_⟩
  · have hkeys : (history.filterMap Update.observation?).map (·.1) =
        history.filterMap Update.observed? := by
      rw [List.map_filterMap]
      exact List.filterMap_congr fun u _ => by cases u <;> rfl
    rwa [hkeys] at hnodes
  · rwa [List.map_map, List.map_id''] at hsuccesses
    exact fun _ => rfl
  · have hlatencySamples (node : String) : latencySamples node
        ((Series.under (history.filterMap Update.observation?) node).foldl
          (fun h d => h.observe (Duration.toSeconds d)) .empty) = latencyHistory history node :=
      latencySamples_ofLatencies history node
    have hcycles (success : Bool) : scrapeSample success
        ((Series.under ((history.filterMap Update.counted?).map fun s => (s, ())) success).foldl
          (fun n _ => n + 1) 0) = cycleHistory history success := by
      rw [List.foldl_add_const, length_under_counted, Nat.zero_add, Nat.one_mul]
      rfl
    have hmarks (node : String) : lastScrapeSample node
        ((Series.under (history.filterMap Update.marked?) node).foldl
          (fun _ time => WallTime.unixSeconds time) Binary64.zero) = markHistory history node :=
      congrArg (lastScrapeSample node) (foldl_last (marksOf history node))
    rw [families, hlatencies, hscrapes, hlastScrape, List.flatMap_map, List.map_map, List.map_map]
    simp only [Function.comp_def, hlatencySamples, hcycles, hmarks]
    rfl

/-! ## Reorderings -/

/-- The same updates in another order, with the marks of each node in the same one. -/
structure Shuffles (part part' : List Update) : Prop where
  perm : part.Perm part'
  marks : ∀ node, marksOf part node = marksOf part' node

/-- The same updates in another order between the same resets, with the marks of each node in the
same one. -/
inductive Reorders : List Update → List Update → Prop
  /-- After the last reset. -/
  | last {part part' : List Update} (hreset : .reset ∉ part) (h : Shuffles part part') :
      Reorders part part'
  /-- Before another reset. -/
  | before {part part' rest rest' : List Update} (hreset : .reset ∉ part) (h : Shuffles part part')
      (hrest : Reorders rest rest') :
      Reorders (part ++ .reset :: rest) (part' ++ .reset :: rest')

theorem Reorders.shuffles_sinceReset (h : Reorders updates updates') :
    Shuffles (sinceReset updates) (sinceReset updates') := by
  induction h with
  | last hreset h =>
    rw [sinceReset_of_not_mem hreset, sinceReset_of_not_mem (mt h.perm.mem_iff.mpr hreset)]
    exact h
  | before _ _ _ ih =>
    rw [sinceReset_append_reset, sinceReset_append_reset]
    exact ih

/-- Whether a sample is a sum of latencies. -/
def isSum (s : Sample) : Bool := s.name = latencyName ++ "_sum"

/-- The lines of a family, but for those of sums. -/
def linesButSums (f : Family) : List String :=
  Family.lines { f with samples := f.samples.filter (!isSum ·) }

/-- Only the sum of latencies depends on their order. -/
theorem latencyHistory_filter (h : part.Perm part') (node : String) :
    (latencyHistory part node).filter (!isSum ·) =
      (latencyHistory part' node).filter (!isSum ·) := by
  have hlatencies : (latenciesOf part node).Perm (latenciesOf part' node) :=
    Series.under_perm (h.filterMap _) node
  have hfitting : LatencyHistogram.fitting (latenciesOf part node) =
      LatencyHistogram.fitting (latenciesOf part' node) :=
    funext (LatencyHistogram.fitting_perm hlatencies)
  have hsum (x : Binary64) (l : List Sample) :
      (⟨latencyName ++ "_sum", [("node", node)], .value x⟩ :: l).filter (!isSum ·) =
        l.filter (!isSum ·) :=
    List.filter_cons_of_neg (by simp [isSum])
  simp only [latencyHistory, hfitting, hlatencies.length_eq, List.cons_append, hsum]

/-- Families that tell histories of the same updates in another order have the same lines. -/
theorem forall_perm_linesButSums (h : Shuffles part part')
    {nodes nodes' sources sources' : List String} {successes successes' : List Bool}
    (hnodes : nodes.Perm nodes')
    (hsuccesses : successes.Perm successes') (hsources : sources.Perm sources') :
    List.Forall₂ List.Perm
      ((familiesOf part nodes successes sources).map linesButSums)
      ((familiesOf part' nodes' successes' sources').map linesButSums) := by
  have hlines {name description : String} {kind : Kind} {samples samples' : List Sample}
      (hperm : (samples.filter (!isSum ·)).Perm (samples'.filter (!isSum ·))) :
      (linesButSums ⟨name, description, kind, samples⟩).Perm
        (linesButSums ⟨name, description, kind, samples'⟩) :=
    (hperm.map _).append_left _
  have hcycles : cycleHistory part = cycleHistory part' := funext fun success => by
    rw [cycleHistory, cycleHistory, cyclesOf, (h.perm.filterMap _).count_eq success, cyclesOf]
  have hmarks : markHistory part = markHistory part' :=
    funext fun node => by rw [markHistory, markHistory, h.marks]
  refine .cons (hlines ?_) (.cons (hlines ?_) (.cons (hlines ?_) .nil))
  · rw [List.filter_flatMap, List.filter_flatMap, funext (latencyHistory_filter h.perm)]
    exact hnodes.flatMap_right _
  · rw [hcycles]
    exact (hsuccesses.map _).filter _
  · rw [hmarks]
    exact (hsources.map _).filter _

/-- The instruments tell exactly what was noted since the last reset, in whichever order their
series stand. The counts of a node's latencies rise along the bounds: for a finite bound they count
the latencies that are at most that long, to the nanosecond, and for the infinite one all of them.
Updates in another order leave the same lines but for the sums, as long as none is moved across a
reset and the marks of each node stay in their order. -/
theorem metrics_tell_history {updates : List Update} {i : Instruments}
    (hi : i.Rearranges (updates.foldl apply {})) :
    (∃ (nodes : List String) (successes : List Bool) (sources : List String),
      nodes.Perm ((sinceReset updates).filterMap Update.observed?).dedup ∧
      successes.Perm ((sinceReset updates).filterMap Update.counted?).dedup ∧
      sources.Perm (((sinceReset updates).filterMap Update.marked?).map (·.1)).dedup ∧
      i.families = [
        ⟨"metrics_server_kubelet_summary_request_duration_seconds",
          "The Kubelet summary request latencies in seconds.", .histogram,
          nodes.flatMap (latencyHistory (sinceReset updates))⟩,
        ⟨"metrics_server_kubelet_summary_scrapes",
          "Total number of attempted Summary API scrapes done by Metrics Server", .counter,
          successes.map (cycleHistory (sinceReset updates))⟩,
        ⟨"metrics_server_scraper_last_time_seconds",
          "Last time metrics-server performed a scrape since unix epoch in seconds.", .gauge,
          sources.map (markHistory (sinceReset updates))⟩]) ∧
    (Response.metrics i).body = text i.families ∧
    (∀ latencies : List Duration,
      (∀ j k, j ≤ k → LatencyHistogram.fitting latencies j ≤ LatencyHistogram.fitting latencies k) ∧
      (∀ k millis, LatencyHistogram.boundMillis[k]? = some millis →
        LatencyHistogram.fitting latencies (k + 1) =
          latencies.countP fun d => d ≤ Duration.ofMillis millis) ∧
      LatencyHistogram.bounds.getLast? = some (.infinity false) ∧
      LatencyHistogram.fitting latencies LatencyHistogram.bounds.length = latencies.length) ∧
    ∀ {updates' : List Update} {j : Instruments}, Reorders updates updates' →
      j.Rearranges (updates'.foldl apply {}) →
      List.Forall₂ List.Perm (i.families.map linesButSums) (j.families.map linesButSums) := by
  refine ⟨exists_families_eq hi, rfl, ?_, ?_⟩
  · intro latencies
    exact ⟨fun j k hjk => LatencyHistogram.fitting_mono latencies hjk,
      fun k millis hk => LatencyHistogram.fitting_eq hk latencies, List.getLast?_concat,
      LatencyHistogram.fitting_length latencies⟩
  · intro updates' j hreorders hj
    have hshuffles := hreorders.shuffles_sinceReset
    obtain ⟨nodes, successes, sources, hnodes, hsuccesses, hsources, hfamilies⟩ :=
      exists_families_eq hi
    obtain ⟨nodes', successes', sources', hnodes', hsuccesses', hsources', hfamilies'⟩ :=
      exists_families_eq hj
    rw [hfamilies, hfamilies']
    exact forall_perm_linesButSums hshuffles
      (hnodes.trans ((hshuffles.perm.filterMap _).dedup.trans hnodes'.symm))
      (hsuccesses.trans ((hshuffles.perm.filterMap _).dedup.trans hsuccesses'.symm))
      (hsources.trans (((hshuffles.perm.filterMap _).map _).dedup.trans hsources'.symm))

/-- What was noted before and after a reset, each in another order but for the two marks of a node.
Nothing is told of the node that was observed before the reset. -/
theorem metrics_tell_history_reordered :
    let before : List Update := [.observe "gone" 1, .scrape false]
    let before' : List Update := [.scrape false, .observe "gone" 1]
    let after : List Update := [.observe "a" (.ofMillis 5), .mark "b" (.ofParts 1 0),
      .observe "b" (.ofMillis 20000), .scrape true, .mark "b" (.ofParts 2 0)]
    let after' : List Update := [.mark "b" (.ofParts 1 0), .scrape true, .mark "b" (.ofParts 2 0),
      .observe "b" (.ofMillis 20000), .observe "a" (.ofMillis 5)]
    let i : Instruments := (before ++ .reset :: after).foldl apply {}
    let j : Instruments := (before' ++ .reset :: after').foldl apply {}
    i ≠ j ∧ i.Rearranges ((before ++ .reset :: after).foldl apply {}) ∧
      Reorders (before ++ .reset :: after) (before' ++ .reset :: after') ∧
      (∃ (nodes : List String) (successes : List Bool) (sources : List String),
        nodes.Perm ["a", "b"] ∧ successes.Perm [true] ∧ sources.Perm ["b"] ∧
        i.families = familiesOf after nodes successes sources) ∧
      List.Forall₂ List.Perm (i.families.map linesButSums) (j.families.map linesButSums) := by
  intro before before' after after' i j
  have hi : i.Rearranges ((before ++ .reset :: after).foldl apply {}) :=
    ⟨.refl _, .refl _, .refl _⟩
  have hj : j.Rearranges ((before' ++ .reset :: after').foldl apply {}) :=
    ⟨.refl _, .refl _, .refl _⟩
  have hreorders : Reorders (before ++ .reset :: after) (before' ++ .reset :: after') :=
    .before (by decide) ⟨by decide, fun _ => rfl⟩ (.last (by decide) ⟨by decide, fun _ => rfl⟩)
  obtain ⟨hfamilies, -, -, hlines⟩ := metrics_tell_history hi
  have hafter : sinceReset (before ++ .reset :: after) = after := by decide
  rw [hafter] at hfamilies
  exact ⟨by decide +kernel, hi, hreorders, hfamilies, hlines hreorders hj⟩

end Instruments

end NodeScrape
