import NodeScrape.Config.Validate
import NodeScrape.Proofs.Instruments.Reader
import NodeScrape.Proofs.List.Places

/-!
# What an exposition tells of the instruments

Instruments with plain names are read back from their exposition, and no two of them have the same
one. A node may have any name, and one that is not plain is not read back: it can even spell out the
sample of another node.
-/

namespace NodeScrape

namespace LatencyHistogram

variable {h : LatencyHistogram}

/-- A histogram over the bounds of latencies. -/
def HasBounds (h : LatencyHistogram) : Prop := h.buckets.map (·.bound) = bounds

theorem map_bound_place (value : Binary64) (buckets : List Bucket) :
    (place value buckets).map (·.bound) = buckets.map (·.bound) := by
  induction buckets with
  | nil => rfl
  | cons b rest ih =>
    rw [place]
    split
    · rfl
    · rw [List.map_cons, List.map_cons, ih]

theorem hasBounds_empty : empty.HasBounds := by
  rw [HasBounds, empty, List.map_map]
  exact List.map_id bounds

theorem HasBounds.observe (hh : h.HasBounds) (value : Binary64) : (h.observe value).HasBounds :=
  (map_bound_place value h.buckets).trans hh

theorem length_cumulate (before : Nat) (buckets : List Bucket) :
    (cumulate before buckets).length = buckets.length := by
  induction buckets generalizing before with
  | nil => rfl
  | cons b rest ih => rw [cumulate, List.length_cons, List.length_cons, ih]

/-- Buckets of the same bounds are told apart by their cumulative counts. -/
theorem cumulate_inj {before : Nat} {buckets buckets' : List Bucket}
    (hbounds : buckets.map (·.bound) = buckets'.map (·.bound))
    (hcounts : (cumulate before buckets).map (·.2) = (cumulate before buckets').map (·.2)) :
    buckets = buckets' := by
  induction buckets generalizing before buckets' with
  | nil => exact (List.map_eq_nil_iff.mp hbounds.symm).symm
  | cons b rest ih =>
    cases buckets' with
    | nil => cases hbounds
    | cons b' rest' =>
      obtain ⟨hbound, hbounds⟩ := List.cons.inj hbounds
      obtain ⟨hcount, hcounts⟩ := List.cons.inj hcounts
      dsimp only at hbound hcount
      have heq : b.count = b'.count := Nat.add_left_cancel hcount
      rw [heq] at hcounts
      have hrest : rest = rest' := ih hbounds hcounts
      rw [hrest, show b = b' from by cases b; cases b'; cases hbound; cases heq; rfl]

end LatencyHistogram

namespace Series

variable {κ α : Type} [DecidableEq κ]

/-- What a change keeps holds of all values after it. -/
theorem forall_updateEntries {P : α → Prop} {f : α → α} {new : α} {entries : List (κ × α)}
    (hnew : P new) (hf : ∀ a, P a → P (f a)) (hentries : ∀ e ∈ entries, P e.2) (key : κ) :
    ∀ e ∈ updateEntries key new f entries, P e.2 := by
  induction entries with
  | nil =>
    intro e he
    rw [List.mem_singleton.mp he]
    exact hf new hnew
  | cons first rest ih =>
    obtain ⟨hfirst, hrest⟩ := List.forall_mem_cons.mp hentries
    rw [updateEntries]
    split
    · exact List.forall_mem_cons.mpr ⟨hf _ hfirst, hrest⟩
    · exact List.forall_mem_cons.mpr ⟨hfirst, ih hrest⟩

/-- A change adds its key. -/
theorem mem_keys_updateEntries (key : κ) (new : α) (f : α → α) (entries : List (κ × α)) (k : κ) :
    k ∈ (updateEntries key new f entries).map (·.1) ↔ k = key ∨ k ∈ entries.map (·.1) := by
  induction entries with
  | nil => simp [updateEntries]
  | cons first rest ih =>
    rw [updateEntries]
    split
    next heq => simp [← heq]
    next => simp only [List.map_cons, List.mem_cons, ih, or_left_comm]

end Series

namespace Instruments

open Exposition

variable {i j : Instruments}

/-! ## Samples -/

/-- All samples of the instruments. -/
def samples (i : Instruments) : List Sample := i.families.flatMap (·.samples)

theorem samples_eq (i : Instruments) :
    i.samples = (i.latencies.entries.flatMap fun (node, h) => latencySamples node h) ++
      ((i.scrapes.entries.map fun (success, n) => scrapeSample success n) ++
        i.lastScrape.entries.map fun (node, time) => lastScrapeSample node time) := by
  simp [samples, families]

/-- The nodes of which the instruments tell. -/
def nodeNames (i : Instruments) : List String :=
  i.latencies.entries.map (·.1) ++ i.lastScrape.entries.map (·.1)

theorem isPlain_latencySample {node : String} (hnode : IsPlain node) (h : LatencyHistogram) :
    ∀ s ∈ latencySamples node h, s.IsPlain := by
  have hname : ∀ role ∈ ["_sum", "_count", "_bucket"], IsName (latencyName ++ role) := by decide
  have hlabel : ∀ l ∈ [("node", node)], IsName l.1 ∧ IsPlain l.2 := by
    intro l hl
    rw [List.mem_singleton.mp hl]
    exact ⟨(by decide : IsName "node"), hnode⟩
  intro s hs
  rcases List.mem_append.mp hs with hs | hs
  · rcases List.mem_cons.mp hs with rfl | hs
    · exact ⟨hname "_sum" (by decide), List.cons_ne_nil _ _, hlabel⟩
    · rw [List.mem_singleton.mp hs]
      exact ⟨hname "_count" (by decide), List.cons_ne_nil _ _, hlabel⟩
  · obtain ⟨⟨bound, n⟩, -, rfl⟩ := List.mem_map.mp hs
    refine ⟨hname "_bucket" (by decide), List.cons_ne_nil _ _, ?_⟩
    exact List.forall_mem_cons.mpr
      ⟨⟨(by decide : IsName "le"), isPlain_boundText bound⟩, hlabel⟩

theorem isPlain_scrapeSample (success : Bool) (n : Nat) : (scrapeSample success n).IsPlain := by
  have hname : IsName (scrapesName ++ "_total") := by decide
  refine ⟨hname, List.cons_ne_nil _ _, ?_⟩
  intro l hl
  rw [List.mem_singleton.mp hl]
  refine ⟨(by decide : IsName "success"), ?_⟩
  cases success <;> decide

theorem isPlain_lastScrapeSample {node : String} (hnode : IsPlain node) (time : Binary64) :
    (lastScrapeSample node time).IsPlain := by
  have hname : IsName lastScrapeName := by decide
  refine ⟨hname, List.cons_ne_nil _ _, ?_⟩
  intro l hl
  rw [List.mem_singleton.mp hl]
  exact ⟨(by decide : IsName "source"), hnode⟩

/-- Instruments with plain names have plain families. -/
theorem isPlain_families (hnames : ∀ name ∈ i.nodeNames, IsPlain name) :
    ∀ f ∈ i.families, f.IsPlain := by
  obtain ⟨hlatencies, hlastScrape⟩ := List.forall_mem_append.mp hnames
  intro f hf
  rcases List.mem_cons.mp hf with rfl | hf
  · refine ⟨(by decide : IsName latencyName), by dsimp only; decide, ?_⟩
    intro s hs
    obtain ⟨⟨node, h⟩, he, hs⟩ := List.mem_flatMap.mp hs
    exact isPlain_latencySample (hlatencies _ (List.mem_map.mpr ⟨_, he, rfl⟩)) h s hs
  rcases List.mem_cons.mp hf with rfl | hf
  · refine ⟨(by decide : IsName scrapesName), by dsimp only; decide, ?_⟩
    intro s hs
    obtain ⟨⟨success, n⟩, -, rfl⟩ := List.mem_map.mp hs
    exact isPlain_scrapeSample success n
  · obtain rfl := List.mem_singleton.mp hf
    refine ⟨(by decide : IsName lastScrapeName), by dsimp only; decide, ?_⟩
    intro s hs
    obtain ⟨⟨node, time⟩, he, rfl⟩ := List.mem_map.mp hs
    exact isPlain_lastScrapeSample (hlastScrape _ (List.mem_map.mpr ⟨_, he, rfl⟩)) time

/-- The instruments are read back from their exposition exactly if all names are plain. -/
theorem read?_exposition_iff (i : Instruments) :
    read? i.exposition = some i.samples ↔ ∀ name ∈ i.nodeNames, IsPlain name := by
  constructor
  · intro hread name hname
    have hplain := isPlain_of_mem_read? hread
    rw [samples_eq] at hplain
    rcases List.mem_append.mp hname with hname | hname
    · obtain ⟨⟨name, h⟩, he, rfl⟩ := List.mem_map.mp hname
      have hsum : ⟨latencyName ++ "_sum", [("node", name)], .value h.sum⟩ ∈
          i.latencies.entries.flatMap fun (node, h) => latencySamples node h :=
        List.mem_flatMap.mpr ⟨_, he, List.mem_cons_self⟩
      exact hplain _ (List.mem_append_left _ hsum) _ List.mem_cons_self
    · obtain ⟨⟨name, time⟩, he, rfl⟩ := List.mem_map.mp hname
      have hlast : lastScrapeSample name time ∈
          i.lastScrape.entries.map fun (node, time) => lastScrapeSample node time :=
        List.mem_map.mpr ⟨_, he, rfl⟩
      exact hplain _ (List.mem_append_right _ (List.mem_append_right _ hlast)) _ List.mem_cons_self
  · intro hnames
    exact read?_text (isPlain_families hnames)

/-! ## Instruments from samples -/

/-- The latencies' histograms are all over the same bounds. -/
def HasBounds (i : Instruments) : Prop := ∀ e ∈ i.latencies.entries, e.2.HasBounds

theorem HasBounds.apply (hi : i.HasBounds) (u : Update) : (i.apply u).HasBounds := by
  cases u with
  | observe node latency =>
    exact Series.forall_updateEntries LatencyHistogram.hasBounds_empty
      (fun h hh => hh.observe _) hi node
  | scrape success => exact hi
  | mark node time => exact hi
  | reset => exact nofun

theorem hasBounds_foldl (hi : i.HasBounds) (updates : List Update) :
    (updates.foldl Instruments.apply i).HasBounds := by
  induction updates generalizing i with
  | nil => exact hi
  | cons u rest ih => exact ih (hi.apply u)

variable {node node' : String} {h h' : LatencyHistogram}

theorem length_latencySamples (hh : h.HasBounds) :
    (latencySamples node h).length = LatencyHistogram.bounds.length + 2 := by
  have hlength := congrArg List.length hh
  rw [List.length_map] at hlength
  rw [latencySamples, List.length_append, List.length_map, LatencyHistogram.cumulative,
    LatencyHistogram.length_cumulate, hlength]
  exact Nat.add_comm _ _

/-- The samples of latencies tell their node and their histogram. -/
theorem latencySamples_inj (hh : h.HasBounds) (hh' : h'.HasBounds)
    (heq : latencySamples node h = latencySamples node' h') : node = node' ∧ h = h' := by
  obtain ⟨hfirst, hbuckets⟩ := List.append_inj heq rfl
  simp only [List.cons.injEq, Sample.mk.injEq, Prod.mk.injEq, Quantity.value.injEq,
    Quantity.count.injEq, true_and, and_true] at hfirst
  obtain ⟨⟨hnode, hsum⟩, -, hcount⟩ := hfirst
  have hcounts : h.cumulative.map (·.2) = h'.cumulative.map (·.2) := by
    have hquantities := congrArg (List.map Sample.quantity) hbuckets
    rw [List.map_map, List.map_map] at hquantities
    have hinj : Function.Injective Quantity.count := fun m n hmn => Quantity.count.inj hmn
    refine List.map_injective_iff.mpr hinj ?_
    rw [List.map_map, List.map_map]
    exact hquantities
  have hsame := LatencyHistogram.cumulate_inj (hh.trans hh'.symm) hcounts
  refine ⟨hnode, ?_⟩
  cases h
  cases h'
  simp_all

/-- The samples of all latencies tell the latencies. -/
theorem flatMap_latencySamples_inj {es es' : List (String × LatencyHistogram)}
    (hes : ∀ e ∈ es, e.2.HasBounds) (hes' : ∀ e ∈ es', e.2.HasBounds)
    (heq : (es.flatMap fun (node, h) => latencySamples node h) =
      es'.flatMap fun (node, h) => latencySamples node h) : es = es' := by
  induction es generalizing es' with
  | nil =>
    cases es' with
    | nil => rfl
    | cons e' rest' => cases heq
  | cons e rest ih =>
    cases es' with
    | nil => cases heq
    | cons e' rest' =>
      obtain ⟨hfirst, hrest⟩ := List.forall_mem_cons.mp hes
      obtain ⟨hfirst', hrest'⟩ := List.forall_mem_cons.mp hes'
      rw [List.flatMap_cons, List.flatMap_cons] at heq
      obtain ⟨hchunk, hmore⟩ := List.append_inj heq
        ((length_latencySamples hfirst).trans (length_latencySamples hfirst').symm)
      obtain ⟨hnode, hhistogram⟩ := latencySamples_inj hfirst hfirst' hchunk
      rw [ih hrest hrest' hmore, Prod.ext hnode hhistogram]

/-- The name of a sample's last label, which is what its series is keyed by. -/
def keyName (s : Sample) : Option String := s.labels.getLast?.map (·.1)

theorem keyName_latencies {s : Sample}
    (hs : s ∈ i.latencies.entries.flatMap fun (node, h) => latencySamples node h) :
    keyName s = some "node" := by
  obtain ⟨_, -, hs⟩ := List.mem_flatMap.mp hs
  rcases List.mem_append.mp hs with hs | hs
  · rcases List.mem_cons.mp hs with rfl | hs
    · rfl
    · rw [List.mem_singleton.mp hs]
      rfl
  · obtain ⟨⟨bound, n⟩, -, rfl⟩ := List.mem_map.mp hs
    rfl

theorem keyName_scrapes {s : Sample}
    (hs : s ∈ i.scrapes.entries.map fun (success, n) => scrapeSample success n) :
    keyName s = some "success" := by
  obtain ⟨_, -, rfl⟩ := List.mem_map.mp hs
  rfl

theorem keyName_lastScrape {s : Sample}
    (hs : s ∈ i.lastScrape.entries.map fun (node, time) => lastScrapeSample node time) :
    keyName s = some "source" := by
  obtain ⟨_, -, rfl⟩ := List.mem_map.mp hs
  rfl

theorem scrapeSample_inj {success success' : Bool} {n n' : Nat}
    (heq : scrapeSample success n = scrapeSample success' n') :
    (success, n) = (success', n') := by
  have hfields : (if success then "true" else "false") = (if success' then "true" else "false") ∧
      n = n' := by
    simpa [scrapeSample] using heq
  obtain ⟨hlabel, rfl⟩ := hfields
  cases success <;> cases success' <;> first | rfl | exact absurd hlabel (by decide)

theorem lastScrapeSample_inj {time time' : Binary64}
    (heq : lastScrapeSample node time = lastScrapeSample node' time') :
    (node, time) = (node', time') := by
  simpa [lastScrapeSample] using heq

/-- The samples tell the instruments. -/
theorem samples_inj (hi : i.HasBounds) (hj : j.HasBounds) (heq : i.samples = j.samples) :
    i = j := by
  have hrest : ∀ k : Instruments,
      ∀ s ∈ k.scrapes.entries.map (fun (success, n) => scrapeSample success n) ++
        k.lastScrape.entries.map (fun (node, time) => lastScrapeSample node time),
        keyName s ≠ some "node" := by
    intro k s hs
    rcases List.mem_append.mp hs with hs | hs
    · rw [keyName_scrapes hs]
      decide
    · rw [keyName_lastScrape hs]
      decide
  have hlast : ∀ k : Instruments,
      ∀ s ∈ k.lastScrape.entries.map (fun (node, time) => lastScrapeSample node time),
        keyName s ≠ some "success" := by
    intro k s hs
    rw [keyName_lastScrape hs]
    decide
  rw [samples_eq, samples_eq] at heq
  -- The families stand one behind the other, and each is keyed by a label of its own.
  obtain ⟨hlatencies, heq⟩ := append_inj_of_forall (fun s => keyName_latencies)
    (fun s => keyName_latencies) (hrest i) (hrest j) heq
  obtain ⟨hscrapes, hlastScrape⟩ := append_inj_of_forall (fun s => keyName_scrapes)
    (fun s => keyName_scrapes) (hlast i) (hlast j) heq
  have hlatencies := flatMap_latencySamples_inj hi hj hlatencies
  have hscrapes := List.map_injective_iff.mpr (fun _ _ h => scrapeSample_inj h) hscrapes
  have hlastScrape := List.map_injective_iff.mpr (fun _ _ h => lastScrapeSample_inj h) hlastScrape
  obtain ⟨⟨latencies⟩, ⟨scrapes⟩, ⟨lastScrape⟩⟩ := i
  obtain ⟨⟨latencies'⟩, ⟨scrapes'⟩, ⟨lastScrape'⟩⟩ := j
  cases hlatencies
  cases hscrapes
  cases hlastScrape
  rfl

/-! ## After updates -/

/-- The node that an update names. -/
def Update.node? : Update → Option String
  | .observe node _ => some node
  | .mark node _ => some node
  | _ => none

/-- An update adds the name of its node to those that the instruments tell of. -/
theorem mem_nodeNames_apply (i : Instruments) {u : Update} (hu : u ≠ .reset) (name : String) :
    name ∈ (i.apply u).nodeNames ↔ name ∈ i.nodeNames ∨ u.node? = some name := by
  cases u with
  | observe node latency =>
    have hkeys := Series.mem_keys_updateEntries node LatencyHistogram.empty
      (·.observe (Duration.toSeconds latency)) i.latencies.entries name
    simp only [nodeNames, List.mem_append, Update.node?, Option.some.injEq]
    constructor
    · rintro (hname | hname)
      · rcases hkeys.mp hname with rfl | hname
        · exact .inr rfl
        · exact .inl (.inl hname)
      · exact .inl (.inr hname)
    · rintro ((hname | hname) | rfl)
      · exact .inl (hkeys.mpr (.inr hname))
      · exact .inr hname
      · exact .inl (hkeys.mpr (.inl rfl))
  | scrape success => simp [Update.node?, apply, recordScrape, nodeNames]
  | mark node time =>
    have hkeys := Series.mem_keys_updateEntries node Binary64.zero (fun _ => time.unixSeconds)
      i.lastScrape.entries name
    simp only [nodeNames, List.mem_append, Update.node?, Option.some.injEq]
    constructor
    · rintro (hname | hname)
      · exact .inl (.inl hname)
      · rcases hkeys.mp hname with rfl | hname
        · exact .inr rfl
        · exact .inl (.inr hname)
    · rintro ((hname | hname) | rfl)
      · exact .inl hname
      · exact .inr (hkeys.mpr (.inr hname))
      · exact .inr (hkeys.mpr (.inl rfl))
  | reset => exact absurd rfl hu

theorem mem_nodeNames_foldl {updates : List Update} (hreset : .reset ∉ updates) (i : Instruments)
    (name : String) :
    name ∈ (updates.foldl apply i).nodeNames ↔
      name ∈ i.nodeNames ∨ name ∈ updates.filterMap Update.node? := by
  induction updates generalizing i with
  | nil => simp
  | cons u rest ih =>
    obtain ⟨hu, hrest⟩ := not_or.mp (mt List.mem_cons.mpr hreset)
    rw [List.foldl_cons, ih hrest, mem_nodeNames_apply i (Ne.symm hu), or_assoc]
    simp [List.mem_filterMap]

/-- The same series in another order. They are kept in hash tables, so any order may come out. -/
structure Rearranges (i j : Instruments) : Prop where
  latencies : i.latencies.entries.Perm j.latencies.entries
  scrapes : i.scrapes.entries.Perm j.scrapes.entries
  lastScrape : i.lastScrape.entries.Perm j.lastScrape.entries

theorem Rearranges.hasBounds (hij : i.Rearranges j) (hj : j.HasBounds) : i.HasBounds :=
  fun e he => hj e (hij.latencies.mem_iff.mp he)

theorem Rearranges.mem_nodeNames (hij : i.Rearranges j) {name : String} :
    name ∈ i.nodeNames ↔ name ∈ j.nodeNames :=
  ((hij.latencies.map (·.1)).append (hij.lastScrape.map (·.1))).mem_iff

/-- The names of the nodes told of are those of the updates, in whichever order. -/
theorem Rearranges.mem_nodeNames_foldl {updates : List Update} (hreset : .reset ∉ updates)
    (hi : i.Rearranges (updates.foldl apply {})) {name : String} :
    name ∈ i.nodeNames ↔ name ∈ updates.filterMap Update.node? := by
  rw [hi.mem_nodeNames, Instruments.mem_nodeNames_foldl hreset]
  simp [nodeNames]

/-- After any updates, and with the series in any order, an exposition is read back as the samples
of the instruments exactly if all names of nodes are plain. Instruments after other updates with
plain names have the same exposition only if they are the same. -/
theorem exposition_faithful {updates updates' : List Update} (hreset : .reset ∉ updates)
    (hreset' : .reset ∉ updates') (hi : i.Rearranges (updates.foldl apply {}))
    (hj : j.Rearranges (updates'.foldl apply {})) :
    (read? i.exposition = some i.samples ↔
      ∀ name ∈ updates.filterMap Update.node?, IsPlain name) ∧
    ((∀ name ∈ updates.filterMap Update.node?, IsPlain name) →
      (∀ name ∈ updates'.filterMap Update.node?, IsPlain name) →
      i.exposition = j.exposition → i = j) := by
  have hread : read? i.exposition = some i.samples ↔
      ∀ name ∈ updates.filterMap Update.node?, IsPlain name := by
    rw [read?_exposition_iff]
    simp only [hi.mem_nodeNames_foldl hreset]
  have hread' : read? j.exposition = some j.samples ↔
      ∀ name ∈ updates'.filterMap Update.node?, IsPlain name := by
    rw [read?_exposition_iff]
    simp only [hj.mem_nodeNames_foldl hreset']
  refine ⟨hread, ?_⟩
  intro hplain hplain' heq
  have hsamples := hread.mpr hplain
  rw [heq, hread'.mpr hplain'] at hsamples
  have hempty : ({} : Instruments).HasBounds := nofun
  exact samples_inj (hi.hasBounds (hasBounds_foldl hempty updates))
    (hj.hasBounds (hasBounds_foldl hempty updates')) (Option.some.inj hsamples).symm

/-- Two nodes marked in either order: the series may stand in the order of the other history. -/
theorem exposition_faithful_reordered :
    let first : List Update := [.mark "a" (.ofParts 1 0), .mark "b" (.ofParts 2 0)]
    let second : List Update := [.mark "b" (.ofParts 2 0), .mark "a" (.ofParts 1 0)]
    let i : Instruments := first.foldl apply {}
    first ≠ second ∧ i.Rearranges (second.foldl apply {}) ∧
      read? i.exposition = some i.samples := by
  intro first second i
  have hi : i.Rearranges (first.foldl apply {}) := ⟨.refl _, .refl _, .refl _⟩
  have hj : i.Rearranges (second.foldl apply {}) := ⟨.refl _, .refl _, .swap _ _ _⟩
  have hreset : Update.reset ∉ first := by decide
  have hreset' : Update.reset ∉ second := by decide
  have hplain : ∀ name ∈ first.filterMap Update.node?, IsPlain name := by decide
  exact ⟨by decide, hj, (exposition_faithful hreset hreset' hi hj).1.mpr hplain⟩

/-- A node's name that closes its label and spells out the sample of a second node. -/
def forgedName : String := "x\"\x7d 1.0\n" ++ lastScrapeName ++ "\x7bsource=\"y"

/-- A valid name can forge a sample: one mark is written just as the marks of two other nodes are,
and it is the samples of those that are read back. -/
theorem forged_exposition :
    let one : Instruments := [Update.mark forgedName (.ofParts 2 0)].foldl apply {}
    let two : Instruments :=
      [Update.mark "x" (.ofParts 1 0), .mark "y" (.ofParts 2 0)].foldl apply {}
    Config.violation { nodes := [{ name := forgedName }] } = none ∧
      Config.violation { nodes := [{ name := "x" }, { name := "y" }] } = none ∧
      one ≠ two ∧ one.samples ≠ two.samples ∧ one.exposition = two.exposition ∧
      read? one.exposition = some two.samples := by
  intro one two
  have hexposition : one.exposition = two.exposition := by decide +kernel
  have hplain : ∀ name ∈ two.nodeNames, IsPlain name := by decide
  have hread := (read?_exposition_iff two).mpr hplain
  rw [← hexposition] at hread
  exact ⟨by decide +kernel, by decide +kernel, by decide +kernel, by decide +kernel, hexposition,
    hread⟩

end Instruments

end NodeScrape
