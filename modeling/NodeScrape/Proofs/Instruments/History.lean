import Mathlib.Tactic.Basic
import NodeScrape.Instruments.Basic

/-!
# Histories of the instruments

What a list of updates without a reset leaves of each series. A latency is counted under its node
alone, a cycle under its success alone, and of the marks of a node only the last one shows. A key
that no update names keeps exactly what it had, be it nothing.
-/

namespace NodeScrape

namespace Instruments

/-- How many latencies of a node were noted. -/
def observations (i : Instruments) (node : String) : Nat := (i.latencies.get? node).elim 0 (·.count)

/-- How many cycles were counted that ended so. -/
def cycles (i : Instruments) (success : Bool) : Nat := (i.scrapes.get? success).getD 0

namespace Update

/-- The node whose latency an update notes. -/
def observed? : Update → Option String
  | .observe node _ => some node
  | _ => none

/-- The success under which an update counts a cycle. -/
def counted? : Update → Option Bool
  | .scrape success => some success
  | _ => none

/-- The node that an update marks, and the time. -/
def marked? : Update → Option (String × WallTime)
  | .mark node time => some (node, time)
  | _ => none

end Update

variable {updates : List Update} {i : Instruments}

/-- The number of a node's latencies grows by one with each that is noted. -/
theorem observations_apply (i : Instruments) {u : Update} (hu : u ≠ .reset) (node : String) :
    (i.apply u).observations node = i.observations node + u.observed?.toList.count node := by
  cases u with
  | observe key latency =>
    rw [apply, observe, observations, Series.get?_update]
    by_cases hk : node = key
    · subst hk
      cases hget : i.latencies.get? node with
      | none => simp [observations, Update.observed?, hget, LatencyHistogram.observe,
          LatencyHistogram.empty]
      | some h => simp [observations, Update.observed?, hget, LatencyHistogram.observe]
    · simp [observations, Update.observed?, hk, Ne.symm hk]
  | reset => exact absurd rfl hu
  | _ => simp [apply, recordScrape, mark, observations, Update.observed?]

/-- The number of cycles grows by one with each that is counted. -/
theorem cycles_apply (i : Instruments) {u : Update} (hu : u ≠ .reset) (success : Bool) :
    (i.apply u).cycles success = i.cycles success + u.counted?.toList.count success := by
  cases u with
  | scrape key =>
    rw [apply, recordScrape, cycles, Series.get?_update]
    by_cases hk : success = key
    · subst hk
      simp [cycles, Update.counted?]
    · simp [cycles, Update.counted?, hk, Ne.symm hk]
  | reset => exact absurd rfl hu
  | _ => simp [apply, observe, mark, cycles, Update.counted?]

private theorem count_filterMap_cons {α β : Type} [DecidableEq β] (f : α → Option β) (a : α)
    (l : List α) (b : β) :
    ((a :: l).filterMap f).count b = (f a).toList.count b + (l.filterMap f).count b := by
  cases h : f a with
  | none => simp [List.filterMap_cons_none h]
  | some b' => simp [List.filterMap_cons_some h, List.count_cons, Nat.add_comm]

theorem observations_foldl (hreset : .reset ∉ updates) (i : Instruments) (node : String) :
    (updates.foldl apply i).observations node =
      i.observations node + (updates.filterMap Update.observed?).count node := by
  induction updates generalizing i with
  | nil => rfl
  | cons u rest ih =>
    obtain ⟨hu, hrest⟩ := not_or.mp (mt List.mem_cons.mpr hreset)
    rw [List.foldl_cons, ih hrest, observations_apply i (Ne.symm hu), count_filterMap_cons,
      Nat.add_assoc]

theorem cycles_foldl (hreset : .reset ∉ updates) (i : Instruments) (success : Bool) :
    (updates.foldl apply i).cycles success =
      i.cycles success + (updates.filterMap Update.counted?).count success := by
  induction updates generalizing i with
  | nil => rfl
  | cons u rest ih =>
    obtain ⟨hu, hrest⟩ := not_or.mp (mt List.mem_cons.mpr hreset)
    rw [List.foldl_cons, ih hrest, cycles_apply i (Ne.symm hu), count_filterMap_cons,
      Nat.add_assoc]

/-- The latencies of a node are left alone by updates that note none of them. -/
theorem latencies_foldl_of_not_mem {node : String} (hreset : .reset ∉ updates)
    (hnode : node ∉ updates.filterMap Update.observed?) (i : Instruments) :
    (updates.foldl apply i).latencies.get? node = i.latencies.get? node := by
  induction updates generalizing i with
  | nil => rfl
  | cons u rest ih =>
    obtain ⟨hu, hrest⟩ := not_or.mp (mt List.mem_cons.mpr hreset)
    have hafter : node ∉ rest.filterMap Update.observed? :=
      fun hmem => hnode (List.mem_filterMap.mpr ((List.mem_filterMap.mp hmem).imp
        fun u h => ⟨List.mem_cons_of_mem _ h.1, h.2⟩))
    rw [List.foldl_cons, ih hrest hafter]
    cases u with
    | observe key latency =>
      have hk : node ≠ key := by
        rintro rfl
        exact hnode (List.mem_filterMap.mpr ⟨_, List.mem_cons_self, rfl⟩)
      rw [apply, observe, Series.get?_update, if_neg hk]
    | reset => exact absurd rfl hu
    | _ => rfl

/-- The mark of a node is the last one that it was given, or else what it was before. -/
theorem lastScrape_foldl (hreset : .reset ∉ updates) (i : Instruments) (node : String) :
    (updates.foldl apply i).lastScrape.get? node =
      (((updates.filterMap Update.marked?).filter (·.1 = node)).getLast?.map
        (·.2.unixSeconds)).or (i.lastScrape.get? node) := by
  induction updates generalizing i with
  | nil => rfl
  | cons u rest ih =>
    obtain ⟨hu, hrest⟩ := not_or.mp (mt List.mem_cons.mpr hreset)
    rw [List.foldl_cons, ih hrest]
    cases u with
    | mark key time =>
      have hmarked : (Update.mark key time :: rest).filterMap Update.marked? =
          (key, time) :: rest.filterMap Update.marked? := rfl
      rw [hmarked, apply, mark, Series.get?_update]
      by_cases hk : node = key
      · subst hk
        rw [if_pos rfl, List.filter_cons_of_pos (by simp), List.getLast?_cons]
        cases ((rest.filterMap Update.marked?).filter (·.1 = node)).getLast? <;> rfl
      · rw [if_neg hk, List.filter_cons_of_neg (by simpa using Ne.symm hk)]
    | reset => exact absurd rfl hu
    | _ => rfl

end Instruments

end NodeScrape
