import Mathlib.Tactic.Basic
import NodeScrape.Scope.Race

/-!
# Ticks at which a race is asked

A race is asked at once and at every later tick at which something happens, in order. A scope is
done from the first tick on at which it is canceled or its deadline passes.
-/

namespace NodeScrape

namespace Ending

@[simp] theorem reached_none (t : Nat) : reached none t = false := rfl

@[simp] theorem reached_some (k t : Nat) : reached (some k) t = decide (k ≤ t) := rfl

/-- No reason holds exactly as long as nothing has come. -/
theorem reasonsAt_eq_nil_iff {e : Ending} {t : Nat} :
    e.reasonsAt t = [] ↔ reached e.canceled t = false ∧ reached e.deadline t = false := by
  unfold reasonsAt
  cases reached e.canceled t <;> cases reached e.deadline t <;> simp

/-- A scope that is canceled tells so first. -/
theorem head?_reasonsAt (e : Ending) (t : Nat) :
    (e.reasonsAt t).head? =
      if reached e.canceled t then some .canceled
      else if reached e.deadline t then some .deadlineExceeded else none := by
  unfold reasonsAt
  cases reached e.canceled t <;> cases reached e.deadline t <;> rfl

end Ending

namespace Race

/-- A race is asked at its start and at the later ticks at which something happens. -/
theorem mem_wakeups {start t : Nat} {moments : List Nat} :
    t ∈ wakeups start moments ↔ t = start ∨ t ∈ moments ∧ start < t := by
  simp [wakeups, List.mem_mergeSort, List.mem_filter]

/-- A race is asked at ticks from its start on. -/
theorem start_le_of_mem_wakeups {start u : Nat} {moments : List Nat}
    (hu : u ∈ wakeups start moments) : start ≤ u := by
  rcases mem_wakeups.mp hu with rfl | ⟨-, hlt⟩
  · exact Nat.le_refl u
  · exact Nat.le_of_lt hlt

/-- A race is asked in the order of the ticks. -/
theorem pairwise_wakeups (start : Nat) (moments : List Nat) :
    (wakeups start moments).Pairwise (· ≤ ·) := by
  refine List.pairwise_cons.mpr ⟨fun t ht => ?_, ?_⟩
  · rw [List.mem_mergeSort, List.mem_filter] at ht
    exact Nat.le_of_lt (of_decide_eq_true ht.2)
  · have hsorted : ((moments.filter (start < ·)).mergeSort fun a b => decide (a ≤ b)).Pairwise
        fun a b => decide (a ≤ b) = true := by
      apply List.pairwise_mergeSort
      · intro a b c hab hbc
        simp only [decide_eq_true_iff] at hab hbc ⊢
        omega
      · intro a b
        simp only [Bool.or_eq_true, decide_eq_true_iff]
        omega
    exact hsorted.imp fun h => of_decide_eq_true h

/-- A race that is asked at given ticks comes to a value only if its work is ready with it. -/
theorem ready_of_mem_firstOf {α : Type} {ready : Nat → Option α} {e : Ending} {ticks : List Nat}
    {t : Nat} {outcomes : List (Except DoneReason α)} {value : α}
    (h : firstOf ready e ticks = some (t, outcomes)) (hmem : .ok value ∈ outcomes) :
    ready t = some value := by
  induction ticks with
  | nil => cases h
  | cons u rest ih =>
    rw [firstOf] at h
    split at h
    · exact ih h
    · cases h
      cases hready : ready t with
      | none => simp [poll, hready] at hmem
      | some a =>
        rw [hready] at hmem
        cases List.mem_singleton.mp hmem
        rfl

end Race

end NodeScrape
