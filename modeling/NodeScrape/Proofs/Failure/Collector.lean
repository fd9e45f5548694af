import Mathlib.Data.List.Induction
import NodeScrape.Failure.Aggregate

/-!
# The collector of failures

A collector tells without its list how many failures it holds. The count is right from the start,
and pushing and taking keep it so. Whoever pushes and takes, and in whatever order, what was taken
out and what is held are together what was pushed, once each and in order.
-/

namespace NodeScrape

/-! ## What an aggregate says -/

theorem FetchFailure.isTimeout_eq (f : FetchFailure) :
    f.isTimeout = decide (f = .deadlineExceeded) := by
  cases f <;> rfl

namespace AggregateFailure

/-- Texts with something between them: what stands before one of them, and what stands behind. -/
theorem intercalate_split (between text : String) (before after : List String) :
    String.intercalate between (before ++ text :: after) =
      String.join (before.map (· ++ between)) ++ text ++
        String.join (after.map (between ++ ·)) := by
  have hafter : String.intercalate between (text :: after) =
      text ++ String.join (after.map (between ++ ·)) := by
    induction after generalizing text with
    | nil => rw [String.intercalate_singleton, List.map_nil, String.join_nil, String.append_empty]
    | cons next rest ih =>
      rw [String.intercalate_cons_cons, ih, List.map_cons, String.join_cons]
      simp only [String.append_assoc]
  induction before with
  | nil => rw [List.nil_append, hafter, List.map_nil, String.join_nil, String.empty_append]
  | cons first rest ih =>
    have hcons : String.intercalate between (first :: (rest ++ text :: after)) =
        first ++ between ++ String.intercalate between (rest ++ text :: after) := by
      cases rest with
      | nil => exact String.intercalate_cons_cons
      | cons second rest => exact String.intercalate_cons_cons
    rw [List.cons_append, hcons, ih, List.map_cons, String.join_cons]
    simp only [String.append_assoc]

variable {a : AggregateFailure} {f : NodeFailure}

/-- One failure speaks for itself. -/
theorem message_of_one (ha : a.causes = [f]) : a.message = f.message := by
  rw [message, ha]

/-- Several failures stand between brackets in order, with a comma between two of them. -/
theorem message_of_several {before after : List NodeFailure} (ha : a.causes = before ++ f :: after)
    (hmore : before ≠ [] ∨ after ≠ []) :
    a.message = "[" ++ (String.join (before.map (·.message ++ ", ")) ++ f.message ++
      String.join (after.map (", " ++ ·.message))) ++ "]" := by
  have hseveral (g : NodeFailure) : a.causes ≠ [g] := by
    intro hg
    have hlength := congrArg List.length (ha.symm.trans hg)
    simp only [List.length_append, List.length_cons, List.length_nil] at hlength
    simp only [ne_eq, ← List.length_eq_zero_iff] at hmore
    omega
  rw [message]
  split
  · next g hg => exact absurd hg (hseveral g)
  · rw [ha, List.map_append, List.map_cons, intercalate_split, List.map_map, List.map_map]
    rfl

/-- Only a failure to meet the deadline counts as running out of time. -/
theorem timedOut_eq (a : AggregateFailure) :
    a.timedOut = (a.causes.filter (·.cause = .deadlineExceeded)).map (·.node) := by
  simp only [timedOut, FetchFailure.isTimeout_eq]

end AggregateFailure

namespace FailureCollector

/-! ## The count -/

/-- The count of a collector is the number of failures that it holds. -/
def CountsRight (c : FailureCollector) : Prop := c.count = c.causes.length

variable {c : FailureCollector}

theorem CountsRight.push (h : c.CountsRight) (f : NodeFailure) : (c.push f).CountsRight := by
  unfold CountsRight FailureCollector.push at *
  rw [List.length_append, h, List.length_singleton]

theorem countsRight_take (c : FailureCollector) : c.take.2.CountsRight := rfl

/-- A collector that counts right is empty exactly when there is nothing to take out. -/
theorem CountsRight.isEmpty_eq (h : c.CountsRight) : c.isEmpty = c.take.1.isNone := by
  unfold CountsRight at h
  unfold isEmpty take
  rw [h]
  by_cases hc : c.causes = []
  · simp [hc]
  · simp [hc]

/-- All that is held is taken out. -/
theorem causes_take (c : FailureCollector) :
    c.take.1.toList.flatMap (·.causes) = c.causes ∧ c.take.2.causes = [] := by
  refine ⟨?_, rfl⟩
  unfold take
  by_cases hc : c.causes = []
  · simp [hc]
  · simp [hc]

/-! ## A collector in use -/

/-- Something that is done with a collector, by any of those who share it. -/
inductive Use where
  | push (failure : NodeFailure)
  /-- Asks whether the collector is empty. -/
  | ask
  | take
  deriving DecidableEq

/-- The failure that a use adds, if it adds one. -/
def Use.pushed? : Use → Option NodeFailure
  | push failure => some failure
  | ask => none
  | take => none

/-- A collector and what was taken out of it, in order. -/
structure Collection where
  held : FailureCollector := {}
  taken : List AggregateFailure := []
  deriving DecidableEq

namespace Collection

/-- The collection after a use of its collector. -/
def use (c : Collection) : Use → Collection
  | .push failure => { c with held := c.held.push failure }
  | .ask => c
  | .take => ⟨c.held.take.2, c.taken ++ c.held.take.1.toList⟩

/-- The collection after uses of an empty collector. -/
def ofUses (uses : List Use) : Collection := uses.foldl use {}

/-- Every failure that was pushed was taken out or is held, in the order of the pushes, and the
count is right. -/
structure Accounts (c : Collection) (pushed : List NodeFailure) : Prop where
  causes : c.taken.flatMap (·.causes) ++ c.held.causes = pushed
  count : c.held.CountsRight

/-- One use adds what it pushes, and loses and repeats nothing. -/
theorem Accounts.use {c : Collection} {pushed : List NodeFailure} (h : c.Accounts pushed)
    (u : Use) : (c.use u).Accounts (pushed ++ u.pushed?.toList) := by
  cases u with
  | push failure =>
    refine ⟨?_, h.count.push failure⟩
    show c.taken.flatMap (·.causes) ++ (c.held.causes ++ [failure]) = pushed ++ [failure]
    rw [← List.append_assoc, h.causes]
  | ask =>
    rw [Use.pushed?, Option.toList_none, List.append_nil]
    exact h
  | take =>
    obtain ⟨htaken, hleft⟩ := FailureCollector.causes_take c.held
    refine ⟨?_, FailureCollector.countsRight_take c.held⟩
    show (c.taken ++ c.held.take.1.toList).flatMap (·.causes) ++ c.held.take.2.causes = _
    rw [List.flatMap_append, htaken, hleft, List.append_nil, h.causes, Use.pushed?,
      Option.toList_none, List.append_nil]

/-- Uses lose and repeat nothing, in whatever order they come. -/
theorem accounts_ofUses (uses : List Use) :
    (ofUses uses).Accounts (uses.filterMap Use.pushed?) := by
  induction uses using List.reverseRecOn with
  | nil => exact ⟨rfl, rfl⟩
  | append_singleton uses u ih =>
    have hlast : [u].filterMap Use.pushed? = u.pushed?.toList := by
      cases u <;> rfl
    rw [ofUses, List.foldl_append, List.filterMap_append, hlast]
    exact ih.use u

/-- However a collector is used, what was taken out of it and then what it holds are the failures
that were pushed, in order. Its count is the number that it holds, so it says that it is empty
exactly when there is nothing to take out. What is taken out is never empty; it names the nodes that
missed their deadline, in order, and tells every failure in order: one for itself, several between
brackets with commas. -/
theorem keeps_every_failure (uses : List Use) :
    let c := ofUses uses
    c.taken.flatMap (·.causes) ++ c.held.causes = uses.filterMap Use.pushed? ∧
    c.held.count = c.held.causes.length ∧
    (c.held.isEmpty = true ↔ c.held.take.1 = none) ∧
    ∀ a ∈ c.taken, a.causes ≠ [] ∧
      a.timedOut = (a.causes.filter (·.cause = .deadlineExceeded)).map (·.node) ∧
      (∀ f, a.causes = [f] → a.message = f.message) ∧
      ∀ before f after, a.causes = before ++ f :: after → before ≠ [] ∨ after ≠ [] →
        a.message = "[" ++ (String.join (before.map (·.message ++ ", ")) ++ f.message ++
          String.join (after.map (", " ++ ·.message))) ++ "]" := by
  intro c
  have haccounts : c.Accounts (uses.filterMap Use.pushed?) := accounts_ofUses uses
  refine ⟨haccounts.causes, haccounts.count, ?_, fun a _ => ⟨a.nonempty, a.timedOut_eq, ?_, ?_⟩⟩
  · rw [haccounts.count.isEmpty_eq, Option.isNone_iff_eq_none]
  · exact fun f => AggregateFailure.message_of_one
  · exact fun before f after => AggregateFailure.message_of_several

/-- Two failures that are taken out together, and one that is pushed afterwards. -/
theorem keeps_every_failure_taken_twice :
    let late : NodeFailure := ⟨"a", .deadlineExceeded⟩
    let unnamed : NodeFailure := ⟨"<unnamed #1>", .missingIdentity⟩
    let c := ofUses [.push late, .ask, .push unnamed, .take, .take, .push late, .ask]
    let both : AggregateFailure := ⟨[late, unnamed], List.cons_ne_nil _ _⟩
    both ∈ c.taken ∧ c.held.causes = [late] ∧ both.timedOut = ["a"] ∧
      both.message = "[" ++ (String.join [late.message ++ ", "] ++ unnamed.message ++
        String.join []) ++ "]" := by
  intro late unnamed c both
  obtain ⟨-, -, -, htaken⟩ :=
    keeps_every_failure [.push late, .ask, .push unnamed, .take, .take, .push late, .ask]
  have hboth : both ∈ c.taken := List.mem_singleton.mpr rfl
  obtain ⟨-, htimedOut, -, hmessage⟩ := htaken both hboth
  exact ⟨hboth, rfl, htimedOut,
    hmessage [late] unnamed [] rfl (.inl (List.cons_ne_nil _ _))⟩

end Collection

end FailureCollector

end NodeScrape
