import Mathlib.Data.List.Basic

/-!
# Places in lists

What stands in a place of a list that has been put together, and where a list can be taken apart.
-/

namespace NodeScrape

variable {α β : Type} {l : List α} {a b : α} {n : Nat}

/-! ## Lists that grow -/

/-- A list that grows by one item keeps its items and has the new one in the next place. -/
theorem getElem?_concat_eq_some :
    (l ++ [a])[n]? = some b ↔ l[n]? = some b ∨ n = l.length ∧ a = b := by
  rw [List.getElem?_append]
  split
  next hlt => exact ⟨.inl, fun h => h.resolve_right fun ⟨hn, _⟩ => absurd hlt (by omega)⟩
  next hge =>
    rw [List.getElem?_singleton, List.getElem?_eq_none (by omega)]
    by_cases hn : n = l.length
    · simp [hn]
    · simp [hn, show ¬ n - l.length = 0 by omega]

/-- Two lists that grow by one item together have their old items and their new ones in the same
places. -/
theorem getElem?_concat_both {m : List β} {c d : β} (hlength : l.length = m.length)
    (hl : (l ++ [a])[n]? = some b) (hm : (m ++ [c])[n]? = some d) :
    (l[n]? = some b ∧ m[n]? = some d) ∨ (n = m.length ∧ a = b ∧ c = d) := by
  rcases getElem?_concat_eq_some.mp hl with hl | ⟨hn, hab⟩
  · rcases getElem?_concat_eq_some.mp hm with hm | ⟨hn, -⟩
    · exact .inl ⟨hl, hm⟩
    · obtain ⟨hlt, -⟩ := List.getElem?_eq_some_iff.mp hl
      omega
  · rcases getElem?_concat_eq_some.mp hm with hm | ⟨hn', hcd⟩
    · obtain ⟨hlt, -⟩ := List.getElem?_eq_some_iff.mp hm
      omega
    · exact .inr ⟨hn', hab, hcd⟩

/-- What is put in the place of an item stands between what stood before and after it. -/
theorem exists_append_set (h : l[n]? = some a) (a' : α) :
    ∃ before after, l = before ++ a :: after ∧ before.length = n ∧
      l.set n a' = before ++ a' :: after := by
  obtain ⟨hlt, rfl⟩ := List.getElem?_eq_some_iff.mp h
  exact List.exists_of_set hlt

/-! ## Lists in parts -/

/-- What stands before a mark ends where the mark is met first. -/
theorem takeWhile_ne_append [DecidableEq α] (ha : a ∉ l) (rest : List α) :
    (l ++ a :: rest).takeWhile (· ≠ a) = l ∧ (l ++ a :: rest).dropWhile (· ≠ a) = a :: rest := by
  have hall : ∀ b ∈ l, decide (b ≠ a) = true :=
    fun b hb => decide_eq_true (ne_of_mem_of_not_mem hb ha)
  rw [List.takeWhile_append_of_pos hall, List.dropWhile_append_of_pos hall]
  simp

/-- The last part behind a mark that it does not hold is known, with all that stands before the
mark. -/
theorem append_cons_inj_of_not_mem [DecidableEq α] {before before' last last' : List α}
    (hlast : a ∉ last) (hlast' : a ∉ last') (h : before ++ a :: last = before' ++ a :: last') :
    before = before' ∧ last = last' := by
  -- Read from its end, the list shows the last part up to the first mark.
  have hreverse : last.reverse ++ a :: before.reverse = last'.reverse ++ a :: before'.reverse := by
    simpa using congrArg List.reverse h
  obtain ⟨htake, hdrop⟩ := takeWhile_ne_append (mt List.mem_reverse.mp hlast) before.reverse
  obtain ⟨htake', hdrop'⟩ := takeWhile_ne_append (mt List.mem_reverse.mp hlast') before'.reverse
  rw [hreverse, htake'] at htake
  rw [hreverse, hdrop'] at hdrop
  obtain ⟨-, hbefore⟩ := List.cons.inj hdrop
  exact ⟨List.reverse_inj.mp hbefore.symm, List.reverse_inj.mp htake.symm⟩

/-- Two lists split in the same place if what is before it differs in kind from what is behind. -/
theorem append_inj_of_forall {p : α → Prop} [DecidablePred p] {xs xs' ys ys' : List α}
    (hxs : ∀ x ∈ xs, p x) (hxs' : ∀ x ∈ xs', p x) (hys : ∀ y ∈ ys, ¬p y) (hys' : ∀ y ∈ ys', ¬p y)
    (heq : xs ++ ys = xs' ++ ys') : xs = xs' ∧ ys = ys' := by
  have hall : ∀ l : List α, (∀ x ∈ l, p x) → l.filter (fun x => p x) = l :=
    fun l hl => List.filter_eq_self.mpr fun x hx => decide_eq_true (hl x hx)
  have hnone : ∀ l : List α, (∀ x ∈ l, ¬p x) → l.filter (fun x => p x) = [] :=
    fun l hl => List.filter_eq_nil_iff.mpr fun x hx => by simpa using hl x hx
  have hfirst := congrArg (List.filter fun x => p x) heq
  rw [List.filter_append, List.filter_append, hall xs hxs, hall xs' hxs', hnone ys hys,
    hnone ys' hys', List.append_nil, List.append_nil] at hfirst
  rw [hfirst] at heq
  exact ⟨hfirst, List.append_cancel_left heq⟩

/-! ## Items by their order -/

/-- A search finds what is found first, at the item of the lowest rank that gives something. -/
theorem findSome?_eq_some_iff_idxOf [DecidableEq α] {f : α → Option β} {found : β} :
    l.findSome? f = some found ↔ ∃ a ∈ l, f a = some found ∧
      ∀ b ∈ l, f b ≠ none → l.idxOf a ≤ l.idxOf b := by
  rw [List.findSome?_eq_some_iff]
  constructor
  · rintro ⟨before, a, after, rfl, ha, hbefore⟩
    have hfirst {b : α} (hb : f b ≠ none) : b ∉ before := fun h => hb (hbefore b h)
    have hrank : (before ++ a :: after).idxOf a = before.length := by
      rw [List.idxOf_append_of_notMem (hfirst (by simp [ha])), List.idxOf_cons_self]
      rfl
    refine ⟨a, by simp, ha, fun b _ hb => ?_⟩
    rw [hrank, List.idxOf_append_of_notMem (hfirst hb)]
    exact Nat.le_add_right _ _
  · rintro ⟨a, hmem, ha, hleast⟩
    obtain ⟨before, after, rfl, hnew⟩ := List.eq_append_cons_of_mem hmem
    refine ⟨before, a, after, rfl, ha, fun b hb => ?_⟩
    by_contra hfound
    have hle := hleast b (List.mem_append_left _ hb) hfound
    rw [List.idxOf_append_of_notMem hnew, List.idxOf_append_of_mem hb, List.idxOf_cons_self] at hle
    exact absurd (List.idxOf_lt_length_of_mem hb) (by omega)

end NodeScrape
