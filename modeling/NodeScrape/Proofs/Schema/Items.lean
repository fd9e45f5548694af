import Mathlib.Data.List.Forall2

/-!
# Lists read item by item

A list is read if each of its items is, in their order, and what is read of the first item that
cannot be read is the error of the list.
-/

namespace NodeScrape

variable {α β ε : Type} {f : α → Except ε β}

/-- A list is read exactly if each of its items is. -/
theorem mapM_eq_ok_iff {as : List α} {bs : List β} :
    as.mapM f = .ok bs ↔ List.Forall₂ (fun a b => f a = .ok b) as bs := by
  induction as generalizing bs with
  | nil =>
    rw [List.mapM_nil, List.forall₂_nil_left_iff]
    exact ⟨fun h => (Except.ok.inj h).symm, fun h => congrArg Except.ok h.symm⟩
  | cons a as ih =>
    rw [List.mapM_cons, List.forall₂_cons_left_iff]
    cases hfirst : f a with
    | error e => simp [bind, Except.bind]
    | ok b =>
      cases hrest : as.mapM f with
      | error e => simp [bind, Except.bind, ← ih, hrest]
      | ok rest => simp [bind, Except.bind, pure, Except.pure, ← ih, hrest, eq_comm]

/-- A list is read part by part. -/
theorem mapM_append_eq_ok_iff {front back : List α} {bs : List β} :
    (front ++ back).mapM f = .ok bs ↔
      ∃ cs ds, front.mapM f = .ok cs ∧ back.mapM f = .ok ds ∧ cs ++ ds = bs := by
  rw [List.mapM_append]
  cases front.mapM f with
  | error e => simp [bind, Except.bind]
  | ok cs =>
    cases back.mapM f with
    | error e => simp [bind, Except.bind]
    | ok ds => simp [bind, Except.bind, pure, Except.pure]

theorem mapM_cons_eq_ok_iff {a : α} {as : List α} {bs : List β} :
    (a :: as).mapM f = .ok bs ↔ ∃ b cs, f a = .ok b ∧ as.mapM f = .ok cs ∧ b :: cs = bs := by
  rw [List.mapM_cons]
  cases f a with
  | error e => simp [bind, Except.bind]
  | ok b =>
    cases as.mapM f with
    | error e => simp [bind, Except.bind]
    | ok cs => simp [bind, Except.bind, pure, Except.pure]

/-- A further item of a list that is read is read in its place, and its error is that of the list. -/
theorem mapM_insert {front back : List α} {bs : List β} (h : (front ++ back).mapM f = .ok bs)
    (a : α) : (front ++ a :: back).mapM f =
      (fun b => bs.take front.length ++ b :: bs.drop front.length) <$> f a := by
  obtain ⟨cs, ds, hfront, hback, rfl⟩ := mapM_append_eq_ok_iff.mp h
  have hlength : cs.length = front.length := (mapM_eq_ok_iff.mp hfront).length_eq.symm
  rw [List.mapM_append, hfront, List.mapM_cons, hback, ← hlength, List.take_left, List.drop_left]
  cases f a <;> rfl

/-- A list is read if every item is. -/
theorem exists_mapM_eq_ok_iff {as : List α} :
    (∃ bs, as.mapM f = .ok bs) ↔ ∀ a ∈ as, ∃ b, f a = .ok b := by
  simp only [mapM_eq_ok_iff]
  induction as with
  | nil => simp
  | cons a as ih =>
    simp only [List.forall₂_cons_left_iff, List.forall_mem_cons, ← ih]
    constructor
    · rintro ⟨_, b, bs, hb, hbs, -⟩
      exact ⟨⟨b, hb⟩, ⟨bs, hbs⟩⟩
    · rintro ⟨⟨b, hb⟩, ⟨bs, hbs⟩⟩
      exact ⟨_, b, bs, hb, hbs, rfl⟩

section Partners

variable {R : α → β → Prop} {as : List α} {bs : List β}

/-- Every item of the first of two related lists has a partner in the second. -/
theorem exists_partner_of_mem_left (h : List.Forall₂ R as bs) {a : α} (ha : a ∈ as) :
    ∃ b ∈ bs, R a b := by
  induction h with
  | nil => cases ha
  | cons hfirst _ ih =>
    rcases List.mem_cons.mp ha with rfl | ha
    · exact ⟨_, List.mem_cons_self, hfirst⟩
    · obtain ⟨b, hb, hab⟩ := ih ha
      exact ⟨b, List.mem_cons_of_mem _ hb, hab⟩

/-- Every item of the second of two related lists has a partner in the first. -/
theorem exists_partner_of_mem_right (h : List.Forall₂ R as bs) {b : β} (hb : b ∈ bs) :
    ∃ a ∈ as, R a b :=
  exists_partner_of_mem_left h.flip hb

end Partners

section Selections

variable {p : α → Bool} (hp : ∀ a, p a = true ↔ ∃ b, f a = .ok b)

include hp

/-- What is read of the items that can be read, in their order. -/
theorem forall₂_filterMap_ok (as : List α) :
    List.Forall₂ (fun a b => f a = .ok b) (as.filter p) (as.filterMap fun a => (f a).toOption) := by
  induction as with
  | nil => exact .nil
  | cons a as ih =>
    cases ha : f a with
    | ok b =>
      rw [List.filterMap_cons_some (by rw [ha]; rfl), List.filter_cons_of_pos ((hp a).mpr ⟨b, ha⟩)]
      exact .cons ha ih
    | error e =>
      have hnot : ¬ p a = true := fun h => by
        obtain ⟨b, hb⟩ := (hp a).mp h
        rw [ha] at hb
        cases hb
      rw [List.filterMap_cons_none (by rw [ha]; rfl), List.filter_cons_of_neg hnot]
      exact ih

/-- What is told of the items that cannot be read, in their order. -/
theorem forall₂_filterMap_error {γ : Type} (tell : α → Option γ) (told : α → ε → γ)
    (hok : ∀ a b, f a = .ok b → tell a = none)
    (herror : ∀ a e, f a = .error e → tell a = some (told a e)) (as : List α) :
    List.Forall₂ (fun a c => ∃ e, f a = .error e ∧ c = told a e) (as.filter (!p ·))
      (as.filterMap tell) := by
  induction as with
  | nil => exact .nil
  | cons a as ih =>
    cases ha : f a with
    | ok b =>
      have hread : p a = true := (hp a).mpr ⟨b, ha⟩
      rw [List.filterMap_cons_none (hok a b ha), List.filter_cons_of_neg (by simp [hread])]
      exact ih
    | error e =>
      have hnot : p a = false := by
        refine Bool.eq_false_iff.mpr fun h => ?_
        obtain ⟨b, hb⟩ := (hp a).mp h
        rw [ha] at hb
        cases hb
      rw [List.filterMap_cons_some (herror a e ha), List.filter_cons_of_pos (by simp [hnot])]
      exact .cons ⟨e, ha, rfl⟩ ih

end Selections

end NodeScrape
