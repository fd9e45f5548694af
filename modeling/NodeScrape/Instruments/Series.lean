/-!
# Series by key

Values by key, in the order in which the keys were first used. A key that was never used has no
entry, so nothing is told about it.
-/

namespace NodeScrape

/-- Values by key. -/
structure Series (κ α : Type) where
  /-- The entries in the order of their first use. -/
  entries : List (κ × α) := []
  deriving DecidableEq

namespace Series

variable {κ α : Type} [DecidableEq κ]

/-- The value of a key among entries. -/
def find? (key : κ) : List (κ × α) → Option α
  | [] => none
  | (k, a) :: rest => if k = key then some a else find? key rest

/-- The value of a key. -/
def get? (s : Series κ α) (key : κ) : Option α := find? key s.entries

/-- Changes the value of a key among entries; a key without entry starts from `new`. -/
def updateEntries (key : κ) (new : α) (f : α → α) : List (κ × α) → List (κ × α)
  | [] => [(key, f new)]
  | (k, a) :: rest => if k = key then (k, f a) :: rest else (k, a) :: updateEntries key new f rest

/-- Changes the value of a key; a key without entry starts from `new`. -/
def update (s : Series κ α) (key : κ) (new : α) (f : α → α) : Series κ α :=
  ⟨updateEntries key new f s.entries⟩

theorem find?_updateEntries (key k : κ) (new : α) (f : α → α) (entries : List (κ × α)) :
    find? k (updateEntries key new f entries) =
      if k = key then some (f ((find? key entries).getD new)) else find? k entries := by
  induction entries with
  | nil => simp [updateEntries, find?, eq_comm]
  | cons e rest ih =>
    simp only [updateEntries, find?]
    grind [find?]

/-- A change shows at its own key and nowhere else. -/
theorem get?_update (s : Series κ α) (key k : κ) (new : α) (f : α → α) :
    (s.update key new f).get? k = if k = key then some (f ((s.get? key).getD new)) else s.get? k :=
  find?_updateEntries key k new f s.entries

end Series

end NodeScrape
