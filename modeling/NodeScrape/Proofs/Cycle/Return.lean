import NodeScrape.Proofs.Cycle.Step

/-!
# Cycles can always return

Whatever the tasks have done and however far a cycle is, its own steps lead it on, and once its
deadline has passed it need not wait for any task. So no order of steps leaves a cycle stuck.
-/

namespace NodeScrape

namespace Cycle

/-- The steps of the cycle itself and the passing of its deadline can make it return. -/
def CanReturn (c : Cycle) : Prop :=
  ∃ steps c' result, c.steps? steps = some c' ∧ c'.result? = some result ∧
    ∀ s ∈ steps, s.slot? = none ∧ s ≠ .cancelParent

variable {c c' : Cycle} {s : Step}

/-- Where a step of its own leads a cycle from which it can return, it can return already. -/
theorem CanReturn.of_step (h : CanReturn c') (hs : c.step? s = some c') (hslot : s.slot? = none)
    (hparent : s ≠ .cancelParent) : CanReturn c := by
  obtain ⟨steps, c'', result, hsteps, hresult, hown⟩ := h
  refine ⟨s :: steps, c'', result, steps?_cons.mpr ⟨c', hs, hsteps⟩, hresult, ?_⟩
  intro s' hs'
  rcases List.mem_cons.mp hs' with rfl | hmem
  · exact ⟨hslot, hparent⟩
  · exact hown s' hmem

theorem canReturn_of_counted {batch : Batch} (hstage : c.stage = .counted batch) :
    CanReturn c := by
  have hcollect := step?_collect.mpr ⟨batch, hstage, rfl⟩
  exact ⟨[.collect], _, _, steps?_cons.mpr ⟨_, hcollect, rfl⟩, rfl, by simp [Step.slot?]⟩

/-- A cycle that has closed its board accounts for the nodes that are left, one after another. -/
theorem canReturn_of_closed {batch : Batch} {left : List Pending}
    (hstage : c.stage = .closed batch left) : CanReturn c := by
  induction left generalizing c with
  | nil =>
    exact (canReturn_of_counted rfl).of_step (step?_count.mpr ⟨batch, hstage, rfl⟩) rfl nofun
  | cons p left ih =>
    obtain ⟨next, hleave, hnext⟩ : ∃ next, c.step? (.leaveOut 0) = some next ∧
        next.stage = .closed batch left :=
      ⟨_, step?_leaveOut.mpr ⟨batch, p, left, hstage, rfl⟩, rfl⟩
    exact (ih hnext).of_step hleave rfl nofun

/-- A cycle that has canceled its scope closes its board, after it has aborted its tasks if it did
not wait for all of them. -/
theorem canReturn_of_canceled {allSettled : Bool} (hstage : c.stage = .canceled allSettled) :
    CanReturn c := by
  cases allSettled with
  | true =>
    exact (canReturn_of_closed rfl).of_step (step?_close.mpr ⟨.inl hstage, rfl⟩) rfl nofun
  | false =>
    obtain ⟨next, habort, hnext⟩ : ∃ next, c.step? .abort = some next ∧ next.stage = .aborted :=
      ⟨_, step?_abort.mpr ⟨hstage, rfl⟩, rfl⟩
    have hclose := (canReturn_of_closed rfl).of_step (step?_close.mpr ⟨.inr hnext, rfl⟩) rfl nofun
    exact hclose.of_step habort rfl nofun

theorem canReturn_of_stopped {allSettled : Bool} (hstage : c.stage = .stopped allSettled) :
    CanReturn c :=
  (canReturn_of_canceled rfl).of_step (step?_cancelSelf.mpr ⟨allSettled, hstage, rfl⟩) rfl nofun

/-- A cycle that waits stops at the latest when its deadline has passed. -/
theorem canReturn_of_gathering (hstage : c.stage = .gathering) : CanReturn c := by
  obtain ⟨next, hexpire, hnext, hexpired⟩ : ∃ next, c.step? .expire = some next ∧
      next.stage = .gathering ∧ next.expired = true := ⟨_, rfl, hstage, rfl⟩
  have hreasons : next.reasons.isEmpty = false := by simp [reasons, hexpired]
  have hcut := step?_cutOff.mpr ⟨hnext, hreasons, rfl⟩
  exact ((canReturn_of_stopped rfl).of_step hcut rfl nofun).of_step hexpire rfl nofun

/-- A cycle starts a task for every node that is left before it waits. -/
theorem canReturn_of_starting {index : Nat} {rest : List Node}
    (hstage : c.stage = .starting index rest) : CanReturn c := by
  induction rest generalizing c index with
  | nil =>
    exact (canReturn_of_gathering rfl).of_step (step?_started.mpr ⟨index, hstage, rfl⟩) rfl nofun
  | cons n rest ih =>
    obtain ⟨next, hstart, hnext⟩ : ∃ next, c.step? (.start 0) = some next ∧
        next.stage = .starting (index + 1) rest :=
      ⟨_, step?_start.mpr ⟨index, n, rest, hstage, rfl⟩, rfl⟩
    exact (ih hnext).of_step hstart rfl nofun

/-- From wherever it is, a cycle can return. -/
theorem canReturn (c : Cycle) : CanReturn c := by
  cases hstage : c.stage with
  | starting index rest => exact canReturn_of_starting hstage
  | gathering => exact canReturn_of_gathering hstage
  | stopped allSettled => exact canReturn_of_stopped hstage
  | canceled allSettled => exact canReturn_of_canceled hstage
  | aborted =>
    exact (canReturn_of_closed rfl).of_step (step?_close.mpr ⟨.inr hstage, rfl⟩) rfl nofun
  | closed batch left => exact canReturn_of_closed hstage
  | counted batch => exact canReturn_of_counted hstage
  | returned batch failure =>
    exact ⟨[], c, (batch, failure), rfl, by rw [result?, hstage], by simp⟩

end Cycle

end NodeScrape
