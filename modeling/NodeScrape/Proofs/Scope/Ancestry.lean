import Mathlib.Logic.Relation
import NodeScrape.Proofs.List.Places
import NodeScrape.Scope.Forest

/-!
# Scopes and their ancestors

What was done with scopes is told without their tokens and deadlines: how each one came to be, and
which ones were canceled. From that tale alone a scope's deadline is the earliest that was asked for
on the way to it, and it is canceled exactly if it, an ancestor or a copy of one of them was.
-/

namespace NodeScrape

/-- How a scope came to be; scopes are named by their number. -/
inductive Origin where
  | root
  /-- It was derived from a scope, to end at a deadline. -/
  | derived (of : Nat) (deadline : Instant)
  | copied (of : Nat)

/-- Whether a scope is a copy of another. -/
def Origin.isCopy : Origin → Bool
  | copied _ => true
  | _ => false

/-- What was done with scopes. -/
structure Genealogy where
  now : Instant := 0
  /-- How the scopes came to be, in their order. -/
  origins : List Origin := []
  /-- The scopes that were canceled. -/
  cancels : List Nat := []

namespace Genealogy

/-- Notes a further scope. -/
def add (g : Genealogy) (o : Origin) : Genealogy := { g with origins := g.origins ++ [o] }

/-- Notes what is done to a scope, if there is one of that number. -/
def about (g : Genealogy) (n : Nat) (noted : Genealogy) : Genealogy :=
  if n < g.origins.length then noted else g

/-- Notes an action. A length of time counts from the moment of the action. -/
def note (g : Genealogy) : Forest.Action → Genealogy
  | .root => g.add .root
  | .timeout n length => g.about n (g.add (.derived n (g.now + length)))
  | .deadline n time => g.about n (g.add (.derived n time))
  | .copy n => g.about n (g.add (.copied n))
  | .cancel n => g.about n { g with cancels := n :: g.cancels }
  | .pass length => { g with now := g.now + length }

/-- A deadline that was asked for on the way from a root to a scope. -/
inductive Requested (g : Genealogy) : Nat → Instant → Prop where
  | own {n p : Nat} {d : Instant} (origin : g.origins[n]? = some (.derived p d)) : g.Requested n d
  | inherited {n p : Nat} {d e : Instant} (origin : g.origins[n]? = some (.derived p d))
    (parent : g.Requested p e) : g.Requested n e
  | copied {n p : Nat} {e : Instant} (origin : g.origins[n]? = some (.copied p))
    (original : g.Requested p e) : g.Requested n e

/-- Two scopes are copies of each other, directly or through further ones, or the same. -/
def Shares (g : Genealogy) : Nat → Nat → Prop :=
  Relation.EqvGen fun m n => g.origins[n]? = some (.copied m)

/-- The scope that another was derived from; a copy comes from the same as its original. -/
inductive Parent (g : Genealogy) : Nat → Nat → Prop where
  | derived {p n : Nat} {d : Instant} (origin : g.origins[n]? = some (.derived p d)) : g.Parent p n
  | copied {p m n : Nat} (origin : g.origins[n]? = some (.copied m)) (original : g.Parent p m) :
    g.Parent p n

/-- A scope above another. -/
def Ancestor (g : Genealogy) : Nat → Nat → Prop := Relation.TransGen g.Parent

/-- A scope lies within another: it, or an ancestor of it, is a copy of that one or the same. -/
def Within (g : Genealogy) (c n : Nat) : Prop := ∃ a, (a = n ∨ g.Ancestor a n) ∧ g.Shares c a

end Genealogy

theorem earlier_some (l d : Instant) : earlier (some l) d = min l d := by
  show (if l < d then l else d) = min l d
  by_cases hlt : l < d
  · rw [if_pos hlt, Nat.min_eq_left (Nat.le_of_lt hlt)]
  · rw [if_neg hlt, Nat.min_eq_right (Nat.le_of_not_lt hlt)]

theorem earlier_none (d : Instant) : earlier none d = d := rfl

/-- A scope is what its origin makes of the scopes before it. -/
def Scope.Fits (scopes : List Scope) (n : Nat) (s : Scope) : Origin → Prop
  | .root => ∃ token, s = ⟨[token], none⟩
  | .derived p d => p < n ∧ ∃ parent token, scopes[p]? = some parent ∧
      s = ⟨token :: parent.lineage, some (earlier parent.deadline d)⟩
  | .copied p => p < n ∧ scopes[p]? = some s

/-- A genealogy tells the tale of a forest. -/
structure Genealogy.Tells (g : Genealogy) (f : Forest) : Prop where
  now : g.now = f.now
  length : g.origins.length = f.scopes.length
  fits : ∀ (n : Nat) (o : Origin) (s : Scope), g.origins[n]? = some o → f.scopes[n]? = some s →
    s.Fits f.scopes n o
  /-- Tokens are handed out in order. -/
  token_lt : ∀ (n : Nat) (s : Scope), f.scopes[n]? = some s → ∀ token ∈ s.lineage, token < f.tokens
  /-- Only copies share a token. -/
  token_inj : ∀ (m n : Nat) (o o' : Origin) (s s' : Scope), g.origins[m]? = some o →
    g.origins[n]? = some o' →
    o.isCopy = false → o'.isCopy = false → f.scopes[m]? = some s → f.scopes[n]? = some s' →
    s.lineage.head? = s'.lineage.head? → m = n
  cancels_lt : ∀ c ∈ g.cancels, c < f.scopes.length
  canceled : ∀ token, token ∈ f.canceled ↔
    ∃ c ∈ g.cancels, ∃ s, f.scopes[c]? = some s ∧ s.lineage.head? = some token

/-- What fits among scopes still fits once there are further ones. -/
theorem Scope.Fits.concat {scopes : List Scope} {n : Nat} {s : Scope} {o : Origin}
    (h : s.Fits scopes n o) (further : Scope) : s.Fits (scopes ++ [further]) n o := by
  cases o with
  | root => exact h
  | derived p d =>
    obtain ⟨hlt, parent, token, hparent, rfl⟩ := h
    exact ⟨hlt, parent, token, getElem?_concat_eq_some.mpr (.inl hparent), rfl⟩
  | copied p => exact ⟨h.1, getElem?_concat_eq_some.mpr (.inl h.2)⟩

namespace Genealogy

variable {g : Genealogy} {f : Forest} {m n c p : Nat} {s s' : Scope} {o : Origin} {d e : Instant}
  {token : Nat}

theorem tells_start : Tells {} {} where
  now := rfl
  length := rfl
  fits := nofun
  token_lt := nofun
  token_inj := nofun
  cancels_lt := nofun
  canceled token := by
    constructor
    · intro h
      cases h
    · rintro ⟨c, h, -⟩
      cases h

/-- A scope is handed out, with a token of its own unless it is a copy. -/
theorem Tells.add (h : g.Tells f) {tokens : Nat} (hle : f.tokens ≤ tokens)
    (hfits : s.Fits f.scopes f.scopes.length o)
    (hown : o.isCopy = false → s.lineage.head? = some f.tokens)
    (htokens : ∀ token ∈ s.lineage, token < tokens) :
    (g.add o).Tells ({ f with tokens := tokens }.add s) where
  now := h.now
  length := by
    show (g.origins ++ [o]).length = (f.scopes ++ [s]).length
    rw [List.length_append, List.length_append, h.length]
    rfl
  fits n o' s' ho hs := by
    rcases getElem?_concat_both h.length ho hs with ⟨ho, hs⟩ | ⟨hn, rfl, rfl⟩
    · exact (h.fits n o' s' ho hs).concat s
    · rw [hn]
      exact hfits.concat s
  token_lt n s' hs token htoken := by
    rcases getElem?_concat_eq_some.mp hs with hs | ⟨-, rfl⟩
    · exact Nat.lt_of_lt_of_le (h.token_lt n s' hs token htoken) hle
    · exact htokens token htoken
  token_inj m n o₁ o₂ s₁ s₂ ho₁ ho₂ hown₁ hown₂ hs₁ hs₂ heq := by
    -- The token of the new scope is above all others.
    have hnew {k : Nat} {s' : Scope} (hs' : f.scopes[k]? = some s') :
        s'.lineage.head? ≠ some f.tokens := by
      intro hhead
      exact absurd (h.token_lt k s' hs' _ (List.mem_of_mem_head? hhead)) (Nat.lt_irrefl _)
    rcases getElem?_concat_both h.length ho₁ hs₁ with ⟨ho₁, hs₁⟩ | ⟨hm, rfl, rfl⟩
    · rcases getElem?_concat_both h.length ho₂ hs₂ with ⟨ho₂, hs₂⟩ | ⟨-, rfl, rfl⟩
      · exact h.token_inj m n o₁ o₂ s₁ s₂ ho₁ ho₂ hown₁ hown₂ hs₁ hs₂ heq
      · exact absurd (heq.trans (hown hown₂)) (hnew hs₁)
    · rcases getElem?_concat_both h.length ho₂ hs₂ with ⟨-, hs₂⟩ | ⟨hn, -, -⟩
      · exact absurd (heq.symm.trans (hown hown₁)) (hnew hs₂)
      · rw [hm, hn]
  cancels_lt c hc := by
    have hlt := h.cancels_lt c hc
    show c < (f.scopes ++ [s]).length
    rw [List.length_append]
    omega
  canceled token := by
    refine (h.canceled token).trans ?_
    constructor
    · rintro ⟨c, hc, s', hs', hhead⟩
      exact ⟨c, hc, s', getElem?_concat_eq_some.mpr (.inl hs'), hhead⟩
    · rintro ⟨c, hc, s', hs', hhead⟩
      rcases getElem?_concat_eq_some.mp hs' with hs' | ⟨hn, -⟩
      · exact ⟨c, hc, s', hs', hhead⟩
      · exact absurd hn (Nat.ne_of_lt (h.cancels_lt c hc))

theorem Tells.root (h : g.Tells f) : (g.add .root).Tells f.root := by
  refine h.add (Nat.le_succ _) ⟨f.tokens, rfl⟩ (fun _ => rfl) ?_
  intro token htoken
  rw [List.mem_singleton.mp htoken]
  exact Nat.lt_succ_self _

theorem Tells.derive (h : g.Tells f) (hs : f.scopes[p]? = some s) (d : Instant) :
    (g.add (.derived p d)).Tells (f.derive s d) := by
  obtain ⟨hlt, -⟩ := List.getElem?_eq_some_iff.mp hs
  refine h.add (Nat.le_succ _) ⟨hlt, s, f.tokens, hs, rfl⟩ (fun _ => rfl) ?_
  intro token htoken
  rcases List.mem_cons.mp htoken with rfl | htoken
  · exact Nat.lt_succ_self _
  · exact Nat.lt_succ_of_lt (h.token_lt p s hs token htoken)

theorem Tells.copy (h : g.Tells f) (hs : f.scopes[p]? = some s) :
    (g.add (.copied p)).Tells (f.add s) :=
  h.add (Nat.le_refl _) ⟨(List.getElem?_eq_some_iff.mp hs).1, hs⟩ nofun (h.token_lt p s hs)

theorem Tells.cancel (h : g.Tells f) (hs : f.scopes[c]? = some s) :
    Tells { g with cancels := c :: g.cancels } (f.cancel s) where
  now := h.now
  length := h.length
  fits := h.fits
  token_lt := h.token_lt
  token_inj := h.token_inj
  cancels_lt c' hc := by
    rcases List.mem_cons.mp hc with rfl | hc
    · exact (List.getElem?_eq_some_iff.mp hs).1
    · exact h.cancels_lt c' hc
  canceled token := by
    have hown : token ∈ s.lineage.take 1 ↔ s.lineage.head? = some token := by
      cases s.lineage with
      | nil => simp
      | cons own rest => simp [eq_comm]
    show token ∈ s.lineage.take 1 ++ f.canceled ↔ _
    rw [List.mem_append, hown, h.canceled]
    constructor
    · rintro (hhead | ⟨c', hc, s', hs', hhead⟩)
      · exact ⟨c, List.mem_cons_self, s, hs, hhead⟩
      · exact ⟨c', List.mem_cons_of_mem _ hc, s', hs', hhead⟩
    · rintro ⟨c', hc, s', hs', hhead⟩
      rcases List.mem_cons.mp hc with rfl | hc
      · obtain rfl : s = s' := Option.some.inj (hs.symm.trans hs')
        exact .inl hhead
      · exact .inr ⟨c', hc, s', hs', hhead⟩

theorem Tells.pass (h : g.Tells f) (length : Duration) :
    Tells { g with now := g.now + length } { f with now := f.now + length } where
  now := congrArg (· + length) h.now
  length := h.length
  fits := h.fits
  token_lt := h.token_lt
  token_inj := h.token_inj
  cancels_lt := h.cancels_lt
  canceled := h.canceled

theorem Tells.about (h : g.Tells f) {noted : Genealogy} {done : Scope → Forest}
    (hs : ∀ s, f.scopes[n]? = some s → noted.Tells (done s)) :
    (g.about n noted).Tells (match f.scopes[n]? with
      | some s => done s
      | none => f) := by
  unfold Genealogy.about
  cases hscope : f.scopes[n]? with
  | none =>
    have hle : ¬ n < g.origins.length := by
      rw [h.length]
      exact Nat.not_lt.mpr (List.getElem?_eq_none_iff.mp hscope)
    rw [if_neg hle]
    exact h
  | some s =>
    rw [if_pos (h.length ▸ (List.getElem?_eq_some_iff.mp hscope).1)]
    exact hs s hscope

/-- Every action is told as it happens. -/
theorem Tells.step (h : g.Tells f) (a : Forest.Action) : (g.note a).Tells (f.apply a) := by
  cases a with
  | root => exact h.root
  | timeout n length =>
    refine h.about fun s hs => ?_
    rw [h.now]
    exact h.derive hs _
  | deadline n time => exact h.about fun s hs => h.derive hs time
  | copy n => exact h.about fun s hs => h.copy hs
  | cancel n => exact h.about fun s hs => h.cancel hs
  | pass length => exact h.pass length

/-- Whatever was done with scopes is told. -/
theorem Tells.run (h : g.Tells f) (actions : List Forest.Action) :
    (actions.foldl note g).Tells (actions.foldl Forest.apply f) := by
  induction actions generalizing g f with
  | nil => exact h
  | cons a rest ih => exact ih (h.step a)

theorem Tells.exists_scope (h : g.Tells f) (ho : g.origins[n]? = some o) :
    ∃ s, f.scopes[n]? = some s ∧ s.Fits f.scopes n o := by
  have hlt : n < f.scopes.length := by
    rw [← h.length]
    exact (List.getElem?_eq_some_iff.mp ho).1
  have hs := List.getElem?_eq_getElem hlt
  exact ⟨_, hs, h.fits n o _ ho hs⟩

theorem Tells.exists_origin (h : g.Tells f) (hs : f.scopes[n]? = some s) :
    ∃ o, g.origins[n]? = some o ∧ s.Fits f.scopes n o := by
  have hlt : n < g.origins.length := by
    rw [h.length]
    exact (List.getElem?_eq_some_iff.mp hs).1
  have ho := List.getElem?_eq_getElem hlt
  exact ⟨_, ho, h.fits n _ s ho hs⟩

/-- A scope ends no later than asked for on the way to it. -/
theorem Tells.le_of_requested (h : g.Tells f) (hr : g.Requested n e)
    (hs : f.scopes[n]? = some s) : ∃ d, s.deadline = some d ∧ d ≤ e := by
  induction hr generalizing s with
  | @own n p d ho =>
    obtain ⟨-, parent, token, -, rfl⟩ := h.fits _ _ _ ho hs
    refine ⟨_, rfl, ?_⟩
    cases parent.deadline with
    | none => exact Nat.le_refl _
    | some l => exact earlier_some l d ▸ Nat.min_le_right l d
  | @inherited n p d e ho hparent ih =>
    obtain ⟨-, parent, token, hp, rfl⟩ := h.fits _ _ _ ho hs
    obtain ⟨l, hl, hle⟩ := ih hp
    refine ⟨_, rfl, ?_⟩
    rw [hl, earlier_some]
    exact Nat.le_trans (Nat.min_le_left l d) hle
  | copied ho horiginal ih =>
    obtain ⟨-, hp⟩ := h.fits _ _ _ ho hs
    exact ih hp

/-- A scope ends at a time that was asked for on the way to it. -/
theorem Tells.requested_of_deadline (h : g.Tells f) (hs : f.scopes[n]? = some s)
    (hd : s.deadline = some d) : g.Requested n d := by
  induction n using Nat.strongRecOn generalizing s d with
  | _ n ih =>
    obtain ⟨o, ho, hfits⟩ := h.exists_origin hs
    cases o with
    | root =>
      obtain ⟨token, rfl⟩ := hfits
      cases hd
    | derived p asked =>
      obtain ⟨hlt, parent, token, hp, rfl⟩ := hfits
      cases hl : parent.deadline with
      | none =>
        rw [hl, earlier_none] at hd
        obtain rfl := Option.some.inj hd
        exact .own ho
      | some l =>
        rw [hl, earlier_some] at hd
        obtain rfl := Option.some.inj hd
        rcases Nat.le_total l asked with hle | hle
        · rw [Nat.min_eq_left hle]
          exact .inherited ho (ih p hlt hp hl)
        · rw [Nat.min_eq_right hle]
          exact .own ho
    | copied p => exact .copied ho (ih p hfits.1 hfits.2 hd)

/-- A scope ends at the first of the times that were asked for on the way to it. -/
theorem Tells.deadline_eq_some_iff (h : g.Tells f) (hs : f.scopes[n]? = some s) (d : Nat) :
    s.deadline = some d ↔ g.Requested n d ∧ ∀ e, g.Requested n e → d ≤ e := by
  constructor
  · intro hd
    refine ⟨h.requested_of_deadline hs hd, ?_⟩
    intro e he
    obtain ⟨d', hd', hle⟩ := h.le_of_requested he hs
    obtain rfl := Option.some.inj (hd.symm.trans hd')
    exact hle
  · rintro ⟨hd, hleast⟩
    obtain ⟨d', hd', hle⟩ := h.le_of_requested hd hs
    have hle' := hleast d' (h.requested_of_deadline hs hd')
    rw [hd', Nat.le_antisymm hle hle']

/-- A scope has no end if none was asked for on the way to it. -/
theorem Tells.deadline_eq_none_iff (h : g.Tells f) (hs : f.scopes[n]? = some s) :
    s.deadline = none ↔ ∀ d, ¬ g.Requested n d := by
  constructor
  · intro hnone d hd
    obtain ⟨d', hd', -⟩ := h.le_of_requested hd hs
    rw [hnone] at hd'
    cases hd'
  · intro hnone
    cases hd : s.deadline with
    | none => rfl
    | some d => exact absurd (h.requested_of_deadline hs hd) (hnone d)

/-- Copies are alike. -/
theorem Tells.scope_of_shares (h : g.Tells f) (hm : g.Shares m n) :
    f.scopes[m]? = f.scopes[n]? := by
  induction hm with
  | rel m n ho =>
    obtain ⟨s, hs, -, hp⟩ := h.exists_scope ho
    rw [hs, hp]
  | refl => rfl
  | symm m n _ ih => exact ih.symm
  | trans m k n _ _ ih₁ ih₂ => exact ih₁.trans ih₂

/-- Every scope shares with one that has a token of its own. -/
theorem Tells.exists_original (h : g.Tells f) (hs : f.scopes[n]? = some s) :
    ∃ m o, g.Shares m n ∧ g.origins[m]? = some o ∧ o.isCopy = false := by
  induction n using Nat.strongRecOn generalizing s with
  | _ n ih =>
    obtain ⟨o, ho, hfits⟩ := h.exists_origin hs
    cases o with
    | copied p =>
      obtain ⟨m, o, hshares, horigin, hown⟩ := ih p hfits.1 hfits.2
      exact ⟨m, o, hshares.trans _ _ _ (.rel _ _ ho), horigin, hown⟩
    | root => exact ⟨n, _, .refl n, ho, rfl⟩
    | derived p d => exact ⟨n, _, .refl n, ho, rfl⟩

/-- Scopes of one token are copies of each other. -/
theorem Tells.shares_of_head (h : g.Tells f) (hm : f.scopes[m]? = some s)
    (hn : f.scopes[n]? = some s') (hhead : s.lineage.head? = s'.lineage.head?) :
    g.Shares m n := by
  obtain ⟨m', o, hsm, hom, hown⟩ := h.exists_original hm
  obtain ⟨n', o', hsn, hon, hown'⟩ := h.exists_original hn
  have hm' : f.scopes[m']? = some s := (h.scope_of_shares hsm).trans hm
  have hn' : f.scopes[n']? = some s' := (h.scope_of_shares hsn).trans hn
  obtain rfl := h.token_inj m' n' o o' s s' hom hon hown hown' hm' hn' hhead
  exact (hsm.symm _ _).trans _ _ _ hsn

/-- The tokens of a scope are its own and then those of the scope that it was derived from, if there
is one. -/
theorem Tells.lineage_eq (h : g.Tells f) (hs : f.scopes[n]? = some s) :
    ∃ token rest, s.lineage = token :: rest ∧ (rest = [] ∨
      ∃ p parent, g.Parent p n ∧ f.scopes[p]? = some parent ∧ parent.lineage = rest) := by
  induction n using Nat.strongRecOn generalizing s with
  | _ n ih =>
    obtain ⟨o, ho, hfits⟩ := h.exists_origin hs
    cases o with
    | root =>
      obtain ⟨token, rfl⟩ := hfits
      exact ⟨token, [], rfl, .inl rfl⟩
    | derived p d =>
      obtain ⟨-, parent, token, hp, rfl⟩ := hfits
      exact ⟨token, parent.lineage, rfl, .inr ⟨p, parent, .derived ho, hp, rfl⟩⟩
    | copied m =>
      obtain ⟨token, rest, heq, hrest⟩ := ih m hfits.1 hfits.2
      refine ⟨token, rest, heq, hrest.imp_right ?_⟩
      rintro ⟨p, parent, hparent, hp, hlineage⟩
      exact ⟨p, parent, .copied ho hparent, hp, hlineage⟩

theorem Tells.of_parent (h : g.Tells f) (hp : g.Parent p n) (hs : f.scopes[n]? = some s) :
    ∃ parent token, f.scopes[p]? = some parent ∧ s.lineage = token :: parent.lineage ∧
      ∀ d, parent.deadline = some d → ∃ e, s.deadline = some e ∧ e ≤ d := by
  induction hp generalizing s with
  | derived ho =>
    obtain ⟨-, parent, token, hparent, rfl⟩ := h.fits _ _ _ ho hs
    refine ⟨parent, token, hparent, rfl, fun l hl => ⟨_, rfl, ?_⟩⟩
    rw [hl, earlier_some]
    exact Nat.min_le_left _ _
  | copied ho _ ih =>
    obtain ⟨-, hm⟩ := h.fits _ _ _ ho hs
    exact ih hm

/-- An ancestor's tokens end those of a scope, and the scope ends no later than it. -/
theorem Tells.of_ancestor (h : g.Tells f) (ha : g.Ancestor m n) (hs : f.scopes[n]? = some s) :
    ∃ ancestor, f.scopes[m]? = some ancestor ∧ ancestor.lineage <:+ s.lineage ∧
      ancestor.lineage.length < s.lineage.length ∧
      ∀ d, ancestor.deadline = some d → ∃ e, s.deadline = some e ∧ e ≤ d := by
  induction ha generalizing s with
  | single hp =>
    obtain ⟨parent, token, hparent, hlineage, hdeadline⟩ := h.of_parent hp hs
    rw [hlineage]
    exact ⟨parent, hparent, List.suffix_cons _ _, Nat.lt_succ_self _, hdeadline⟩
  | tail _ hp ih =>
    obtain ⟨parent, token, hparent, hlineage, hdeadline⟩ := h.of_parent hp hs
    obtain ⟨ancestor, hancestor, hsuffix, hlt, hbefore⟩ := ih hparent
    rw [hlineage]
    refine ⟨ancestor, hancestor, hsuffix.trans (List.suffix_cons _ _),
      Nat.lt_succ_of_lt hlt, fun d hd => ?_⟩
    obtain ⟨e, he, hle⟩ := hbefore d hd
    obtain ⟨e', he', hle'⟩ := hdeadline e he
    exact ⟨e', he', Nat.le_trans hle' hle⟩

/-- A scope whose token is among those of another has that one within it. -/
theorem Tells.within_of_mem (h : g.Tells f) (hc : f.scopes[c]? = some s)
    (hhead : s.lineage.head? = some token) (hn : f.scopes[n]? = some s')
    (hmem : token ∈ s'.lineage) : g.Within c n := by
  induction hl : s'.lineage generalizing n s' with
  | nil =>
    rw [hl] at hmem
    cases hmem
  | cons own rest ih =>
    obtain ⟨own', rest', heq, hrest⟩ := h.lineage_eq hn
    obtain ⟨rfl, rfl⟩ := List.cons.inj (hl.symm.trans heq)
    rw [hl] at hmem
    rcases List.mem_cons.mp hmem with rfl | hmem
    · have hsame : s.lineage.head? = s'.lineage.head? := by rw [hhead, hl, List.head?_cons]
      exact ⟨n, .inl rfl, h.shares_of_head hc hn hsame⟩
    · rcases hrest with rfl | ⟨p, parent, hparent, hp, rfl⟩
      · cases hmem
      · obtain ⟨a, ha, hshares⟩ := ih hp hmem rfl
        refine ⟨a, .inr ?_, hshares⟩
        rcases ha with rfl | ha
        · exact .single hparent
        · exact .tail ha hparent

/-- The tokens of a scope end those of every scope within it. -/
theorem Tells.suffix_of_within (h : g.Tells f) (hc : f.scopes[c]? = some s)
    (hn : f.scopes[n]? = some s') (hw : g.Within c n) : s.lineage <:+ s'.lineage := by
  obtain ⟨a, ha, hshares⟩ := hw
  have hsame := h.scope_of_shares hshares
  rcases ha with rfl | ha
  · obtain rfl := Option.some.inj (hc.symm.trans (hsame.trans hn))
    exact List.suffix_rfl
  · obtain ⟨ancestor, hancestor, hsuffix, -, -⟩ := h.of_ancestor ha hn
    obtain rfl := Option.some.inj (hc.symm.trans (hsame.trans hancestor))
    exact hsuffix

/-- A scope lies within another exactly if it has its token. -/
theorem Tells.within_iff_mem (h : g.Tells f) (hc : f.scopes[c]? = some s)
    (hhead : s.lineage.head? = some token) (hn : f.scopes[n]? = some s') :
    g.Within c n ↔ token ∈ s'.lineage := by
  constructor
  · intro hw
    exact (h.suffix_of_within hc hn hw).subset (List.mem_of_mem_head? hhead)
  · exact h.within_of_mem hc hhead hn

/-- A scope is canceled exactly if it lies within one that was. -/
theorem Tells.isCanceled_iff (h : g.Tells f) (hs : f.scopes[n]? = some s) :
    f.isCanceled s = true ↔ ∃ c ∈ g.cancels, g.Within c n := by
  unfold Forest.isCanceled
  rw [List.any_eq_true]
  constructor
  · rintro ⟨token, hmem, hcanceled⟩
    obtain ⟨c, hc, sc, hsc, hhead⟩ := (h.canceled token).mp (of_decide_eq_true hcanceled)
    exact ⟨c, hc, (h.within_iff_mem hsc hhead hs).mpr hmem⟩
  · rintro ⟨c, hc, hw⟩
    obtain ⟨sc, hsc⟩ : ∃ sc, f.scopes[c]? = some sc :=
      ⟨_, List.getElem?_eq_getElem (h.cancels_lt c hc)⟩
    obtain ⟨token, rest, heq, -⟩ := h.lineage_eq hsc
    have hhead : sc.lineage.head? = some token := by rw [heq, List.head?_cons]
    refine ⟨token, (h.within_iff_mem hsc hhead hs).mp hw, decide_eq_true ?_⟩
    exact (h.canceled token).mpr ⟨c, hc, sc, hsc, hhead⟩

/-- Canceling a scope cancels what lies within it and nothing else. -/
theorem Tells.isCanceled_cancel (h : g.Tells f) (hc : f.scopes[c]? = some s)
    (hn : f.scopes[n]? = some s') :
    (f.cancel s).isCanceled s' = true ↔ f.isCanceled s' = true ∨ g.Within c n := by
  obtain ⟨token, rest, heq, -⟩ := h.lineage_eq hc
  have hhead : s.lineage.head? = some token := by rw [heq, List.head?_cons]
  rw [h.within_iff_mem hc hhead hn]
  unfold Forest.isCanceled Forest.cancel
  rw [heq]
  simp only [List.take_succ_cons, List.take_zero, List.any_eq_true, List.mem_append,
    List.mem_singleton, decide_eq_true_iff]
  constructor
  · rintro ⟨token', hmem, rfl | hcanceled⟩
    · exact .inr hmem
    · exact .inl ⟨token', hmem, hcanceled⟩
  · rintro (⟨token', hmem, hcanceled⟩ | hmem)
    · exact ⟨token', hmem, .inr hcanceled⟩
    · exact ⟨token, hmem, .inl rfl⟩

/-- No ancestor of a scope lies within it. -/
theorem Tells.not_within_of_ancestor (h : g.Tells f) (hs : f.scopes[n]? = some s)
    (ha : g.Ancestor m n) (hshares : g.Shares m p) : ¬ g.Within n p := by
  intro hw
  obtain ⟨ancestor, hancestor, -, hlt, -⟩ := h.of_ancestor ha hs
  have hp : f.scopes[p]? = some ancestor := (h.scope_of_shares hshares).symm.trans hancestor
  have hle := (h.suffix_of_within hs hp hw).length_le
  exact absurd hlt (Nat.not_lt.mpr hle)

/-- Scopes that were derived apart from the same scope do not lie within each other. -/
theorem Tells.not_within_of_sibling (h : g.Tells f) {q : Nat} (hs : f.scopes[n]? = some s)
    (hs' : f.scopes[m]? = some s') (hp : g.Parent p n) (hq : g.Parent q m)
    (hpq : g.Shares p q) (hapart : ¬ g.Shares n m) : ¬ g.Within n m := by
  intro hw
  obtain ⟨parent, token, hparent, hlineage, -⟩ := h.of_parent hp hs
  obtain ⟨parent', token', hparent', hlineage', -⟩ := h.of_parent hq hs'
  obtain rfl : parent = parent' :=
    Option.some.inj (hparent.symm.trans ((h.scope_of_shares hpq).trans hparent'))
  have hsuffix := h.suffix_of_within hs hs' hw
  have hlength : s.lineage.length = s'.lineage.length := by rw [hlineage, hlineage']; rfl
  have heq : s.lineage = s'.lineage := hsuffix.eq_of_length hlength
  exact hapart (h.shares_of_head hs hs' (congrArg List.head? heq))

end Genealogy

namespace Forest

variable {f : Forest} {s : Scope} {n : Nat}

/-- What an action leaves behind: no time is taken back, no cancellation, and no scope. -/
structure Follows (f f' : Forest) : Prop where
  now : f.now ≤ f'.now
  canceled : f.canceled ⊆ f'.canceled
  scopes : f.scopes <+: f'.scopes

theorem follows_refl (f : Forest) : Follows f f :=
  ⟨Nat.le_refl _, List.Subset.refl _, List.prefix_rfl⟩

theorem Follows.trans {f₁ f₂ f₃ : Forest} (h₁ : Follows f₁ f₂) (h₂ : Follows f₂ f₃) :
    Follows f₁ f₃ :=
  ⟨Nat.le_trans h₁.now h₂.now, List.Subset.trans h₁.canceled h₂.canceled, h₁.scopes.trans h₂.scopes⟩

theorem follows_apply (f : Forest) (a : Action) : Follows f (f.apply a) := by
  have hmatch (n : Nat) {done : Scope → Forest} (hdone : ∀ s, Follows f (done s)) :
      Follows f (match f.scopes[n]? with
        | some s => done s
        | none => f) := by
    cases f.scopes[n]? with
    | none => exact follows_refl f
    | some s => exact hdone s
  cases a with
  | root => exact ⟨Nat.le_refl _, List.Subset.refl _, List.prefix_append _ _⟩
  | timeout n length =>
    exact hmatch n fun s => ⟨Nat.le_refl _, List.Subset.refl _, List.prefix_append _ _⟩
  | deadline n time =>
    exact hmatch n fun s => ⟨Nat.le_refl _, List.Subset.refl _, List.prefix_append _ _⟩
  | copy n => exact hmatch n fun s => ⟨Nat.le_refl _, List.Subset.refl _, List.prefix_append _ _⟩
  | cancel n =>
    exact hmatch n fun s => ⟨Nat.le_refl _, List.subset_append_right _ _, List.prefix_rfl⟩
  | pass length => exact ⟨Nat.le_add_right _ _, List.Subset.refl _, List.prefix_rfl⟩

theorem follows_foldl (f : Forest) (actions : List Action) :
    Follows f (actions.foldl apply f) := by
  induction actions generalizing f with
  | nil => exact follows_refl f
  | cons a rest ih => exact (follows_apply f a).trans (ih (f.apply a))

/-- A scope that is done stays done. -/
theorem Follows.err {f' : Forest} (h : Follows f f') (hdone : f.err s ≠ none) :
    f'.err s ≠ none := by
  unfold Forest.err at hdone ⊢
  by_cases hcanceled' : f'.isCanceled s = true
  · rw [if_pos hcanceled']
    nofun
  · rw [if_neg hcanceled']
    by_cases hcanceled : f.isCanceled s = true
    · refine absurd ?_ hcanceled'
      obtain ⟨token, hmem, htoken⟩ := List.any_eq_true.mp hcanceled
      exact List.any_eq_true.mpr
        ⟨token, hmem, decide_eq_true (h.canceled (of_decide_eq_true htoken))⟩
    · rw [if_neg hcanceled] at hdone
      cases hd : s.deadline with
      | none => simp [hd] at hdone
      | some d =>
        by_cases hle : d ≤ f.now
        · have hle' : d ≤ f'.now := Nat.le_trans hle h.now
          simp [hle']
        · simp [hd, hle] at hdone

/-- Scopes of any forest, however they were derived, copied and canceled while time passed. A scope's
deadline is the earliest that was asked for on the way from its root to it, and it has none exactly
if none was asked for, so it never outlives an ancestor. It is canceled exactly if a scope was that
it lies within, be it derived before or after. To cancel it cancels what lies within it: neither an
ancestor nor a copy of one, nor a scope derived apart from the same one does, and no deadline
changes. Once it is done it stays done. -/
theorem ancestry_decides (actions : List Action) :
    let g := actions.foldl Genealogy.note {}
    let f := actions.foldl apply {}
    f.scopes.length = g.origins.length ∧ ∀ n s, f.scopes[n]? = some s →
      (∀ d, s.deadline = some d ↔ g.Requested n d ∧ ∀ e, g.Requested n e → d ≤ e) ∧
      (s.deadline = none ↔ ∀ d, ¬ g.Requested n d) ∧
      (∀ a, g.Ancestor a n → ∃ ancestor, f.scopes[a]? = some ancestor ∧
        ∀ d, ancestor.deadline = some d → ∃ e, s.deadline = some e ∧ e ≤ d) ∧
      (f.isCanceled s = true ↔ ∃ c ∈ g.cancels, g.Within c n) ∧
      (f.apply (.cancel n)).scopes = f.scopes ∧
      (∀ m other, f.scopes[m]? = some other →
        ((f.apply (.cancel n)).isCanceled other = true ↔
          f.isCanceled other = true ∨ g.Within n m)) ∧
      (∀ a m, g.Ancestor a n → g.Shares a m → ¬ g.Within n m) ∧
      (∀ p q m, g.Parent p n → g.Parent q m → g.Shares p q → ¬ g.Shares n m → ¬ g.Within n m) ∧
      ∀ more : List Action, (more.foldl apply f).scopes[n]? = some s ∧
        (f.err s ≠ none → (more.foldl apply f).err s ≠ none) := by
  intro g f
  have h : g.Tells f := Genealogy.tells_start.run actions
  refine ⟨h.length.symm, fun n s hs => ?_⟩
  have hcancel : f.apply (.cancel n) = f.cancel s := by
    simp only [apply, hs]
  refine ⟨h.deadline_eq_some_iff hs, h.deadline_eq_none_iff hs, fun a ha => ?_,
    h.isCanceled_iff hs, ?_, fun m other hm => ?_, fun a m ha hshares => ?_,
    fun p q m hp hq hpq hapart => ?_, fun more => ⟨?_, ?_⟩⟩
  · obtain ⟨ancestor, hancestor, -, -, hdeadline⟩ := h.of_ancestor ha hs
    exact ⟨ancestor, hancestor, hdeadline⟩
  · rw [hcancel]
    rfl
  · rw [hcancel]
    exact h.isCanceled_cancel hs hm
  · exact h.not_within_of_ancestor hs ha hshares
  · intro hw
    obtain ⟨c, hc⟩ : ∃ other, f.scopes[m]? = some other := by
      cases hq with
      | derived ho => exact (h.exists_scope ho).imp fun _ h => h.1
      | copied ho _ => exact (h.exists_scope ho).imp fun _ h => h.1
    exact h.not_within_of_sibling hs hc hp hq hpq hapart hw
  · obtain ⟨rest, hrest⟩ := (follows_foldl f more).scopes
    rw [← hrest, List.getElem?_append_left (List.getElem?_eq_some_iff.mp hs).1]
    exact hs
  · exact (follows_foldl f more).err

/-- A copy of a scope is canceled before a further scope is derived from the original. -/
theorem ancestry_decides_copied :
    let f :=
      [Action.root, .timeout 0 5, .copy 1, .deadline 2 9, .cancel 2, .timeout 1 1].foldl apply {}
    ∃ root late, f.scopes[0]? = some root ∧ f.scopes[4]? = some late ∧
      late.deadline = some 1 ∧ f.isCanceled late = true ∧
      (f.apply (.cancel 4)).isCanceled root = false ∧ (f.apply (.pass 100)).err late ≠ none := by
  intro f
  refine ⟨_, _, rfl, rfl, ?_⟩
  obtain ⟨-, -, -, hcanceled, -, hcancel, habove, -, hmore⟩ := (ancestry_decides
    [.root, .timeout 0 5, .copy 1, .deadline 2 9, .cancel 2, .timeout 1 1]).2 4 _ rfl
  refine ⟨rfl, ?_, ?_, ?_⟩
  · exact hcanceled.mpr ⟨2, List.mem_cons_self, 1, .inr (.single (.derived rfl)),
      .symm _ _ (.rel _ _ rfl)⟩
  · have hroot := habove 0 0 (.tail (.single (.derived rfl)) (.derived rfl)) (.refl 0)
    refine Bool.eq_false_iff.mpr fun htrue => ?_
    rcases (hcancel 0 _ rfl).mp htrue with hbefore | hwithin
    · exact absurd hbefore (by decide)
    · exact hroot hwithin
  · exact (hmore [.pass 100]).2 (by decide)

end Forest

end NodeScrape
