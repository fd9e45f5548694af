import Mathlib.Data.List.Basic
import NodeScrape.Kubelet.Client
import NodeScrape.Proofs.List.Places

/-!
# The preferred address

A preference list ranks kinds of addresses by where it names them first. The address of a node is
the first usable one of the best ranked kind of which it has one. Repeats in the list make no
difference, and a node without such an address fails with the kinds in the order of their ranks.
-/

namespace NodeScrape

/-! ## First occurrences -/

section First

variable {α β : Type} [DecidableEq α] {a : α}

/-- The distinct elements of a list, in the order in which they first occur. -/
structure FirstOccurrences (distinct l : List α) : Prop where
  mem_iff : ∀ a, a ∈ distinct ↔ a ∈ l
  ordered : distinct.Pairwise fun a b => l.idxOf a < l.idxOf b

theorem mem_dedupFrom {seen l : List α} : a ∈ dedupFrom seen l ↔ a ∈ l ∧ a ∉ seen := by
  induction l generalizing seen with
  | nil => simp [dedupFrom]
  | cons b rest ih =>
    rw [dedupFrom]
    by_cases hb : b ∈ seen
    · rw [if_pos hb, ih, List.mem_cons]
      constructor
      · exact fun ⟨hrest, hseen⟩ => ⟨.inr hrest, hseen⟩
      · rintro ⟨rfl | hrest, hseen⟩
        · exact absurd hb hseen
        · exact ⟨hrest, hseen⟩
    · rw [if_neg hb, List.mem_cons, ih, List.mem_cons, List.mem_cons, not_or]
      by_cases hab : a = b
      · subst hab
        simpa using hb
      · simp [hab]

/-- What was seen before does not stay, so an element in front does not move the ranks of those that
do apart. -/
theorem pairwise_dedupFrom (seen l : List α) :
    (dedupFrom seen l).Pairwise fun a b => l.idxOf a < l.idxOf b := by
  induction l generalizing seen with
  | nil => exact List.Pairwise.nil
  | cons b rest ih =>
    have hshift (seen : List α) (hb : b ∈ seen) :
        (dedupFrom seen rest).Pairwise fun a c => (b :: rest).idxOf a < (b :: rest).idxOf c := by
      refine (ih seen).imp_of_mem fun {a c} ha hc hlt => ?_
      have hne {x : α} (hx : x ∈ dedupFrom seen rest) : b ≠ x := fun h =>
        (mem_dedupFrom.mp hx).2 (h ▸ hb)
      rw [List.idxOf_cons_ne rest (hne ha), List.idxOf_cons_ne rest (hne hc)]
      exact Nat.succ_lt_succ hlt
    rw [dedupFrom]
    by_cases hb : b ∈ seen
    · rw [if_pos hb]
      exact hshift seen hb
    · rw [if_neg hb]
      refine List.pairwise_cons.mpr ⟨fun c hc => ?_, hshift _ List.mem_cons_self⟩
      have hne : b ≠ c := fun h => (mem_dedupFrom.mp hc).2 (h ▸ List.mem_cons_self)
      rw [List.idxOf_cons_self, List.idxOf_cons_ne rest hne]
      exact Nat.succ_pos _

/-- A search finds the same with and without repeats, if it finds nothing in what was seen. -/
theorem findSome?_dedupFrom {f : α → Option β} {seen : List α} (l : List α)
    (hseen : ∀ a ∈ seen, f a = none) : (dedupFrom seen l).findSome? f = l.findSome? f := by
  induction l generalizing seen with
  | nil => rfl
  | cons b rest ih =>
    rw [dedupFrom, List.findSome?_cons]
    by_cases hb : b ∈ seen
    · rw [if_pos hb, hseen b hb]
      exact ih hseen
    · rw [if_neg hb, List.findSome?_cons]
      cases hf : f b with
      | some found => rfl
      | none => exact ih fun a ha => (List.mem_cons.mp ha).elim (fun h => h ▸ hf) (hseen a)

end First

/-! ## Addresses -/

/-- Whether a node has an address of a kind that is not empty. -/
def Node.Has (node : Node) (kind : AddressKind) : Prop :=
  ∃ a ∈ node.addresses, a.kind = kind ∧ a.address ≠ ""

/-- An address that is not empty and the first such of its kind, in the order of the node. -/
def Node.HasFirst (node : Node) (kind : AddressKind) (address : String) : Prop :=
  address ≠ "" ∧ ∃ before after, node.addresses = before ++ ⟨kind, address⟩ :: after ∧
    ∀ a ∈ before, a.kind = kind → a.address = ""

/-- The first address of the kind that a list names earliest among the kinds that the node has. -/
def Node.Prefers (node : Node) (kinds : List AddressKind) (address : String) : Prop :=
  ∃ kind ∈ kinds, node.HasFirst kind address ∧
    ∀ other ∈ kinds, node.Has other → kinds.idxOf kind ≤ kinds.idxOf other

namespace AddressPreference

variable {node : Node} {kind : AddressKind} {address : String}

theorem firstOf_eq_none_iff : firstOf node kind = none ↔ ¬ node.Has kind := by
  rw [firstOf, Option.map_eq_none_iff, List.find?_eq_none, Node.Has]
  simp only [Bool.and_eq_true, decide_eq_true_eq, Bool.not_eq_true', String.isEmpty_eq_false_iff,
    not_exists, not_and]

theorem firstOf_eq_some_iff : firstOf node kind = some address ↔ node.HasFirst kind address := by
  have hskipped (a : NodeAddress) : (!(decide (a.kind = kind) && !a.address.isEmpty)) = true ↔
      (a.kind = kind → a.address = "") := by
    by_cases hkind : a.kind = kind <;> simp [hkind]
  rw [firstOf, Option.map_eq_some_iff, Node.HasFirst]
  simp only [List.find?_eq_some_iff_append, hskipped]
  constructor
  · rintro ⟨⟨_, _⟩, ⟨husable, before, after, haddresses, hbefore⟩, rfl⟩
    simp only [Bool.and_eq_true, decide_eq_true_eq, Bool.not_eq_true',
      String.isEmpty_eq_false_iff] at husable
    obtain ⟨rfl, hne⟩ := husable
    exact ⟨hne, before, after, haddresses, hbefore⟩
  · rintro ⟨hne, before, after, haddresses, hbefore⟩
    exact ⟨⟨kind, address⟩, ⟨by simpa using hne, before, after, haddresses, hbefore⟩, rfl⟩

/-- Repeats count for nothing. -/
theorem choose?_ofList (kinds : List AddressKind) (node : Node) :
    (ofList kinds).choose? node = choose? ⟨kinds⟩ node :=
  findSome?_dedupFrom kinds fun _ h => absurd h List.not_mem_nil

theorem firstOccurrences_ofList (kinds : List AddressKind) :
    FirstOccurrences (ofList kinds).kinds kinds where
  mem_iff _ := mem_dedupFrom.trans (and_iff_left List.not_mem_nil)
  ordered := pairwise_dedupFrom [] kinds

theorem choose?_eq_some_iff (kinds : List AddressKind) :
    choose? ⟨kinds⟩ node = some address ↔ node.Prefers kinds address := by
  rw [choose?, findSome?_eq_some_iff_idxOf, Node.Prefers]
  simp only [firstOf_eq_some_iff, Ne, firstOf_eq_none_iff, not_not]

theorem choose?_eq_none_iff (kinds : List AddressKind) :
    choose? ⟨kinds⟩ node = none ↔ ∀ a ∈ node.addresses, a.address ≠ "" → a.kind ∉ kinds := by
  rw [choose?, List.findSome?_eq_none_iff]
  simp only [firstOf_eq_none_iff, Node.Has, not_exists, not_and]
  constructor
  · exact fun h a ha hne hkind => h a.kind hkind a ha rfl hne
  · exact fun h kind hkind a ha heq hne => h a ha hne (heq ▸ hkind)

/-- Of the kinds of which a node has a usable address, the one that the list names earliest is
taken, and of that kind the address that the node has first. The list may as well be searched with
its repeats. The node fails exactly if it has no usable address of a kind that is listed, and then
it names the listed kinds, each where it occurs first. -/
theorem chooses_earliest_kind (kinds : List AddressKind) (node : Node) :
    let preference := ofList kinds
    (∀ address, preference.choose? node = some address ↔ node.Prefers kinds address) ∧
    preference.choose? node = choose? ⟨kinds⟩ node ∧
    (preference.choose? node = none ↔
      ∀ a ∈ node.addresses, a.address ≠ "" → a.kind ∉ kinds) ∧
    FirstOccurrences preference.kinds kinds ∧
    ∀ (client : Kubelet.Client) (err : Option DoneReason) (start : Nat) (e : Ending)
      (network : Kubelet.Request → Kubelet.Exchange), client.preference = preference →
      preference.choose? node = none → client.fetch node err start e network =
        ⟨none, some (start, [.error (.noUsableAddress preference.kinds)])⟩ := by
  intro preference
  have hrepeats : preference.choose? node = choose? ⟨kinds⟩ node := choose?_ofList kinds node
  refine ⟨fun address => ?_, hrepeats, ?_, firstOccurrences_ofList kinds, ?_⟩
  · rw [hrepeats]
    exact choose?_eq_some_iff kinds
  · rw [hrepeats]
    exact choose?_eq_none_iff kinds
  · intro client err start e network hpreference hnone
    have hrequest : client.request? node = none := by
      rw [Kubelet.Client.request?, hpreference, hnone, Option.map_none]
    simp only [Kubelet.Client.fetch, hrequest, hpreference]

/-- A node that has only an empty address of a listed kind, and one of a kind that is not listed:
the kind that is listed twice is named once. -/
theorem chooses_earliest_kind_of_none :
    let kinds : List AddressKind := [.internalIP, .hostname, .internalIP]
    let node : Node := ⟨"a", [⟨.externalDNS, "a.example"⟩, ⟨.hostname, ""⟩], true, none⟩
    let client : Kubelet.Client := ⟨"https", 10250, ofList kinds, none⟩
    (ofList kinds).choose? node = none ∧
      client.fetch node (some .canceled) 3 {} (fun _ => .silent) =
        ⟨none, some (3, [.error (.noUsableAddress [.internalIP, .hostname])])⟩ := by
  intro kinds node client
  obtain ⟨-, -, hnone, -, hfetch⟩ := chooses_earliest_kind kinds node
  have hchoice : (ofList kinds).choose? node = none := hnone.mpr (by decide)
  exact ⟨hchoice, hfetch client (some .canceled) 3 {} (fun _ => .silent) rfl hchoice⟩

end AddressPreference

end NodeScrape
