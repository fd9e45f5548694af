import Mathlib.Logic.Relation
import NodeScrape.Proofs.Json.Members
import NodeScrape.Proofs.Json.Recognition
import NodeScrape.Proofs.Schema.Items

/-!
# What a reader looks at

A layout says which members a reader knows and what it expects below them. An edit changes a phrase
where the layout says nothing: it puts the members of a record in another order, or inserts one that
the record does not know. A reader that fits a layout does not notice such edits.
-/

namespace NodeScrape.Json

/-- What a reader looks at. -/
inductive Layout where
  /-- A value that is read as a whole. -/
  | leaf
  /-- A list, and what is looked at in each of its items. -/
  | list (item : Layout)
  /-- A record: its members, and what is looked at in their values. -/
  | record (known : List (String × Layout))

/-- One change of a phrase where a layout says nothing, at any depth. -/
inductive Edit : Layout → Phrase → Phrase → Prop where
  /-- The members of a record come in another order. -/
  | reorder {known : List (String × Layout)} {gap : Blanks}
      {members members' : List (Label × Phrase)} (hperm : members.Perm members') :
      Edit (.record known) (.object gap members) (.object gap members')
  /-- A record gets a member with a name that it does not know, and any value. -/
  | insert {known : List (String × Layout)} {gap : Blanks} {front back : List (Label × Phrase)}
      {label : Label} {name : String} (value : Phrase) (hname : label.name.token.read = .ok name)
      (hunknown : ∀ k ∈ known, k.1 ≠ name) :
      Edit (.record known) (.object gap (front ++ back))
        (.object gap (front ++ (label, value) :: back))
  /-- The value of a member that the record knows is edited. -/
  | member {known : List (String × Layout)} {gap : Blanks} {front back : List (Label × Phrase)}
      {label : Label} {name : String} {inner : Layout} {p q : Phrase}
      (hname : label.name.token.read = .ok name) (hknown : known.lookup name = some inner)
      (hedit : Edit inner p q) :
      Edit (.record known) (.object gap (front ++ (label, p) :: back))
        (.object gap (front ++ (label, q) :: back))
  /-- An item of a list is edited. -/
  | item {inner : Layout} {gap : Blanks} {front back : List (Margin × Phrase)} {margin : Margin}
      {p q : Phrase} (hedit : Edit inner p q) :
      Edit (.list inner) (.array gap (front ++ (margin, p) :: back))
        (.array gap (front ++ (margin, q) :: back))

variable {α β σ : Type}

/-- A reader looks at no more than its layout, and misses no fault. -/
structure Fits (layout : Layout) (read : Reader α) : Prop where
  skip : ∀ {v a}, read v = .ok a → v.skip = none
  edit : ∀ {p q a}, Edit layout p q → read p.tree = .ok a → read q.tree = .ok a

/-- A reader of whole values need only miss no fault. -/
theorem Fits.of_leaf {read : Reader α} (hskip : ∀ {v a}, read v = .ok a → v.skip = none) :
    Fits .leaf read := ⟨hskip, nofun⟩

/-- Any number of edits goes unnoticed. -/
theorem Fits.edits {layout : Layout} {read : Reader α} (h : Fits layout read) {p q : Phrase} {a : α}
    (hedits : Relation.ReflTransGen (Edit layout) p q) (hread : read p.tree = .ok a) :
    read q.tree = .ok a := by
  induction hedits with
  | refl => exact hread
  | tail _ hedit ih => exact h.edit hedit ih

/-- A phrase that is edited, or comes of an edit, is not the one for nothing. -/
theorem Edit.tree_ne_null {layout : Layout} {p q : Phrase} (h : Edit layout p q) :
    p.tree ≠ .null ∧ q.tree ≠ .null := by
  cases h <;> exact ⟨nofun, nofun⟩

theorem readOption_of_ne_null {read : Reader α} {v : Value} (hv : v ≠ .null) :
    readOption read v = some <$> read v := by
  cases v with
  | null => exact absurd rfl hv
  | _ => rfl

theorem map_eq_ok_iff {ε : Type} {f : α → β} {x : Except ε α} {b : β} :
    f <$> x = .ok b ↔ ∃ a, x = .ok a ∧ f a = b := by
  cases x with
  | error e => simp [Functor.map, Except.map]
  | ok a => simp [Functor.map, Except.map]

/-- A value that may be given as nothing has the same layout. -/
theorem Fits.option {layout : Layout} {read : Reader α} (h : Fits layout read) :
    Fits layout (readOption read) where
  skip {v a} hread := by
    by_cases hv : v = .null
    · rw [hv, Value.skip]
    · rw [readOption_of_ne_null hv, map_eq_ok_iff] at hread
      obtain ⟨b, hb, -⟩ := hread
      exact h.skip hb
  edit hedit hread := by
    rw [readOption_of_ne_null hedit.tree_ne_null.1, map_eq_ok_iff] at hread
    rw [readOption_of_ne_null hedit.tree_ne_null.2, map_eq_ok_iff]
    obtain ⟨b, hb, hsome⟩ := hread
    exact ⟨b, h.edit hedit hb, hsome⟩

/-! ## Lists -/

/-- What is refused is not read. -/
theorem Value.refuse_ne_ok (v : Value) (expected : String) (a : α) : v.refuse expected ≠ .ok a := by
  unfold Value.refuse
  cases v.found <;> nofun

theorem readList_eq_ok_iff {read : Reader α} {v : Value} {as : List α} :
    readList read v = .ok as ↔ ∃ items, v = .array items none ∧ items.mapM read = .ok as := by
  cases v with
  | array items fault =>
    rw [readList]
    cases hitems : items.mapM read with
    | error e => simp [hitems, bind, Except.bind]
    | ok bs =>
      cases fault with
      | some fault => simp [atEnd, bind, Except.bind]
      | none => simp [hitems, atEnd, bind, Except.bind, pure, Except.pure]
  | _ =>
    constructor
    · exact fun h => absurd h (Value.refuse_ne_ok _ _ as)
    · rintro ⟨items, ⟨⟩, -⟩

/-- A list has the layout of its items. -/
theorem Fits.list {layout : Layout} {read : Reader α} (h : Fits layout read) :
    Fits (.list layout) (readList read) where
  skip {v as} hread := by
    obtain ⟨items, rfl, hitems⟩ := readList_eq_ok_iff.mp hread
    have hskip : skipItems items = none := by
      clear hread
      induction items generalizing as with
      | nil => rfl
      | cons v items ih =>
        obtain ⟨b, bs, hb, hbs, -⟩ := mapM_cons_eq_ok_iff.mp hitems
        rw [skipItems, h.skip hb, ih hbs]
        rfl
    rw [Value.skip, hskip]
    rfl
  edit hedit hread := by
    obtain ⟨items, hv, hitems⟩ := readList_eq_ok_iff.mp hread
    cases hedit with
    | item hedit =>
      simp only [Phrase.tree, itemTrees_eq_map, List.map_append, List.map_cons, Value.array.injEq,
        and_true] at hv ⊢
      subst hv
      obtain ⟨cs, ds, hfront, hback, rfl⟩ := mapM_append_eq_ok_iff.mp hitems
      obtain ⟨b, bs, hp, hrest, rfl⟩ := mapM_cons_eq_ok_iff.mp hback
      refine readList_eq_ok_iff.mpr ⟨_, rfl, mapM_append_eq_ok_iff.mpr ⟨cs, _, hfront, ?_, rfl⟩⟩
      exact mapM_cons_eq_ok_iff.mpr ⟨b, bs, h.edit hedit hp, hrest, rfl⟩

/-! ## Records -/

/-- The fields of a record are those that are known of its members: each keeps the value that a
reader finds under its layout, apart from the others. -/
inductive Agree : List (String × Layout) → List (Field σ) → Prop where
  | nil : Agree [] []
  | cons {β : Type} {name : String} {layout : Layout} {known : List (String × Layout)} {f : Field σ}
      {fields : List (Field σ)} {get : Reader β} {set : β → σ → σ} (hname : f.name = name)
      (hkeeps : Keeps f get set) (hfits : Fits layout get) (hapart : ∀ g ∈ fields, Apart f g)
      (hrest : Agree known fields) : Agree ((name, layout) :: known) (f :: fields)

namespace Agree

variable {known : List (String × Layout)} {fields : List (Field σ)} {name : String}

/-- Three fields, each apart from the other two. -/
theorem triple {γ δ : Type} {f g h : Field σ} {getf : Reader β} {getg : Reader γ} {geth : Reader δ}
    {setf : β → σ → σ} {setg : γ → σ → σ} {seth : δ → σ → σ} {inf ing inh : Layout}
    (hf : Keeps f getf setf) (hg : Keeps g getg setg) (hh : Keeps h geth seth)
    (hfitsf : Fits inf getf) (hfitsg : Fits ing getg) (hfitsh : Fits inh geth)
    (hfg : Apart f g) (hfh : Apart f h) (hgh : Apart g h) :
    Agree [(f.name, inf), (g.name, ing), (h.name, inh)] [f, g, h] := by
  refine .cons rfl hf hfitsf ?_ (.cons rfl hg hfitsg ?_ (.cons rfl hh hfitsh nofun .nil))
  · exact List.forall_mem_cons.mpr ⟨hfg, List.forall_mem_singleton.mpr hfh⟩
  · exact List.forall_mem_singleton.mpr hgh

/-- The fields keep what they read, apart from each other. -/
theorem orderly (h : Agree known fields) : Orderly fields := by
  induction h with
  | nil => exact ⟨nofun, nofun, nofun⟩
  | @cons β name layout known f fields get set hname hkeeps hfits hapart hrest ih =>
    refine ⟨fun {g} hg v d d' hread => ?_, fun {g} hg v d d' hread => ?_,
      fun {g g'} hg hg' hne => ?_⟩
    · rcases List.mem_cons.mp hg with rfl | hin
      · obtain ⟨b, -, rfl⟩ := hkeeps.read_eq_ok_iff.mp hread
        exact hkeeps.isSet b d
      · exact ih.isSet hin hread
    · rcases List.mem_cons.mp hg with rfl | hin
      · obtain ⟨b, hb, -⟩ := hkeeps.read_eq_ok_iff.mp hread
        exact hfits.skip hb
      · exact ih.skip hin hread
    · rcases List.mem_cons.mp hg with rfl | hin <;> rcases List.mem_cons.mp hg' with rfl | hin'
      · exact absurd rfl hne
      · exact hapart g' hin'
      · exact (hapart g hin).symm
      · exact ih.apart hin hin' hne

/-- An unknown name has no field. -/
theorem find?_eq_none (h : Agree known fields) (hunknown : ∀ k ∈ known, k.1 ≠ name) :
    fields.find? (·.name = name) = none := by
  induction h with
  | nil => rfl
  | cons hname _ _ _ _ ih =>
    rw [List.find?_cons_of_neg]
    · exact ih fun k hk => hunknown k (List.mem_cons_of_mem _ hk)
    · simpa [hname] using hunknown _ List.mem_cons_self

/-- The field of a known name takes an edited value as it takes the one before. -/
theorem takes_edit (h : Agree known fields) {layout : Layout}
    (hknown : known.lookup name = some layout) {p q : Phrase} (hedit : Edit layout p q) {d d' : σ}
    (htakes : Takes fields name p.tree d d') : Takes fields name q.tree d d' := by
  cases htakes with
  | skip hfind _ => exact .skip hfind q.skip_tree
  | @read f _ hfind hset hread =>
    refine .read hfind hset ?_
    clear hset
    induction h with
    | nil => cases hfind
    | @cons β own _ _ g fields get set hname hkeeps hfits _ _ ih =>
      by_cases hown : own = name
      · rw [List.find?_cons_of_pos (by simpa [hname] using hown)] at hfind
        obtain rfl : g = f := Option.some.inj hfind
        rw [hown, List.lookup_cons_self] at hknown
        obtain rfl := Option.some.inj hknown
        obtain ⟨b, hb, rfl⟩ := hkeeps.read_eq_ok_iff.mp hread
        exact hkeeps.read_eq_ok_iff.mpr ⟨b, hfits.edit hedit hb, rfl⟩
      · rw [List.find?_cons_of_neg (by simpa [hname] using hown)] at hfind
        rw [List.lookup_cons, beq_false_of_ne (Ne.symm hown)] at hknown
        exact ih hknown hfind

end Agree

/-- The draft of a record is finished. -/
private theorem finish_eq_ok_iff {x : Except Error σ} {finish : σ → Except String α}
    {f : String → Error} {a : α} :
    (x >>= fun d => (finish d).mapError f) = .ok a ↔ ∃ d, x = .ok d ∧ finish d = .ok a := by
  cases x with
  | error e => simp [bind, Except.bind]
  | ok d =>
    have hfinish : (finish d).mapError f = .ok a ↔ finish d = .ok a := by
      cases finish d with
      | error e => exact iff_of_false nofun nofun
      | ok a' =>
        constructor
        · rintro ⟨⟩
          rfl
        · rintro ⟨⟩
          rfl
    simpa [bind, Except.bind] using hfinish

/-- A record without a fault at its end is read from its members. -/
theorem RecordType.read_members (r : RecordType σ α) (members : List (Value × Value)) :
    r.read (.object members none) = readMembers r.fields members r.empty >>= fun d =>
      (r.finish d).mapError fun name => .mismatch (.missingField name) := by
  rw [RecordType.read]
  cases readMembers r.fields members r.empty <;> rfl

/-- A record is read from its members, with no fault at its end. -/
theorem RecordType.read_members_eq_ok_iff {r : RecordType σ α} {members : List (Value × Value)}
    {fault : Option Fault} {a : α} :
    r.read (.object members fault) = .ok a ↔
      ∃ d, readMembers r.fields members r.empty = .ok d ∧ fault = none ∧ r.finish d = .ok a := by
  cases fault with
  | none => simp [read_members, finish_eq_ok_iff]
  | some fault =>
    rw [RecordType.read]
    cases readMembers r.fields members r.empty <;> simp [atEnd, bind, Except.bind]

/-- A record that is read from a list is read to its end. -/
theorem RecordType.read_array_eq_ok_iff (r : RecordType σ α) :
    ∃ expected, ∀ {items : List Value} {fault : Option Fault} {a : α},
      r.read (.array items fault) = .ok a ↔
        ∃ d, readItems expected fault r.fields items 0 r.empty = .ok d ∧ r.finish d = .ok a :=
  ⟨_, finish_eq_ok_iff⟩

/-- A record has the layout of its members. -/
theorem Fits.record {r : RecordType σ α} {known : List (String × Layout)}
    (h : Agree known r.fields) : Fits (.record known) r.read where
  skip {v a} hread := by
    cases v with
    | object members fault =>
      obtain ⟨d, hmembers, rfl, -⟩ := RecordType.read_members_eq_ok_iff.mp hread
      rw [Value.skip, h.orderly.skipMembers_of_readMembers hmembers]
      rfl
    | array items fault =>
      obtain ⟨expected, hiff⟩ := r.read_array_eq_ok_iff
      obtain ⟨d, hitems, -⟩ := hiff.mp hread
      obtain ⟨hskip, hfault⟩ := h.orderly.skipItems_of_readItems (fun f hf => hf) hitems
      rw [Value.skip, hskip, hfault]
      rfl
    | _ => exact absurd hread (Value.refuse_ne_ok _ _ a)
  edit hedit hread := by
    cases hedit with
    | reorder hperm =>
      obtain ⟨d, hmembers, hfault, hfinish⟩ := RecordType.read_members_eq_ok_iff.mp hread
      refine RecordType.read_members_eq_ok_iff.mpr ⟨d, ?_, hfault, hfinish⟩
      rw [memberTrees_eq_map] at hmembers ⊢
      exact h.orderly.readMembers_perm (hperm.map _) hmembers
    | insert value hname hunknown =>
      obtain ⟨d, hmembers, hfault, hfinish⟩ := RecordType.read_members_eq_ok_iff.mp hread
      refine RecordType.read_members_eq_ok_iff.mpr ⟨d, ?_, hfault, hfinish⟩
      rw [memberTrees_eq_map, List.map_append, readMembers_append_eq_ok_iff] at hmembers
      obtain ⟨e, hfront, hback⟩ := hmembers
      rw [memberTrees_eq_map, List.map_append, List.map_cons, readMembers_append_eq_ok_iff]
      refine ⟨e, hfront, readMembers_cons_eq_ok_iff.mpr ⟨e, ⟨_, _, rfl, hname, ?_⟩, hback⟩⟩
      exact .skip (h.find?_eq_none hunknown) value.skip_tree
    | member hname hknown hedit =>
      obtain ⟨d, hmembers, hfault, hfinish⟩ := RecordType.read_members_eq_ok_iff.mp hread
      refine RecordType.read_members_eq_ok_iff.mpr ⟨d, ?_, hfault, hfinish⟩
      rw [memberTrees_eq_map, List.map_append, List.map_cons,
        readMembers_append_eq_ok_iff] at hmembers ⊢
      obtain ⟨e, hfront, hback⟩ := hmembers
      obtain ⟨e', ⟨_, text, ⟨⟩, htext, htakes⟩, hrest⟩ := readMembers_cons_eq_ok_iff.mp hback
      obtain rfl := Except.ok.inj (htext.symm.trans hname)
      refine ⟨e, hfront, readMembers_cons_eq_ok_iff.mpr ⟨e', ⟨_, _, rfl, hname, ?_⟩, hrest⟩⟩
      exact h.takes_edit hknown hedit htakes

end NodeScrape.Json
