import NodeScrape.Json.Read

/-!
# Members in any order

The fields of a record that keep what they read apart from each other. Members are read into a draft
one after another, and where their fields keep apart, their order does not matter.
-/

namespace NodeScrape.Json

variable {σ β γ : Type} {fields : List (Field σ)} {d d' : σ}

/-! ## Names -/

/-- A string that is not closed spells no bytes. -/
private theorem exists_error_of_broken (fault : Fault) (pieces : List Piece) :
    ∃ e, spelledBytes (some fault) pieces = .error e := by
  fun_induction spelledBytes (some fault) pieces with
  | case1 fault' hfault => exact ⟨fault', rfl⟩
  | case2 hfault => cases hfault
  | case3 b rest ih | case7 n hlow hhigh m rest hm code ih | case9 n rest hlow hhigh ih =>
    obtain ⟨e, he⟩ := ih
    exact ⟨e, by rw [he]; rfl⟩
  | _ => exact ⟨_, rfl⟩

/-- A string that spells a text is closed. -/
theorem TextToken.fault_of_read {token : TextToken} {text : String} (h : token.read = .ok text) :
    token.fault = none := by
  obtain ⟨pieces, fault⟩ := token
  cases fault with
  | none => rfl
  | some fault =>
    obtain ⟨e, he⟩ := exists_error_of_broken fault pieces
    simp only [TextToken.read, he] at h
    cases h

private theorem readToken_of_ok {token : TextToken} {text : String} (h : token.read = .ok text) :
    readToken token = .ok text := by
  rw [readToken, h]
  rfl

private theorem readToken_of_error {token : TextToken} {fault : Fault}
    (h : token.read = .error fault) : readToken token = .error (.fault fault) := by
  rw [readToken, h]
  rfl

/-! ## Fields -/

/-- A field reads a value of its own and keeps it in its place of the draft. -/
structure Keeps (f : Field σ) (get : Reader β) (set : β → σ → σ) : Prop where
  read : ∀ v d, f.read v d = do return set (← get v) d
  isSet : ∀ b d, f.isSet (set b d) = true

theorem Keeps.read_eq_ok_iff {f : Field σ} {get : Reader β} {set : β → σ → σ}
    (h : Keeps f get set) {v : Value} : f.read v d = .ok d' ↔ ∃ b, get v = .ok b ∧ set b d = d' := by
  rw [h.read]
  cases get v with
  | error e => simp [bind, Except.bind]
  | ok b => simp [bind, Except.bind, pure, Except.pure]

/-- Two fields that do not touch each other's place. -/
structure Apart (f g : Field σ) : Prop where
  left : ∀ {v d d'}, f.read v d = .ok d' → g.isSet d' = g.isSet d
  right : ∀ {v d d'}, g.read v d = .ok d' → f.isSet d' = f.isSet d
  swap : ∀ {v w d d₁ d₂}, f.read v d = .ok d₁ → g.read w d₁ = .ok d₂ →
    ∃ d₁', g.read w d = .ok d₁' ∧ f.read v d₁' = .ok d₂
  swap_back : ∀ {v w d d₁ d₂}, g.read w d = .ok d₁ → f.read v d₁ = .ok d₂ →
    ∃ d₁', f.read v d = .ok d₁' ∧ g.read w d₁' = .ok d₂

theorem Apart.symm {f g : Field σ} (h : Apart f g) : Apart g f :=
  ⟨h.right, h.left, h.swap_back, h.swap⟩

/-- Fields whose places may be filled in either order are apart. -/
theorem Keeps.apart {f g : Field σ} {getf : Reader β} {setf : β → σ → σ} {getg : Reader γ}
    {setg : γ → σ → σ} (hf : Keeps f getf setf) (hg : Keeps g getg setg)
    (hleft : ∀ b d, g.isSet (setf b d) = g.isSet d) (hright : ∀ c d, f.isSet (setg c d) = f.isSet d)
    (hswap : ∀ b c d, setg c (setf b d) = setf b (setg c d)) : Apart f g where
  left h := by
    obtain ⟨b, -, rfl⟩ := hf.read_eq_ok_iff.mp h
    exact hleft b _
  right h := by
    obtain ⟨c, -, rfl⟩ := hg.read_eq_ok_iff.mp h
    exact hright c _
  swap hv hw := by
    obtain ⟨b, hb, rfl⟩ := hf.read_eq_ok_iff.mp hv
    obtain ⟨c, hc, rfl⟩ := hg.read_eq_ok_iff.mp hw
    exact ⟨_, hg.read_eq_ok_iff.mpr ⟨c, hc, rfl⟩, hf.read_eq_ok_iff.mpr ⟨b, hb, (hswap b c _).symm⟩⟩
  swap_back hw hv := by
    obtain ⟨c, hc, rfl⟩ := hg.read_eq_ok_iff.mp hw
    obtain ⟨b, hb, rfl⟩ := hf.read_eq_ok_iff.mp hv
    exact ⟨_, hf.read_eq_ok_iff.mpr ⟨b, hb, rfl⟩, hg.read_eq_ok_iff.mpr ⟨c, hc, hswap b c _⟩⟩

/-- Fields that keep what they read, notice the faults in it, and keep apart from each other. -/
structure Orderly (fields : List (Field σ)) : Prop where
  isSet : ∀ {f}, f ∈ fields → ∀ {v d d'}, f.read v d = .ok d' → f.isSet d' = true
  skip : ∀ {f}, f ∈ fields → ∀ {v d d'}, f.read v d = .ok d' → v.skip = none
  apart : ∀ {f g}, f ∈ fields → g ∈ fields → f.name ≠ g.name → Apart f g

/-! ## One member -/

/-- A member is taken into the draft by the field of its name, or skipped if there is none. -/
inductive Takes (fields : List (Field σ)) (name : String) (v : Value) (d : σ) : σ → Prop where
  | read {f : Field σ} {d' : σ} (hfind : fields.find? (·.name = name) = some f)
    (hset : f.isSet d = false) (hread : f.read v d = .ok d') : Takes fields name v d d'
  | skip (hfind : fields.find? (·.name = name) = none) (hskip : v.skip = none) :
    Takes fields name v d d

/-- A member is taken under the text that its name spells. -/
def TakesMember (fields : List (Field σ)) (m : Value × Value) (d d' : σ) : Prop :=
  ∃ token name, m.1 = .text token ∧ token.read = .ok name ∧ Takes fields name m.2 d d'

/-- The value of a member is read by the field of its name, unless that is set. -/
theorem readMembers_known {token : TextToken} {name : String} {v : Value}
    {rest : List (Value × Value)} {f : Field σ} (hname : token.read = .ok name)
    (hfind : fields.find? (·.name = name) = some f) (hset : f.isSet d = false) :
    readMembers fields ((.text token, v) :: rest) d = f.read v d >>= readMembers fields rest := by
  rw [readMembers]
  simp [readToken_of_ok hname, hfind, hset, bind, Except.bind]

/-- A member that is taken leaves the others to the draft that has it. -/
theorem readMembers_cons_of_takes {m : Value × Value} {e : σ} (h : TakesMember fields m d e)
    (rest : List (Value × Value)) : readMembers fields (m :: rest) d = readMembers fields rest e := by
  obtain ⟨_, v⟩ := m
  obtain ⟨token, name, rfl, hname, htakes⟩ := h
  cases htakes with
  | read hfind hset hread =>
    rw [readMembers_known hname hfind hset, hread]
    rfl
  | skip hfind hskip =>
    rw [readMembers]
    simp [readToken_of_ok hname, hfind, hskip, bind, Except.bind, pure, Except.pure]

/-- Members are read exactly if they can be taken one after another. -/
theorem readMembers_cons_eq_ok_iff {m : Value × Value} {rest : List (Value × Value)} :
    readMembers fields (m :: rest) d = .ok d' ↔
      ∃ e, TakesMember fields m d e ∧ readMembers fields rest e = .ok d' := by
  refine ⟨fun h => ?_, fun ⟨e, hm, hrest⟩ => (readMembers_cons_of_takes hm rest).trans hrest⟩
  obtain ⟨name, v⟩ := m
  cases name with
  | text token =>
    rw [readMembers] at h
    cases htext : token.read with
    | error e => simp [readToken_of_error htext, bind, Except.bind] at h
    | ok text =>
      simp only [readToken_of_ok htext, bind, Except.bind] at h
      cases hfind : fields.find? (·.name = text) with
      | none =>
        simp only [hfind] at h
        cases hskip : v.skip with
        | some fault => simp [hskip, throw, throwThe, MonadExceptOf.throw] at h
        | none =>
          simp only [hskip, pure, Except.pure] at h
          exact ⟨d, ⟨token, text, rfl, htext, .skip hfind hskip⟩, h⟩
      | some f =>
        simp only [hfind] at h
        cases hset : f.isSet d with
        | true => simp [hset, throw, throwThe, MonadExceptOf.throw] at h
        | false =>
          cases hread : f.read v d with
          | error e => simp [hset, hread] at h
          | ok e =>
            refine ⟨e, ⟨token, text, rfl, htext, .read hfind hset hread⟩, ?_⟩
            simpa [hset, hread] using h
  | _ => cases h

/-- What is read of the first members, the others are read behind. -/
theorem readMembers_append_of_ok {front : List (Value × Value)} {e : σ}
    (hfront : readMembers fields front d = .ok e) (back : List (Value × Value)) :
    readMembers fields (front ++ back) d = readMembers fields back e := by
  induction front generalizing d with
  | nil =>
    cases hfront
    rfl
  | cons m front ih =>
    obtain ⟨c, hm, hrest⟩ := readMembers_cons_eq_ok_iff.mp hfront
    rw [List.cons_append, readMembers_cons_of_takes hm, ih hrest]

/-- Members are read from first to last. -/
theorem readMembers_append_eq_ok_iff {front back : List (Value × Value)} :
    readMembers fields (front ++ back) d = .ok d' ↔
      ∃ e, readMembers fields front d = .ok e ∧ readMembers fields back e = .ok d' := by
  constructor
  · intro h
    induction front generalizing d with
    | nil => exact ⟨d, rfl, h⟩
    | cons m front ih =>
      obtain ⟨c, hm, hrest⟩ := readMembers_cons_eq_ok_iff.mp h
      obtain ⟨e, hfront, hback⟩ := ih hrest
      exact ⟨e, readMembers_cons_eq_ok_iff.mpr ⟨c, hm, hfront⟩, hback⟩
  · rintro ⟨e, hfront, hback⟩
    rw [readMembers_append_of_ok hfront, hback]

/-! ## Any order -/

namespace Orderly

variable {name other : String} {v w : Value} {e : σ}

/-- A field of some name is among the fields. -/
private theorem mem_of_find {f : Field σ} (hfind : fields.find? (·.name = name) = some f) :
    f ∈ fields ∧ f.name = name :=
  ⟨List.mem_of_find?_eq_some hfind, by simpa using List.find?_some hfind⟩

/-- Two members that are taken one after the other may change places. -/
theorem takes_swap (h : Orderly fields) (hv : Takes fields name v d e)
    (hw : Takes fields other w e d') :
    ∃ e', Takes fields other w d e' ∧ Takes fields name v e' d' := by
  cases hv with
  | skip hfind hskip => exact ⟨d', hw, .skip hfind hskip⟩
  | @read f _ hf hfset hfread =>
    cases hw with
    | skip hfind hskip => exact ⟨d, .skip hfind hskip, .read hf hfset hfread⟩
    | @read g _ hg hgset hgread =>
      obtain ⟨hfmem, hfname⟩ := mem_of_find hf
      obtain ⟨hgmem, hgname⟩ := mem_of_find hg
      by_cases hsame : f.name = g.name
      · -- the first of them has set the field that the second one would have to find empty
        obtain rfl : f = g := by
          rw [← hfname, hsame, hgname, hg] at hf
          exact (Option.some.inj hf).symm
        rw [h.isSet hfmem hfread] at hgset
        cases hgset
      · have hapart := h.apart hfmem hgmem hsame
        obtain ⟨e', hgread', hfread'⟩ := hapart.swap hfread hgread
        refine ⟨e', .read hg ?_ hgread', .read hf ?_ hfread'⟩
        · rw [← hapart.left hfread, hgset]
        · rw [hapart.right hgread', hfset]

/-- Members may be read in any order. -/
theorem readMembers_perm (h : Orderly fields) {members members' : List (Value × Value)}
    (hperm : members.Perm members') (hread : readMembers fields members d = .ok d') :
    readMembers fields members' d = .ok d' := by
  induction hperm generalizing d with
  | nil => exact hread
  | cons m _ ih =>
    obtain ⟨e, hm, hrest⟩ := readMembers_cons_eq_ok_iff.mp hread
    exact readMembers_cons_eq_ok_iff.mpr ⟨e, hm, ih hrest⟩
  | swap m m' rest =>
    obtain ⟨e, ⟨token, name, htoken, hname, htakes⟩, hrest⟩ := readMembers_cons_eq_ok_iff.mp hread
    obtain ⟨e', ⟨token', name', htoken', hname', htakes'⟩, hrest⟩ :=
      readMembers_cons_eq_ok_iff.mp hrest
    obtain ⟨c, hfirst, hsecond⟩ := h.takes_swap htakes htakes'
    exact readMembers_cons_eq_ok_iff.mpr ⟨c, ⟨token', name', htoken', hname', hfirst⟩,
      readMembers_cons_eq_ok_iff.mpr ⟨e', ⟨token, name, htoken, hname, hsecond⟩, hrest⟩⟩
  | trans _ _ ih₁ ih₂ => exact ih₂ (ih₁ hread)

/-- A member that a field of its name reads may be given any other value: what the field reads of it
stands in the same place, and where it fails, so do the members. -/
theorem readMembers_replace (h : Orderly fields) {f : Field σ}
    {get : Reader β} {set : β → σ → σ} (hkeeps : Keeps f get set) {token : TextToken}
    (hname : token.read = .ok name) (hfind : fields.find? (·.name = name) = some f)
    {front back : List (Value × Value)}
    (hread : readMembers fields (front ++ (.text token, v) :: back) d = .ok d') :
    ∃ b e, get v = .ok b ∧ d' = set b e ∧
      ∀ w, readMembers fields (front ++ (.text token, w) :: back) d =
        (fun c => set c e) <$> get w := by
  have htaken : ∀ {v d d'}, TakesMember fields (.text token, v) d d' →
      f.isSet d = false ∧ f.read v d = .ok d' := by
    rintro v d d' ⟨_, text, ⟨⟩, htext, htakes⟩
    obtain rfl := Except.ok.inj (htext.symm.trans hname)
    cases htakes with
    | skip hnone =>
      rw [hnone] at hfind
      cases hfind
    | read hfind' hset hv =>
      rw [hfind'] at hfind
      cases hfind
      exact ⟨hset, hv⟩
  have hlast : ∀ w,
      (front ++ (.text token, w) :: back).Perm ((front ++ back) ++ [(.text token, w)]) :=
    fun w => List.perm_middle.trans (List.perm_append_singleton _ _).symm
  obtain ⟨e, hothers, hv⟩ := readMembers_append_eq_ok_iff.mp (h.readMembers_perm (hlast v) hread)
  obtain ⟨_, htakes, ⟨⟩⟩ := readMembers_cons_eq_ok_iff.mp hv
  obtain ⟨hset, hv⟩ := htaken htakes
  obtain ⟨b, hb, rfl⟩ := hkeeps.read_eq_ok_iff.mp hv
  refine ⟨b, e, hb, rfl, fun w => ?_⟩
  cases hw : get w with
  | ok c =>
    refine h.readMembers_perm (hlast w).symm (readMembers_append_eq_ok_iff.mpr ⟨e, hothers, ?_⟩)
    rw [readMembers_known hname hfind hset, hkeeps.read_eq_ok_iff.mpr ⟨c, hw, rfl⟩]
    rfl
  | error x =>
    -- the failure shows where the member stands, before the members behind it are looked at
    obtain ⟨c, hfront, hback⟩ := readMembers_append_eq_ok_iff.mp hread
    obtain ⟨_, htakes, -⟩ := readMembers_cons_eq_ok_iff.mp hback
    rw [readMembers_append_of_ok hfront, readMembers_known hname hfind (htaken htakes).1,
      hkeeps.read, hw]
    rfl

/-! ## No fault is missed -/

/-- A member that is taken has no fault. -/
theorem skip_of_takes (h : Orderly fields) (htakes : Takes fields name v d d') : v.skip = none := by
  cases htakes with
  | read hfind _ hread => exact h.skip (mem_of_find hfind).1 hread
  | skip _ hskip => exact hskip

/-- Members that are read have no fault. -/
theorem skipMembers_of_readMembers (h : Orderly fields) {members : List (Value × Value)}
    (hread : readMembers fields members d = .ok d') : skipMembers members = none := by
  induction members generalizing d with
  | nil => rfl
  | cons m rest ih =>
    obtain ⟨n, v⟩ := m
    obtain ⟨e, ⟨token, name, rfl, hname, htakes⟩, hrest⟩ := readMembers_cons_eq_ok_iff.mp hread
    rw [skipMembers, TextToken.fault_of_read hname, h.skip_of_takes htakes, ih hrest]
    rfl

/-- Items that are read in the place of members have no fault, and none ends them. -/
theorem skipItems_of_readItems (h : Orderly fields) {expected : String} {fault : Option Fault}
    {rest : List (Field σ)} (hrest : ∀ f ∈ rest, f ∈ fields) {items : List Value} {n : Nat}
    (hread : readItems expected fault rest items n d = .ok d') :
    skipItems items = none ∧ fault = none := by
  induction rest generalizing items n d with
  | nil =>
    cases items with
    | nil =>
      cases fault with
      | none => exact ⟨rfl, rfl⟩
      | some fault => cases hread
    | cons v items => cases hread
  | cons f rest ih =>
    have hmore : ∀ f ∈ rest, f ∈ fields := fun g hg => hrest g (List.mem_cons_of_mem f hg)
    cases items with
    | nil =>
      cases fault with
      | none => exact ⟨rfl, rfl⟩
      | some fault => cases hread
    | cons v items =>
      rw [readItems] at hread
      cases hfirst : f.read v d with
      | error e =>
        rw [hfirst] at hread
        cases hread
      | ok e =>
        rw [hfirst] at hread
        obtain ⟨hitems, hfault⟩ := ih hmore hread
        refine ⟨?_, hfault⟩
        rw [skipItems, h.skip (hrest f List.mem_cons_self) hfirst, hitems]
        rfl

end Orderly

end NodeScrape.Json
