import NodeScrape.Net.Ip
import NodeScrape.Proofs.Text.Numerals

/-!
# The text form of internet addresses

A grammar of the text form of an address of version 6, and the proof that the scanner accepts just
the texts of the grammar. The scanner takes groups as long as there are any and never goes back, and
it need not: the groups of the grammar end only at a gap and at the end of the text, and no further
group begins there.
-/

namespace NodeScrape.Net

open Text

/-! ## The grammar -/

/-- A hexadecimal digit of either case. -/
def IsHexDigit (c : Char) : Prop :=
  c.isDigit = true ∨ 'a' ≤ c ∧ c ≤ 'f' ∨ 'A' ≤ c ∧ c ≤ 'F'

instance (c : Char) : Decidable (IsHexDigit c) := inferInstanceAs (Decidable (_ ∨ _))

/-- A group of an address: one to four hexadecimal digits. -/
structure IsGroup (text : List Char) : Prop where
  digits : ∀ c ∈ text, IsHexDigit c
  nonempty : text ≠ []
  short : text.length ≤ 4

/-- An address of version 4: four numbers of eight bits between points, without leading zeros. -/
def IsDotted (text : List Char) : Prop :=
  ∃ a b c d : Nat, a < 256 ∧ b < 256 ∧ c < 256 ∧ d < 256 ∧
    text = Nat.toDigits 10 a ++ '.' :: (Nat.toDigits 10 b ++ '.' ::
      (Nat.toDigits 10 c ++ '.' :: Nat.toDigits 10 d))

/-- Groups between colons, by their number, and whether the last two of them are written as an
address of version 4. -/
inductive IsGroups : Nat → Bool → List Char → Prop where
  | one {group : List Char} : IsGroup group → IsGroups 1 false group
  | dotted {address : List Char} : IsDotted address → IsGroups 2 true address
  | more {group rest : List Char} {n : Nat} {embedded : Bool} :
    IsGroup group → IsGroups n embedded rest → IsGroups (n + 1) embedded (group ++ ':' :: rest)

/-- What stands on one side of a gap: groups, or nothing. -/
inductive IsSide : Nat → Bool → List Char → Prop where
  | nothing : IsSide 0 false []
  | groups {n : Nat} {embedded : Bool} {text : List Char} :
    IsGroups n embedded text → IsSide n embedded text

/-- The text form of an address of version 6: eight groups, or fewer around one gap, which stands
for at least one group. An address of version 4 can only stand at the end. -/
inductive IsIpv6Text : List Char → Prop where
  | full {embedded : Bool} {text : List Char} : IsGroups 8 embedded text → IsIpv6Text text
  | gap {m n : Nat} {embedded : Bool} {head tail : List Char} :
    IsSide m false head → IsSide n embedded tail → m + n ≤ 7 →
      IsIpv6Text (head ++ ':' :: ':' :: tail)

/-! ## Hexadecimal digits and groups -/

variable {c : Char} {text rest : List Char}

/-- The hexadecimal digits are those that have a value in base sixteen. -/
theorem isSome_digitValue?_iff : (digitValue? 16 c).isSome = true ↔ IsHexDigit c := by
  have hle (a b : Char) : a ≤ b ↔ a.toNat ≤ b.toNat := Iff.rfl
  have hdigit : c.isDigit = true ↔ 48 ≤ c.toNat ∧ c.toNat ≤ 57 := Char.isDigit_iff_toNat
  have hvalues : 'a'.toNat = 97 ∧ 'f'.toNat = 102 ∧ 'A'.toNat = 65 ∧ 'F'.toNat = 70 ∧
      '0'.toNat = 48 := ⟨rfl, rfl, rfl, rfl, rfl⟩
  simp only [IsHexDigit, digitValue?, hle, hdigit]
  split_ifs <;> simp <;> omega

/-- The character is no hexadecimal digit. -/
theorem digitValue?_of_not_isHexDigit (hc : ¬ IsHexDigit c) : digitValue? 16 c = none :=
  Option.not_isSome_iff_eq_none.mp (mt isSome_digitValue?_iff.mp hc)

theorem not_isHexDigit_colon : ¬ IsHexDigit ':' := by decide

theorem not_isHexDigit_point : ¬ IsHexDigit '.' := by decide

/-- Hexadecimal digits have values. -/
theorem exists_values (hdigits : ∀ c ∈ text, IsHexDigit c) :
    ∃ values : List Nat, text.map (digitValue? 16) = values.map some := by
  induction text with
  | nil => exact ⟨[], rfl⟩
  | cons c text ih =>
    obtain ⟨d, hd⟩ := Option.isSome_iff_exists.mp
      (isSome_digitValue?_iff.mpr (hdigits c List.mem_cons_self))
    obtain ⟨values, hvalues⟩ := ih fun e he => hdigits e (List.mem_cons_of_mem _ he)
    exact ⟨d :: values, by rw [List.map_cons, List.map_cons, hd, hvalues]⟩

theorem scanGroup_eq_some {value : UInt16} : scanGroup text = some (value, rest) ↔
    (digitRun 16 text).1 ≠ [] ∧ (digitRun 16 text).1.length ≤ 4 ∧
      value = UInt16.ofNat (numberOf 16 (digitRun 16 text).1) ∧ rest = (digitRun 16 text).2 := by
  simp [scanGroup, guard, Option.bind_eq_some_iff, and_assoc, eq_comm (b := value),
    eq_comm (b := rest)]

/-- A group is taken as a whole if no further digit follows. -/
theorem exists_scanGroup (h : IsGroup text) (hrest : ∀ c ∈ rest.head?, ¬ IsHexDigit c) :
    ∃ value, scanGroup (text ++ rest) = some (value, rest) := by
  obtain ⟨values, hvalues⟩ := exists_values h.digits
  have hrun := digitRun_append_of_map hvalues fun c hc => digitValue?_of_not_isHexDigit (hrest c hc)
  have hlength : values.length = text.length := by
    simpa using (congrArg List.length hvalues).symm
  have hne : values ≠ [] := by
    rintro rfl
    exact h.nonempty (List.length_eq_zero_iff.mp hlength.symm)
  refine ⟨_, scanGroup_eq_some.mpr ⟨?_, ?_, rfl, ?_⟩⟩
  · rwa [hrun]
  · rw [hrun, hlength]
    exact h.short
  · rw [hrun]

/-- What is taken as a group is one. -/
theorem isGroup_of_scanGroup {value : UInt16} (h : scanGroup text = some (value, rest)) :
    ∃ group, IsGroup group ∧ text = group ++ rest := by
  obtain ⟨hne, hshort, -, rfl⟩ := scanGroup_eq_some.mp h
  obtain ⟨taken, htext, hvalues, -⟩ := digitRun_split 16 text
  have hlength : taken.length = (digitRun 16 text).1.length := by
    simpa using congrArg List.length hvalues
  refine ⟨taken, ⟨fun c hc => ?_, ?_, ?_⟩, htext⟩
  · obtain ⟨d, -, hd⟩ := List.mem_map.mp (hvalues ▸ List.mem_map_of_mem hc)
    exact isSome_digitValue?_iff.mp (Option.isSome_iff_exists.mpr ⟨d, hd.symm⟩)
  · rintro rfl
    exact hne (List.length_eq_zero_iff.mp hlength.symm)
  · rwa [hlength]

/-! ## Octets and addresses of version 4 -/

theorem scanOctet_eq_some {value : UInt8} : scanOctet text = some (value, rest) ↔
    (digitRun 10 text).1 ≠ [] ∧ (digitRun 10 text).1.length ≤ 3 ∧
      ((digitRun 10 text).1.length = 1 ∨ (digitRun 10 text).1.head? ≠ some 0) ∧
      numberOf 10 (digitRun 10 text).1 < 256 ∧
      value = UInt8.ofNat (numberOf 10 (digitRun 10 text).1) ∧ rest = (digitRun 10 text).2 := by
  simp [scanOctet, guard, Option.bind_eq_some_iff, and_assoc, or_iff_not_imp_left,
    eq_comm (b := value), eq_comm (b := rest)]

/-- A number below 256 is taken as a whole if no further digit follows. -/
theorem scanOctet_toDigits {n : Nat} (hn : n < 256) (hrest : EndsDigits rest) :
    scanOctet (Nat.toDigits 10 n ++ rest) = some (UInt8.ofNat n, rest) := by
  obtain ⟨values, hrun, hvalue, hlength, hzero⟩ := exists_digitRun_toDigits n hrest
  have hshort : (Nat.toDigits 10 n).length ≤ 3 :=
    (Nat.length_toDigits_le_iff (by decide) (by decide)).mpr (by omega)
  rw [scanOctet_eq_some, hrun, hvalue, hlength]
  refine ⟨?_, hshort, hlength ▸ hzero, hn, rfl, rfl⟩
  rintro rfl
  exact Nat.toDigits_ne_nil (List.length_eq_zero_iff.mp hlength.symm)

/-- What is taken as an octet is a number below 256 without leading zeros. -/
theorem exists_toDigits_of_scanOctet {value : UInt8} (h : scanOctet text = some (value, rest)) :
    ∃ n < 256, text = Nat.toDigits 10 n ++ rest := by
  obtain ⟨hne, -, hzero, hlt, -, rfl⟩ := scanOctet_eq_some.mp h
  obtain ⟨taken, htext, hvalues, -⟩ := digitRun_split 10 text
  obtain ⟨hdigits, rfl⟩ := eq_map_digitChar hvalues
  refine ⟨_, hlt, ?_⟩
  rwa [toDigits_numberOf hdigits hne hzero]

theorem scanChar_eq_some {c : Char} {u : Unit} :
    scanChar c text = some (u, rest) ↔ text = c :: rest := by
  cases text with
  | nil => simp [scanChar]
  | cons d text => simp [scanChar, eq_comm]

theorem endsDigits_point (rest : List Char) : EndsDigits ('.' :: rest) := endsDigits_cons.mpr rfl

/-- An address of version 4 is taken as a whole if no further digit follows. -/
theorem exists_scanIpv4 (h : IsDotted text) (hrest : EndsDigits rest) :
    ∃ ip, scanIpv4 (text ++ rest) = some (ip, rest) := by
  obtain ⟨a, b, c, d, ha, hb, hc, hd, rfl⟩ := h
  refine ⟨⟨UInt8.ofNat a, UInt8.ofNat b, UInt8.ofNat c, UInt8.ofNat d⟩, ?_⟩
  simp only [scanIpv4, List.append_assoc, List.cons_append, scanChar, if_true,
    scanOctet_toDigits ha (endsDigits_point _), scanOctet_toDigits hb (endsDigits_point _),
    scanOctet_toDigits hc (endsDigits_point _), scanOctet_toDigits hd hrest, Option.bind_eq_bind,
    Option.bind_some]
  rfl

/-- What is taken as an address of version 4 is one. -/
theorem isDotted_of_scanIpv4 {ip : Ipv4} (h : scanIpv4 text = some (ip, rest)) :
    ∃ address, IsDotted address ∧ text = address ++ rest := by
  simp only [scanIpv4, Option.bind_eq_bind, Option.bind_eq_some_iff, Prod.exists,
    scanChar_eq_some] at h
  obtain ⟨_, _, ha, _, _, rfl, _, _, hb, _, _, rfl, _, _, hc, _, _, rfl, _, _, hd, heq⟩ := h
  obtain ⟨-, rfl⟩ := Prod.mk.inj (Option.some.inj heq)
  obtain ⟨a, ha256, rfl⟩ := exists_toDigits_of_scanOctet ha
  obtain ⟨b, hb256, rfl⟩ := exists_toDigits_of_scanOctet hb
  obtain ⟨c, hc256, rfl⟩ := exists_toDigits_of_scanOctet hc
  obtain ⟨d, hd256, rfl⟩ := exists_toDigits_of_scanOctet hd
  refine ⟨_, ⟨a, b, c, d, ha256, hb256, hc256, hd256, rfl⟩, ?_⟩
  simp only [List.append_assoc, List.cons_append]

/-! ## Groups -/

/-- A text behind a colon, unless it comes first. -/
def behindColon (first : Bool) (text : List Char) : List Char :=
  if first then text else ':' :: text

theorem afterColon_eq_some {α : Type} {first : Bool} {scan : Scan α} {value : α} :
    afterColon first scan text = some (value, rest) ↔
      ∃ body, text = behindColon first body ∧ scan body = some (value, rest) := by
  cases first with
  | true => simp [afterColon, behindColon]
  | false => simp [afterColon, behindColon, Option.bind_eq_some_iff, scanChar_eq_some]

/-- A text that goes on with a colon, if it goes on. -/
def EndsGroup (text : List Char) : Prop := ∀ c ∈ text.head?, c = ':'

theorem EndsGroup.not_isHexDigit (hrest : EndsGroup rest) : ∀ c ∈ rest.head?, ¬ IsHexDigit c := by
  intro c hc
  rw [hrest c hc]
  exact not_isHexDigit_colon

theorem EndsGroup.endsDigits (hrest : EndsGroup rest) : EndsDigits rest := by
  intro c hc
  rw [hrest c hc]
  rfl

theorem EndsGroup.head_ne_point (hrest : EndsGroup rest) (after : List Char) :
    rest ≠ '.' :: after := by
  rintro rfl
  exact absurd (hrest '.' rfl) (by decide)

/-- No address of version 4 begins with a group of its own. -/
theorem scanIpv4_of_isGroup (hgroup : IsGroup text) (hrest : EndsGroup rest) :
    scanIpv4 (text ++ rest) = none := by
  cases hscan : scanIpv4 (text ++ rest) with
  | none => rfl
  | some found =>
    obtain ⟨_, ⟨a, b, c, d, -, -, -, -, rfl⟩, hsplit⟩ := isDotted_of_scanIpv4 hscan
    rw [List.append_assoc, List.cons_append, List.append_eq_append_iff] at hsplit
    rcases hsplit with ⟨digits, ha, hdigits⟩ | ⟨more, hmore, hpoint⟩
    · cases digits with
      | nil => exact absurd hdigits (hrest.head_ne_point _)
      | cons e digits =>
        have hmem : e ∈ Nat.toDigits 10 a := ha ▸ List.mem_append_right text List.mem_cons_self
        have he : e.isDigit = true := isDigit_toDigits e hmem
        have hend := hrest e (by simp [hdigits])
        rw [hend] at he
        exact absurd he (by decide)
    · cases more with
      | nil => exact absurd hpoint.symm (hrest.head_ne_point _)
      | cons e more =>
        obtain ⟨rfl, -⟩ := List.cons.inj hpoint
        exact absurd (hgroup.digits '.' (hmore ▸ by simp)) not_isHexDigit_point

/-- The groups that are taken are groups of the grammar, within the limit. -/
theorem isGroups_of_scanGroups {limit : Nat} {first embedded : Bool} {groups : List UInt16}
    (h : scanGroups limit first text = (groups, embedded, rest)) :
    groups.length ≤ limit ∧ (groups = [] ∧ embedded = false ∧ text = rest ∨
      ∃ body, IsGroups groups.length embedded body ∧ text = behindColon first body ++ rest) := by
  induction limit generalizing first text groups with
  | zero =>
    obtain ⟨rfl, rfl, rfl⟩ : [] = groups ∧ false = embedded ∧ text = rest := by
      simpa [scanGroups] using h
    exact ⟨Nat.le_refl _, .inl ⟨rfl, rfl, rfl⟩⟩
  | succ limit ih =>
    rw [scanGroups] at h
    split at h
    next ip after hip =>
      obtain ⟨rfl, rfl, rfl⟩ : ip.toGroups = groups ∧ true = embedded ∧ after = rest := by
        simpa using h
      obtain ⟨hlimit, hip⟩ := Option.ite_none_left_eq_some.mp hip
      obtain ⟨body, rfl, hbody⟩ := afterColon_eq_some.mp hip
      obtain ⟨address, haddress, rfl⟩ := isDotted_of_scanIpv4 hbody
      refine ⟨?_, .inr ⟨address, .dotted haddress, ?_⟩⟩
      · show 2 ≤ limit + 1
        omega
      · cases first <;> rfl
    next =>
      split at h
      next value after hvalue =>
        obtain ⟨body, rfl, hbody⟩ := afterColon_eq_some.mp hvalue
        obtain ⟨group, hgroup, rfl⟩ := isGroup_of_scanGroup hbody
        obtain ⟨more, hmore, rfl⟩ : ∃ more, scanGroups limit false after = (more, embedded, rest) ∧
            value :: more = groups := by
          rcases hrec : scanGroups limit false after with ⟨more, _, _⟩
          rw [hrec] at h
          obtain ⟨rfl, rfl, rfl⟩ := by simpa using h
          exact ⟨more, rfl, rfl⟩
        obtain ⟨hlength, ⟨rfl, rfl, rfl⟩ | ⟨body, hgroups, rfl⟩⟩ := ih hmore
        · refine ⟨Nat.le_add_left _ _, .inr ⟨group, .one hgroup, ?_⟩⟩
          cases first <;> rfl
        · refine ⟨Nat.succ_le_succ hlength, .inr ⟨_, .more hgroup hgroups, ?_⟩⟩
          cases first <;> simp [behindColon]
      next =>
        obtain ⟨rfl, rfl, rfl⟩ : [] = groups ∧ false = embedded ∧ text = rest := by
          simpa using h
        exact ⟨Nat.zero_le _, .inl ⟨rfl, rfl, rfl⟩⟩

/-- The groups that come first in a text, if there are any. -/
theorem isSide_of_scanGroups {limit : Nat} {embedded : Bool} {groups : List UInt16}
    (h : scanGroups limit true text = (groups, embedded, rest)) :
    groups.length ≤ limit ∧ ∃ side, IsSide groups.length embedded side ∧ text = side ++ rest := by
  obtain ⟨hlength, ⟨rfl, rfl, rfl⟩ | ⟨body, hgroups, rfl⟩⟩ := isGroups_of_scanGroups h
  · exact ⟨hlength, [], .nothing, rfl⟩
  · exact ⟨hlength, body, .groups hgroups, rfl⟩

/-- A text with which no further group begins: the end, or a gap. -/
def EndsGroups (text : List Char) : Prop := text = [] ∨ ∃ rest, text = ':' :: ':' :: rest

theorem EndsGroups.endsGroup (h : EndsGroups rest) : EndsGroup rest := by
  rcases h with rfl | ⟨more, rfl⟩
  · exact nofun
  · rintro _ ⟨⟩
    rfl

theorem scanGroups_of_endsGroups (h : EndsGroups rest) (limit : Nat) (first : Bool) :
    scanGroups limit first rest = ([], false, rest) := by
  cases limit with
  | zero => rfl
  | succ limit =>
    have hip : afterColon first scanIpv4 rest = none := by
      rcases h with rfl | ⟨more, rfl⟩ <;> cases first <;> rfl
    have hgroup : afterColon first scanGroup rest = none := by
      rcases h with rfl | ⟨more, rfl⟩ <;> cases first <;> rfl
    simp only [scanGroups, hip, hgroup, ite_self]

theorem afterColon_behindColon {α : Type} (first : Bool) (scan : Scan α) (body rest : List Char) :
    afterColon first scan (behindColon first body ++ rest) = scan (body ++ rest) := by
  cases first <;> rfl

/-- A group is taken where no address of version 4 is. -/
theorem scanGroups_group {group : List Char} (hgroup : IsGroup group) (hrest : EndsGroup rest)
    (limit : Nat) (first : Bool) :
    ∃ value, scanGroups (limit + 1) first (behindColon first group ++ rest) =
      (value :: (scanGroups limit false rest).1, (scanGroups limit false rest).2) := by
  obtain ⟨value, hvalue⟩ := exists_scanGroup hgroup hrest.not_isHexDigit
  refine ⟨value, ?_⟩
  simp only [scanGroups, afterColon_behindColon, scanIpv4_of_isGroup hgroup hrest, hvalue, ite_self]

/-- All groups of the grammar are taken if no further one begins behind them. -/
theorem exists_scanGroups {n limit : Nat} {embedded : Bool} {body : List Char}
    (h : IsGroups n embedded body) (hlimit : n ≤ limit) (hrest : EndsGroups rest) (first : Bool) :
    ∃ groups, groups.length = n ∧
      scanGroups limit first (behindColon first body ++ rest) = (groups, embedded, rest) := by
  induction h generalizing limit first with
  | one hgroup =>
    obtain ⟨limit, rfl⟩ := Nat.exists_eq_add_of_le' hlimit
    obtain ⟨value, hvalue⟩ := scanGroups_group hgroup hrest.endsGroup limit first
    rw [scanGroups_of_endsGroups hrest] at hvalue
    exact ⟨[value], rfl, hvalue⟩
  | dotted haddress =>
    obtain ⟨limit, rfl⟩ := Nat.exists_eq_add_of_le' hlimit
    obtain ⟨ip, hip⟩ := exists_scanIpv4 haddress hrest.endsGroup.endsDigits
    refine ⟨ip.toGroups, rfl, ?_⟩
    simp only [scanGroups, afterColon_behindColon, hip]
    rfl
  | @more group body n embedded hgroup _ ih =>
    obtain ⟨limit, rfl⟩ := Nat.exists_eq_add_of_le' (Nat.le_trans (Nat.le_add_left 1 n) hlimit)
    have hcolon : EndsGroup (behindColon false body ++ rest) := by
      rintro _ ⟨⟩
      rfl
    obtain ⟨value, hvalue⟩ := scanGroups_group hgroup hcolon limit first
    obtain ⟨groups, hlength, hgroups⟩ := ih (Nat.le_of_succ_le_succ hlimit) false
    rw [hgroups] at hvalue
    refine ⟨value :: groups, congrArg Nat.succ hlength, ?_⟩
    rw [← hvalue]
    cases first <;> simp [behindColon]

/-- So are those on a side of a gap. -/
theorem exists_scanGroups_of_isSide {n limit : Nat} {embedded : Bool} {body : List Char}
    (h : IsSide n embedded body) (hlimit : n ≤ limit) (hrest : EndsGroups rest) :
    ∃ groups, groups.length = n ∧
      scanGroups limit true (body ++ rest) = (groups, embedded, rest) := by
  cases h with
  | nothing => exact ⟨[], rfl, scanGroups_of_endsGroups hrest limit true⟩
  | groups h => exact exists_scanGroups h hlimit hrest true

/-! ## The whole address -/

/-- The characters of addresses. -/
def IsAddressChar (c : Char) : Prop := IsHexDigit c ∨ c = ':' ∨ c = '.'

instance (c : Char) : Decidable (IsAddressChar c) := inferInstanceAs (Decidable (_ ∨ _))

theorem IsDotted.isAddressChar (h : IsDotted text) : ∀ c ∈ text, IsAddressChar c := by
  obtain ⟨a, b, c, d, -, -, -, -, rfl⟩ := h
  have hdigits (n : Nat) : ∀ e ∈ Nat.toDigits 10 n, IsAddressChar e :=
    fun e he => .inl (.inl (isDigit_toDigits e he))
  simp only [List.forall_mem_append, List.forall_mem_cons]
  have hpoint : IsAddressChar '.' := .inr (.inr rfl)
  exact ⟨hdigits a, hpoint, hdigits b, hpoint, hdigits c, hpoint, hdigits d⟩

theorem IsGroups.isAddressChar {n : Nat} {embedded : Bool} (h : IsGroups n embedded text) :
    ∀ c ∈ text, IsAddressChar c := by
  induction h with
  | one hgroup => exact fun c hc => .inl (hgroup.digits c hc)
  | dotted haddress => exact haddress.isAddressChar
  | more hgroup _ ih =>
    rw [List.forall_mem_append, List.forall_mem_cons]
    exact ⟨fun c hc => .inl (hgroup.digits c hc), .inr (.inl rfl), ih⟩

theorem IsSide.isAddressChar {n : Nat} {embedded : Bool} (h : IsSide n embedded text) :
    ∀ c ∈ text, IsAddressChar c := by
  cases h with
  | nothing => exact nofun
  | groups h => exact h.isAddressChar

/-- An address of version 6 consists of digits, colons and points. -/
theorem IsIpv6Text.isAddressChar (h : IsIpv6Text text) : ∀ c ∈ text, IsAddressChar c := by
  cases h with
  | full h => exact h.isAddressChar
  | gap hhead htail _ =>
    simp only [List.forall_mem_append, List.forall_mem_cons]
    exact ⟨hhead.isAddressChar, .inr (.inl rfl), .inr (.inl rfl), htail.isAddressChar⟩

theorem exists_ofParts? (head tail : List UInt16) (h : head.length + tail.length ≤ 8) :
    ∃ ip, Ipv6.ofParts? head tail = some ip := by
  have hlength : (head ++ List.replicate (8 - head.length - tail.length) 0 ++ tail).length = 8 := by
    simp only [List.length_append, List.length_replicate]
    omega
  exact ⟨_, dif_pos hlength⟩

/-- Eight groups are an address. -/
theorem scanIpv6_of_length {head : List UInt16} {embedded : Bool}
    (h : scanGroups 8 true text = (head, embedded, rest)) (hlength : head.length = 8) :
    ∃ ip, scanIpv6 text = some (ip, rest) := by
  obtain ⟨ip, hip⟩ := exists_ofParts? head [] (Nat.le_of_eq hlength)
  refine ⟨ip, ?_⟩
  simp only [scanIpv6, h, hlength, if_true, hip]
  rfl

/-- Fewer groups are one only around a gap. -/
theorem scanIpv6_of_length_ne {head : List UInt16} {embedded : Bool} {after : List Char}
    (h : scanGroups 8 true text = (head, embedded, after)) (hlength : head.length ≠ 8) :
    (∃ ip, scanIpv6 text = some (ip, rest)) ↔ embedded = false ∧ ∃ body tail ends,
      after = ':' :: ':' :: body ∧ scanGroups (7 - head.length) true body = (tail, ends, rest) := by
  simp only [scanIpv6, h, if_neg hlength, Option.bind_eq_bind]
  cases embedded with
  | true => simp [guard]
  | false =>
    constructor
    · rintro ⟨ip, hip⟩
      obtain ⟨body, rfl, -, hrest⟩ : ∃ body, after = ':' :: ':' :: body ∧
          Ipv6.ofParts? head (scanGroups (7 - head.length) true body).1 = some ip ∧
            (scanGroups (7 - head.length) true body).2.2 = rest := by
        simpa [guard, Option.bind_eq_some_iff, scanChar_eq_some] using hip
      exact ⟨rfl, body, _, _, rfl, Prod.ext rfl (Prod.ext rfl hrest)⟩
    · rintro ⟨-, body, tail, ends, rfl, htail⟩
      have hhead := (isGroups_of_scanGroups h).1
      have hlimit := (isGroups_of_scanGroups htail).1
      obtain ⟨ip, hip⟩ := exists_ofParts? head tail (by omega)
      refine ⟨ip, ?_⟩
      simp [guard, scanChar, htail, hip]

/-- The texts that are taken as an address of version 6 are those of the grammar. -/
theorem exists_scanIpv6_iff : (∃ ip, scanIpv6 text = some (ip, [])) ↔ IsIpv6Text text := by
  constructor
  · rintro ⟨ip, hip⟩
    rcases hhead : scanGroups 8 true text with ⟨head, embedded, rest⟩
    obtain ⟨hlimit, hgroups⟩ := isGroups_of_scanGroups hhead
    by_cases hlength : head.length = 8
    · obtain ⟨_, htaken⟩ := scanIpv6_of_length hhead hlength
      rw [hip] at htaken
      obtain ⟨-, rfl⟩ := Prod.mk.inj (Option.some.inj htaken)
      rcases hgroups with ⟨rfl, -⟩ | ⟨body, hbody, rfl⟩
      · cases hlength
      · rw [hlength] at hbody
        rw [behindColon, if_pos rfl, List.append_nil]
        exact .full hbody
    · obtain ⟨rfl, body, tail, ends, rfl, htail⟩ :=
        (scanIpv6_of_length_ne hhead hlength).mp ⟨ip, hip⟩
      obtain ⟨-, before, hbefore, rfl⟩ := isSide_of_scanGroups hhead
      obtain ⟨hroom, behind, hbehind, rfl⟩ := isSide_of_scanGroups htail
      rw [List.append_nil]
      exact .gap hbefore hbehind (by omega)
  · rintro (hfull | @⟨m, n, embedded, before, behind, hhead, htail, hsum⟩)
    · obtain ⟨head, hlength, hhead⟩ :=
        exists_scanGroups hfull (Nat.le_refl 8) (.inl rfl : EndsGroups []) true
      rw [List.append_nil] at hhead
      exact scanIpv6_of_length hhead hlength
    · obtain ⟨head, hlength, hhead⟩ := exists_scanGroups_of_isSide hhead (show m ≤ 8 by omega)
        (.inr ⟨behind, rfl⟩ : EndsGroups (':' :: ':' :: behind))
      obtain ⟨tail, -, htail⟩ := exists_scanGroups_of_isSide htail (show n ≤ 7 - m by omega)
        (.inl rfl : EndsGroups [])
      rw [List.append_nil, ← hlength] at htail
      exact (scanIpv6_of_length_ne hhead (by omega)).mpr
        ⟨rfl, behind, tail, embedded, rfl, htail⟩

/-- The texts that are read as an address of version 6 are those of the grammar. -/
theorem Ipv6.isSome_parse?_iff (text : String) :
    (Ipv6.parse? text).isSome = true ↔ IsIpv6Text text.toList := by
  rw [← exists_scanIpv6_iff]
  unfold Ipv6.parse?
  split
  next ip h => simp [h]
  next h => simpa using h

end NodeScrape.Net
