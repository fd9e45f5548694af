import NodeScrape.Proofs.Json.Phrase
import NodeScrape.Proofs.Json.Written

/-!
# Tokens and their spelling

A token is read from every one of its spellings, whatever stands behind it, and whatever is read as
a token without a fault is one of its spellings.
-/

namespace NodeScrape.Json

variable {b e : UInt8} {n : Nat} {bytes rest : List UInt8}

/-! ## Digits -/

private theorem ofNat_add_sub {k : Nat} (hk : k ≤ b.toNat) : UInt8.ofNat (k + (b.toNat - k)) = b := by
  rw [Nat.add_sub_cancel' hk, UInt8.ofNat_toNat]

theorem digit?_digitByte (d : Fin 10) : digit? (digitByte d) = some d.val := by
  revert d
  decide

/-- A decimal digit has one byte. -/
theorem exists_of_digit? (hb : digit? b = some n) : ∃ d : Fin 10, digitByte d = b ∧ d.val = n := by
  obtain ⟨hlow, hhigh⟩ := le_of_digit? hb
  have hn : b.toNat - 0x30 = n := by
    unfold digit? at hb
    split at hb
    · exact Option.some.inj hb
    · cases hb
  exact ⟨⟨b.toNat - 0x30, by omega⟩, ofNat_add_sub hlow, hn⟩

theorem hexDigit?_byte (h : HexDigit) : hexDigit? h.byte = some h.value.val := by
  obtain ⟨value, capital⟩ := h
  revert value capital
  decide

/-- A hexadecimal digit is spelled in one of its two cases. -/
theorem exists_of_hexDigit? (hb : hexDigit? b = some n) :
    ∃ h : HexDigit, h.byte = b ∧ h.value.val = n := by
  unfold hexDigit? at hb
  simp only [Bool.and_eq_true, decide_eq_true_iff, UInt8.le_iff_toNat_le, UInt8.reduceToNat] at hb
  split at hb
  next hdecimal =>
    obtain rfl := Option.some.inj hb
    have hsmall : b.toNat - 0x30 < 10 := by omega
    refine ⟨⟨⟨b.toNat - 0x30, by omega⟩, false⟩, ?_, rfl⟩
    simp only [HexDigit.byte, if_pos hsmall]
    exact ofNat_add_sub hdecimal.1
  split at hb
  next hcapital =>
    obtain rfl := Option.some.inj hb
    have hlarge : ¬ b.toNat - 0x41 + 10 < 10 := by omega
    refine ⟨⟨⟨b.toNat - 0x41 + 10, by omega⟩, true⟩, ?_, rfl⟩
    simp only [HexDigit.byte, if_neg hlarge, if_true]
    rw [show 0x37 + (b.toNat - 0x41 + 10) = 0x41 + (b.toNat - 0x41) by omega]
    exact ofNat_add_sub hcapital.1
  split at hb
  next hsmall =>
    obtain rfl := Option.some.inj hb
    have hlarge : ¬ b.toNat - 0x61 + 10 < 10 := by omega
    refine ⟨⟨⟨b.toNat - 0x61 + 10, by omega⟩, false⟩, ?_, rfl⟩
    simp only [HexDigit.byte, if_neg hlarge, Bool.false_eq_true, if_false]
    rw [show 0x57 + (b.toNat - 0x61 + 10) = 0x61 + (b.toNat - 0x61) by omega]
    exact ofNat_add_sub hsmall.1
  next => cases hb

/-- A text that does not go on with a digit. -/
def EndsRun (rest : List UInt8) : Prop := ∀ b ∈ rest.head?, digit? b = none

/-- Digits are read up to where they end. -/
theorem digits_spelled (ds : List (Fin 10)) (hrest : EndsRun rest) :
    digits (ds.map digitByte ++ rest) = (ds.map Fin.val, rest) := by
  induction ds with
  | nil =>
    cases rest with
    | nil => rfl
    | cons b rest =>
      have hb : digit? b = none := hrest b rfl
      simp [digits, hb]
  | cons d ds ih =>
    rw [List.map_cons, List.cons_append, digits, digit?_digitByte, ih]
    rfl

/-- What is read as digits is spelled by digits, and no further digit follows. -/
theorem spelled_of_digits : ∀ bytes : List UInt8,
    ∃ ds : List (Fin 10), (digits bytes).1 = ds.map Fin.val ∧
      bytes = ds.map digitByte ++ (digits bytes).2 ∧ EndsRun (digits bytes).2
  | [] => ⟨[], rfl, rfl, nofun⟩
  | b :: rest => by
    cases hb : digit? b with
    | none =>
      have hread : digits (b :: rest) = ([], b :: rest) := by rw [digits, hb]
      rw [hread]
      refine ⟨[], rfl, rfl, fun c hc => ?_⟩
      obtain rfl : b = c := Option.some.inj hc
      exact hb
    | some n =>
      have hread : digits (b :: rest) = (n :: (digits rest).1, (digits rest).2) := by
        rw [digits, hb]
      obtain ⟨d, hd, hn⟩ := exists_of_digit? hb
      obtain ⟨ds, hds, hrest, hend⟩ := spelled_of_digits rest
      rw [hread]
      refine ⟨d :: ds, ?_, ?_, hend⟩
      · rw [List.map_cons, hn, hds]
      · rw [List.map_cons, List.cons_append, hd, ← hrest]

/-! ## Strings -/

private theorem mem_shortEscapes {letter value : UInt8} (he : e = letter)
    (hb : some value = some b) (h : (letter, value) ∈ shortEscapes) : (e, b) ∈ shortEscapes := by
  obtain rfl := Option.some.inj hb
  exact he ▸ h

/-- The letters behind a backslash are the short escapes. -/
theorem shortEscape?_eq_some_iff : shortEscape? e = some b ↔ (e, b) ∈ shortEscapes := by
  constructor
  · intro h
    unfold shortEscape? at h
    split at h
    next hself =>
      obtain rfl := Option.some.inj h
      simp only [Bool.or_eq_true, decide_eq_true_iff, or_assoc] at hself
      rcases hself with rfl | rfl | rfl <;> decide
    split at h
    next he => exact mem_shortEscapes he h (by decide)
    split at h
    next he => exact mem_shortEscapes he h (by decide)
    split at h
    next he => exact mem_shortEscapes he h (by decide)
    split at h
    next he => exact mem_shortEscapes he h (by decide)
    split at h
    next he => exact mem_shortEscapes he h (by decide)
    next => cases h
  · intro h
    simp only [shortEscapes, List.mem_cons, List.not_mem_nil, or_false, Prod.mk.injEq] at h
    rcases h with ⟨rfl, rfl⟩ | ⟨rfl, rfl⟩ | ⟨rfl, rfl⟩ | ⟨rfl, rfl⟩ | ⟨rfl, rfl⟩ | ⟨rfl, rfl⟩ |
      ⟨rfl, rfl⟩ | ⟨rfl, rfl⟩ <;> rfl

/-- A unit of a string is read from its bytes. -/
theorem textToken_letter (letter : Letter) (rest : List UInt8) :
    textToken (letter.bytes ++ rest) = consPiece letter.piece (textToken rest) := by
  cases letter with
  | plain value valid => exact textToken_self valid.1 valid.2.1 valid.2.2
  | escape letter value valid =>
    have hunit : letter ≠ 0x75 := by
      rintro rfl
      revert valid
      simp [shortEscapes]
    exact textToken_shortEscape hunit (shortEscape?_eq_some_iff.mpr valid)
  | unit a b c d =>
    rw [Letter.bytes, textToken.eq_def]
    simp [hexDigit?_byte, Letter.piece]

/-- A string is read from every one of its spellings. -/
theorem textToken_spelled (s : StringText) (rest : List UInt8) :
    textToken (s.letters.flatMap Letter.bytes ++ 0x22 :: rest) = (s.token, rest) := by
  obtain ⟨letters⟩ := s
  induction letters with
  | nil =>
    rw [textToken.eq_def]
    simp [StringText.token]
  | cons letter letters ih =>
    rw [List.flatMap_cons, List.append_assoc, textToken_letter, ih]
    rfl

private theorem spelled_letter (letter : Letter) {bytes : List UInt8}
    (h : ∃ s : StringText, s.token = (textToken bytes).1 ∧
      bytes = s.letters.flatMap Letter.bytes ++ 0x22 :: (textToken bytes).2) :
    ∃ s : StringText, s.token = (consPiece letter.piece (textToken bytes)).1 ∧
      letter.bytes ++ bytes = s.letters.flatMap Letter.bytes ++
        0x22 :: (consPiece letter.piece (textToken bytes)).2 := by
  obtain ⟨s, htoken, hbytes⟩ := h
  refine ⟨⟨letter :: s.letters⟩, ?_, ?_⟩
  · rw [consPiece, ← htoken]
    rfl
  · rw [List.flatMap_cons, List.append_assoc, consPiece, ← hbytes]

/-- What is read as a string with its closing quote is one of the spellings of that string. -/
theorem spelled_of_textToken (bytes : List UInt8) (hfault : (textToken bytes).1.fault = none) :
    ∃ s : StringText, s.token = (textToken bytes).1 ∧
      bytes = s.letters.flatMap Letter.bytes ++ 0x22 :: (textToken bytes).2 := by
  induction bytes using textToken.induct with
  | case1 => cases hfault
  | case2 rest => exact ⟨⟨[]⟩, by rw [textToken.eq_def]; rfl, by rw [textToken.eq_def]; rfl⟩
  | case3 => cases hfault
  | case4 a b c d rest a' b' c' d' hd hc hb ha _ ih =>
    obtain ⟨a, rfl, rfl⟩ := exists_of_hexDigit? ha
    obtain ⟨b, rfl, rfl⟩ := exists_of_hexDigit? hb
    obtain ⟨c, rfl, rfl⟩ := exists_of_hexDigit? hc
    obtain ⟨d, rfl, rfl⟩ := exists_of_hexDigit? hd
    have hread : textToken (0x5c :: 0x75 :: a.byte :: b.byte :: c.byte :: d.byte :: rest) = _ :=
      textToken_letter (.unit a b c d) rest
    rw [hread] at hfault ⊢
    exact spelled_letter (.unit a b c d) (ih hfault)
  | case5 a b c d rest hbad _ =>
    rw [textToken.eq_def] at hfault
    simp only [show ¬ (0x5c : UInt8) = 0x22 by decide, if_false, if_true] at hfault
    cases hfault
  | case6 rest hshort _ =>
    rw [textToken.eq_def] at hfault
    simp only [show ¬ (0x5c : UInt8) = 0x22 by decide, if_false, if_true] at hfault
    cases hfault
  | case7 e rest hunit byte hshort _ ih =>
    have hvalid := shortEscape?_eq_some_iff.mp hshort
    have hread : textToken (0x5c :: e :: rest) = _ := textToken_letter (.escape e byte hvalid) rest
    rw [hread] at hfault ⊢
    exact spelled_letter (.escape e byte hvalid) (ih hfault)
  | case8 e rest hunit hshort _ =>
    rw [textToken.eq_def] at hfault
    simp only [show ¬ (0x5c : UInt8) = 0x22 by decide, if_false, if_true, if_neg hunit, hshort]
      at hfault
    cases hfault
  | case9 b rest hquote hbackslash hcontrol =>
    rw [textToken.eq_def] at hfault
    simp only [if_neg hquote, if_neg hbackslash, if_pos hcontrol] at hfault
    cases hfault
  | case10 b rest hquote hbackslash hcontrol ih =>
    have hvalid := And.intro hquote (And.intro hbackslash hcontrol)
    have hread : textToken (b :: rest) = _ := textToken_letter (.plain b hvalid) rest
    rw [hread] at hfault ⊢
    exact spelled_letter (.plain b hvalid) (ih hfault)

/-! ## Numbers -/

theorem endsRun_of_endsNumber (hrest : EndsNumber rest) : EndsRun rest := fun b hb => (hrest b hb).1

theorem digitByte_ne (d : Fin 10) {c : UInt8} (hc : c.toNat < 48 ∨ 57 < c.toNat) :
    digitByte d ≠ c :=
  digit_ne (digit?_digitByte d) hc

/-- What an exponent comes to behind its sign. -/
private def exponentOf (negative : Bool) (bytes : List UInt8) : Except Bool (Int × List UInt8) :=
  match digits bytes with
  | ([], rest) => .error rest.isEmpty
  | (ds, rest) => .ok (if negative then -(natOfDigits ds : Int) else natOfDigits ds, rest)

/-- A sign is taken off the start of an exponent, unless something else stands there. -/
private theorem exponent_cases (bytes : List UInt8) :
    ∃ sign after, bytes = ExponentText.signBytes sign ++ after ∧
      exponent bytes = exponentOf (sign = some true) after := by
  unfold exponent
  split
  rename_i negative after hsign
  split at hsign
  all_goals obtain ⟨rfl, rfl⟩ := Prod.mk.inj hsign
  · exact ⟨some false, _, rfl, rfl⟩
  · exact ⟨some true, _, rfl, rfl⟩
  · exact ⟨none, _, rfl, rfl⟩

/-- An exponent is read from every one of its spellings. -/
theorem exponent_spelled (e : ExponentText) (hrest : EndsRun rest) :
    exponent (ExponentText.signBytes e.sign ++ e.digits.map digitByte ++ rest) =
      .ok (e.value, rest) := by
  obtain ⟨capital, sign, ds, hne⟩ := e
  obtain ⟨d, ds, rfl⟩ := List.exists_cons_of_ne_nil hne
  have hread : exponentOf (sign = some true) ((d :: ds).map digitByte ++ rest) =
      .ok (ExponentText.value ⟨capital, sign, d :: ds, hne⟩, rest) := by
    rw [exponentOf, digits_spelled (d :: ds) hrest]
    cases sign with
    | none => rfl
    | some negative => cases negative <;> rfl
  rw [← hread]
  cases sign with
  | none =>
    have hplus := digitByte_ne d (c := 0x2b) (by decide)
    have hminus := digitByte_ne d (c := 0x2d) (by decide)
    obtain ⟨sign, after, hbytes, hexponent⟩ := exponent_cases ((d :: ds).map digitByte ++ rest)
    cases sign with
    | none => exact hbytes ▸ hexponent
    | some negative =>
      cases negative with
      | false => exact absurd (List.cons.inj hbytes).1 hplus
      | true => exact absurd (List.cons.inj hbytes).1 hminus
  | some negative => cases negative <;> rfl

/-- What is read as an exponent is one of its spellings. -/
theorem spelled_of_exponent {x : Int} (capital : Bool) (h : exponent bytes = .ok (x, rest)) :
    ∃ e : ExponentText, e.capital = capital ∧ e.value = x ∧
      bytes = ExponentText.signBytes e.sign ++ e.digits.map digitByte ++ rest := by
  obtain ⟨sign, after, rfl, hexponent⟩ := exponent_cases bytes
  obtain ⟨ds, hds, hafter, -⟩ := spelled_of_digits after
  have hread : digits after = (ds.map Fin.val, (digits after).2) := Prod.ext hds rfl
  rw [hexponent, exponentOf, hread] at h
  cases ds with
  | nil => cases h
  | cons d ds =>
    obtain ⟨hx, hrest⟩ := Prod.mk.inj (Except.ok.inj h)
    refine ⟨⟨capital, sign, d :: ds, List.cons_ne_nil d ds⟩, rfl, ?_, ?_⟩
    · rw [← hx]
      cases sign with
      | none => rfl
      | some negative => cases negative <;> rfl
    · rw [← hrest, List.append_assoc, ← hafter]

/-- The digits behind a point. -/
private def fractionPart : List UInt8 → Except Bool (List Nat × List UInt8)
  | 0x2e :: rest => match digits rest with
    | ([], rest) => .error rest.isEmpty
    | (fraction, rest) => .ok (fraction, rest)
  | bytes => .ok ([], bytes)

/-- The exponent, if one is announced. -/
private def exponentPart : List UInt8 → Except Bool (Option Int × List UInt8)
  | b :: after =>
    if b = 0x65 || b = 0x45 then (exponent after).map fun (e, rest) => (some e, rest)
    else .ok (none, b :: after)
  | [] => .ok (none, [])

/-- What a number comes to behind its whole digits. -/
private def behindWhole (negative : Bool) (whole : List Nat) (bytes : List UInt8) :
    Except Bool (NumberToken × List UInt8) := do
  let (fraction, rest) ← fractionPart bytes
  let (e, rest) ← exponentPart rest
  return (⟨negative, whole, fraction, e⟩, rest)

/-- No zero stands before other digits. -/
private def IsWhole (ds : List Nat) : Prop := ds = [0] ∨ ∃ d rest, ds = d :: rest ∧ d ≠ 0

private theorem isWhole_map_iff {whole : List (Fin 10)} :
    IsWhole (whole.map Fin.val) ↔ whole = [0] ∨ ∃ d ds, whole = d :: ds ∧ d ≠ 0 := by
  have hzero : whole.map Fin.val = [0] ↔ whole = [0] := by
    constructor
    · intro h
      obtain ⟨d, rfl, hd⟩ := List.map_eq_singleton_iff.mp h
      exact congrArg (fun d => [d]) (Fin.ext hd)
    · rintro rfl
      rfl
  rw [IsWhole, hzero]
  refine or_congr_right ?_
  cases whole with
  | nil => exact iff_of_false (by rintro ⟨d, ds, h, -⟩; cases h) (by rintro ⟨d, ds, h, -⟩; cases h)
  | cons d ds =>
    constructor
    · rintro ⟨_, _, ⟨rfl, rfl⟩, hd⟩
      exact ⟨d, ds, rfl, fun h => hd (congrArg Fin.val h)⟩
    · rintro ⟨_, _, ⟨rfl, rfl⟩, hd⟩
      exact ⟨d.val, ds.map Fin.val, rfl, fun h => hd (Fin.ext h)⟩

private theorem behindFraction_eq (negative : Bool) (whole fraction : List Nat) (rest : List UInt8) :
    (match rest with
      | b :: after =>
        if (b = 0x65 || b = 0x45) = true then do
          let (e, rest) ← exponent after
          return (⟨negative, whole, fraction, some e⟩, rest)
        else return (⟨negative, whole, fraction, none⟩, rest)
      | [] => return (⟨negative, whole, fraction, none⟩, rest) :
        Except Bool (NumberToken × List UInt8)) = do
      let (e, rest) ← exponentPart rest
      return (⟨negative, whole, fraction, e⟩, rest) := by
  cases rest with
  | nil => rfl
  | cons b after =>
    simp only [exponentPart]
    split
    · cases exponent after <;> rfl
    · rfl

private theorem fractionPart_bind {β : Type} (rest : List UInt8)
    (next : List Nat × List UInt8 → Except Bool β) :
    (match rest with
      | 0x2e :: rest => match digits rest with
        | ([], rest) => do next (← throw rest.isEmpty)
        | (fraction, rest) => do next (← pure (fraction, rest))
      | _ => do next (← pure ([], rest))) = fractionPart rest >>= next := by
  unfold fractionPart
  split
  · split <;> rfl
  · rfl

private theorem numberToken_eq {negative : Bool} (h : IsWhole (digits bytes).1) :
    numberToken negative bytes = behindWhole negative (digits bytes).1 (digits bytes).2 := by
  unfold numberToken behindWhole
  generalize digits bytes = r at h
  obtain ⟨whole, rest⟩ := r
  simp only [← behindFraction_eq, ← fractionPart_bind]
  obtain rfl | ⟨d, ds, rfl, hd⟩ := h
  · rfl
  · obtain ⟨d, rfl⟩ := Nat.exists_eq_succ_of_ne_zero hd
    rfl

/-- A number is read only where no zero stands before other digits. -/
private theorem isWhole_of_numberToken {negative : Bool} {r : NumberToken × List UInt8}
    (h : numberToken negative bytes = .ok r) : IsWhole (digits bytes).1 := by
  unfold numberToken at h
  generalize digits bytes = r at h ⊢
  obtain ⟨whole, rest⟩ := r
  match whole with
  | [] => cases h
  | [0] => exact .inl rfl
  | 0 :: _ :: _ => cases h
  | (d + 1) :: ds => exact .inr ⟨d + 1, ds, rfl, d.succ_ne_zero⟩

private theorem fractionPart_spelled (fraction : List (Fin 10)) (hrun : EndsRun rest)
    (hpoint : ∀ b ∈ rest.head?, b ≠ 0x2e) :
    fractionPart (NumberText.fractionBytes fraction ++ rest) = .ok (fraction.map Fin.val, rest) := by
  cases fraction with
  | nil =>
    cases rest with
    | nil => rfl
    | cons b rest =>
      have hb : b ≠ 0x2e := hpoint b rfl
      show fractionPart (b :: rest) = _
      unfold fractionPart
      split
      next heq => exact absurd (List.cons.inj heq).1 hb
      next => rfl
  | cons d ds =>
    have hread := digits_spelled (d :: ds) hrun
    show fractionPart (0x2e :: ((d :: ds).map digitByte ++ rest)) = _
    simp only [fractionPart, hread]
    rfl

private theorem spelled_of_fractionPart {fraction : List Nat}
    (h : fractionPart bytes = .ok (fraction, rest)) :
    ∃ ds : List (Fin 10), ds.map Fin.val = fraction ∧
      bytes = NumberText.fractionBytes ds ++ rest := by
  unfold fractionPart at h
  split at h
  next after =>
    obtain ⟨ds, hds, hafter, -⟩ := spelled_of_digits after
    have hread : digits after = (ds.map Fin.val, (digits after).2) := Prod.ext hds rfl
    rw [hread] at h
    cases ds with
    | nil => cases h
    | cons d ds =>
      obtain ⟨hfraction, hrest⟩ := Prod.mk.inj (Except.ok.inj h)
      refine ⟨d :: ds, hfraction, ?_⟩
      rw [← hrest, NumberText.fractionBytes, if_neg (by simp), List.cons_append, ← hafter]
  next =>
    obtain ⟨hfraction, hrest⟩ := Prod.mk.inj (Except.ok.inj h)
    exact ⟨[], hfraction, hrest⟩

private theorem exponentPart_spelled (e : Option ExponentText) (hrest : EndsNumber rest) :
    exponentPart (e.elim [] ExponentText.bytes ++ rest) =
      .ok (e.map ExponentText.value, rest) := by
  cases e with
  | none =>
    cases rest with
    | nil => rfl
    | cons b rest =>
      obtain ⟨-, -, hlower, hupper⟩ := hrest b rfl
      simp [exponentPart, hlower, hupper]
  | some e =>
    have hread := exponent_spelled e (endsRun_of_endsNumber hrest)
    rw [Option.elim_some, ExponentText.bytes, List.cons_append, exponentPart, hread]
    cases e.capital <;> rfl

private theorem spelled_of_exponentPart {x : Option Int}
    (h : exponentPart bytes = .ok (x, rest)) :
    ∃ e : Option ExponentText, e.map ExponentText.value = x ∧
      bytes = e.elim [] ExponentText.bytes ++ rest := by
  cases bytes with
  | nil =>
    obtain ⟨hx, hrest⟩ := Prod.mk.inj (Except.ok.inj h)
    exact ⟨none, hx, hrest⟩
  | cons b after =>
    rw [exponentPart] at h
    split at h
    next hletter =>
      cases hread : exponent after with
      | error atEnd =>
        rw [hread] at h
        cases h
      | ok r =>
        rw [hread] at h
        obtain ⟨hx, hrest⟩ := Prod.mk.inj (Except.ok.inj h)
        obtain ⟨e, hcapital, hvalue, hafter⟩ := spelled_of_exponent (decide (b = 0x45)) hread
        refine ⟨some e, by rw [Option.map_some, hvalue, hx], ?_⟩
        rw [Option.elim_some, ExponentText.bytes, List.cons_append, ← hrest, ← hafter, hcapital]
        simp only [Bool.or_eq_true, decide_eq_true_iff] at hletter
        rcases hletter with rfl | rfl <;> rfl
    next =>
      obtain ⟨hx, hrest⟩ := Prod.mk.inj (Except.ok.inj h)
      exact ⟨none, hx, hrest⟩

/-- What may stand behind the digits of a number: an exponent, or its end. -/
private theorem head_exponent (e : Option ExponentText) (hrest : EndsNumber rest) :
    EndsRun (e.elim [] ExponentText.bytes ++ rest) ∧
      ∀ b ∈ (e.elim [] ExponentText.bytes ++ rest).head?, b ≠ 0x2e := by
  cases e with
  | none => exact ⟨endsRun_of_endsNumber hrest, fun b hb => (hrest b hb).2.1⟩
  | some e =>
    refine ⟨fun b hb => ?_, fun b hb => ?_⟩ <;>
      obtain rfl := Option.some.inj hb <;> cases e.capital <;> decide

/-- A number is read from every one of its spellings, up to where it cannot go on. -/
theorem numberToken_spelled (n : NumberText) (hrest : EndsNumber rest) :
    numberToken n.negative (n.magnitude ++ rest) = .ok (n.token, rest) := by
  obtain ⟨negative, whole, fraction, exponent, hwhole⟩ := n
  obtain ⟨hrun, hpoint⟩ := head_exponent exponent hrest
  have hfraction := fractionPart_spelled fraction hrun hpoint
  have hexponent := exponentPart_spelled exponent hrest
  have hbehind : EndsRun (NumberText.fractionBytes fraction ++
      (exponent.elim [] ExponentText.bytes ++ rest)) := by
    cases fraction with
    | nil => exact hrun
    | cons d ds =>
      intro b hb
      obtain rfl := Option.some.inj hb
      rfl
  have hdigits := digits_spelled whole hbehind
  rw [NumberText.magnitude, List.append_assoc, List.append_assoc,
    numberToken_eq (by rw [hdigits]; exact isWhole_map_iff.mpr hwhole), hdigits, behindWhole]
  simp only [hfraction, hexponent, bind, Except.bind]
  rfl

/-- What is read as a number is one of its spellings. -/
theorem spelled_of_numberToken {negative : Bool} {t : NumberToken}
    (h : numberToken negative bytes = .ok (t, rest)) :
    ∃ n : NumberText, n.negative = negative ∧ n.token = t ∧ bytes = n.magnitude ++ rest := by
  have hwhole := isWhole_of_numberToken h
  obtain ⟨whole, hds, hbytes, -⟩ := spelled_of_digits bytes
  rw [numberToken_eq hwhole, behindWhole] at h
  cases hf : fractionPart (digits bytes).2 with
  | error atEnd =>
    rw [hf] at h
    cases h
  | ok r =>
    obtain ⟨fraction, behind⟩ := r
    simp only [hf, bind, Except.bind] at h
    cases he : exponentPart behind with
    | error atEnd =>
      rw [he] at h
      cases h
    | ok r =>
      obtain ⟨x, after⟩ := r
      simp only [he] at h
      obtain ⟨ht, rfl⟩ := Prod.mk.inj (Except.ok.inj h)
      obtain ⟨fraction, rfl, hbehind⟩ := spelled_of_fractionPart hf
      obtain ⟨e, rfl, hafter⟩ := spelled_of_exponentPart he
      rw [hds] at hwhole
      refine ⟨⟨negative, whole, fraction, e, isWhole_map_iff.mp hwhole⟩, rfl, ?_, ?_⟩
      · rw [← ht, hds]
        rfl
      · rw [NumberText.magnitude, List.append_assoc, List.append_assoc, ← hafter, ← hbehind,
          ← hbytes]

/-! ## Texts as strings -/

/-- A byte of a text as the writer spells it. -/
def Letter.ofByte (b : UInt8) : Letter :=
  if hplain : b ≠ 0x22 ∧ b ≠ 0x5c ∧ ¬ b < 0x20 then .plain b hplain
  else match hshort : shortEscapes.find? (·.2 = b) with
    | some e => .escape e.1 e.2 (List.mem_of_find?_eq_some hshort)
    | none => .unit ⟨0, false⟩ ⟨0, false⟩ ⟨Fin.ofNat 16 (b.toNat / 16), false⟩
      ⟨Fin.ofNat 16 b.toNat, false⟩

/-- A text as the writer spells it. -/
def StringText.ofString (text : String) : StringText := ⟨text.toUTF8.toList.map Letter.ofByte⟩

/-- A name as the writer spells it, with no blanks around it. -/
def Label.ofString (name : String) : Label := ⟨.none, .ofString name, .none, .none⟩

theorem Letter.piece_ofByte (b : UInt8) : (Letter.ofByte b).piece = writtenPiece b := by
  have hall : ∀ n < 256, (Letter.ofByte (UInt8.ofNat n)).piece = writtenPiece (UInt8.ofNat n) := by
    decide +kernel
  simpa using hall b.toNat b.toNat_lt

/-- Every text is read from a string. -/
theorem StringText.read_ofString (text : String) : (ofString text).token.read = .ok text := by
  have htoken : (ofString text).token = .ofString text := by
    simp only [ofString, token, TextToken.ofString, List.map_map, Function.comp_def,
      Letter.piece_ofByte]
  rw [htoken, TextToken.read_ofString]

end NodeScrape.Json
