import NodeScrape.Instruments.Exposition
import NodeScrape.Proofs.Yaml.Number

/-!
# Reading an exposition

A reader of the exposition's text takes it line by line and gives the samples. It stops the value of
a label at the first quote that no backslash escapes, so it gives back what was written exactly if
every value is plain: without a line end, such a quote or an open escape at its end.
-/

namespace NodeScrape.Exposition

open Yaml (decimal? natural?)

/-! ## The reader -/

/-- The lines of a text. -/
def lines : List Char → List (List Char)
  | [] => []
  | c :: rest =>
    if c = '\n' then [] :: lines rest
    else match lines rest with
      | [] => [[c]]
      | line :: more => (c :: line) :: more

/-- Takes the value of a label, up to the first quote that is not escaped. -/
def labelValue? : Text.Scan (List Char)
  | [] => none
  | c :: rest =>
    if c = '"' then some ([], rest)
    else if c = '\\' then match rest with
      | [] => none
      | d :: rest => (labelValue? rest).map fun (value, rest) => (c :: d :: value, rest)
    else (labelValue? rest).map fun (value, rest) => (c :: value, rest)

/-- The characters of the names of samples and labels. -/
def isNameChar (c : Char) : Bool := c.isAlphanum || c = '_'

/-- Takes a label: its name, and its value between quotes. -/
def label? : Text.Scan (String × String) := fun text =>
  match text.dropWhile isNameChar with
  | '=' :: '"' :: rest => do
    let (value, rest) ← labelValue? rest
    return ((String.ofList (text.takeWhile isNameChar), String.ofList value), rest)
  | _ => none

/-- Takes labels parted by commas, up to the brace behind the last one. -/
def labels? : Nat → Text.Scan (List (String × String))
  | 0, _ => none
  | fuel + 1, text => do
    let (label, rest) ← label? text
    match rest with
    | '\x7d' :: rest => return ([label], rest)
    | ',' :: rest =>
      let (more, rest) ← labels? fuel rest
      return (label :: more, rest)
    | _ => none

/-- Reads a quantity: a whole number without a point is a count. -/
def Quantity.read? (text : List Char) : Option Quantity :=
  if text = "NaN".toList then some (.value .undefined)
  else if text = "inf".toList then some (.value (.infinity false))
  else if text = "-inf".toList then some (.value (.infinity true))
  else match natural? 10 text with
    | some n => some (.count n)
    | none => (decimal? text).map .value

/-- Reads the line of a sample. -/
def Sample.read? (line : List Char) : Option Sample :=
  match line.dropWhile isNameChar with
  | '\x7b' :: rest => do
    let (labels, rest) ← labels? rest.length rest
    match rest with
    | ' ' :: rest =>
      return ⟨String.ofList (line.takeWhile isNameChar), labels, ← Quantity.read? rest⟩
    | _ => none
  | _ => none

/-- Reads the samples of an exposition. The other lines begin with a number sign. -/
def read? (text : String) : Option (List Sample) :=
  ((lines text.toList).filter fun line => line.head? ≠ some '#').mapM Sample.read?

/-! ## Lines -/

variable {line rest : List Char}

theorem lines_append (hline : '\n' ∉ line) (rest : List Char) :
    lines (line ++ '\n' :: rest) = line :: lines rest := by
  induction line with
  | nil => rfl
  | cons c line ih =>
    obtain ⟨hc, hmore⟩ := not_or.mp (mt List.mem_cons.mpr hline)
    rw [List.cons_append, lines, if_neg (Ne.symm hc), ih hmore]

/-- Lines that hold no line end are the lines of the text that they make. -/
theorem lines_join {ls : List String} (hls : ∀ l ∈ ls, '\n' ∉ l.toList) :
    lines (String.join (ls.map (· ++ "\n"))).toList = ls.map String.toList := by
  induction ls with
  | nil => rfl
  | cons l ls ih =>
    have hmore := ih fun m hm => hls m (List.mem_cons_of_mem _ hm)
    have hfirst := lines_append (hls l List.mem_cons_self)
      (String.join (ls.map (· ++ "\n"))).toList
    rw [hmore] at hfirst
    simpa [String.join_cons] using hfirst

/-- No line holds a line end. -/
theorem not_mem_of_mem_lines {text : List Char} (hline : line ∈ lines text) : '\n' ∉ line := by
  induction text generalizing line with
  | nil => cases hline
  | cons c text ih =>
    rw [lines] at hline
    by_cases hc : c = '\n'
    · rw [if_pos hc] at hline
      rcases List.mem_cons.mp hline with rfl | hmore
      · exact List.not_mem_nil
      · exact ih hmore
    · rw [if_neg hc] at hline
      cases hlines : lines text with
      | nil =>
        rw [hlines] at hline
        obtain rfl := List.mem_singleton.mp hline
        simpa using Ne.symm hc
      | cons first more =>
        rw [hlines] at hline ih
        rcases List.mem_cons.mp hline with rfl | hmore
        · have hfirst := ih List.mem_cons_self
          simpa [hfirst] using Ne.symm hc
        · exact ih (List.mem_cons_of_mem _ hmore)

/-! ## The values of labels -/

/-- A text in which every quote is escaped, and every escape is closed. -/
def escapesQuotes : List Char → Bool
  | [] => true
  | c :: rest =>
    if c = '"' then false
    else if c = '\\' then match rest with
      | [] => false
      | _ :: rest => escapesQuotes rest
    else escapesQuotes rest

/-- A value of a label that stands between quotes as it is. -/
def IsPlain (value : String) : Prop :=
  '\n' ∉ value.toList ∧ escapesQuotes value.toList = true

instance (value : String) : Decidable (IsPlain value) :=
  inferInstanceAs (Decidable (_ ∧ _))

/-- A value with all quotes escaped is taken up to the quote behind it. -/
theorem labelValue?_append {value : List Char} (hvalue : escapesQuotes value = true)
    (rest : List Char) : labelValue? (value ++ '"' :: rest) = some (value, rest) := by
  fun_induction escapesQuotes value with
  | case1 =>
    rw [List.nil_append, labelValue?.eq_def]
    rfl
  | case2 => cases hvalue
  | case3 => cases hvalue
  | case4 d value hquote ih =>
    rw [List.cons_append, List.cons_append, labelValue?.eq_def]
    simp only [if_neg hquote, if_true, ih hvalue, Option.map_some]
  | case5 c value hquote hescape ih =>
    rw [List.cons_append, labelValue?.eq_def]
    simp only [if_neg hquote, if_neg hescape, ih hvalue, Option.map_some]

/-- What is taken as a value has all its quotes escaped, and a quote stands behind it. -/
theorem eq_append_of_labelValue? {text value rest : List Char}
    (hread : labelValue? text = some (value, rest)) :
    escapesQuotes value = true ∧ text = value ++ '"' :: rest := by
  fun_induction labelValue? text generalizing value with
  | case1 => cases hread
  | case2 after =>
    obtain ⟨rfl, rfl⟩ := Prod.mk.inj (Option.some.inj hread)
    exact ⟨by rw [escapesQuotes.eq_def], rfl⟩
  | case3 => cases hread
  | case4 d after hquote ih =>
    obtain ⟨⟨value', rest'⟩, hafter, heq⟩ := Option.map_eq_some_iff.mp hread
    obtain ⟨rfl, rfl⟩ := Prod.mk.inj heq
    obtain ⟨hescaped, rfl⟩ := ih hafter
    refine ⟨?_, rfl⟩
    rw [escapesQuotes.eq_def]
    simpa only [if_neg hquote, if_true] using hescaped
  | case5 c after hquote hescape ih =>
    obtain ⟨⟨value', rest'⟩, hafter, heq⟩ := Option.map_eq_some_iff.mp hread
    obtain ⟨rfl, rfl⟩ := Prod.mk.inj heq
    obtain ⟨hescaped, rfl⟩ := ih hafter
    refine ⟨?_, rfl⟩
    rw [escapesQuotes.eq_def]
    simpa only [if_neg hquote, if_neg hescape] using hescaped

/-! ## Labels and samples -/

/-- A name of a sample or of a label. -/
def IsName (name : String) : Prop := ∀ c ∈ name.toList, isNameChar c = true

instance (name : String) : Decidable (IsName name) := List.decidableBAll _ _

variable {fuel : Nat}

theorem takeWhile_name {name : String} (hname : IsName name) {c : Char}
    (hc : isNameChar c = false) (rest : List Char) :
    (name.toList ++ c :: rest).takeWhile isNameChar = name.toList ∧
      (name.toList ++ c :: rest).dropWhile isNameChar = c :: rest := by
  constructor
  · rw [List.takeWhile_append_of_pos hname, List.takeWhile_cons_of_neg (by simp [hc]),
      List.append_nil]
  · rw [List.dropWhile_append_of_pos hname, List.dropWhile_cons_of_neg (by simp [hc])]

/-- A label is taken from its text if its value is plain. -/
theorem label?_labelText {label : String × String} (hname : IsName label.1)
    (hvalue : escapesQuotes label.2.toList = true) (rest : List Char) :
    label? ((labelText label).toList ++ rest) = some (label, rest) := by
  obtain ⟨htake, hdrop⟩ := takeWhile_name hname (c := '=') (by decide)
    ('"' :: (label.2.toList ++ '"' :: rest))
  have htext : (labelText label).toList ++ rest =
      label.1.toList ++ '=' :: '"' :: (label.2.toList ++ '"' :: rest) := by
    simp [labelText]
  have hread := labelValue?_append hvalue rest
  rw [label?, htext]
  simp only [hdrop, htake, hread]
  simp

theorem length_le_intercalate (labels : List (String × String)) :
    labels.length ≤ (String.intercalate "," (labels.map labelText)).toList.length := by
  induction labels with
  | nil => exact Nat.zero_le _
  | cons label more ih =>
    cases more with
    | nil =>
      simp [labelText]
      omega
    | cons next more =>
      rw [List.map_cons, List.map_cons, String.intercalate_cons_cons, ← List.map_cons]
      simp only [String.toList_append, List.length_append, List.length_cons] at ih ⊢
      have hcomma : ",".toList.length = 1 := rfl
      omega

/-- Labels are taken from their text if their values are plain. -/
theorem labels?_text {labels : List (String × String)} (hne : labels ≠ [])
    (hplain : ∀ l ∈ labels, IsName l.1 ∧ escapesQuotes l.2.toList = true)
    (hfuel : labels.length ≤ fuel) (rest : List Char) :
    labels? fuel ((String.intercalate "," (labels.map labelText)).toList ++ '\x7d' :: rest) =
      some (labels, rest) := by
  induction labels generalizing fuel with
  | nil => exact absurd rfl hne
  | cons label more ih =>
    obtain ⟨fuel, rfl⟩ : ∃ f, fuel = f + 1 := ⟨fuel - 1, by simp at hfuel; omega⟩
    obtain ⟨hname, hvalue⟩ := hplain label List.mem_cons_self
    cases more with
    | nil =>
      have hread := label?_labelText hname hvalue ('\x7d' :: rest)
      rw [List.map_singleton, String.intercalate_singleton, labels?]
      simp only [hread, Option.bind_eq_bind, Option.bind_some]
      rfl
    | cons next more =>
      have hmore := ih (List.cons_ne_nil next more)
        (fun l hl => hplain l (List.mem_cons_of_mem _ hl)) (Nat.le_of_succ_le_succ hfuel)
      have hread := label?_labelText hname hvalue (',' ::
        ((String.intercalate "," ((next :: more).map labelText)).toList ++ '\x7d' :: rest))
      have htext : (String.intercalate "," ((label :: next :: more).map labelText)).toList ++
          '\x7d' :: rest = (labelText label).toList ++ ',' ::
            ((String.intercalate "," ((next :: more).map labelText)).toList ++ '\x7d' :: rest) := by
        rw [List.map_cons, List.map_cons, String.intercalate_cons_cons, ← List.map_cons]
        simp
      rw [htext, labels?]
      simp only [hread, hmore, Option.bind_eq_bind, Option.bind_some]
      rfl

/-- A label that is taken ends its text's part, and its value stands in it. -/
theorem value_of_label? {text rest : List Char} {label : String × String}
    (hread : label? text = some (label, rest)) :
    rest <:+ text ∧ escapesQuotes label.2.toList = true ∧ ∀ c ∈ label.2.toList, c ∈ text := by
  have hsplit := List.takeWhile_append_dropWhile (p := isNameChar) (l := text)
  unfold label? at hread
  split at hread
  next after hdrop =>
    obtain ⟨⟨value, rest'⟩, hvalue, heq⟩ := Option.bind_eq_some_iff.mp hread
    obtain ⟨rfl, rfl⟩ := Prod.mk.inj (Option.some.inj heq)
    obtain ⟨hescaped, rfl⟩ := eq_append_of_labelValue? hvalue
    rw [hdrop] at hsplit
    rw [String.toList_ofList]
    refine ⟨?_, hescaped, ?_⟩
    · refine ⟨text.takeWhile isNameChar ++ '=' :: '"' :: (value ++ ['"']), ?_⟩
      simpa using hsplit
    · intro c hc
      rw [← hsplit]
      simp [hc]
  next => cases hread

/-- The values of labels that are taken have all their quotes escaped, and stand in the text. -/
theorem values_of_labels? {text rest : List Char} {labels : List (String × String)}
    (hread : labels? fuel text = some (labels, rest)) :
    ∀ l ∈ labels, escapesQuotes l.2.toList = true ∧ ∀ c ∈ l.2.toList, c ∈ text := by
  induction fuel generalizing text labels rest with
  | zero => cases hread
  | succ fuel ih =>
    rw [labels?] at hread
    obtain ⟨⟨label, after⟩, hlabel, hread⟩ := Option.bind_eq_some_iff.mp hread
    obtain ⟨hsuffix, hfirst⟩ := value_of_label? hlabel
    dsimp only at hread
    split at hread
    next =>
      obtain ⟨rfl, rfl⟩ := Prod.mk.inj (Option.some.inj hread)
      intro l hl
      exact List.mem_singleton.mp hl ▸ hfirst
    next after' =>
      obtain ⟨⟨more, rest'⟩, hmore, heq⟩ := Option.bind_eq_some_iff.mp hread
      obtain ⟨rfl, rfl⟩ := Prod.mk.inj (Option.some.inj heq)
      intro l hl
      rcases List.mem_cons.mp hl with rfl | hl
      · exact hfirst
      · obtain ⟨hescaped, hmem⟩ := ih hmore l hl
        exact ⟨hescaped, fun c hc => hsuffix.subset (List.mem_cons_of_mem _ (hmem c hc))⟩
    next => cases hread

/-! ## Quantities -/

/-- A whole number is read back as a count. -/
theorem natural?_repr (n : Nat) : natural? 10 (Nat.repr n).toList = some n := by
  have hrun := Yaml.decimalRun_append (Text.isDigit_toDigits (n := n)) Text.endsDigits_nil
  have hvalue := Yaml.numberOf_map (Nat.toDigits 10 n)
  rw [List.append_nil] at hrun
  rw [Nat.ofDigitChars_ten_toDigits] at hvalue
  obtain ⟨c, digits, hdigits⟩ := List.exists_cons_of_ne_nil (Nat.toDigits_ne_nil (n := n) (b := 10))
  rw [hdigits, List.map_cons] at hvalue hrun
  rw [natural?, Nat.toList_repr, hdigits]
  unfold Yaml.decimalRun at hrun
  rw [hrun]
  exact congrArg some hvalue

theorem isDigit_of_digitRun {text : List Char} (hrest : (Text.digitRun 10 text).2 = []) :
    ∀ c ∈ text, c.isDigit = true := by
  induction text with
  | nil => exact nofun
  | cons c text ih =>
    cases hc : c.isDigit with
    | true =>
      rw [Text.digitRun, Yaml.digitValue?_of_isDigit hc] at hrest
      intro d hd
      rcases List.mem_cons.mp hd with rfl | hd
      · exact hc
      · exact ih hrest d hd
    | false =>
      rw [Text.digitRun, Yaml.digitValue?_of_not_isDigit hc] at hrest
      cases hrest

/-- Only digits are read as a whole number. -/
theorem isDigit_of_natural? {text : List Char} {n : Nat} (hread : natural? 10 text = some n) :
    ∀ c ∈ text, c.isDigit = true := by
  refine isDigit_of_digitRun ?_
  unfold natural? at hread
  split at hread
  next hrun => rw [hrun]
  next => cases hread

/-- The characters of decimal numbers. -/
def IsNumberChar (c : Char) : Prop := c.isDigit = true ∨ c ∈ ['.', 'e', '-', '+']

/-- A text of such characters, with a point or an exponent. -/
def IsDecimalText (text : List Char) : Prop :=
  (∃ c ∈ text, c.isDigit = false) ∧ ∀ c ∈ text, IsNumberChar c

/-- Digits on both sides of a point. -/
theorem isDecimalText_point {whole fraction : List Char}
    (hwhole : ∀ c ∈ whole, c.isDigit = true) (hfraction : ∀ c ∈ fraction, c.isDigit = true) :
    IsDecimalText (whole ++ '.' :: fraction) := by
  refine ⟨⟨'.', by simp, rfl⟩, ?_⟩
  intro c hc
  rcases List.mem_append.mp hc with hmem | hmem
  · exact .inl (hwhole c hmem)
  rcases List.mem_cons.mp hmem with rfl | hmem
  · exact .inr (by decide)
  · exact .inl (hfraction c hmem)

theorem isDecimalText_positional {digits : List Char} (hdigits : ∀ c ∈ digits, c.isDigit = true)
    (point : Int) : IsDecimalText (NumberLayout.positional digits point).toList := by
  have hzero : ∀ c ∈ ['0'], c.isDigit = true := List.forall_mem_singleton.mpr rfl
  unfold NumberLayout.positional
  by_cases hfirst : point ≤ 0
  · have hform := isDecimalText_point hzero
      (Yaml.isDigit_append (Yaml.isDigit_zeros (-point).toNat) hdigits)
    simpa [hfirst] using hform
  by_cases hlast : digits.length ≤ point.toNat
  · have hform := isDecimalText_point
      (Yaml.isDigit_append hdigits (Yaml.isDigit_zeros (point.toNat - digits.length))) hzero
    simpa [hfirst, hlast] using hform
  · have hform := isDecimalText_point
      (fun c hc => hdigits c (List.mem_of_mem_take hc) : ∀ c ∈ digits.take point.toNat, _)
      (fun c hc => hdigits c (List.mem_of_mem_drop hc) : ∀ c ∈ digits.drop point.toNat, _)
    simpa [hfirst, hlast] using hform

theorem isDecimalText_scientific (layout : NumberLayout) {digits : List Char}
    (hdigits : ∀ c ∈ digits, c.isDigit = true) (exponent : Int) :
    IsDecimalText (layout.scientific digits exponent).toList := by
  obtain ⟨-, hpadding, -⟩ := Yaml.padded_spec layout.exponentWidth exponent.natAbs
  unfold NumberLayout.scientific
  refine ⟨⟨'e', by simp, rfl⟩, ?_⟩
  intro c hc
  simp only [String.toList_append, String.toList_ofList, List.mem_append] at hc
  rcases hc with ((hmantissa | hletter) | hsign) | hexponent
  · split at hmantissa
    next first second tail =>
      rcases List.mem_cons.mp hmantissa with rfl | hmem
      · exact .inl (hdigits c List.mem_cons_self)
      rcases List.mem_cons.mp hmem with rfl | hmem
      · exact .inr (by decide)
      · exact .inl (hdigits c (List.mem_cons_of_mem _ hmem))
    next => exact .inl (hdigits c hmantissa)
  · refine .inr ?_
    rw [List.mem_singleton.mp hletter]
    decide
  · refine .inr ?_
    split at hsign
    · rw [List.mem_singleton.mp hsign]
      decide
    split at hsign
    · rw [List.mem_singleton.mp hsign]
      decide
    · cases hsign
  · exact .inl (hpadding c hexponent)

/-- A measured value has a point or an exponent. -/
theorem isDecimalText_value (x : Finite64) : IsDecimalText (valueText (.finite x)).toList := by
  have hmagnitude : IsDecimalText
      (if x.significand = 0 then "0.0" else valueLayout.decimal x.boundaryDigits).toList := by
    split
    · have hzero : ∀ c ∈ ['0'], c.isDigit = true := List.forall_mem_singleton.mpr rfl
      exact isDecimalText_point hzero hzero
    · unfold NumberLayout.decimal
      dsimp only
      split
      · exact isDecimalText_positional Text.isDigit_toDigits _
      · exact isDecimalText_scientific valueLayout Text.isDigit_toDigits _
  obtain ⟨⟨mark, hmark, hnot⟩, hchars⟩ := hmagnitude
  rw [valueText, NumberLayout.text, String.toList_append]
  refine ⟨⟨mark, List.mem_append_right _ hmark, hnot⟩, ?_⟩
  intro c hc
  rcases List.mem_append.mp hc with hsign | hmem
  · split at hsign
    · rw [List.mem_singleton.mp hsign]
      exact .inr (by decide)
    · cases hsign
  · exact hchars c hmem

/-- A quantity is read back from its text. -/
theorem Quantity.read?_text (q : Quantity) : Quantity.read? q.text.toList = some q := by
  cases q with
  | count n =>
    have hnatural := natural?_repr n
    have hdigits := isDigit_of_natural? hnatural
    have hnot :
        ∀ word : List Char, (∃ c ∈ word, c.isDigit = false) → (Nat.repr n).toList ≠ word := by
      rintro _ ⟨c, hc, hdigit⟩ rfl
      rw [hdigits c hc] at hdigit
      cases hdigit
    rw [Quantity.text, Quantity.read?, if_neg (hnot _ ⟨'N', by decide, rfl⟩),
      if_neg (hnot _ ⟨'i', by decide, rfl⟩), if_neg (hnot _ ⟨'i', by decide, rfl⟩)]
    simp only [hnatural]
  | value x =>
    cases x with
    | undefined => rfl
    | infinity negative => cases negative <;> rfl
    | finite x =>
      have hread : decimal? (valueText (.finite x)).toList = some (.finite x) :=
        Yaml.decimal?_text valueLayout Finite64.surrounds_boundaryDigits
      have hnot :
          ∀ word : List Char, decimal? word = none → (valueText (.finite x)).toList ≠ word := by
        rintro _ hword rfl
        rw [hread] at hword
        cases hword
      rw [Quantity.text, Quantity.read?, if_neg (hnot _ rfl), if_neg (hnot _ rfl),
        if_neg (hnot _ rfl)]
      cases hnatural : natural? 10 (valueText (.finite x)).toList with
      | none => simp only [hread, Option.map_some]
      | some n =>
        obtain ⟨c, hc, hdigit⟩ := (isDecimalText_value x).1
        rw [isDigit_of_natural? hnatural c hc] at hdigit
        cases hdigit

/-- Characters that mean nothing to the format: no line end, quote or backslash. -/
def IsInert (text : List Char) : Prop := ∀ c ∈ text, c ≠ '\n' ∧ c ≠ '"' ∧ c ≠ '\\'

instance (text : List Char) : Decidable (IsInert text) := List.decidableBAll _ _

theorem isInert_of_isNumberChar {text : List Char} (htext : ∀ c ∈ text, IsNumberChar c) :
    IsInert text := by
  intro c hc
  rcases htext c hc with hdigit | hmark
  · refine ⟨?_, ?_, ?_⟩ <;>
      · rintro rfl
        simp at hdigit
  · have hall : IsInert ['.', 'e', '-', '+'] := by decide
    exact hall c hmark

/-- An inert text is plain as a value. -/
theorem isPlain_of_isInert {value : String} (hvalue : IsInert value.toList) : IsPlain value := by
  refine ⟨fun hmem => (hvalue _ hmem).1 rfl, ?_⟩
  generalize value.toList = text at hvalue
  induction text with
  | nil => rw [escapesQuotes.eq_def]
  | cons c text ih =>
    obtain ⟨-, hquote, hescape⟩ := hvalue c List.mem_cons_self
    rw [escapesQuotes.eq_def]
    simp only [if_neg hquote, if_neg hescape]
    exact ih fun d hd => hvalue d (List.mem_cons_of_mem _ hd)

theorem isInert_valueText (x : Binary64) : IsInert (valueText x).toList := by
  cases x with
  | finite x => exact isInert_of_isNumberChar (isDecimalText_value x).2
  | infinity negative =>
    cases negative with
    | false => exact (by decide : IsInert "inf".toList)
    | true => exact (by decide : IsInert "-inf".toList)
  | undefined => exact (by decide : IsInert "NaN".toList)

theorem isInert_text (q : Quantity) : IsInert q.text.toList := by
  cases q with
  | count n =>
    refine isInert_of_isNumberChar fun c hc => .inl ?_
    rw [Quantity.text, Nat.toList_repr] at hc
    exact Text.isDigit_toDigits c hc
  | value x => exact isInert_valueText x

/-- The bounds of buckets are plain as values. -/
theorem isPlain_boundText (x : Binary64) : IsPlain (boundText x) := by
  refine isPlain_of_isInert ?_
  unfold boundText
  split
  · decide
  · exact isInert_valueText _

/-! ## Samples -/

/-- A sample whose names are names, and whose labels have plain values. -/
structure Sample.IsPlain (s : Sample) : Prop where
  name : IsName s.name
  labels : s.labels ≠ []
  label : ∀ l ∈ s.labels, IsName l.1 ∧ Exposition.IsPlain l.2

theorem toList_line (s : Sample) :
    s.line.toList = s.name.toList ++ '\x7b' ::
      ((String.intercalate "," (s.labels.map labelText)).toList ++ '\x7d' :: ' ' ::
        s.quantity.text.toList) := by
  simp [Sample.line]

/-- A sample with plain labels is read back from its line. -/
theorem Sample.read?_line {s : Sample} (hs : s.IsPlain) : Sample.read? s.line.toList = some s := by
  obtain ⟨htake, hdrop⟩ := takeWhile_name hs.name (c := '\x7b') (by decide)
    ((String.intercalate "," (s.labels.map labelText)).toList ++ '\x7d' :: ' ' ::
      s.quantity.text.toList)
  have hfuel : s.labels.length ≤ ((String.intercalate "," (s.labels.map labelText)).toList ++
      '\x7d' :: ' ' :: s.quantity.text.toList).length := by
    rw [List.length_append]
    exact Nat.le_add_right_of_le (length_le_intercalate s.labels)
  have hlabels := labels?_text hs.labels (fun l hl => ⟨(hs.label l hl).1, (hs.label l hl).2.2⟩)
    hfuel (' ' :: s.quantity.text.toList)
  have hquantity := s.quantity.read?_text
  rw [Sample.read?, toList_line]
  simp only [hdrop, htake, hlabels, hquantity, Option.bind_eq_bind, Option.bind_some]
  simp

theorem not_mem_name {name : String} (hname : IsName name) {c : Char}
    (hc : isNameChar c = false) : c ∉ name.toList := by
  intro hmem
  rw [hname c hmem] at hc
  cases hc

/-- Plain labels hold no line end. -/
theorem not_mem_labels {labels : List (String × String)}
    (hlabels : ∀ l ∈ labels, IsName l.1 ∧ IsPlain l.2) :
    '\n' ∉ (String.intercalate "," (labels.map labelText)).toList := by
  induction labels with
  | nil => simp
  | cons label more ih =>
    obtain ⟨hname, hvalue⟩ := hlabels label List.mem_cons_self
    have hnot : '\n' ∉ (labelText label).toList := by
      simp [labelText, not_mem_name hname (c := '\n') (by decide), hvalue.1]
    cases more with
    | nil => simpa using hnot
    | cons next more =>
      have hmore := ih fun l hl => hlabels l (List.mem_cons_of_mem _ hl)
      rw [List.map_cons, List.map_cons, String.intercalate_cons_cons, ← List.map_cons]
      intro hmem
      rw [String.toList_append, String.toList_append] at hmem
      rcases List.mem_append.mp hmem with hmem | hmem
      · rcases List.mem_append.mp hmem with hmem | hmem
        · exact hnot hmem
        · exact absurd hmem (by decide)
      · exact hmore hmem

/-- The line of a plain sample holds no line end. -/
theorem Sample.not_mem_line {s : Sample} (hs : s.IsPlain) : '\n' ∉ s.line.toList := by
  have hname : '\n' ∉ s.name.toList := not_mem_name hs.name (by decide)
  have hlabels := not_mem_labels hs.label
  have hquantity : '\n' ∉ s.quantity.text.toList :=
    fun hmem => (isInert_text s.quantity _ hmem).1 rfl
  rw [toList_line]
  intro hmem
  rcases List.mem_append.mp hmem with hmem | hmem
  · exact hname hmem
  rcases List.mem_append.mp (List.mem_of_ne_of_mem (by decide) hmem) with hmem | hmem
  · exact hlabels hmem
  · exact hquantity (List.mem_of_ne_of_mem (by decide) (List.mem_of_ne_of_mem (by decide) hmem))

/-- The line of a sample is no comment. -/
theorem Sample.head?_line {s : Sample} (hs : s.IsPlain) : s.line.toList.head? ≠ some '#' := by
  have hname : '#' ∉ s.name.toList := not_mem_name hs.name (by decide)
  rw [toList_line]
  cases hcase : s.name.toList with
  | nil => simp
  | cons c rest =>
    rw [hcase] at hname
    simpa using Ne.symm (not_or.mp (mt List.mem_cons.mpr hname)).1

/-- The values of labels that are read from a line without line end are plain. -/
theorem isPlain_of_read? {s : Sample} (hline : '\n' ∉ line) (hread : Sample.read? line = some s) :
    ∀ l ∈ s.labels, IsPlain l.2 := by
  have hsplit := List.takeWhile_append_dropWhile (p := isNameChar) (l := line)
  unfold Sample.read? at hread
  split at hread
  next after hdrop =>
    rw [hdrop] at hsplit
    obtain ⟨⟨labels, rest⟩, hlabels, hread⟩ := Option.bind_eq_some_iff.mp hread
    have hvalues := values_of_labels? hlabels
    dsimp only at hread
    split at hread
    next quantity =>
      obtain ⟨q, -, heq⟩ := Option.bind_eq_some_iff.mp hread
      obtain rfl := Option.some.inj heq
      intro l hl
      obtain ⟨hescaped, hmem⟩ := hvalues l hl
      refine ⟨fun hend => hline ?_, hescaped⟩
      rw [← hsplit]
      exact List.mem_append_right _ (List.mem_cons_of_mem _ (hmem _ hend))
    next => cases hread
  next => cases hread

/-! ## The whole text -/

/-- A family whose name is a name, described on one line, with plain samples. -/
structure Family.IsPlain (f : Family) : Prop where
  name : IsName f.name
  description : '\n' ∉ f.description.toList
  samples : ∀ s ∈ f.samples, s.IsPlain

/-- The lines of a plain family hold no line end. -/
theorem Family.not_mem_lines {f : Family} (hf : f.IsPlain) : ∀ l ∈ f.lines, '\n' ∉ l.toList := by
  have hname : '\n' ∉ f.name.toList := not_mem_name hf.name (by decide)
  have hkind : '\n' ∉ f.kind.name.toList := by cases f.kind <;> decide
  intro l hl
  rcases List.mem_append.mp hl with hl | hl
  · rcases List.mem_cons.mp hl with rfl | hl
    · simp [hname, hf.description]
    · rw [List.mem_singleton.mp hl]
      simp [hname, hkind]
  · obtain ⟨s, hs, rfl⟩ := List.mem_map.mp hl
    exact Sample.not_mem_line (hf.samples s hs)

theorem filter_lines {f : Family} (hf : f.IsPlain) :
    (f.lines.map String.toList).filter (fun line => line.head? ≠ some '#') =
      f.samples.map fun s => s.line.toList := by
  have hsamples : ∀ line ∈ f.samples.map fun s => s.line.toList,
      decide (line.head? ≠ some '#') = true := by
    intro line hline
    obtain ⟨s, hs, rfl⟩ := List.mem_map.mp hline
    exact decide_eq_true (Sample.head?_line (hf.samples s hs))
  have hall := List.filter_eq_self.mpr hsamples
  rw [Family.lines, List.map_append, List.map_map, List.filter_append]
  simp only [List.map_cons, List.map_nil]
  rw [List.filter_cons_of_neg (by simp), List.filter_cons_of_neg (by simp),
    List.filter_nil, List.nil_append]
  exact hall

/-- The samples of plain families are read back from their lines. -/
theorem mapM_read?_lines {samples : List Sample} (hsamples : ∀ s ∈ samples, s.IsPlain) :
    (samples.map fun s => s.line.toList).mapM Sample.read? = some samples := by
  induction samples with
  | nil => rfl
  | cons s samples ih =>
    have hmore := ih fun m hm => hsamples m (List.mem_cons_of_mem _ hm)
    rw [List.map_cons, List.mapM_cons, Sample.read?_line (hsamples s List.mem_cons_self), hmore]
    rfl

/-- An exposition with plain samples is read back. -/
theorem read?_text {families : List Family} (hfamilies : ∀ f ∈ families, f.IsPlain) :
    read? (text families) = some (families.flatMap (·.samples)) := by
  have hlines : ∀ l ∈ families.flatMap Family.lines ++ ["# EOF"], '\n' ∉ l.toList := by
    intro l hl
    rcases List.mem_append.mp hl with hl | hl
    · obtain ⟨f, hf, hl⟩ := List.mem_flatMap.mp hl
      exact Family.not_mem_lines (hfamilies f hf) l hl
    · rw [List.mem_singleton.mp hl]
      decide
  have hfilter : ((families.flatMap Family.lines).map String.toList).filter
      (fun line => line.head? ≠ some '#') =
        (families.flatMap (·.samples)).map fun s => s.line.toList := by
    clear hlines
    induction families with
    | nil => rfl
    | cons f families ih =>
      have hmore := ih fun m hm => hfamilies m (List.mem_cons_of_mem _ hm)
      rw [List.flatMap_cons, List.flatMap_cons, List.map_append, List.map_append,
        List.filter_append, filter_lines (hfamilies f List.mem_cons_self), hmore]
  have hplain : ∀ s ∈ families.flatMap (·.samples), s.IsPlain := by
    intro s hs
    obtain ⟨f, hf, hs⟩ := List.mem_flatMap.mp hs
    exact (hfamilies f hf).samples s hs
  have hend : ([("# EOF" : String)].map String.toList).filter
      (fun line => line.head? ≠ some '#') = [] := by decide
  rw [read?, text, lines_join hlines, List.map_append, List.filter_append, hfilter, hend,
    List.append_nil]
  exact mapM_read?_lines hplain

/-- The values of labels that are read from an exposition are plain. -/
theorem isPlain_of_mem_read? {content : String} {samples : List Sample}
    (hread : read? content = some samples) : ∀ s ∈ samples, ∀ l ∈ s.labels, IsPlain l.2 := by
  have hlines : ∀ line ∈ (lines content.toList).filter (fun line => line.head? ≠ some '#'),
      '\n' ∉ line := fun line hline => not_mem_of_mem_lines (List.mem_of_mem_filter hline)
  rw [read?] at hread
  generalize (lines content.toList).filter (fun line => line.head? ≠ some '#') = ls at hread hlines
  induction ls generalizing samples with
  | nil =>
    obtain rfl := Option.some.inj hread
    exact nofun
  | cons line ls ih =>
    rw [List.mapM_cons] at hread
    obtain ⟨s, hfirst, hread⟩ := Option.bind_eq_some_iff.mp hread
    obtain ⟨more, hmore, heq⟩ := Option.bind_eq_some_iff.mp hread
    obtain rfl := Option.some.inj heq
    intro m hm
    rcases List.mem_cons.mp hm with rfl | hm
    · exact isPlain_of_read? (hlines line List.mem_cons_self) hfirst
    · exact ih hmore (fun l hl => hlines l (List.mem_cons_of_mem _ hl)) m hm

end NodeScrape.Exposition
