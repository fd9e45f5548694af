import NodeScrape.Text.Scan

/-!
# Internet addresses

The text forms of addresses of both versions. An address of version 6 has eight groups of up to four
hexadecimal digits; one run of zero groups may be left out, and the last two groups may be written
as an address of version 4.
-/

namespace NodeScrape.Net

open NodeScrape.Text

/-- An address of version 4. -/
structure Ipv4 where
  a : UInt8
  b : UInt8
  c : UInt8
  d : UInt8
  deriving DecidableEq, Repr

/-- An address of version 6: eight groups of 16 bits. -/
structure Ipv6 where
  groups : List UInt16
  length_groups : groups.length = 8
  deriving DecidableEq

/-- Takes an octet: up to three digits without a leading zero. -/
def scanOctet : Scan UInt8 := fun text => do
  let (digits, rest) := digitRun 10 text
  guard (!digits.isEmpty && digits.length ≤ 3 && (digits.length = 1 || digits.head? != some 0))
  let n := numberOf 10 digits
  guard (n < 256)
  return (UInt8.ofNat n, rest)

/-- Takes an address of version 4. -/
def scanIpv4 : Scan Ipv4 := fun text => do
  let (a, text) ← scanOctet text
  let ((), text) ← scanChar '.' text
  let (b, text) ← scanOctet text
  let ((), text) ← scanChar '.' text
  let (c, text) ← scanOctet text
  let ((), text) ← scanChar '.' text
  let (d, text) ← scanOctet text
  return (⟨a, b, c, d⟩, text)

/-- The two groups of an embedded address. -/
def Ipv4.toGroups (ip : Ipv4) : List UInt16 :=
  [UInt16.ofNat (ip.a.toNat * 256 + ip.b.toNat), UInt16.ofNat (ip.c.toNat * 256 + ip.d.toNat)]

/-- Takes a group: up to four hexadecimal digits. -/
def scanGroup : Scan UInt16 := fun text => do
  let (digits, rest) := digitRun 16 text
  guard (!digits.isEmpty && digits.length ≤ 4)
  return (UInt16.ofNat (numberOf 16 digits), rest)

/-- Takes what a scanner takes, behind a colon unless it comes first. -/
def afterColon {α : Type} (first : Bool) (scan : Scan α) : Scan α := fun text =>
  if first then scan text
  else do
    let ((), text) ← scanChar ':' text
    scan text

/-- Takes at most `limit` groups. An embedded address needs room for two, and ends them. -/
def scanGroups : Nat → Bool → List Char → List UInt16 × Bool × List Char
  | 0, _, text => ([], false, text)
  | limit + 1, first, text =>
    match if limit = 0 then none else afterColon first scanIpv4 text with
    | some (ip, rest) => (ip.toGroups, true, rest)
    | none => match afterColon first scanGroup text with
      | some (group, rest) =>
        let (groups, embedded, rest) := scanGroups limit false rest
        (group :: groups, embedded, rest)
      | none => ([], false, text)

/-- Eight groups from those before and after the gap. -/
def Ipv6.ofParts? (head tail : List UInt16) : Option Ipv6 :=
  let groups := head ++ List.replicate (8 - head.length - tail.length) 0 ++ tail
  if h : groups.length = 8 then some ⟨groups, h⟩ else none

/-- Takes an address of version 6. The gap stands for at least one group, and no embedded address
stands before it. -/
def scanIpv6 : Scan Ipv6 := fun text => do
  let (head, embedded, rest) := scanGroups 8 true text
  if head.length = 8 then return (← Ipv6.ofParts? head [], rest)
  else
    guard !embedded
    let ((), rest) ← scanChar ':' rest
    let ((), rest) ← scanChar ':' rest
    let (tail, _, rest) := scanGroups (7 - head.length) true rest
    return (← Ipv6.ofParts? head tail, rest)

/-- Reads a whole text as an address of version 6. -/
def Ipv6.parse? (text : String) : Option Ipv6 :=
  match scanIpv6 text.toList with
  | some (ip, []) => some ip
  | _ => none

/-- Four numbers between points. -/
def Ipv4.text (ip : Ipv4) : String :=
  String.intercalate "." ([ip.a, ip.b, ip.c, ip.d].map fun n => Nat.repr n.toNat)

/-- A group in hexadecimal digits. -/
def groupText (g : UInt16) : String := String.ofList (Nat.toDigits 16 g.toNat)

/-- Groups between colons. -/
def groupsText (groups : List UInt16) : String := String.intercalate ":" (groups.map groupText)

/-- The length of the run of zeros at each place. -/
def zeroRuns : List UInt16 → List Nat
  | [] => []
  | g :: rest =>
    let runs := zeroRuns rest
    (if g = 0 then runs.headD 0 + 1 else 0) :: runs

/-- The embedded address of one that maps version 4. -/
def Ipv6.mapped? (ip : Ipv6) : Option Ipv4 :=
  match ip.groups with
  | [0, 0, 0, 0, 0, 0xffff, g, h] =>
    let high (n : UInt16) := UInt8.ofNat (n.toNat / 256)
    let low (n : UInt16) := UInt8.ofNat (n.toNat % 256)
    some ⟨high g, low g, high h, low h⟩
  | _ => none

/-- The shortest text of an address of version 6: the first of the longest runs of at least two zero
groups is left out, and a mapped address shows its version 4 form. -/
def Ipv6.text (ip : Ipv6) : String :=
  match ip.mapped? with
  | some v4 => "::ffff:" ++ v4.text
  | none =>
    let runs := zeroRuns ip.groups
    let longest := runs.foldl max 0
    if longest < 2 then groupsText ip.groups
    else
      let start := runs.findIdx (· = longest)
      groupsText (ip.groups.take start) ++ "::" ++ groupsText (ip.groups.drop (start + longest))

end NodeScrape.Net
