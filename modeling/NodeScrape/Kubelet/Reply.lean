import NodeScrape.Kubelet.Exchange
import NodeScrape.Text.Blank
import NodeScrape.Text.Scan

/-!
# Requests and replies on the wire

A request for a summary asks for one reply that ends with its connection. A reply consists of a head
with a status, an empty line and a body, whose length may be told.
-/

namespace NodeScrape.Kubelet

/-- The end of a line. -/
def lineEnd : String := "\r\n"

/-- The text of a request. -/
def Request.wire (r : Request) : String :=
  let bearer := match r.bearer with
    | some token => ["Authorization: Bearer " ++ token]
    | none => []
  String.intercalate lineEnd (["GET " ++ summaryTarget ++ " HTTP/1.0",
    "Host: " ++ authority r.host r.port, "Accept: */*"] ++ bearer ++ ["", ""])

/-- The head and the body of a reply, if the head is complete. -/
def splitReply : List UInt8 → Option (List UInt8 × List UInt8)
  | [] => none
  | b :: rest =>
    if b = 0x0d && [0x0a, 0x0d, 0x0a].isPrefixOf rest then some ([], rest.drop 3)
    else (splitReply rest).map fun (head, body) => (b :: head, body)

/-- The number that a text begins with. -/
def leadingNumber? (text : List Char) : Option Nat :=
  let (digits, _) := Text.digitRun 10 (Text.trimLeft text)
  if digits.isEmpty then none else some (Text.numberOf 10 digits)

/-- The status in the first line of a head. -/
def statusOf? (line : String) : Option UInt16 := do
  let n ← leadingNumber? (line.toList.dropWhile fun c => !Text.isBlank c)
  if n < 1000 then some (UInt16.ofNat n) else none

/-- The length of the body that one of the lines of a head tells. -/
def lengthOf? (lines : List String) : Option Nat :=
  lines.findSome? fun line =>
    let (name, value) := line.toList.span (· ≠ ':')
    if name.map Char.toLower = "content-length".toList then leadingNumber? (value.drop 1) else none

/-- What a reply comes to that has ended at a tick. A body that is shorter than told is broken. -/
def Exchange.ofReply (moment : Nat) (reply : List UInt8) : Exchange :=
  match splitReply reply with
  | none => .broken moment
  | some (head, body) =>
    let lines := (String.ofList (head.map fun b => Char.ofNat b.toNat)).splitOn lineEnd
    match lines.head?.bind statusOf? with
    | none => .broken moment
    | some status =>
      let length := (lengthOf? lines).getD body.length
      .answered moment status
        (if body.length < length then .broken moment else .complete moment (body.take length))

end NodeScrape.Kubelet
