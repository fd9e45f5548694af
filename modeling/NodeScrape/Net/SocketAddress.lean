import NodeScrape.Net.Ip

/-!
# Socket addresses

An internet address with a port. One of version 6 stands between brackets and may name a scope.
-/

namespace NodeScrape.Net

open NodeScrape.Text

/-- An address to listen on. -/
inductive SocketAddress where
  /-- An address of version 4. -/
  | v4 (ip : Ipv4) (port : UInt16)
  /-- An address of version 6, with a scope that is zero unless named. -/
  | v6 (ip : Ipv6) (scope : UInt32) (port : UInt16)
  deriving DecidableEq

/-- Takes a port behind its colon. -/
def scanPort : Scan UInt16 := fun text => do
  let ((), text) ← scanChar ':' text
  let (port, text) ← scanNumber 10 UInt16.size text
  return (UInt16.ofNat port, text)

/-- Takes a scope behind its sign. -/
def scanScope : Scan UInt32 := fun text => do
  let ((), text) ← scanChar '%' text
  let (scope, text) ← scanNumber 10 UInt32.size text
  return (UInt32.ofNat scope, text)

/-- Takes a socket address of version 4. -/
def scanSocketV4 : Scan SocketAddress := fun text => do
  let (ip, text) ← scanIpv4 text
  let (port, text) ← scanPort text
  return (.v4 ip port, text)

/-- Takes a socket address of version 6. -/
def scanSocketV6 : Scan SocketAddress := fun text => do
  let ((), text) ← scanChar '[' text
  let (ip, text) ← scanIpv6 text
  let (scope, text) := (scanScope text).getD (0, text)
  let ((), text) ← scanChar ']' text
  let (port, text) ← scanPort text
  return (.v6 ip scope port, text)

namespace SocketAddress

/-- Reads a whole text as a socket address. -/
def parse? (text : String) : Option SocketAddress :=
  match scanSocketV4 text.toList <|> scanSocketV6 text.toList with
  | some (address, []) => some address
  | _ => none

/-- The text of a socket address. -/
def text : SocketAddress → String
  | .v4 ip port => ip.text ++ ":" ++ Nat.repr port.toNat
  | .v6 ip scope port =>
    let scope := if scope = 0 then "" else "%" ++ Nat.repr scope.toNat
    "[" ++ ip.text ++ scope ++ "]:" ++ Nat.repr port.toNat

/-- Whether a socket address is one that any machine can listen on: all its addresses at once, or its
loopback. -/
def isOwn : SocketAddress → Bool
  | .v4 ip _ => ip = ⟨0, 0, 0, 0⟩ || ip.a = 127
  | .v6 ip _ _ => ip.groups.dropLast.all (· = 0) && ip.groups.getLast?.all (· ≤ 1)

end SocketAddress

end NodeScrape.Net
