import NodeScrape.Kubelet.Reply
import NodeScrape.Launch
import NodeScrape.Service.Basic
import NodeScrape.Service.Wire
import Std.Async.DNS
import Std.Async.Signal
import Std.Async.TCP
import Std.Async.Timer
import Std.Time.DateTime

/-!
# The program

The outer layer: files, clocks, sockets and threads. All decisions are made by the modules below it:
the loop and its cycles are taken from the plans of the virtual clock at the moments at which things
happen, and only the results of the tasks come from outside. Only the plain scheme is spoken.
-/

namespace NodeScrape.Program

open Std.Async

/-- The failure behind a code of the system, which may come with its sign reversed. -/
def ofCode (code : UInt32) : IoError := .os code.toInt32.toInt.natAbs

/-- The failure of a file or socket. -/
def ioError : IO.Error → IoError
  | .noFileOrDirectory _ code _ => ofCode code
  | .inappropriateType _ code _ => ofCode code
  | .permissionDenied _ code _ => ofCode code
  | .invalidArgument _ code _ => ofCode code
  | .noSuchThing _ code _ => ofCode code
  | .resourceBusy code _ => ofCode code
  | .unsupportedOperation code _ => ofCode code
  | .otherError code _ => ofCode code
  | error => .custom "Other" error.toString

/-- Reads a file as text. -/
def readText (path : Path) : IO (Except IoError String) := do
  try
    match String.fromUTF8? (← IO.FS.readBinFile path.text) with
    | some text => return .ok text
    | none => return .error .notUtf8
  catch error => return .error (ioError error)

/-- The time of the wall clock. -/
def wallTime : IO WallTime := return (← Std.Time.Timestamp.now).toNanosecondsSinceUnixEpoch.val

/-- A reading of the wall clock for all purposes. -/
def wallClock : IO WallClock := do
  let now ← wallTime
  return ⟨now, now⟩

/-- All that arrives on a connection until it ends or nobody waits for it any more. -/
partial def receive (socket : TCP.Socket.Client) (awaited : IO Bool) (sofar : ByteArray) :
    IO ByteArray := do
  unless ← awaited do return sofar
  let next : Async (Option (Option ByteArray)) := do
    let pause ← Selector.sleep 20
    Selectable.one #[
      .case (socket.recvSelector 65536) fun bytes => return some bytes,
      .case pause fun _ => return none]
  match ← next.block with
  | some (some bytes) => receive socket awaited (sofar ++ bytes)
  | some none => return sofar
  | none => receive socket awaited sofar

/-- The addresses of a host with a port. -/
def resolve (host : String) (port : UInt16) : IO (Option Std.Net.SocketAddress) := do
  let found ← (DNS.getAddrInfo host (Nat.repr port.toNat)).block
  return found[0]?.map fun
    | .v4 ip => .v4 ⟨ip, port⟩
    | .v6 ip => .v6 ⟨ip, port⟩

/-- Carries out an exchange as long as somebody waits for it. -/
def exchange (request : Kubelet.Request) (awaited : IO Bool) : IO Kubelet.Exchange := do
  if request.scheme != "http" then return .invalid
  try
    match ← resolve request.host request.port with
    | none => return .broken 0
    | some address =>
      let socket ← TCP.Socket.Client.mk
      (socket.connect address).block
      (socket.send request.wire.toUTF8).block
      return .ofReply 0 (← receive socket awaited ByteArray.empty).toList
  catch error => return .broken 0 (ioError error).isTimeout

/-- What the threads of the program share. -/
structure Shared where
  config : Config
  client : Kubelet.Client
  /-- The moment of the start in milliseconds. -/
  epoch : Nat
  loop : IO.Ref ScrapeLoop
  /-- The last cycle; its tasks may outlive it and keep to it. -/
  cycle : IO.Ref (IO.Ref Cycle)
  /-- The tick at which the program was interrupted. -/
  shutdown : IO.Ref (Option Nat)

namespace Shared

/-- The milliseconds since the start. -/
def ticks (s : Shared) : IO Nat := return (← IO.monoMsNow) - s.epoch

/-- The instruments as the last cycle has left them so far. -/
def instruments (s : Shared) : IO Instruments :=
  return (← (← s.cycle.get).get).ledger.instruments

/-- What decides how the loop goes, as far as it is known now. The clients of its scraper have no
result of their own, because the tasks settle their slots as soon as the kubelets have answered; so
all they do is to give up with their scope. -/
def plan (s : Shared) : IO LoopPlan := do
  let clock ← wallClock
  let scraper : Scraper := ⟨s.config.listing,
    fun _ => { delay := none, result := .failed .deadlineExceeded },
    s.config.scrapeTimeoutMs.toNat, clock⟩
  return ⟨s.config.metricResolutionMs.toNat, fun _ => scraper, ← s.shutdown.get⟩

end Shared

/-- The task of a node: asks its kubelet and settles its slot. Nobody waits for the answer any more
once the node can no longer be taken out of the slot. -/
def runTask (s : Shared) (cycle : IO.Ref Cycle) (slot : Nat) (node : Node) : IO Unit := do
  let started ← wallTime
  let awaited : IO Bool := return ((← cycle.get).ledger.board.pending? slot).isSome
  let outcome ← match s.client.request? node with
    | none => pure .silent
    | some request => exchange request awaited
  let attempt : Attempt := match (s.client.fetch node none 0 {} fun _ => outcome).result with
    | some (_, .ok summary :: _) => .answered summary
    | some (_, .error failure :: _) => .failed failure
    | _ => .failed .deadlineExceeded
  let clock ← wallClock
  cycle.modify (·.step (.settle slot attempt (WallTime.since clock.later started) clock))

/-- Wakes a cycle time and again until it has stopped waiting. Its plan is asked for every time,
because the scope around it may be canceled meanwhile. -/
partial def gather (s : Shared) (cycle : IO.Ref Cycle) (plan : IO CyclePlan) : IO Unit := do
  let p ← plan
  let now ← s.ticks
  cycle.modify (p.wake now)
  unless CyclePlan.hasStopped (← cycle.get) do
    IO.sleep 2
    gather s cycle plan

/-- Runs a cycle over listed nodes in a scope that ends with the tick that was due. -/
def runCycle (s : Shared) (nodes : List Node) (due begins : Nat) : IO CycleReport := do
  let plan : IO CyclePlan := do
    let p ← s.plan
    return (p.scraper begins).plan nodes (ScrapeLoop.scope p due) begins
  let p ← plan
  let cycle ← IO.mkRef (p.launch (← s.instruments))
  s.cycle.set cycle
  for (node, slot) in p.named.zipIdx do
    let _ ← IO.asTask (runTask s cycle slot node) .dedicated
  gather s cycle plan
  let p ← plan
  cycle.modify p.finish
  return Scraper.report (← s.ticks) (← cycle.get)

/-- Scrapes the nodes for the tick that was due, if they can be listed. -/
def scrape (s : Shared) (due begins : Nat) : IO CycleReport := do
  let p ← s.plan
  let scraper := p.scraper begins
  match scraper.listing with
  | .ok nodes => runCycle s nodes due begins
  | .error _ =>
    let report := scraper.scrape (ScrapeLoop.scope p due) begins (← s.instruments)
    s.cycle.set (← IO.mkRef { Cycle.begin [] {} with ledger := report.ledger })
    return report

/-- Tells about a cycle. -/
def tell (report : CycleReport) : IO Unit := do
  if let some line := report.line then
    IO.println line
    (← IO.getStdout).flush

/-- Lets the loop take one step after another, each when it is time for it. It never sleeps for long,
because a shutdown may come while it waits. -/
partial def scrapeLoop (s : Shared) : IO Unit := do
  let p ← s.plan
  let now ← s.ticks
  let l := { ← s.loop.get with now }
  match ScrapeLoop.next? p l with
  | none => return
  | some (t, .wait) => IO.sleep (UInt32.ofNat (min (t - now) 20))
  | some (_, .begin) =>
    let taken := ScrapeLoop.takeTick p l
    s.loop.set taken
    s.loop.set (taken.runCycle (← scrape s l.due now))
  | some (_, step) =>
    s.loop.set ((ScrapeLoop.step? p l step).getD l)
    if let .scraping report := l.stage then tell report
  scrapeLoop s

/-- Reads the head of a visit. -/
partial def receiveHead (socket : TCP.Socket.Client) (sofar : ByteArray) : IO ByteArray := do
  if (Kubelet.splitReply sofar.toList).isSome then return sofar
  match ← (socket.recv? 4096).block with
  | some bytes => receiveHead socket (sofar ++ bytes)
  | none => return sofar

/-- Answers the visit of a connection. -/
def serve (s : Shared) (socket : TCP.Socket.Client) : IO Unit := do
  let head ← receiveHead socket ByteArray.empty
  let line := ((String.fromUTF8? head).getD "").splitOn Kubelet.lineEnd |>.headD ""
  let response ← match Visit.parse? line with
    | none => pure (.empty 400)
    | some visit =>
      let desk : Desk := ⟨← s.instruments, (← s.loop.get).status, Duration.ofMillis (← s.ticks),
        s.config.metricResolution⟩
      pure (desk.answer visit)
  (socket.send response.wire.toUTF8).block
  socket.shutdown.block

/-- Answers visits one after another until there is an interrupt. -/
partial def serveAll (s : Shared) (server : TCP.Socket.Server) (interrupt : Signal.Waiter) :
    IO Unit := do
  let next ← (Selectable.one #[
    .case server.acceptSelector fun socket => return some socket,
    .case interrupt.selector fun _ => return none]).block
  match next with
  | none => s.shutdown.set (some (← s.ticks))
  | some socket =>
    try serve s socket catch error => IO.eprintln error.toString
    serveAll s server interrupt

/-- The address of a socket as the system has it. -/
def systemAddress : Net.SocketAddress → Std.Net.SocketAddress
  | .v4 ip port => .v4 ⟨Std.Net.IPv4Addr.ofParts ip.a ip.b ip.c ip.d, port⟩
  | .v6 ip _ port => .v6 ⟨⟨⟨ip.groups.toArray, by simp [ip.length_groups]⟩⟩, port⟩

/-- Binds the address of the server. -/
def bind (server : TCP.Socket.Server) (address : Net.SocketAddress) :
    IO (Except String Net.SocketAddress) := do
  try
    server.bind (systemAddress address)
    server.listen 128
    return .ok address
  catch error => return .error ("error creating server listener: " ++ (ioError error).message)

/-- Runs the service until there is an interrupt. -/
def runService (config : Config) (client : Kubelet.Client) : IO UInt32 := do
  let cycle ← IO.mkRef (← IO.mkRef (Cycle.begin [] {}))
  let s : Shared := ⟨config, client, ← IO.monoMsNow, ← IO.mkRef {}, cycle, ← IO.mkRef none⟩
  let server ← TCP.Socket.Server.mk
  match Service.start ⟨config.listen, ← bind server config.listen⟩ with
  | (some failure, _) =>
    IO.eprintln (stopMessage failure)
    return 0
  | (none, _) =>
    let interrupt ← Signal.Waiter.mk .sigint true
    let loop ← IO.asTask (scrapeLoop s) .dedicated
    serveAll s server interrupt
    let _ ← IO.wait loop
    return 0

/-- The line that tells how the program is used. -/
def usage : String := "Usage: node_scrape <CONFIG_FILE>"

end NodeScrape.Program

open NodeScrape NodeScrape.Program in
/-- Launches the program and runs its service. -/
def main (arguments : List String) : IO UInt32 := do
  match ← Launch.ofArguments readText arguments with
  | .ready config client =>
    for warning in config.warnings do IO.eprintln warning.message
    runService config client
  | launch =>
    IO.eprintln (launch.complaint?.getD usage)
    return UInt32.ofNat (launch.exitCode?.getD 0)
