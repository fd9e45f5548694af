import NodeScrape.Service.Response

/-!
# Visits and answers on the wire

A visit is known by the first line of its head. An answer tells its length and ends its connection.
-/

namespace NodeScrape

/-- The visit whose head begins with a line. -/
def Visit.parse? (line : String) : Option Visit :=
  match line.splitOn " " with
  | [method, path, _] => some ⟨method, path⟩
  | _ => none

namespace Response

/-- The phrase that goes with a status. -/
def phrase (status : Nat) : String :=
  if status = 200 then "OK"
  else if status = 404 then "Not Found"
  else if status = 405 then "Method Not Allowed"
  else if status = 503 then "Service Unavailable"
  else "Internal Server Error"

/-- The text of an answer. -/
def wire (r : Response) : String :=
  let contentType := match r.contentType with
    | some type => ["content-type: " ++ type]
    | none => []
  String.intercalate "\r\n" (["HTTP/1.1 " ++ Nat.repr r.status ++ " " ++ phrase r.status] ++
    contentType ++ ["content-length: " ++ Nat.repr r.body.utf8ByteSize, "connection: close", "",
      r.body])

end Response

end NodeScrape
