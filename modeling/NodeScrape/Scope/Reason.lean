/-!
# Why a scope is done
-/

namespace NodeScrape

/-- Why work within a scope has to end. -/
inductive DoneReason where
  /-- It was canceled, here or further out. -/
  | canceled
  /-- Its time is up. -/
  | deadlineExceeded
  deriving DecidableEq, Repr

end NodeScrape
