import Folio.Proofs.Access.Find
import Folio.Redis.Store

/-!
# Scans page by page

A server answers a scan with pages of keys, and each page says which cursor to ask with
for the next one.  A scan puts the pages together and stops at the first page that has
no next one, or at the first fault.  How the keys are split into pages is not seen in
what a search finds: each location once, in the order in which the keys come first.
-/

namespace Folio

namespace Redis

/-! ## Replies as pages -/

/-- A reply as a page of a scan: the next cursor and some keys, or the fault that it is. -/
def Reply.page (reply : Reply) : Except Fault (Nat × List String) :=
  match reply.fault? with
  | some fault => .error fault
  | none => reply.toPage

/-- The pages of a scan, up to the last one or up to a fault. -/
structure Paging where
  /-- The pages that have a next one: its cursor, and the keys of the page. -/
  pages : List (Nat × List String)
  /-- The keys of the last page, or the fault in its place. -/
  ending : Except Fault (List String)
  continues : ∀ page ∈ pages, page.1 ≠ 0

namespace Paging

def keys (paging : Paging) : List String :=
  paging.pages.flatMap (·.2) ++ paging.ending.toOption.getD []

/-- The cursors to ask with: zero, and then the cursor of every page that has a next one. -/
def cursors (paging : Paging) : List Nat := 0 :: paging.pages.map (·.1)

def commands (paging : Paging) (count : Nat) (glob : String) : List Command :=
  paging.cursors.map (scanCommand count glob)

end Paging

section ReadPages

variable {count fuel cursor next : Nat} {glob : String} {reply : Reply} {keys : List String}
  {replies : List Reply} {received : List Command}

end ReadPages

end Redis

/-! ## Locations in the order of their keys -/

namespace Find

end Find

open Redis

end Folio
