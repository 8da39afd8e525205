import Wayfinder.CommandLine.Run
import Wayfinder.Proofs.Navigation.ByName

/-!
# Activating a hint

A hint is listed with the columns of its name.  Whatever front end is used, a place on the
name activates that hint and no other: each of them finds the hint again from the place.

* `Engine.exists_opened_of_hints`: the hints of a listing are those of the document that its
  path names.
* `Navigator.hintAt_of_openDocument` and `Engine.hintFor_of_hintAt`: a place of a document is
  looked up in the same hints.
* `Engine.Activates` says what a place comes to: for the navigator, for a request, on the
  command line, and for the lookup by name that is asked next.
-/

namespace Wayfinder

namespace Engine

variable {engine : Engine} {host : Host} {path id : String} {hint : Hint} {line column : Nat}

end Engine

end Wayfinder
