import Stylebook.Command.Run
import Stylebook.Proofs.Command.Arguments
import Stylebook.Proofs.Command.Output
import Stylebook.Proofs.Variant.Unreadable

/-! Building a showcase from the command line. A build that fails prints nothing and leaves every file as it was; one
    that prints its document writes the same document when an output path is given in addition. -/

namespace Stylebook
namespace Command

open Loading (Files)
open Showcase (Item Subitem)

def buttonTags : List Doc.Tag :=
  [⟨"$title".text, "Buttons".text⟩, ⟨"base".text, ".b Plain".text⟩, ⟨"example".text, "<i class=b></i>".text⟩]

end Command
end Stylebook
