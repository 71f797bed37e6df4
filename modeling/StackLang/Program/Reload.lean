import StackLang.Op.Layout
import StackLang.Program.Load

-- Loading the text that a tree is laid out as.

namespace StackLang

variable {α : Type}

def Block.reload (root : Block α) (given : String) : Except Failure (Block Location) :=
  (loadFile given (.regular (Block.sourceText root).toUTF8.toList)).value

-- The text does not change when it is loaded and laid out again.
def Block.isStable (root : Block α) (given : String) : Bool :=
  match Block.reload root given with
  | .ok again => Block.sourceText again == Block.sourceText root
  | .error _ => false

end StackLang
