import SolidScript.Node.Build

/-!
# Sample

A small model to show what a script looks like.
-/

namespace SolidScript.Node

/-- A centered box of side five united with a sphere that is shifted by ten along x. -/
def sample : Node :=
  let five := Binary64.ofRatio false 5 1
  let ten := Binary64.ofRatio false 10 1
  unite (box five true) [translated (sphere five) ten .zero .zero]

end SolidScript.Node
