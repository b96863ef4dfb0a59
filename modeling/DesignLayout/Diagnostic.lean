import DesignLayout.Text.Quoted

/-!
Diagnostics: what an export found wrong without stopping.
-/
namespace DesignLayout

inductive Diagnostic
  | missingArea (element : String)
  | unknownKind (node tag : String)
  | scrollerWithoutGrid (node : String)
  | writeFailed (file reason : String)
  | rasterizeFailed (requests : Nat) (reason : String)
  deriving DecidableEq, Repr

namespace Diagnostic

def message : Diagnostic → String
  | missingArea element => element ++ ": no Area child found"
  | unknownKind node tag => node ++ ": unknown node kind " ++ Text.quoted tag
  | scrollerWithoutGrid node =>
    node ++ ": scroller has neither an Area child nor a repeated grid"
  | writeFailed file reason => "failed to write " ++ file ++ ": " ++ reason
  | rasterizeFailed requests reason =>
    "rendition batch of " ++ toString requests ++ " image(s) failed: " ++ reason

/-- Whether the design document is not to blame, but the place where the output goes. -/
def isOutputFailure : Diagnostic → Bool
  | writeFailed .. | rasterizeFailed .. => true
  | missingArea .. | unknownKind .. | scrollerWithoutGrid .. => false

end Diagnostic
end DesignLayout
