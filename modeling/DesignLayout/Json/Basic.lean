/-!
JSON values.

Objects keep their fields in the order in which they are written. Whole numbers are kept apart from
the others: `7` is whole and `7.0` is not.
-/
namespace DesignLayout

inductive Json
  | null
  | bool (value : Bool)
  | whole (value : Int)
  | real (value : Float)
  | text (value : String)
  | array (items : List Json)
  | object (fields : List (String × Json))
  deriving Inhabited

end DesignLayout
