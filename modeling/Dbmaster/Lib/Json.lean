/-!
# JSON values

Documents as the stores and webhooks of the server exchange them.  Members of
an object keep their order; a number is an integer or, when it has a fraction
or an exponent, its text.
-/

namespace Dbmaster.Lib

inductive Json
  | null
  | bool (b : Bool)
  | int (n : Int)
  | real (text : String)
  | str (s : String)
  | arr (items : List Json)
  | obj (members : List (String × Json))

namespace Json

/-- The first member of that name. -/
def get (key : String) : Json → Option Json
  | .obj members => (members.find? fun m => m.1 = key).map Prod.snd
  | _ => none

def asArray : Json → Option (List Json)
  | .arr items => some items
  | _ => none

def asStr : Json → Option String
  | .str s => some s
  | _ => none

def ofOption {α : Type} (f : α → Json) : Option α → Json
  | none => .null
  | some a => f a

theorem filterMap_asStr_map_str (texts : List String) :
    (texts.map Json.str).filterMap asStr = texts := by
  induction texts with
  | nil => rfl
  | cons text texts ih => simp only [List.map_cons, List.filterMap_cons, asStr, ih]

end Json

end Dbmaster.Lib
