/-!
Resource types: each type that a package declares becomes one class of its own, named after it.
-/

set_option autoImplicit false

namespace ResourceClasses

/-- A type of resource, with the name it has in symbol files and class names. -/
inductive ResourceType
  | anim
  | animator
  | array
  | attr
  | bool
  | color
  | dimen
  | drawable
  | font
  | fraction
  | id
  | integer
  | interpolator
  | layout
  | macroText
  | menu
  | mipmap
  | navigation
  | plurals
  | raw
  | string
  | style
  | styleable
  | transition
  | xml
  deriving DecidableEq, Hashable, Repr

namespace ResourceType

def all : List ResourceType :=
  [anim, animator, array, attr, bool, color, dimen, drawable, font, fraction, id, integer,
    interpolator, layout, macroText, menu, mipmap, navigation, plurals, raw, string, style,
    styleable, transition, xml]

def name : ResourceType → String
  | anim => "anim"
  | animator => "animator"
  | array => "array"
  | attr => "attr"
  | bool => "bool"
  | color => "color"
  | dimen => "dimen"
  | drawable => "drawable"
  | font => "font"
  | fraction => "fraction"
  | id => "id"
  | integer => "integer"
  | interpolator => "interpolator"
  | layout => "layout"
  | macroText => "macro"
  | menu => "menu"
  | mipmap => "mipmap"
  | navigation => "navigation"
  | plurals => "plurals"
  | raw => "raw"
  | string => "string"
  | style => "style"
  | styleable => "styleable"
  | transition => "transition"
  | xml => "xml"

def ofName? (name : String) : Option ResourceType :=
  all.find? fun type => type.name == name

theorem ofName?_name (type : ResourceType) : ofName? type.name = some type := by
  cases type <;> rfl

theorem name_injective : Function.Injective name := by
  intro first second same
  have known := ofName?_name first
  rw [same, ofName?_name] at known
  exact (Option.some.inj known).symm

/-- What is said about a name that no resource type has. -/
def unknownMessage (name : String) : String :=
  "unknown resource type `" ++ name ++ "`"

end ResourceType

end ResourceClasses
