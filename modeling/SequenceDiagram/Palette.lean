import SequenceDiagram.Fault

/-!
# Palettes

The colours of a drawing: a palette is chosen by name and single colours of it are replaced.

## Main definitions

* `Palette`: a colour for each use
* `Palette.Use`: the uses of a colour
* `Palette.themes`: the palettes that have a name
* `Palette.named`: the palette of a name
* `Palette.resolve`: a named palette with some colours replaced

## Main results

* `Palette.get_set`: setting one colour changes that colour only
-/

namespace SequenceDiagram

/-- The colours of a drawing. -/
structure Palette where
  /-- Lines, frames and borders. -/
  stroke : String
  /-- Boxes, label notches and open arrowheads. -/
  fill : String
  /-- Closed arrowheads. -/
  arrowFill : String
  /-- The upper end of the gradient of participant boxes. -/
  gradientTop : String
  /-- The lower end of that gradient. -/
  gradientBottom : String
  /-- Text, if it has a colour of its own. -/
  text : Option String := none
deriving DecidableEq

namespace Palette

/-- The palette of a drawing for which none is chosen. -/
def classic : Palette :=
  { stroke := "black"
    fill := "white"
    arrowFill := "black"
    gradientTop := "rgb(200, 200, 200)"
    gradientBottom := "rgb(100,100,100)" }

/-- Blue greys. -/
def slate : Palette :=
  { stroke := "#334155"
    fill := "#f8fafc"
    arrowFill := "#334155"
    gradientTop := "#e2e8f0"
    gradientBottom := "#94a3b8"
    text := some "#0f172a" }

/-- Browns. -/
def sepia : Palette :=
  { stroke := "#5b4636"
    fill := "#fdf6e3"
    arrowFill := "#5b4636"
    gradientTop := "#f4e3c1"
    gradientBottom := "#c8a97e"
    text := some "#3b2f2f" }

/-- Dark greys on white, with blue arrowheads. -/
def githubLight : Palette :=
  { stroke := "#1f2328"
    fill := "#ffffff"
    arrowFill := "#0969da"
    gradientTop := "#f6f8fa"
    gradientBottom := "#d1d9e0"
    text := some "#1f2328" }

/-- The palettes that have a name, in the order of their names. -/
def themes : List (String × Palette) :=
  [("classic", classic), ("github-light", githubLight), ("sepia", sepia), ("slate", slate)]

/-- The palette of a name; without a name it is `classic`. -/
def named : Option String → Except Fault Palette
  | none => .ok classic
  | some name =>
    match themes.lookup name with
    | some p => .ok p
    | none => .error (.unknownTheme name (themes.map Prod.fst))

/-- What a colour is used for. -/
inductive Use where
  | stroke
  | fill
  | arrowFill
  | gradientTop
  | gradientBottom
  | text
deriving DecidableEq

/-- The use that goes by a name. -/
def Use.ofName (name : String) : Except Fault Use :=
  match name with
  | "stroke" => .ok stroke
  | "fill" => .ok fill
  | "arrow_fill" => .ok arrowFill
  | "gradient_top" => .ok gradientTop
  | "gradient_bottom" => .ok gradientBottom
  | "text" => .ok text
  | _ => .error (.unknownColour name)

/-- The colour of a use, if it has one. -/
def get (p : Palette) : Use → Option String
  | .stroke => some p.stroke
  | .fill => some p.fill
  | .arrowFill => some p.arrowFill
  | .gradientTop => some p.gradientTop
  | .gradientBottom => some p.gradientBottom
  | .text => p.text

/-- The palette with another colour for one use. -/
def set (p : Palette) (use : Use) (colour : String) : Palette :=
  match use with
  | .stroke => { p with stroke := colour }
  | .fill => { p with fill := colour }
  | .arrowFill => { p with arrowFill := colour }
  | .gradientTop => { p with gradientTop := colour }
  | .gradientBottom => { p with gradientBottom := colour }
  | .text => { p with text := some colour }

@[simp] theorem get_set (p : Palette) (use other : Use) (colour : String) :
    (p.set use colour).get other = if other = use then some colour else p.get other := by
  cases use <;> cases other <;> rfl

/-- The palette with every change made that gives a colour. -/
def replace (p : Palette) (changes : List (Use × Option String)) : Palette :=
  changes.foldl (fun p c => (c.2.map (p.set c.1)).getD p) p

@[simp] theorem replace_nil (p : Palette) : p.replace [] = p := rfl

/-- The palette of a name with the changes made that give a colour; only these need a known
use. -/
def resolve (theme : Option String) (changes : List (String × Option String)) :
    Except Fault Palette := do
  let p ← named theme
  let given := changes.filter fun c => c.2.isSome
  let changes ← given.mapM fun c => (Use.ofName c.1).map fun use => (use, c.2)
  return p.replace changes

example : named (some "sepia ") =
    .error (.unknownTheme "sepia " ["classic", "github-light", "sepia", "slate"]) := by rfl

end Palette

end SequenceDiagram
