import Dimensional.MeasureUnit.Basic

/-!
# The known units

The units that have a name of their own, each under its symbol and further names, and the prefixes
that form multiples of them.  A year is a year of plant operation: 8000 hours, and 330 workdays.
-/

namespace Dimensional.MeasureUnit

def hourSeconds : Float := 3600.0

/-- The hours that a plant is run in a year. -/
def operatingHoursPerYear : Float := 8000.0

def operatingDaysPerYear : Float := 330.0

/-- A unit under its symbol and further names. -/
def entries (symbol : String) (scale : Float) (dims : Dimension) (others : List String) :
    List (String × MeasureUnit) :=
  (symbol :: others).map fun name => (name, ⟨scale, dims, symbol⟩)

/-- Every name of a unit with the unit that it stands for. -/
def catalogue : List (String × MeasureUnit) :=
  [entries "kg" 1.0 .mass [],
   entries "g" 1e-3 .mass [],
   entries "m" 1.0 .length [],
   entries "s" 1.0 .time [],
   entries "K" 1.0 .temperature [],
   entries "mol" 1.0 .amount [],
   entries "A" 1.0 .current [],
   entries "cd" 1.0 .luminous [],
   entries "USD" 1.0 .currency ["$"],
   entries "min" 60.0 .time [],
   entries "h" hourSeconds .time ["hr"],
   entries "day" (24 * hourSeconds) .time [],
   entries "workday" (operatingHoursPerYear / operatingDaysPerYear * hourSeconds) .time [],
   entries "year" (operatingHoursPerYear * hourSeconds) .time ["yr"],
   entries "ton" 1000.0 .mass ["tonne", "t"],
   entries "N" 1.0 .force [],
   entries "Pa" 1.0 .pressure [],
   entries "bar" 1e5 .pressure [],
   entries "J" 1.0 .energy [],
   entries "W" 1.0 .power [],
   entries "Wh" hourSeconds .energy [],
   entries "L" 1e-3 .volume []].flatten

/-- The prefixes that form multiples, in the order in which they are tried: `da` before `d`. -/
def multiples : List (String × Float) :=
  [("da", 1e1), ("Y", 1e24), ("Z", 1e21), ("E", 1e18), ("P", 1e15), ("T", 1e12), ("G", 1e9),
   ("M", 1e6), ("k", 1e3), ("h", 1e2), ("d", 1e-1), ("c", 1e-2), ("m", 1e-3), ("u", 1e-6),
   ("n", 1e-9), ("p", 1e-12), ("f", 1e-15)]

end Dimensional.MeasureUnit
