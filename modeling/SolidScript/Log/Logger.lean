import SolidScript.Log.Filter
import SolidScript.Paint
import SolidScript.Terminal

/-!
# Logger

Records as lines of the error stream. A logger without colors writes no commands for a terminal,
so it leaves out those that a record brings along.
-/

namespace SolidScript

structure Logger where
  filter : Filter
  /-- The lines have colors. -/
  colors : Bool := false
deriving DecidableEq, Repr

namespace Logger

def paint : Level → List Paint
  | .error => [⟨"1"⟩, ⟨"31"⟩]
  | .warn => [⟨"33"⟩]
  | .info => [⟨"32"⟩]
  | .debug => [⟨"34"⟩]
  | .trace => [⟨"36"⟩]

/-- A text with several codes before it and one that ends them all behind it. -/
def painted (colors : Bool) (paints : List Paint) (t : Text) : Text :=
  if colors then paints.flatMap Paint.start ++ t ++ Paint.reset else t

/-- The name of a level, five characters wide. -/
def levelName (level : Level) : Text :=
  let name := level.name.toList
  name ++ List.replicate (5 - name.length) ' '

/-- A message of several lines, all but the first moved to the right. -/
def indented (message : Text) : Text :=
  message.flatMap fun c => if c = '\n' then '\n' :: List.replicate 4 ' ' else [c]

/-- The line of a record. A record that names no source shows its level alone. -/
def line (logger : Logger) (record : Record) : Text :=
  let source := if record.source.isEmpty then [] else ' ' :: record.source.toList
  let line := Text.line (painted logger.colors [.gray] ['[']
    ++ painted logger.colors (paint record.level) (levelName record.level)
    ++ source ++ painted logger.colors [.gray] [']'] ++ ' ' :: indented record.message)
  if logger.colors then line else Terminal.plain line

/-- What a record puts on the error stream. -/
def write (logger : Logger) (record : Record) : Text :=
  if logger.filter.shows record then logger.line record else []

/-- A variable counts as set if it holds anything at all. -/
def isSet (environment : Environment) (name : String) : Bool :=
  (environment name.toList).any fun value => !value.isEmpty

/-- The variable whose text takes the place of the usual filter. -/
def filterVariable : Text := "RUST_LOG".toList

/-- The variable that decides about colors if it holds `always` or `never`. -/
def colorsVariable : Text := "RUST_LOG_STYLE".toList

/-- The variables that a logger depends on. -/
def variableNames : List Text :=
  [filterVariable, colorsVariable, "NO_COLOR".toList, "CLICOLOR_FORCE".toList]

/-- Whether the variables ask for colors. -/
def wantsColors (environment : Environment) : Bool :=
  let wish := (environment colorsVariable).bind Utf8.decode?
  if wish = some "always".toList then true
  else if wish = some "never".toList then false
  else !isSet environment "NO_COLOR" && isSet environment "CLICOLOR_FORCE"

/-- The logger that the variables ask for, and what is wrong with the parts of its filter that are
left out. Without a filter among the variables the sources' warnings are shown, and more on
demand. -/
def ofEnvironment (environment : Environment) (sources : List Text) (verbose : Bool) :
    Logger × List Text :=
  let text := ((environment filterVariable).bind Utf8.decode?).getD (Filter.usual sources verbose)
  let (filter, faults) := Filter.parse text
  (⟨filter, wantsColors environment⟩, faults)

/-- What the error stream shows of a part of a filter that is left out. -/
def faultLine (fault : Text) : Text :=
  Text.line ("warning: ".toList ++ fault ++ ", ignoring it".toList)

end Logger

end SolidScript
