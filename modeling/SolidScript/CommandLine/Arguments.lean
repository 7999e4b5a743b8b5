import SolidScript.Number.Whole
import SolidScript.Path

/-!
# Arguments

What a list of arguments asks for. An option stands alone or carries a value, which is attached to
it or follows it; options of one letter may be written in one word. Some options belong to every
command and may stand before its name too. No option is given twice on one side of that name.
-/

namespace SolidScript

inductive Command where
  /-- The script of the model in a file. -/
  | render (input : Path) (output : Option Path) (resolution : Option UInt32)
      (clipboard editor : Bool)
  /-- The sample model, as a document if asked for. -/
  | sample (document : Bool)
  /-- The settings in force. -/
  | settings
  | version
deriving DecidableEq, Repr

structure Invocation where
  command : Command
  /-- The file with settings, if one is named. -/
  settingsFile : Option Path
  verbose : Bool
deriving DecidableEq, Repr

namespace Arguments

inductive Switch where
  | settingsFile
  | verbose
  | output
  | resolution
  | clipboard
  | editor
  | document
deriving DecidableEq, Repr

namespace Switch

def longName : Switch → String
  | .settingsFile => "config"
  | .verbose => "verbose"
  | .output => "output"
  | .resolution => "resolution"
  | .clipboard => "clipboard"
  | .editor => "open"
  | .document => "json"

def letter? : Switch → Option Char
  | .settingsFile => some 'c'
  | .verbose => some 'v'
  | .output => some 'o'
  | .resolution => some 'r'
  | .clipboard | .editor | .document => none

def hasValue : Switch → Bool
  | .settingsFile | .output | .resolution => true
  | .verbose | .clipboard | .editor | .document => false

end Switch

/-- The options of every command. -/
def shared : List Switch := [.settingsFile, .verbose]

def ofRender : List Switch := shared ++ [.output, .resolution, .clipboard, .editor]

def ofSample : List Switch := shared ++ [.document]

/-- An option with its value, which is empty for one that has none. -/
abbrev Given := Switch × Bytes

/-- What a stretch of arguments holds. -/
structure Stretch where
  given : List Given := []
  words : List Bytes := []
deriving DecidableEq, Repr

def dash : UInt8 := 0x2D

def equals : UInt8 := 0x3D

/-- The argument can be the value of the option before it. -/
def isValue (argument : Bytes) : Bool := argument = [dash] || argument.head? ≠ some dash

/-- The value of an option: what is attached to it, or else the next argument. -/
def value? (attached : Option Bytes) (next : List Bytes) : Option (Bytes × List Bytes) :=
  match attached, next with
  | some v, next => some (v, next)
  | none, v :: next => if isValue v then some (v, next) else none
  | none, [] => none

/-- The option of a long name, and what is attached to it by a sign of equality. -/
def long? (switches : List Switch) (text : Bytes) : Option (Switch × Option Bytes) :=
  let name := text.takeWhile (· ≠ equals)
  let attached := (text.dropWhile (· ≠ equals)).tail?
  (switches.find? fun s => Utf8.encode s.longName.toList = name).map fun s => (s, attached)

/-- The options of a word of letters. An option with a value takes all that follows its letter,
without a sign of equality in front, or else the next argument. -/
def letters? (switches : List Switch) (next : List Bytes) :
    Bytes → Option (List Given × List Bytes)
  | [] => some ([], next)
  | b :: r =>
    match switches.find? fun s => s.letter?.any fun c => c.toNat = b.toNat with
    | none => none
    | some s =>
      if s.hasValue then
        let attached := if r = [] then none else some (if r.head? = some equals then r.tail else r)
        (value? attached next).map fun (v, next) => ([(s, v)], next)
      else (letters? switches next r).map fun (given, next) => ((s, []) :: given, next)

/-- The options and words of a list of arguments. Behind two dashes everything is a word. If `one`
is set the stretch ends with the first word, which may not stand behind two dashes. `fuel` exceeds
the number of arguments. -/
def readFrom (switches : List Switch) (one : Bool) (fuel : Nat) (found : Stretch) :
    List Bytes → Option (Stretch × List Bytes)
  | [] => some (found, [])
  | argument :: rest =>
    match fuel with
    | 0 => none
    | fuel + 1 =>
      match argument with
      | [0x2D, 0x2D] =>
        if one then none else some ({ found with words := found.words ++ rest }, [])
      | 0x2D :: 0x2D :: text =>
        match long? switches text with
        | none => none
        | some (s, attached) =>
          if s.hasValue then
            match value? attached rest with
            | none => none
            | some (v, rest) =>
              readFrom switches one fuel { found with given := found.given ++ [(s, v)] } rest
          else if attached.isSome then none
          else readFrom switches one fuel { found with given := found.given ++ [(s, [])] } rest
      | 0x2D :: b :: text =>
        match letters? switches rest (b :: text) with
        | none => none
        | some (given, rest) =>
          readFrom switches one fuel { found with given := found.given ++ given } rest
      | word =>
        let found := { found with words := found.words ++ [word] }
        if one then some (found, rest) else readFrom switches one fuel found rest

/-- The options and words of a list of arguments, if no option is among them twice. -/
def read? (switches : List Switch) (one : Bool) (arguments : List Bytes) :
    Option (Stretch × List Bytes) :=
  match readFrom switches one (arguments.length + 1) {} arguments with
  | none => none
  | some (stretch, rest) =>
    if (stretch.given.map (·.1)).Nodup then some (stretch, rest) else none

namespace Stretch

def has (stretch : Stretch) (s : Switch) : Bool := (stretch.given.lookup s).isSome

/-- The path that an option carries. An empty one is none. -/
def path? (stretch : Stretch) (s : Switch) : Option (Option Path) :=
  match stretch.given.lookup s with
  | none => some none
  | some v => if v = [] then none else some (some ⟨v⟩)

/-- The number of thirty-two bits that an option carries. -/
def word32? (stretch : Stretch) (s : Switch) : Option (Option UInt32) :=
  match stretch.given.lookup s with
  | none => some none
  | some v =>
    match (Utf8.decode? v).bind Whole.integer? with
    | none => none
    | some i => if 0 ≤ i ∧ i < UInt32.size then some (some (UInt32.ofNat i.toNat)) else none

end Stretch

/-- The command of a name with the arguments that follow it. -/
def command? (name : Bytes) (arguments : List Bytes) : Option (Command × Stretch) :=
  if name = Utf8.encode "render".toList then
    match read? ofRender false arguments with
    | none => none
    | some (stretch, _) =>
      match stretch.words, stretch.path? .output, stretch.word32? .resolution with
      | [input], some output, some resolution =>
        if input = [] then none
        else some (.render ⟨input⟩ output resolution (stretch.has .clipboard) (stretch.has .editor),
          stretch)
      | _, _, _ => none
  else
    let plain (switches : List Switch) (command : Stretch → Command) :=
      match read? switches false arguments with
      | none => none
      | some (stretch, _) => if stretch.words = [] then some (command stretch, stretch) else none
    if name = Utf8.encode "demo".toList then
      plain ofSample fun stretch => .sample (stretch.has .document)
    else if name = Utf8.encode "config".toList then plain shared fun _ => .settings
    else if name = Utf8.encode "version".toList then plain shared fun _ => .version
    else none

/-- What a list of arguments asks for, if anything. A file with settings that is named behind the
command takes the place of one that is named before it. -/
def parse? (arguments : List Bytes) : Option Invocation :=
  match read? shared true arguments with
  | some (before, rest) =>
    match before.words with
    | [name] =>
      match command? name rest with
      | none => none
      | some (command, behind) =>
        match before.path? .settingsFile, behind.path? .settingsFile with
        | some outer, some inner =>
          some ⟨command, inner.or outer, before.has .verbose || behind.has .verbose⟩
        | _, _ => none
    | _ => none
  | none => none

end Arguments

end SolidScript
