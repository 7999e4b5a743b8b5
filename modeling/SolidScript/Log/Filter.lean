import SolidScript.Log
import SolidScript.Pattern.Meaning
import SolidScript.Text.Blank
import SolidScript.Text.Utf8

/-!
# Filter

Which records are shown. A filter is a list of rules; the rule with the longest name that a record's
source starts with decides, and a rule without a name decides where no other does. Rules are written
with commas between them, as `name=level`, `name` or `level`, and a slash may set a pattern behind
them that has to stand in every message.
-/

namespace SolidScript

/-- A rule of a filter: sources that start with the name are shown up to the level, and not at all
if there is no level. -/
structure Filter.Rule where
  name : Option Text
  level : Option Level
deriving DecidableEq, Repr

structure Filter where
  rules : List Filter.Rule
  /-- What has to stand in every message, if anything. -/
  pattern : Option Pattern := none
deriving DecidableEq, Repr

namespace Level

def all : List Level := [.error, .warn, .info, .debug, .trace]

/-- A level that is spelled in letters of any case; `off` is none at all. -/
def parse? (t : Text) : Option (Option Level) :=
  let upper := t.map Char.toUpper
  if upper = "OFF".toList then some none
  else (all.find? fun l => l.name.toList = upper).map some

end Level

namespace Filter

namespace Rule

/-- The length of the name in bytes. -/
def weight (rule : Rule) : Nat := (rule.name.map Utf8.size).getD 0

/-- The rule is about records of the given source. -/
def concerns (rule : Rule) (source : Text) : Bool :=
  match rule.name with
  | none => true
  | some name => name.isPrefixOf source

/-- The rule lets a level pass. -/
def admits (rule : Rule) (level : Level) : Bool :=
  match rule.level with
  | none => false
  | some most => level.rank ≤ most.rank

end Rule

/-- Stretches of a text between occurrences of a character. -/
def cutAt (mark : Char) (t : Text) : List Text :=
  t.foldr (fun c pieces =>
    match pieces with
    | [] => [[c]]
    | p :: ps => if c = mark then [] :: p :: ps else (c :: p) :: ps) [[]]

/-- A rule as it is written, or what is wrong with it. -/
def parseRule (t : Text) : Except Text Rule :=
  match cutAt '=' t with
  | [part] =>
    match Level.parse? part with
    | some level => .ok ⟨none, level⟩
    | none => .ok ⟨some part, some .trace⟩
  | [part, level] =>
    if Text.trim level = [] then .ok ⟨some part, some .trace⟩
    else match Level.parse? (Text.trim level) with
      | some level => .ok ⟨some part, level⟩
      | none => .error ("invalid logging spec '".toList ++ Text.trim level ++ ['\''])
  | _ => .error ("invalid logging spec '".toList ++ t ++ ['\''])

/-- The rules with one more, which takes the place of a rule for the same name. -/
def addRule (rule : Rule) : List Rule → List Rule
  | [] => [rule]
  | r :: rs => if r.name = rule.name then rule :: rs else r :: addRule rule rs

/-- The rules of a list that is written with commas, and what is wrong with those left out. -/
def parseRules (t : Text) : List Rule × List Text :=
  let parts := ((cutAt ',' t).map Text.trim).filter (· ≠ [])
  parts.foldl (fun (rules, faults) part =>
    match parseRule part with
    | .ok rule => (addRule rule rules, faults)
    | .error fault => (rules, faults ++ [fault])) ([], [])

/-- Errors alone are shown where no rule is given. -/
def orErrors (rules : List Rule) : List Rule := if rules = [] then [⟨none, some .error⟩] else rules

/-- A filter as it is written, and what is wrong with the parts of it that are left out. -/
def parse (t : Text) : Filter × List Text :=
  match cutAt '/' t with
  | [rules] =>
    let (rules, faults) := parseRules rules
    ({ rules := orErrors rules }, faults)
  | [rules, pattern] =>
    let (rules, faults) := parseRules rules
    match Pattern.parse pattern with
    | .ok p => ({ rules := orErrors rules, pattern := some p }, faults)
    | .error flaw =>
      ({ rules := orErrors rules },
        faults ++ ["invalid regex filter - ".toList ++ flaw.message pattern])
  | _ =>
    ({ rules := orErrors [] }, ["invalid logging spec '".toList ++ t ++ "' (too many '/'s)".toList])

/-- The rule that decides about a source: of those that concern it, the last with the longest
name. -/
def deciding? (filter : Filter) (source : Text) : Option Rule :=
  (filter.rules.filter fun r => r.concerns source).foldl (fun best r =>
    match best with
    | none => some r
    | some b => if b.weight ≤ r.weight then some r else some b) none

/-- The record is shown. -/
def shows (filter : Filter) (record : Record) : Bool :=
  (match filter.deciding? record.source.toList with
    | none => false
    | some rule => rule.admits record.level)
  && filter.pattern.all fun pattern => pattern.isIn record.message

/-- The text of a filter that shows warnings of the given sources, and whatever else is not grave
if more is asked for. -/
def usual (sources : List Text) (verbose : Bool) : Text :=
  let level := if verbose then "info".toList else "warn".toList
  List.intercalate [','] (sources.map fun source => source ++ '=' :: level)

end Filter

end SolidScript
