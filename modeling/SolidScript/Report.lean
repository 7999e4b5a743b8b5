import SolidScript.Number.Fixed
import SolidScript.Paint
import SolidScript.Script.Summary

/-!
# Report

What the command line tells beside the script. Reports go to the error stream, so that a script on
the output stream can be passed on.
-/

namespace SolidScript.Report

/-- The line between the parts of a report. -/
def rule : Text := List.replicate 80 '━'

/-- A time, in the greatest unit that it fills. What is less than a microsecond is dropped. -/
def duration (nanoseconds : Nat) : Text :=
  let micros := nanoseconds / 1000
  if micros < 1000 then digits micros ++ "µs".toList
  else if micros < 1000000 then (Binary64.quotient micros 1000).twoPlaces ++ "ms".toList
  else (Binary64.quotient micros 1000000).twoPlaces ++ "s".toList

/-- A line with a name and a value. -/
def metric (colors : Bool) (paint : Paint) (name : String) (value : Text) : Text :=
  Text.line (' ' :: ' ' :: Paint.gray.apply colors (name.toList ++ [':'])
    ++ ' ' :: paint.apply colors value)

/-- A report on one rendering. -/
def rendering (colors : Bool) (source : Text) (summary : Summary) (resolution : UInt32)
    (nanoseconds : Nat) : Text :=
  let rule := Text.line (Paint.gray.apply colors rule)
  '\n' :: rule
    ++ Text.line
      (Paint.bold.apply colors "Rendered:".toList ++ ' ' :: Paint.cyan.apply colors source)
    ++ rule
    ++ metric colors .cyan "Nodes" (digits summary.nodes)
    ++ metric colors .cyan "Lines" (digits summary.lines)
    ++ metric colors .cyan "Bytes" (digits summary.bytes)
    ++ metric colors .cyan "$fn" (digits resolution.toNat)
    ++ metric colors .yellow "Time" (duration nanoseconds)
    ++ rule

/-- A label and what it is about. -/
def labeled (colors : Bool) (paint : Paint) (label : String) (message : Text) : Text :=
  Text.line (paint.apply colors label.toList ++ ' ' :: message)

def error (colors : Bool) (message : Text) : Text :=
  '\n' :: labeled colors .boldRed "❌ Error:" message

def warning (colors : Bool) (message : Text) : Text :=
  '\n' :: labeled colors .boldYellow "⚠️  Warning:" message

def info (colors : Bool) (message : Text) : Text := labeled colors .lightBlue "ℹ️" message

/-- A success is green as a whole. -/
def success (colors : Bool) (message : Text) : Text :=
  labeled colors .green "✅" (Paint.green.apply colors message)

end SolidScript.Report
