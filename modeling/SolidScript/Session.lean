import SolidScript.Script

/-!
# Session

A model that is worked on, and the settings that all its renderings share. The settings are read
when a script is asked for: a model does not remember those under which it was built. A rendering
with settings of its own leaves the shared ones alone.

`after` and `answer?` say what a step comes to. `perform` spells it out as it reaches for the model
or the settings, also where the model is out of its place for a while.
-/

namespace SolidScript

structure Session where
  model : Node := default
  settings : Settings := {}

namespace Session

inductive Step where
  /-- Work on another model. -/
  | setModel (model : Node)
  /-- Put what an operation makes of the model in its place. -/
  | grow (operation : Node → Node)
  | setSettings (settings : Settings)
  | changeSettings (change : Settings.Change)
  /-- Ask for the script under the shared settings. -/
  | display
  /-- Ask for the script under settings of its own. -/
  | renderWith (settings : Settings)
  /-- Ask for the script under settings of its own, as a file holds it. -/
  | writeWith (settings : Settings)

/-- The session after a step. -/
def after (session : Session) : Step → Session
  | .setModel model => { session with model }
  | .grow operation => { session with model := operation session.model }
  | .setSettings settings => { session with settings }
  | .changeSettings change => { session with settings := session.settings.change change }
  | .display | .renderWith _ | .writeWith _ => session

/-- The script of the model under the shared settings. -/
def script (session : Session) : Text := session.model.render session.settings

/-- What a step answers, if it asks for something. -/
def answer? (session : Session) : Step → Option Text
  | .display => some session.script
  | .renderWith settings => some (session.model.render settings)
  | .writeWith settings => some (session.model.render settings).line
  | .setModel _ | .grow _ | .setSettings _ | .changeSettings _ => none

/-- The session after several steps. -/
def run (session : Session) (steps : List Step) : Session := steps.foldl after session

/-- The answers of several steps, in order. -/
def answers (session : Session) : List Step → List Text
  | [] => []
  | step :: steps => (session.answer? step).toList ++ (session.after step).answers steps

/-! ## Steps as they reach for what they need -/

/-- A step, one access after the other. -/
def perform : Step → StateM Session (Option Text)
  | .setModel model => do
    modify ({ · with model })
    return none
  | .grow operation => do
    -- An empty list stands in for the model while the operation is at work.
    let old := (← get).model
    modify ({ · with model := default })
    modify ({ · with model := operation old })
    return none
  | .setSettings settings => do
    modify ({ · with settings })
    return none
  | .changeSettings change => do
    if let some resolution := change.resolution then
      modify fun session => { session with settings.resolution := resolution }
    if let some meshConvexity := change.meshConvexity then
      modify fun session => { session with settings.meshConvexity := meshConvexity }
    return none
  | .display => do
    let shared := (← get).settings
    return some ((← get).model.render shared)
  | .renderWith settings => return some ((← get).model.render settings)
  | .writeWith settings => return some ((← get).model.render settings).line

/-- Several steps, with their answers in order. -/
def performAll : List Step → StateM Session (List Text)
  | [] => return []
  | step :: steps => do
    let answer ← perform step
    let answers ← performAll steps
    return answer.toList ++ answers

end Session

end SolidScript
