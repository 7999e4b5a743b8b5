import SolidScript.Proofs.CommandLine.Render
import SolidScript.Session

/-!
# Delivery

A script is handed on in many ways: on the output stream, in a file, to the clipboard, to the
editor. Whichever is taken, what arrives is the script of the model under the settings: with a line
feed behind it on the stream and in the file (`Files.exportModel_holds`), and without one where a
program is started with it. The command line takes the same ways as everyone else
(`CommandLine.Delivers`).
-/

namespace SolidScript

open Machine

namespace Machine

/-- A file holds these bytes and no others. -/
def Holds (m : Machine) (file : Path) (content : Bytes) : Prop :=
  m.disk.read m.here file = .ok content

/-- A program was given these bytes to read. -/
def IsFed (tool : Started) (content : Bytes) : Prop := tool.input = some content

/-- A program was started on a file that holds these bytes. -/
def IsShown (m : Machine) (tool : Started) (content : Bytes) : Prop :=
  ∃ file : Path, tool.arguments = [file.bytes] ∧ m.Holds file content

end Machine

/-- A line feed is one byte more. -/
theorem Utf8.encode_line (script : Text) : encode script.line = encode script ++ [0x0A] :=
  List.flatMap_append

variable {m n : Machine} {script : Text} {output : Option Path}

/-! ## Files -/

namespace Files

theorem holds_of_write {disk : Disk} {path : Path} {r : Except Fault Unit}
    {step : ExceptT Fault (StateM Machine) Unit}
    (hwrite : m.disk.write m.here path (Utf8.encode script.line) = .ok disk)
    (h : Does step.run m r { m with disk }) :
    (m.after step.run).Holds path (Utf8.encode script ++ [0x0A]) := by
  obtain ⟨_, _, _, hafter⟩ := h.alike
  rw [hafter, ← Utf8.encode_line]
  exact Disk.read_write hwrite

/-- Putting a model into a file is putting its script there, and the file then holds it. -/
theorem exportModel_holds (m : Machine) (model : Node) (s : Settings) (path : Path) :
    m.answer (exportModel model path s).run = m.answer (writeScript (model.render s) path).run
      ∧ (m.answer (exportModel model path s).run = .ok () →
        (m.after (exportModel model path s).run).Holds path
            (Utf8.encode (model.render s) ++ [0x0A])
          ∧ (m.after (writeScript (model.render s) path).run).Holds path
            (Utf8.encode (model.render s) ++ [0x0A])) := by
  cases hwrite : m.disk.write m.here path (Utf8.encode (model.render s).line) with
  | error cause =>
    have h := does_writeScript_error hwrite
    rw [(does_exportModel h).answer_eq, h.answer_eq]
    exact ⟨rfl, fun hok => by cases hok⟩
  | ok disk =>
    have h := does_writeScript_ok hwrite
    rw [(does_exportModel h).answer_eq, h.answer_eq]
    exact ⟨rfl, fun _ => ⟨holds_of_write hwrite (does_exportModel h), holds_of_write hwrite h⟩⟩

end Files

/-! ## Rendering from the command line -/

namespace CommandLine

/-- The machine after a script has been handed on to the clipboard and to the editor, each where it
is asked for. -/
def handedOn (m : Machine) (script : Text) (clipboard editor : Bool) : Machine :=
  let m := if clipboard then m.after (Clipboard.copy script).run else m
  if editor then m.after (Editor.openScript script).run else m

/-- A run puts a script where it belongs and hands it on: with a line feed behind it on the stream
and in the file, and without one to programs. -/
structure Delivers (m : Machine) (arguments : List Bytes) (output : Option Path)
    (clipboard editor verbose : Bool) (script : Text) : Prop where
  onStream : output = none → m.answer (run arguments) = 0
    ∧ (m.after (run arguments)).output = m.output ++ (script ++ ['\n'])
  inFile : ∀ path, output = some path →
    (m.answer (run arguments) = 0 ↔ m.answer (Files.writeScript script path).run = .ok ())
      ∧ (m.answer (run arguments) = 0 →
        (m.after (run arguments)).Holds path (Utf8.encode script ++ [0x0A]))
  toPrograms : ∃ tools, (m.after (run arguments)).started = m.started ++ tools
    ∧ ∀ tool ∈ tools, IsFed tool (Utf8.encode script)
      ∨ (m.after (run arguments)).IsShown tool (Utf8.encode script)
  isHandedOn : m.answer (run arguments) = 0 → Alike (m.after (run arguments))
    (handedOn (m.after (deliver script output verbose).run) script clipboard editor)

theorem started_of_delivered (h : delivered m script output = .ok n) : n.started = m.started := by
  cases output with
  | none =>
    cases h
    rfl
  | some path =>
    obtain ⟨disk, -, rfl⟩ := delivered_some_eq_ok_iff.mp h
    rfl

theorem isFed_of_mem_copying {clipboard : Bool} {tool : Started}
    (h : tool ∈ copying m script clipboard) : IsFed tool (Utf8.encode script) := by
  cases clipboard with
  | false => cases h
  | true =>
    obtain ⟨copier, -, rfl⟩ := Clipboard.mem_copying h
    rfl

theorem started_of_shows {clipboard editor : Bool} {o : Machine}
    (h : Shows (copied n script clipboard) script editor o) :
    ∃ tools, o.started = n.started ++ tools ∧ ∀ tool ∈ tools,
      IsFed tool (Utf8.encode script) ∨ o.IsShown tool (Utf8.encode script) := by
  cases h with
  | skipped => exact ⟨_, rfl, fun tool htool => .inl (isFed_of_mem_copying htool)⟩
  | @tried r _ hopens _ =>
    refine ⟨_, hopens.started_eq.trans (List.append_assoc _ _ _), fun tool htool => ?_⟩
    rcases List.mem_append.mp htool with htool | htool
    · exact .inl (isFed_of_mem_copying htool)
    · cases r with
      | error fault => cases htool
      | ok file =>
        rw [List.mem_singleton.mp htool]
        exact .inr ⟨file, rfl, hopens.read_eq⟩

/-- What comes after delivery is done by the clipboard and the editor themselves. -/
theorem alike_handedOn {clipboard editor : Bool} {d o : Machine} (hdelivered : Alike d n)
    (h : Shows (copied n script clipboard) script editor o) :
    Alike (handedOn d script clipboard editor) o := by
  have hcopied : Alike (if clipboard then d.after (Clipboard.copy script).run else d)
      (copied n script clipboard) := by
    cases clipboard with
    | false => rwa [copied_false]
    | true => exact (Clipboard.does_copy n script d hdelivered).2
  cases h with
  | skipped => exact hcopied
  | tried _ hdoes => exact (hdoes _ hcopied).2

variable {arguments : List Bytes} {input : Path} {file : Option Path} {option : Option UInt32}
  {clipboard editor verbose : Bool} {start : Settings} {model : Node}

/-- A run of a rendering whose settings and model are loaded. -/
theorem run_render_of_loaded
    (hparse : Arguments.parse? arguments
      = some ⟨.render input output option clipboard editor, file, verbose⟩)
    (hstart : m.answer (settings file).run = .ok start)
    (hmodel : m.answer (Files.loadModel input).run = .ok model)
    (hscript : model.render (withOption option start) = script) :
    (∃ failure, delivered m script output = .error failure
        ∧ m.answer (run arguments) = 1 ∧ Alike (m.after (run arguments)) m)
      ∨ ∃ d o, delivered m script output = .ok d
        ∧ Shows (copied d script clipboard) script editor o
        ∧ m.answer (run arguments) = 0 ∧ Alike (m.after (run arguments)) o := by
  rw [(does_settings m file).answer_eq] at hstart
  rw [(Files.does_loadModel m input).answer_eq] at hmodel
  obtain ⟨r, n, hruns, hdoes⟩ :=
    does_carryOut_render m file input output option clipboard editor verbose
  have hrun := does_run hparse hdoes
  subst hscript
  cases hruns with
  | notLoaded hfails => cases hstart.symm.trans hfails
  | rendered hloaded hrenders =>
    cases hstart.symm.trans hloaded
    cases hrenders with
    | noModel hfails => cases hmodel.symm.trans hfails
    | notDelivered hin hdelivered =>
      cases hmodel.symm.trans hin
      exact .inl ⟨_, hdelivered, hrun.answer_eq, hrun.alike⟩
    | done hin hdelivered hshows =>
      cases hmodel.symm.trans hin
      exact .inr ⟨_, _, hdelivered, hshows, hrun.answer_eq, hrun.alike⟩

theorem delivers_of_run_render
    (hparse : Arguments.parse? arguments
      = some ⟨.render input output option clipboard editor, file, verbose⟩)
    (hstart : m.answer (settings file).run = .ok start)
    (hmodel : m.answer (Files.loadModel input).run = .ok model) :
    Delivers m arguments output clipboard editor verbose
      (model.render (withOption option start)) := by
  generalize hscript : model.render (withOption option start) = script
  rcases run_render_of_loaded hparse hstart hmodel hscript with
    ⟨failure, hdelivered, hanswer, halike⟩ | ⟨d, o, hdelivered, hshows, hanswer, halike⟩
  · obtain ⟨_, _, _, hafter⟩ := halike
    have hone : m.answer (run arguments) ≠ 0 := by
      rw [hanswer]
      decide
    refine ⟨?_, ?_, ⟨[], ?_, by simp⟩, fun hzero => absurd hzero hone⟩
    · rintro rfl
      cases hdelivered
    · rintro path rfl
      refine ⟨iff_of_false hone fun hok => ?_, fun hzero => absurd hzero hone⟩
      have hsome : ∃ d, delivered m script (some path) = .ok d := by
        rw [exists_delivered_iff]
        rintro _ ⟨⟩
        exact hok
      obtain ⟨d, hd⟩ := hsome
      cases hdelivered.symm.trans hd
    · rw [hafter, List.append_nil]
  · have hdeliver := (does_deliver_ok verbose hdelivered).alike
    have hhandedOn := halike.trans (alike_handedOn hdeliver hshows).symm
    have hpreserves := preserves_of_shows hshows
    obtain ⟨_, _, _, hafter⟩ := halike
    obtain ⟨tools, hstarted, htools⟩ := started_of_shows hshows
    rw [started_of_delivered hdelivered] at hstarted
    refine ⟨?_, ?_, ⟨tools, ?_, ?_⟩, fun _ => hhandedOn⟩
    · rintro rfl
      cases hdelivered
      rw [hafter]
      exact ⟨hanswer, hpreserves.output⟩
    · rintro path rfl
      refine ⟨iff_of_true hanswer (exists_delivered_iff.mp ⟨d, hdelivered⟩ path rfl), fun _ => ?_⟩
      rw [hafter, ← Utf8.encode_line]
      exact hpreserves.read_eq (read_of_delivered hdelivered)
    · rw [hafter]
      exact hstarted
    · rw [hafter]
      exact htools

end CommandLine

/-! ## All ways -/

/-- Files, streams and programs all get the script of the model under the settings: files and
streams with a line feed behind it, programs without. -/
theorem routes_deliver_render (m : Machine) (model : Node) (s : Settings) :
    let script := model.render s
    let bytes := Utf8.encode script
    (∀ file, m.answer (Files.exportModel model file s).run
          = m.answer (Files.writeScript script file).run
        ∧ (m.answer (Files.exportModel model file s).run = .ok () →
          (m.after (Files.exportModel model file s).run).Holds file (bytes ++ [0x0A])
            ∧ (m.after (Files.writeScript script file).run).Holds file (bytes ++ [0x0A])))
      ∧ (∀ session : Session, session.model = model →
        session.answer? (.writeWith s) = some (script ++ ['\n'])
          ∧ (session.settings = s → session.answer? .display = some script
            ∧ (m.after (Files.printModel session.model session.settings)).output
              = m.output ++ (script ++ ['\n'])))
      ∧ (m.answer (Clipboard.copy script).run = .ok () →
        ∃ copier ∈ Clipboard.copiers, (m.after (Clipboard.copy script).run).started
          = m.started ++ [⟨copier.program, copier.arguments.map Utf8.encode, some bytes⟩])
      ∧ (∀ file, m.answer (Editor.openScript script).run = .ok file →
        (m.after (Editor.openScript script).run).started
            = m.started ++ [⟨Editor.program (m.valueOf Editor.programVariable), [file.bytes], none⟩]
          ∧ (m.after (Editor.openScript script).run).Holds file bytes)
      ∧ ∀ arguments input output option clipboard editor file verbose start,
        Arguments.parse? arguments
            = some ⟨.render input output option clipboard editor, file, verbose⟩ →
          m.answer (CommandLine.settings file).run = .ok start →
          s = CommandLine.withOption option start →
          m.answer (Files.loadModel input).run = .ok model →
          CommandLine.Delivers m arguments output clipboard editor verbose script := by
  intro script bytes
  refine ⟨Files.exportModel_holds m model s, fun session hmodel => ?_, fun hcopied => ?_,
    fun file hopened => ?_, ?_⟩
  · subst hmodel
    refine ⟨rfl, ?_⟩
    rintro rfl
    obtain ⟨_, _, _, hafter⟩ := (Files.does_printModel m session.model session.settings).alike
    rw [hafter]
    exact ⟨rfl, rfl⟩
  · have hcopy := Clipboard.does_copy m script
    rw [hcopy.answer_eq] at hcopied
    obtain ⟨copier, hcopier, heq⟩ := Clipboard.exists_copying_eq_of_ok hcopied
    obtain ⟨_, _, _, hafter⟩ := hcopy.alike
    refine ⟨copier, hcopier, ?_⟩
    rw [hafter, heq]
    rfl
  · obtain ⟨r, n, hopens, hdoes⟩ := Editor.does_openScript m script
    cases hdoes.answer_eq.symm.trans hopened
    obtain ⟨_, _, _, hafter⟩ := hdoes.alike
    rw [hafter]
    exact ⟨hopens.started_eq, hopens.read_eq⟩
  · rintro arguments input output option clipboard editor file verbose start hparse hstart rfl
      hmodel
    exact CommandLine.delivers_of_run_render hparse hstart hmodel

/-- A model whose script ends in a line feed, an older script, a copier, and an editor. -/
def workingSinks : Machine where
  disk := ⟨[([Utf8.encode "in.json".toList],
      .file (Utf8.encode "\x7b\"literal\":\"// ä\\n\"\x7d".toList)),
    ([Utf8.encode "out.scad".toList], .file (Utf8.encode "box();\nbox();\n".toList)),
    ([Utf8.encode "tmp".toList], .directory)]⟩
  environment := [(Editor.programVariable, Utf8.encode "viewer".toList)]
  programs := [("wl-copy".toList, .ends (.code 0)), ("viewer".toList, .ends (.code 0))]

/-- The answer is a model that is nothing but the text. -/
def isLiteral (t : Text) : Except Fault Node → Bool
  | .ok (.literal u) => u = t
  | _ => false

theorem eq_of_isLiteral {t : Text} {r : Except Fault Node} (h : isLiteral t r = true) :
    r = .ok (.literal t) := by
  unfold isLiteral at h
  split at h
  next u => rw [of_decide_eq_true h]
  next => cases h

theorem routes_deliver_render_of_working_sinks :
    let m := workingSinks
    let model := Node.literal "// ä\n".toList
    let content := Utf8.encode "// ä\n".toList
    let arguments := CommandLine.words ["render", "in.json", "-oout.scad", "--clipboard", "--open"]
    let output := Path.ofString "out.scad"
    m.answer (Files.exportModel model output {}).run = .ok ()
      ∧ (m.after (Files.exportModel model output {}).run).Holds output (content ++ [0x0A])
      ∧ (∃ copier ∈ Clipboard.copiers, (m.after (Clipboard.copy (model.render {})).run).started
        = [⟨copier.program, copier.arguments.map Utf8.encode, some content⟩])
      ∧ (m.after (Editor.openScript (model.render {})).run).Holds (.ofString "/tmp/scadkit-0.scad")
        content
      ∧ m.answer (CommandLine.run arguments) = 0
      ∧ (m.after (CommandLine.run arguments)).Holds output (content ++ [0x0A]) := by
  intro m model content arguments output
  have hparse : Arguments.parse? arguments
      = some ⟨.render (.ofString "in.json") output none true true, none, false⟩ := by
    decide +kernel
  have hstart : m.answer (CommandLine.settings none).run = .ok {} := by decide +kernel
  have hmodel : m.answer (Files.loadModel (.ofString "in.json")).run = .ok model :=
    eq_of_isLiteral (by decide +kernel)
  have hexport : m.answer (Files.exportModel model output {}).run = .ok () := by decide +kernel
  have hcopy : m.answer (Clipboard.copy (model.render {})).run = .ok () := by decide +kernel
  have hopen : m.answer (Editor.openScript (model.render {})).run
      = .ok (.ofString "/tmp/scadkit-0.scad") := by decide +kernel
  obtain ⟨hfiles, -, hclipboard, heditor, hrun⟩ := routes_deliver_render m model {}
  obtain ⟨hsame, hholds⟩ := hfiles output
  obtain ⟨hzero, hheld⟩ :=
    (hrun arguments _ _ _ _ _ _ _ _ hparse hstart rfl hmodel).inFile output rfl
  have hanswer := hzero.mpr (hsame.symm.trans hexport)
  exact ⟨hexport, (hholds hexport).1, hclipboard hcopy, (heditor _ hopen).2, hanswer,
    hheld hanswer⟩

end SolidScript
