import SolidScript.Proofs.Script.Flattening
import SolidScript.Proofs.Script.Quoted

/-!
# Quoted texts and their surroundings

A script is put together by cutting texts into lines and moving these to the right. What is written
between quotes has no line feed in it, so all that this does to its line is to put blanks in front
(`Text.map_indentLine_split_around`), at whatever place of a model it stands
(`Node.exists_split_render_plug_around`). And its reader stops at the closing quote, not before and
not behind it. So no name of a mesh file changes a script anywhere but between the quotes of that
name (`Node.exists_render_plug_mesh`).

The main statement is `Quoted.selfDelimiting_encode`.
-/

namespace SolidScript

namespace Text

/-- The lines of a text that stands on one line between two others, all of them moved. -/
def linesAround (depth : Nat) (before line after : Text) : List Text :=
  (split before).dropLast.map (indentLine depth)
    ++ (indentation depth ++ (lastLine before ++ line ++ firstLine after))
    :: (split after).tail.map (indentLine depth)

variable {line : Text}

/-- A text without a line feed joins the lines on both its sides. -/
theorem split_around (hline : '\n' ∉ line) (before after : Text) :
    split (before ++ line ++ after)
      = (split before).dropLast ++ (lastLine before ++ line ++ firstLine after)
        :: (split after).tail := by
  have hbehind : split (line ++ after) = (line ++ firstLine after) :: (split after).tail := by
    have hone := split_of_notMem hline
    rw [split_append]
    simp only [lastLine, hone]
    rfl
  rw [List.append_assoc, split_append]
  simp only [firstLine, hbehind, List.head_cons, List.tail_cons, List.append_assoc]

theorem map_indentLine_split_around (hne : line ≠ []) (hline : '\n' ∉ line) (depth : Nat)
    (before after : Text) : (split (before ++ line ++ after)).map (indentLine depth)
      = linesAround depth before line after := by
  have hwhole : lastLine before ++ line ++ firstLine after ≠ [] := by simp [hne]
  rw [split_around hline, List.map_append, List.map_cons, indentLine_of_ne_nil depth hwhole,
    linesAround]

/-- As one text, the lines are `line` between two texts that do not depend on it. -/
theorem exists_join_linesAround (depth : Nat) (before after : Text) (above below : List Text) :
    ∃ pre post, ∀ line, join (above ++ linesAround depth before line after ++ below)
      = pre ++ line ++ post := by
  obtain ⟨pre, post, hjoin⟩ := exists_join_surrounded
    (above ++ (split before).dropLast.map (indentLine depth))
    ((split after).tail.map (indentLine depth) ++ below)
  refine ⟨pre ++ (indentation depth ++ lastLine before), firstLine after ++ post, fun line => ?_⟩
  have hone := hjoin [indentation depth ++ (lastLine before ++ line ++ firstLine after)] (by simp)
  simpa [linesAround, join] using hone

end Text

namespace Quoted

/-- A text with its quotes. -/
def inQuotes (write : Text → Text) (t : Text) : Text := '"' :: write t ++ ['"']

theorem inQuotes_ne_nil (write : Text → Text) (t : Text) : inQuotes write t ≠ [] :=
  List.cons_ne_nil _ _

theorem notMem_inQuotes (t : Text) : '\n' ∉ inQuotes encode t := by
  simp [inQuotes, notMem_encode]

end Quoted

namespace Script

/-- What stands behind the name of a mesh file. -/
def meshEnd (s : Settings) : Text :=
  (match s.meshConvexity with
    | none => []
    | some n => ", convexity = ".toList ++ digits n.toNat)
  ++ ");".toList

theorem mesh_eq (s : Settings) (file : Path) :
    mesh s file = "import(".toList ++ Quoted.inQuotes Quoted.encode file.display ++ meshEnd s := by
  have hopen : "import(\"".toList = "import(".toList ++ ['"'] := rfl
  unfold mesh meshEnd Quoted.inQuotes
  rw [hopen]
  cases s.meshConvexity <;> simp only [List.append_assoc, List.cons_append, List.nil_append]

end Script

namespace Node

variable (s : Settings) (C : Context)

/-- At every place of a model, a text without a line feed has the same lines above it and below
it. -/
theorem exists_split_render_plug_around : ∃ above below : List Text, ∀ before line after : Text,
    line ≠ [] → '\n' ∉ line →
      Text.split ((C.plug (.literal (before ++ line ++ after))).render s)
        = above ++ Text.linesAround C.blocks before line after ++ below := by
  obtain ⟨above, below, hplace⟩ := exists_split_render_plug s C
  refine ⟨above, below, fun before line after hne hline => ?_⟩
  have htext : (literal (before ++ line ++ after)).render s ≠ [] := by simp [render, hne]
  rw [hplace _ htext, render, Text.map_indentLine_split_around hne hline]

/-- Whatever a mesh file is called, it is only between the quotes that the script depends on it. -/
theorem exists_render_plug_mesh : ∃ pre post : Text, ∀ file : Path,
    (C.plug (.mesh file)).render s
      = pre ++ '"' :: (Quoted.encode file.display ++ '"' :: post) := by
  obtain ⟨above, below, hlines⟩ := exists_split_render_plug_around s C
  obtain ⟨pre, post, hjoin⟩ :=
    Text.exists_join_linesAround C.blocks "import(".toList (Script.meshEnd s) above below
  refine ⟨pre, post, fun file => ?_⟩
  let name := Quoted.inQuotes Quoted.encode file.display
  have hsplit := hlines "import(".toList name (Script.meshEnd s) (Quoted.inQuotes_ne_nil _ _)
    (Quoted.notMem_inQuotes _)
  calc (C.plug (.mesh file)).render s
      = (C.plug (.literal (Script.mesh s file))).render s := render_plug_congr s C rfl
    _ = pre ++ name ++ post := by
        rw [Script.mesh_eq, ← hjoin name, ← hsplit, Text.join_split]
    _ = pre ++ '"' :: (Quoted.encode file.display ++ '"' :: post) := by
        simp [name, Quoted.inQuotes]

/-- A name that would end its string and its line, and start a statement of its own. -/
example : (union [.mesh (.ofString "a\");\ncube(1);\\")]).render {}
    = "union() \x7b\n    import(\"a\\\");\\ncube(1);\\\\\");\n\x7d;".toList := by
  decide +kernel

end Node

namespace Quoted

/-- A way to write texts between quotes that tells them from all that stands around them. -/
structure SelfDelimiting (write : Text → Text) : Prop where
  /-- A reader that starts behind the opening quote stops at the closing one, and has the text. -/
  read_write (t rest : Text) : read (write t ++ '"' :: rest) = some (t, rest)
  write_append (t u : Text) : write (t ++ u) = write t ++ write u
  notMem_write (t : Text) : '\n' ∉ write t ∧ '\t' ∉ write t ∧ '\r' ∉ write t
  /-- Where the text around it is cut into lines and moved, its line gets blanks in front, and is
  left as it is otherwise. -/
  lines_around (depth : Nat) (before t after : Text) :
    (Text.split (before ++ inQuotes write t ++ after)).map (Text.indentLine depth)
      = Text.linesAround depth before (inQuotes write t) after
  /-- So it is at every place of a model, with lines above and below that depend on the place
  alone. -/
  lines_inPlace (s : Settings) (C : Context) : ∃ above below : List Text, ∀ before t after,
    Text.split ((C.plug (.literal (before ++ inQuotes write t ++ after))).render s)
      = above ++ Text.linesAround C.blocks before (inQuotes write t) after ++ below

/-- **A quoted text can be told from its surroundings and does not change with them**, and it does
not change them: whatever a mesh file is called, its name is the only thing in the script that
depends on it. -/
theorem selfDelimiting_encode : SelfDelimiting encode
    ∧ ∀ (s : Settings) (C : Context), ∃ pre post : Text, ∀ file : Path,
      (C.plug (.mesh file)).render s = pre ++ '"' :: (encode file.display ++ '"' :: post) := by
  have hencode : SelfDelimiting encode := {
    read_write := read_encode
    write_append := encode_append
    notMem_write := fun t =>
      ⟨fun h => (ne_of_mem_encode h).1 rfl, fun h => (ne_of_mem_encode h).2.1 rfl,
        fun h => (ne_of_mem_encode h).2.2 rfl⟩
    lines_around := fun depth before t after =>
      Text.map_indentLine_split_around (inQuotes_ne_nil _ t) (notMem_inQuotes t) depth before after
    lines_inPlace := fun s C => by
      obtain ⟨above, below, hlines⟩ := Node.exists_split_render_plug_around s C
      exact ⟨above, below, fun before t after =>
        hlines before (inQuotes encode t) after (inQuotes_ne_nil _ t) (notMem_inQuotes t)⟩ }
  exact ⟨hencode, Node.exists_render_plug_mesh⟩

end Quoted

end SolidScript
