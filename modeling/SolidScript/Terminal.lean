import SolidScript.Text.Utf8

/-!
# Terminal

What a terminal shows of a text, and what it takes for commands. Commands start with an escape
character; other control characters are commands by themselves, blanks and line ends apart.
`plain t` is `t` without its commands: it shows every character that is left (`isShown_of_mem`),
keeps their order (`plain_sublist`), and a text without commands is left as it is
(`plain_of_isShown`).
-/

namespace SolidScript.Terminal

/-- Where in a command a terminal is. -/
inductive State where
  /-- In no command. -/
  | ground
  /-- Behind an escape character. -/
  | escape
  /-- In an escape command of several characters. -/
  | escapeTail
  /-- In a control sequence, which `[` starts. -/
  | sequence
  /-- Behind the `P` of a device command. -/
  | deviceEntry
  /-- In the numbers of a device command. -/
  | deviceParams
  /-- Behind the numbers of a device command. -/
  | deviceTail
  /-- In a string for the terminal. -/
  | string
  /-- In a command for the system around the terminal, such as the title of a window. -/
  | title
deriving DecidableEq, Repr

/-- A blank or a line end. -/
def isBlank (c : Char) : Bool := [' ', '\t', '\n', '\x0c', '\r'].contains c

/-- A character with a code point between two others, ends included. -/
def isBetween (first last : Nat) (c : Char) : Bool := first ≤ c.toNat && c.toNat ≤ last

/-- A terminal in no command shows the character. -/
def isShown (c : Char) : Bool := isBetween 0x20 0x7E c || 0x80 ≤ c.toNat || isBlank c

namespace State

/-- Behind the escape character that starts a command. -/
def afterEscape (c : Char) : State :=
  if isBetween 0x20 0x2F c then .escapeTail
  else if c = '[' then .sequence
  else if c = ']' then .title
  else if c = 'P' then .deviceEntry
  else if c = 'X' || c = '^' || c = '_' then .string
  else if isBetween 0x30 0x7E c then .ground
  else .escape

/-- The byte that ends a string stands somewhere in the spelling of the character. -/
def endsString (c : Char) : Bool := (Utf8.encodeChar c).contains 0x9C

/-- Where a character leads. An escape character starts a new command anywhere, and two others end
every command. -/
def after (state : State) (c : Char) : State :=
  if c = '\x18' || c = '\x1a' then .ground
  else if c = '\x1b' then .escape
  else match state with
    | .ground => .ground
    | .escape => afterEscape c
    | .escapeTail => if isBetween 0x30 0x7E c then .ground else .escapeTail
    | .sequence => if isBetween 0x40 0x7E c then .ground else .sequence
    | .deviceEntry =>
      if isBetween 0x20 0x2F c then .deviceTail
      else if isBetween 0x30 0x3F c then .deviceParams
      else if isBetween 0x40 0x7E c then .string
      else .deviceEntry
    | .deviceParams =>
      if isBetween 0x20 0x2F c then .deviceTail
      else if isBetween 0x3C 0x7E c then .string
      else .deviceParams
    | .deviceTail => if isBetween 0x30 0x7E c then .string else .deviceTail
    | .string => if endsString c then .ground else .string
    | .title => if c = '\x07' then .ground else .title

/-- The state lets a character through that is shown. In a short command these are the line ends
and the tab, and they interrupt it. -/
def lets (state : State) (c : Char) : Bool :=
  match state with
  | .ground => true
  | .escape | .escapeTail | .sequence => c ≠ ' ' && isBlank c
  | _ => false

end State

/-- What is shown of a text. Behind a shown character (`shows`) all others are shown up to the next
that cannot be; there the command goes on that was interrupted, if any. -/
def plainFrom (shows : Bool) (state : State) : Text → Text
  | [] => []
  | c :: r =>
    if isShown c && (shows || state.lets c) then
      c :: plainFrom true (if 0x80 ≤ c.toNat then .ground else state) r
    else plainFrom false (state.after c) r

/-- A text without the commands in it. -/
def plain (t : Text) : Text := plainFrom false .ground t

theorem isShown_of_mem_plainFrom {c : Char} {shows : Bool} {state : State} {t : Text}
    (h : c ∈ plainFrom shows state t) : isShown c = true := by
  induction t generalizing shows state with
  | nil => simp [plainFrom] at h
  | cons a r ih =>
    by_cases ha : (isShown a && (shows || state.lets a)) = true
    · rw [plainFrom, if_pos ha] at h
      rcases List.mem_cons.1 h with rfl | h
      · exact (Bool.and_eq_true _ _ ▸ ha).1
      · exact ih h
    · rw [plainFrom, if_neg ha] at h
      exact ih h

/-- What is left is shown. -/
theorem isShown_of_mem {c : Char} {t : Text} (h : c ∈ plain t) : isShown c = true :=
  isShown_of_mem_plainFrom h

theorem plainFrom_sublist (shows : Bool) (state : State) (t : Text) :
    (plainFrom shows state t).Sublist t := by
  induction t generalizing shows state with
  | nil => simp [plainFrom]
  | cons a r ih =>
    rw [plainFrom]
    split
    · exact (ih _ _).cons_cons a
    · exact (ih _ _).cons a

/-- Nothing is added or moved. -/
theorem plain_sublist (t : Text) : (plain t).Sublist t := plainFrom_sublist false .ground t

/-- A text without commands is shown as it is. -/
theorem plain_of_isShown {t : Text} (h : ∀ c ∈ t, isShown c = true) : plain t = t := by
  suffices ∀ shows, plainFrom shows .ground t = t from this false
  intro shows
  induction t generalizing shows with
  | nil => rfl
  | cons a r ih =>
    simp only [List.mem_cons, forall_eq_or_imp] at h
    simp [plainFrom, h.1, State.lets, ih h.2]

/-- No command is left. -/
theorem plain_plain (t : Text) : plain (plain t) = plain t :=
  plain_of_isShown fun _ h => isShown_of_mem h

/-- A color is a command, and so is a title. -/
example : plain "\x1b[31mred\x1b[0m, \x1b]0;name\x07title".toList = "red, title".toList := by
  decide +kernel

/-- A line end within a command is shown, and with it the rest of the command. -/
example : plain "\x1b[3\n1mx\x1b(Bz".toList = "\n1mxz".toList := by decide +kernel

end SolidScript.Terminal
