import Mathlib.Data.List.Basic
import Mathlib.Data.List.TakeDrop

/-!
# Words of a POSIX shell

How a shell reads the value of an assignment: quotes of two kinds, backslashes, and the
expansions `$NAME`, `${NAME}` and `${NAME:+word}`. The values of an assignment are
neither split into fields nor matched against file names. What is outside of this part of the
grammar, such as a command substitution or a tilde, is not read at all.
-/

namespace Shell

/-- Characters of a script. -/
abbrev Text := List Char

/-- The values of the variables that are set. -/
abbrev Env := Text → Option Text

/-- Where the reader stands. The modes behind a dollar sign know if it stood between double
quotes. -/
inductive Mode where
  | bare
  | single
  | double
  | escape
  | escapeDouble
  | dollar (quoted : Bool)
  | name (quoted : Bool) (text : Text)
  | braced (quoted : Bool) (text : Text)
  | colon (text : Text)
  deriving DecidableEq

/-- Where the reader of a word stands. -/
structure State where
  mode : Mode := .bare
  /-- The value as far as it has been read. -/
  value : Text := []
  /-- The alternatives that are open, each with its variable and the value before it. -/
  pending : List (Text × Text) := []
  deriving DecidableEq

/-- What a character does: it is taken, it ends the word, or it is not understood. -/
inductive Step where
  | next (s : State)
  | stop
  | bad
  deriving DecidableEq

/-! ## Characters -/

/-- A name begins with a letter or an underscore. -/
def isNameStart (c : Char) : Bool := c.isAlpha || c = '_'

/-- A name goes on with letters, digits and underscores. -/
def isNameChar (c : Char) : Bool := c.isAlphanum || c = '_'

/-- The characters that end a word where they are not quoted. -/
def isMeta (c : Char) : Bool := c ∈ ['|', '&', ';', '<', '>', '(', ')', ' ', '\t', '\n']

/-! ## Reading -/

namespace State

variable (env : Env)

/-- More of the value. -/
def push (s : State) (text : Text) : State := { s with value := s.value ++ text }

/-- Another quotation. -/
def enter (s : State) (mode : Mode) : State := { s with mode := mode }

/-- The mode behind an expansion. -/
def resume (s : State) (quoted : Bool) : State := s.enter (if quoted then .double else .bare)

/-- The value of a variable is put in. -/
def expand (s : State) (quoted : Bool) (name : Text) : State :=
  (s.push ((env name).getD [])).resume quoted

/-- A character outside quotes. -/
def bareStep (s : State) (c : Char) : Step :=
  if c = '\'' then .next (s.enter .single)
  else if c = '"' then .next (s.enter .double)
  else if c = '\\' then .next (s.enter .escape)
  else if c = '$' then .next (s.enter (.dollar false))
  else if c = '`' ∨ c = '~' then .bad
  else
    match s.pending with
    | [] => if isMeta c then .stop else .next (s.push [c])
    | (name, before) :: pending =>
      if c = '}' then
        let value := if (env name).getD [] = [] then [] else s.value
        .next { s with value := before ++ value, pending := pending }
      else .next (s.push [c])

/-- A character between double quotes. -/
def doubleStep (s : State) (c : Char) : Step :=
  if c = '"' then .next (s.enter .bare)
  else if c = '\\' then .next (s.enter .escapeDouble)
  else if c = '$' then .next (s.enter (.dollar true))
  else if c = '`' then .bad
  else .next (s.push [c])

/-- A character of a word. -/
def step (s : State) (c : Char) : Step :=
  match s.mode with
  | .bare => s.bareStep env c
  | .single => if c = '\'' then .next (s.enter .bare) else .next (s.push [c])
  | .double => s.doubleStep c
  | .escape => .next ((if c = '\n' then s else s.push [c]).enter .bare)
  | .escapeDouble =>
    let text := if c = '\n' then [] else if c ∈ ['$', '`', '"', '\\'] then [c] else ['\\', c]
    .next ((s.push text).enter .double)
  | .dollar quoted =>
    if isNameStart c then .next (s.enter (.name quoted [c]))
    else if c = '{' then .next (s.enter (.braced quoted []))
    else .bad
  | .name quoted text =>
    if isNameChar c then .next (s.enter (.name quoted (text ++ [c])))
    else if quoted then (s.expand env quoted text).doubleStep c
    else (s.expand env quoted text).bareStep env c
  | .braced quoted text =>
    if isNameChar c then .next (s.enter (.braced quoted (text ++ [c])))
    else if c = '}' then .next (s.expand env quoted text)
    else if c = ':' ∧ quoted = false then .next (s.enter (.colon text))
    else .bad
  | .colon text =>
    if c = '+' then .next ⟨.bare, [], (text, s.value) :: s.pending⟩ else .bad

/-- The value at the end of the input. -/
def finish (s : State) : Option Text :=
  match s.mode, s.pending with
  | .bare, [] => some s.value
  | .name false text, [] => some (s.expand env false text).value
  | _, _ => none

end State

/-- The value of the word that is being read, and what follows it. -/
def read (env : Env) : State → Text → Option (Text × Text)
  | s, [] => (s.finish env).map fun value => (value, [])
  | s, c :: t =>
    match s.step env c with
    | .next s => read env s t
    | .stop => some (s.value, c :: t)
    | .bad => none

/-- `export NAME=word`, with the newline behind it. -/
def command (env : Env) (t : Text) : Option (Env × Text) :=
  if "export ".toList <+: t then
    match (t.drop 7).span isNameChar with
    | (name, '=' :: t) =>
      match read env {} t with
      | some (value, '\n' :: rest) => some (Function.update env name (some value), rest)
      | _ => none
    | _ => none
  else none

/-- A script of exports, of at most as many as it has characters. -/
def exports : ℕ → Env → Text → Option Env
  | _, env, [] => some env
  | 0, _, _ :: _ => none
  | n + 1, env, t => (command env t).bind fun p => exports n p.1 p.2

/-- What a script of exports leaves of an environment. -/
def run (env : Env) (script : Text) : Option Env := exports script.length env script

/-! ## Names and exports -/

variable {env : Env} {value t : Text} {pending : List (Text × Text)}

theorem read_next {s r : State} {c : Char} (h : s.step env c = .next r) :
    read env s (c :: t) = read env r t := by
  rw [read, h]

/-- What a variable may be called. -/
def IsName : Text → Prop
  | [] => False
  | c :: t => isNameStart c = true ∧ ∀ x ∈ t, isNameChar x = true

instance : DecidablePred IsName
  | [] => inferInstanceAs (Decidable False)
  | c :: t =>
    have : Decidable (∀ x ∈ t, isNameChar x = true) := List.decidableBAll _ t
    inferInstanceAs (Decidable (isNameStart c = true ∧ ∀ x ∈ t, isNameChar x = true))

theorem isNameChar_of_start {c : Char} (h : isNameStart c = true) : isNameChar c = true := by
  simp only [isNameStart, isNameChar, Char.isAlphanum, Bool.or_eq_true] at h ⊢
  exact h.imp_left .inl

theorem IsName.chars {name : Text} (h : IsName name) : ∀ c ∈ name, isNameChar c = true := by
  cases name with
  | nil => exact h.elim
  | cons c t => exact List.forall_mem_cons.mpr ⟨isNameChar_of_start h.1, h.2⟩

/-- A mode that takes up whatever a name is made of takes up the name. -/
theorem read_chars {mode : Text → Mode} {name text : Text}
    (hstep : ∀ text, ∀ c ∈ name, State.step env ⟨mode text, value, pending⟩ c =
      .next ⟨mode (text ++ [c]), value, pending⟩) :
    read env ⟨mode text, value, pending⟩ (name ++ t) =
      read env ⟨mode (text ++ name), value, pending⟩ t := by
  induction name generalizing text with
  | nil => rw [List.nil_append, List.append_nil]
  | cons c name ih =>
    rw [List.cons_append, read_next (hstep text c List.mem_cons_self),
      ih fun text c hc => hstep text c (List.mem_cons_of_mem _ hc), List.append_assoc]
    rfl

theorem read_name {quoted : Bool} {text name : Text} (h : ∀ c ∈ name, isNameChar c = true) :
    read env ⟨.name quoted text, value, pending⟩ (name ++ t) =
      read env ⟨.name quoted (text ++ name), value, pending⟩ t :=
  read_chars fun _ c hc => if_pos (h c hc)

theorem read_braced {quoted : Bool} {text name : Text} (h : ∀ c ∈ name, isNameChar c = true) :
    read env ⟨.braced quoted text, value, pending⟩ (name ++ t) =
      read env ⟨.braced quoted (text ++ name), value, pending⟩ t :=
  read_chars fun _ c hc => if_pos (h c hc)

/-- What is put behind a list of directories: the list that is there, if it is not empty. -/
def appended (env : Env) (name : Text) : Text :=
  if (env name).getD [] = [] then [] else ':' :: (env name).getD []

/-- **The usual way to put a directory in front of a list.** -/
theorem read_appended {name : Text} (h : IsName name) :
    read env ⟨.bare, value, []⟩
        ("$\x7b".toList ++ name ++ ":+:$".toList ++ name ++ '}' :: t) =
      read env ⟨.bare, value ++ appended env name, []⟩ t := by
  have halternative : read env ⟨.braced false name, value, []⟩
      (":+:$".toList ++ (name ++ '}' :: t)) =
        read env ⟨.dollar false, [':'], [(name, value)]⟩ (name ++ '}' :: t) := rfl
  have hname : read env ⟨.dollar false, [':'], [(name, value)]⟩ (name ++ '}' :: t) =
      read env ⟨.name false name, [':'], [(name, value)]⟩ ('}' :: t) := by
    cases name with
    | nil => exact h.elim
    | cons c u =>
      have hstep : State.step env ⟨.dollar false, [':'], [(c :: u, value)]⟩ c =
          .next ⟨.name false [c], [':'], [(c :: u, value)]⟩ := if_pos h.1
      rw [List.cons_append, read_next hstep, read_name h.2]
      rfl
  calc read env ⟨.bare, value, []⟩ ("$\x7b".toList ++ name ++ ":+:$".toList ++ name ++ '}' :: t)
      = read env ⟨.braced false [], value, []⟩ (name ++ (":+:$".toList ++ (name ++ '}' :: t))) := by
        simp only [List.append_assoc]
        rfl
    _ = read env ⟨.name false name, [':'], [(name, value)]⟩ ('}' :: t) := by
        rw [read_braced h.chars, List.nil_append, halternative, hname]
    _ = read env ⟨.bare, value ++ appended env name, []⟩ t := by
        rw [appended]
        exact read_next rfl

example : read (fun _ => some ['x']) {} "a\"$b'\"$\x7bb:+:$b\x7d c".toList =
    some ("ax':x".toList, " c".toList) := by decide

theorem command_export {name word rest : Text} (h : IsName name)
    (hread : read env {} word = some (value, '\n' :: rest)) :
    command env ("export ".toList ++ name ++ '=' :: word) =
      some (Function.update env name (some value), rest) := by
  have hpre : "export ".toList <+: "export ".toList ++ name ++ '=' :: word := by
    rw [List.append_assoc]
    exact List.prefix_append _ _
  have hdrop : ("export ".toList ++ name ++ '=' :: word).drop 7 = name ++ '=' :: word := by
    rw [List.append_assoc]
    rfl
  have hspan : (name ++ '=' :: word).span isNameChar = (name, '=' :: word) := by
    rw [List.span_eq_takeWhile_dropWhile, List.takeWhile_append_of_pos h.chars,
      List.dropWhile_append_of_pos h.chars]
    simp [isNameChar]
  rw [command, if_pos hpre, hdrop, hspan]
  simp only [hread]

theorem exports_nil (n : ℕ) : exports n env [] = some env := by
  cases n <;> rfl

theorem exports_command {env' : Env} {rest : Text} (n : ℕ) (h : command env t = some (env', rest)) :
    exports (n + 1) env t = exports n env' rest := by
  cases t with
  | nil => cases h
  | cons c t => rw [exports, h, Option.bind_some]; exact nofun

end Shell
