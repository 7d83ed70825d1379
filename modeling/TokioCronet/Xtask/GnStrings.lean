import Mathlib.Data.List.TakeDrop

/-!
# Strings in GN arguments

`xtask` writes paths and lists of names as assignments for `gn gen`. In a GN string a
backslash escapes a quote, a dollar sign or a backslash, and a dollar sign that is not
escaped starts an expansion. `escape_gn_string` escapes two of the three.
-/

namespace TokioCronet.Gn

/-- Characters of an argument. -/
abbrev Text := List Char

/-! ## The program -/

/-- `str::replace` of one character. -/
def replace (c : Char) (into s : Text) : Text := s.flatMap fun x => if x = c then into else [x]

/-- `escape_gn_string` -/
def escapeGnString (value : Text) : Text :=
  replace '"' ['\\', '"'] (replace '\\' ['\\', '\\'] value)

/-- An escaped value between quotes. -/
def quoted (value : Text) : Text := '"' :: escapeGnString value ++ ['"']

/-- The path is UTF-8, which `to_string_lossy` leaves as it is. -/
def gnStringPath (name path : Text) : Text := name ++ '=' :: quoted (replace '\\' ['/'] path)

/-- `gn_string_list` -/
def gnStringList (name : Text) (values : List Text) : Text :=
  name ++ '=' :: '[' :: [','].intercalate (values.map quoted) ++ [']']

/-! ## What GN reads -/

/-- A part of a string literal. -/
inductive Piece where
  | char (c : Char)
  /-- Here starts what a scope has to expand. -/
  | expansion
  deriving DecidableEq

/-- What a value of GN is made of. -/
inductive Token where
  | string (pieces : List Piece)
  | openList
  | closeList
  | comma
  deriving DecidableEq

/-- Where the tokenizer stands. -/
inductive Mode where
  | outside
  | string (pieces : List Piece)
  /-- After a backslash in a string. -/
  | escape (pieces : List Piece)

/-- The tokens of a text, from inside or outside a string. -/
def tokens : Mode → Text → Option (List Token)
  | .outside, [] => some []
  | .outside, '"' :: rest => tokens (.string []) rest
  | .outside, '[' :: rest => (tokens .outside rest).map (.openList :: ·)
  | .outside, ']' :: rest => (tokens .outside rest).map (.closeList :: ·)
  | .outside, ',' :: rest => (tokens .outside rest).map (.comma :: ·)
  | .string pieces, '"' :: rest => (tokens .outside rest).map (.string pieces :: ·)
  | .string pieces, '\\' :: rest => tokens (.escape pieces) rest
  | .string pieces, '$' :: rest => tokens (.string (pieces ++ [.expansion])) rest
  | .string pieces, c :: rest => tokens (.string (pieces ++ [.char c])) rest
  | .escape pieces, c :: rest =>
    if c = '"' ∨ c = '$' ∨ c = '\\' then tokens (.string (pieces ++ [.char c])) rest
    else tokens (.string (pieces ++ [.char '\\', .char c])) rest
  | _, _ => none

/-- A value of GN. -/
inductive Value where
  | string (pieces : List Piece)
  | list (items : List (List Piece))
  deriving DecidableEq

/-- The items of a list, of which the last may have a comma too. -/
def parseItems : List Token → Option (List (List Piece))
  | [.closeList] => some []
  | [.string pieces, .closeList] => some [pieces]
  | .string pieces :: .comma :: rest => (parseItems rest).map (pieces :: ·)
  | _ => none

/-- A value of GN. -/
def parseValue : List Token → Option Value
  | [.string pieces] => some (.string pieces)
  | .openList :: rest => (parseItems rest).map .list
  | _ => none

/-- Characters of an identifier. -/
def isIdentifierChar (c : Char) : Bool := c.isAlphanum || c = '_'

/-- The name and the value of an assignment. -/
def readAssignment (s : Text) : Option (Text × Value) :=
  match s.span isIdentifierChar with
  | (name, '=' :: rest) => ((tokens .outside rest).bind parseValue).map fun v => (name, v)
  | _ => none

/-- The names of build arguments. -/
abbrev Identifier := { name : Text // name.all isIdentifierChar }

/-! ## Reading back -/

/-- What becomes of a character: a dollar sign was not escaped. -/
def piece (c : Char) : Piece := if c = '$' then .expansion else .char c

theorem escapeGnString_cons (c : Char) (s : Text) : escapeGnString (c :: s) =
    (if c = '\\' then ['\\', '\\'] else if c = '"' then ['\\', '"'] else [c]) ++
      escapeGnString s := by
  unfold escapeGnString
  rw [replace, replace, List.flatMap_cons, List.flatMap_append]
  split_ifs with hslash hquote
  · rfl
  · subst hquote
    rfl
  · rw [List.flatMap_singleton, if_neg hquote]
    rfl

theorem tokens_plain {c : Char} (hquote : c ≠ '"') (hslash : c ≠ '\\') (hdollar : c ≠ '$')
    {pieces : List Piece} {rest : Text} : tokens (.string pieces) (c :: rest) =
      tokens (.string (pieces ++ [.char c])) rest := by
  rw [tokens] <;> assumption

/-- A quoted string is one token. -/
theorem tokens_escape (pieces : List Piece) (s rest : Text) :
    tokens (.string pieces) (escapeGnString s ++ '"' :: rest) =
      (tokens .outside rest).map (.string (pieces ++ s.map piece) :: ·) := by
  induction s generalizing pieces with
  | nil =>
    rw [List.map_nil, List.append_nil]
    rfl
  | cons c s ih =>
    have hpieces : pieces ++ (c :: s).map piece = (pieces ++ [piece c]) ++ s.map piece := by
      rw [List.map_cons, List.append_assoc, List.singleton_append]
    rw [escapeGnString_cons, hpieces, ← ih, List.append_assoc]
    split_ifs with hslash hquote
    · subst hslash
      rfl
    · subst hquote
      rfl
    · -- what is not escaped is a dollar sign or itself
      by_cases hdollar : c = '$'
      · subst hdollar
        rfl
      · rw [piece, if_neg hdollar]
        exact tokens_plain hquote hslash hdollar

theorem tokens_quoted (s rest : Text) : tokens .outside (quoted s ++ rest) =
    (tokens .outside rest).map (.string (s.map piece) :: ·) := by
  have hbody := tokens_escape [] s rest
  rw [quoted, List.cons_append, List.cons_append, List.append_assoc]
  exact hbody

/-- The name is read up to the equals sign. -/
theorem readAssignment_name (name : Identifier) (rest : Text) :
    readAssignment (name.1 ++ '=' :: rest) =
      ((tokens .outside rest).bind parseValue).map fun v => (name.1, v) := by
  have hname : ∀ c ∈ name.1, isIdentifierChar c := List.all_eq_true.mp name.2
  have hspan : (name.1 ++ '=' :: rest).span isIdentifierChar = (name.1, '=' :: rest) := by
    rw [List.span_eq_takeWhile_dropWhile, List.takeWhile_append_of_pos hname,
      List.dropWhile_append_of_pos hname, List.takeWhile_cons_of_neg (by decide),
      List.dropWhile_cons_of_neg (by decide), List.append_nil]
  rw [readAssignment, hspan]
  rfl

theorem read_gnStringPath (name : Identifier) (path : Text) :
    readAssignment (gnStringPath name.1 path) =
      some (name.1, .string ((replace '\\' ['/'] path).map piece)) := by
  rw [gnStringPath, readAssignment_name, ← List.append_nil (quoted _), tokens_quoted]
  rfl

/-- The items and the end of a list. -/
theorem tokens_items (values : List Text) :
    (tokens .outside ([','].intercalate (values.map quoted) ++ [']'])).bind parseItems =
      some (values.map fun v => v.map piece) := by
  induction values with
  | nil => rfl
  | cons v values ih =>
    cases values with
    | nil =>
      rw [List.map_singleton, List.intercalate_singleton, tokens_quoted]
      rfl
    | cons w values =>
      rw [List.map_cons, List.intercalate_cons_of_ne_nil (by simp), List.append_assoc,
        List.append_assoc, tokens_quoted]
      cases htokens : tokens .outside ([','].intercalate ((w :: values).map quoted) ++ [']']) with
      | none =>
        rw [htokens] at ih
        cases ih
      | some ts =>
        rw [htokens] at ih
        have hcomma : tokens .outside
            ([','] ++ ([','].intercalate ((w :: values).map quoted) ++ [']'])) =
              some (.comma :: ts) := congrArg (Option.map (Token.comma :: ·)) htokens
        rw [hcomma]
        exact congrArg (Option.map (v.map piece :: ·)) ih

theorem read_gnStringList (name : Identifier) (values : List Text) :
    readAssignment (gnStringList name.1 values) =
      some (name.1, .list (values.map fun v => v.map piece)) := by
  rw [gnStringList, List.append_assoc, List.cons_append, List.cons_append, readAssignment_name]
  have hitems := tokens_items values
  cases htokens : tokens .outside ([','].intercalate (values.map quoted) ++ [']']) with
  | none =>
    rw [htokens] at hitems
    cases hitems
  | some ts =>
    rw [htokens] at hitems
    have hopen : tokens .outside ('[' :: ([','].intercalate (values.map quoted) ++ [']'])) =
        some (.openList :: ts) := congrArg (Option.map (Token.openList :: ·)) htokens
    rw [hopen]
    exact congrArg (Option.map (name.1, ·)) (congrArg (Option.map Value.list) hitems)

/-- What was written is what is read where nothing is expanded. -/
theorem map_piece_eq {s : Text} : s.map piece = s.map .char ↔ '$' ∉ s := by
  rw [List.map_inj_left]
  constructor
  · intro h hmem
    have hpiece := h '$' hmem
    rw [piece, if_pos rfl] at hpiece
    cases hpiece
  · intro h c hc
    rw [piece, if_neg]
    rintro rfl
    exact h hc

/-- What is read back is the original: its value is made of plain characters. -/
def ReadsPath (name : Identifier) (path : Text) : Prop :=
  readAssignment (gnStringPath name.1 path) =
    some (name.1, .string ((replace '\\' ['/'] path).map .char))

/-- The list is read back as it was written. -/
def ReadsList (name : Identifier) (values : List Text) : Prop :=
  readAssignment (gnStringList name.1 values) =
    some (name.1, .list (values.map fun v => v.map .char))

theorem dollar_mem_replace {path : Text} : '$' ∈ replace '\\' ['/'] path ↔ '$' ∈ path := by
  rw [replace, List.mem_flatMap]
  constructor
  · rintro ⟨c, hc, hmem⟩
    split_ifs at hmem with hslash
    · cases List.mem_singleton.mp hmem
    · rw [List.mem_singleton.mp hmem]
      exact hc
  · intro h
    exact ⟨'$', h, List.mem_singleton_self _⟩

/-- **A path or a list is read back exactly when it has no dollar sign.** -/
theorem read_back_iff (name : Identifier) :
    (∀ path, ReadsPath name path ↔ '$' ∉ path) ∧
      ∀ values, ReadsList name values ↔ ∀ v ∈ values, '$' ∉ v := by
  refine ⟨fun path => ?_, fun values => ?_⟩
  · rw [ReadsPath, read_gnStringPath, ← dollar_mem_replace, ← map_piece_eq]
    simp
  · rw [ReadsList, read_gnStringList]
    simp only [← map_piece_eq, Option.some.injEq, Prod.mk.injEq, true_and, Value.list.injEq,
      List.map_inj_left]

/-- A directory with a dollar sign. -/
theorem dollar_expanded :
    let name : Identifier := ⟨['l', 'i', 'b'], by decide⟩
    let path := ['/', 'a', '$', 'b']
    readAssignment (gnStringPath name.1 path) =
        some (name.1, .string [.char '/', .char 'a', .expansion, .char 'b']) ∧
      ¬ ReadsPath name path ∧ ¬ ReadsList name [path] := by
  refine ⟨by decide, ?_, ?_⟩
  · unfold ReadsPath
    decide
  · unfold ReadsList
    decide

end TokioCronet.Gn
