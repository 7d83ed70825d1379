import TokioCronet.Lib.Offsets

/-!
# Braces of a GN text

The two scanners behind every deletion of a block in `xtask`. They go over the bytes and
return offsets; the braces, quotes, backslashes, hash signs and newlines that they look at
are ASCII, which no byte of another character is. What they find is a split of the text.
-/

namespace TokioCronet.GnBlocks

open Offsets

/-- Characters of a text. -/
abbrev Text := List Char

/-- Where a scanner stands: `in_string`, `escaped` and `in_comment` in one. -/
inductive Mode where
  | code
  | string
  | escaped
  | comment
  deriving DecidableEq

/-! ## The program -/

/-- What the flags are behind a character. -/
def Mode.next : Mode → Char → Mode
  | .comment, c => if c = '\n' then .code else .comment
  | .escaped, _ => .string
  | .string, c => if c = '\\' then .escaped else if c = '"' then .code else .string
  | .code, c => if c = '#' then .comment else if c = '"' then .string else .code

/-- The rounds of `next_gn_open_brace`. -/
def nextOpen (start : Nat) : Nat → Mode → Text → Option Nat
  | _, _, [] => none
  | index, m, c :: t =>
    if index < start then nextOpen start (index + c.utf8Size) m t
    else if m = .code ∧ c = '{' then some index
    else nextOpen start (index + c.utf8Size) (m.next c) t

/-- `next_gn_open_brace` -/
def nextGnOpenBrace (source : Text) (start : Nat) : Option Nat := nextOpen start 0 .code source

/-- The rounds of `matching_gn_brace`. -/
def matchingBrace (opening : Nat) : Nat → Nat → Mode → Text → Option Nat
  | _, _, _, [] => none
  | index, depth, m, c :: t =>
    if index < opening then matchingBrace opening (index + c.utf8Size) depth m t
    else if m = .code ∧ c = '{' then
      matchingBrace opening (index + c.utf8Size) (depth + 1) (m.next c) t
    else if m = .code ∧ c = '}' then
      -- `checked_sub`
      if depth = 0 then none
      else if depth - 1 = 0 then some index
      else matchingBrace opening (index + c.utf8Size) (depth - 1) (m.next c) t
    else matchingBrace opening (index + c.utf8Size) depth (m.next c) t

/-- `matching_gn_brace` -/
def matchingGnBrace (source : Text) (opening : Nat) : Option Nat :=
  matchingBrace opening 0 0 .code source

/-- `u8::is_ascii_whitespace` -/
def isAsciiWhitespace (c : Char) : Bool :=
  c = ' ' || c = '\t' || c = '\n' || c = '\x0c' || c = '\r'

/-- How an operation fails: with an `Err`, or not at all as Rust means it. -/
inductive Fault where
  | err (message : String)
  | panic
  deriving DecidableEq

/-- The loop over the white space after a block. -/
def skipWhitespace (source : Text) (stop : Nat) : Nat :=
  match splitAt stop source with
  | some (_, rest) => stop + len (rest.takeWhile isAsciiWhitespace)
  | none => stop

/-- `String::replace_range` with nothing. -/
def removeRange (source : Text) (start stop : Nat) : Except Fault Text :=
  match splitAt start source, splitAt stop source with
  | some (before, _), some (_, after) =>
    if start ≤ stop then .ok (before ++ after) else .error .panic
  | _, _ => .error .panic

/-! ## Splits -/

/-- The parts before and after the first opening brace. -/
def splitOpen : Mode → Text → Option (Text × Text)
  | _, [] => none
  | m, c :: t =>
    if m = .code ∧ c = '{' then some ([], t)
    else (splitOpen (m.next c) t).map fun p => (c :: p.1, p.2)

/-- The parts before and after the brace that closes as many as are open. -/
def splitClose : Nat → Mode → Text → Option (Text × Text)
  | _, _, [] => none
  | depth, m, c :: t =>
    if m = .code ∧ c = '{' then
      (splitClose (depth + 1) (m.next c) t).map fun p => (c :: p.1, p.2)
    else if m = .code ∧ c = '}' then
      if depth = 0 then none
      else if depth - 1 = 0 then some ([], t)
      else (splitClose (depth - 1) (m.next c) t).map fun p => (c :: p.1, p.2)
    else (splitClose depth (m.next c) t).map fun p => (c :: p.1, p.2)

variable {p t : Text} {m : Mode} {start index depth : Nat}

theorem nextOpen_skip (h : index + len p ≤ start) :
    nextOpen start index m (p ++ t) = nextOpen start (index + len p) m t := by
  induction p generalizing index with
  | nil => rfl
  | cons c p ih =>
    have hpos := c.utf8Size_pos
    rw [len_cons] at h
    rw [List.cons_append, nextOpen, if_pos (by omega), ih (by omega), len_cons, Nat.add_assoc]

theorem nextOpen_eq (h : start ≤ index) :
    nextOpen start index m t = (splitOpen m t).map fun p => index + len p.1 := by
  induction t generalizing index m with
  | nil => rfl
  | cons c t ih =>
    rw [nextOpen, if_neg (Nat.not_lt.mpr h), splitOpen]
    split_ifs with hopen
    · rfl
    · rw [ih (Nat.le_add_right_of_le h), Option.map_map]
      refine congrArg (Option.map · _) (funext fun p => ?_)
      simp [Nat.add_assoc]

/-- **The next opening brace**, seen as a split. -/
theorem nextGnOpenBrace_eq (p t : Text) :
    nextGnOpenBrace (p ++ t) (len p) = (splitOpen .code t).map fun q => len p + len q.1 := by
  rw [nextGnOpenBrace, nextOpen_skip (by omega), Nat.zero_add, nextOpen_eq (Nat.le_refl _)]

theorem matchingBrace_skip (h : index + len p ≤ start) :
    matchingBrace start index depth m (p ++ t) =
      matchingBrace start (index + len p) depth m t := by
  induction p generalizing index with
  | nil => rfl
  | cons c p ih =>
    have hpos := c.utf8Size_pos
    rw [len_cons] at h
    rw [List.cons_append, matchingBrace, if_pos (by omega), ih (by omega), len_cons, Nat.add_assoc]

theorem matchingBrace_eq (h : start ≤ index) :
    matchingBrace start index depth m t =
      (splitClose depth m t).map fun p => index + len p.1 := by
  induction t generalizing index depth m with
  | nil => rfl
  | cons c t ih =>
    have hmap : ∀ {x : Option (Text × Text)},
        (x.map fun p => index + c.utf8Size + len p.1) =
          (x.map fun p => (c :: p.1, p.2)).map fun p => index + len p.1 := by
      intro x
      rw [Option.map_map]
      refine congrArg (Option.map · _) (funext fun p => ?_)
      simp [Nat.add_assoc]
    have hle : start ≤ index + c.utf8Size := Nat.le_add_right_of_le h
    rw [matchingBrace, if_neg (Nat.not_lt.mpr h), splitClose]
    split_ifs with hopen hclose hdepth hlast
    · rw [ih hle, hmap]
    · rfl
    · rfl
    · rw [ih hle, hmap]
    · rw [ih hle, hmap]

/-- **The brace that matches**, seen as a split of what follows the opening one. -/
theorem matchingGnBrace_eq (p t : Text) :
    matchingGnBrace (p ++ '{' :: t) (len p) =
      (splitClose 1 .code t).map fun q => len p + 1 + len q.1 := by
  rw [matchingGnBrace, matchingBrace_skip (by omega), Nat.zero_add, matchingBrace,
    if_neg (Nat.lt_irrefl _), if_pos ⟨rfl, rfl⟩]
  exact matchingBrace_eq (Nat.le_add_right _ _)

theorem splitOpen_append {b a : Text} (h : splitOpen m t = some (b, a)) : t = b ++ '{' :: a := by
  induction t generalizing m b with
  | nil => cases h
  | cons c t ih =>
    rw [splitOpen] at h
    split_ifs at h with hopen
    · cases h
      rw [hopen.2]
      rfl
    · obtain ⟨⟨b', a'⟩, hp, heq⟩ := Option.map_eq_some_iff.mp h
      cases heq
      rw [ih hp]
      rfl

theorem splitClose_append {b a : Text} (h : splitClose depth m t = some (b, a)) :
    t = b ++ '}' :: a := by
  induction t generalizing depth m b with
  | nil => cases h
  | cons c t ih =>
    have hmap : ∀ {x : Option (Text × Text)}, (∀ {b}, x = some (b, a) → t = b ++ '}' :: a) →
        (x.map fun p => (c :: p.1, p.2)) = some (b, a) → c :: t = b ++ '}' :: a := by
      intro x hx hsome
      obtain ⟨⟨b', a'⟩, hp, heq⟩ := Option.map_eq_some_iff.mp hsome
      cases heq
      rw [hx hp]
      rfl
    rw [splitClose] at h
    split_ifs at h with hopen hclose hdepth hlast
    · exact hmap ih h
    · cases h
      rw [hclose.2]
      rfl
    · exact hmap ih h
    · exact hmap ih h

/-- What is left behind a block. -/
theorem skipWhitespace_eq (p t : Text) :
    skipWhitespace (p ++ t) (len p) = len (p ++ t.takeWhile isAsciiWhitespace) := by
  rw [skipWhitespace, splitAt_len, len_append]

/-- What is left behind the brace that closes a block. -/
theorem skipWhitespace_brace (p t : Text) :
    skipWhitespace (p ++ '}' :: t) (len p + 1) =
      len (p ++ '}' :: t.takeWhile isAsciiWhitespace) := by
  have hbrace : len (p ++ ['}']) = len p + 1 := by
    rw [len_append]
    rfl
  have hskip := skipWhitespace_eq (p ++ ['}']) t
  rw [hbrace] at hskip
  simpa using hskip

/-- A range between two parts of a text. -/
theorem removeRange_eq (p s t : Text) :
    removeRange (p ++ s ++ t) (len p) (len (p ++ s)) = .ok (p ++ t) := by
  have hbefore := splitAt_len p (s ++ t)
  rw [← List.append_assoc] at hbefore
  rw [removeRange, hbefore, splitAt_len, len_append]
  exact if_pos (Nat.le_add_right _ _)

/-! ## Blocks -/

/-- What is left behind the next block, whatever stands before it. -/
def nextBlock (after : Text) : Option Text :=
  (splitOpen .code after).bind fun p =>
    (splitClose 1 .code p.2).map fun q => q.2.dropWhile isAsciiWhitespace

theorem nextBlock_eq_some {a rest : Text} (h : nextBlock a = some rest) :
    ∃ b body after, splitOpen .code a = some (b, body ++ '}' :: after) ∧
      splitClose 1 .code (body ++ '}' :: after) = some (body, after) ∧
      rest = after.dropWhile isAsciiWhitespace := by
  obtain ⟨⟨b, inside⟩, hopen, hmap⟩ := Option.bind_eq_some_iff.mp h
  obtain ⟨⟨body, after⟩, hclose, rfl⟩ := Option.map_eq_some_iff.mp hmap
  dsimp only at hclose
  obtain rfl := splitClose_append hclose
  exact ⟨b, body, after, hopen, hclose, rfl⟩

theorem nextBlock_splits {a rest : Text} (h : nextBlock a = some rest) :
    ∃ s, s ≠ [] ∧ a = s ++ rest := by
  obtain ⟨b, body, after, hopen, -, rfl⟩ := nextBlock_eq_some h
  have hws := List.takeWhile_append_dropWhile (p := isAsciiWhitespace) (l := after)
  refine ⟨b ++ '{' :: (body ++ '}' :: after.takeWhile isAsciiWhitespace), by simp, ?_⟩
  rw [splitOpen_append hopen, List.append_assoc, List.cons_append, List.append_assoc,
    List.cons_append, hws]

/-- The offsets of a block, from any offset before it on. -/
theorem nextBlock_offsets (p : Text) {a rest : Text} (h : nextBlock a = some rest) :
    ∃ opening closing mid, nextGnOpenBrace (p ++ a) (len p) = some opening ∧
      matchingGnBrace (p ++ a) opening = some closing ∧ a = mid ++ rest ∧
      skipWhitespace (p ++ a) (closing + 1) = len (p ++ mid) := by
  obtain ⟨b, body, after, hopen, hclose, rfl⟩ := nextBlock_eq_some h
  obtain rfl := splitOpen_append hopen
  have hws := List.takeWhile_append_dropWhile (p := isAsciiWhitespace) (l := after)
  refine ⟨len (p ++ b), len (p ++ b) + 1 + len body,
    b ++ '{' :: (body ++ '}' :: after.takeWhile isAsciiWhitespace), ?_, ?_, ?_, ?_⟩
  · rw [nextGnOpenBrace_eq, hopen, len_append]
    rfl
  · rw [← List.append_assoc, matchingGnBrace_eq, hclose]
    rfl
  · rw [List.append_assoc, List.cons_append, List.append_assoc, List.cons_append, hws]
  · have hskip := skipWhitespace_brace (p ++ (b ++ '{' :: body)) after
    have hopen1 : Char.utf8Size '{' = 1 := rfl
    have hlen : len (p ++ (b ++ '{' :: body)) = len (p ++ b) + 1 + len body := by
      simp only [len_append, len_cons, hopen1]
      omega
    rw [hlen] at hskip
    simpa using hskip

theorem nextBlock_offsets_none (p : Text) {a : Text} (h : nextBlock a = none) :
    nextGnOpenBrace (p ++ a) (len p) = none ∨
      ∃ opening, nextGnOpenBrace (p ++ a) (len p) = some opening ∧
        matchingGnBrace (p ++ a) opening = none := by
  rw [nextGnOpenBrace_eq]
  cases hopen : splitOpen .code a with
  | none => exact .inl rfl
  | some q =>
    obtain ⟨b, inside⟩ := q
    obtain rfl := splitOpen_append hopen
    rw [nextBlock, hopen] at h
    refine .inr ⟨len (p ++ b), by rw [len_append]; rfl, ?_⟩
    rw [← List.append_assoc, matchingGnBrace_eq, Option.map_eq_none_iff]
    exact Option.map_eq_none_iff.mp h

end TokioCronet.GnBlocks
