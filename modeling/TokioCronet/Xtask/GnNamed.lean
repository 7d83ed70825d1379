import TokioCronet.Lib.Sweep
import TokioCronet.Xtask.GnBraces

/-!
# Blocks of a name

`remove_named_gn_blocks` looks for the characters of a call, wherever they are, and takes
away everything from the start of their line to the end of the next block. That is the
block of the call where the characters are a call, and the first thing on its line.
-/

namespace TokioCronet.GnBlocks

open Offsets
open Sweep (Sweeper)

/-! ## The program -/

/-- The characters that `remove_named_gn_blocks` looks for. -/
def needleOf (kind name : Text) : Text := kind ++ '(' :: '"' :: name ++ ['"', ')']

/-- One round of `remove_named_gn_blocks`. -/
def removeNamedBlock (needle source : Text) (callStart : Nat) : Except Fault Text :=
  let target := String.ofList needle
  match splitAt callStart source with
  | none => .error .panic
  | some (before, _) =>
    let lineStart := (rfind '\n' before).elim 0 (· + 1)
    match nextGnOpenBrace source (callStart + len needle) with
    | none => .error (.err s!"malformed upstream GN target {target}")
    | some opening =>
      match matchingGnBrace source opening with
      | none => .error (.err s!"unclosed upstream GN target {target}")
      | some closing => removeRange source lineStart (skipWhitespace source (closing + 1))

/-- Every round leaves a shorter text. -/
def removeNamedRounds (needle : Text) : Nat → Nat → Text → Except Fault Text
  | 0, _, source => .ok source
  | n + 1, removed, source =>
    match find needle source with
    | some callStart =>
      match removeNamedBlock needle source callStart with
      | .ok rest => removeNamedRounds needle n (removed + 1) rest
      | .error fault => .error fault
    | none =>
      if removed = 0 then
        let target := String.ofList needle
        .error (.err s!"upstream Cronet BUILD.gn no longer defines {target}")
      else .ok source

/-- `remove_named_gn_blocks` -/
def removeNamedGnBlocks (source kind name : Text) : Except Fault Text :=
  removeNamedRounds (needleOf kind name) (source.length + 1) 0 source

/-! ## Calls and their blocks -/

/-- Characters of an identifier. -/
def isIdentifierChar (c : Char) : Bool := c.isAlphanum || c = '_'

/-- A kind of targets, and the name of one: no part of it would end its string or its call. -/
structure Target where
  kind : Text
  name : Text
  kind_identifier : ∀ c ∈ kind, isIdentifierChar c
  name_plain : ∀ c ∈ name, c ≠ '"' ∧ c ≠ '\\' ∧ c ≠ ')' ∧ c ≠ '\n'

/-- The characters of the calls to be removed. -/
def Target.needle (g : Target) : Text := needleOf g.kind g.name

/-- What stands before a call: no string or comment is open, and no identifier. -/
def IsCall (before : Text) : Prop :=
  before.foldl Mode.next .code = .code ∧ before.foldl (fun _ c => isIdentifierChar c) false = false

instance (before : Text) : Decidable (IsCall before) := inferInstanceAs (Decidable (_ ∧ _))

/-- The parts before and after the first call token. -/
def splitCall (needle : Text) : Mode → Bool → Text → Option (Text × Text)
  | _, _, [] => none
  | m, word, c :: t =>
    if (m = .code ∧ word = false) ∧ needle <+: c :: t then some ([], (c :: t).drop needle.length)
    else (splitCall needle (m.next c) (isIdentifierChar c) t).map fun p => (c :: p.1, p.2)

/-- What follows the brace that a call is followed by, after white space and comments. -/
def ownBrace : Bool → Text → Option Text
  | _, [] => none
  | true, c :: t => ownBrace (c ≠ '\n') t
  | false, c :: t =>
    if c = '{' then some t
    else if c = '#' then ownBrace true t
    else if isAsciiWhitespace c then ownBrace false t
    else none

/-- What is left behind the block of a call. -/
def ownBlock (after : Text) : Option Text :=
  (ownBrace false after).bind fun inside =>
    (splitClose 1 .code inside).map fun p => p.2.dropWhile isAsciiWhitespace

/-- A block begins with the indentation of its call. -/
def withoutIndent (before : Text) : Text :=
  if (splitLine before).2.all isAsciiWhitespace then (splitLine before).1 else before

/-- The brace of a call is the next one. -/
theorem ownBrace_splitOpen {a inside : Text} {comment : Bool}
    (h : ownBrace comment a = some inside) :
    ∃ b, splitOpen (if comment then .comment else .code) a = some (b, inside) := by
  induction a generalizing comment with
  | nil => cases comment <;> cases h
  | cons c t ih =>
    -- what is passed by leaves the scanner in the mode that it is passed by in
    have hpass : ∀ {m : Mode} {comment' : Bool}, ¬ (m = .code ∧ c = '{') →
        m.next c = (if comment' then .comment else .code) → ownBrace comment' t = some inside →
        ∃ b, splitOpen m (c :: t) = some (b, inside) := by
      intro m comment' hopen hnext hbrace
      obtain ⟨b, hb⟩ := ih hbrace
      exact ⟨c :: b, by rw [splitOpen, if_neg hopen, hnext, hb]; rfl⟩
    cases comment with
    | true =>
      rw [ownBrace] at h
      refine hpass (by simp) ?_ h
      by_cases hc : c = '\n' <;> simp [Mode.next, hc]
    | false =>
      rw [ownBrace] at h
      split_ifs at h with hopen hhash hws
      · cases h
        exact ⟨[], by rw [splitOpen]; exact if_pos ⟨rfl, hopen⟩⟩
      · exact hpass (fun h => hopen h.2) (by simp [Mode.next, hhash]) h
      · refine hpass (fun h => hopen h.2) ?_ h
        have hquote : c ≠ '"' := by
          rintro rfl
          cases hws
        simp [Mode.next, hhash, hquote]

theorem ownBlock_nextBlock {a rest : Text} (h : ownBlock a = some rest) :
    nextBlock a = some rest := by
  obtain ⟨inside, hopen, hclose⟩ := Option.bind_eq_some_iff.mp h
  obtain ⟨b, hopen⟩ := ownBrace_splitOpen hopen
  rw [nextBlock, show splitOpen .code a = some (b, inside) from hopen]
  exact hclose

/-! ## Places of a needle -/

variable {needle t b a : Text} {m : Mode} {word : Bool}

theorem splitCall_eq (h : splitCall needle m word t = some (b, a)) :
    t = b ++ needle ++ a ∧ b.foldl Mode.next m = .code ∧
      b.foldl (fun _ c => isIdentifierChar c) word = false := by
  induction t generalizing m word b with
  | nil => cases h
  | cons c t ih =>
    rw [splitCall] at h
    split_ifs at h with hcall
    · cases h
      obtain ⟨rest, hrest⟩ := hcall.2
      rw [← hrest, List.drop_left]
      exact ⟨rfl, hcall.1⟩
    · obtain ⟨⟨b', a'⟩, hp, heq⟩ := Option.map_eq_some_iff.mp h
      cases heq
      obtain ⟨rfl, hmode, hword⟩ := ih hp
      exact ⟨rfl, hmode, hword⟩

/-- The first place of the characters is the first call if it is a call at all. -/
theorem splitCall_of_first (h : splitFirst needle t = some (b, a)) (hne : needle ≠ [])
    (hmode : b.foldl Mode.next m = .code)
    (hword : b.foldl (fun _ c => isIdentifierChar c) word = false) :
    splitCall needle m word t = some (b, a) := by
  induction t generalizing m word b with
  | nil =>
    rw [splitFirst, if_neg hne] at h
    cases h
  | cons c t ih =>
    rw [splitFirst] at h
    rw [splitCall]
    split_ifs at h with hhere
    · cases h
      exact if_pos ⟨⟨hmode, hword⟩, hhere⟩
    · obtain ⟨⟨b', a'⟩, hp, heq⟩ := Option.map_eq_some_iff.mp h
      cases heq
      rw [if_neg fun hcall => hhere hcall.2, ih hp hmode hword]
      rfl

/-- A call is a place of its characters. -/
theorem splitCall_eq_none (h : ¬ needle <:+: t) : splitCall needle m word t = none := by
  cases hcall : splitCall needle m word t with
  | none => rfl
  | some p => exact absurd ⟨p.1, p.2, (splitCall_eq hcall).1.symm⟩ h

/-- The search of `remove_named_gn_blocks`. -/
def searched (needle : Text) : Sweeper Char where
  find := splitFirst needle
  block := nextBlock
  keep before := (splitLine before).1
  splits := by
    intro t b a rest hfind hblock
    obtain ⟨s, hne, rfl⟩ := nextBlock_splits hblock
    exact ⟨b ++ needle ++ s, by simp [hne], by rw [splitFirst_eq hfind]; simp⟩

/-- What is asked for. -/
def called (needle : Text) : Sweeper Char where
  find := splitCall needle .code false
  block := ownBlock
  keep := withoutIndent
  splits := by
    intro t b a rest hfind hblock
    obtain ⟨s, hne, rfl⟩ := nextBlock_splits (ownBlock_nextBlock hblock)
    exact ⟨b ++ needle ++ s, by simp [hne], by rw [(splitCall_eq hfind).1]; simp⟩

/-! ## The rounds -/

/-- A round takes away the lines from the call's own on. -/
theorem removeNamedBlock_some {rest : Text} (h : nextBlock a = some rest) :
    removeNamedBlock needle (b ++ needle ++ a) (len b) = .ok ((splitLine b).1 ++ rest) := by
  obtain ⟨opening, closing, mid, hopen, hclose, rfl, hskip⟩ := nextBlock_offsets (b ++ needle) h
  have hsplit : splitAt (len b) (b ++ needle ++ (mid ++ rest)) =
      some (b, needle ++ (mid ++ rest)) := by
    rw [List.append_assoc]
    exact splitAt_len _ _
  have hrange := removeRange_eq (splitLine b).1 ((splitLine b).2 ++ needle ++ mid) rest
  rw [← List.append_assoc, ← List.append_assoc, splitLine_append, List.append_assoc] at hrange
  rw [len_append] at hopen
  rw [removeNamedBlock, hsplit]
  simp only [hopen, hclose, hskip, rfind_newline]
  exact hrange

theorem removeNamedBlock_none (h : nextBlock a = none) :
    ∃ message, removeNamedBlock needle (b ++ needle ++ a) (len b) = .error (.err message) := by
  have hsplit : splitAt (len b) (b ++ needle ++ a) = some (b, needle ++ a) := by
    rw [List.append_assoc]
    exact splitAt_len _ _
  rw [removeNamedBlock, hsplit]
  rcases nextBlock_offsets_none (b ++ needle) h with hopen | ⟨opening, hopen, hclose⟩ <;>
    rw [len_append] at hopen
  · simp only [hopen]
    exact ⟨_, rfl⟩
  · simp only [hopen, hclose]
    exact ⟨_, rfl⟩

/-- It returned an `Err`. -/
def Errs (result : Except Fault Text) : Prop := ∃ message, result = .error (.err message)

/-- What stands before the first place has none. -/
theorem not_infix_before (h : splitFirst needle t = some (b, a)) (hne : needle ≠ []) :
    ¬ needle <:+: b := by
  rintro ⟨x, y, rfl⟩
  rw [splitFirst_eq h] at h
  obtain ⟨b', a', hfirst, hle⟩ := splitFirst_le
    (show x ++ needle ++ y ++ needle ++ a = x ++ needle ++ (y ++ needle ++ a) by simp)
  rw [h] at hfirst
  cases hfirst
  have hlen := hle.length_le
  have hpos : 0 < needle.length := List.length_pos_iff.mpr hne
  simp only [List.length_append] at hlen
  omega

theorem not_infix_kept (h : splitFirst needle t = some (b, a)) (hne : needle ≠ []) :
    ¬ needle <:+: (splitLine b).1 := fun hin =>
  not_infix_before h hne (hin.trans ⟨[], (splitLine b).2, splitLine_append b⟩)

/-- **The rounds are the search.** What was kept so far is not looked at again. -/
theorem removeNamedRounds_eq (hne : needle ≠ []) (hline : '\n' ∉ needle) {n removed : Nat}
    {kept : Text} (hn : t.length < n) (hwhole : Whole kept) (hkept : ¬ needle <:+: kept) :
    match (searched needle).out t with
    | none => Errs (removeNamedRounds needle n removed (kept ++ t))
    | some r =>
      if removed = 0 ∧ (searched needle).places t = [] then
        Errs (removeNamedRounds needle n removed (kept ++ t))
      else removeNamedRounds needle n removed (kept ++ t) = .ok (kept ++ r) := by
  induction n generalizing t removed kept with
  | zero => exact absurd hn (Nat.not_lt_zero _)
  | succ n ih =>
    have hfind : find needle (kept ++ t) =
        (splitFirst needle t).map fun p => len (kept ++ p.1) := by
      rw [find, splitFirst_whole hline hwhole hkept, Option.map_map]
      rfl
    cases hsplit : splitFirst needle t with
    | none =>
      rw [hsplit] at hfind
      rw [Sweeper.out_of_find_none (k := searched needle) hsplit,
        Sweeper.places_of_find_none (k := searched needle) hsplit]
      simp only [removeNamedRounds, hfind, Option.map_none]
      by_cases hremoved : removed = 0
      · rw [if_pos ⟨hremoved, trivial⟩, if_pos hremoved]
        exact ⟨_, rfl⟩
      · rw [if_neg fun h => hremoved h.1, if_neg hremoved]
    | some p =>
      obtain ⟨b, a⟩ := p
      rw [hsplit] at hfind
      have ht := splitFirst_eq hsplit
      have hsource : kept ++ t = kept ++ b ++ needle ++ a := by
        rw [ht]
        simp
      cases hblock : nextBlock a with
      | none =>
        rw [Sweeper.out_of_block_none (k := searched needle) hsplit hblock]
        have hround : Errs (removeNamedBlock needle (kept ++ b ++ needle ++ a) (len (kept ++ b))) :=
          removeNamedBlock_none hblock
        rw [← hsource] at hround
        obtain ⟨message, hround⟩ := hround
        refine ⟨message, ?_⟩
        simp only [removeNamedRounds, hfind, Option.map_some, hround]
      | some rest =>
        have hround : removeNamedBlock needle (kept ++ b ++ needle ++ a) (len (kept ++ b)) =
            .ok ((splitLine (kept ++ b)).1 ++ rest) := removeNamedBlock_some hblock
        rw [← hsource, splitLine_whole hwhole] at hround
        have hrounds : removeNamedRounds needle (n + 1) removed (kept ++ t) =
            removeNamedRounds needle n (removed + 1) (kept ++ (splitLine b).1 ++ rest) := by
          simp only [removeNamedRounds, hfind, Option.map_some, hround]
        have hshort : rest.length < n := by
          obtain ⟨s, hs, ha⟩ := nextBlock_splits hblock
          have hpos : 0 < s.length := List.length_pos_iff.mpr hs
          rw [ht, ha] at hn
          simp only [List.length_append] at hn
          omega
        have hkept' : ¬ needle <:+: kept ++ (splitLine b).1 :=
          not_infix_whole hline hwhole hkept (not_infix_kept hsplit hne)
        have hwhole' : Whole (kept ++ (splitLine b).1) := by
          rw [Whole, splitLine_whole hwhole]
          exact whole_splitLine b
        have ih := @ih rest (removed + 1) _ hshort hwhole' hkept'
        rw [hrounds, Sweeper.out_of_block (k := searched needle) hsplit hblock,
          Sweeper.places_of_block (k := searched needle) hsplit hblock]
        cases hout : (searched needle).out rest with
        | none =>
          rw [hout] at ih
          exact ih
        | some r =>
          rw [hout] at ih
          dsimp only at ih
          rw [if_neg fun h => Nat.succ_ne_zero removed h.1] at ih
          dsimp only [Option.map_some]
          rw [if_neg fun h => List.cons_ne_nil _ _ h.2, ih, List.append_assoc]
          rfl

/-! ## What is left -/

/-- What a text is without the blocks of the target: nothing when there is none, or one that
has no brace of its own or is not closed. -/
def withoutTarget (g : Target) (source : Text) : Option Text :=
  if splitCall g.needle .code false source = none then none else (called g.needle).out source

/-- The result is the text without the blocks of the target, or an `Err` if there are none
or one is malformed. -/
def Meets (g : Target) (source : Text) (result : Except Fault Text) : Prop :=
  match withoutTarget g source with
  | some rest => result = .ok rest
  | none => Errs result

/-- A call token that is the first thing on its line. -/
def Alone (before : Text) : Prop :=
  IsCall before ∧ (splitLine before).2.all isAsciiWhitespace

/-- A block comes next: the first opening brace outside strings and comments has a closing one
that balances it. -/
def BlockFollows (after : Text) : Prop :=
  ∃ before body rest, tokens after = before ++ .opening :: (body ++ .closing :: rest) ∧
    .opening ∉ before ∧ Brackets.Balanced Token.side body

/-- The places that the search comes to are calls that are the first thing on their lines,
where the text has blocks of the target and they are well formed; where not, the characters
are nowhere in the text, or no block follows one of the places. -/
def WellPlaced (g : Target) (source : Text) : Prop :=
  let places := (searched g.needle).places source
  match withoutTarget g source with
  | some _ => ∀ p ∈ places, Alone p.1
  | none => ¬ g.needle <:+: source ∨ ∃ p ∈ places, ¬ BlockFollows p.2

/-- The two scanners come to the end of a block where one follows. -/
theorem nextBlock_eq_none : nextBlock a = none ↔ ¬ BlockFollows a := by
  by_cases hmem : .opening ∈ tokens a
  · obtain ⟨before, after, htokens, hfirst⟩ := List.eq_append_cons_of_mem hmem
    have hopen := splitOpen_tokens htokens hfirst
    have hafter : tokens (textOf after) = after :=
      tokens_textOf (htokens.trans (List.append_cons before .opening after))
    rw [nextBlock, hopen, Option.bind_some, Option.map_eq_none_iff, splitClose_tokens, hafter,
      Option.map_eq_none_iff]
    constructor
    · rintro hnone ⟨before', body, rest, htokens', hfirst', hbody⟩
      have hsplit : Brackets.splitClose Token.side 0 after = some (body, .closing, rest) := by
        refine Brackets.splitClose_eq_some_iff.mpr ⟨?_, rfl, hbody⟩
        have hafter' := tokens_textOf (htokens'.trans (List.append_cons before' .opening _))
        have hopen' := hopen.symm.trans (splitOpen_tokens htokens' hfirst')
        rw [← (Prod.mk.inj (Option.some.inj hopen')).2, hafter] at hafter'
        exact hafter'
      rw [hnone] at hsplit
      cases hsplit
    · intro hnot
      by_contra hne
      obtain ⟨⟨body, b, rest⟩, hsplit⟩ := Option.ne_none_iff_exists'.mp hne
      obtain ⟨rfl, hb, hbody⟩ := Brackets.splitClose_eq_some_iff.mp hsplit
      have hclosing : b = .closing := by
        cases b <;> first | rfl | cases hb
      exact hnot ⟨before, body, rest, hclosing ▸ htokens, hfirst, hbody⟩
  · rw [nextBlock, splitOpen_none hmem]
    refine iff_of_true rfl ?_
    rintro ⟨before, body, rest, htokens, -, -⟩
    rw [htokens] at hmem
    exact hmem (List.mem_append_right before List.mem_cons_self)

theorem places_eq_nil : (searched needle).places t = [] ↔ ¬ needle <:+: t :=
  Sweeper.places_eq_nil.trans splitFirst_eq_none

section Blocks

variable {g : Target} {rest : Text}

theorem withoutIndent_of_alone (h : Alone b) : withoutIndent b = (splitLine b).1 := if_pos h.2

/-- Where every place is a call, what is asked for is what is searched. -/
theorem searched_of_called (hne : needle ≠ [])
    (hplaces : ∀ p ∈ (searched needle).places t, Alone p.1)
    (hout : (called needle).out t = some rest) : (searched needle).out t = some rest := by
  induction t using Sweeper.sweep_induction (searched needle) generalizing rest with
  | hnone t h =>
    have hcall : splitCall needle .code false t = none :=
      splitCall_eq_none (splitFirst_eq_none.mp h)
    rw [Sweeper.out_of_find_none (k := called needle) hcall] at hout
    rw [Sweeper.out_of_find_none h, hout]
  | hfail t b a h hb =>
    rw [Sweeper.places_of_block_none h hb] at hplaces
    obtain ⟨⟨hmode, hword⟩, -⟩ := hplaces (b, a) List.mem_cons_self
    have hcall := splitCall_of_first h hne hmode hword
    cases hown : ownBlock a with
    | none =>
      rw [Sweeper.out_of_block_none (k := called needle) hcall hown] at hout
      cases hout
    | some s =>
      have hnext : nextBlock a = none := hb
      rw [ownBlock_nextBlock hown] at hnext
      cases hnext
  | hblock t b a s h hb ih =>
    rw [Sweeper.places_of_block h hb] at hplaces
    have halone := hplaces (b, a) List.mem_cons_self
    have hcall := splitCall_of_first h hne halone.1.1 halone.1.2
    cases hown : ownBlock a with
    | none =>
      rw [Sweeper.out_of_block_none (k := called needle) hcall hown] at hout
      cases hout
    | some s' =>
      have hnext : nextBlock a = some s := hb
      rw [ownBlock_nextBlock hown] at hnext
      cases hnext
      rw [Sweeper.out_of_block (k := called needle) hcall hown] at hout
      obtain ⟨r, hr, rfl⟩ := Option.map_eq_some_iff.mp hout
      have ih := ih (fun p hp => hplaces p (List.mem_cons_of_mem _ hp)) hr
      rw [Sweeper.out_of_block h hb, ih]
      exact congrArg (fun kept => some (kept ++ r)) (withoutIndent_of_alone halone).symm

/-- The search leaves no place. -/
theorem searched_no_place (hne : needle ≠ []) (hline : '\n' ∉ needle)
    (hout : (searched needle).out t = some rest) : ¬ needle <:+: rest := by
  induction t using Sweeper.sweep_induction (searched needle) generalizing rest with
  | hnone t h =>
    rw [Sweeper.out_of_find_none h] at hout
    cases hout
    exact splitFirst_eq_none.mp h
  | hfail t b a h hb =>
    rw [Sweeper.out_of_block_none h hb] at hout
    cases hout
  | hblock t b a s h hb ih =>
    rw [Sweeper.out_of_block h hb] at hout
    obtain ⟨r, hr, rfl⟩ := Option.map_eq_some_iff.mp hout
    exact not_infix_whole hline (whole_splitLine b) (not_infix_kept h hne) (ih hr)

/-- A closing parenthesis at the very end, and no newline. -/
def Plain (needle : Text) : Prop := ∃ s, needle = s ++ [')'] ∧ ')' ∉ s ∧ '\n' ∉ s

theorem Plain.ne_nil (h : Plain needle) : needle ≠ [] := by
  obtain ⟨s, rfl, -, -⟩ := h
  simp

theorem Plain.newline (h : Plain needle) : '\n' ∉ needle := by
  obtain ⟨s, rfl, -, hline⟩ := h
  simp [hline]

/-- What ends like the needle ends with the parenthesis. -/
theorem paren_mem_of_append {s x y : Text} (h : s ++ [')'] = x ++ y) (hy : y ≠ []) : ')' ∈ y := by
  rcases List.append_eq_append_iff.mp h with ⟨z, rfl, hz⟩ | ⟨z, rfl, hz⟩
  · rcases List.append_eq_cons_iff.mp hz.symm with ⟨rfl, rfl⟩ | ⟨z', rfl, hnil⟩
    · exact List.mem_cons_self
    · exact absurd (List.append_eq_nil_iff.mp hnil.symm).2 hy
  · rw [hz]
    exact List.mem_append_right z List.mem_cons_self

/-- No two places overlap. -/
theorem Plain.apart (h : Plain needle) {x a' : Text} (hx : x ≠ [])
    (heq : needle ++ a = x ++ needle ++ a') : ∃ m, x = needle ++ m := by
  obtain ⟨s, rfl, hs, -⟩ := h
  rw [List.append_assoc x] at heq
  rcases List.append_eq_append_iff.mp heq with ⟨z, hz, -⟩ | ⟨z, hz, hrest⟩
  · exact ⟨z, hz⟩
  · by_cases hz' : z = []
    · subst hz'
      exact ⟨[], by rw [hz]; simp⟩
    · -- the rest of the first place would begin the second one
      have hmem := paren_mem_of_append hz hz'
      have hlen : z.length ≤ s.length := by
        have hpos : 0 < x.length := List.length_pos_iff.mpr hx
        have := congrArg List.length hz
        simp only [List.length_append, List.length_singleton] at this
        omega
      have hpre : z <+: s := by
        have hleft : z <+: s ++ ([')'] ++ a') := ⟨a, by rw [← hrest, List.append_assoc]⟩
        exact List.prefix_of_prefix_length_le hleft (List.prefix_append s _) hlen
      exact absurd (hpre.subset hmem) hs

/-- Cutting an indentation cuts no place. -/
theorem Plain.infix_withoutIndent (h : Plain needle) (m : Text) :
    needle <:+: withoutIndent (b ++ needle ++ m) := by
  obtain ⟨s, rfl, -, -⟩ := h
  rw [withoutIndent]
  split_ifs with hblank
  · have happend := splitLine_append (b ++ (s ++ [')']) ++ m)
    rcases List.append_eq_append_iff.mp happend with ⟨z, hz, hm⟩ | ⟨z, hz, -⟩
    · by_cases hz' : z = []
      · subst hz'
        rw [List.append_nil] at hz
        exact ⟨b, [], by rw [← hz, List.append_nil]⟩
      · have hmem : ')' ∈ z := paren_mem_of_append (by rw [← hz, List.append_assoc]) hz'
        have hws := List.all_eq_true.mp hblank ')' (by rw [hm]; exact List.mem_append_left m hmem)
        cases hws
    · exact ⟨b, z, by rw [hz]⟩
  · exact ⟨b, m, rfl⟩

/-- Where what is asked for leaves no place, the first place is a call. -/
theorem call_of_no_place {s : Text} (h : Plain needle) (hfirst : splitFirst needle t = some (b, a))
    (hout : (called needle).out t = some s) (hs : ¬ needle <:+: s) :
    splitCall needle .code false t = some (b, a) := by
  have ht := splitFirst_eq hfirst
  cases hcall : splitCall needle .code false t with
  | none =>
    rw [Sweeper.out_of_find_none (k := called needle) hcall] at hout
    cases hout
    exact absurd ⟨b, a, ht.symm⟩ hs
  | some p =>
    obtain ⟨b', a'⟩ := p
    have ht' := (splitCall_eq hcall).1
    obtain ⟨b₀, a₀, hfirst₀, x, rfl⟩ := splitFirst_le ht'
    rw [hfirst] at hfirst₀
    cases hfirst₀
    rw [ht, List.append_assoc, List.append_assoc b, List.append_assoc b] at ht'
    have heq := List.append_cancel_left ht'
    by_cases hx : x = []
    · subst hx
      rw [List.append_nil]
      rw [List.nil_append] at heq
      rw [List.append_cancel_left heq]
    · obtain ⟨m, rfl⟩ := h.apart hx heq
      cases hown : ownBlock a' with
      | none =>
        rw [Sweeper.out_of_block_none (k := called needle) hcall hown] at hout
        cases hout
      | some rest =>
        rw [Sweeper.out_of_block (k := called needle) hcall hown] at hout
        obtain ⟨r, -, rfl⟩ := Option.map_eq_some_iff.mp hout
        have hin := h.infix_withoutIndent (b := b) m
        rw [List.append_assoc] at hin
        exact absurd (hin.trans (List.prefix_append _ r).isInfix) hs

/-- **What is searched takes away at least what is asked for**, and just that only where
every place is a call that is the first thing on its line. -/
theorem searched_le {s c : Text} (h : Plain needle) (hout : (called needle).out t = some s)
    (hs : ¬ needle <:+: s) (hsearch : (searched needle).out t = some c) :
    c.length ≤ s.length ∧ (c = s → ∀ p ∈ (searched needle).places t, Alone p.1) := by
  induction t using Sweeper.sweep_induction (searched needle) generalizing s c with
  | hnone t hfirst =>
    have hcall : splitCall needle .code false t = none :=
      splitCall_eq_none (splitFirst_eq_none.mp hfirst)
    rw [Sweeper.out_of_find_none (k := called needle) hcall] at hout
    rw [Sweeper.out_of_find_none hfirst] at hsearch
    rw [Sweeper.places_of_find_none hfirst]
    cases hout
    cases hsearch
    exact ⟨Nat.le_refl _, fun _ => nofun⟩
  | hfail t b a hfirst hb =>
    rw [Sweeper.out_of_block_none hfirst hb] at hsearch
    cases hsearch
  | hblock t b a rest hfirst hb ih =>
    have hcall := call_of_no_place h hfirst hout hs
    cases hown : ownBlock a with
    | none =>
      rw [Sweeper.out_of_block_none (k := called needle) hcall hown] at hout
      cases hout
    | some rest' =>
      have hnext : nextBlock a = some rest := hb
      rw [ownBlock_nextBlock hown] at hnext
      cases hnext
      rw [Sweeper.out_of_block (k := called needle) hcall hown] at hout
      rw [Sweeper.out_of_block hfirst hb] at hsearch
      obtain ⟨s', hout', rfl⟩ := Option.map_eq_some_iff.mp hout
      obtain ⟨c', hsearch', rfl⟩ := Option.map_eq_some_iff.mp hsearch
      obtain ⟨hle, halone⟩ := ih hout' (fun hin => hs (hin.trans (List.suffix_append _ s').isInfix))
        hsearch'
      -- what is kept of the line before a call
      have hkeep : (splitLine b).1.length ≤ (withoutIndent b).length ∧
          ((splitLine b).1.length = (withoutIndent b).length →
            (splitLine b).2.all isAsciiWhitespace) := by
        rw [withoutIndent]
        split_ifs with hblank
        · exact ⟨Nat.le_refl _, fun _ => hblank⟩
        · have hlen := congrArg List.length (splitLine_append b)
          rw [List.length_append] at hlen
          refine ⟨by omega, fun heq => ?_⟩
          rw [List.eq_nil_of_length_eq_zero (by omega : (splitLine b).2.length = 0)]
          rfl
      change ((splitLine b).1 ++ c').length ≤ (withoutIndent b ++ s').length ∧
        ((splitLine b).1 ++ c' = withoutIndent b ++ s' → _)
      rw [List.length_append, List.length_append]
      refine ⟨by omega, fun heq => ?_⟩
      have hlen := congrArg List.length heq
      rw [List.length_append, List.length_append] at hlen
      have hsame := (List.append_inj heq (by omega)).2
      obtain ⟨-, hmode, hword⟩ := splitCall_eq hcall
      rw [Sweeper.places_of_block hfirst hb]
      intro p hp
      rcases List.mem_cons.mp hp with rfl | hp
      · exact ⟨⟨hmode, hword⟩, hkeep.2 (by omega)⟩
      · exact halone hsame p hp

end Blocks

theorem Target.plain (g : Target) : Plain g.needle := by
  refine ⟨g.kind ++ '(' :: '"' :: g.name ++ ['"'], by simp [Target.needle, needleOf], ?_, ?_⟩
  · intro hmem
    have hmem : ')' ∈ g.kind ∨ ')' ∈ g.name := by simpa using hmem
    rcases hmem with hmem | hmem
    · exact absurd (g.kind_identifier _ hmem) (by decide)
    · exact (g.name_plain _ hmem).2.2.1 rfl
  · intro hmem
    have hmem : '\n' ∈ g.kind ∨ '\n' ∈ g.name := by simpa using hmem
    rcases hmem with hmem | hmem
    · exact absurd (g.kind_identifier _ hmem) (by decide)
    · exact (g.name_plain _ hmem).2.2.2 rfl

theorem not_errs {r : Text} : ¬ Errs (.ok r) := nofun

/-- What the rounds return, in terms of the search. -/
theorem removeNamedGnBlocks_err (g : Target) {source : Text}
    (h : (searched g.needle).places source = [] ∨ (searched g.needle).out source = none) :
    Errs (removeNamedGnBlocks source g.kind g.name) := by
  have hrounds := @removeNamedRounds_eq _ _ g.plain.ne_nil g.plain.newline _ 0 _
    (Nat.lt_succ_self source.length) whole_nil
    fun hin => g.plain.ne_nil (List.eq_nil_of_infix_nil hin)
  cases hout : (searched g.needle).out source with
  | none =>
    rw [hout] at hrounds
    exact hrounds
  | some r =>
    rw [hout] at h hrounds
    dsimp only at hrounds
    rw [if_pos ⟨rfl, h.resolve_right nofun⟩] at hrounds
    exact hrounds

theorem removeNamedGnBlocks_ok (g : Target) {source r : Text}
    (h : (searched g.needle).places source ≠ []) (hout : (searched g.needle).out source = some r) :
    removeNamedGnBlocks source g.kind g.name = .ok r := by
  have hrounds := @removeNamedRounds_eq _ _ g.plain.ne_nil g.plain.newline _ 0 _
    (Nat.lt_succ_self source.length) whole_nil
    fun hin => g.plain.ne_nil (List.eq_nil_of_infix_nil hin)
  rw [hout] at hrounds
  dsimp only at hrounds
  rw [if_neg fun hnil => h hnil.2] at hrounds
  exact hrounds

/-- **Exactly the blocks of the target are taken away exactly when the places are calls.** -/
theorem named_blocks_iff (g : Target) (source : Text) :
    Meets g source (removeNamedGnBlocks source g.kind g.name) ↔ WellPlaced g source := by
  rw [Meets, WellPlaced]
  cases hspec : withoutTarget g source with
  | none =>
    dsimp only
    have hfails : (searched g.needle).out source = none ↔
        ∃ p ∈ (searched g.needle).places source, ¬ BlockFollows p.2 :=
      Sweeper.out_eq_none.trans
        (exists_congr fun p => and_congr_right fun _ => nextBlock_eq_none)
    rw [← places_eq_nil, ← hfails]
    refine ⟨fun herrs => ?_, removeNamedGnBlocks_err g⟩
    by_contra hne
    obtain ⟨hplaces, hout⟩ := not_or.mp hne
    obtain ⟨r, hout⟩ := Option.ne_none_iff_exists'.mp hout
    rw [removeNamedGnBlocks_ok g hplaces hout] at herrs
    exact not_errs herrs
  | some rest =>
    dsimp only
    rw [withoutTarget] at hspec
    split_ifs at hspec with hcall
    have hplaces : (searched g.needle).places source ≠ [] := by
      rw [ne_eq, Sweeper.places_eq_nil]
      exact fun hfirst => hcall (splitCall_eq_none (splitFirst_eq_none.mp hfirst))
    constructor
    · intro hresult
      cases hout : (searched g.needle).out source with
      | none =>
        have herrs := removeNamedGnBlocks_err g (.inr hout)
        rw [hresult] at herrs
        exact absurd herrs not_errs
      | some r =>
        rw [removeNamedGnBlocks_ok g hplaces hout] at hresult
        cases hresult
        exact (searched_le g.plain hspec (searched_no_place g.plain.ne_nil g.plain.newline hout)
          hout).2 rfl
    · intro halone
      exact removeNamedGnBlocks_ok g hplaces (searched_of_called g.plain.ne_nil halone hspec)

/-- The group `x`. -/
def groupX : Target where
  kind := ['g', 'r', 'o', 'u', 'p']
  name := ['x']
  kind_identifier := List.all_eq_true.mp (by decide)
  name_plain := List.forall_mem_singleton.mpr (by decide)

/-- A block of another kind with the same end, `my_group("x")`, and the block itself. -/
def otherKind : Text := "my_group(\"x\") \x7b\x7d\ngroup(\"x\") \x7b\x7d\n".toList

/-- The other block is taken away too. -/
theorem other_kind_removed :
    withoutTarget groupX otherKind = some "my_group(\"x\") \x7b\x7d\n".toList ∧
      removeNamedGnBlocks otherKind groupX.kind groupX.name = .ok [] ∧
      ¬ Meets groupX otherKind (removeNamedGnBlocks otherKind groupX.kind groupX.name) := by
  have hspec : withoutTarget groupX otherKind =
      some "my_group(\"x\") \x7b\x7d\n".toList := by decide +kernel
  have hcode : removeNamedGnBlocks otherKind groupX.kind groupX.name = .ok [] := by
    decide +kernel
  refine ⟨hspec, hcode, ?_⟩
  rw [Meets, hspec, hcode]
  exact fun h => absurd (Except.ok.inj h) (by decide +kernel)

end TokioCronet.GnBlocks
