import TokioCronet.Lib.Brackets
import TokioCronet.Lib.Scan
import TokioCronet.Xtask.GnScan

/-!
# Tokens of a GN text

The two scanners go over bytes with three flags. What they are for is said in terms of
tokens: a string and a comment are one token each, whatever stands in them, and a brace is a
token only outside of both. `matching_gn_brace` finds the closing brace that has balanced
tokens before it; `next_gn_open_brace` finds the first opening brace from an offset on.
-/

namespace TokioCronet.GnBlocks

open Offsets

/-! ## Tokens -/

/-- What a text is made of. -/
inductive Token where
  | opening
  | closing
  /-- A string with its quotes; one that is not closed takes the rest of the text. -/
  | string (text : Text)
  /-- A comment, without the newline that ends it. -/
  | comment (text : Text)
  | plain (c : Char)
  deriving DecidableEq

/-- The characters of a token. -/
def Token.text : Token → Text
  | .opening => ['{']
  | .closing => ['}']
  | .string text | .comment text => text
  | .plain c => [c]

/-- What belongs to a string behind its opening quote, and what follows it. -/
def stringRest : Text → Text × Text
  | [] => ([], [])
  | '"' :: t => (['"'], t)
  | '\\' :: c :: t => ('\\' :: c :: (stringRest t).1, (stringRest t).2)
  | c :: t => (c :: (stringRest t).1, (stringRest t).2)

/-- The first token, and what follows it. -/
def token : Text → Option (Token × Text)
  | [] => none
  | '{' :: t => some (.opening, t)
  | '}' :: t => some (.closing, t)
  | '"' :: t => some (.string ('"' :: (stringRest t).1), (stringRest t).2)
  | '#' :: t =>
    some (.comment ('#' :: t.takeWhile (· ≠ '\n')), t.dropWhile (· ≠ '\n'))
  | c :: t => some (.plain c, t)

theorem stringRest_splits (t : Text) : (stringRest t).1 ++ (stringRest t).2 = t := by
  fun_induction stringRest t with
  | case1 => rfl
  | case2 => rfl
  | case3 c t ih => simp [ih]
  | case4 c t _ _ ih => simp [ih]

theorem token_splits {s rest : Text} {k : Token} (h : token s = some (k, rest)) :
    k.text ≠ [] ∧ s = k.text ++ rest := by
  unfold token at h
  split at h
  · cases h
  · cases h
    exact ⟨nofun, rfl⟩
  · cases h
    exact ⟨nofun, rfl⟩
  · cases h
    exact ⟨nofun, congrArg ('"' :: ·) (stringRest_splits _).symm⟩
  · cases h
    exact ⟨nofun, congrArg ('#' :: ·) List.takeWhile_append_dropWhile.symm⟩
  · cases h
    exact ⟨nofun, rfl⟩

/-- The lexer that takes one token after another. -/
def lexer : Scan.Cutter Char Token where
  cut := token
  splits h := ⟨_, token_splits h⟩

/-- The tokens of a text. -/
def tokens (source : Text) : List Token := (lexer.scan source).1

/-- The text of some tokens. -/
def textOf (ts : List Token) : Text := ts.flatMap Token.text

@[simp] theorem textOf_nil : textOf [] = [] := rfl

@[simp] theorem textOf_cons (k : Token) (ts : List Token) :
    textOf (k :: ts) = k.text ++ textOf ts := List.flatMap_cons

@[simp] theorem textOf_append (ts us : List Token) :
    textOf (ts ++ us) = textOf ts ++ textOf us := List.flatMap_append

theorem tokens_nil : tokens [] = [] := rfl

theorem tokens_of {s rest : Text} {k : Token} (h : token s = some (k, rest)) :
    tokens s = k :: tokens rest := by
  rw [tokens, Scan.scan_of_some (k := lexer) h]
  rfl

/-- Induction on the tokens of a text. -/
theorem lex_induction {motive : Text → Prop} (hnil : motive [])
    (hcons : ∀ {s k rest}, token s = some (k, rest) → motive rest → motive s) (s : Text) :
    motive s := by
  induction hn : s.length using Nat.strongRecOn generalizing s with
  | ind n ih =>
    cases hs : token s with
    | none =>
      cases s with
      | nil => exact hnil
      | cons c t =>
        unfold token at hs
        split at hs <;> simp_all
    | some p =>
      have hlt := lexer.shorter hs
      exact hcons hs (ih p.2.length (by omega) p.2 rfl)

/-- **The tokens are the text.** -/
theorem textOf_tokens (s : Text) : textOf (tokens s) = s := by
  induction s using lex_induction with
  | hnil => rfl
  | hcons hs ih => rw [tokens_of hs, textOf_cons, ih, ← (token_splits hs).2]

/-! ## The scans over tokens -/

/-- A scan takes along what is no brace outside strings and comments. -/
structure Passing (scan : Mode → Text → Option (Text × Text)) : Prop where
  /-- It finds nothing in an empty text. -/
  nil (m : Mode) : scan m [] = none
  /-- It goes on behind such a character. -/
  cons {m : Mode} {c : Char} (h : m = .code → c ≠ '{' ∧ c ≠ '}') (t : Text) :
    scan m (c :: t) = (scan (m.next c) t).map fun p => (c :: p.1, p.2)

theorem passing_splitOpen : Passing splitOpen where
  nil _ := rfl
  cons h _ := by rw [splitOpen, if_neg fun hc => (h hc.1).1 hc.2]

theorem passing_splitClose (depth : Nat) : Passing (splitClose depth) where
  nil _ := rfl
  cons h _ := by
    rw [splitClose, if_neg fun hc => (h hc.1).1 hc.2, if_neg fun hc => (h hc.1).2 hc.2]

section Passing

variable {scan : Mode → Text → Option (Text × Text)} {s rest : Text} {k : Token}

/-- In a string or a comment a brace is like any character. -/
theorem Passing.inside (h : Passing scan) {m : Mode} (hm : m ≠ .code) (c : Char) (t : Text) :
    scan m (c :: t) = (scan (m.next c) t).map fun p => (c :: p.1, p.2) :=
  h.cons (fun hcode => absurd hcode hm) t

/-- A string is passed over with its escapes. -/
theorem Passing.string (h : Passing scan) (t : Text) :
    scan .string t =
      (scan .code (stringRest t).2).map fun p => ((stringRest t).1 ++ p.1, p.2) := by
  fun_induction stringRest t with
  | case1 => rw [h.nil, h.nil]; rfl
  | case2 t =>
    rw [h.inside (by decide)]
    rfl
  | case3 c t ih =>
    rw [h.inside (by decide)]
    change (scan .escaped _).map _ = _
    rw [h.inside (by decide)]
    change ((scan .string t).map _).map _ = _
    rw [ih, Option.map_map, Option.map_map]
    rfl
  | case4 c t hquote hslash ih =>
    rw [h.inside (by decide)]
    by_cases hc : c = '\\'
    · -- a backslash with nothing behind it
      subst hc
      cases t with
      | nil => rw [h.nil]; simp [stringRest, h.nil]
      | cons e t => exact absurd rfl (hslash e t rfl)
    · have hnext : Mode.string.next c = .string := by
        rw [Mode.next, if_neg hc, if_neg hquote]
      rw [hnext, ih, Option.map_map]
      rfl

/-- A comment is passed over up to the end of its line. -/
theorem Passing.comment (h : Passing scan) (t : Text) :
    scan .comment t =
      (scan .code (t.dropWhile (· ≠ '\n'))).map fun p => (t.takeWhile (· ≠ '\n') ++ p.1, p.2) := by
  induction t with
  | nil => simp [h.nil]
  | cons c t ih =>
    rw [h.inside (by decide)]
    by_cases hc : c = '\n'
    · subst hc
      have hcode := h.cons (m := .code) (c := '\n') (fun _ => by decide) t
      simpa [Mode.next] using hcode.symm
    · have hnext : Mode.comment.next c = .comment := by simp [Mode.next, hc]
      rw [hnext, ih, Option.map_map, List.takeWhile_cons_of_pos (by simpa using hc),
        List.dropWhile_cons_of_pos (by simpa using hc)]
      rfl

/-- **A token that is no brace is passed over.** -/
theorem Passing.token (h : Passing scan) (hs : token s = some (k, rest)) (hopen : k ≠ .opening)
    (hclose : k ≠ .closing) :
    scan .code s = (scan .code rest).map fun p => (k.text ++ p.1, p.2) := by
  unfold GnBlocks.token at hs
  split at hs
  · cases hs
  · cases hs
    exact absurd rfl hopen
  · cases hs
    exact absurd rfl hclose
  · cases hs
    rw [h.cons fun _ => by decide]
    change (scan .string _).map _ = _
    rw [h.string, Option.map_map]
    rfl
  · cases hs
    rw [h.cons fun _ => by decide]
    change (scan .comment _).map _ = _
    rw [h.comment, Option.map_map]
    rfl
  · rename_i c t hbrace hclosing hquote hhash
    cases hs
    have hnext : Mode.code.next c = .code := by
      rw [Mode.next, if_neg hhash, if_neg hquote]
    rw [h.cons fun _ => ⟨hbrace, hclosing⟩, hnext]
    rfl

end Passing

theorem token_opening {s rest : Text} (h : token s = some (.opening, rest)) : s = '{' :: rest :=
  (token_splits h).2

theorem token_closing {s rest : Text} (h : token s = some (.closing, rest)) : s = '}' :: rest :=
  (token_splits h).2

/-- The first opening brace is the first opening token. -/
theorem splitOpen_tokens {s : Text} {before after : List Token}
    (h : tokens s = before ++ .opening :: after) (hfirst : .opening ∉ before) :
    splitOpen .code s = some (textOf before, textOf after) := by
  induction s using lex_induction generalizing before with
  | hnil =>
    rw [tokens_nil] at h
    exact absurd h.symm (by simp)
  | @hcons s k rest hs ih =>
    rw [tokens_of hs] at h
    cases before with
    | nil =>
      cases h
      rw [token_opening hs, splitOpen, if_pos ⟨rfl, rfl⟩, textOf_tokens]
      rfl
    | cons k' before =>
      obtain ⟨rfl, hrest⟩ := List.cons_eq_cons.mp h
      have hopen : k ≠ .opening := fun hk => hfirst (hk ▸ List.mem_cons_self)
      have hbefore := ih hrest fun hmem => hfirst (List.mem_cons_of_mem _ hmem)
      by_cases hclose : k = .closing
      · subst hclose
        rw [token_closing hs, splitOpen, if_neg (by decide)]
        change (splitOpen .code rest).map _ = _
        rw [hbefore]
        rfl
      · rw [passing_splitOpen.token hs hopen hclose, hbefore]
        rfl

theorem splitOpen_none {s : Text} (h : .opening ∉ tokens s) : splitOpen .code s = none := by
  induction s using lex_induction with
  | hnil => rfl
  | @hcons s k rest hs ih =>
    rw [tokens_of hs, List.mem_cons, not_or] at h
    by_cases hclose : k = .closing
    · subst hclose
      rw [token_closing hs, splitOpen, if_neg (by decide)]
      change (splitOpen .code rest).map _ = _
      rw [ih h.2]
      rfl
    · rw [passing_splitOpen.token hs (Ne.symm h.1) hclose, ih h.2]
      rfl

/-- What a token does to the count of open braces. -/
def Token.side : Token → Brackets.Side
  | .opening => .opening
  | .closing => .closing
  | _ => .neither

theorem Token.side_neither {k : Token} (hopen : k ≠ .opening) (hclose : k ≠ .closing) :
    k.side = .neither := by
  cases k with
  | opening => exact absurd rfl hopen
  | closing => exact absurd rfl hclose
  | string _ => rfl
  | comment _ => rfl
  | plain _ => rfl

/-- The count over the characters is the count over the tokens. -/
theorem splitClose_tokens {s : Text} {depth : Nat} :
    splitClose (depth + 1) .code s =
      (Brackets.splitClose Token.side depth (tokens s)).map fun p =>
        (textOf p.1, textOf p.2.2) := by
  induction s using lex_induction generalizing depth with
  | hnil => rfl
  | @hcons s k rest hs ih =>
    rw [tokens_of hs]
    by_cases hopen : k = .opening
    · subst hopen
      rw [token_opening hs, splitClose, if_pos ⟨rfl, rfl⟩]
      change (splitClose (depth + 1 + 1) .code rest).map _ = _
      simp only [ih, Brackets.splitClose, Token.side, Option.map_map]
      rfl
    · by_cases hclose : k = .closing
      · subst hclose
        rw [token_closing hs, splitClose, if_neg (by decide), if_pos ⟨rfl, rfl⟩,
          if_neg (Nat.succ_ne_zero _)]
        cases depth with
        | zero => simp [Brackets.splitClose, Token.side, textOf_tokens]
        | succ depth =>
          rw [if_neg (by omega)]
          change (splitClose (depth + 1) .code rest).map _ = _
          simp only [ih, Brackets.splitClose, Token.side, Option.map_map]
          rfl
      · have hside := Token.side_neither hopen hclose
        rw [(passing_splitClose _).token hs hopen hclose]
        simp only [ih, Brackets.splitClose, hside, Option.map_map]
        rfl

/-! ## Offsets -/

/-- An opening brace outside strings and comments. -/
def OpeningAt (source : Text) (index : Nat) : Prop :=
  ∃ before after, tokens source = before ++ .opening :: after ∧ index = len (textOf before)

/-- The closing brace that balances the opening one. -/
def IsBlock (source : Text) (opening closing : Nat) : Prop :=
  ∃ before body after, tokens source = before ++ .opening :: (body ++ .closing :: after) ∧
    Brackets.Balanced Token.side body ∧ opening = len (textOf before) ∧
    closing = len (textOf (before ++ .opening :: body))

/-- The tokens that may not be entered in the middle. -/
def Token.isQuoted : Token → Bool
  | .string _ | .comment _ => true
  | _ => false

/-- No string and no comment begins before the offset and ends behind it. -/
def Outside (source : Text) (start : Nat) : Prop :=
  ∀ before k after, tokens source = before ++ k :: after → k.isQuoted = true →
    start ≤ len (textOf before) ∨ len (textOf before) + len k.text ≤ start

theorem len_pos {t : Text} (h : t ≠ []) : 0 < len t := by
  cases t with
  | nil => exact absurd rfl h
  | cons c t =>
    have hpos := c.utf8Size_pos
    rw [len_cons]
    omega

theorem text_ne_nil {s : Text} {k : Token} (h : k ∈ tokens s) : k.text ≠ [] := by
  induction s using lex_induction with
  | hnil => cases h
  | hcons hs ih =>
    rw [tokens_of hs] at h
    rcases List.mem_cons.mp h with rfl | h
    · exact (token_splits hs).1
    · exact ih h

/-- What follows some tokens of a text has the tokens that follow them. -/
theorem tokens_textOf {s : Text} {before after : List Token} (h : tokens s = before ++ after) :
    tokens (textOf after) = after := by
  induction s using lex_induction generalizing before with
  | hnil =>
    obtain ⟨-, rfl⟩ := List.append_eq_nil_iff.mp h.symm
    rfl
  | @hcons s k rest hs ih =>
    cases before with
    | nil =>
      rw [List.nil_append] at h
      rw [← h, textOf_tokens]
    | cons k' before =>
      rw [tokens_of hs] at h
      exact ih (List.cons_eq_cons.mp h).2

/-- An offset belongs to one place between the tokens. -/
theorem before_unique {s : Text} {before before' after after' : List Token}
    (h : tokens s = before ++ after) (h' : tokens s = before' ++ after')
    (hlen : len (textOf before) = len (textOf before')) : before = before' := by
  have hnil : ∀ {x : List Token}, (∀ k ∈ x, k ∈ tokens s) → len (textOf x) = 0 → x = [] := by
    intro x hx hzero
    cases x with
    | nil => rfl
    | cons k x =>
      have hpos := len_pos (text_ne_nil (hx k List.mem_cons_self))
      rw [textOf_cons, len_append] at hzero
      omega
  rcases List.append_eq_append_iff.mp (h.symm.trans h') with ⟨x, rfl, hx⟩ | ⟨x, rfl, hx⟩
  · rw [textOf_append, len_append] at hlen
    have hzero := hnil (x := x) (fun k hk => by rw [h, hx]; simp [hk]) (by omega)
    rw [hzero, List.append_nil]
  · rw [textOf_append, len_append] at hlen
    have hzero := hnil (x := x) (fun k hk => by rw [h', hx]; simp [hk]) (by omega)
    rw [hzero, List.append_nil]

/-! ## The two scanners -/

variable {source : Text} {opening closing : Nat}

/-- `matching_gn_brace` at an opening token. -/
theorem matchingGnBrace_tokens {before after : List Token}
    (h : tokens source = before ++ .opening :: after) :
    matchingGnBrace source (len (textOf before)) =
      (Brackets.splitClose Token.side 0 after).map fun p =>
        len (textOf (before ++ .opening :: p.1)) := by
  have hsource : source = textOf before ++ '{' :: textOf after := by
    rw [← textOf_tokens source, h, textOf_append, textOf_cons]
    rfl
  have hafter : tokens (textOf after) = after :=
    tokens_textOf (h.trans (List.append_cons before .opening after))
  rw [hsource, matchingGnBrace_eq, splitClose_tokens, hafter, Option.map_map]
  refine congrArg (Option.map · _) (funext fun p => ?_)
  have hbrace : len ['{'] = 1 := rfl
  simp only [Function.comp_apply, textOf_append, textOf_cons, len_append, Token.text, hbrace]
  omega

/-- **The brace that is found is the one that balances.** -/
theorem matchingGnBrace_iff (h : OpeningAt source opening) :
    matchingGnBrace source opening = some closing ↔ IsBlock source opening closing := by
  obtain ⟨before, after, htokens, rfl⟩ := h
  rw [matchingGnBrace_tokens htokens, Option.map_eq_some_iff]
  constructor
  · rintro ⟨⟨body, b, after'⟩, hclose, rfl⟩
    obtain ⟨rfl, hb, hbody⟩ := Brackets.splitClose_eq_some_iff.mp hclose
    have hclosing : b = .closing := by
      cases b <;> first | rfl | cases hb
    subst hclosing
    exact ⟨before, body, after', htokens, hbody, rfl, rfl⟩
  · rintro ⟨before', body, after', htokens', hbody, hlen, rfl⟩
    obtain rfl := before_unique htokens htokens' hlen
    rw [htokens] at htokens'
    obtain ⟨-, rfl⟩ := List.cons_eq_cons.mp (List.append_cancel_left htokens')
    exact ⟨(body, .closing, after'), Brackets.splitClose_eq_some_iff.mpr ⟨rfl, rfl, hbody⟩, rfl⟩

/-- The tokens that begin before an offset, and the others. -/
theorem exists_begun (ts : List Token) (start : Nat) :
    ∃ before after, ts = before ++ after ∧
      (∀ init k, before = init ++ [k] → len (textOf init) < start) ∧
      (start ≤ len (textOf before) ∨ after = []) := by
  induction ts generalizing start with
  | nil => exact ⟨[], [], rfl, fun init k h => absurd h.symm (by simp), .inr rfl⟩
  | cons k ts ih =>
    rcases Nat.eq_zero_or_pos start with rfl | hpos
    · exact ⟨[], k :: ts, rfl, fun init k' h => absurd h.symm (by simp), .inl (Nat.zero_le _)⟩
    · obtain ⟨before, after, rfl, hbegun, hend⟩ := ih (start - len k.text)
      refine ⟨k :: before, after, rfl, fun init k' h => ?_, hend.imp_left fun hle => ?_⟩
      · cases init with
        | nil => exact hpos
        | cons k0 init =>
          obtain ⟨rfl, hbefore⟩ := List.cons_eq_cons.mp h
          have hlt := hbegun init k' hbefore
          rw [textOf_cons, len_append]
          omega
      · rw [textOf_cons, len_append]
        omega

/-- A character that begins before `start` is skipped, and what stands before it. -/
theorem nextOpen_skip_last {start index : Nat} {m : Mode} {p t : Text} {c : Char}
    (h : index + len p < start) :
    nextOpen start index m (p ++ c :: t) = nextOpen start (index + len (p ++ [c])) m t := by
  rw [nextOpen_skip (Nat.le_of_lt h), nextOpen, if_pos h, len_append, ← Nat.add_assoc]
  rfl

theorem Token.text_plain {k : Token} (h : k.isQuoted = false) : ∃ c, k.text = [c] := by
  cases k with
  | opening => exact ⟨_, rfl⟩
  | closing => exact ⟨_, rfl⟩
  | string _ => cases h
  | comment _ => cases h
  | plain c => exact ⟨c, rfl⟩

section Begun

variable {start : Nat} {before after : List Token} (htokens : tokens source = before ++ after)
  (hbegun : ∀ init k, before = init ++ [k] → len (textOf init) < start)

include htokens hbegun

/-- `next_gn_open_brace` behind the tokens that begin before `start`. -/
theorem nextGnOpenBrace_tokens (hend : start ≤ len (textOf before) ∨ after = [])
    (hout : Outside source start) :
    nextGnOpenBrace source start =
      (splitOpen .code (textOf after)).map fun p => len (textOf before) + len p.1 := by
  have hsource : source = textOf before ++ textOf after := by
    rw [← textOf_tokens source, htokens, textOf_append]
  have hskip : nextGnOpenBrace source start =
      nextOpen start (len (textOf before)) .code (textOf after) := by
    rw [nextGnOpenBrace, hsource]
    rcases List.eq_nil_or_concat before with rfl | ⟨init, k, rfl⟩
    · rfl
    · rw [List.concat_eq_append] at *
      have hlt := hbegun init k rfl
      cases hk : k.isQuoted with
      | true =>
        have hbound := hout init k after (by simpa using htokens) hk
        have hle : len (textOf (init ++ [k])) ≤ start := by
          simp only [textOf_append, textOf_cons, textOf_nil, List.append_nil, len_append]
          omega
        rw [nextOpen_skip (by omega), Nat.zero_add]
      | false =>
        obtain ⟨c, hc⟩ := Token.text_plain hk
        have htext : textOf (init ++ [k]) = textOf init ++ [c] := by simp [hc]
        rw [htext, List.append_assoc, List.singleton_append, nextOpen_skip_last (by omega),
          Nat.zero_add]
  rw [hskip]
  rcases hend with hle | rfl
  · exact nextOpen_eq hle
  · rfl

/-- The opening tokens from `start` on are those that do not begin before it. -/
theorem openingAt_after {index : Nat} (hopen : OpeningAt source index) (hle : start ≤ index) :
    ∃ b a, after = b ++ .opening :: a ∧ index = len (textOf before) + len (textOf b) := by
  obtain ⟨b', a', htokens', rfl⟩ := hopen
  rcases List.append_eq_append_iff.mp (htokens.symm.trans htokens') with
    ⟨x, rfl, hafter⟩ | ⟨x, rfl, hopening⟩
  · exact ⟨x, a', hafter, by rw [textOf_append, len_append]⟩
  · rcases List.eq_nil_or_concat x with rfl | ⟨x, k, rfl⟩
    · exact ⟨[], a', by simpa using hopening.symm, by simp⟩
    · rw [List.concat_eq_append] at hbegun
      have hlt := hbegun (b' ++ x) k (by simp)
      rw [textOf_append, len_append] at hlt
      omega

end Begun

/-- **The brace that is found is the first one from `start` on.** -/
theorem nextGnOpenBrace_spec {start : Nat} (hout : Outside source start) :
    match nextGnOpenBrace source start with
    | some index => OpeningAt source index ∧ start ≤ index ∧
        ∀ i, OpeningAt source i → start ≤ i → index ≤ i
    | none => ∀ i, OpeningAt source i → ¬ start ≤ i := by
  obtain ⟨before, after, htokens, hbegun, hend⟩ := exists_begun (tokens source) start
  have hafter := tokens_textOf htokens
  rw [nextGnOpenBrace_tokens htokens hbegun hend hout]
  by_cases hopen : .opening ∈ after
  · obtain ⟨b, a, rfl, hfirst⟩ := List.eq_append_cons_of_mem hopen
    have hle := hend.resolve_right (by simp)
    rw [splitOpen_tokens hafter hfirst]
    refine ⟨⟨before ++ b, a, by simpa using htokens, by simp⟩,
      Nat.le_add_right_of_le hle, fun i hi hstart => ?_⟩
    obtain ⟨b', a', hsplit, rfl⟩ := openingAt_after htokens hbegun hi hstart
    refine Nat.add_le_add_left ?_ _
    rcases List.append_eq_append_iff.mp hsplit with ⟨x, rfl, -⟩ | ⟨x, rfl, hx⟩
    · rw [textOf_append, len_append]
      exact Nat.le_add_right _ _
    · cases x with
      | nil => simp
      | cons k x =>
        obtain ⟨rfl, -⟩ := List.cons_eq_cons.mp hx
        exact absurd (List.mem_append_right _ List.mem_cons_self) hfirst
  · rw [splitOpen_none (by rwa [hafter])]
    intro i hi hstart
    obtain ⟨b, a, rfl, -⟩ := openingAt_after htokens hbegun hi hstart
    exact hopen (by simp)

/-- A place between two tokens is outside of both. -/
theorem outside_between {before after : List Token} (h : tokens source = before ++ after) :
    Outside source (len (textOf before)) := by
  intro b k a hk _
  rcases List.append_eq_append_iff.mp (h.symm.trans hk) with ⟨x, rfl, -⟩ | ⟨x, rfl, hx⟩
  · rw [textOf_append, len_append]
    omega
  · cases x with
    | nil => simp
    | cons k' x =>
      obtain ⟨rfl, -⟩ := List.cons_eq_cons.mp hx
      simp only [textOf_append, textOf_cons, len_append]
      omega

/-- **The two scanners agree with the tokens.** At an opening brace the one returns the closing
brace that balances it; from outside of strings and comments the other returns the first opening
brace; and each returns nothing just if there is no such brace. -/
theorem braces_of_tokens (source : Text) :
    (∀ opening, OpeningAt source opening →
      (∀ closing, matchingGnBrace source opening = some closing ↔
        IsBlock source opening closing) ∧
      (matchingGnBrace source opening = none ↔ ¬ ∃ closing, IsBlock source opening closing)) ∧
    (∀ start, Outside source start →
      (∀ index, nextGnOpenBrace source start = some index ↔
        OpeningAt source index ∧ start ≤ index ∧
          ∀ i, OpeningAt source i → start ≤ i → index ≤ i) ∧
      (nextGnOpenBrace source start = none ↔
        ¬ ∃ index, OpeningAt source index ∧ start ≤ index)) := by
  refine ⟨fun opening hopen => ⟨fun closing => matchingGnBrace_iff hopen, ?_⟩,
    fun start hout => ?_⟩
  · rw [Option.eq_none_iff_forall_ne_some]
    exact ⟨fun h ⟨closing, hblock⟩ => h closing ((matchingGnBrace_iff hopen).mpr hblock),
      fun h closing hsome => h ⟨closing, (matchingGnBrace_iff hopen).mp hsome⟩⟩
  · have hspec := nextGnOpenBrace_spec hout
    cases hnext : nextGnOpenBrace source start with
    | none =>
      rw [hnext] at hspec
      refine ⟨fun index => ⟨nofun, fun h => absurd h.2.1 (hspec index h.1)⟩,
        fun _ ⟨index, hindex, hle⟩ => hspec index hindex hle, fun _ => rfl⟩
    | some first =>
      rw [hnext] at hspec
      obtain ⟨hfirst, hle, hleast⟩ := hspec
      refine ⟨fun index => ⟨fun h => ?_, fun h => ?_⟩, nofun,
        fun h => absurd ⟨first, hfirst, hle⟩ h⟩
      · cases h
        exact ⟨hfirst, hle, hleast⟩
      · have heq := Nat.le_antisymm (hleast index h.1 h.2.1) (h.2.2 first hfirst hle)
        rw [heq]

/-- Braces in a string and in a comment. -/
def quotedBraces : Text := "g(\"\x7b\\\"\") \x7b # \x7d\n\x7b \x7d \x7d".toList

theorem braces_of_tokens_quoted :
    IsBlock quotedBraces 9 19 ∧ OpeningAt quotedBraces 9 ∧
      ∀ i, OpeningAt quotedBraces i → 2 ≤ i → 9 ≤ i := by
  have htokens : tokens quotedBraces =
      (tokens quotedBraces).take 5 ++ .opening :: (tokens quotedBraces).drop 6 := by
    decide +kernel
  have hout : Outside quotedBraces 2 :=
    outside_between (List.take_append_drop 2 (tokens quotedBraces)).symm
  have hnext := (((braces_of_tokens quotedBraces).2 2 hout).1 9).mp (by decide +kernel)
  have hopen : OpeningAt quotedBraces 9 := ⟨_, _, htokens, by decide +kernel⟩
  exact ⟨(((braces_of_tokens quotedBraces).1 9 hopen).1 19).mp (by decide +kernel), hopen,
    hnext.2.2⟩

end TokioCronet.GnBlocks
