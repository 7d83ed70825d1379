import Mathlib.Algebra.GroupWithZero.Nat
import Mathlib.Data.List.Induction
import TokioCronet.Sse.Parser

/-!
# Chunk boundaries

What the parser makes of a stream depends only on the lines it reads, so a way of
splitting the stream matters only if it changes them. It can do so in two ways:

* a boundary between a CR and its LF ends the line at the CR, and the LF makes a
  blank line of its own;
* every push removes a byte-order mark from the front of the buffer, and after the
  first line the buffer starts in the middle of the stream.

A split without such boundaries reads the lines of the whole stream, and any other
split reads different ones.
-/

namespace TokioCronet.Sse

open Scan

/-! ## Line ends -/

/-- A byte that ends a line. -/
def IsEol (byte : UInt8) : Prop := byte = lf ∨ byte = cr

instance : DecidablePred IsEol := fun byte => inferInstanceAs (Decidable (byte = lf ∨ byte = cr))

/-- Bytes that end no line. -/
def Unbroken (bytes : List UInt8) : Prop := ∀ byte ∈ bytes, ¬ IsEol byte

/-- What follows a line that ended at `eol`: a CR takes its LF along. -/
def afterEol (eol : UInt8) (rest : List UInt8) : List UInt8 :=
  if eol = cr ∧ rest.head? = some lf then rest.tail else rest

/-- The bytes are unbroken, or they have a first line end. -/
theorem unbroken_or_eol (bytes : List UInt8) :
    Unbroken bytes ∨ ∃ pre eol post, Unbroken pre ∧ IsEol eol ∧ bytes = pre ++ eol :: post := by
  induction bytes with
  | nil => exact .inl (by intro b hb; simp at hb)
  | cons b bytes ih =>
    by_cases hb : IsEol b
    · exact .inr ⟨[], b, bytes, by intro b hb; simp at hb, hb, rfl⟩
    · rcases ih with h | ⟨pre, eol, post, hpre, heol, rfl⟩
      · refine .inl ?_
        intro c hc
        rcases List.mem_cons.mp hc with rfl | hc
        · exact hb
        · exact h c hc
      · refine .inr ⟨b :: pre, eol, post, ?_, heol, rfl⟩
        intro c hc
        rcases List.mem_cons.mp hc with rfl | hc
        · exact hb
        · exact hpre c hc

theorem eol_test {b : UInt8} : (b == lf || b == cr) = true ↔ IsEol b := by
  simp [IsEol]

theorem findLineEnd_unbroken {bytes : List UInt8} (h : Unbroken bytes) :
    findLineEnd bytes = none := by
  have hidx : bytes.findIdx? (fun byte => byte == lf || byte == cr) = none := by
    rw [List.findIdx?_eq_none_iff]
    intro b hb
    have := h b hb
    rw [← eol_test] at this
    simpa using this
  rw [findLineEnd, hidx]
  rfl

theorem findIdx?_eol {pre post : List UInt8} {eol : UInt8} (hpre : Unbroken pre)
    (heol : IsEol eol) :
    (pre ++ eol :: post).findIdx? (fun byte => byte == lf || byte == cr) = some pre.length := by
  induction pre with
  | nil => simp [List.findIdx?_cons, eol_test.mpr heol]
  | cons b pre ih =>
    have hb : ¬ IsEol b := hpre b (List.mem_cons_self)
    have hrest : Unbroken pre := fun c hc => hpre c (List.mem_cons_of_mem _ hc)
    have hb' : (b == lf || b == cr) = false := by
      rw [← eol_test] at hb
      simpa using hb
    rw [List.cons_append, List.findIdx?_cons, hb', ih hrest]
    rfl

theorem trimLineEnding_eol {pre : List UInt8} {eol : UInt8} (hpre : Unbroken pre)
    (heol : IsEol eol) : trimLineEnding (pre ++ [eol]) = pre := by
  unfold trimLineEnding
  rw [List.reverse_append, List.reverse_singleton, List.singleton_append]
  rcases heol with rfl | rfl
  · rcases hrev : pre.reverse with _ | ⟨b, rest⟩
    · rw [List.reverse_eq_nil_iff.mp hrev]
      rfl
    · -- the byte before the LF is no CR
      have hb : b ≠ 13 := by
        rintro rfl
        refine hpre 13 ?_ (.inr rfl)
        rw [← List.mem_reverse, hrev]
        exact List.mem_cons_self
      have hpre' : pre = (b :: rest).reverse := by rw [← hrev, List.reverse_reverse]
      simp only [lf]
      split
      · rename_i heq
        rw [List.cons.injEq, List.cons.injEq] at heq
        exact absurd heq.2.1 hb
      · rename_i heq
        rw [List.cons.injEq] at heq
        rw [hpre', heq.2]
      · rename_i heq
        rw [List.cons.injEq] at heq
        exact absurd heq.1 (by decide)
      · rename_i _ h _
        exact (h (b :: rest) rfl).elim
  · simp [cr]

theorem trimLineEnding_crlf (pre : List UInt8) : trimLineEnding (pre ++ [cr, lf]) = pre := by
  unfold trimLineEnding
  rw [List.reverse_append]
  simp [cr, lf]

/-- The line is cut at its first line end. -/
theorem cut_eol {pre post : List UInt8} {eol : UInt8} (hpre : Unbroken pre) (heol : IsEol eol) :
    (findLineEnd (pre ++ eol :: post)).map (fun stop =>
      (trimLineEnding ((pre ++ eol :: post).take stop), (pre ++ eol :: post).drop stop)) =
    some (pre, afterEol eol post) := by
  have hget : (pre ++ eol :: post)[pre.length]? = some eol := by simp
  have hnext : (pre ++ eol :: post)[pre.length + 1]? = post.head? := by
    rw [List.getElem?_append_right (by omega)]
    simp [List.head?_eq_getElem?]
  rw [findLineEnd, findIdx?_eol hpre heol, Option.map_some, hget, hnext, Option.map_some]
  by_cases hcrlf : eol = cr ∧ post.head? = some lf
  · obtain ⟨rfl, hhead⟩ := hcrlf
    obtain ⟨post, rfl⟩ : ∃ t, post = lf :: t := by
      cases post with
      | nil => simp at hhead
      | cons b t =>
        rw [List.head?_cons, Option.some.injEq] at hhead
        exact ⟨t, by rw [hhead]⟩
    have htake : (pre ++ cr :: lf :: post).take (pre.length + 2) = pre ++ [cr, lf] := by
      rw [List.take_append, List.take_of_length_le (by omega)]
      simp
    have hdrop : (pre ++ cr :: lf :: post).drop (pre.length + 2) = post := by
      rw [List.drop_append]
      simp
    rw [if_pos ⟨rfl, rfl⟩, htake, hdrop, trimLineEnding_crlf, afterEol, if_pos ⟨rfl, rfl⟩]
    rfl
  · have htake : (pre ++ eol :: post).take (pre.length + 1) = pre ++ [eol] := by
      rw [List.take_append, List.take_of_length_le (by omega)]
      simp
    have hdrop : (pre ++ eol :: post).drop (pre.length + 1) = post := by
      rw [List.drop_append]
      simp
    have hcrlf' : ¬ (some eol = some cr ∧ post.head? = some lf) := by
      rwa [Option.some.injEq]
    rw [if_neg hcrlf', htake, hdrop, trimLineEnding_eol hpre heol, afterEol, if_neg hcrlf]

/-- The loop of `push` cuts lines. -/
def lines : Cutter UInt8 (List UInt8) where
  cut bytes := (findLineEnd bytes).map fun stop =>
    (trimLineEnding (bytes.take stop), bytes.drop stop)
  splits := by
    intro bytes line rest h
    rcases unbroken_or_eol bytes with hun | ⟨pre, eol, post, hpre, heol, rfl⟩
    · rw [findLineEnd_unbroken hun] at h
      simp at h
    · rw [cut_eol hpre heol, Option.some.injEq, Prod.mk.injEq] at h
      obtain ⟨-, rfl⟩ := h
      unfold afterEol
      split
      · rename_i hcrlf
        cases post with
        | nil => simp at hcrlf
        | cons b t => exact ⟨pre ++ [eol, b], by simp, by simp⟩
      · exact ⟨pre ++ [eol], by simp, by simp⟩

theorem lines_cut_eol {pre post : List UInt8} {eol : UInt8} (hpre : Unbroken pre)
    (heol : IsEol eol) : lines.cut (pre ++ eol :: post) = some (pre, afterEol eol post) :=
  cut_eol hpre heol

theorem lines_cut_unbroken {bytes : List UInt8} (h : Unbroken bytes) : lines.cut bytes = none := by
  simp only [lines, findLineEnd_unbroken h, Option.map_none]

theorem unbroken_of_cut_none {bytes : List UInt8} (h : lines.cut bytes = none) :
    Unbroken bytes := by
  rcases unbroken_or_eol bytes with hun | ⟨pre, eol, post, hpre, heol, rfl⟩
  · exact hun
  · rw [lines_cut_eol hpre heol] at h
    cases h

theorem scan_unbroken {bytes : List UInt8} (h : Unbroken bytes) :
    lines.scan bytes = ([], bytes) :=
  scan_of_none (lines_cut_unbroken h)

theorem scan_eol {pre post : List UInt8} {eol : UInt8} (hpre : Unbroken pre) (heol : IsEol eol) :
    lines.scan (pre ++ eol :: post) =
      (pre :: (lines.scan (afterEol eol post)).1, (lines.scan (afterEol eol post)).2) :=
  scan_of_some (lines_cut_eol hpre heol)

/-- What is left of a scan has no line end. -/
theorem unbroken_rest (bytes : List UInt8) : Unbroken (lines.scan bytes).2 :=
  unbroken_of_cut_none (cut_scan bytes)

theorem unbroken_scan (bytes : List UInt8) : ∀ line ∈ (lines.scan bytes).1, Unbroken line := by
  induction h : bytes.length using Nat.strongRecOn generalizing bytes with
  | ind n ih =>
    rcases unbroken_or_eol bytes with hun | ⟨pre, eol, post, hpre, heol, rfl⟩
    · rw [scan_unbroken hun]
      exact List.forall_mem_nil _
    · have hcut : lines.cut (pre ++ eol :: post) = some (pre, afterEol eol post) :=
        lines_cut_eol hpre heol
      have hlt := Cutter.shorter hcut
      rw [scan_eol hpre heol, List.forall_mem_cons]
      exact ⟨hpre, ih _ (h ▸ hlt) _ rfl⟩

/-- The line in progress after the bytes. -/
def openLine (bytes : List UInt8) : List UInt8 := (lines.scan bytes).2

/-- Only a boundary between CR and LF changes how a line is cut. -/
theorem lines_steady {seen chunk : List UInt8}
    (h : ¬ (seen.getLast? = some cr ∧ chunk.head? = some lf)) : lines.Steady seen chunk := by
  intro s line rest hs hcut
  rcases unbroken_or_eol s with hun | ⟨pre, eol, post, hpre, heol, rfl⟩
  · rw [lines_cut_unbroken hun] at hcut
    cases hcut
  · rw [lines_cut_eol hpre heol, Option.some.injEq, Prod.mk.injEq] at hcut
    obtain ⟨rfl, rfl⟩ := hcut
    rw [List.append_assoc, List.cons_append, lines_cut_eol hpre heol]
    have hafter : afterEol eol (post ++ chunk) = afterEol eol post ++ chunk := by
      cases post with
      | nil =>
        -- the line end is the last byte seen
        have hlast : seen.getLast? = some eol := by
          obtain ⟨t, rfl⟩ := hs
          simp
        have hcrlf : ¬ (eol = cr ∧ chunk.head? = some lf) := by
          rintro ⟨rfl, hhead⟩
          exact h ⟨hlast, hhead⟩
        rw [List.nil_append, afterEol, if_neg hcrlf, afterEol, if_neg (by simp), List.nil_append]
      | cons b post =>
        unfold afterEol
        rw [List.cons_append, List.head?_cons, List.head?_cons]
        split <;> rfl
    rw [hafter]

/-! ## A push reads lines -/

namespace SseParser

/-- Hand the lines to `push_line` one after another. -/
def readLines (p : SseParser) : List (List UInt8) → List ParseOutput × SseParser
  | [] => ([], p)
  | line :: rest =>
    ((p.pushLine line).1.toList ++ ((p.pushLine line).2.readLines rest).1,
      ((p.pushLine line).2.readLines rest).2)

/-- The lines a parser with the given buffer reads from the chunks, and its buffer
afterwards. -/
def linesOf (buffer : List UInt8) : List (List UInt8) → List (List UInt8) × List UInt8
  | [] => ([], buffer)
  | chunk :: chunks =>
    let scanned := lines.scan (stripBom (buffer ++ chunk))
    (scanned.1 ++ (linesOf scanned.2 chunks).1, (linesOf scanned.2 chunks).2)

theorem readLines_append (p : SseParser) (ls ls' : List (List UInt8)) :
    p.readLines (ls ++ ls') = ((p.readLines ls).1 ++ ((p.readLines ls).2.readLines ls').1,
      ((p.readLines ls).2.readLines ls').2) := by
  induction ls generalizing p with
  | nil => simp [readLines]
  | cons l ls ih => simp [readLines, ih]

/-- A line is read without a look at the buffer. -/
theorem pushLine_buffer (p : SseParser) (buffer line : List UInt8) :
    ({ p with buffer := buffer }).pushLine line =
      ((p.pushLine line).1, { (p.pushLine line).2 with buffer := buffer }) := by
  unfold pushLine dispatch
  dsimp only
  repeat' split
  all_goals rfl

theorem readLines_buffer (p : SseParser) (buffer : List UInt8) (ls : List (List UInt8)) :
    ({ p with buffer := buffer }).readLines ls =
      ((p.readLines ls).1, { (p.readLines ls).2 with buffer := buffer }) := by
  induction ls generalizing p with
  | nil => rfl
  | cons l ls ih =>
    rw [readLines, readLines, pushLine_buffer]
    dsimp only
    rw [ih]

theorem pushLines_eq (n : ℕ) : ∀ p : SseParser, p.buffer.length ≤ n →
    pushLines n p = ((p.readLines (lines.scan p.buffer).1).1,
      { (p.readLines (lines.scan p.buffer).1).2 with buffer := (lines.scan p.buffer).2 }) := by
  induction n with
  | zero =>
    intro p hn
    have hnil : p.buffer = [] := List.eq_nil_of_length_eq_zero (Nat.le_zero.mp hn)
    rw [hnil, scan_unbroken (by intro b hb; simp at hb), pushLines, readLines]
    dsimp only
    rw [← hnil]
  | succ n ih =>
    intro p hn
    rw [pushLines]
    cases hfind : findLineEnd p.buffer with
    | none =>
      have hcut : lines.cut p.buffer = none := by simp only [lines, hfind, Option.map_none]
      rw [scan_of_none hcut]
      rfl
    | some stop =>
      have hcut : lines.cut p.buffer =
          some (trimLineEnding (p.buffer.take stop), p.buffer.drop stop) := by
        simp only [lines, hfind, Option.map_some]
      have hlt := Cutter.shorter hcut
      rw [scan_of_some hcut]
      dsimp only
      rw [pushLine_buffer]
      dsimp only
      rw [ih _ (by dsimp only; omega)]
      dsimp only
      rw [readLines_buffer, readLines]

/-- **A push is its lines.** -/
theorem push_eq (p : SseParser) (chunk : List UInt8) :
    p.push chunk = ((p.readLines (linesOf p.buffer [chunk]).1).1,
      { (p.readLines (linesOf p.buffer [chunk]).1).2 with
        buffer := (linesOf p.buffer [chunk]).2 }) := by
  have h := pushLines_eq (stripBom (p.buffer ++ chunk)).length
    { p with buffer := stripBom (p.buffer ++ chunk) } (Nat.le_refl _)
  rw [readLines_buffer] at h
  rw [push, h]
  simp [linesOf]

/-- **Feeding chunks is reading their lines.** -/
theorem feed_eq (p : SseParser) (chunks : List (List UInt8)) :
    p.feed chunks = ((p.readLines (linesOf p.buffer chunks).1).1,
      { (p.readLines (linesOf p.buffer chunks).1).2 with
        buffer := (linesOf p.buffer chunks).2 }) := by
  induction chunks generalizing p with
  | nil => rfl
  | cons chunk chunks ih =>
    rw [feed, push_eq]
    dsimp only
    rw [ih]
    simp only [linesOf, List.append_nil, readLines_append, readLines_buffer]

theorem linesOf_snoc (buffer : List UInt8) (chunks : List (List UInt8)) (chunk : List UInt8) :
    linesOf buffer (chunks ++ [chunk]) =
      ((linesOf buffer chunks).1 ++ (lines.scan (stripBom ((linesOf buffer chunks).2 ++ chunk))).1,
        (lines.scan (stripBom ((linesOf buffer chunks).2 ++ chunk))).2) := by
  induction chunks generalizing buffer with
  | nil => simp [linesOf]
  | cons c chunks ih => simp [linesOf, ih]

end SseParser

/-! ## What a split may not separate -/

open SseParser

/-- A boundary between what has been seen and the next chunk which leaves the lines
of the stream alone. -/
structure CleanBoundary (seen chunk : List UInt8) : Prop where
  /-- It does not separate a CR from its LF. -/
  lineEnd : ¬ (seen.getLast? = some cr ∧ chunk.head? = some lf)
  /-- A byte-order mark that the chunk completes, or finds, at the front of the line
  in progress is the one at the front of the stream. -/
  mark : bom <+: openLine (stripBom seen) ++ chunk → openLine (stripBom seen) = seen

/-- Every boundary of the split is clean. -/
def CleanSplit (chunks : List (List UInt8)) : Prop :=
  ∀ pre chunk post, chunks = pre ++ chunk :: post → CleanBoundary pre.flatten chunk

theorem cleanSplit_snoc {chunks : List (List UInt8)} {chunk : List UInt8} :
    CleanSplit (chunks ++ [chunk]) ↔ CleanSplit chunks ∧ CleanBoundary chunks.flatten chunk := by
  constructor
  · intro h
    refine ⟨?_, h chunks chunk [] rfl⟩
    rintro pre c post rfl
    exact h pre c (post ++ [chunk]) (by simp)
  · rintro ⟨h, hlast⟩ pre c post heq
    rcases List.eq_nil_or_concat post with rfl | ⟨post', d, rfl⟩
    · obtain ⟨rfl, hc⟩ := List.append_inj' heq rfl
      obtain rfl : chunk = c := by simpa using hc
      exact hlast
    · have heq' : chunks ++ [chunk] = (pre ++ c :: post') ++ [d] := by simpa using heq
      obtain ⟨rfl, -⟩ := List.append_inj' heq' rfl
      exact h pre c post' rfl

theorem stripBom_bom (bytes : List UInt8) : stripBom (bom ++ bytes) = bytes := by
  simp [stripBom, bom]

theorem stripBom_of_not {bytes : List UInt8} (h : ¬ bom <+: bytes) : stripBom bytes = bytes := by
  rw [← List.isPrefixOf_iff_prefix] at h
  rw [stripBom, if_neg h]

theorem unbroken_bom : Unbroken bom := by
  intro b hb hbad
  simp only [bom, List.mem_cons, List.not_mem_nil, or_false] at hb
  rcases hb with rfl | rfl | rfl <;> rcases hbad with h | h <;> exact absurd h (by decide)

theorem unbroken_of_bom {bytes : List UInt8} (h : bytes <+: bom) : Unbroken bytes :=
  fun b hb => unbroken_bom b (h.subset hb)

/-- Once the mark at the front of the stream can be told, more bytes change nothing;
before that all there is is the front of a mark. -/
theorem stripBom_append (seen chunk : List UInt8) :
    stripBom (seen ++ chunk) = stripBom seen ++ chunk ∨
      (bom <+: seen ++ chunk ∧ seen <+: bom ∧ ¬ bom <+: seen) := by
  by_cases hseen : bom <+: seen
  · obtain ⟨rest, rfl⟩ := hseen
    left
    rw [List.append_assoc, stripBom_bom, stripBom_bom]
  · by_cases hall : bom <+: seen ++ chunk
    · right
      have hpre : seen <+: bom := by
        rcases List.prefix_or_prefix_of_prefix hall (List.prefix_append seen chunk) with h | h
        · exact absurd h hseen
        · exact h
      exact ⟨hall, hpre, hseen⟩
    · left
      rw [stripBom_of_not hseen, stripBom_of_not hall]

/-! ## A clean split reads the lines of the stream -/

theorem getLast?_stripBom {seen : List UInt8} (h : (stripBom seen).getLast? = some cr) :
    seen.getLast? = some cr := by
  by_cases hseen : bom <+: seen
  · obtain ⟨rest, rfl⟩ := hseen
    rw [stripBom_bom] at h
    rw [List.getLast?_append, h]
    rfl
  · rwa [stripBom_of_not hseen] at h

theorem linesOf_clean {chunks : List (List UInt8)} (h : CleanSplit chunks) :
    linesOf [] chunks = lines.scan (stripBom chunks.flatten) := by
  induction chunks using List.reverseRec with
  | nil => rfl
  | append_singleton chunks chunk ih =>
    obtain ⟨hchunks, hlast⟩ := cleanSplit_snoc.mp h
    have hflat : (chunks ++ [chunk]).flatten = chunks.flatten ++ chunk := by simp
    rw [linesOf_snoc, ih hchunks, hflat]
    rcases stripBom_append chunks.flatten chunk with happ | ⟨hall, hpre, hnot⟩
    · have hmark : stripBom ((lines.scan (stripBom chunks.flatten)).2 ++ chunk) =
          (lines.scan (stripBom chunks.flatten)).2 ++ chunk := by
        refine stripBom_of_not ?_
        intro hbom
        -- then all that was seen is the front of the mark, and it is not yet stripped
        have hopen := hlast.mark hbom
        rw [openLine] at hopen
        rw [hopen] at hbom
        have hlen : (stripBom chunks.flatten).length ≤ chunks.flatten.length := by
          unfold stripBom
          split
          · rw [List.length_drop]
            omega
          · exact Nat.le_refl _
        obtain ⟨rest, hrest⟩ := hbom
        rw [← hrest, stripBom_bom] at happ
        have hlen' := congrArg List.length happ
        have hsuf := (scan_suffix (k := lines) (stripBom chunks.flatten)).length_le
        rw [hopen] at hsuf
        have htot := congrArg List.length hrest
        simp only [List.length_append, bom, List.length_cons, List.length_nil] at hlen' htot
        omega
      have hsteady : lines.Steady (stripBom chunks.flatten) chunk := by
        refine lines_steady ?_
        rintro ⟨hcr, hlf⟩
        exact hlast.lineEnd ⟨getLast?_stripBom hcr, hlf⟩
      rw [happ, hmark, scan_append hsteady]
    · rw [stripBom_of_not hnot, scan_unbroken (unbroken_of_bom hpre)]
      rfl

/-! ## Any other split reads other lines -/

/-- How many lines the bytes end: a CR counts unless its LF follows. -/
def lineEnds : List UInt8 → ℕ
  | [] => 0
  | b :: rest => (if b = lf ∨ b = cr ∧ rest.head? ≠ some lf then 1 else 0) + lineEnds rest

/-- The bytes without their line ends. -/
def text (bytes : List UInt8) : List UInt8 := bytes.filter fun b => ¬ IsEol b

/-- The bytes of some lines and of a line in progress. -/
def weight (read : List (List UInt8) × List UInt8) : ℕ := (read.1.flatten ++ read.2).length

theorem lineEnds_unbroken {pre : List UInt8} (h : Unbroken pre) (rest : List UInt8) :
    lineEnds (pre ++ rest) = lineEnds rest := by
  induction pre with
  | nil => rfl
  | cons b pre ih =>
    have hb : ¬ IsEol b := h b List.mem_cons_self
    have hno : ¬ (b = lf ∨ b = cr ∧ (pre ++ rest).head? ≠ some lf) := by
      rintro (rfl | ⟨rfl, -⟩)
      · exact hb (.inl rfl)
      · exact hb (.inr rfl)
    rw [List.cons_append, lineEnds, if_neg hno, ih fun c hc => h c (List.mem_cons_of_mem _ hc)]
    exact Nat.zero_add _

theorem lineEnds_eol {eol : UInt8} (h : IsEol eol) (post : List UInt8) :
    lineEnds (eol :: post) = lineEnds (afterEol eol post) + 1 := by
  rw [lineEnds, afterEol]
  by_cases hcrlf : eol = cr ∧ post.head? = some lf
  · obtain ⟨rfl, hhead⟩ := hcrlf
    obtain ⟨post, rfl⟩ : ∃ t, post = lf :: t := by
      cases post with
      | nil => simp at hhead
      | cons b t =>
        rw [List.head?_cons, Option.some.injEq] at hhead
        exact ⟨t, by rw [hhead]⟩
    rw [if_neg (by simp [cr, lf]), if_pos ⟨rfl, rfl⟩, lineEnds, if_pos (.inl rfl), List.tail_cons]
    omega
  · have hends : eol = lf ∨ eol = cr ∧ post.head? ≠ some lf := by
      rcases h with rfl | rfl
      · exact .inl rfl
      · exact .inr ⟨rfl, fun hhead => hcrlf ⟨rfl, hhead⟩⟩
    rw [if_pos hends, if_neg hcrlf]
    omega

theorem lineEnds_singleton (b : UInt8) : lineEnds [b] = if IsEol b then 1 else 0 := by
  by_cases h : IsEol b
  · rw [if_pos h, lineEnds, if_pos (h.imp_right fun hcr => ⟨hcr, by simp⟩)]
    rfl
  · rw [if_neg h, lineEnds, if_neg (fun hbad => h (hbad.imp_right And.left))]
    rfl

/-- A boundary costs a line end exactly if it separates a CR from its LF. -/
theorem lineEnds_append (seen chunk : List UInt8) :
    lineEnds (seen ++ chunk) +
        (if seen.getLast? = some cr ∧ chunk.head? = some lf then 1 else 0) =
      lineEnds seen + lineEnds chunk := by
  induction seen with
  | nil => simp [lineEnds]
  | cons b seen ih =>
    cases seen with
    | nil =>
      rw [lineEnds_singleton, List.singleton_append, lineEnds, List.getLast?_singleton]
      by_cases hlf : b = lf
      · have hcr : ¬ (some b = some cr ∧ chunk.head? = some lf) := by
          rintro ⟨h, -⟩
          rw [hlf] at h
          exact absurd h (by decide)
        rw [if_pos (.inl hlf), if_neg hcr, if_pos (show IsEol b from .inl hlf),
          Nat.add_zero]
      · by_cases hcr : b = cr
        · rw [if_pos (show IsEol b from .inr hcr)]
          by_cases hhead : chunk.head? = some lf
          · rw [if_neg (by rintro (h | h); exacts [hlf h, h.2 hhead]),
              if_pos ⟨congrArg some hcr, hhead⟩]
            omega
          · rw [if_pos (.inr ⟨hcr, hhead⟩), if_neg (fun h => hhead h.2), Nat.add_zero]
        · have hnone : ¬ (some b = some cr ∧ chunk.head? = some lf) := by
            rintro ⟨h, -⟩
            exact hcr (Option.some.inj h)
          rw [if_neg (by rintro (h | h); exacts [hlf h, hcr h.1]), if_neg hnone,
            if_neg (show ¬ IsEol b by rintro (h | h); exacts [hlf h, hcr h]), Nat.add_zero]
    | cons c seen =>
      rw [List.getLast?_cons_cons, List.cons_append, lineEnds, lineEnds]
      rw [List.cons_append, List.head?_cons, List.head?_cons]
      rw [List.cons_append] at ih
      omega

theorem scan_length (bytes : List UInt8) : (lines.scan bytes).1.length = lineEnds bytes := by
  induction hn : bytes.length using Nat.strongRecOn generalizing bytes with
  | ind n ih =>
    rcases unbroken_or_eol bytes with hun | ⟨pre, eol, post, hpre, heol, rfl⟩
    · rw [scan_unbroken hun]
      have h := lineEnds_unbroken hun []
      rw [List.append_nil] at h
      rw [h]
      rfl
    · have hcut : lines.cut (pre ++ eol :: post) = some (pre, afterEol eol post) :=
        lines_cut_eol hpre heol
      have hlt := Cutter.shorter hcut
      rw [scan_eol hpre heol, lineEnds_unbroken hpre, lineEnds_eol heol, List.length_cons,
        ih _ (hn ▸ hlt) _ rfl]

theorem text_unbroken {bytes : List UInt8} (h : Unbroken bytes) : text bytes = bytes := by
  rw [text, List.filter_eq_self]
  intro b hb
  simpa using h b hb

theorem text_append (seen chunk : List UInt8) : text (seen ++ chunk) = text seen ++ text chunk :=
  List.filter_append _ _

theorem text_eol {eol : UInt8} (h : IsEol eol) (post : List UInt8) :
    text (eol :: post) = text (afterEol eol post) := by
  have hdrop : text (eol :: post) = text post := by
    rw [text, List.filter_cons_of_neg (by simpa using h)]
    rfl
  rw [hdrop, afterEol]
  split
  · rename_i hcrlf
    cases post with
    | nil => rfl
    | cons b t =>
      obtain rfl : b = lf := by simpa using hcrlf.2
      rw [text, List.filter_cons_of_neg (by simp [IsEol])]
      rfl
  · rfl

/-- A scan drops line ends and nothing else. -/
theorem scan_weight (bytes : List UInt8) : weight (lines.scan bytes) = (text bytes).length := by
  induction hn : bytes.length using Nat.strongRecOn generalizing bytes with
  | ind n ih =>
    rcases unbroken_or_eol bytes with hun | ⟨pre, eol, post, hpre, heol, rfl⟩
    · rw [scan_unbroken hun, text_unbroken hun]
      rfl
    · have hcut : lines.cut (pre ++ eol :: post) = some (pre, afterEol eol post) :=
        lines_cut_eol hpre heol
      have hlt := Cutter.shorter hcut
      have hrest := ih _ (hn ▸ hlt) (afterEol eol post) rfl
      rw [scan_eol hpre heol, text_append, text_unbroken hpre, text_eol heol]
      simp only [weight, List.flatten_cons, List.length_append] at hrest ⊢
      omega

theorem lineEnds_stripBom (bytes : List UInt8) : lineEnds (stripBom bytes) = lineEnds bytes := by
  by_cases h : bom <+: bytes
  · obtain ⟨rest, rfl⟩ := h
    rw [stripBom_bom, lineEnds_unbroken unbroken_bom]
  · rw [stripBom_of_not h]

theorem text_stripBom_le (bytes : List UInt8) :
    (text (stripBom bytes)).length ≤ (text bytes).length := by
  by_cases h : bom <+: bytes
  · obtain ⟨rest, rfl⟩ := h
    rw [stripBom_bom, text_append, List.length_append]
    omega
  · exact Nat.le_of_eq (by rw [stripBom_of_not h])

/-- A mark that is stripped is missing in the lines. -/
theorem text_stripBom_lt {bytes : List UInt8} (h : bom <+: bytes) :
    (text (stripBom bytes)).length < (text bytes).length := by
  obtain ⟨rest, rfl⟩ := h
  rw [stripBom_bom, text_append, List.length_append, text_unbroken unbroken_bom]
  simp [bom]

theorem unbroken_linesOf (chunks : List (List UInt8)) : Unbroken (linesOf [] chunks).2 := by
  induction chunks using List.reverseRec with
  | nil => intro b hb; simp [linesOf] at hb
  | append_singleton chunks chunk _ =>
    rw [linesOf_snoc]
    exact unbroken_rest _

/-- Every chunk gives as many lines as it would alone. -/
theorem linesOf_length (chunks : List (List UInt8)) :
    (linesOf [] chunks).1.length = (chunks.map lineEnds).sum := by
  induction chunks using List.reverseRec with
  | nil => rfl
  | append_singleton chunks chunk ih =>
    rw [linesOf_snoc, List.length_append, ih, scan_length, lineEnds_stripBom,
      lineEnds_unbroken (unbroken_linesOf chunks)]
    simp

theorem lineEnds_flatten_le (chunks : List (List UInt8)) :
    lineEnds chunks.flatten ≤ (chunks.map lineEnds).sum := by
  induction chunks using List.reverseRec with
  | nil => exact Nat.le_refl _
  | append_singleton chunks chunk ih =>
    have h := lineEnds_append chunks.flatten chunk
    simp only [List.flatten_append, List.flatten_singleton, List.map_append, List.sum_append,
      List.map_singleton, List.sum_singleton]
    omega

theorem linesOf_weight (chunks : List (List UInt8)) (chunk : List UInt8) :
    weight (linesOf [] (chunks ++ [chunk])) =
      (linesOf [] chunks).1.flatten.length +
        (text (stripBom ((linesOf [] chunks).2 ++ chunk))).length := by
  rw [← scan_weight, linesOf_snoc]
  simp only [weight, List.flatten_append, List.length_append]
  omega

theorem text_buffer (chunks : List (List UInt8)) (chunk : List UInt8) :
    (linesOf [] chunks).1.flatten.length + (text ((linesOf [] chunks).2 ++ chunk)).length =
      weight (linesOf [] chunks) + (text chunk).length := by
  rw [text_append, text_unbroken (unbroken_linesOf chunks)]
  simp only [weight, List.length_append]
  omega

/-- The front of a mark is all buffer, however it is split. -/
theorem cleanSplit_of_bom {chunks : List (List UInt8)} (h : chunks.flatten <+: bom)
    (hnot : ¬ bom <+: chunks.flatten) : CleanSplit chunks := by
  rintro pre chunk post rfl
  have hpre : pre.flatten ++ chunk <+: bom := by
    refine List.IsPrefix.trans ?_ h
    exact ⟨post.flatten, by simp⟩
  have hfront : pre.flatten <+: bom := (List.prefix_append _ _).trans hpre
  have hun : Unbroken pre.flatten := unbroken_of_bom hfront
  have hnot' : ¬ bom <+: pre.flatten := by
    intro hbad
    refine hnot (hbad.trans ?_)
    exact ⟨chunk ++ post.flatten, by simp⟩
  refine ⟨?_, fun _ => ?_⟩
  · rintro ⟨hcr, -⟩
    exact hun cr (List.mem_of_getLast? hcr) (.inr rfl)
  · rw [openLine, stripBom_of_not hnot', scan_unbroken hun]

theorem linesOf_weight_le (chunks : List (List UInt8)) :
    weight (linesOf [] chunks) ≤ (text (stripBom chunks.flatten)).length := by
  induction chunks using List.reverseRec with
  | nil => exact Nat.le_refl _
  | append_singleton chunks chunk ih =>
    have hflat : (chunks ++ [chunk]).flatten = chunks.flatten ++ chunk := by simp
    rw [hflat, linesOf_weight]
    rcases stripBom_append chunks.flatten chunk with happ | ⟨hall, hpre, hnot⟩
    · have hle := text_stripBom_le ((linesOf [] chunks).2 ++ chunk)
      have hbuf := text_buffer chunks chunk
      rw [happ, text_append, List.length_append]
      omega
    · -- the front of the mark is still in the buffer, so the whole mark is stripped
      rw [linesOf_clean (cleanSplit_of_bom hpre hnot), stripBom_of_not hnot,
        scan_unbroken (unbroken_of_bom hpre)]
      simp

/-- **Reading the lines of the stream makes a split clean.** -/
theorem cleanSplit_of_linesOf {chunks : List (List UInt8)}
    (hends : (chunks.map lineEnds).sum = lineEnds chunks.flatten)
    (hweight : weight (linesOf [] chunks) = (text (stripBom chunks.flatten)).length) :
    CleanSplit chunks := by
  induction chunks using List.reverseRec with
  | nil =>
    intro pre chunk post heq
    simp at heq
  | append_singleton chunks chunk ih =>
    have hflat : (chunks ++ [chunk]).flatten = chunks.flatten ++ chunk := by simp
    have hcost := lineEnds_append chunks.flatten chunk
    have hle := lineEnds_flatten_le chunks
    rw [hflat] at hends hweight
    simp only [List.map_append, List.sum_append, List.map_singleton, List.sum_singleton] at hends
    have hline : ¬ (chunks.flatten.getLast? = some cr ∧ chunk.head? = some lf) := by
      intro hbad
      rw [if_pos hbad] at hcost
      omega
    rw [if_neg hline] at hcost
    rw [cleanSplit_snoc]
    rw [linesOf_weight] at hweight
    rcases stripBom_append chunks.flatten chunk with happ | ⟨-, hpre, hnot⟩
    · have hstrip := text_stripBom_le ((linesOf [] chunks).2 ++ chunk)
      have hbuf := text_buffer chunks chunk
      have hbound := linesOf_weight_le chunks
      rw [happ, text_append, List.length_append] at hweight
      have hclean := ih (by omega) (by omega)
      refine ⟨hclean, hline, ?_⟩
      intro hbom
      have hlt := text_stripBom_lt hbom
      rw [linesOf_clean hclean] at hstrip hbuf hweight hbound
      rw [openLine] at hlt
      omega
    · refine ⟨cleanSplit_of_bom hpre hnot, hline, fun _ => ?_⟩
      rw [openLine, stripBom_of_not hnot, scan_unbroken (unbroken_of_bom hpre)]

/-! ## The parser over chunks -/

/-- **Chunks are harmless exactly while they leave the lines alone.** A split at
whose boundaries no CR is separated from its LF and no second byte-order mark comes to
the front of the buffer gives the items and the last id of the whole stream; the other
splits are the ones that make the parser read other lines. -/
theorem feed_chunks (chunks : List (List UInt8)) :
    (CleanSplit chunks →
      (({} : SseParser).feed chunks).1 = (({} : SseParser).push chunks.flatten).1 ∧
      (({} : SseParser).feed chunks).2.lastId =
        (({} : SseParser).push chunks.flatten).2.lastId) ∧
    (CleanSplit chunks ↔ linesOf [] chunks = linesOf [] [chunks.flatten]) := by
  have hwhole : linesOf [] [chunks.flatten] = lines.scan (stripBom chunks.flatten) := by
    simp [linesOf]
  have hiff : CleanSplit chunks ↔ linesOf [] chunks = linesOf [] [chunks.flatten] := by
    constructor
    · intro h
      rw [linesOf_clean h, hwhole]
    · intro h
      rw [hwhole] at h
      refine cleanSplit_of_linesOf ?_ ?_
      · rw [← linesOf_length, h, scan_length, lineEnds_stripBom]
      · rw [h, scan_weight]
  refine ⟨fun h => ?_, hiff⟩
  rw [feed_eq, push_eq]
  dsimp only
  rw [hiff.mp h]
  exact ⟨rfl, rfl⟩

/-- A split inside the mark at the front, inside a character and after a CR that no
LF follows. -/
theorem feed_chunks_mark :
    (({} : SseParser).feed [[0xEF], [0xBB, 0xBF] ++ str "data:" ++ [0xC3], [0xA9, 13],
      str "id:7\r\r"]).1 =
      [.event { id := some (str "7"), event := str "message", data := [0xC3, 0xA9] }] := by
  refine ((feed_chunks _).1 ((feed_chunks _).2.mpr ?_)).1.trans ?_
  · decide +kernel
  · decide +kernel

/-- A CR LF in two chunks tears an event apart, and so does a mark that a chunk
starts with. -/
theorem event_torn :
    (({} : SseParser).feed [str "data:x\r", str "\ndata:y\n\n"]).1 ≠
      (({} : SseParser).push (str "data:x\r" ++ str "\ndata:y\n\n")).1 ∧
    (({} : SseParser).feed [str "\n", bom ++ str "data:x\n\n"]).1 ≠
      (({} : SseParser).push (str "\n" ++ (bom ++ str "data:x\n\n"))).1 := by
  decide +kernel

end TokioCronet.Sse
