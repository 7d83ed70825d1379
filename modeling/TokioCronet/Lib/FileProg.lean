import TokioCronet.Lib.FileTree

/-!
# Programs that change a tree of files

A program looks at the tree, makes system calls and stops at the first error that it does not
handle. The calls it has made are kept, each with the tree that it was made on. `Makes` says
which calls a program makes; there is one rule for each way to build a program.
-/

namespace FileTree

/-- What is left to the operating system. -/
structure Os where
  /-- How many links a path may lead through after the first. -/
  links : Nat
  /-- The order of the entries of a directory. -/
  order : List Name → List Name
  /-- Every entry is listed once. -/
  order_perm : ∀ names, (order names).Perm names
  /-- A call may be refused, for want of a permission or of space. -/
  refuses : List Change → Op → Path → Option IoError

/-- A tree, and the calls that have led to it. -/
structure World where
  tree : Tree
  log : List Change

/-- The calls so far came upon no link. -/
def World.Direct (w : World) : Prop := ∀ c ∈ w.log, c.Direct

/-- A program over a tree. -/
def Prog (ε α : Type) := World → Except ε α × World

namespace Prog

variable {ε ε' α β : Type}

instance : Monad (Prog ε) where
  pure a := fun w => (.ok a, w)
  bind m k := fun w =>
    match m w with
    | (.ok a, w') => k a w'
    | (.error e, w') => (.error e, w')

/-- Stops. -/
def fail (e : ε) : Prog ε α := fun w => (.error e, w)

/-- Looks at the tree. -/
def look (f : Tree → Except ε α) : Prog ε α := fun w => (f w.tree, w)

/-- Makes a system call. -/
def call (os : Os) (op : Op) (path : Path) : Prog IoError Unit := fun w =>
  match os.refuses w.log op path with
  | some e => (.error e, w)
  | none =>
    match w.tree.apply (os.links + 1) op path with
    | .ok t => (.ok (), ⟨t, w.log ++ [⟨op, path, w.tree⟩]⟩)
    | .error e => (.error e, w)

/-- `Result::map_err` -/
def mapErr (f : ε → ε') (m : Prog ε α) : Prog ε' α := fun w =>
  match m w with
  | (.ok a, w') => (.ok a, w')
  | (.error e, w') => (.error (f e), w')

/-- The result as a value. -/
def attempt (m : Prog ε α) : Prog ε' (Except ε α) := fun w => (.ok (m w).1, (m w).2)

/-- An `if` without an `else`. -/
def onlyIf (condition : Bool) (m : Prog ε Unit) : Prog ε Unit :=
  if condition then m else pure ()

/-- A `for` loop. -/
def forEach (f : α → Prog ε Unit) : List α → Prog ε Unit
  | [] => pure ()
  | a :: l => do
    f a
    forEach f l

/-- The directories of a path, from the last one, are made as far as they are missing. -/
def createDirs (os : Os) : Path → Prog IoError Unit
  | [] => pure ()
  | n :: above => do
    let path := (n :: above).reverse
    match ← attempt (call os .createDir path) with
    | .ok () => pure ()
    | .error e =>
      if e = .notFound then
        createDirs os above
        match ← attempt (call os .createDir path) with
        | .ok () => pure ()
        | .error e =>
          let isDir ← look fun t => .ok (t.isDir (os.links + 1) path)
          if isDir then pure () else fail e
      else
        let isDir ← look fun t => .ok (t.isDir (os.links + 1) path)
        if isDir then pure () else fail e

/-- `fs::create_dir_all` -/
def createDirAll (os : Os) (path : Path) : Prog IoError Unit := createDirs os path.reverse

/-! ## The calls of a program -/

variable {os : Os} {A B : Change → Prop} {w w' : World}

/-- The calls that the program makes here are all of this kind. -/
def Makes (os : Os) (A : Change → Prop) (m : Prog ε α) (w : World) : Prop :=
  ∃ cs, (m w).2.log = w.log ++ cs ∧ Chain (os.links + 1) w.tree cs (m w).2.tree ∧ ∀ c ∈ cs, A c

theorem Makes.none {m : Prog ε α} (h : (m w).2 = w) : Makes os A m w := by
  refine ⟨[], ?_, ?_, List.forall_mem_nil _⟩
  · rw [h, List.append_nil]
  · rw [h]
    exact .nil

theorem Makes.pure {a : α} : Makes os A (pure a : Prog ε α) w := .none rfl

theorem Makes.fail {e : ε} : Makes os A (fail e : Prog ε α) w := .none rfl

theorem Makes.look {f : Tree → Except ε α} : Makes os A (look f) w := .none rfl

theorem Makes.mono {m : Prog ε α} (h : Makes os A m w) (hab : ∀ c, A c → B c) :
    Makes os B m w := by
  obtain ⟨cs, hlog, hchain, hcs⟩ := h
  exact ⟨cs, hlog, hchain, fun c hc => hab c (hcs c hc)⟩

theorem bind_ok {m : Prog ε α} {k : α → Prog ε β} {a : α} (h : m w = (.ok a, w')) :
    (m >>= k) w = k a w' := by
  change (match m w with
    | (.ok a, w') => k a w'
    | (.error e, w') => (.error e, w')) = _
  rw [h]

theorem bind_error {m : Prog ε α} {k : α → Prog ε β} {e : ε} (h : m w = (.error e, w')) :
    (m >>= k) w = (.error e, w') := by
  change (match m w with
    | (.ok a, w') => k a w'
    | (.error e, w') => (.error e, w')) = _
  rw [h]

/-- A program that comes to its end has gone through both its parts. -/
theorem ok_of_bind {m : Prog ε α} {k : α → Prog ε β} {b : β} (h : (m >>= k) w = (.ok b, w')) :
    ∃ a w₁, m w = (.ok a, w₁) ∧ k a w₁ = (.ok b, w') := by
  rcases hm : m w with ⟨_ | a, w₁⟩
  · rw [bind_error hm] at h
    cases h
  · rw [bind_ok hm] at h
    exact ⟨a, w₁, rfl, h⟩

theorem Makes.bind {m : Prog ε α} {k : α → Prog ε β} (hm : Makes os A m w)
    (hk : ∀ a w', m w = (.ok a, w') → Makes os A (k a) w') : Makes os A (m >>= k) w := by
  rcases hmw : m w with ⟨_ | a, w'⟩
  · unfold Makes at hm ⊢
    rw [bind_error hmw]
    rwa [hmw] at hm
  · obtain ⟨cs, hlog, hchain, hcs⟩ := hm
    obtain ⟨ds, hlog', hchain', hds⟩ := hk a w' hmw
    rw [hmw] at hlog hchain
    refine ⟨cs ++ ds, ?_, ?_, List.forall_mem_append.mpr ⟨hcs, hds⟩⟩
    · rw [bind_ok hmw, hlog', hlog, List.append_assoc]
    · rw [bind_ok hmw]
      exact hchain.append hchain'

theorem mapErr_snd {f : ε → ε'} {m : Prog ε α} : (mapErr f m w).2 = (m w).2 := by
  unfold mapErr
  split <;> rename_i h <;> rw [h]

theorem Makes.mapErr {f : ε → ε'} {m : Prog ε α} (h : Makes os A m w) :
    Makes os A (mapErr f m) w := by
  unfold Makes
  rwa [mapErr_snd]

theorem Makes.attempt {m : Prog ε α} (h : Makes os A m w) :
    Makes os A (attempt m : Prog ε' (Except ε α)) w := h

theorem Makes.call {op : Op} {path : Path} (h : A ⟨op, path, w.tree⟩) :
    Makes os A (call os op path) w := by
  cases hrefuses : os.refuses w.log op path with
  | some e => exact .none (by rw [Prog.call, hrefuses])
  | none =>
    cases happly : w.tree.apply (os.links + 1) op path with
    | error e => exact .none (by rw [Prog.call, hrefuses, happly])
    | ok t =>
      refine ⟨[⟨op, path, w.tree⟩], ?_, ?_, List.forall_mem_singleton.mpr h⟩
      · rw [Prog.call, hrefuses, happly]
      · rw [Prog.call, hrefuses, happly]
        exact Chain.cons (c := ⟨op, path, w.tree⟩) happly .nil

theorem Makes.onlyIf {b : Bool} {m : Prog ε Unit} (h : Makes os A m w) :
    Makes os A (onlyIf b m) w := by
  cases b
  · exact .pure
  · exact h

theorem Makes.forEach {f : α → Prog ε Unit} {l : List α} (h : ∀ a ∈ l, ∀ w, Makes os A (f a) w) :
    Makes os A (forEach f l) w := by
  induction l generalizing w with
  | nil => exact .pure
  | cons a l ih =>
    exact .bind (h a List.mem_cons_self w) fun _ w' _ =>
      ih fun b hb => h b (List.mem_cons_of_mem _ hb)

theorem Makes.createDirs {names : Path}
    (h : ∀ path t, path <+: names.reverse → A ⟨.createDir, path, t⟩) :
    Makes os A (createDirs os names) w := by
  induction names generalizing w with
  | nil => exact .pure
  | cons n above ih =>
    have hcall : ∀ w, Makes os A (Prog.call os .createDir (n :: above).reverse) w :=
      fun w => .call (h _ _ (List.prefix_refl _))
    have habove : ∀ w, Makes os A (Prog.createDirs os above) w := by
      intro w
      refine ih fun path t hpath => h path t (hpath.trans ?_)
      rw [List.reverse_cons]
      exact List.prefix_append _ _
    have hdone : ∀ (e : IoError) w, Makes os A (do
        let isDir ← Prog.look fun t => .ok (t.isDir (os.links + 1) (n :: above).reverse)
        if isDir then Pure.pure () else Prog.fail e) w := by
      intro e w
      refine .bind .look fun isDir w' _ => ?_
      split
      · exact .pure
      · exact .fail
    refine .bind (.attempt (hcall w)) fun result w' _ => ?_
    split
    · exact .pure
    · split
      -- the directories above are made first
      · refine .bind (habove w') fun _ w₂ _ => .bind (.attempt (hcall w₂)) fun result w₃ _ => ?_
        split
        · exact .pure
        · exact hdone _ w₃
      · exact hdone _ w'

theorem Makes.createDirAll {path : Path}
    (h : ∀ q t, q <+: path → A ⟨.createDir, q, t⟩) : Makes os A (createDirAll os path) w := by
  refine .createDirs fun q t hq => h q t ?_
  rwa [List.reverse_reverse] at hq

theorem ok_of_mapErr {f : ε → ε'} {m : Prog ε α} {a : α} (h : mapErr f m w = (.ok a, w')) :
    m w = (.ok a, w') := by
  unfold Prog.mapErr at h
  split at h
  · rename_i hm
    cases h
    exact hm
  · cases h

/-- A call that succeeds has changed the tree, and is the last of the calls. -/
theorem ok_of_call {op : Op} {path : Path} (h : call os op path w = (.ok (), w')) :
    w.tree.apply (os.links + 1) op path = .ok w'.tree ∧ w'.log = w.log ++ [⟨op, path, w.tree⟩] := by
  unfold Prog.call at h
  split at h
  · cases h
  · split at h
    · rename_i happly
      cases h
      exact ⟨happly, rfl⟩
    · cases h

/-! ## Links that stay in place -/

variable {p : Path} {target : Target} {m : Prog ε α} {k : α → Prog ε β}

/-- What the program makes here leaves a link in place. -/
def Keeps (os : Os) (p : Path) (target : Target) (m : Prog ε α) (w : World) : Prop :=
  Makes os (fun _ => True) m w ∧
    (World.Direct (m w).2 → w.tree.Linked p target → (m w).2.tree.Linked p target)

/-- When the program comes to its end here, a link is in place. -/
def Puts (p : Path) (target : Target) (m : Prog ε α) (w : World) : Prop :=
  ∀ a w', m w = (.ok a, w') → World.Direct w' → w'.tree.Linked p target

theorem Makes.direct (h : Makes os A m w) (hdirect : World.Direct (m w).2) : World.Direct w := by
  obtain ⟨cs, hlog, -, -⟩ := h
  intro c hc
  refine hdirect c ?_
  rw [hlog]
  exact List.mem_append_left _ hc

theorem Makes.linked (h : Makes os (fun c => ¬ c.op.Removes c.path p) m w)
    (hdirect : World.Direct (m w).2) (hp : w.tree.Linked p target) :
    (m w).2.tree.Linked p target := by
  obtain ⟨cs, hlog, hchain, hcs⟩ := h
  refine hchain.linked (fun c hc => hdirect c ?_) hp hcs
  rw [hlog]
  exact List.mem_append_right _ hc

theorem Keeps.of_makes (h : Makes os (fun c => ¬ c.op.Removes c.path p) m w) :
    Keeps os p target m w :=
  ⟨h.mono fun _ _ => trivial, h.linked⟩

theorem Keeps.pure {a : α} : Keeps os p target (Pure.pure a : Prog ε α) w :=
  .of_makes .pure

theorem Keeps.fail {e : ε} : Keeps os p target (Prog.fail e : Prog ε α) w := .of_makes .fail

theorem Keeps.look {f : Tree → Except ε α} : Keeps os p target (Prog.look f) w := .of_makes .look

theorem Keeps.bind (hm : Keeps os p target m w) (hk : ∀ a w', Keeps os p target (k a) w') :
    Keeps os p target (m >>= k) w := by
  refine ⟨.bind hm.1 fun a w' _ => (hk a w').1, fun hdirect hp => ?_⟩
  rcases hmw : m w with ⟨_ | a, w'⟩
  · rw [bind_error hmw] at hdirect ⊢
    have hkept := hm.2
    rw [hmw] at hkept
    exact hkept hdirect hp
  · rw [bind_ok hmw] at hdirect ⊢
    have hkept := hm.2
    rw [hmw] at hkept
    exact (hk a w').2 hdirect (hkept ((hk a w').1.direct hdirect) hp)

theorem Keeps.forEach {f : α → Prog ε Unit} {l : List α}
    (h : ∀ a ∈ l, ∀ w, Keeps os p target (f a) w) : Keeps os p target (Prog.forEach f l) w := by
  induction l generalizing w with
  | nil => exact .pure
  | cons a l ih =>
    exact .bind (h a List.mem_cons_self w) fun _ w' =>
      ih fun b hb => h b (List.mem_cons_of_mem _ hb)

theorem Puts.after (hk : ∀ a w', Puts p target (k a) w') : Puts p target (m >>= k) w := by
  intro b w' h hdirect
  obtain ⟨a, w₁, -, hkw⟩ := ok_of_bind h
  exact hk a w₁ b w' hkw hdirect

theorem Puts.kept (os : Os) (hm : Puts p target m w) (hk : ∀ a w', Keeps os p target (k a) w') :
    Puts p target (m >>= k) w := by
  intro b w' h hdirect
  obtain ⟨a, w₁, hmw, hkw⟩ := ok_of_bind h
  have hkeeps := hk a w₁
  rw [show w' = (k a w₁).2 by rw [hkw]] at hdirect ⊢
  exact hkeeps.2 hdirect (hm a w₁ hmw (hkeeps.1.direct hdirect))

theorem Puts.fail {e : ε} : Puts p target (Prog.fail e : Prog ε α) w := by
  intro a w' h
  cases h

/-- A call that comes upon no link acts on what its path names. -/
theorem change_of_call {op : Op} {path : Path} (h : call os op path w = (.ok (), w'))
    (hdirect : World.Direct w') :
    w.tree.Solid path.dropLast ∧ w.tree.change op path = .ok w'.tree := by
  obtain ⟨happly, hlog⟩ := ok_of_call h
  have hc : Change.Direct ⟨op, path, w.tree⟩ := hdirect _ (by rw [hlog]; simp)
  exact ⟨hc.1, hc.apply.symm.trans happly⟩

theorem linked_of_call (h : call os (.symlink target) p w = (.ok (), w'))
    (hdirect : World.Direct w') : w'.tree.Linked p target := by
  obtain ⟨hsolid, hchange⟩ := change_of_call h hdirect
  exact ⟨fun q hq => Tree.change_dir hchange (hsolid q hq) fun hop => (by cases hop),
    Tree.change_symlink hchange⟩

theorem missing_of_call (h : call os .removeFile p w = (.ok (), w')) (hdirect : World.Direct w') :
    ∃ e, w'.tree.symlinkMetadata (os.links + 1) p = .error e := by
  obtain ⟨hsolid, hchange⟩ := change_of_call h hdirect
  have hnone := Tree.change_removeFile hchange
  rcases List.eq_nil_or_concat' p with rfl | ⟨d, n, rfl⟩
  · rw [Tree.node_nil] at hnone
    cases hnone
  · rw [List.dropLast_concat] at hsolid
    refine ⟨_, Tree.symlinkMetadata_missing (fun q hq => ?_) hnone⟩
    exact Tree.change_dir hchange (hsolid q hq) fun hop => (by cases hop)

/-- What one round of a loop puts stays in place if no later round takes it away. -/
theorem Puts.forEach (os : Os) {f : α → Prog ε Unit} {l : List α} {R : α → α → Prop} {a : α}
    (hl : l.Pairwise R) (ha : a ∈ l) (hputs : ∀ w, Puts p target (f a) w)
    (hkeeps : ∀ b ∈ l, R a b → ∀ w, Keeps os p target (f b) w) :
    Puts p target (Prog.forEach f l) w := by
  induction l generalizing w with
  | nil => cases ha
  | cons b l ih =>
    rcases List.mem_cons.mp ha with rfl | ha
    · refine Puts.kept os (hputs w) fun _ w' => .forEach fun b hb => ?_
      exact hkeeps b (List.mem_cons_of_mem _ hb) ((List.pairwise_cons.mp hl).1 b hb)
    · exact .after fun _ w' => ih (List.pairwise_cons.mp hl).2 ha
        fun b hb => hkeeps b (List.mem_cons_of_mem _ hb)

end Prog

end FileTree
