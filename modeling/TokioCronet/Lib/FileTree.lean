import Mathlib.Data.List.Basic
import Mathlib.Data.List.Infix

/-!
# Trees of files

Directories, files and symbolic links, the paths that lead to them, and the system calls that
change them. A call follows the links on its way, so what it changes need not be where its
path says; a call that comes upon no link changes what its path names and nothing else.

Paths are lists of names from the root. The place where something is has such a path too, one
that no link is on.
-/

namespace FileTree

/-- Name of an entry of a directory. -/
abbrev Name := String

/-- An absolute path, without `.` and `..`. -/
abbrev Path := List Name

/-- A component of the text of a link; `.` stands for nothing. -/
inductive Part where
  | parent
  | name (n : Name)
  deriving DecidableEq

/-- The text of a link. -/
structure Target where
  absolute : Bool
  parts : List Part
  deriving DecidableEq

/-- What is at a place. -/
inductive Node where
  | dir
  | file (content : List UInt8)
  | link (target : Target)
  deriving DecidableEq

/-- How a system call fails. -/
inductive IoError where
  | notFound
  | notADirectory
  | isADirectory
  | alreadyExists
  | tooManyLinks
  | invalidData
  | other
  deriving DecidableEq

/-- A link to an absolute path. -/
def Target.toPath (p : Path) : Target := ⟨true, p.map .name⟩

/-- What is where; the root is a directory. -/
structure Tree where
  nodes : List (Path × Node)
  deriving DecidableEq

namespace Tree

/-! ## Places -/

/-- The node at a place. -/
def node (t : Tree) (p : Path) : Option Node :=
  if p = [] then some .dir else t.nodes.lookup p

/-- The names in a directory. -/
def names (t : Tree) (p : Path) : List Name :=
  t.nodes.filterMap fun e => if e.1 ≠ [] ∧ e.1.dropLast = p then e.1.getLast? else none

/-- The tree without one place. -/
def remove (t : Tree) (p : Path) : Tree := ⟨t.nodes.filter fun e => e.1 ≠ p⟩

/-- The tree without a place and all that is below it. -/
def prune (t : Tree) (p : Path) : Tree := ⟨t.nodes.filter fun e => ¬ p <+: e.1⟩

/-- The tree with a node at a place where there was none. -/
def put (t : Tree) (p : Path) (n : Node) : Tree := ⟨(p, n) :: t.nodes⟩

/-- Every directory on the way is a real one. -/
def Solid (t : Tree) (p : Path) : Prop := ∀ q, q <+: p → t.node q = some .dir

/-- `Solid`, to be computed. -/
def isSolid (t : Tree) (p : Path) : Bool := p.inits.all fun q => t.node q = some .dir

/-! ## Walking -/

/-- Goes along a path from a directory, until it comes upon a link. -/
def thread (t : Tree) (follow : Path → List Part → Except IoError Path) :
    Path → List Part → Except IoError Path
  | place, [] => .ok place
  | place, .parent :: rest => thread t follow place.dropLast rest
  | place, .name n :: rest =>
    match t.node (place ++ [n]) with
    -- the last name may be one that is not there yet
    | none => if rest = [] then .ok (place ++ [n]) else .error .notFound
    | some (.link target) => follow (if target.absolute then [] else place) (target.parts ++ rest)
    | some .dir => thread t follow (place ++ [n]) rest
    | some (.file _) => if rest = [] then .ok (place ++ [n]) else .error .notADirectory

/-- Goes along a path and follows so many links. -/
def walk (t : Tree) : Nat → Path → List Part → Except IoError Path
  | 0 => t.thread fun _ _ => .error .tooManyLinks
  | links + 1 => t.thread (t.walk links)

/-- The place that a path leads to. -/
def place (t : Tree) (links : Nat) (path : Path) : Except IoError Path :=
  t.walk links [] (path.map .name)

/-- The place of the entry that a path names, which may be a link itself. -/
def entryPlace (t : Tree) (links : Nat) (path : Path) : Except IoError Path :=
  match path.getLast? with
  | none => .ok []
  | some n => do
    let parent ← t.place links path.dropLast
    match t.node parent with
    | none => .error .notFound
    | some .dir => .ok (parent ++ [n])
    | some _ => .error .notADirectory

/-! ## Looking -/

/-- `fs::metadata` -/
def metadata (t : Tree) (links : Nat) (path : Path) : Except IoError Node := do
  let p ← t.place links path
  match t.node p with
  | some n => .ok n
  | none => .error .notFound

/-- `fs::symlink_metadata` -/
def symlinkMetadata (t : Tree) (links : Nat) (path : Path) : Except IoError Node := do
  let p ← t.entryPlace links path
  match t.node p with
  | some n => .ok n
  | none => .error .notFound

/-- `Path::exists` -/
def exist (t : Tree) (links : Nat) (path : Path) : Bool := (t.metadata links path).toBool

/-- `Path::is_dir` -/
def isDir (t : Tree) (links : Nat) (path : Path) : Bool :=
  match t.metadata links path with
  | .ok .dir => true
  | _ => false

/-- `Path::is_file` -/
def isFile (t : Tree) (links : Nat) (path : Path) : Bool :=
  match t.metadata links path with
  | .ok (.file _) => true
  | _ => false

/-- `fs::read` -/
def read (t : Tree) (links : Nat) (path : Path) : Except IoError (List UInt8) := do
  match ← t.metadata links path with
  | .file content => .ok content
  | _ => .error .isADirectory

/-- `fs::read_dir`, without the order of the entries. -/
def readDir (t : Tree) (links : Nat) (path : Path) : Except IoError (List Name) := do
  let p ← t.place links path
  match t.node p with
  | some .dir => .ok (t.names p)
  | some _ => .error .notADirectory
  | none => .error .notFound

/-- `fs::canonicalize` -/
def canonicalize (t : Tree) (links : Nat) (path : Path) : Except IoError Path := do
  let p ← t.place links path
  if (t.node p).isSome then .ok p else .error .notFound

end Tree

/-! ## Changing -/

/-- The system calls that change a tree. -/
inductive Op where
  | write (content : List UInt8)
  | removeFile
  | removeDirAll
  | createDir
  | symlink (target : Target)
  deriving DecidableEq

/-- The place that a call acts on. Only `write` follows a link that the path ends in. -/
def Tree.callPlace (t : Tree) (links : Nat) : Op → Path → Except IoError Path
  | .write _, path => t.place links path
  | _, path => t.entryPlace links path

/-- What a call does at the place that it acts on. -/
def Tree.change (t : Tree) : Op → Path → Except IoError Tree
  | .write content, p =>
    if t.node p = some .dir then .error .isADirectory
    else .ok ((t.remove p).put p (.file content))
  | .removeFile, p =>
    match t.node p with
    | none => .error .notFound
    | some .dir => .error .isADirectory
    | some _ => .ok (t.remove p)
  | .removeDirAll, p =>
    match t.node p with
    | none => .error .notFound
    | some (.file _) => .error .notADirectory
    -- a link is not followed
    | some (.link _) => .ok (t.remove p)
    | some .dir => .ok (t.prune p)
  | .createDir, p => if t.node p = none then .ok (t.put p .dir) else .error .alreadyExists
  | .symlink target, p =>
    if t.node p = none then .ok (t.put p (.link target)) else .error .alreadyExists

/-- A system call on a tree. -/
def Tree.apply (t : Tree) (links : Nat) (op : Op) (path : Path) : Except IoError Tree := do
  let p ← t.callPlace links op path
  t.change op p

/-- A call that was made, and the tree it was made on. -/
structure Change where
  op : Op
  path : Path
  before : Tree

/-- The call follows a link in the very place that its path names. -/
def Change.endsInLink (c : Change) : Bool :=
  match c.op, c.before.node c.path with
  | .write _, some (.link _) => true
  | _, _ => false

/-- The call came upon no link: the directories on its way are real ones, and a file that is
written is not reached through a link in its own place. -/
def Change.Direct (c : Change) : Prop :=
  c.before.Solid c.path.dropLast ∧ c.endsInLink = false

/-- A call that acts on `p` may change what is at `q`. -/
def Op.Touches (op : Op) (p q : Path) : Prop :=
  if op = .removeDirAll then p <+: q else p = q

/-- A call that acts on `p` may take away a link at `q`, or a directory on the way to it. -/
def Op.Removes (op : Op) (p q : Path) : Prop :=
  op = .removeFile ∧ p = q ∨ op = .removeDirAll ∧ p <+: q

/-- Calls made one after the other. -/
inductive Chain (links : Nat) : Tree → List Change → Tree → Prop
  | nil {t} : Chain links t [] t
  | cons {c cs t t'} : c.before.apply links c.op c.path = .ok t → Chain links t cs t' →
      Chain links c.before (c :: cs) t'

/-! ## Nodes of a changed tree -/

variable {t t' t'' : Tree} {p q : Path} {n : Name} {links : Nat} {op : Op}

namespace Tree

@[simp] theorem node_nil : t.node [] = some .dir := if_pos rfl

theorem node_of_ne (h : q ≠ []) : t.node q = t.nodes.lookup q := if_neg h

theorem lookup_filter {l : List (Path × Node)} (keep : Path → Bool) (h : keep q = true) :
    (l.filter fun e => keep e.1).lookup q = l.lookup q := by
  induction l with
  | nil => rfl
  | cons e l ih =>
    obtain ⟨r, x⟩ := e
    by_cases hr : q = r
    · subst hr
      rw [List.filter_cons, if_pos h, List.lookup_cons_self, List.lookup_cons_self]
    · have hne : (q == r) = false := beq_false_of_ne hr
      rw [List.lookup_cons, hne, List.filter_cons]
      split_ifs
      · rw [List.lookup_cons, hne]
        exact ih
      · exact ih

theorem lookup_filter_none {l : List (Path × Node)} (keep : Path → Bool) (h : keep q = false) :
    (l.filter fun e => keep e.1).lookup q = none := by
  refine List.lookup_eq_none_iff.mpr fun e he => ?_
  by_contra hkey
  have heq : q = e.1 := by simpa using hkey
  rw [heq, (List.mem_filter.mp he).2] at h
  exact Bool.noConfusion h

theorem node_remove_ne (h : q ≠ p) : (t.remove p).node q = t.node q := by
  by_cases hq : q = []
  · rw [hq, node_nil, node_nil]
  · rw [node_of_ne hq, node_of_ne hq]
    exact lookup_filter (fun r => r ≠ p) (decide_eq_true h)

theorem node_remove_self (h : p ≠ []) : (t.remove p).node p = none := by
  rw [node_of_ne h]
  exact lookup_filter_none (fun r => r ≠ p) (decide_eq_false fun hne => hne rfl)

theorem node_prune (h : ¬ p <+: q) : (t.prune p).node q = t.node q := by
  by_cases hq : q = []
  · rw [hq, node_nil, node_nil]
  · rw [node_of_ne hq, node_of_ne hq]
    exact lookup_filter (fun r => ¬ p <+: r) (decide_eq_true h)

theorem node_put_ne {x : Node} (h : q ≠ p) : (t.put p x).node q = t.node q := by
  by_cases hq : q = []
  · rw [hq, node_nil, node_nil]
  · rw [node_of_ne hq, node_of_ne hq, put, List.lookup_cons, beq_false_of_ne h]

theorem node_put_self {x : Node} (h : p ≠ []) : (t.put p x).node p = some x := by
  rw [node_of_ne h, put, List.lookup_cons_self]

/-! ## Real directories -/

theorem solid_nil : t.Solid [] := by
  intro q hq
  rw [List.prefix_nil.mp hq, node_nil]

theorem Solid.above (h : t.Solid p) (hq : q <+: p) : t.Solid q := fun r hr => h r (hr.trans hq)

theorem Solid.dir (h : t.Solid p) : t.node p = some .dir := h p (List.prefix_refl p)

theorem Solid.snoc (h : t.Solid p) (hn : t.node (p ++ [n]) = some .dir) : t.Solid (p ++ [n]) := by
  intro q hq
  rcases List.prefix_concat_iff.mp hq with rfl | hq
  · exact hn
  · exact h q hq

theorem isSolid_iff : t.isSolid p = true ↔ t.Solid p := by
  simp only [isSolid, List.all_eq_true, List.mem_inits, decide_eq_true_eq, Solid]

instance : Decidable (t.Solid p) := decidable_of_iff _ isSolid_iff

instance (c : Change) : Decidable c.Direct :=
  inferInstanceAs (Decidable (c.before.Solid c.path.dropLast ∧ c.endsInLink = false))

/-! ## Walking without links -/

theorem thread_solid {follow : Path → List Part → Except IoError Path} {path : Path}
    {rest : List Part} (h : t.Solid (p ++ path)) :
    t.thread follow p (path.map .name ++ rest) = t.thread follow (p ++ path) rest := by
  induction path generalizing p with
  | nil => rw [List.map_nil, List.nil_append, List.append_nil]
  | cons n path ih =>
    rw [List.append_cons] at h ⊢
    rw [List.map_cons, List.cons_append, thread, (h.above (List.prefix_append _ path)).dir]
    exact ih h

theorem walk_solid {path : Path} {rest : List Part} (h : t.Solid (p ++ path)) :
    t.walk links p (path.map .name ++ rest) = t.walk links (p ++ path) rest := by
  cases links with
  | zero => exact thread_solid h
  | succ links => exact thread_solid h

theorem walk_nil : t.walk links p [] = .ok p := by
  cases links with
  | zero => rfl
  | succ links => rfl

theorem place_solid (h : t.Solid p) : t.place links p = .ok p := by
  have hwalk : t.walk links [] (p.map .name ++ []) = t.walk links ([] ++ p) [] := walk_solid h
  rw [List.append_nil, List.nil_append, walk_nil] at hwalk
  exact hwalk

theorem entryPlace_solid (h : t.Solid p) : t.entryPlace links (p ++ [n]) = .ok (p ++ [n]) := by
  rw [entryPlace, List.getLast?_concat]
  dsimp only
  rw [List.dropLast_concat, place_solid h]
  change (match t.node p with
    | none => Except.error IoError.notFound
    | some .dir => .ok (p ++ [n])
    | some _ => .error .notADirectory) = _
  rw [h.dir]

/-! ## One call -/

theorem change_frame (h : t.change op p = .ok t') (hq : ¬ op.Touches p q) :
    t'.node q = t.node q := by
  unfold Op.Touches at hq
  cases op with
  | removeDirAll =>
    rw [if_pos rfl] at hq
    simp only [change] at h
    split at h <;> cases h
    · exact node_remove_ne fun heq => hq (heq ▸ List.prefix_refl q)
    · exact node_prune hq
  | removeFile =>
    have hne : q ≠ p := fun heq => hq (by simpa using heq.symm)
    simp only [change] at h
    split at h <;> cases h
    exact node_remove_ne hne
  | write content =>
    have hne : q ≠ p := fun heq => hq (by simpa using heq.symm)
    simp only [change] at h
    split at h <;> cases h
    rw [node_put_ne hne, node_remove_ne hne]
  | _ =>
    have hne : q ≠ p := fun heq => hq (by simpa using heq.symm)
    simp only [change] at h
    split at h <;> cases h
    exact node_put_ne hne

/-- A directory stays until it is removed with what is in it. -/
theorem change_dir (h : t.change op p = .ok t') (hq : t.node q = some .dir)
    (hremove : op = .removeDirAll → ¬ p <+: q) : t'.node q = some .dir := by
  rw [← hq]
  refine change_frame h fun htouch => ?_
  unfold Op.Touches at htouch
  cases op with
  | removeDirAll => exact hremove rfl (by simpa using htouch)
  | _ =>
    have heq : p = q := by simpa using htouch
    rw [heq] at h
    simp [change, hq] at h

/-- A link stays until it is removed, if nothing is written through it. -/
theorem change_link {target : Target} (h : t.change op p = .ok t')
    (hq : t.node q = some (.link target))
    (hwrite : ∀ content, op = .write content → ∀ target, t.node p ≠ some (.link target))
    (hremove : ¬ op.Removes p q) : t'.node q = some (.link target) := by
  rw [← hq]
  refine change_frame h fun htouch => ?_
  unfold Op.Touches at htouch
  cases op with
  | removeDirAll => exact hremove (.inr ⟨rfl, by simpa using htouch⟩)
  | removeFile => exact hremove (.inl ⟨rfl, by simpa using htouch⟩)
  | write content =>
    have heq : p = q := by simpa using htouch
    exact hwrite content rfl target (heq ▸ hq)
  | _ =>
    have heq : p = q := by simpa using htouch
    rw [heq] at h
    simp [change, hq] at h

theorem change_symlink {target : Target} (h : t.change (.symlink target) p = .ok t') :
    t'.node p = some (.link target) := by
  simp only [change] at h
  split at h
  · rename_i hnone
    cases h
    refine node_put_self fun hp => ?_
    rw [hp, node_nil] at hnone
    cases hnone
  · cases h

theorem change_createDir (h : t.change .createDir p = .ok t') : t.node p = none := by
  simp only [change] at h
  split at h
  · assumption
  · cases h

/-- A path that no link is on leads to its own place. -/
theorem place_direct (h : t.Solid p) (hlink : ∀ target, t.node (p ++ [n]) ≠ some (.link target)) :
    t.place links (p ++ [n]) = .ok (p ++ [n]) := by
  have hstep : ∀ follow, t.thread follow p [.name n] = .ok (p ++ [n]) := by
    intro follow
    rw [thread]
    split
    · exact if_pos rfl
    · exact absurd ‹_› (hlink _)
    · rw [thread]
    · exact if_pos rfl
  rw [place, List.map_append, List.map_singleton, walk_solid h, List.nil_append]
  cases links with
  | zero => exact hstep _
  | succ links => exact hstep _

/-! ## What is on the way -/

theorem thread_parent {follow : Path → List Part → Except IoError Path} {parts : List Part}
    (hfollow : ∀ p parts q, t.Solid p → follow p parts = .ok q → t.Solid q.dropLast)
    (hp : t.Solid p) (h : t.thread follow p parts = .ok q) : t.Solid q.dropLast := by
  induction parts generalizing p with
  | nil =>
    cases h
    exact hp.above (List.dropLast_prefix _)
  | cons part rest ih =>
    cases part with
    | parent => exact ih (hp.above (List.dropLast_prefix p)) h
    | name n =>
      have hlast : ∀ e : IoError, (if rest = [] then Except.ok (p ++ [n]) else .error e) = .ok q →
          t.Solid q.dropLast := by
        intro e hq
        split at hq
        · cases hq
          rwa [List.dropLast_concat]
        · cases hq
      rw [thread] at h
      split at h
      · exact hlast _ h
      · refine hfollow _ _ _ ?_ h
        split
        · exact solid_nil
        · exact hp
      · exact ih (hp.snoc ‹_›) h
      · exact hlast _ h

theorem walk_parent {parts : List Part} (hp : t.Solid p) (h : t.walk links p parts = .ok q) :
    t.Solid q.dropLast := by
  induction links generalizing p parts q with
  | zero => exact thread_parent (fun _ _ _ _ h => by cases h) hp h
  | succ links ih => exact thread_parent (fun _ _ _ hp h => ih hp h) hp h

/-- On the way to a canonical path there is something everywhere. -/
theorem canonicalize_node {path : Path} (h : t.canonicalize links path = .ok p) (hq : q <+: p) :
    t.node q ≠ none := by
  rw [canonicalize] at h
  cases hplace : t.place links path with
  | error e =>
    rw [hplace] at h
    cases h
  | ok p' =>
    rw [hplace] at h
    change (if (t.node p').isSome then Except.ok p' else .error IoError.notFound) = .ok p at h
    split at h
    · rename_i hsome
      cases h
      rcases List.eq_nil_or_concat' p with rfl | ⟨d, n, rfl⟩
      · rw [List.prefix_nil.mp hq, node_nil]
        simp
      · have hsolid := walk_parent solid_nil hplace
        rw [List.dropLast_concat] at hsolid
        rcases List.prefix_concat_iff.mp hq with rfl | hq
        · exact Option.isSome_iff_ne_none.mp hsome
        · rw [hsolid q hq]
          simp
    · cases h

theorem symlinkMetadata_solid (h : t.Solid p) : t.symlinkMetadata links p = .ok .dir := by
  have hplace : t.entryPlace links p = .ok p := by
    rcases List.eq_nil_or_concat' p with rfl | ⟨d, n, rfl⟩
    · rfl
    · exact entryPlace_solid (h.above (List.prefix_append _ _))
  rw [symlinkMetadata, hplace]
  exact (by rw [h.dir] : (match t.node p with
    | some n => Except.ok n
    | none => .error IoError.notFound) = _)

theorem symlinkMetadata_missing (h : t.Solid p) (hn : t.node (p ++ [n]) = none) :
    t.symlinkMetadata links (p ++ [n]) = .error .notFound := by
  rw [symlinkMetadata, entryPlace_solid h]
  exact (by rw [hn] : (match t.node (p ++ [n]) with
    | some n => Except.ok n
    | none => .error IoError.notFound) = _)

theorem change_removeFile (h : t.change .removeFile p = .ok t') : t'.node p = none := by
  simp only [change] at h
  split at h <;> cases h
  refine node_remove_self fun hp => ?_
  rename_i hdir hsome
  rw [hp, node_nil] at hsome
  cases hsome
  exact hdir rfl

end Tree

theorem Change.Direct.write {c : Change} {content : List UInt8} (h : c.Direct)
    (hop : c.op = .write content) (target : Target) :
    c.before.node c.path ≠ some (.link target) := by
  intro hlink
  have hends := h.2
  rw [Change.endsInLink, hop, hlink] at hends
  cases hends

theorem Change.Direct.callPlace {c : Change} (h : c.Direct) :
    c.before.callPlace links c.op c.path = .ok c.path := by
  have hsolid := h.1
  have hlink : ∀ content, c.op = .write content → ∀ target,
      c.before.node c.path ≠ some (.link target) := fun _ hop => h.write hop
  obtain ⟨op, path, t⟩ := c
  dsimp only at hsolid hlink ⊢
  rcases List.eq_nil_or_concat' path with rfl | ⟨p, n, rfl⟩
  · cases op with
    | write content => exact Tree.walk_nil
    | _ => rfl
  · rw [List.dropLast_concat] at hsolid
    cases op with
    | write content => exact Tree.place_direct hsolid (hlink content rfl)
    | _ => exact Tree.entryPlace_solid hsolid

/-- A direct call acts on what its path names. -/
theorem Change.Direct.apply {c : Change} (h : c.Direct) :
    c.before.apply links c.op c.path = c.before.change c.op c.path := by
  rw [Tree.apply, h.callPlace]
  rfl

/-! ## Chains of calls -/

/-- What no direct call touches is as before. A call to make a directory that is there
already is not made. -/
theorem Chain.frame {cs : List Change} (h : Chain links t cs t')
    (hdirect : ∀ c ∈ cs, c.Direct)
    (hq : ∀ c ∈ cs, ¬ c.op.Touches c.path q ∨ c.op = .createDir ∧ t.node q ≠ none) :
    t'.node q = t.node q := by
  induction h with
  | nil => rfl
  | cons happly hchain ih =>
    rename_i c cs t₁ t₂
    have hdir := hdirect c List.mem_cons_self
    rw [hdir.apply] at happly
    have hfirst : t₁.node q = c.before.node q := by
      rcases hq c List.mem_cons_self with hnot | ⟨hop, hsome⟩
      · exact Tree.change_frame happly hnot
      · by_cases hpath : c.path = q
        · rw [hop, hpath] at happly
          exact absurd (Tree.change_createDir happly) hsome
        · exact Tree.change_frame happly (by rw [hop]; simpa [Op.Touches] using hpath)
    rw [← hfirst]
    refine ih (fun c hc => hdirect c (List.mem_cons_of_mem _ hc)) fun c hc => ?_
    rw [hfirst]
    exact hq c (List.mem_cons_of_mem _ hc)

theorem Chain.append {cs ds : List Change} (h : Chain links t cs t') (h' : Chain links t' ds t'') :
    Chain links t (cs ++ ds) t'' := by
  induction h with
  | nil => exact h'
  | cons happly _ ih => exact .cons happly (ih h')

/-! ## Links that are in place -/

/-- There is a link at this place, and no other on the way. -/
def Tree.Linked (t : Tree) (p : Path) (target : Target) : Prop :=
  t.Solid p.dropLast ∧ t.node p = some (.link target)

theorem Tree.change_linked {target : Target} (h : t.change op p = .ok t') (hq : t.Linked q target)
    (hwrite : ∀ content, op = .write content → ∀ target, t.node p ≠ some (.link target))
    (hremove : ¬ op.Removes p q) : t'.Linked q target := by
  refine ⟨fun r hr => Tree.change_dir h (hq.1 r hr) fun hop hpre => ?_,
    Tree.change_link h hq.2 hwrite hremove⟩
  exact hremove (.inr ⟨hop, hpre.trans (hr.trans (List.dropLast_prefix q))⟩)

/-- A link stays in place while no direct call takes it away. -/
theorem Chain.linked {cs : List Change} {target : Target} (h : Chain links t cs t')
    (hdirect : ∀ c ∈ cs, c.Direct) (hq : t.Linked q target)
    (hremove : ∀ c ∈ cs, ¬ c.op.Removes c.path q) : t'.Linked q target := by
  induction h with
  | nil => exact hq
  | cons happly _ ih =>
    rename_i c cs t₁ t₂ _
    have hdir := hdirect c List.mem_cons_self
    rw [hdir.apply] at happly
    exact ih (fun c hc => hdirect c (List.mem_cons_of_mem _ hc))
      (Tree.change_linked happly hq (fun _ hop => hdir.write hop) (hremove c List.mem_cons_self))
      fun c hc => hremove c (List.mem_cons_of_mem _ hc)

/-- A file that a link leads to is read through it. -/
theorem Tree.Linked.read {s : Path} {content : List UInt8} (h : t.Linked p (.toPath s))
    (hsolid : t.Solid s.dropLast) (hfile : t.node s = some (.file content)) :
    t.read (links + 1) p = .ok content := by
  obtain ⟨hparent, hlink⟩ := h
  have hplace : t.place (links + 1) p = .ok s := by
    rcases List.eq_nil_or_concat' p with rfl | ⟨d, n, rfl⟩
    · rw [Tree.node_nil] at hlink
      cases hlink
    rcases List.eq_nil_or_concat' s with rfl | ⟨d', n', rfl⟩
    · rw [Tree.node_nil] at hfile
      cases hfile
    rw [List.dropLast_concat] at hparent hsolid
    rw [Tree.place, List.map_append, List.map_singleton, Tree.walk_solid hparent, List.nil_append,
      Tree.walk, Tree.thread, hlink]
    dsimp only [Target.toPath]
    rw [if_pos rfl, List.append_nil]
    refine Tree.place_direct hsolid fun target htarget => ?_
    rw [hfile] at htarget
    cases htarget
  have hmetadata : t.metadata (links + 1) p = .ok (.file content) := by
    rw [Tree.metadata, hplace]
    exact (by rw [hfile] : (match t.node s with
      | some x => Except.ok x
      | none => .error IoError.notFound) = _)
  rw [Tree.read, hmetadata]
  rfl

end FileTree
