import TokioCronet.Xtask.OverlayCalls

/-!
# Committed files in the overlay

`install_one` ends with a link to the committed file, and what comes after it leaves that link
in place: no later file of the tables has its path or a path below it, and a parent directory
that is there is not filled a second time.
-/

namespace TokioCronet.Overlay

open FileTree
open GnBlocks (Fault)

variable {host : Host} {w w' : World} {source overlay p dest : Path} {target : Target}

/-! ## What leaves a link in place -/

theorem spares_symlink {path : Path} {existing : Target} :
    ¬ (Op.symlink existing).Removes path p := by
  rintro (⟨h, -⟩ | ⟨h, -⟩) <;> cases h

theorem spares_createDir {path : Path} : ¬ Op.createDir.Removes path p := by
  rintro (⟨h, -⟩ | ⟨h, -⟩) <;> cases h

theorem spares_removeFile {path : Path} (h : path ≠ p) : ¬ Op.removeFile.Removes path p := by
  rintro (⟨-, heq⟩ | ⟨hop, -⟩)
  · exact h heq
  · cases hop

theorem spares_removeDirAll {path : Path} (h : ¬ path <+: p) :
    ¬ Op.removeDirAll.Removes path p := by
  rintro (⟨hop, -⟩ | ⟨-, hpre⟩)
  · cases hop
  · exact h hpre

theorem keeps_ensureSymlink {file link : Path} (h : link ≠ p) :
    Prog.Keeps host.toOs p target (ensureSymlink host file link) w :=
  .of_makes (makes_ensureSymlink (fun _ => spares_removeFile h) fun _ => spares_symlink)

theorem keeps_replaceWithDirectory {path : Path} (h : path ≠ p) :
    Prog.Keeps host.toOs p target (replaceGeneratedLinkWithDirectory host path) w :=
  .of_makes (makes_replaceWithDirectory (fun _ => spares_removeFile h)
    fun _ _ _ => spares_createDir)

theorem keeps_replaceWithFile {path : Path} (h : path ≠ p) :
    Prog.Keeps host.toOs p target (replaceGeneratedLinkWithFile host path) w :=
  .of_makes (makes_replaceWithFile fun _ => spares_removeFile h)

theorem keeps_linkEntries {skipped : Name → Bool} {names : List Name}
    (h : ∀ n, overlay ++ [n] ≠ p) :
    Prog.Keeps host.toOs p target (linkEntries host source overlay skipped names) w :=
  .of_makes (makes_linkEntries (fun n _ => spares_removeFile (h n)) fun _ _ => spares_symlink)

/-- Two paths of the tables do not meet: the second is not the first one, nor directly below. -/
def Apart (first second : Path) : Prop :=
  second ≠ [] ∧ second ≠ first ∧ second.dropLast ≠ first

instance : DecidableRel Apart := fun first second =>
  inferInstanceAs (Decidable (second ≠ [] ∧ second ≠ first ∧ second.dropLast ≠ first))

theorem append_ne {a b : Path} (h : a ≠ b) : overlay ++ a ≠ overlay ++ b :=
  fun heq => h (List.append_cancel_left heq)

theorem materializeParent_present {destRel : Path}
    (h : w.tree.Solid (overlay ++ destRel).dropLast) :
    materializeParent host source overlay destRel w = (.ok (), w) := by
  have hask : ask host (·.symlinkMetadata · (overlay ++ destRel).dropLast) w =
      (.ok (.ok .dir), w) := by
    rw [ask, Prog.look, Tree.symlinkMetadata_solid h]
  exact Prog.bind_ok hask

/-- A parent directory that holds a link in place is there already; another one is filled
without touching that link. -/
theorem keeps_materializeParent {destRel : Path} (hdest : dest ≠ []) (h : Apart dest destRel) :
    Prog.Keeps host.toOs (overlay ++ dest) target (materializeParent host source overlay destRel)
      w := by
  obtain ⟨hne, -, hbelow⟩ := h
  have hparent : (overlay ++ destRel).dropLast = overlay ++ destRel.dropLast :=
    List.dropLast_append_of_ne_nil hne
  by_cases hsame : destRel.dropLast = dest.dropLast
  -- the link is in this very directory, so that it is a real one and is left as it is
  · refine ⟨(within_materializeParent (List.prefix_refl _) hne).mono fun _ _ => trivial,
      fun _ hp => ?_⟩
    have hsolid : w.tree.Solid (overlay ++ destRel).dropLast := by
      rw [hparent, hsame, ← List.dropLast_append_of_ne_nil hdest]
      exact hp.1
    rw [materializeParent_present hsolid]
    exact hp
  · have hentry : ∀ n, (overlay ++ destRel).dropLast ++ [n] ≠ overlay ++ dest := by
      intro n heq
      rw [hparent, List.append_assoc] at heq
      refine hsame ?_
      rw [← List.append_cancel_left heq, List.dropLast_concat]
    refine .bind .look fun _ _ => ?_
    split
    · exact .pure
    · refine .bind (keeps_replaceWithDirectory ?_) fun _ _ => .bind .look fun _ _ => ?_
      · rw [hparent]
        exact append_ne hbelow
      split
      · exact .bind (.of_makes makes_listDir) fun _ _ => keeps_linkEntries hentry
      · exact .pure

theorem keeps_installOne {file : OverlayFile} (hdest : dest ≠ []) (h : Apart dest file.dest) :
    Prog.Keeps host.toOs (overlay ++ dest) target (installOne host source overlay file) w := by
  refine .bind .look fun _ _ => ?_
  split
  · exact .bind (keeps_materializeParent hdest h) fun _ _ =>
      .bind (keeps_replaceWithFile (append_ne h.2.1)) fun _ _ =>
      keeps_ensureSymlink (append_ne h.2.1)
  · exact .fail

theorem keeps_install {files : List OverlayFile} (hdest : dest ≠ [])
    (h : ∀ file ∈ files, Apart dest file.dest) :
    Prog.Keeps host.toOs (overlay ++ dest) target (install host source overlay files) w :=
  .forEach fun file hfile _ => keeps_installOne hdest (h file hfile)

theorem keeps_installSourceWrappers {wrappers : List SourceWrapper} (hdest : dest ≠ [])
    (h : ∀ wrapper ∈ wrappers, Apart dest wrapper.dest ∧ Apart dest wrapper.upstreamAlias) :
    Prog.Keeps host.toOs (overlay ++ dest) target
      (installSourceWrappers host source overlay wrappers) w := by
  refine .forEach fun wrapper hwrapper w₁ => ?_
  obtain ⟨hfile, hupstream⟩ := h wrapper hwrapper
  exact .bind (keeps_installOne hdest hfile) fun _ _ =>
    .bind (keeps_materializeParent hdest hupstream) fun _ _ =>
    .bind (keeps_replaceWithFile (append_ne hupstream.2.1)) fun _ _ =>
    keeps_ensureSymlink (append_ne hupstream.2.1)

/-! ## Host tools -/

/-- A path of the tables is not below what `link_android_host_tools` replaces. -/
def OffTools (dest : Path) : Prop :=
  ¬ ["third_party", "android_sdk"] <+: dest ∧ ¬ ["third_party", "jdk", "current"] <+: dest

instance : DecidablePred OffTools := fun dest => inferInstanceAs
  (Decidable (¬ ["third_party", "android_sdk"] <+: dest ∧
    ¬ ["third_party", "jdk", "current"] <+: dest))

theorem not_below {link : Path} (h : ¬ link <+: dest) : ¬ overlay ++ link <+: overlay ++ dest :=
  fun hpre => h ((List.prefix_append_right_inj overlay).mp hpre)

theorem keeps_make_removeFile {action : String} {path : Path} (h : path ≠ p) :
    Prog.Keeps host.toOs p target (make host action .removeFile path) w :=
  .of_makes (makes_make fun _ => spares_removeFile h)

theorem keeps_clearUnlessLinked {file link : Path} {blocked : Prog Fault Unit} {what : String}
    (h : ¬ link <+: p) (hblocked : ∀ w, Prog.Keeps host.toOs p target blocked w) :
    Prog.Keeps host.toOs p target (clearUnlessLinked host file link blocked what) w := by
  have hne : link ≠ p := fun heq => h (heq ▸ List.prefix_refl link)
  refine .bind .look fun _ _ => ?_
  split
  · split
    · exact .pure
    · exact keeps_make_removeFile hne
  · exact hblocked _
  · exact .of_makes (makes_make fun _ => spares_removeDirAll h)
  · exact .pure

theorem keeps_linkAndroidHostTools (hdest : dest ≠ []) (htools : OffTools dest)
    (h : ∀ file ∈ ANDROID_MAC_HOST, Apart dest file.dest) :
    Prog.Keeps host.toOs (overlay ++ dest) target (linkAndroidHostTools host source overlay) w := by
  have hsdk : ∀ n, ¬ overlay ++ ["third_party", "android_sdk", "public", "build-tools", n] <+:
      overlay ++ dest :=
    fun n => not_below fun hpre => htools.1 (List.IsPrefix.trans ⟨_, rfl⟩ hpre)
  have hjdk : ¬ overlay ++ ["third_party", "jdk", "current"] <+: overlay ++ dest :=
    not_below htools.2
  have hne : ∀ {link : Path}, ¬ link <+: overlay ++ dest → link ≠ overlay ++ dest :=
    fun hpre heq => hpre (heq ▸ List.prefix_refl _)
  unfold linkAndroidHostTools
  split
  · exact .pure
  · split
    · exact .fail
    · refine .bind (.of_makes makes_listDir) fun _ _ => .bind .look fun _ _ => ?_
      split
      · exact .fail
      · refine .bind (.of_makes makes_listDir) fun _ _ => .bind .look fun _ _ => ?_
        split
        · exact .fail
        · refine .bind (keeps_clearUnlessLinked (hsdk _) fun _ => keeps_make_removeFile
            (hne (hsdk _))) fun _ _ => .bind (keeps_ensureSymlink (hne (hsdk _))) fun _ _ =>
            .bind (.bind .look fun _ _ => ?_) fun _ _ =>
            .bind (keeps_clearUnlessLinked hjdk fun _ => .fail) fun _ _ =>
            .bind (keeps_ensureSymlink (hne hjdk)) fun _ _ => keeps_install hdest h
          split
          · exact .pure
          · exact .fail

/-! ## What puts a link -/

theorem ok_of_ask {α : Type} {f : Tree → Nat → α} {a : α} (h : ask host f w = (.ok a, w')) :
    f w.tree (host.links + 1) = a ∧ w = w' := by
  cases h
  exact ⟨rfl, rfl⟩

theorem missing_of_replaceWithFile {path : Path}
    (h : replaceGeneratedLinkWithFile host path w = (.ok (), w')) (hdirect : World.Direct w') :
    ∃ e, w'.tree.symlinkMetadata (host.links + 1) path = .error e := by
  obtain ⟨found, w₁, hask, hrest⟩ := Prog.ok_of_bind h
  obtain ⟨hfound, rfl⟩ := ok_of_ask hask
  split at hrest
  · cases hrest
  · exact Prog.missing_of_call (Prog.ok_of_mapErr hrest) hdirect
  · cases hrest
    exact ⟨_, hfound⟩

theorem linked_of_ensureSymlink {file link : Path}
    (hmissing : ∃ e, w.tree.symlinkMetadata (host.links + 1) link = .error e)
    (h : ensureSymlink host file link w = (.ok (), w')) (hdirect : World.Direct w') :
    w'.tree.Linked link (.toPath file) := by
  obtain ⟨found, w₁, hask, hrest⟩ := Prog.ok_of_bind h
  obtain ⟨e, he⟩ := hmissing
  obtain ⟨hfound, rfl⟩ := ok_of_ask hask
  rw [he] at hfound
  subst hfound
  exact Prog.linked_of_call (Prog.ok_of_mapErr hrest) hdirect

theorem puts_link {file link : Path} : Prog.Puts link (.toPath file) (do
    replaceGeneratedLinkWithFile host link
    ensureSymlink host file link) w := by
  intro _ w' h hdirect
  obtain ⟨_, w₁, hreplace, hensure⟩ := Prog.ok_of_bind h
  have hmade : Prog.Makes host.toOs (Within link) (ensureSymlink host file link) w₁ :=
    within_ensureSymlink (List.prefix_refl link)
  rw [show w' = (ensureSymlink host file link w₁).2 by rw [hensure]] at hdirect
  refine linked_of_ensureSymlink (missing_of_replaceWithFile hreplace (hmade.direct hdirect))
    hensure ?_
  rwa [hensure] at hdirect

theorem puts_installOne {file : OverlayFile} :
    Prog.Puts (overlay ++ file.dest) (.toPath (committed host file.src))
      (installOne host source overlay file) w := by
  refine .after fun _ _ => ?_
  split
  · exact .after fun _ _ => puts_link
  · exact .fail

theorem puts_install {files : List OverlayFile} {file : OverlayFile}
    (hfiles : files.Pairwise fun f g => Apart f.dest g.dest) (hfile : file ∈ files)
    (hdest : file.dest ≠ []) :
    Prog.Puts (overlay ++ file.dest) (.toPath (committed host file.src))
      (install host source overlay files) w :=
  .forEach host.toOs hfiles hfile (fun _ => puts_installOne)
    fun _ _ hapart _ => keeps_installOne hdest hapart

end TokioCronet.Overlay
