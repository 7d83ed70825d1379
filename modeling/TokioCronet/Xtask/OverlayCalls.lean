import TokioCronet.Xtask.Overlay

/-!
# Which calls the writers make

By the paths that they are given: every call of a writer names something below the overlay, or
makes a directory on the way there. Where such a call acts is another matter.
-/

namespace TokioCronet.Overlay

open FileTree GnBlocks

variable {host : Host} {A : Change → Prop} {w : World}

/-! ## Links and directories -/

theorem makes_make {action : String} {op : Op} {path : Path} (h : ∀ t, A ⟨op, path, t⟩) :
    Prog.Makes host.toOs A (make host action op path) w :=
  .mapErr (.call (h _))

theorem makes_listDir {action : String} {path : Path} :
    Prog.Makes host.toOs A (listDir host action path) w :=
  .bind (.mapErr .look) fun _ _ _ => .pure

theorem makes_ensureSymlink {target link : Path} (hremove : ∀ t, A ⟨.removeFile, link, t⟩)
    (hlink : ∀ t, A ⟨.symlink (.toPath target), link, t⟩) :
    Prog.Makes host.toOs A (ensureSymlink host target link) w := by
  have hcreate : ∀ w, Prog.Makes host.toOs A
      (make host "create Cronet GN overlay link" (.symlink (.toPath target)) link) w :=
    fun _ => makes_make hlink
  refine .bind .look fun result w' _ => ?_
  split
  · split
    · exact .pure
    · exact .bind (makes_make hremove) fun _ w₁ _ => hcreate w₁
  · refine .bind .look fun isFile w₁ _ => ?_
    split
    · exact .bind (makes_make hremove) fun _ w₂ _ => hcreate w₂
    · exact .fail
  · refine .bind .look fun isDir w₁ _ => ?_
    split
    · exact .pure
    · exact .fail
  · exact hcreate w'

theorem makes_replaceWithDirectory {path : Path} (hremove : ∀ t, A ⟨.removeFile, path, t⟩)
    (hdir : ∀ q t, q <+: path → A ⟨.createDir, q, t⟩) :
    Prog.Makes host.toOs A (replaceGeneratedLinkWithDirectory host path) w := by
  have hcreate : ∀ w, Prog.Makes host.toOs A
      (makeDirAll host "create Cronet GN overlay directory" path) w :=
    fun _ => .mapErr (.createDirAll hdir)
  refine .bind .look fun result w' _ => ?_
  split
  · exact .bind (makes_make hremove) fun _ w₁ _ => hcreate w₁
  · exact .pure
  · exact .fail
  · exact hcreate w'

theorem makes_replaceWithFile {path : Path} (hremove : ∀ t, A ⟨.removeFile, path, t⟩) :
    Prog.Makes host.toOs A (replaceGeneratedLinkWithFile host path) w := by
  refine .bind .look fun result w' _ => ?_
  split
  · exact .fail
  · exact makes_make hremove
  · exact .pure

theorem makes_linkEntries {source overlay : Path} {skipped : Name → Bool} {names : List Name}
    (hremove : ∀ n t, A ⟨.removeFile, overlay ++ [n], t⟩)
    (hlink : ∀ n t, A ⟨.symlink (.toPath (source ++ [n])), overlay ++ [n], t⟩) :
    Prog.Makes host.toOs A (linkEntries host source overlay skipped names) w := by
  refine .forEach fun n _ w' => ?_
  split
  · exact .pure
  · exact makes_ensureSymlink (hremove n) (hlink n)

/-! ## Below the overlay -/

/-- A call names something below the overlay, or makes a directory on the way there. -/
def Within (root : Path) (c : Change) : Prop :=
  root <+: c.path ∨ c.op = .createDir ∧ c.path <+: root

variable {root source overlay : Path} {n : Name}

theorem within_below {op : Op} {path : Path} (h : root <+: path) :
    ∀ t, Within root ⟨op, path, t⟩ := fun _ => .inl h

theorem below_append {rest : Path} (h : root <+: overlay) : root <+: overlay ++ rest :=
  h.trans (List.prefix_append _ _)

theorem within_createDir {path : Path} (h : root <+: path) :
    ∀ q t, q <+: path → Within root ⟨.createDir, q, t⟩ := by
  intro q t hq
  rcases List.prefix_or_prefix_of_prefix h hq with hroot | habove
  · exact .inl hroot
  · exact .inr ⟨rfl, habove⟩

theorem within_make {action : String} {op : Op} {path : Path} (h : root <+: path) :
    Prog.Makes host.toOs (Within root) (make host action op path) w :=
  makes_make (within_below h)

theorem within_ensureSymlink {target link : Path} (h : root <+: link) :
    Prog.Makes host.toOs (Within root) (ensureSymlink host target link) w :=
  makes_ensureSymlink (within_below h) (within_below h)

theorem within_replaceWithDirectory {path : Path} (h : root <+: path) :
    Prog.Makes host.toOs (Within root) (replaceGeneratedLinkWithDirectory host path) w :=
  makes_replaceWithDirectory (within_below h) (within_createDir h)

theorem within_replaceWithFile {path : Path} (h : root <+: path) :
    Prog.Makes host.toOs (Within root) (replaceGeneratedLinkWithFile host path) w :=
  makes_replaceWithFile (within_below h)

theorem within_linkEntries {skipped : Name → Bool} {names : List Name} (h : root <+: overlay) :
    Prog.Makes host.toOs (Within root) (linkEntries host source overlay skipped names) w :=
  makes_linkEntries (fun _ => within_below (below_append h)) fun _ => within_below (below_append h)

/-- The common beginning: a directory of its own, and links to what the source has there. -/
theorem within_linkDirectory {action : String} {skipped : Name → Bool} {m : Prog Fault Unit}
    (h : root <+: overlay) (hm : ∀ w, Prog.Makes host.toOs (Within root) m w) :
    Prog.Makes host.toOs (Within root) (do
      replaceGeneratedLinkWithDirectory host overlay
      let names ← listDir host action source
      linkEntries host source overlay skipped names
      m) w :=
  .bind (within_replaceWithDirectory h) fun _ _ _ => .bind makes_listDir fun _ _ _ =>
    .bind (within_linkEntries h) fun _ w₁ _ => hm w₁

theorem within_writeTestFilteredDirectory {depth : Nat} {filterTests : Bool}
    (h : root <+: overlay) :
    Prog.Makes host.toOs (Within root)
      (writeTestFilteredDirectory host depth source overlay filterTests) w := by
  induction depth generalizing source overlay w with
  | zero => exact .fail
  | succ depth ih =>
    refine .bind (within_replaceWithDirectory h) fun _ _ _ => .bind makes_listDir fun _ _ _ =>
      .bind (.forEach fun n _ w₁ => ?_) fun _ _ _ => .bind .look fun _ _ _ =>
      .bind (.onlyIf (ih (below_append h))) fun _ _ _ => .bind .look fun _ _ _ => .onlyIf ?_
    · refine .bind .look fun _ _ _ => ?_
      split
      · exact .pure
      · refine .bind .look fun _ _ _ => ?_
        split
        · exact ih (below_append h)
        · exact within_ensureSymlink (below_append h)
    · exact .bind (.mapErr .look) fun _ _ _ => .bind .look fun _ _ _ =>
        within_make (below_append h)

theorem within_writeTestingOverlay (h : root <+: overlay) :
    Prog.Makes host.toOs (Within root) (writeTestingOverlay host source overlay) w := by
  refine within_linkDirectory (below_append h) fun w₁ => .bind (.mapErr .look) fun _ _ _ =>
    .bind .look fun _ _ _ => within_make ?_
  exact below_append (below_append h)

theorem within_writeBuildOverlay {filterTests : Bool} (h : root <+: overlay) :
    Prog.Makes host.toOs (Within root) (writeBuildOverlay host source overlay filterTests) w := by
  have hbuild : ∀ rest, root <+: overlay ++ ["build"] ++ rest :=
    fun rest => below_append (below_append h)
  exact within_linkDirectory (below_append h) fun w₁ => .bind (.mapErr .look) fun _ _ _ =>
    .bind .look fun _ _ _ => .bind (within_make (hbuild _)) fun _ _ _ =>
    .bind (within_ensureSymlink (hbuild _)) fun _ _ _ =>
    within_writeTestFilteredDirectory (hbuild _)

theorem within_writeBuildtoolsOverlay (h : root <+: overlay) :
    Prog.Makes host.toOs (Within root) (writeBuildtoolsOverlay host source overlay) w := by
  refine within_linkDirectory (below_append h) fun w₁ =>
    within_linkDirectory (below_append (below_append h)) fun w₂ => ?_
  exact .bind (within_replaceWithDirectory (below_append (below_append (below_append h))))
    fun _ _ _ => .bind makes_listDir fun _ _ _ =>
    within_linkEntries (below_append (below_append (below_append h)))

theorem within_applyNativeExtensions (h : root <+: overlay) :
    Prog.Makes host.toOs (Within root) (applyNativeExtensions host overlay) w :=
  .bind (within_replaceWithDirectory (below_append h)) fun _ _ _ =>
    .bind (within_ensureSymlink (below_append (below_append h))) fun _ _ _ =>
    within_linkEntries (below_append h)

theorem within_writeCronetComponentOverlay {filterTests : Bool} (h : root <+: overlay) :
    Prog.Makes host.toOs (Within root)
      (writeCronetComponentOverlay host source overlay filterTests) w := by
  refine .bind (within_replaceWithDirectory (below_append h)) fun _ _ _ =>
    .bind makes_listDir fun _ _ _ => .bind (.forEach fun n _ w₁ => ?_) fun _ _ _ =>
    within_linkDirectory (below_append (below_append h)) fun w₂ =>
    within_linkDirectory (below_append (below_append (below_append h))) fun w₃ =>
    within_applyNativeExtensions h
  split
  · exact .pure
  · refine .bind .look fun _ _ _ => ?_
    split
    · exact within_writeTestFilteredDirectory (below_append (below_append h))
    · exact within_ensureSymlink (below_append (below_append h))

theorem within_writeThirdPartyOverlay {filterTests : Bool} (h : root <+: overlay) :
    Prog.Makes host.toOs (Within root)
      (writeThirdPartyOverlay host source overlay filterTests) w := by
  refine .bind (within_replaceWithDirectory (below_append h)) fun _ _ _ =>
    .bind makes_listDir fun _ _ _ => .bind (.forEach fun n _ w₁ => ?_) fun _ _ _ =>
    .bind .look fun _ _ _ => .onlyIf ?_
  · split
    · exact .pure
    · refine .bind .look fun _ _ _ => ?_
      split
      · exact .pure
      · refine .bind .look fun _ _ _ => ?_
        split
        · exact within_writeTestFilteredDirectory (below_append (below_append h))
        · exact within_ensureSymlink (below_append (below_append h))
  · exact .bind (.mapErr .look) fun _ _ _ => .bind .look fun _ _ _ =>
      within_make (below_append (below_append h))

theorem within_cxxLibcxxRounds {components : List Name} (h : root <+: overlay) :
    Prog.Makes host.toOs (Within root) (cxxLibcxxRounds host source overlay components) w := by
  induction components generalizing source overlay w with
  | nil => exact .pure
  | cons component rest ih =>
    exact within_linkDirectory (below_append h) fun w₁ => ih (below_append h)

/-! ## Installed files -/

theorem below_parent {destRel : Path} (h : root <+: overlay) (hdest : destRel ≠ []) :
    root <+: (overlay ++ destRel).dropLast := by
  rw [List.dropLast_append_of_ne_nil hdest]
  exact below_append h

theorem within_materializeParent {destRel : Path} (h : root <+: overlay) (hdest : destRel ≠ []) :
    Prog.Makes host.toOs (Within root) (materializeParent host source overlay destRel) w := by
  refine .bind .look fun _ _ _ => ?_
  split
  · exact .pure
  · refine .bind (within_replaceWithDirectory (below_parent h hdest)) fun _ _ _ =>
      .bind .look fun _ _ _ => ?_
    split
    · exact .bind makes_listDir fun _ _ _ => within_linkEntries (below_parent h hdest)
    · exact .pure

theorem within_installOne {file : OverlayFile} (h : root <+: overlay) (hdest : file.dest ≠ []) :
    Prog.Makes host.toOs (Within root) (installOne host source overlay file) w := by
  refine .bind .look fun _ _ _ => ?_
  split
  · exact .bind (within_materializeParent h hdest) fun _ _ _ =>
      .bind (within_replaceWithFile (below_append h)) fun _ _ _ =>
      within_ensureSymlink (below_append h)
  · exact .fail

theorem within_install {files : List OverlayFile} (h : root <+: overlay)
    (hfiles : ∀ file ∈ files, file.dest ≠ []) :
    Prog.Makes host.toOs (Within root) (install host source overlay files) w :=
  .forEach fun file hfile _ => within_installOne h (hfiles file hfile)

theorem within_installSourceWrappers {wrappers : List SourceWrapper} (h : root <+: overlay)
    (hwrappers : ∀ wrapper ∈ wrappers, wrapper.dest ≠ [] ∧ wrapper.upstreamAlias ≠ []) :
    Prog.Makes host.toOs (Within root) (installSourceWrappers host source overlay wrappers) w := by
  refine .forEach fun wrapper hwrapper w₁ => ?_
  obtain ⟨hdest, hupstream⟩ := hwrappers wrapper hwrapper
  exact .bind (within_installOne h hdest) fun _ _ _ =>
    .bind (within_materializeParent h hupstream) fun _ _ _ =>
    .bind (within_replaceWithFile (below_append h)) fun _ _ _ =>
    within_ensureSymlink (below_append h)

theorem within_clearUnlessLinked {target link : Path} {blocked : Prog Fault Unit} {what : String}
    (h : root <+: link) (hblocked : ∀ w, Prog.Makes host.toOs (Within root) blocked w) :
    Prog.Makes host.toOs (Within root) (clearUnlessLinked host target link blocked what) w := by
  refine .bind .look fun _ _ _ => ?_
  split
  · split
    · exact .pure
    · exact within_make h
  · exact hblocked _
  · exact within_make h
  · exact .pure

theorem within_linkAndroidHostTools (h : root <+: overlay) :
    Prog.Makes host.toOs (Within root) (linkAndroidHostTools host source overlay) w := by
  unfold linkAndroidHostTools
  split
  · exact .pure
  · split
    · exact .fail
    · refine .bind makes_listDir fun _ _ _ => .bind .look fun _ _ _ => ?_
      split
      · exact .fail
      · refine .bind makes_listDir fun _ _ _ => .bind .look fun _ _ _ => ?_
        split
        · exact .fail
        · refine .bind (within_clearUnlessLinked (below_append h) fun _ => ?_) fun _ _ _ =>
            .bind (within_ensureSymlink (below_append h)) fun _ _ _ => .bind ?_ fun _ _ _ =>
            .bind (within_clearUnlessLinked (below_append h) fun _ => .fail) fun _ _ _ =>
            .bind (within_ensureSymlink (below_append h)) fun _ _ _ =>
            within_install h (by decide)
          · exact within_make (below_append h)
          · refine .bind .look fun _ _ _ => ?_
            split
            · exact .pure
            · exact .fail

theorem within_prepareOverlay {platform : PlatformBuild} (h : root <+: overlay) :
    Prog.Makes host.toOs (Within root) (prepareOverlay host platform source overlay) w := by
  unfold prepareOverlay
  split
  · exact .bind (within_install h (by decide)) fun _ _ _ =>
      .bind (within_installSourceWrappers h (by decide)) fun _ _ _ =>
      within_linkAndroidHostTools h
  · exact within_installSourceWrappers h (by decide)
  · exact .bind (within_install h (by decide)) fun _ _ _ =>
      within_installSourceWrappers h (by decide)
  all_goals exact .pure

/-! ## A whole run -/

/-- A call of a run for a source tree: what it names is below the overlay or the output
directory, or it makes a directory on the way there. -/
def Ours (source : Path) (c : Change) : Prop :=
  Within (overlayOf source) c ∨ Within (source ++ ["out"]) c

theorem ours_writeCanonicalOverlay {platform : PlatformBuild} :
    Prog.Makes host.toOs (Ours source) (writeCanonicalOverlay host source platform) w := by
  have hroot : overlayOf source <+: overlayOf source := List.prefix_refl _
  have hours : ∀ {α : Type} {m : Prog Fault α} {w : World},
      Prog.Makes host.toOs (Within (overlayOf source)) m w →
      Prog.Makes host.toOs (Ours source) m w := fun h => h.mono fun _ => .inl
  have hout : ∀ q t, q <+: source ++ ["out"] → Ours source ⟨.createDir, q, t⟩ :=
    fun q t hq => .inr (within_createDir (List.prefix_refl _) q t hq)
  refine .bind .look fun _ _ _ => .bind (.onlyIf (hours (within_make hroot))) fun _ _ _ =>
    .bind (.mapErr (.createDirAll fun q t hq => .inl (within_createDir hroot q t hq)))
      fun _ _ _ => .bind (.bind .look fun _ _ _ => ?_) fun _ _ _ =>
    .bind (hours (within_ensureSymlink (below_append hroot))) fun _ _ _ =>
    .bind makes_listDir fun _ _ _ => .bind (hours (within_linkEntries hroot)) fun _ _ _ =>
    .bind (.mapErr (.createDirAll hout)) fun _ _ _ =>
    .bind (hours (within_ensureSymlink (below_append hroot))) fun _ _ _ =>
    .bind (hours (within_writeBuildOverlay hroot)) fun _ _ _ =>
    .bind (hours (within_writeBuildtoolsOverlay hroot)) fun _ _ _ =>
    .bind (.forEach fun n _ _ => hours (within_writeTestFilteredDirectory (below_append hroot)))
      fun _ _ _ => .bind (hours (within_writeCronetComponentOverlay hroot)) fun _ _ _ =>
    .bind (hours (within_writeTestingOverlay hroot)) fun _ _ _ =>
    .bind (hours (within_writeThirdPartyOverlay hroot)) fun _ _ _ =>
    .bind (hours (within_cxxLibcxxRounds (below_append hroot))) fun _ _ _ =>
    .bind (hours (within_install hroot (by decide))) fun _ _ _ =>
    .bind (hours (within_prepareOverlay hroot)) fun _ _ _ => .pure
  split
  · exact .pure
  · exact hours (within_make (below_append hroot))

end TokioCronet.Overlay
