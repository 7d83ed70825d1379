import TokioCronet.Xtask.OverlayInstalled

/-!
# Runs of the overlay writers

Runs of `write_cronet_overlay`, one after the other and for any platforms. While their calls come
upon no link, nothing changes but the overlay and the output directory, and the files of the
platform's tables lead to what was committed. But a run follows the links that a former one has
installed: `fs::write` goes through the link at the path of a `BUILD.gn` that is in a table.
-/

namespace TokioCronet.Overlay

open FileTree
open GnBlocks (Fault Text)

variable {host : Host} {w w' : World} {source overlay p dest : Path} {target : Target}
variable {platform : PlatformBuild} {file : OverlayFile}

/-! ## Tables of a platform -/

/-- The files that a platform installs itself. -/
def ownFiles (host : Host) (platform : PlatformBuild) : List OverlayFile :=
  match platform.kind with
  | .android => ANDROID ++ if host.macos then ANDROID_MAC_HOST else []
  | .ohos => OHOS
  | .host | .linux | .ios | .macOs | .windows => []

/-- The files that are to be found in the overlay: a platform's own ones, and those of all
platforms that it does not replace. -/
def overlayFiles (host : Host) (platform : PlatformBuild) : List OverlayFile :=
  ownFiles host platform ++
    COMMON.filter fun file => file.dest ∉ (ownFiles host platform).map OverlayFile.dest

theorem keeps_prepareOverlay (hfile : file ∈ COMMON)
    (hown : file.dest ∉ (ownFiles host platform).map OverlayFile.dest) :
    Prog.Keeps host.toOs (overlay ++ file.dest) target
      (prepareOverlay host platform source overlay) w := by
  have hdest : file.dest ≠ [] := (by decide : ∀ f ∈ COMMON, f.dest ≠ []) file hfile
  unfold ownFiles at hown
  unfold prepareOverlay
  split <;> rename_i hkind <;> rw [hkind] at hown
  · have hnot : file.dest ∉ ANDROID.map OverlayFile.dest := fun hmem =>
      hown (by rw [List.map_append]; exact List.mem_append_left _ hmem)
    refine .bind (keeps_install hdest ?_) fun _ _ =>
      .bind (keeps_installSourceWrappers hdest ?_) fun _ _ =>
      keeps_linkAndroidHostTools hdest ?_ ?_
    · exact (by decide : ∀ f ∈ COMMON, f.dest ∉ ANDROID.map OverlayFile.dest →
        ∀ g ∈ ANDROID, Apart f.dest g.dest) file hfile hnot
    · exact (by decide : ∀ f ∈ COMMON, ∀ g ∈ ANDROID_SOURCE_WRAPPERS,
        Apart f.dest g.dest ∧ Apart f.dest g.upstreamAlias) file hfile
    · exact (by decide : ∀ f ∈ COMMON, OffTools f.dest) file hfile
    · exact (by decide : ∀ f ∈ COMMON, ∀ g ∈ ANDROID_MAC_HOST, Apart f.dest g.dest) file hfile
  · exact keeps_installSourceWrappers hdest ((by decide : ∀ f ∈ COMMON, ∀ g ∈ IOS,
      Apart f.dest g.dest ∧ Apart f.dest g.upstreamAlias) file hfile)
  · refine .bind (keeps_install hdest ?_) fun _ _ => keeps_installSourceWrappers hdest ?_
    · exact (by decide : ∀ f ∈ COMMON, ∀ g ∈ OHOS, Apart f.dest g.dest) file hfile
    · exact (by decide : ∀ f ∈ COMMON, ∀ g ∈ OHOS_SOURCE_WRAPPERS,
        Apart f.dest g.dest ∧ Apart f.dest g.upstreamAlias) file hfile
  all_goals exact .pure

theorem puts_linkAndroidHostTools (hmacos : host.macos = true) (hfile : file ∈ ANDROID_MAC_HOST) :
    Prog.Puts (overlay ++ file.dest) (.toPath (committed host file.src))
      (linkAndroidHostTools host source overlay) w := by
  have hdest : file.dest ≠ [] := (by decide : ∀ f ∈ ANDROID_MAC_HOST, f.dest ≠ []) file hfile
  unfold linkAndroidHostTools
  rw [if_neg (by rw [hmacos]; exact Bool.false_ne_true)]
  split
  · exact .fail
  · refine .after fun _ _ => .after fun _ _ => ?_
    split
    · exact .fail
    · refine .after fun _ _ => .after fun _ _ => ?_
      split
      · exact .fail
      · exact .after fun _ _ => .after fun _ _ => .after fun _ _ => .after fun _ _ =>
          .after fun _ _ => puts_install (by decide) hfile hdest

theorem puts_prepareOverlay (hfile : file ∈ ownFiles host platform) :
    Prog.Puts (overlay ++ file.dest) (.toPath (committed host file.src))
      (prepareOverlay host platform source overlay) w := by
  unfold ownFiles at hfile
  unfold prepareOverlay
  split <;> rename_i hkind <;> rw [hkind] at hfile
  · rcases List.mem_append.mp hfile with hfile | hfile
    -- the wrappers and the host tools are installed behind the table
    · have hdest : file.dest ≠ [] := (by decide : ∀ f ∈ ANDROID, f.dest ≠ []) file hfile
      refine .kept host.toOs (puts_install (by decide) hfile hdest) fun _ _ =>
        .bind (keeps_installSourceWrappers hdest ?_) fun _ _ =>
        keeps_linkAndroidHostTools hdest ?_ ?_
      · exact (by decide : ∀ f ∈ ANDROID, ∀ g ∈ ANDROID_SOURCE_WRAPPERS,
          Apart f.dest g.dest ∧ Apart f.dest g.upstreamAlias) file hfile
      · exact (by decide : ∀ f ∈ ANDROID, OffTools f.dest) file hfile
      · exact (by decide : ∀ f ∈ ANDROID, ∀ g ∈ ANDROID_MAC_HOST, Apart f.dest g.dest) file hfile
    · split at hfile
      · exact .after fun _ _ => .after fun _ _ => puts_linkAndroidHostTools ‹_› hfile
      · cases hfile
  · cases hfile
  · have hdest : file.dest ≠ [] := (by decide : ∀ f ∈ OHOS, f.dest ≠ []) file hfile
    refine .kept host.toOs (puts_install (by decide) hfile hdest) fun _ _ =>
      keeps_installSourceWrappers hdest ?_
    exact (by decide : ∀ f ∈ OHOS, ∀ g ∈ OHOS_SOURCE_WRAPPERS,
      Apart f.dest g.dest ∧ Apart f.dest g.upstreamAlias) file hfile
  all_goals cases hfile

/-- At the end of a run there are links to all files of the tables. -/
theorem puts_writeCanonicalOverlay (hfile : file ∈ overlayFiles host platform) :
    Prog.Puts (overlayOf source ++ file.dest) (.toPath (committed host file.src))
      (writeCanonicalOverlay host source platform) w := by
  -- the tables are installed behind all other writers
  refine .after fun _ _ => .after fun _ _ => .after fun _ _ => .after fun _ _ => .after fun _ _ =>
    .after fun _ _ => .after fun _ _ => .after fun _ _ => .after fun _ _ => .after fun _ _ =>
    .after fun _ _ => .after fun _ _ => .after fun _ _ => .after fun _ _ => .after fun _ _ =>
    .after fun _ _ => ?_
  rcases List.mem_append.mp hfile with hown | hcommon
  · exact .after fun _ _ => .kept host.toOs (puts_prepareOverlay hown) fun _ _ => .pure
  · obtain ⟨hmem, hnot⟩ := List.mem_filter.mp hcommon
    have hdest : file.dest ≠ [] := (by decide : ∀ f ∈ COMMON, f.dest ≠ []) file hmem
    exact .kept host.toOs (puts_install (by decide) hmem hdest) fun _ _ =>
      .bind (keeps_prepareOverlay hmem (of_decide_eq_true hnot)) fun _ _ => .pure

/-! ## Runs -/

/-- One run: the host, the source directory as it was named, and the platform. -/
structure Run where
  host : Host
  argument : Path
  platform : PlatformBuild

/-- A run that is over. -/
structure Ran where
  run : Run
  before : Tree
  result : Except Fault Path
  after : World

/-- `write_cronet_overlay` on a tree. -/
def Run.go (run : Run) (t : Tree) : Ran :=
  let ended := writeCronetOverlay run.host run.argument run.platform ⟨t, []⟩
  ⟨run, t, ended.1, ended.2⟩

/-- Runs one after the other. -/
def session (t : Tree) : List Run → List Ran
  | [] => []
  | run :: rest =>
    let ran := run.go t
    ran :: session ran.after.tree rest

/-- The canonical source directory of a run. -/
def Ran.canonical (ran : Ran) : Except IoError Path :=
  ran.before.canonicalize (ran.run.host.links + 1) ran.run.argument

/-- A place is outside what a run may change: the overlay and the output directory. -/
def Ran.Outside (ran : Ran) (q : Path) : Prop :=
  ∀ source, ran.canonical = .ok source → ¬ overlayOf source <+: q ∧ ¬ source ++ ["out"] <+: q

/-- The calls that a run has made came upon no link. -/
def Ran.Direct (ran : Ran) : Prop := ran.after.Direct

instance (ran : Ran) : Decidable ran.Direct :=
  inferInstanceAs (Decidable (∀ c ∈ ran.after.log, c.Direct))

/-- A call for a source tree touches nothing outside, or it would make a directory where there is
something. -/
theorem Ours.outside {c : Change} {t : Tree} {q : Path} (h : Ours source c)
    (hnode : ∀ q, q <+: source → t.node q ≠ none)
    (hoverlay : ¬ overlayOf source <+: q) (hout : ¬ source ++ ["out"] <+: q) :
    ¬ c.op.Touches c.path q ∨ c.op = .createDir ∧ t.node q ≠ none := by
  have hbelow : ∀ root, root <+: c.path → ¬ root <+: q → ¬ c.op.Touches c.path q := by
    intro root hroot hq htouch
    unfold Op.Touches at htouch
    split at htouch
    · exact hq (hroot.trans htouch)
    · exact hq (htouch ▸ hroot)
  have habove : ∀ root, root.dropLast <+: source → c.op = .createDir → c.path <+: root →
      ¬ root <+: q → ¬ c.op.Touches c.path q ∨ c.op = .createDir ∧ t.node q ≠ none := by
    intro root hroot hop hpath hq
    by_cases hcq : c.path = q
    -- a directory on the way to the canonical source is there
    · refine .inr ⟨hop, hnode q ?_⟩
      rw [hcq] at hpath
      rcases List.eq_nil_or_concat' root with rfl | ⟨d, n, rfl⟩
      · exact absurd (List.nil_prefix) hq
      rw [List.dropLast_concat] at hroot
      rcases List.prefix_concat_iff.mp hpath with rfl | hpath
      · exact absurd (List.prefix_refl _) hq
      · exact hpath.trans hroot
    · refine .inl fun htouch => hcq ?_
      rw [hop] at htouch
      simpa [Op.Touches] using htouch
  rcases h with (hroot | ⟨hop, hpath⟩) | (hroot | ⟨hop, hpath⟩)
  · exact .inl (hbelow _ hroot hoverlay)
  · refine habove _ ?_ hop hpath hoverlay
    rw [overlayOf, List.dropLast_concat]
    exact List.dropLast_prefix source
  · exact .inl (hbelow _ hroot hout)
  · refine habove _ ?_ hop hpath hout
    rw [List.dropLast_concat]

theorem ours_writeCronetOverlay {argument : Path} :
    Prog.Makes host.toOs (fun c => ∃ source,
      w.tree.canonicalize (host.links + 1) argument = .ok source ∧ Ours source c)
      (writeCronetOverlay host argument platform) w := by
  refine .bind (.mapErr .look) fun source w' h => ?_
  have hcanonical : w.tree.canonicalize (host.links + 1) argument = .ok source :=
    (Prod.mk.inj (Prog.ok_of_mapErr h)).1
  split
  · exact .fail
  · exact ours_writeCanonicalOverlay.mono fun c hc => ⟨source, hcanonical, hc⟩

variable {run : Run} {ran : Ran} {runs : List Run} {t : Tree} {q : Path} {content : List UInt8}

/-- **What one run changes**: while its calls come upon no link, the overlay and the output
directory only. -/
theorem Run.frame (hdirect : (run.go t).Direct) (hq : (run.go t).Outside q) :
    (run.go t).after.tree.node q = t.node q := by
  have hmade : Prog.Makes run.host.toOs _
      (writeCronetOverlay run.host run.argument run.platform) ⟨t, []⟩ := ours_writeCronetOverlay
  obtain ⟨cs, hlog, hchain, hours⟩ := hmade
  rw [List.nil_append] at hlog
  refine hchain.frame (fun c hc => hdirect c (hlog ▸ hc)) fun c hc => ?_
  obtain ⟨source, hcanonical, hc⟩ := hours c hc
  obtain ⟨hoverlay, hout⟩ := hq source hcanonical
  exact hc.outside (fun r hr => Tree.canonicalize_node hcanonical hr) hoverlay hout

/-- **What one run installs**: when it ends well, links to the files of the tables. -/
theorem Run.linked {overlay : Path} (hdirect : (run.go t).Direct)
    (hcanonical : (run.go t).canonical = .ok source) (hok : (run.go t).result = .ok overlay)
    (hfile : file ∈ overlayFiles run.host run.platform) :
    (run.go t).after.tree.Linked (overlayOf source ++ file.dest)
      (.toPath (committed run.host file.src)) := by
  have hrun : writeCronetOverlay run.host run.argument run.platform ⟨t, []⟩ =
      (.ok overlay, (run.go t).after) := Prod.ext hok rfl
  obtain ⟨source', w₁, hquery, hrest⟩ := Prog.ok_of_bind hrun
  obtain ⟨hlook, -⟩ := Prod.mk.inj (Prog.ok_of_mapErr hquery)
  obtain rfl : source' = source := Except.ok.inj (hlook.symm.trans hcanonical)
  split at hrest
  · cases hrest
  · exact puts_writeCanonicalOverlay hfile _ _ hrest hdirect

theorem Ran.Outside.above (h : ran.Outside p) (hq : q <+: p) : ran.Outside q := by
  intro source hsource
  obtain ⟨hoverlay, hout⟩ := h source hsource
  exact ⟨fun hpre => hoverlay (hpre.trans hq), fun hpre => hout (hpre.trans hq)⟩

end TokioCronet.Overlay
