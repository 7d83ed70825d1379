import Mathlib.Data.List.Basic
import Mathlib.Data.List.MinMax
import TokioCronet.Xtask.LibraryNames

/-!
# When a native build is skipped

`ensure_native_from_source_configured` returns without building when a library of the
requested linkage exists and the wrapper sources are not newer than "the library". The
two are judged by two scans of one directory: the second takes the newest file with
`cronet` in its name, which need not be a library, nor one of the requested linkage.
-/

namespace TokioCronet.Xtask

/-- `crate_wrapper_paths` -/
inductive Wrapper where
  | cronetRsC
  | buildGn
  | androidJniOnload
  | androidStaticSupport
  | bind
  | ohos
  | websocket
  deriving DecidableEq

/-- `crate_wrapper_paths` -/
def crateWrapperPaths : List Wrapper :=
  [.cronetRsC, .buildGn, .androidJniOnload, .androidStaticSupport, .bind, .ohos, .websocket]

/-- An entry of the output directory. -/
structure Entry where
  name : Name
  mtime : Nat
  deriving DecidableEq

/-- What `ensure_native_from_source_configured` looks at for one target. A directory that
cannot be read has no entries. -/
structure Workspace where
  /-- `cronet_c.h` and `bidirectional_stream_c.h` are in the source tree. -/
  header : Bool := false
  bidirectionalHeader : Bool := false
  /-- The wrapper target is in the overlay. -/
  overlayBuildGn : Bool := false
  overlayWebsocket : Bool := false
  wrappers : Wrapper → Option Nat := fun _ => some 0
  output : List Entry := []
  clock : Nat := 0

variable {w : Workspace} {linkage : NativeLinkage}

/-! ## The program -/

/-- `native_library_exists` -/
def Workspace.nativeLibraryExists (w : Workspace) (linkage : NativeLinkage) : Bool :=
  w.output.any fun entry => isNativeLibraryOutput entry.name linkage

/-- `newest_library_mtime` -/
def Workspace.newestLibraryMtime (w : Workspace) : Option Nat :=
  ((w.output.filter fun entry => contains entry.name "cronet".toList).map Entry.mtime).max?

/-- `requires_rebuild` -/
def Workspace.requiresRebuild (w : Workspace) : Bool :=
  if !w.overlayBuildGn || !w.overlayWebsocket then true
  else
    match w.newestLibraryMtime with
    | none => true
    | some lib => crateWrapperPaths.any fun path => (w.wrappers path).any fun mtime => lib < mtime

/-- `ensure_native_from_source_configured` returns without building. -/
def Workspace.returnsEarly (w : Workspace) (linkage : NativeLinkage) : Bool :=
  w.header && w.bidirectionalHeader && w.nativeLibraryExists linkage && !w.requiresRebuild

/-! ## Histories -/

/-- What happens to the workspace. A build, of either linkage or both, leaves the files that
it has written; anything else may write a file as well. -/
inductive Event where
  | sync
  | edit (path : Wrapper)
  | build (outputs : List Name)
  | change (name : Name)
  deriving DecidableEq

/-- The files that an event writes into the output directory. -/
def Event.writes : Event → List Name
  | .build outputs => outputs
  | .change name => [name]
  | _ => []

/-- Files are written into the output directory. -/
def Workspace.write (w : Workspace) (names : List Name) : Workspace :=
  { w with
    clock := w.clock + 1,
    output := names.map (fun name => ⟨name, w.clock + 1⟩) ++
      w.output.filter fun entry => entry.name ∉ names }

/-- One event, at a time of its own. A build links the wrappers into the overlay. -/
def Workspace.step (w : Workspace) : Event → Workspace
  | .sync => { w with clock := w.clock + 1, header := true, bidirectionalHeader := true }
  | .edit path =>
    { w with
      clock := w.clock + 1,
      wrappers := fun p => if p = path then some (w.clock + 1) else w.wrappers p }
  | .build outputs => { w.write outputs with overlayBuildGn := true, overlayWebsocket := true }
  | .change name => w.write [name]

/-- What a history leaves. -/
def run (events : List Event) : Workspace := events.foldl Workspace.step {}

/-! ## Freshness -/

/-- A library of the linkage is there and was written after the last edit of every wrapper
source. -/
def Workspace.Fresh (w : Workspace) (linkage : NativeLinkage) : Prop :=
  ∃ entry ∈ w.output, IsLibrary entry.name linkage ∧
    ∀ path mtime, w.wrappers path = some mtime → mtime < entry.mtime

/-- The headers and the wrapper target are in the tree. -/
structure Workspace.Prepared (w : Workspace) : Prop where
  /-- both headers are in the source tree -/
  headers : w.header = true ∧ w.bidirectionalHeader = true
  /-- both wrapper files are in the overlay -/
  overlay : w.overlayBuildGn = true ∧ w.overlayWebsocket = true

/-- While no library of the linkage is fresh, a file with `cronet` in its name is written only
with such a library, or where no file passes for one, neither there nor among the written. -/
def Unmasked (linkage : NativeLinkage) (w : Workspace) (e : Event) : Prop :=
  ¬ w.Fresh linkage → (∃ name ∈ e.writes, contains name "cronet".toList = true) →
    (∃ name ∈ e.writes, IsLibrary name linkage) ∨
      w.nativeLibraryExists linkage = false ∧
        ∀ name ∈ e.writes, isNativeLibraryOutput name linkage = false

/-- Every step of the history meets the condition. -/
def AllUnmasked (linkage : NativeLinkage) (w : Workspace) : List Event → Prop
  | [] => True
  | e :: events => Unmasked linkage w e ∧ AllUnmasked linkage (w.step e) events

/-! ## Times -/

/-- Nothing is from the future. -/
structure Timed (w : Workspace) : Prop where
  /-- files of the output directory -/
  written : ∀ entry ∈ w.output, entry.mtime ≤ w.clock
  /-- edits of the wrapper sources -/
  edited : ∀ path mtime, w.wrappers path = some mtime → mtime ≤ w.clock

theorem mem_write {names : List Name} {entry : Entry} :
    entry ∈ (w.write names).output ↔
      (entry.name ∈ names ∧ entry.mtime = w.clock + 1) ∨
        (entry ∈ w.output ∧ entry.name ∉ names) := by
  rw [Workspace.write, List.mem_append, List.mem_map, List.mem_filter, decide_eq_true_iff]
  refine or_congr ⟨?_, ?_⟩ Iff.rfl
  · rintro ⟨name, hname, rfl⟩
    exact ⟨hname, rfl⟩
  · rintro ⟨hname, hmtime⟩
    exact ⟨entry.name, hname, by rw [← hmtime]⟩

theorem timed_init : Timed {} where
  written _ h := absurd h List.not_mem_nil
  edited _ _ h := (Option.some.inj h).ge

theorem timed_write {names : List Name} (ht : Timed w) : Timed (w.write names) := by
  constructor
  · intro entry he
    rcases mem_write.mp he with ⟨-, hnow⟩ | ⟨he, -⟩
    · exact hnow.le
    · exact Nat.le_succ_of_le (ht.written entry he)
  · intro path mtime hpath
    exact Nat.le_succ_of_le (ht.edited path mtime hpath)

theorem timed_step {e : Event} (ht : Timed w) : Timed (w.step e) := by
  cases e with
  | sync =>
    exact ⟨fun entry he => Nat.le_succ_of_le (ht.written entry he),
      fun path mtime hpath => Nat.le_succ_of_le (ht.edited path mtime hpath)⟩
  | edit path =>
    refine ⟨fun entry he => Nat.le_succ_of_le (ht.written entry he), fun p mtime hp => ?_⟩
    simp only [Workspace.step] at hp
    split_ifs at hp with heq
    · exact (Option.some.inj hp).ge
    · exact Nat.le_succ_of_le (ht.edited p mtime hp)
  | build outputs =>
    obtain ⟨hwritten, hedited⟩ : Timed (w.write outputs) := timed_write ht
    exact ⟨hwritten, hedited⟩
  | change name => exact timed_write ht

theorem timed_run {events : List Event} (ht : Timed w) :
    Timed (events.foldl Workspace.step w) := by
  induction events generalizing w with
  | nil => exact ht
  | cons e events ih => exact ih (timed_step ht)

/-! ## What a write can hide -/

/-- A file that passes for a library has `cronet` in its name. -/
theorem contains_of_accepted {name : Name} (h : isNativeLibraryOutput name linkage = true) :
    contains name "cronet".toList = true := by
  cases linkage with
  | dynamic =>
    simp only [isNativeLibraryOutput, Bool.and_eq_true, Bool.or_eq_true,
      List.isPrefixOf_iff_prefix] at h
    refine decide_eq_true ?_
    rcases h.1 with hpre | hpre
    · exact List.IsInfix.trans ⟨"lib".toList, ".".toList, rfl⟩ hpre.isInfix
    · exact List.IsInfix.trans ⟨[], ".".toList, rfl⟩ hpre.isInfix
  | static =>
    simp only [isNativeLibraryOutput, Bool.and_eq_true, Bool.or_eq_true, beq_iff_eq] at h
    rcases h.1 with rfl | rfl
    · decide +kernel
    · decide +kernel

theorem exists_write {names : List Name} : (w.write names).nativeLibraryExists linkage = true ↔
    (∃ name ∈ names, isNativeLibraryOutput name linkage = true) ∨
      w.nativeLibraryExists linkage = true := by
  simp only [Workspace.nativeLibraryExists, List.any_eq_true]
  constructor
  · rintro ⟨entry, he, hlib⟩
    rcases mem_write.mp he with ⟨hname, -⟩ | ⟨he, -⟩
    · exact .inl ⟨_, hname, hlib⟩
    · exact .inr ⟨entry, he, hlib⟩
  · rintro (⟨name, hname, hlib⟩ | ⟨entry, he, hlib⟩)
    · exact ⟨⟨name, w.clock + 1⟩, mem_write.mpr (.inl ⟨hname, rfl⟩), hlib⟩
    · by_cases hname : entry.name ∈ names
      · exact ⟨⟨entry.name, w.clock + 1⟩, mem_write.mpr (.inl ⟨hname, rfl⟩), hlib⟩
      · exact ⟨entry, mem_write.mpr (.inr ⟨he, hname⟩), hlib⟩

/-- A library among the written files is newer than every edit, and one that was fresh before
stays so. -/
theorem fresh_write {names : List Name} (ht : Timed w) :
    (w.write names).Fresh linkage ↔
      (∃ name ∈ names, IsLibrary name linkage) ∨ w.Fresh linkage := by
  constructor
  · rintro ⟨entry, he, hlib, hnewer⟩
    rcases mem_write.mp he with ⟨hname, -⟩ | ⟨he, -⟩
    · exact .inl ⟨_, hname, hlib⟩
    · exact .inr ⟨entry, he, hlib, hnewer⟩
  · have hnow : ∀ path mtime, w.wrappers path = some mtime → mtime < w.clock + 1 :=
      fun path mtime hpath => Nat.lt_succ_of_le (ht.edited path mtime hpath)
    rintro (⟨name, hname, hlib⟩ | ⟨entry, he, hlib, hnewer⟩)
    · exact ⟨⟨name, w.clock + 1⟩, mem_write.mpr (.inl ⟨hname, rfl⟩), hlib, hnow⟩
    · by_cases hname : entry.name ∈ names
      · exact ⟨⟨entry.name, w.clock + 1⟩, mem_write.mpr (.inl ⟨hname, rfl⟩), hlib, hnow⟩
      · exact ⟨entry, mem_write.mpr (.inr ⟨he, hname⟩), hlib, hnewer⟩

/-- Where no library is fresh, `requires_rebuild` sees it, or nothing passes for a library. -/
def Shown (linkage : NativeLinkage) (w : Workspace) : Prop :=
  ¬ w.Fresh linkage →
    (∀ entry ∈ w.output, contains entry.name "cronet".toList = true →
      ∃ path mtime, w.wrappers path = some mtime ∧ entry.mtime < mtime) ∨
    w.nativeLibraryExists linkage = false

theorem shown_write {names : List Name} (ht : Timed w) (hs : Shown linkage w)
    (hu : ¬ w.Fresh linkage → (∃ name ∈ names, contains name "cronet".toList = true) →
      (∃ name ∈ names, IsLibrary name linkage) ∨
        w.nativeLibraryExists linkage = false ∧
          ∀ name ∈ names, isNativeLibraryOutput name linkage = false) :
    Shown linkage (w.write names) := by
  intro hnot
  rw [fresh_write ht, not_or] at hnot
  obtain ⟨hnone, hstale⟩ := hnot
  -- nothing passes for a library if nothing did and nothing that does is written
  have habsent (hw : w.nativeLibraryExists linkage = false)
      (hnames : ∀ name ∈ names, isNativeLibraryOutput name linkage = false) :
      (w.write names).nativeLibraryExists linkage = false := by
    rw [← Bool.not_eq_true, exists_write, not_or, hw]
    refine ⟨?_, Bool.false_ne_true⟩
    rintro ⟨name, hname, hlib⟩
    rw [hnames name hname] at hlib
    cases hlib
  by_cases hcronet : ∃ name ∈ names, contains name "cronet".toList = true
  · obtain ⟨hw, hnames⟩ := (hu hstale hcronet).resolve_left hnone
    exact .inr (habsent hw hnames)
  · push Not at hcronet
    rcases hs hstale with holder | hw
    · refine .inl fun entry he hname => ?_
      rcases mem_write.mp he with ⟨hmem, -⟩ | ⟨he, -⟩
      · exact absurd hname (hcronet _ hmem)
      · exact holder entry he hname
    · refine .inr (habsent hw fun name hname => ?_)
      rw [← Bool.not_eq_true]
      exact fun hlib => hcronet name hname (contains_of_accepted hlib)

theorem shown_step {e : Event} (ht : Timed w) (hs : Shown linkage w)
    (hu : Unmasked linkage w e) : Shown linkage (w.step e) := by
  cases e with
  | sync => exact hs
  | edit path =>
    -- the edit is newer than every file
    exact fun _ => .inl fun entry he _ =>
      ⟨path, w.clock + 1, if_pos rfl, Nat.lt_succ_of_le (ht.written entry he)⟩
  | build outputs =>
    have hwrite : Shown linkage (w.write outputs) := shown_write ht hs hu
    exact hwrite
  | change name => exact shown_write ht hs hu

theorem shown_run {events : List Event} (ht : Timed w) (hs : Shown linkage w)
    (hu : AllUnmasked linkage w events) : Shown linkage (events.foldl Workspace.step w) := by
  induction events generalizing w with
  | nil => exact hs
  | cons e events ih =>
    obtain ⟨he, hevents⟩ := hu
    exact ih (timed_step ht) (shown_step ht hs he) hevents

/-- What `requires_rebuild` has found when it is content. -/
theorem newest_of_not_requiresRebuild (h : w.requiresRebuild = false) :
    ∃ entry ∈ w.output, contains entry.name "cronet".toList = true ∧
      ∀ path mtime, w.wrappers path = some mtime → mtime ≤ entry.mtime := by
  unfold Workspace.requiresRebuild at h
  split_ifs at h with hoverlay
  cases hnewest : w.newestLibraryMtime with
  | none => simp [hnewest] at h
  | some lib =>
    have hmem := List.max?_mem hnewest
    obtain ⟨entry, he, rfl⟩ := List.mem_map.mp hmem
    obtain ⟨he, hcronet⟩ := List.mem_filter.mp he
    refine ⟨entry, he, hcronet, fun path mtime hpath => ?_⟩
    by_contra hlt
    have hany : (crateWrapperPaths.any fun path =>
        (w.wrappers path).any fun mtime => entry.mtime < mtime) = true := by
      refine List.any_eq_true.mpr ⟨path, by cases path <;> decide, ?_⟩
      rw [hpath]
      exact decide_eq_true (Nat.lt_of_not_le hlt)
    simp only [hnewest, hany] at h
    cases h

/-- A file with `cronet` in its name that is newer than every edit contents `requires_rebuild`. -/
theorem not_requiresRebuild_of_newer (hp : w.Prepared) {entry : Entry} (he : entry ∈ w.output)
    (hcronet : contains entry.name "cronet".toList = true)
    (hnewer : ∀ path mtime, w.wrappers path = some mtime → mtime ≤ entry.mtime) :
    w.requiresRebuild = false := by
  have hmem : entry.mtime ∈
      (w.output.filter fun entry => contains entry.name "cronet".toList).map Entry.mtime :=
    List.mem_map_of_mem (List.mem_filter.mpr ⟨he, hcronet⟩)
  obtain ⟨lib, hlib⟩ : ∃ lib, w.newestLibraryMtime = some lib :=
    Option.ne_none_iff_exists'.mp fun hnone =>
      absurd (List.max?_eq_none_iff.mp hnone ▸ hmem) List.not_mem_nil
  have hle : entry.mtime ≤ lib := (List.max?_eq_some_iff.mp hlib).2 _ hmem
  rw [Workspace.requiresRebuild, hp.overlay.1, hp.overlay.2, hlib]
  refine List.any_eq_false.mpr fun path _ hany => ?_
  obtain ⟨mtime, hpath, hlt⟩ := (Option.any_eq_true _ _).mp hany
  have hold := hnewer path mtime hpath
  have hlt : lib < mtime := of_decide_eq_true hlt
  omega

/-- A write beside stale libraries, with `cronet` in a name and no library among the files,
makes the libraries pass. -/
theorem masked_write {w' : Workspace} {names : List Name} {name : Name} (ht : Timed w)
    (houtput : w'.output = (w.write names).output) (hwrappers : w'.wrappers = w.wrappers)
    (hp : w'.Prepared) (hstale : ¬ w.Fresh linkage) (hname : name ∈ names)
    (hcronet : contains name "cronet".toList = true)
    (hnone : ¬ ∃ name ∈ names, IsLibrary name linkage)
    (hpasses : (∃ name ∈ names, isNativeLibraryOutput name linkage = true) ∨
      w.nativeLibraryExists linkage = true) :
    w'.returnsEarly linkage = true ∧ ¬ w'.Fresh linkage := by
  have hexists : w'.nativeLibraryExists linkage = true := by
    rw [Workspace.nativeLibraryExists, houtput]
    exact exists_write.mpr hpasses
  have hcontent : w'.requiresRebuild = false := by
    have he : ⟨name, w.clock + 1⟩ ∈ w'.output := houtput ▸ mem_write.mpr (.inl ⟨hname, rfl⟩)
    refine not_requiresRebuild_of_newer hp he hcronet fun path mtime hpath => ?_
    rw [hwrappers] at hpath
    exact Nat.le_succ_of_le (ht.edited path mtime hpath)
  constructor
  · rw [Workspace.returnsEarly, hp.headers.1, hp.headers.2, hexists, hcontent]
    rfl
  · rw [Workspace.Fresh, houtput, hwrappers]
    exact fun hfresh => ((fresh_write ht).mp hfresh).elim hnone hstale

/-- The first step that the condition forbids makes a library pass that is not fresh. -/
theorem masked_step {e : Event} (ht : Timed w) (hm : ¬ Unmasked linkage w e)
    (hp : (w.step e).Prepared) :
    (w.step e).returnsEarly linkage = true ∧ ¬ (w.step e).Fresh linkage := by
  simp only [Unmasked, Classical.not_imp, not_or, not_and] at hm
  obtain ⟨hstale, ⟨name, hname, hcronet⟩, hnone, hpasses⟩ := hm
  have hpasses : (∃ name ∈ e.writes, isNativeLibraryOutput name linkage = true) ∨
      w.nativeLibraryExists linkage = true := by
    cases hw : w.nativeLibraryExists linkage with
    | true => exact .inr rfl
    | false => simpa using hpasses hw
  cases e with
  | sync => cases hname
  | edit path => cases hname
  | build outputs => exact masked_write ht rfl rfl hp hstale hname hcronet hnone hpasses
  | change name => exact masked_write ht rfl rfl hp hstale hname hcronet hnone hpasses

/-- **A build is skipped only for a fresh library**, in every history in which no file with
`cronet` in its name hides a stale one; the first that does so makes a stale one pass, where
the headers and the wrapper target are in the tree. -/
theorem skips_fresh (linkage : NativeLinkage) (events : List Event) :
    (AllUnmasked linkage {} events → (run events).returnsEarly linkage = true →
      (run events).Fresh linkage) ∧
    ∀ e, ¬ Unmasked linkage (run events) e → (run (events ++ [e])).Prepared →
      (run (events ++ [e])).returnsEarly linkage = true ∧
        ¬ (run (events ++ [e])).Fresh linkage := by
  constructor
  · intro hu h
    have hshown : Shown linkage (run events) :=
      shown_run timed_init (fun _ => .inl fun _ he => absurd he List.not_mem_nil) hu
    simp only [Workspace.returnsEarly, Bool.and_eq_true, Bool.not_eq_true'] at h
    obtain ⟨⟨-, hexists⟩, hcontent⟩ := h
    by_contra hnot
    obtain ⟨entry, he, hcronet, hnewest⟩ := newest_of_not_requiresRebuild hcontent
    rcases hshown hnot with holder | habsent
    · obtain ⟨path, mtime, hpath, hlt⟩ := holder entry he hcronet
      have hle := hnewest path mtime hpath
      omega
    · rw [habsent] at hexists
      cases hexists
  · intro e hm hp
    have hstep : run (events ++ [e]) = (run events).step e := List.foldl_append
    rw [hstep] at hp ⊢
    exact masked_step (timed_run timed_init) hm hp

/-- The dynamic library is built after an edit, and then its table of contents is written. -/
theorem skips_fresh_rebuilt :
    (run [.sync, .edit .bind, .build ["libcronet.so".toList],
        .change "libcronet.so.TOC".toList]).Fresh .dynamic := by
  refine (skips_fresh .dynamic _).1 ?_ (by decide +kernel)
  have hlibrary : IsLibrary "libcronet.so".toList .dynamic :=
    ⟨by decide +kernel, .inl (by decide +kernel)⟩
  refine ⟨fun _ => nofun, fun _ => nofun, fun _ _ => .inl ⟨_, List.mem_singleton_self _, hlibrary⟩,
    fun hstale => absurd ?_ hstale, trivial⟩
  refine ⟨⟨"libcronet.so".toList, 3⟩, by decide +kernel, hlibrary, ?_⟩
  intro path mtime hpath
  cases path <;> cases hpath <;> decide

/-- **The other linkage hides a stale library**: the static build that follows the edit makes
the dynamic library of before the edit pass as fresh. -/
theorem stale_hidden :
    let w := run [.sync, .build ["libcronet.so".toList], .edit .websocket,
      .build ["libcronet_static.a".toList]]
    w.returnsEarly .dynamic = true ∧ ¬ w.Fresh .dynamic := by
  intro w
  have houtput : w.output = [⟨"libcronet_static.a".toList, 4⟩, ⟨"libcronet.so".toList, 2⟩] := by
    decide +kernel
  refine ⟨by decide +kernel, ?_⟩
  rintro ⟨entry, he, hlib, hnewer⟩
  rw [houtput] at he
  rcases List.mem_pair.mp he with rfl | rfl
  · exact absurd hlib.1 (by decide +kernel)
  · exact absurd (hnewer .websocket 3 rfl) (by decide)

/-- In a directory of names that both tests tell well the two stages see the same. -/
theorem stages_agree {w : Workspace} (h : ∀ entry ∈ w.output, WellTold entry.name linkage) :
    w.nativeLibraryExists linkage =
      BuildScript.nativeLibraryExists (some (w.output.map Entry.name)) linkage := by
  rw [Workspace.nativeLibraryExists, BuildScript.nativeLibraryExists, Option.any_some,
    List.any_map, Bool.eq_iff_iff, List.any_eq_true, List.any_eq_true]
  refine exists_congr fun entry => and_congr_right fun he => ?_
  rw [(h entry he).same]
  rfl

end TokioCronet.Xtask
