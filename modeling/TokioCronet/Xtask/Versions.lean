import Mathlib.Data.Char
import TokioCronet.Lib.Joined

/-!
# Which version of a toolchain is chosen

Three functions of `xtask` look for a compiler's directory among those of several versions.
Each sorts the paths and takes the last: the order is that of the names as texts, in which
version 9 comes after version 15.
-/

namespace TokioCronet.Toolchain

open Joined

/-- A file name; its bytes are in the order of its characters. -/
abbrev Name := List Char

/-- The components of a path, of which the first is empty when it is absolute. -/
abbrev Path := List Name

/-- What `std::fs` says. An entry of a directory can fail on its own. -/
structure FileSystem where
  readDir : Path → Except String (List (Except String Name))
  isFile : Path → Bool
  isDir : Path → Bool

/-! ## The program -/

/-- `Path::join` -/
def Path.join (p : Path) (names : List String) : Path := p ++ names.map String.toList

/-- `Path::display` -/
def Path.display (p : Path) : String := "/".intercalate (p.map String.ofList)

/-- `flatten` of the results that `read_dir` iterates over. -/
def flatten (entries : List (Except String Name)) : List Name :=
  entries.filterMap fun
    | .ok name => some name
    | .error _ => none

/-- `display_error` -/
def displayError (action error : String) : String := s!"failed to {action}: {error}"

/-- `Option::ok_or_else` -/
def okOrElse (path : Option Path) (error : String) : Except String Path :=
  match path with
  | some path => .ok path
  | none => .error error

variable (fs : FileSystem)

/-- `ohos_compiler_resource_dir` -/
def ohosCompilerResourceDir (sdk : Path) (llvmTarget : Name) : Except String Path :=
  let clangRoot := sdk.join ["llvm", "lib", "clang"]
  match fs.readDir clangRoot with
  | .error error =>
    let root := clangRoot.display
    .error s!"failed to inspect OHOS compiler runtime directory {root}: {error}"
  | .ok entries =>
    let candidates := ((flatten entries).map fun name => clangRoot ++ [name]).filter fun path =>
      fs.isFile (path ++ ["lib".toList, llvmTarget, "libclang_rt.builtins.a".toList])
    let root := sdk.display
    let target := String.ofList llvmTarget
    okOrElse (last candidates)
      s!"OHOS Native SDK {root} has no compiler runtime for `{target}`"

/-- `latest_clang_resource_dir` -/
def latestClangResourceDir (root : Path) : Except String Path :=
  match fs.readDir root with
  | .error error => .error (displayError "list Chromium Clang resource directories" error)
  | .ok entries =>
    let candidates := ((flatten entries).map fun name => root ++ [name]).filter fun path =>
      fs.isDir (path.join ["include"]) && fs.isDir (path.join ["lib"])
    let below := root.display
    okOrElse (last candidates)
      s!"Chromium Clang has no complete resource directory below {below}"

/-- What is found below one prebuilt host. -/
def ndkCandidates (clangRoot : Path) (archiveName : Name) : List Path :=
  match fs.readDir clangRoot with
  | .error _ => []
  | .ok versions =>
    ((flatten versions).map fun version =>
      clangRoot ++ [version] ++ ["lib".toList, "linux".toList, archiveName]).filter fs.isFile

/-- `find_android_ndk_runtime` -/
def findAndroidNdkRuntime (ndk : Path) (archiveName : Name) : Except String Path :=
  let prebuiltRoot := ndk.join ["toolchains", "llvm", "prebuilt"]
  match fs.readDir prebuiltRoot with
  | .error error => .error (displayError "list Android NDK toolchains" error)
  | .ok entries => do
    let candidates ← entries.mapM fun
      | .error error => .error (displayError "read Android NDK toolchain entry" error)
      | .ok prebuilt =>
        let clangRoot := prebuiltRoot ++ [prebuilt, "lib".toList, "clang".toList]
        .ok (ndkCandidates fs clangRoot archiveName)
    let root := ndk.display
    let archive := String.ofList archiveName
    okOrElse (last candidates.flatten)
      s!"Android NDK {root} does not contain compiler runtime `{archive}`"

/-! ## Versions -/

/-- The numbers of a version; the greater is the one whose first other number is. -/
abbrev Version := { numbers : List Nat // numbers ≠ [] }

/-- The decimal text. -/
def digits (n : Nat) : List Char := Nat.toDigits 10 n

/-- The name of the directory. -/
def Version.text (v : Version) : Name := ['.'].intercalate (v.1.map digits)

/-- At the first number in which two versions differ, that of the one has fewer digits, and
the greater digit where the digits differ first. -/
def Overtakes (v w : Version) : Prop :=
  ∃ p a b s t, v.1 = p ++ a :: s ∧ w.1 = p ++ b :: t ∧
    (digits a).length < (digits b).length ∧ digits b < digits a

theorem length_digits_lt {a b : Nat} (h : (digits a).length < (digits b).length) : a < b := by
  have hpos : 0 < (digits a).length := Nat.length_toDigits_pos
  have ha : a < 10 ^ (digits a).length :=
    (Nat.length_toDigits_le_iff (by decide) hpos).mp (Nat.le_refl _)
  have hb : ¬ b < 10 ^ (digits a).length := fun hb =>
    Nat.not_le.mpr h ((Nat.length_toDigits_le_iff (by decide) hpos).mpr hb)
  omega

theorem length_digits_le {a b : Nat} (h : a < b) : (digits a).length ≤ (digits b).length := by
  by_contra hlt
  have := length_digits_lt (Nat.not_le.mp hlt)
  omega

/-- Of numbers with as many digits the greater has the greater text. -/
theorem digits_lt_digits {a b : Nat} (h : a < b) (hlen : (digits a).length = (digits b).length) :
    digits a < digits b := by
  induction b using Nat.strongRecOn generalizing a with
  | ind b ih =>
    by_cases hb : b < 10
    · have hdigit : ∀ y < 10, ∀ x < y, Nat.digitChar x < Nat.digitChar y := by decide
      rw [digits, digits, Nat.toDigits_of_lt_base hb, Nat.toDigits_of_lt_base (by omega)]
      exact .rel (hdigit b hb a h)
    · have hsplit : ∀ {n}, 10 ≤ n → digits n = digits (n / 10) ++ [(n % 10).digitChar] :=
        fun hn => Nat.toDigits_of_base_le (by decide) hn
      have ha : 10 ≤ a := by
        by_contra ha
        rw [hsplit (Nat.not_lt.mp hb), digits, Nat.toDigits_of_lt_base (by omega),
          List.length_append, List.length_singleton, List.length_singleton] at hlen
        have hpos : 0 < (digits (b / 10)).length := Nat.length_toDigits_pos
        omega
      rw [hsplit ha, hsplit (Nat.not_lt.mp hb), List.length_append, List.length_append] at hlen
      rw [hsplit ha, hsplit (Nat.not_lt.mp hb)]
      rcases Nat.lt_or_eq_of_le (Nat.div_le_div_right (c := 10) h.le) with hlt | heq
      · refine append_lt_append_of_length (Nat.add_right_cancel hlen) ?_
        exact ih (b / 10) (by omega) hlt (Nat.add_right_cancel hlen)
      · rw [heq]
        refine List.Lex.append_left _ (.rel ?_) _
        have hdigit : ∀ y < 10, ∀ x < y, Nat.digitChar x < Nat.digitChar y := by decide
        exact hdigit _ (Nat.mod_lt b (by decide)) _ (by omega)

theorem digits_injective : Function.Injective digits := by
  intro a b h
  have hdecode := congrArg (Nat.ofDigitChars 10 · 0) h
  simp only [digits, Nat.ofDigitChars_ten_toDigits] at hdecode
  exact hdecode

/-- A smaller number has a greater text only with fewer digits. -/
theorem digits_turned {a b : Nat} : a < b ∧ digits b < digits a ↔
    (digits a).length < (digits b).length ∧ digits b < digits a := by
  refine and_congr_left fun hgt => ⟨fun hlt => ?_, length_digits_lt⟩
  refine Nat.lt_of_le_of_ne (length_digits_le hlt) fun hlen => ?_
  exact lt_asymm hgt (digits_lt_digits hlt hlen)

/-- A dot is smaller than a digit. -/
theorem dot_lt_digit {n : Nat} : ∀ c ∈ digits n, '.' < c := by
  intro c hc
  have hdigit := Nat.isDigit_of_mem_toDigits (b := 10) (by decide) (by decide) hc
  have hge : '0' ≤ c := by
    simp only [Char.isDigit, Bool.and_eq_true, decide_eq_true_eq] at hdigit
    exact hdigit.1
  exact lt_of_lt_of_le (by decide) hge

theorem text_lt_text {v w : Version} : v.text < w.text ↔ v.1.map digits < w.1.map digits := by
  have hdigits : ∀ v : Version, ∀ a ∈ v.1.map digits, ∀ c ∈ a, '.' < c := by
    intro v a ha
    obtain ⟨n, -, rfl⟩ := List.mem_map.mp ha
    exact dot_lt_digit
  exact intercalate_lt_intercalate (mt List.map_eq_nil_iff.mp v.2) (mt List.map_eq_nil_iff.mp w.2)
    (hdigits v) (hdigits w)

theorem text_injective {v w : Version} (h : v.text = w.text) : v = w := by
  have heq : v.1.map digits = w.1.map digits :=
    le_antisymm (not_lt.mp fun hlt => (text_lt_text.mpr hlt).ne h.symm)
      (not_lt.mp fun hlt => (text_lt_text.mpr hlt).ne h)
  exact Subtype.ext (digits_injective.list_map heq)

/-- **What overtakes** is the smaller version with the greater name. -/
theorem overtakes_iff {v w : Version} : Overtakes v w ↔ v < w ∧ w.text < v.text := by
  rw [text_lt_text]
  refine Iff.trans ?_ (map_lt_map_of_lt digits_injective).symm
  simp only [Overtakes, digits_turned]

/-! ## What is chosen -/

/-- The greatest complete version, and an error only when there is none. -/
def Chooses (versions : List Version) (complete : Version → Bool) (path : Version → Path)
    (result : Except String Path) : Prop :=
  (∀ p, result = .ok p → ∃ v ∈ versions, complete v ∧ p = path v ∧
    ∀ w ∈ versions, complete w → w ≤ v) ∧
  ((∃ error, result = .error error) ↔ ∀ v ∈ versions, ¬ complete v)

/-- No complete version overtakes the greatest. -/
def NoneOvertakes (versions : List Version) (complete : Version → Bool) : Prop :=
  ∀ v ∈ versions, complete v → (∀ w ∈ versions, complete w → w ≤ v) →
    ∀ w ∈ versions, complete w → ¬ Overtakes w v

/-- The directory holds these versions, or does not exist. -/
def Holds (dir : Path) (versions : List Version) : Prop :=
  match fs.readDir dir with
  | .ok entries => flatten entries = versions.map Version.text
  | .error _ => versions = []

section Choice

variable {versions : List Version} {complete : Version → Bool} {path : Version → Path}
  {result : Except String Path}

/-- Paths that are in the order of the names. -/
def Ordered (path : Version → Path) : Prop := ∀ v w, path v < path w ↔ v.text < w.text

theorem Ordered.le {v w : Version} (h : Ordered path) : path v ≤ path w ↔ v.text ≤ w.text := by
  rw [← not_lt, ← not_lt, h]

/-- Whoever takes the last of the sorted paths. -/
theorem chooses_iff (hpath : Ordered path)
    (hok : ∀ p, result = .ok p ↔ last ((versions.filter complete).map path) = some p) :
    Chooses versions complete path result ↔ NoneOvertakes versions complete := by
  have hmem : ∀ {p}, p ∈ (versions.filter complete).map path ↔
      ∃ v ∈ versions, complete v ∧ path v = p := by
    intro p
    simp only [List.mem_map, List.mem_filter, and_assoc]
  constructor
  · rintro ⟨hchosen, -⟩ v hv hcv hgreatest w hw hcw hover
    cases hlast : last ((versions.filter complete).map path) with
    | none =>
      have hpv := hmem.mpr ⟨v, hv, hcv, rfl⟩
      rw [last_eq_none.mp hlast] at hpv
      cases hpv
    | some p =>
      obtain ⟨u, hu, hcu, rfl, hle⟩ := hchosen p ((hok p).mpr hlast)
      obtain rfl : u = v := le_antisymm (hgreatest u hu hcu) (hle v hv hcv)
      have hwu := (last_eq_some.mp hlast).2 (path w) (hmem.mpr ⟨w, hw, hcw, rfl⟩)
      exact absurd (overtakes_iff.mp hover).2 (not_lt.mpr (hpath.le.mp hwu))
  · intro hnone
    constructor
    · intro p hp
      obtain ⟨hp, hle⟩ := last_eq_some.mp ((hok p).mp hp)
      obtain ⟨v, hv, hcv, rfl⟩ := hmem.mp hp
      refine ⟨v, hv, hcv, rfl, ?_⟩
      -- the greatest of the versions
      cases hlast : last (versions.filter complete) with
      | none =>
        have hfilter := List.mem_filter.mpr ⟨hv, hcv⟩
        rw [last_eq_none.mp hlast] at hfilter
        cases hfilter
      | some u =>
        obtain ⟨hu, hgreatest⟩ := last_eq_some.mp hlast
        obtain ⟨hu, hcu⟩ := List.mem_filter.mp hu
        have hgreatest : ∀ w ∈ versions, complete w → w ≤ u := fun w hw hcw =>
          hgreatest w (List.mem_filter.mpr ⟨hw, hcw⟩)
        rcases (hgreatest v hv hcv).lt_or_eq with hlt | rfl
        · have hname : u.text ≤ v.text := hpath.le.mp (hle _ (hmem.mpr ⟨u, hu, hcu, rfl⟩))
          rcases hname.lt_or_eq with hname | hname
          · exact absurd (overtakes_iff.mpr ⟨hlt, hname⟩) (hnone u hu hcu hgreatest v hv hcv)
          · exact text_injective hname ▸ hgreatest
        · exact hgreatest
    · have hempty : last ((versions.filter complete).map path) = none ↔
          ∀ v ∈ versions, ¬ complete v := by
        rw [last_eq_none, List.map_eq_nil_iff, List.filter_eq_nil_iff]
      rw [← hempty]
      cases hlast : last ((versions.filter complete).map path) with
      | none =>
        refine iff_of_true ?_ rfl
        cases result with
        | error error => exact ⟨error, rfl⟩
        | ok p => rw [(hok p).mp rfl] at hlast; cases hlast
      | some p =>
        refine iff_of_false ?_ nofun
        rw [(hok p).mpr hlast]
        exact nofun

end Choice

/-- Below one directory and above one file. -/
theorem ordered_below (root suffix : Path) : Ordered fun v => root ++ [v.text] ++ suffix := by
  intro v w
  simp only [List.append_assoc]
  induction root with
  | nil =>
    simp only [List.nil_append, List.singleton_append, List.cons_lt_cons_iff]
    exact or_iff_left fun h => lt_irrefl _ h.2
  | cons name root ih =>
    simp only [List.cons_append, List.cons_lt_cons_iff, lt_irrefl, true_and, false_or]
    exact ih

theorem ordered_dir (root : Path) : Ordered fun v => root ++ [v.text] := by
  simpa using ordered_below root []

/-- What is listed, made into paths and filtered, is what is complete. -/
theorem candidates_eq {dir : Path} {versions : List Version}
    {entries : List (Except String Name)} (hread : fs.readDir dir = .ok entries)
    (hdir : Holds fs dir versions) (f : Name → Path) (p : Path → Bool) :
    ((flatten entries).map f).filter p =
      (versions.filter fun v => p (f v.text)).map fun v => f v.text := by
  rw [Holds, hread] at hdir
  simp only at hdir
  rw [hdir, List.map_map, List.filter_map]
  rfl

theorem okOrElse_ok {path : Option Path} {error : String} {p : Path} :
    okOrElse path error = .ok p ↔ path = some p := by
  cases path <;> simp [okOrElse]

section Functions

variable {versions : List Version}

/-- The directory that `ohos_compiler_resource_dir` lists. -/
def ohosRoot (sdk : Path) : Path := sdk.join ["llvm", "lib", "clang"]

/-- The version has the runtime of the target. -/
def ohosComplete (sdk : Path) (llvmTarget : Name) (v : Version) : Bool :=
  fs.isFile (ohosRoot sdk ++ [v.text] ++
    ["lib".toList, llvmTarget, "libclang_rt.builtins.a".toList])

/-- A directory that `latest_clang_resource_dir` takes. -/
def clangComplete (root : Path) (v : Version) : Bool :=
  fs.isDir ((root ++ [v.text]).join ["include"]) && fs.isDir ((root ++ [v.text]).join ["lib"])

/-- A directory that `find_android_ndk_runtime` lists. -/
def ndkRoot (ndk : Path) (host : Name) : Path :=
  ndk.join ["toolchains", "llvm", "prebuilt"] ++ [host, "lib".toList, "clang".toList]

/-- The archive that `find_android_ndk_runtime` looks for. -/
def ndkRuntime (ndk : Path) (host archiveName : Name) (v : Version) : Path :=
  ndkRoot ndk host ++ [v.text] ++ ["lib".toList, "linux".toList, archiveName]

variable {fs}

theorem ohos_ok {sdk : Path} {llvmTarget : Name} (hdir : Holds fs (ohosRoot sdk) versions)
    (p : Path) : ohosCompilerResourceDir fs sdk llvmTarget = .ok p ↔
      last ((versions.filter (ohosComplete fs sdk llvmTarget)).map
        fun v => ohosRoot sdk ++ [v.text]) = some p := by
  change (match fs.readDir (ohosRoot sdk) with | .error _ => _ | .ok _ => _) = _ ↔ _
  cases hread : fs.readDir (ohosRoot sdk) with
  | error error =>
    rw [Holds, hread] at hdir
    subst hdir
    exact iff_of_false nofun fun h => List.not_mem_nil (last_eq_some.mp h).1
  | ok entries =>
    refine okOrElse_ok.trans ?_
    have hcandidates := candidates_eq fs hread hdir (fun name => ohosRoot sdk ++ [name])
    exact iff_of_eq (congrArg (last · = some p) (hcandidates _))

theorem clang_ok {root : Path} (hdir : Holds fs root versions) (p : Path) :
    latestClangResourceDir fs root = .ok p ↔
      last ((versions.filter (clangComplete fs root)).map fun v => root ++ [v.text]) = some p := by
  unfold latestClangResourceDir
  cases hread : fs.readDir root with
  | error error =>
    rw [Holds, hread] at hdir
    subst hdir
    exact iff_of_false nofun fun h => List.not_mem_nil (last_eq_some.mp h).1
  | ok entries =>
    refine okOrElse_ok.trans ?_
    have hcandidates := candidates_eq fs hread hdir (fun name => root ++ [name])
    exact iff_of_eq (congrArg (last · = some p) (hcandidates _))

theorem ndkCandidates_eq {root : Path} {archiveName : Name} (hdir : Holds fs root versions) :
    ndkCandidates fs root archiveName =
      (versions.filter fun v => fs.isFile
        (root ++ [v.text] ++ ["lib".toList, "linux".toList, archiveName])).map
          fun v => root ++ [v.text] ++ ["lib".toList, "linux".toList, archiveName] := by
  unfold ndkCandidates
  cases hread : fs.readDir root with
  | error error =>
    rw [Holds, hread] at hdir
    subst hdir
    rfl
  | ok entries => exact candidates_eq fs hread hdir _ _

theorem ndk_ok {ndk : Path} {host archiveName : Name}
    (hhost : fs.readDir (ndk.join ["toolchains", "llvm", "prebuilt"]) = .ok [.ok host])
    (hdir : Holds fs (ndkRoot ndk host) versions) (p : Path) :
    findAndroidNdkRuntime fs ndk archiveName = .ok p ↔
      last ((versions.filter fun v => fs.isFile (ndkRuntime ndk host archiveName v)).map
        (ndkRuntime ndk host archiveName)) = some p := by
  unfold findAndroidNdkRuntime
  simp only [hhost]
  refine okOrElse_ok.trans ?_
  rw [List.reverse_singleton, List.flatten_singleton]
  exact iff_of_eq (congrArg (last · = some p) (ndkCandidates_eq hdir))

/-- **The chosen version is the greatest exactly when nothing overtakes it.** -/
theorem latest_iff (versions : List Version) :
    (∀ sdk llvmTarget, Holds fs (ohosRoot sdk) versions →
      (Chooses versions (ohosComplete fs sdk llvmTarget) (fun v => ohosRoot sdk ++ [v.text])
          (ohosCompilerResourceDir fs sdk llvmTarget) ↔
        NoneOvertakes versions (ohosComplete fs sdk llvmTarget))) ∧
    (∀ root, Holds fs root versions →
      (Chooses versions (clangComplete fs root) (fun v => root ++ [v.text])
          (latestClangResourceDir fs root) ↔
        NoneOvertakes versions (clangComplete fs root))) ∧
    ∀ ndk host archiveName,
      fs.readDir (ndk.join ["toolchains", "llvm", "prebuilt"]) = .ok [.ok host] →
      Holds fs (ndkRoot ndk host) versions →
      (Chooses versions (fun v => fs.isFile (ndkRuntime ndk host archiveName v))
          (ndkRuntime ndk host archiveName) (findAndroidNdkRuntime fs ndk archiveName) ↔
        NoneOvertakes versions fun v => fs.isFile (ndkRuntime ndk host archiveName v)) := by
  refine ⟨fun sdk llvmTarget hdir => ?_, fun root hdir => ?_,
    fun ndk host archiveName hhost hdir => ?_⟩
  · exact chooses_iff (ordered_dir (ohosRoot sdk)) (ohos_ok hdir)
  · exact chooses_iff (ordered_dir root) (clang_ok hdir)
  · exact chooses_iff (ordered_below (ndkRoot ndk host) _) (ndk_ok hhost hdir)

end Functions

/-- Versions 9.0.1 and 15.0.4. -/
def nineAndFifteen : List Version := [⟨[9, 0, 1], by decide⟩, ⟨[15, 0, 4], by decide⟩]

/-- Both are complete; the one prebuilt host is `linux`. -/
def bothComplete : FileSystem where
  readDir p :=
    .ok (if p.length = 3 then [.ok "linux".toList] else nineAndFifteen.map (.ok ·.text))
  isFile _ := true
  isDir _ := true

theorem nine_overtakes : ¬ NoneOvertakes nineAndFifteen fun _ => true := by
  intro h
  refine h ⟨[15, 0, 4], by decide⟩ (by simp [nineAndFifteen]) rfl ?_ ⟨[9, 0, 1], by decide⟩
    (by simp [nineAndFifteen]) rfl ?_
  · intro w hw _
    rcases List.mem_cons.mp hw with rfl | hw
    · exact le_of_lt (List.Lex.rel (by decide))
    · exact (List.mem_singleton.mp hw).le
  · exact ⟨[], 9, 15, [0, 1], [0, 4], rfl, rfl, by decide, by decide⟩

/-- The three functions on both versions. -/
theorem latest_iff_nine :
    let sdk : Path := [[]]
    (Chooses nineAndFifteen (fun _ => true) (fun v => ohosRoot sdk ++ [v.text])
        (ohosCompilerResourceDir bothComplete sdk "aarch64-linux-ohos".toList) ↔
      NoneOvertakes nineAndFifteen fun _ => true) ∧
    (Chooses nineAndFifteen (fun _ => true) (fun v => sdk ++ [v.text])
        (latestClangResourceDir bothComplete sdk) ↔
      NoneOvertakes nineAndFifteen fun _ => true) ∧
    (Chooses nineAndFifteen (fun _ => true) (ndkRuntime [] "linux".toList "rt.a".toList)
        (findAndroidNdkRuntime bothComplete [] "rt.a".toList) ↔
      NoneOvertakes nineAndFifteen fun _ => true) :=
  ⟨(latest_iff nineAndFifteen).1 _ _ rfl, (latest_iff nineAndFifteen).2.1 _ rfl,
    (latest_iff nineAndFifteen).2.2 _ _ _ rfl rfl⟩

/-- Version 9.0.1 is chosen although version 15.0.4 is complete. -/
theorem nine_chosen :
    let sdk : Path := [[]]
    Holds bothComplete (ohosRoot sdk) nineAndFifteen ∧
      ohosCompilerResourceDir bothComplete sdk "aarch64-linux-ohos".toList =
        .ok (ohosRoot sdk ++ ["9.0.1".toList]) ∧
      ¬ Chooses nineAndFifteen (fun _ => true) (fun v => ohosRoot sdk ++ [v.text])
        (ohosCompilerResourceDir bothComplete sdk "aarch64-linux-ohos".toList) ∧
      ¬ Chooses nineAndFifteen (fun _ => true) (fun v => sdk ++ [v.text])
        (latestClangResourceDir bothComplete sdk) ∧
      ¬ Chooses nineAndFifteen (fun _ => true) (ndkRuntime [] "linux".toList "rt.a".toList)
        (findAndroidNdkRuntime bothComplete [] "rt.a".toList) := by
  intro sdk
  have hohos : Holds bothComplete (ohosRoot sdk) nineAndFifteen := rfl
  have hclang : Holds bothComplete sdk nineAndFifteen := rfl
  have hndk : Holds bothComplete (ndkRoot [] "linux".toList) nineAndFifteen := rfl
  refine ⟨hohos, ?_, fun h => ?_, fun h => ?_, fun h => ?_⟩
  · refine (ohos_ok hohos _).mpr (last_eq_some.mpr ⟨?_, ?_⟩)
    · exact List.mem_map.mpr ⟨⟨[9, 0, 1], by decide⟩, by simp [nineAndFifteen, ohosComplete,
        bothComplete], by decide⟩
    · intro p hp
      obtain ⟨v, hv, rfl⟩ := List.mem_map.mp hp
      refine (ordered_dir (ohosRoot sdk)).le (w := ⟨[9, 0, 1], by decide⟩) |>.mpr ?_
      rcases List.mem_cons.mp (List.mem_filter.mp hv).1 with rfl | hv
      · exact le_rfl
      · rw [List.mem_singleton.mp hv]
        exact le_of_lt (by decide)
  · exact nine_overtakes ((chooses_iff (ordered_dir _) (ohos_ok hohos)).mp h)
  · exact nine_overtakes ((chooses_iff (ordered_dir _) (clang_ok hclang)).mp h)
  · exact nine_overtakes ((chooses_iff (ordered_below _ _) (ndk_ok rfl hndk)).mp h)

end TokioCronet.Toolchain
